import FaberHosts.Lib.BTree
import FaberHosts.Lib.Codes

/-!
# Device identity

`backend.rs` and `device_identity.rs`: the physical backend, the identity facts
a `PhysicalDeviceId` is made of, the ordinal locator, the health generation and
the canonical byte encoding they share.
-/

namespace FaberHosts.Coordinator
open FaberHosts.Lib

/-! ## Canonical bytes -/

/-- The low `count` bytes of `value`, least significant first. -/
def leBytes : Nat → Nat → List UInt8
  | 0, _ => []
  | count + 1, value => UInt8.ofNat value :: leBytes count (value / 256)

def pushU64 (v : UInt64) : List UInt8 := leBytes 8 v.toNat

def pushU32 (v : UInt32) : List UInt8 := leBytes 4 v.toNat

def pushBool (v : Bool) : List UInt8 := [if v then 1 else 0]

/-- A `usize` length as the `u64` the encoding writes. -/
def pushLen (n : Nat) : List UInt8 := pushU64 (UInt64.ofNat n)

def utf8Bytes (s : String) : List UInt8 := s.toUTF8.data.toList

def pushStr (s : String) : List UInt8 := pushLen (utf8Bytes s).length ++ utf8Bytes s

/-! ## Backend -/

/-- A native device backend admitted by the product host. -/
inductive DeviceBackend where
  | metal
  | cuda
  deriving DecidableEq, Repr

def DeviceBackend.spelling : DeviceBackend → String
  | .metal => "metal"
  | .cuda => "cuda"

instance : ToString DeviceBackend := ⟨DeviceBackend.spelling⟩

/-! ## Physical device identity -/

structure CudaIdentityFacts where
  pciUuid : String
  driverUuid : Option String
  deriving DecidableEq, Repr

structure MetalIdentityFacts where
  registryId : String
  deriving DecidableEq, Repr

/-- Canonical stable identity facts of one device.  Ordinal, topology, capability
    and memory facts never appear here. -/
inductive DeviceIdentityFacts where
  | cuda (facts : CudaIdentityFacts)
  | metal (facts : MetalIdentityFacts)
  deriving DecidableEq, Repr

/-- An opaque, machine-local identity of one physical device. -/
structure PhysicalDeviceId where
  facts : DeviceIdentityFacts
  deriving DecidableEq, Repr

namespace PhysicalDeviceId

/-- The derived order: CUDA before Metal, then field by field. -/
def orderKey (id : PhysicalDeviceId) : Nat × String × Option String :=
  match id.facts with
  | .cuda c => (0, c.pciUuid, c.driverUuid)
  | .metal m => (1, m.registryId, none)

theorem orderKey_injective : Function.Injective orderKey := by
  rintro ⟨a⟩ ⟨b⟩ h
  cases a with
  | cuda a =>
    cases b with
    | cuda b => cases a; cases b; simpa [orderKey] using h
    | metal b => simp [orderKey] at h
  | metal a =>
    cases b with
    | cuda b => simp [orderKey] at h
    | metal b => cases a; cases b; simpa [orderKey] using h

instance : Ord PhysicalDeviceId := ⟨compareOn orderKey⟩

instance : Std.TransOrd PhysicalDeviceId := inferInstanceAs (Std.TransCmp (compareOn orderKey))

instance : Std.LawfulEqOrd PhysicalDeviceId := lawfulEq_compareOn orderKey_injective

def backend (id : PhysicalDeviceId) : DeviceBackend :=
  match id.facts with
  | .cuda _ => .cuda
  | .metal _ => .metal

def canonicalBytes (id : PhysicalDeviceId) : List UInt8 :=
  match id.facts with
  | .cuda c =>
    [0] ++ pushStr c.pciUuid ++ pushBool c.driverUuid.isSome ++
      (match c.driverUuid with
      | some uuid => pushStr uuid
      | none => [])
  | .metal m => [1] ++ pushStr m.registryId

instance : ToString PhysicalDeviceId where
  toString id :=
    match id.facts with
    | .cuda c =>
      s!"cuda:{c.pciUuid}" ++
        (match c.driverUuid with
        | some uuid => s!" (driver {uuid})"
        | none => "")
    | .metal m => s!"metal:{m.registryId}"

end PhysicalDeviceId

/-! ## Ordinal and health generation -/

/-- Locator-only ordinal of a device within one machine. -/
structure DeviceOrdinal where
  ordinal : UInt32
  deriving DecidableEq, Repr

namespace DeviceOrdinal

theorem toNat_injective : Function.Injective (fun o : DeviceOrdinal => o.ordinal.toNat) := by
  rintro ⟨a⟩ ⟨b⟩ h
  exact congrArg DeviceOrdinal.mk (UInt32.toNat.inj h)

instance : Ord DeviceOrdinal := ⟨compareOn (fun o => o.ordinal.toNat)⟩

instance : Std.TransOrd DeviceOrdinal :=
  inferInstanceAs (Std.TransCmp (compareOn (fun o : DeviceOrdinal => o.ordinal.toNat)))

instance : Std.LawfulEqOrd DeviceOrdinal := lawfulEq_compareOn toNat_injective

end DeviceOrdinal

/-- Machine-local epoch over the admission-gating facts. -/
structure DeviceHealthGeneration where
  epoch : UInt64
  deriving DecidableEq, Repr

namespace DeviceHealthGeneration

/-- `candidate` is not the current generation. -/
def isStale (current candidate : DeviceHealthGeneration) : Bool := candidate ≠ current

instance : ToString DeviceHealthGeneration := ⟨fun g => toString g.epoch.toNat⟩

end DeviceHealthGeneration

end FaberHosts.Coordinator

/-!
## Reading canonical bytes back

The fixed-width integers and length-prefixed strings of the canonical encoding
delimit their values, and a length below `2^32` shows as four bytes of its value
and four zero bytes.
-/

namespace FaberHosts.Coordinator
open FaberHosts.Lib

theorem leBytes_append_inj {count a b : Nat} (ha : a < 256 ^ count) (hb : b < 256 ^ count)
    (r s : List UInt8) : leBytes count a ++ r = leBytes count b ++ s ↔ a = b ∧ r = s := by
  induction count generalizing a b with
  | zero =>
    have hzero : a = b := by simp at ha hb; omega
    simp [leBytes, hzero]
  | succ count ih =>
    rw [pow_succ] at ha hb
    have hbyte : UInt8.ofNat a = UInt8.ofNat b ↔ a % 256 = b % 256 := by
      rw [← UInt8.toNat_inj, UInt8.toNat_ofNat', UInt8.toNat_ofNat']
    have hrest := @ih (a / 256) (b / 256) (by omega) (by omega)
    rw [leBytes, leBytes, List.cons_append, List.cons_append, List.cons.injEq, hrest, hbyte,
      ← and_assoc]
    exact and_congr_left' (by omega)

theorem leBytes_add (m n v : Nat) : leBytes (m + n) v = leBytes m v ++ leBytes n (v / 256 ^ m) := by
  induction m generalizing v with
  | zero => simp [leBytes]
  | succ m ih =>
    rw [Nat.succ_add, leBytes, leBytes, ih, List.cons_append, Nat.div_div_eq_div_mul, pow_succ,
      Nat.mul_comm 256]

@[simp] theorem pushU32_append_inj (a b : UInt32) (r s : List UInt8) :
    pushU32 a ++ r = pushU32 b ++ s ↔ a = b ∧ r = s := by
  rw [pushU32, pushU32, leBytes_append_inj a.toNat_lt b.toNat_lt, UInt32.toNat_inj]

@[simp] theorem pushU64_append_inj (a b : UInt64) (r s : List UInt8) :
    pushU64 a ++ r = pushU64 b ++ s ↔ a = b ∧ r = s := by
  rw [pushU64, pushU64, leBytes_append_inj a.toNat_lt b.toNat_lt, UInt64.toNat_inj]

theorem pushU32_delimits : Delimits (fun _ => True) id pushU32 :=
  fun a b _ _ r s => pushU32_append_inj a b r s

theorem pushU64_delimits : Delimits (fun _ => True) id pushU64 :=
  fun a b _ _ r s => pushU64_append_inj a b r s

theorem pushLen_delimits : Delimits (· < 2 ^ 64) id pushLen := by
  intro a b ha hb r s
  have hinj : UInt64.ofNat a = UInt64.ofNat b ↔ a = b := by
    rw [← UInt64.toNat_inj, UInt64.toNat_ofNat_of_lt' ha, UInt64.toNat_ofNat_of_lt' hb]
  rw [pushLen, pushLen, pushU64_append_inj, hinj]
  rfl

theorem utf8Bytes_injective : Function.Injective utf8Bytes := by
  intro s t h
  have hdata : s.toByteArray.data = t.toByteArray.data := Array.toList_inj.mp h
  exact String.toByteArray_inj.mp (ByteArray.ext hdata)

theorem utf8Bytes_append (s t : String) : utf8Bytes (s ++ t) = utf8Bytes s ++ utf8Bytes t := by
  simp [utf8Bytes]

theorem utf8Bytes_ofList (l : List Char) :
    utf8Bytes (String.ofList l) = l.flatMap String.utf8EncodeChar := by
  simp [utf8Bytes, List.utf8Encode]

theorem length_utf8Bytes_le (s : String) : (utf8Bytes s).length ≤ 4 * s.length := by
  obtain ⟨l, rfl⟩ : ∃ l, String.ofList l = s := ⟨s.toList, String.ofList_toList⟩
  rw [utf8Bytes_ofList, String.length_ofList]
  induction l with
  | nil => rfl
  | cons c l ih =>
    have hchar := Char.utf8Size_le_four c
    rw [List.flatMap_cons, List.length_append, String.length_utf8EncodeChar, List.length_cons]
    omega

theorem pushStr_delimits : Delimits (fun s => (utf8Bytes s).length < 2 ^ 64) id pushStr := by
  intro a b ha hb r s
  rw [pushStr, pushStr, List.append_assoc, List.append_assoc, pushLen_delimits _ _ ha hb]
  constructor
  · rintro ⟨hlength, hrest⟩
    obtain ⟨hbytes, rfl⟩ := List.append_inj hrest hlength
    exact ⟨utf8Bytes_injective hbytes, rfl⟩
  · rintro ⟨heq, rfl⟩
    obtain rfl : a = b := heq
    exact ⟨rfl, rfl⟩

/-- Strings of Rust are shorter than their `usize` length allows. -/
def Short (s : String) : Prop := (utf8Bytes s).length < 2 ^ 64

instance (s : String) : Decidable (Short s) := inferInstanceAs (Decidable (_ < _))

theorem pushStr_append_inj {a b : String} (ha : Short a) (hb : Short b) (r s : List UInt8) :
    pushStr a ++ r = pushStr b ++ s ↔ a = b ∧ r = s :=
  pushStr_delimits a b ha hb r s

theorem pushLen_of_lt {n : Nat} (hn : n < 2 ^ 32) :
    pushLen n = pushU32 (UInt32.ofNat n) ++ pushU32 0 := by
  rw [pushLen, pushU64, UInt64.toNat_ofNat_of_lt' (hn.trans (by norm_num)), pushU32, pushU32,
    UInt32.toNat_ofNat_of_lt' hn, show (8 : Nat) = 4 + 4 from rfl, leBytes_add,
    Nat.div_eq_of_lt (by omega)]
  rfl

end FaberHosts.Coordinator
