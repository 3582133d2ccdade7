import FaberHosts.Llvm.Arenas

/-!
# Cells and calls of the LLVM host

`array.rs`: the values of a kind that a call reads and writes through pointers, and what
a call answers.
-/

namespace FaberHosts.Llvm
open FaberHosts.Kernel FaberHosts.Lib

/-! ## Arenas that change -/

namespace Arena

variable {α : Type}

/-- A new object at an address the allocator gives. -/
def store (arena : Arena α) (handle : Handle) (value : α) : Arena α := arena ++ [(handle, value)]

/-- Change the first object at the address. -/
def update (arena : Arena α) (handle : Handle) (change : α → α) : Arena α :=
  match arena with
  | [] => []
  | entry :: rest =>
    if entry.1 = handle then (entry.1, change entry.2) :: rest
    else entry :: update rest handle change

variable (arena : Arena α) (handle : Handle)

@[simp] theorem find_nil : Arena.find ([] : Arena α) handle = none := rfl

theorem find_cons (entry : Handle × α) :
    Arena.find (entry :: arena) handle =
      if entry.1 = handle then some entry.2 else Arena.find arena handle := by
  by_cases h : entry.1 = handle
  · simp [Arena.find, h]
  · simp [Arena.find, h]

theorem find_store (value : α) (other : Handle) :
    (arena.store handle value).find other =
      (arena.find other).or (if handle = other then some value else none) := by
  induction arena with
  | nil => simp [store, find_cons]
  | cons entry rest ih =>
    rw [find_cons, store, List.cons_append, find_cons, ← store, ih]
    split
    · rfl
    · rfl

theorem find_update (change : α → α) (other : Handle) :
    (arena.update handle change).find other =
      if handle = other then (arena.find other).map change else arena.find other := by
  induction arena with
  | nil => simp [update]
  | cons entry rest ih =>
    rw [update]
    split
    · next hentry =>
      rw [find_cons, find_cons, hentry]
      split <;> rfl
    · next hentry =>
      rw [find_cons, find_cons, ih]
      split
      · next hother =>
        rw [if_neg]
        intro hsame
        exact hentry (hother.trans hsame.symm)
      · rfl

end Arena

/-- The arenas that conversions and calls add to, besides those a lookup meets. -/
structure Runtime (Instans : Type) extends RuntimeContext Instans where
  ascii : Arena (List UInt8)
  numericBoxes : Arena Int64

/-- A runtime that owns nothing. -/
def emptyRuntime : Runtime Unit where
  texts := []
  valors := []
  octeti := []
  instants := []
  arrays := []
  options := []
  maps := []
  sets := []
  tensors := []
  displayTokens := none
  ascii := []
  numericBoxes := []

/-! ## Cells -/

/-- The width in bytes of the cells of a kind, to which their addresses are aligned. -/
def ValueKind.width : ValueKind → Option Nat
  | .i1 | .i8 | .u8 => some 1
  | .i16 | .u16 | .f16 => some 2
  | .i32 | .u32 | .f32 => some 4
  | .i64 | .u64 | .f64 => some 8
  | .ptr | .text | .valor | .optionI64 | .instans | .ascii => some 8
  | .other _ => none

/-- The cell that the low bytes of a word make. -/
def ValueKind.cell (word : UInt64) : ValueKind → Option RuntimeValue
  | .i1 => some (.i1 word.toUInt8)
  | .i8 => some (.i8 word.toUInt8.toInt8)
  | .i16 => some (.i16 word.toUInt16.toInt16)
  | .i32 => some (.i32 word.toUInt32.toInt32)
  | .i64 => some (.i64 word.toInt64)
  | .u8 => some (.u8 word.toUInt8)
  | .u16 => some (.u16 word.toUInt16)
  | .u32 => some (.u32 word.toUInt32)
  | .u64 => some (.u64 word)
  | .f16 => some (.f16 word.toUInt16)
  | .f32 => some (.f32 word.toUInt32)
  | .f64 => some (.f64 ⟨word⟩)
  | .ptr | .text | .valor | .optionI64 | .instans | .ascii => some (.ptr word.toNat)
  | .other _ => none

def RuntimeValue.width : RuntimeValue → Nat
  | .i1 _ | .i8 _ | .u8 _ => 1
  | .i16 _ | .u16 _ | .f16 _ => 2
  | .i32 _ | .u32 _ | .f32 _ => 4
  | .i64 _ | .u64 _ | .f64 _ | .ptr _ => 8

/-- The cells an array of a kind has. -/
def represents : ValueKind → RuntimeValue → Bool
  | .i1, .i1 _ | .i8, .i8 _ | .i16, .i16 _ | .i32, .i32 _ | .i64, .i64 _ => true
  | .u8, .u8 _ | .u16, .u16 _ | .u32, .u32 _ | .u64, .u64 _ => true
  | .f16, .f16 _ | .f32, .f32 _ | .f64, .f64 _ => true
  | .ptr, .ptr _ | .text, .ptr _ | .valor, .ptr _ => true
  | .optionI64, .ptr _ | .instans, .ptr _ | .ascii, .ptr _ => true
  | _, _ => false

/-- A pointer that is neither null nor misaligned. -/
def Accessible (address : Handle) (width : Nat) : Prop := address ≠ 0 ∧ address % width = 0

instance (address : Handle) (width : Nat) : Decidable (Accessible address width) :=
  inferInstanceAs (Decidable (_ ∧ _))

/-- `read_value`; `word` gives the eight bytes from an address on. -/
def readValue (word : Handle → UInt64) (kind : ValueKind) (address : Handle) :
    Option RuntimeValue :=
  match kind.width with
  | some width => if Accessible address width then kind.cell (word address) else none
  | none => none

theorem accessible_one {address : Handle} : Accessible address 1 ↔ address ≠ 0 := by
  simp [Accessible, Nat.mod_one]

theorem readValue_u8 (word : Handle → UInt64) (address : Handle) :
    readValue word .u8 address =
      if address ≠ 0 then some (.u8 (word address).toUInt8) else none := by
  simp [readValue, ValueKind.width, Accessible, ValueKind.cell, Nat.mod_one]

/-! ## Answers -/

inductive Status where
  | ok
  | invalidArgument
  deriving DecidableEq, Repr

/-- What a call answers, and the cells it wrote. -/
structure Reply where
  status : Status
  handle : Option Handle
  written : List (Handle × RuntimeValue)
  deriving DecidableEq, Repr

namespace Reply

def invalid : Reply := ⟨.invalidArgument, none, []⟩

def ok : Reply := ⟨.ok, none, []⟩

def pointer (handle : Handle) : Reply := ⟨.ok, some handle, []⟩

def wrote (output : Handle) (value : RuntimeValue) : Reply := ⟨.ok, none, [(output, value)]⟩

end Reply

/-- A call leaves a reply and the runtime. -/
abbrev Answer (Instans : Type) : Type := Reply × Runtime Instans

section

variable {Instans : Type} (runtime : Runtime Instans) (fresh : Handle)

/-- `write_typed` of a cell as the last step of a call. -/
def writing (output : Handle) (value : RuntimeValue) : Answer Instans :=
  if Accessible output value.width then (.wrote output value, runtime) else (.invalid, runtime)

variable {runtime} in
theorem writing_ok {output : Handle} {value : RuntimeValue}
    (h : Accessible output value.width) : (writing runtime output value).1.status = .ok := by
  rw [writing, if_pos h]
  rfl

variable {runtime} in
theorem writing_invalid {output : Handle} {value : RuntimeValue}
    (h : ¬ Accessible output value.width) : writing runtime output value = (.invalid, runtime) := by
  rw [writing, if_neg h]

def storeOption (kind : ValueKind) (value : Option RuntimeValue) : Answer Instans :=
  (.pointer fresh, { runtime with options := runtime.options.store fresh ⟨kind, value⟩ })

def storeArrayCells (kind : ValueKind) (values : List RuntimeValue) : Answer Instans :=
  (.pointer fresh, { runtime with arrays := runtime.arrays.store fresh ⟨kind, values⟩ })

def storeText (text : String) : Answer Instans :=
  (.pointer fresh, { runtime with texts := runtime.texts.store fresh text })

end

end FaberHosts.Llvm
