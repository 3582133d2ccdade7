import FaberHosts.Lib.Words
import FaberHosts.Wasm.Literals

/-!
# Reading the literal table

`literal_table.rs`: a module exports the place and the row count of its table, whose rows
are three words each: a kind, and the offset and length of a payload.  The pointer, the
count, the offsets and the lengths are `i32`, given by their bits.
-/

namespace FaberHosts.Wasm
open FaberHosts.Lib

/-- A negative `i32`. -/
def Negative (bits : UInt32) : Prop := 2 ^ 31 ≤ bits.toNat

instance (bits : UInt32) : Decidable (Negative bits) := inferInstanceAs (Decidable (_ ≤ _))

/-- A global of an instance: an `i32`, or another value under its `Debug` text. -/
inductive GlobalValue where
  | i32 (bits : UInt32)
  | other (text : String)
  deriving DecidableEq, Repr

/-- What initialization reads of an instance. -/
structure Instance where
  tablePtr : Option GlobalValue
  tableCount : Option GlobalValue
  memory : Option (List UInt8)

namespace LiteralTable
open HostState

variable {σ : Type}

def rowBytes : Nat := 12

def failed (message : String) : Call σ RunOutcome α := Call.throw (initFailed message)

/-- The four bytes from a place on, little endian. -/
def wordAt (data : List UInt8) (place : Nat) : UInt32 :=
  UInt32.ofNat (data[place]?.getD 0).toNat + UInt32.ofNat (data[place + 1]?.getD 0).toNat * 2 ^ 8 +
    UInt32.ofNat (data[place + 2]?.getD 0).toNat * 2 ^ 16 +
    UInt32.ofNat (data[place + 3]?.getD 0).toNat * 2 ^ 24

/-- `read_u32_le` and `read_i32_le`. -/
def readWordLe (data : List UInt8) (offset : Nat) : Call σ RunOutcome UInt32 :=
  if offset + 4 ≤ data.length then return wordAt data offset
  else failed "literal table row extends past linear memory"

def readPayload (data : List UInt8) (offset : Nat) : Call σ RunOutcome (List UInt8) := do
  let start ← readWordLe data offset
  let start ← Call.value (handleIndex start)
  let length ← readWordLe data (offset + 4)
  let length ← Call.value (handleIndex length)
  match addWord start length with
  | none => failed "literal payload extends past host address space"
  | some stop =>
    if stop > data.length then failed "declared literal payload extends past linear memory"
    else return (data.drop start).take length

/-- The loop of `read_literal_rows`, with so many rows left. -/
def readRows (data : List UInt8) (ptr : Nat) (index : Nat) : Nat → Call σ RunOutcome (List RawRow)
  | 0 => return []
  | left + 1 => do
    let rowPtr := ptr + index * rowBytes
    let kind ← readWordLe data rowPtr
    let payload ← readPayload data (rowPtr + 4)
    let rows ← readRows data ptr (index + 1) left
    return ⟨kind, payload⟩ :: rows

def readLiteralRows (data : List UInt8) (ptr count : UInt32) : Call σ RunOutcome (List RawRow) := do
  let ptr ← Call.value (handleIndex ptr)
  let count ← Call.value (handleIndex count)
  match mulWord count rowBytes with
  | none => failed "literal table byte size overflows host address space"
  | some tableBytes =>
    match addWord ptr tableBytes with
    | none => failed "literal table extends past host address space"
    | some tableEnd =>
      if tableEnd > data.length then failed "declared literal table extends past linear memory"
      else readRows data ptr 0 count

def tablePtrGlobal : String := "__faber_rt_v1_literal_table_ptr"
def tableCountGlobal : String := "__faber_rt_v1_literal_table_count"

def globalI32 (declared : Option GlobalValue) (name : String) : Call σ RunOutcome UInt32 :=
  match declared with
  | none => failed s!"literal table declares only one of `{tablePtrGlobal}` / `{tableCountGlobal}` (missing `{name}`)"
  | some (.i32 bits) => return bits
  | some (.other text) => failed s!"`{name}` is not an i32 global: {text}"

def initializeLiteralTable {κ μ ρ : Type} (compile : String → Except ρ κ) (inst : Instance) :
    Call (HostState κ μ) RunOutcome Unit :=
  if inst.tablePtr = none ∧ inst.tableCount = none then return ()
  else do
    let ptr ← globalI32 inst.tablePtr tablePtrGlobal
    let count ← globalI32 inst.tableCount tableCountGlobal
    if Negative ptr ∨ Negative count then
      failed "literal table pointer/count must be non-negative"
    else
      match inst.memory with
      | none => failed "literal table declared but the module exports no `memory`"
      | some data => do
        let rows ← readLiteralRows data ptr count
        internLiteralTable compile rows

/-! ## The table a memory holds -/

/-- The words of a row. -/
def kindOf (data : List UInt8) (ptr : UInt32) (index : Nat) : UInt32 :=
  wordAt data (ptr.toNat + index * rowBytes)

def offsetOf (data : List UInt8) (ptr : UInt32) (index : Nat) : UInt32 :=
  wordAt data (ptr.toNat + index * rowBytes + 4)

def lengthOf (data : List UInt8) (ptr : UInt32) (index : Nat) : UInt32 :=
  wordAt data (ptr.toNat + index * rowBytes + 4 + 4)

/-- A row with a negative offset or length. -/
def Backward (data : List UInt8) (ptr : UInt32) (index : Nat) : Prop :=
  Negative (offsetOf data ptr index) ∨ Negative (lengthOf data ptr index)

instance (data : List UInt8) (ptr : UInt32) (index : Nat) : Decidable (Backward data ptr index) :=
  inferInstanceAs (Decidable (_ ∨ _))

/-- The payload of a row lies in memory, with an offset and a length that are not negative. -/
def Inside (data : List UInt8) (ptr : UInt32) (index : Nat) : Prop :=
  ¬ Backward data ptr index ∧
    (offsetOf data ptr index).toNat + (lengthOf data ptr index).toNat ≤ data.length

/-- A row of the table at a place in memory. -/
def rowAt (data : List UInt8) (ptr : UInt32) (index : Nat) : RawRow :=
  ⟨kindOf data ptr index,
    (data.drop (offsetOf data ptr index).toNat).take (lengthOf data ptr index).toNat⟩

def rowsAt (data : List UInt8) (ptr count : UInt32) : List RawRow :=
  (List.range' 0 count.toNat).map (rowAt data ptr)

/-- The table lies in memory, at a place and with a count that are not negative. -/
def TableInside (data : List UInt8) (ptr count : UInt32) : Prop :=
  ¬ Negative ptr ∧ ¬ Negative count ∧ ptr.toNat + count.toNat * rowBytes ≤ data.length

/-- The kind of the row is known and its payload can be decoded. -/
structure Sound (raw : RawRow) : Prop where
  kind : raw.kind = rowKindText ∨ raw.kind = rowKindOcteti ∨ raw.kind = rowKindRegexPattern ∨
    raw.kind = rowKindRegexFlags
  payload : raw.kind ≠ rowKindOcteti → (utf8 raw.payload).isSome

/-- Each flags row directly follows a pattern row. -/
structure FlagsFollow (rows : List RawRow) : Prop where
  head : ∀ raw ∈ rows.head?, raw.kind ≠ rowKindRegexFlags
  next : rows.IsChain fun raw next => next.kind = rowKindRegexFlags → raw.kind = rowKindRegexPattern

/-- What makes a table initialize. -/
structure Valid (data : List UInt8) (ptr count : UInt32) : Prop where
  table : TableInside data ptr count
  payloads : ∀ index < count.toNat, Inside data ptr index
  sound : ∀ raw ∈ rowsAt data ptr count, Sound raw
  flags : FlagsFollow (rowsAt data ptr count)

/-! ## Reading the rows -/

section

variable {panics : Prop} {E : RunOutcome → σ → Prop} {s : σ} {data : List UInt8} {ptr : UInt32}

theorem handleIndex_eq (bits : UInt32) :
    handleIndex bits = if Negative bits then none else some bits.toNat := by
  unfold handleIndex
  by_cases h : Negative bits
  · rw [if_pos h, if_neg (Nat.not_lt.mpr h)]
  · rw [if_neg h, if_pos (Nat.not_le.mp h)]

theorem wp_readWordLe {offset : Nat} {Q : UInt32 → σ → Prop} (h : offset + 4 ≤ data.length) :
    Call.wp panics (readWordLe data offset) Q E s ↔ Q (wordAt data offset) s := by
  rw [readWordLe, if_pos h, Call.wp_pure]

theorem wp_handleIndex {bits : UInt32} {Q : Nat → σ → Prop} :
    Call.wp panics (Call.value (handleIndex bits)) Q E s ↔
      (Negative bits → panics) ∧ (¬ Negative bits → Q bits.toNat s) := by
  rw [Call.wp_value, handleIndex_eq]
  by_cases h : Negative bits
  · simp [h]
  · simp [h]

/-- The payload of a row: a negative word panics, and a payload behind the end is an error. -/
theorem readPayload_wp {offset : Nat} {Q : List UInt8 → σ → Prop}
    (hplace : offset + 8 ≤ data.length)
    (hpanics : Negative (wordAt data offset) ∨ Negative (wordAt data (offset + 4)) → panics)
    (hok : ¬ (Negative (wordAt data offset) ∨ Negative (wordAt data (offset + 4))) →
      (wordAt data offset).toNat + (wordAt data (offset + 4)).toNat ≤ data.length →
      Q ((data.drop (wordAt data offset).toNat).take (wordAt data (offset + 4)).toNat) s)
    (herr : ¬ (Negative (wordAt data offset) ∨ Negative (wordAt data (offset + 4))) →
      data.length < (wordAt data offset).toNat + (wordAt data (offset + 4)).toNat →
      ∀ message, E (initFailed message) s) :
    Call.wp panics (readPayload data offset) Q E s := by
  rw [readPayload, Call.wp_bind, wp_readWordLe (by omega), Call.wp_bind, wp_handleIndex]
  refine ⟨fun hstart => hpanics (Or.inl hstart), fun hstart => ?_⟩
  rw [Call.wp_bind, wp_readWordLe (by omega), Call.wp_bind, wp_handleIndex]
  refine ⟨fun hlength => hpanics (Or.inr hlength), fun hlength => ?_⟩
  have hstart' := (wordAt data offset).toNat_lt
  have hlength' := (wordAt data (offset + 4)).toNat_lt
  have hfits : addWord (wordAt data offset).toNat (wordAt data (offset + 4)).toNat = some _ :=
    addWord_eq_some_iff.mpr ⟨by unfold wordMax; omega, rfl⟩
  have hforward : ¬ (Negative (wordAt data offset) ∨ Negative (wordAt data (offset + 4))) :=
    not_or.mpr ⟨hstart, hlength⟩
  simp only [hfits]
  split
  · exact herr hforward ‹_› _
  · exact hok hforward (by omega)

/-- Rows are read in their order, up to the first whose payload does not lie in memory. -/
theorem readRows_wp (left : Nat) {index : Nat} {Q : List RawRow → σ → Prop}
    (hplace : ptr.toNat + (index + left) * rowBytes ≤ data.length)
    (hpanics : ∀ i, index ≤ i → i < index + left →
      (∀ j, index ≤ j → j < i → Inside data ptr j) → Backward data ptr i → panics)
    (hok : (∀ i, index ≤ i → i < index + left → Inside data ptr i) →
      Q ((List.range' index left).map (rowAt data ptr)) s)
    (herr : ∀ i, index ≤ i → i < index + left → (∀ j, index ≤ j → j < i → Inside data ptr j) →
      ¬ Backward data ptr i → ¬ Inside data ptr i → ∀ message, E (initFailed message) s) :
    Call.wp panics (readRows data ptr.toNat index left) Q E s := by
  induction left generalizing index Q with
  | zero =>
    rw [readRows, Call.wp_pure]
    exact hok (fun i _ _ => by omega)
  | succ left ih =>
    have hrow : ptr.toNat + index * rowBytes + 12 ≤ data.length := by
      unfold rowBytes at hplace ⊢
      omega
    have hnone : ∀ j, index ≤ j → j < index → Inside data ptr j := fun j _ _ => by omega
    simp only [readRows]
    rw [Call.wp_bind, wp_readWordLe (by omega), Call.wp_bind]
    apply readPayload_wp (by omega)
    · intro hbackward
      exact hpanics index le_rfl (by omega) hnone hbackward
    · intro hforward hinside
      rw [Call.wp_bind]
      have hfirst : Inside data ptr index := ⟨hforward, hinside⟩
      -- a row of the rest comes behind this one, which lies in memory
      have hstep : ∀ i, (∀ j, index + 1 ≤ j → j < i → Inside data ptr j) →
          ∀ j, index ≤ j → j < i → Inside data ptr j := by
        intro i hbefore j hj hji
        rcases Nat.eq_or_lt_of_le hj with rfl | hj
        · exact hfirst
        · exact hbefore j hj hji
      apply ih
      · rw [show index + 1 + left = index + (left + 1) by omega]
        exact hplace
      · intro i hi hlast hbefore
        exact hpanics i (by omega) (by omega) (hstep i hbefore)
      · intro hall
        rw [Call.wp_pure]
        refine hok (fun i hi hlast => ?_)
        exact hstep (i + 1) (fun j hj hji => hall j hj (by omega)) i hi (by omega)
      · intro i hi hlast hbefore
        exact herr i (by omega) (by omega) (hstep i hbefore)
    · intro hforward hbehind
      exact herr index le_rfl (by omega) hnone hforward
        (fun hinside => Nat.not_le.mpr hbehind hinside.2)

/-- A table at a negative place is refused, and one behind the end of memory. -/
theorem readLiteralRows_wp {count : UInt32} {Q : List RawRow → σ → Prop}
    (hptr : ¬ Negative ptr) (hcount : ¬ Negative count)
    (hpanics : TableInside data ptr count → ∀ i < count.toNat,
      (∀ j < i, Inside data ptr j) → Backward data ptr i → panics)
    (hok : TableInside data ptr count → (∀ i < count.toNat, Inside data ptr i) →
      Q (rowsAt data ptr count) s)
    (herr : (TableInside data ptr count → ∃ i < count.toNat, (∀ j < i, Inside data ptr j) ∧
      ¬ Backward data ptr i ∧ ¬ Inside data ptr i) → ∀ message, E (initFailed message) s) :
    Call.wp panics (readLiteralRows data ptr count) Q E s := by
  rw [readLiteralRows, Call.wp_bind, wp_handleIndex]
  refine ⟨fun h => (hptr h).elim, fun _ => ?_⟩
  rw [Call.wp_bind, wp_handleIndex]
  refine ⟨fun h => (hcount h).elim, fun _ => ?_⟩
  have hptr' := ptr.toNat_lt
  have hcount' := count.toNat_lt
  have hbytes : mulWord count.toNat rowBytes = some _ :=
    mulWord_eq_some_iff.mpr ⟨by unfold wordMax rowBytes; omega, rfl⟩
  have hend : addWord ptr.toNat (count.toNat * rowBytes) = some _ :=
    addWord_eq_some_iff.mpr ⟨by unfold wordMax rowBytes; omega, rfl⟩
  simp only [hbytes, hend]
  split
  · exact herr (fun htable => absurd htable.2.2 (by omega)) _
  · have htable : TableInside data ptr count := ⟨hptr, hcount, by omega⟩
    apply readRows_wp
    · rw [Nat.zero_add]
      exact htable.2.2
    · intro i _ hi hbefore
      exact hpanics htable i (by omega) (fun j hj => hbefore j (Nat.zero_le j) hj)
    · intro hall
      exact hok htable (fun i hi => hall i (Nat.zero_le i) (by omega))
    · intro i _ hi hbefore hforward hinside
      exact herr (fun _ => ⟨i, by omega, fun j hj => hbefore j (Nat.zero_le j) hj, hforward,
        hinside⟩)

end

/-! ## Interning the rows -/

theorem not_flagsFollow {raw : RawRow} {rest : List RawRow} (h : raw.kind = rowKindRegexFlags) :
    ¬ FlagsFollow (raw :: rest) :=
  fun hflags => hflags.head raw rfl h

theorem flagsFollow_cons_iff {raw : RawRow} {rest : List RawRow}
    (hflags : raw.kind ≠ rowKindRegexFlags)
    (hpattern : raw.kind = rowKindRegexPattern →
      ∀ next ∈ rest.head?, next.kind ≠ rowKindRegexFlags) :
    FlagsFollow (raw :: rest) ↔ FlagsFollow rest := by
  constructor
  · rintro ⟨-, hchain⟩
    rw [List.isChain_cons] at hchain
    refine ⟨fun next hnext hkind => ?_, hchain.2⟩
    exact hpattern (hchain.1 next hnext hkind) next hnext hkind
  · rintro ⟨hhead, hchain⟩
    refine ⟨fun _ h => by cases h; exact hflags, List.isChain_cons.mpr ⟨?_, hchain⟩⟩
    intro next hnext hkind
    exact absurd hkind (hhead next hnext)

theorem flagsFollow_pair_iff {raw flagsRow : RawRow} {later : List RawRow}
    (hpattern : raw.kind = rowKindRegexPattern) (hflags : flagsRow.kind = rowKindRegexFlags) :
    FlagsFollow (raw :: flagsRow :: later) ↔ FlagsFollow later := by
  have hdistinct : ¬ rowKindRegexFlags = rowKindRegexPattern := by decide
  constructor
  · rintro ⟨-, hchain⟩
    rw [List.isChain_cons_cons, List.isChain_cons] at hchain
    refine ⟨fun next hnext hkind => hdistinct ?_, hchain.2.2⟩
    rw [← hflags]
    exact hchain.2.1 next hnext hkind
  · rintro ⟨hhead, hchain⟩
    refine ⟨?_, List.isChain_cons_cons.mpr ⟨fun _ => hpattern, List.isChain_cons.mpr ⟨?_, hchain⟩⟩⟩
    · rintro _ ⟨⟩ hkind
      exact hdistinct (hkind.symm.trans hpattern)
    · intro next hnext hkind
      exact absurd hkind (hhead next hnext)

theorem literalsOf_isSome_iff (rows : List RawRow) :
    (∃ literals, literalsOf rows = some literals) ↔
      (∀ raw ∈ rows, Sound raw) ∧ FlagsFollow rows := by
  induction rows using literalsOf.induct with
  | case1 =>
    simp only [literalsOf, List.not_mem_nil, false_implies, implies_true, true_and]
    exact ⟨fun _ => ⟨by simp, List.isChain_nil⟩, fun _ => ⟨_, rfl⟩⟩
  | case2 raw rest htext ih =>
    have hsound : Sound raw ↔ (utf8 raw.payload).isSome := by
      refine ⟨fun h => h.payload (by rw [htext]; decide), fun h => ⟨Or.inl htext, fun _ => h⟩⟩
    rw [List.forall_mem_cons, hsound, flagsFollow_cons_iff (by rw [htext]; decide)
      (fun h => absurd (htext.symm.trans h) (by decide)), and_assoc, ← ih, literalsOf, if_pos htext]
    cases utf8 raw.payload with
    | none => simp
    | some text => cases literalsOf rest <;> simp
  | case3 raw rest htext hocteti ih =>
    have hsound : Sound raw :=
      ⟨Or.inr (Or.inl hocteti), fun h => absurd hocteti h⟩
    rw [List.forall_mem_cons, flagsFollow_cons_iff (by rw [hocteti]; decide)
      (fun h => absurd (hocteti.symm.trans h) (by decide)), and_assoc, ← ih, literalsOf,
      if_neg htext, if_pos hocteti]
    cases literalsOf rest <;> simp [hsound]
  | case4 raw rest htext hocteti hpattern ih =>
    have hsound : Sound raw ↔ (utf8 raw.payload).isSome := by
      refine ⟨fun h => h.payload hocteti, fun h => ⟨Or.inr (Or.inr (Or.inl hpattern)), fun _ => h⟩⟩
    have hflags : raw.kind ≠ rowKindRegexFlags := by rw [hpattern]; decide
    rw [literalsOf, if_neg htext, if_neg hocteti, if_pos hpattern]
    cases rest with
    | nil =>
      have hlast : FlagsFollow [raw] :=
        (flagsFollow_cons_iff hflags (by simp)).mpr ⟨by simp, List.isChain_nil⟩
      cases hutf8 : utf8 raw.payload with
      | none => simp [hsound, hutf8]
      | some pattern => simp [hsound, hutf8, hlast]
    | cons flagsRow later =>
      by_cases hnext : flagsRow.kind = rowKindRegexFlags
      · have hnextSound : Sound flagsRow ↔ (utf8 flagsRow.payload).isSome := by
          refine ⟨fun h => h.payload (by rw [hnext]; decide), fun h => ⟨?_, fun _ => h⟩⟩
          exact Or.inr (Or.inr (Or.inr hnext))
        rw [List.forall_mem_cons, List.forall_mem_cons, hsound, hnextSound,
          flagsFollow_pair_iff hpattern hnext, and_assoc, and_assoc, ← ih.1]
        cases utf8 raw.payload with
        | none => simp
        | some pattern =>
          cases hdecoded : utf8 flagsRow.payload with
          | none => simp [hnext, hdecoded]
          | some flags => cases hlater : literalsOf later <;> simp [hnext, hdecoded, hlater]
      · rw [List.forall_mem_cons, hsound, flagsFollow_cons_iff hflags
          (fun _ next h => by cases h; exact hnext), and_assoc, ← ih.2]
        cases utf8 raw.payload with
        | none => simp
        | some pattern => cases hlater : literalsOf (flagsRow :: later) <;> simp [hnext, hlater]
  | case5 raw rest htext hocteti hpattern =>
    rw [literalsOf, if_neg htext, if_neg hocteti, if_neg hpattern]
    constructor
    · rintro ⟨literals, ⟨⟩⟩
    · rintro ⟨hsound, hflags⟩
      rcases (hsound raw List.mem_cons_self).kind with h | h | h | h
      · exact absurd h htext
      · exact absurd h hocteti
      · exact absurd h hpattern
      · exact absurd hflags (not_flagsFollow h)

/-- There is room for so many more entries in each arena. -/
structure Room {κ μ : Type} (host : HostState κ μ) (count : Nat) : Prop where
  rows : host.rows.length + count < 2 ^ 31
  texts : host.textArena.length + count < 2 ^ 31
  octeti : host.octetiArena.length + count < 2 ^ 31
  regexes : host.regexArena.length + count < 2 ^ 31

section

variable {κ μ ρ : Type} {host : HostState κ μ}

theorem Room.mono {count more : Nat} (h : Room host count) (hle : more ≤ count) :
    Room host more := by
  obtain ⟨rows, texts, octeti, regexes⟩ := h
  constructor <;> omega

theorem arenaHandle_of_lt {length : Nat} (h : length < 2 ^ 31) :
    arenaHandle length = some (UInt32.ofNat length) := if_pos h

theorem internText_room {content : List (String × UInt32)} {payload : String} {count : Nat}
    {E : RunOutcome → HostState κ μ → Prop} (hroom : Room host (count + 1)) :
    Call.wp False (internText content payload)
      (fun _ t => t.rows = host.rows ∧ Room t count) E host := by
  unfold internText
  cases content.lookup payload with
  | some handle => exact ⟨rfl, hroom.mono (by omega)⟩
  | none =>
    have htexts := hroom.texts
    rw [Call.wp_bind, Call.wp_get, arenaHandle_of_lt (by omega), Call.wp_bind, Call.wp_value]
    refine ⟨by simp, fun handle _ => ?_⟩
    rw [Call.wp_bind, Call.wp_modify, Call.wp_pure]
    obtain ⟨rows, texts, octeti, regexes⟩ := hroom
    refine ⟨rfl, ?_⟩
    constructor <;> simp only [List.length_append, List.length_singleton] <;> omega

theorem internOcteti_room {payload : List UInt8} {count : Nat}
    {E : RunOutcome → HostState κ μ → Prop} (hroom : Room host (count + 1)) :
    Call.wp False (internOcteti payload)
      (fun _ t => t.rows = host.rows ∧ Room t count) E host := by
  have hocteti := hroom.octeti
  rw [internOcteti, Call.wp_bind, Call.wp_get, arenaHandle_of_lt (by omega), Call.wp_bind,
    Call.wp_value]
  refine ⟨by simp, fun handle _ => ?_⟩
  rw [Call.wp_bind, Call.wp_modify, Call.wp_pure]
  obtain ⟨rows, texts, octeti, regexes⟩ := hroom
  refine ⟨rfl, ?_⟩
  constructor <;> simp only [List.length_append, List.length_singleton] <;> omega

theorem internRegex_room {compile : String → Except ρ κ} {pattern : String}
    {flags : Option String} {count : Nat} {E : RunOutcome → HostState κ μ → Prop}
    (hroom : Room host (count + 1)) :
    Call.wp False (internRegex compile pattern flags)
      (fun _ t => t.rows = host.rows ∧ Room t count) E host := by
  have hregexes := hroom.regexes
  rw [internRegex, Call.wp_bind, Call.wp_get, arenaHandle_of_lt (by omega), Call.wp_bind,
    Call.wp_value]
  refine ⟨by simp, fun handle _ => ?_⟩
  rw [Call.wp_bind, Call.wp_modify, Call.wp_pure]
  obtain ⟨rows, texts, octeti, regexes⟩ := hroom
  refine ⟨rfl, ?_⟩
  constructor <;> simp only [List.length_append, List.length_singleton] <;> omega

theorem decodeText_error {payload : List UInt8} {what : String} {e : RunOutcome}
    (h : decodeText payload what = .error e) :
    utf8 payload = none ∧ ∃ message, e = initFailed message := by
  unfold decodeText at h
  split at h
  · cases h
  · cases h
    exact ⟨‹_›, _, rfl⟩

/-- The rows have literals, and each has got an entry. -/
def Interns (rows : List RawRow) (host t : HostState κ μ) : Prop :=
  (∃ literals, literalsOf rows = some literals) ∧ t.rows.length = host.rows.length + rows.length

/-- The rows have no literals, and initialization fails. -/
def Refuses (rows : List RawRow) (e : RunOutcome) : Prop :=
  literalsOf rows = none ∧ ∃ message, e = initFailed message

theorem pushRows_room {t : HostState κ μ} {pushed : List InternedRow} {rows rest : List RawRow}
    {later : Call (HostState κ μ) RunOutcome Unit} (first : List Literal)
    (hroom : Room t rest.length) (hsame : t.rows = host.rows) (hhost : Room host rows.length)
    (hlength : rows.length = pushed.length + rest.length)
    (hliterals : literalsOf rows = (literalsOf rest).map (first ++ ·))
    (h : ∀ u : HostState κ μ, Room u rest.length →
      Call.wp False later (fun _ => Interns rest u) (fun e _ => Refuses rest e) u) :
    Call.wp False (pushRows pushed >>= fun _ => later) (fun _ => Interns rows host)
      (fun e _ => Refuses rows e) t := by
  have hrows := hhost.rows
  rw [pushRows, Call.wp_bind, Call.wp_modify]
  refine Call.wp_mono (h _ ⟨?_, hroom.texts, hroom.octeti, hroom.regexes⟩) ?_ ?_
  · simp only [hsame, List.length_append]
    omega
  · rintro _ v ⟨⟨literals, hrest⟩, hv⟩
    refine ⟨⟨first ++ literals, by rw [hliterals, hrest]; rfl⟩, ?_⟩
    simp only [hv, hsame, List.length_append]
    omega
  · rintro e v ⟨hnone, he⟩
    exact ⟨by rw [hliterals, hnone]; rfl, he⟩

/-- How interning the rows of a table ends when the arenas have room for them. -/
theorem internRows_room (compile : String → Except ρ κ) (rows : List RawRow) :
    ∀ {host : HostState κ μ} {content : List (String × UInt32)} {index : Nat},
      Room host rows.length → Call.wp False (internRows compile content index rows)
        (fun _ => Interns rows host) (fun e _ => Refuses rows e) host := by
  induction rows using literalsOf.induct with
  | case1 =>
    intro host content index _
    exact ⟨⟨[], rfl⟩, rfl⟩
  | case2 raw rest htext ih =>
    intro host content index hroom
    rw [internRows, if_pos htext]
    refine Call.wp_of_check (fun payload hpayload => ?_) (fun e he => ?_)
    · rw [Call.wp_bind]
      refine Call.wp_mono (internText_room hroom) ?_ (fun _ _ h => h)
      rintro ⟨handle, content'⟩ t ⟨hsame, hleft⟩
      refine pushRows_room [.text payload] hleft hsame hroom (Nat.add_comm _ _) ?_ (fun u => ih)
      rw [literalsOf, if_pos htext, decodeText_ok hpayload]
      cases literalsOf rest <;> rfl
    · obtain ⟨hnone, he⟩ := decodeText_error he
      exact ⟨by rw [literalsOf, if_pos htext, hnone]; rfl, he⟩
  | case3 raw rest htext hocteti ih =>
    intro host content index hroom
    rw [internRows, if_neg htext, if_pos hocteti, Call.wp_bind]
    refine Call.wp_mono (internOcteti_room hroom) ?_ (fun _ _ h => h)
    rintro handle t ⟨hsame, hleft⟩
    refine pushRows_room [.octeti raw.payload] hleft hsame hroom (Nat.add_comm _ _) ?_
      (fun u => ih)
    rw [literalsOf, if_neg htext, if_pos hocteti]
    cases literalsOf rest <;> rfl
  | case4 raw rest htext hocteti hpattern ih =>
    intro host content index hroom
    rw [internRows, if_neg htext, if_neg hocteti, if_pos hpattern]
    refine Call.wp_of_check (fun pattern hdecoded => ?_) (fun e he => ?_)
    · have hdecode := decodeText_ok hdecoded
      cases rest with
      | nil =>
        rw [Call.wp_bind]
        refine Call.wp_mono (internRegex_room hroom) ?_ (fun _ _ h => h)
        rintro handle t ⟨hsame, hleft⟩
        have hliterals : literalsOf [raw] = some [.regex pattern none] := by
          rw [literalsOf, if_neg htext, if_neg hocteti, if_pos hpattern, hdecode]
          rfl
        have hlast : Call.wp False (pushRows [⟨.regex, handle⟩] >>= fun _ => pure ())
            (fun _ => Interns [raw] host) (fun e _ => Refuses [raw] e) t :=
          pushRows_room [.regex pattern none] hleft hsame hroom rfl hliterals
            (fun u _ => ⟨⟨[], rfl⟩, rfl⟩)
        exact hlast
      | cons flagsRow later =>
        by_cases hflags : flagsRow.kind = rowKindRegexFlags
        · simp only [if_pos hflags]
          refine Call.wp_of_check (fun flags hdecoded' => ?_) (fun e he => ?_)
          · have hdecode' := decodeText_ok hdecoded'
            have hone : Room host (later.length + 1) := hroom.mono (by simp)
            rw [Call.wp_bind]
            refine Call.wp_mono (internRegex_room hone) ?_ (fun _ _ h => h)
            rintro handle t ⟨hsame, hleft⟩
            refine pushRows_room (List.replicate 2 (.regex pattern (some flags))) hleft hsame hroom
              (by simp; omega) ?_ (fun u => ih.1)
            rw [literalsOf, if_neg htext, if_neg hocteti, if_pos hpattern, hdecode]
            cases hlater : literalsOf later <;> simp [hflags, hdecode', hlater]
          · obtain ⟨hnone, he⟩ := decodeText_error he
            refine ⟨?_, he⟩
            rw [literalsOf, if_neg htext, if_neg hocteti, if_pos hpattern, hdecode]
            simp [hflags, hnone]
        · simp only [if_neg hflags]
          rw [Call.wp_bind]
          refine Call.wp_mono (internRegex_room hroom) ?_ (fun _ _ h => h)
          rintro handle t ⟨hsame, hleft⟩
          refine pushRows_room [.regex pattern none] hleft hsame hroom (Nat.add_comm _ _) ?_
            (fun u => ih.2)
          rw [literalsOf, if_neg htext, if_neg hocteti, if_pos hpattern, hdecode]
          cases hlater : literalsOf (flagsRow :: later) <;> simp [hflags, hlater]
    · obtain ⟨hnone, he⟩ := decodeText_error he
      refine ⟨?_, he⟩
      rw [literalsOf, if_neg htext, if_neg hocteti, if_pos hpattern, hnone]
      rfl
  | case5 raw rest htext hocteti hpattern =>
    intro host content index _
    rw [internRows, if_neg htext, if_neg hocteti, if_neg hpattern]
    exact ⟨by rw [literalsOf, if_neg htext, if_neg hocteti, if_neg hpattern], _, rfl⟩

/-- No literal is interned yet. -/
structure Fresh (host : HostState κ μ) : Prop where
  rows : host.rows = []
  texts : host.textArena = []
  octeti : host.octetiArena = []
  regexes : host.regexArena = []

theorem new_fresh : Fresh (HostState.new : HostState κ μ) := ⟨rfl, rfl, rfl, rfl⟩

theorem internLiteralTable_fresh (compile : String → Except ρ κ) {rows : List RawRow}
    (hfresh : Fresh host) (hcount : rows.length < 2 ^ 31) :
    Call.wp False (internLiteralTable compile rows)
      (fun _ t => ∃ literals, literalsOf rows = some literals ∧ t.Holds literals)
      (fun e _ => Refuses rows e) host := by
  have hroom : Room host rows.length := by
    obtain ⟨hrows, htexts, hocteti, hregexes⟩ := hfresh
    constructor <;> simp only [*, List.length_nil, Nat.zero_add]
  have hholds : host.Holds [] := by simp [HostState.Holds, hfresh.rows]
  have htotal : Call.wp False (internRows compile [] 0 rows) _ _ host :=
    Call.wp_and (internRows_room compile rows hroom)
      (internRows_spec compile rows hholds (fun _ _ h => by cases h))
  rw [internLiteralTable, Call.wp_bind]
  refine Call.wp_mono htotal ?_ (fun _ _ h => h.1)
  rintro _ t ⟨⟨-, hlength⟩, literals, hliterals, hinterned⟩
  have hlast : t.rows.length < 2 ^ 31 := by
    rw [hlength, hfresh.rows, List.length_nil, Nat.zero_add]
    exact hcount
  rw [Call.wp_bind, Call.wp_get, arenaHandle_of_lt hlast, Call.wp_bind, Call.wp_value]
  refine ⟨by simp, fun next _ => ?_⟩
  rw [Call.wp_modify]
  exact ⟨literals, hliterals, hinterned.holds⟩

/-- Initialization does not panic, answers `Ok` exactly on a valid table and otherwise the
    initialization failure, and leaves one entry for each row, with the row's literal. -/
def InitializesExactly (compile : String → Except ρ κ) (data : List UInt8) (ptr count : UInt32)
    (host : HostState κ μ) : Prop :=
  ∃ answer t, initializeLiteralTable compile ⟨some (.i32 ptr), some (.i32 count), some data⟩ host =
      some (answer, t) ∧
    (answer = .ok () ↔ Valid data ptr count) ∧
    (∀ e, answer = .error e → ∃ message, e = initFailed message) ∧
    (answer = .ok () → ∃ literals, literalsOf (rowsAt data ptr count) = some literals ∧
      t.rows.length = (rowsAt data ptr count).length ∧ t.Holds literals)

/-- No row is the first that does not lie in memory and has a negative offset or length. -/
def NoBackwardRow (data : List UInt8) (ptr count : UInt32) : Prop :=
  TableInside data ptr count →
    ∀ i < count.toNat, (∀ j < i, Inside data ptr j) → ¬ Backward data ptr i

theorem length_rowsAt {data : List UInt8} {ptr count : UInt32} :
    (rowsAt data ptr count).length = count.toNat := by
  rw [rowsAt, List.length_map, List.length_range']

theorem initialize_declared {compile : String → Except ρ κ} {data : List UInt8}
    {ptr count : UInt32} {panics : Prop} {Q : Unit → HostState κ μ → Prop}
    {E : RunOutcome → HostState κ μ → Prop}
    (hnegative : Negative ptr ∨ Negative count → ∀ message, E (initFailed message) host)
    (hread : ¬ Negative ptr → ¬ Negative count → Call.wp panics (readLiteralRows data ptr count)
      (fun rows t => Call.wp panics (internLiteralTable compile rows) Q E t) E host) :
    Call.wp panics (initializeLiteralTable compile
      ⟨some (.i32 ptr), some (.i32 count), some data⟩) Q E host := by
  unfold initializeLiteralTable
  rw [if_neg (by simp), Call.wp_bind, globalI32, Call.wp_pure, Call.wp_bind, globalI32,
    Call.wp_pure]
  by_cases hsign : Negative ptr ∨ Negative count
  · rw [if_pos hsign]
    exact hnegative hsign _
  · rw [if_neg hsign, Call.wp_bind]
    exact hread (fun h => hsign (Or.inl h)) (fun h => hsign (Or.inr h))

/-- A row that is the first not to lie in memory, and has a negative word, panics. -/
theorem initialize_panics {compile : String → Except ρ κ} {data : List UInt8}
    {ptr count : UInt32} {i : Nat} (htable : TableInside data ptr count) (hi : i < count.toNat)
    (hbefore : ∀ j < i, Inside data ptr j) (hbackward : Backward data ptr i) :
    initializeLiteralTable compile ⟨some (.i32 ptr), some (.i32 count), some data⟩ host = none := by
  have hwp : Call.wp True (initializeLiteralTable compile
      ⟨some (.i32 ptr), some (.i32 count), some data⟩) (fun _ _ => False) (fun _ _ => False)
      host := by
    apply initialize_declared
    · rintro (h | h)
      · exact (htable.1 h).elim
      · exact (htable.2.1 h).elim
    · intro hptr hcount
      refine readLiteralRows_wp hptr hcount (fun _ _ _ _ _ => trivial) ?_ ?_
      · intro _ hall
        exact ((hall i hi).1 hbackward).elim
      · intro hfirst
        obtain ⟨k, hk, hbefore', hforward, hinside⟩ := hfirst htable
        rcases Nat.lt_trichotomy i k with hlt | rfl | hlt
        · exact ((hbefore' i hlt).1 hbackward).elim
        · exact (hforward hbackward).elim
        · exact (hinside (hbefore k hlt)).elim
  unfold Call.wp at hwp
  split at hwp
  · assumption
  · exact hwp.elim
  · exact hwp.elim

/-- Without such a row initialization answers, and succeeds exactly on a valid table. -/
theorem initialize_answers {compile : String → Except ρ κ} {data : List UInt8}
    {ptr count : UInt32} (hfresh : Fresh host) (hrows : NoBackwardRow data ptr count) :
    Call.wp False (initializeLiteralTable compile
      ⟨some (.i32 ptr), some (.i32 count), some data⟩)
      (fun _ t => Valid data ptr count ∧ ∃ literals,
        literalsOf (rowsAt data ptr count) = some literals ∧ t.Holds literals)
      (fun e _ => ¬ Valid data ptr count ∧ ∃ message, e = initFailed message) host := by
  apply initialize_declared
  · rintro hsign message
    refine ⟨fun hvalid => ?_, _, rfl⟩
    rcases hsign with h | h
    · exact hvalid.table.1 h
    · exact hvalid.table.2.1 h
  · intro hptr hcount
    refine readLiteralRows_wp hptr hcount hrows ?_ ?_
    · intro htable hall
      have hlength : (rowsAt data ptr count).length < 2 ^ 31 := by
        rw [length_rowsAt]
        exact Nat.not_le.mp hcount
      refine Call.wp_mono (internLiteralTable_fresh compile hfresh hlength) ?_ ?_
      · rintro _ t ⟨literals, hliterals, hholds⟩
        obtain ⟨hsound, hflags⟩ := (literalsOf_isSome_iff _).mp ⟨literals, hliterals⟩
        exact ⟨⟨htable, hall, hsound, hflags⟩, literals, hliterals, hholds⟩
      · rintro e t ⟨hnone, he⟩
        refine ⟨fun hvalid => ?_, he⟩
        obtain ⟨literals, hliterals⟩ := (literalsOf_isSome_iff _).mpr ⟨hvalid.sound, hvalid.flags⟩
        rw [hnone] at hliterals
        cases hliterals
    · intro hfirst message
      refine ⟨fun hvalid => ?_, _, rfl⟩
      obtain ⟨i, hi, -, -, hinside⟩ := hfirst hvalid.table
      exact hinside (hvalid.payloads i hi)

/-- A table initializes as its rows say unless a row with a negative offset or length is
    reached. -/
theorem initializes_exactly_iff (compile : String → Except ρ κ) (data : List UInt8)
    (ptr count : UInt32) (hfresh : Fresh host) :
    InitializesExactly compile data ptr count host ↔ NoBackwardRow data ptr count := by
  constructor
  · rintro ⟨answer, t, hanswer, -⟩ htable i hi hbefore hbackward
    rw [initialize_panics htable hi hbefore hbackward] at hanswer
    cases hanswer
  · intro hrows
    have hwp : Call.wp False (initializeLiteralTable compile
        ⟨some (.i32 ptr), some (.i32 count), some data⟩) _ _ host :=
      initialize_answers hfresh hrows
    obtain ⟨answer, t, hanswer⟩ := Call.wp_returns hwp
    refine ⟨answer, t, hanswer, ?_⟩
    cases answer with
    | ok _ =>
      obtain ⟨hvalid, literals, hliterals, hholds⟩ := Call.wp_of_ok hwp hanswer
      refine ⟨⟨fun _ => hvalid, fun _ => rfl⟩, by simp, fun _ => ⟨literals, hliterals, ?_, hholds⟩⟩
      rw [← literalsOf_length _ hliterals]
      simpa using congrArg List.length hholds
    | error e =>
      obtain ⟨hinvalid, he⟩ := Call.wp_of_error hwp hanswer
      refine ⟨⟨by simp, fun hvalid => (hinvalid hvalid).elim⟩, ?_, by simp⟩
      rintro _ ⟨⟩
      exact he

end

/-- A regex engine that compiles nothing. -/
def noEngine (pattern : String) : Except String Unit := .error pattern

/-- One row, with the kind 0 and these offset and length bytes. -/
def oneRow (offset length : List UInt8) : List UInt8 := [0, 0, 0, 0] ++ offset ++ length

theorem empty_text_row : InitializesExactly noEngine (oneRow [0, 0, 0, 0] [0, 0, 0, 0]) 0 1
    (HostState.new : HostState Unit Unit) := by
  refine (initializes_exactly_iff _ _ 0 1 new_fresh).mpr ?_
  intro _ i hi _
  obtain rfl : i = 0 := Nat.lt_one_iff.mp hi
  decide

/-- The offset is `-1`. -/
theorem offset_before_memory : ¬ InitializesExactly noEngine
    (oneRow [255, 255, 255, 255] [0, 0, 0, 0]) 0 1 (HostState.new : HostState Unit Unit) := by
  rintro ⟨answer, t, hanswer, -⟩
  have hpanics : initializeLiteralTable noEngine ⟨some (.i32 0), some (.i32 1),
      some (oneRow [255, 255, 255, 255] [0, 0, 0, 0])⟩ (HostState.new : HostState Unit Unit) = none :=
    rfl
  rw [hpanics] at hanswer
  cases hanswer

end LiteralTable

end FaberHosts.Wasm
