import FaberHosts.Collections.Runtime

/-!
# Membership in an array and in its set

`array_contains` compares the cells of an array, and a set compares texts by their
content.  A set made of an array holds the same values unless texts are equal and
kept apart.
-/

namespace FaberHosts.Collections
open FaberHosts.Lib

variable {memory : Memory} {runtime : Runtime} {array : RuntimeArray} {kind : ValueKind}
  {cell : Cell} {output : Output}

/-- `RuntimeCells::contains`: the cells of an array all belong to its kind. -/
def RuntimeArray.contains (array : RuntimeArray) (value : RuntimeValue) : Bool :=
  array.values.any (·.eq value)

/-- `array_contains`, of the array its handle leads to. -/
def arrayContains (array : Option RuntimeArray) (kind : ValueKind) (value : Cell)
    (output : Output) : Answer :=
  match readValue kind value with
  | none => invalid
  | some value =>
    match array with
    | none => invalid
    | some array =>
      if array.kind ≠ kind ∨ output = .null then invalid else .flag (array.contains value)

/-- A value is in the set of an array exactly when the array contains it. -/
def SameMembership (memory : Memory) (runtime : Runtime) (array : RuntimeArray) (kind : ValueKind)
    (value : Cell) (output : Output) : Prop :=
  ∃ handle runtime', setFromArray memory runtime (some array) = (.handle handle, runtime') ∧
    ((setContains memory runtime' handle kind value output).1 = .flag true ↔
      arrayContains (some array) kind value output = .flag true)

/-- The text's own handle is in the array, and readable, or no text of the array has its
    content. -/
def OwnHandle (memory : Memory) (array : RuntimeArray) (text : UInt64) : Prop :=
  (RuntimeValue.ptr text ∈ array.values ∧ textBytes memory text ≠ none) ∨
    (RuntimeValue.ptr text ∉ array.values ∧ ∀ slot, RuntimeValue.ptr slot ∈ array.values →
      textBytes memory slot = none ∨ textBytes memory slot ≠ textBytes memory text)

/-! ## The equalities -/

theorem f32Eq_trans {a b c : UInt32} (hab : f32Eq a b = true) (hbc : f32Eq b c = true) :
    f32Eq a c = true := by
  simp only [f32Eq, Bool.and_eq_true, decide_eq_true_eq, Bool.or_eq_true, beq_iff_eq] at *
  grind

theorem f64Eq_trans {a b c : UInt64} (hab : f64Eq a b = true) (hbc : f64Eq b c = true) :
    f64Eq a c = true := by
  simp only [f64Eq, Bool.and_eq_true, decide_eq_true_eq, Bool.or_eq_true, beq_iff_eq] at *
  grind

theorem RuntimeValue.eq_trans {a b c : RuntimeValue} (hab : a.eq b = true) (hbc : b.eq c = true) :
    a.eq c = true := by
  cases b with
  | f32 b =>
    cases a with
    | f32 a =>
      cases c with
      | f32 c => exact f32Eq_trans hab hbc
      | _ => simp [RuntimeValue.eq] at hbc
    | _ => simp [RuntimeValue.eq] at hab
  | f64 b =>
    cases a with
    | f64 a =>
      cases c with
      | f64 c => exact f64Eq_trans hab hbc
      | _ => simp [RuntimeValue.eq] at hbc
    | _ => simp [RuntimeValue.eq] at hab
  | _ =>
    simp only [RuntimeValue.eq, beq_iff_eq] at hab
    subst hab
    exact hbc

theorem valuesEqual_trans (a b c : RuntimeValue) (hab : valuesEqual memory kind a b = true)
    (hbc : valuesEqual memory kind b c = true) : valuesEqual memory kind a c = true := by
  unfold valuesEqual at *
  by_cases hkind : kind ≠ .text
  · rw [if_pos hkind] at *
    exact RuntimeValue.eq_trans hab hbc
  · rw [if_neg hkind] at *
    grind

/-- Two text cells are equal when both can be read and hold the same bytes. -/
theorem valuesEqual_text_iff {value : RuntimeValue} {text : UInt64} :
    valuesEqual memory .text value (.ptr text) = true ↔
      ∃ slot, value = .ptr slot ∧ textBytes memory slot ≠ none ∧
        textBytes memory slot = textBytes memory text := by
  unfold valuesEqual
  cases value with
  | ptr slot =>
    cases hslot : textBytes memory slot with
    | none => simp [hslot]
    | some bytes => cases htext : textBytes memory text <;> simp [hslot, htext]
  | _ => simp

theorem contains_text_iff {text : UInt64} :
    array.contains (.ptr text) = true ↔ RuntimeValue.ptr text ∈ array.values := by
  simp [RuntimeArray.contains, RuntimeValue.eq, List.any_eq_true]

/-! ## The two memberships -/

theorem readValue_eq_some_iff {value : RuntimeValue} :
    readValue kind cell = some value ↔ cell = some value ∧ represents kind value = true := by
  rw [readValue, Option.filter_eq_some_iff]

theorem setContains_setFromArray :
    ∃ handle runtime', setFromArray memory runtime (some array) = (.handle handle, runtime') ∧
      ((setContains memory runtime' handle kind cell output).1 = .flag true ↔
        ∃ value, readValue kind cell = some value ∧ array.kind = kind ∧ output ≠ .null ∧
          contains memory kind array.values value = true) := by
  refine ⟨_, _, rfl, ?_⟩
  unfold setContains setQuery
  cases hread : readValue kind cell with
  | none => simp
  | some value =>
    simp only [List.getElem?_concat_length, Option.some.injEq, exists_eq_left']
    by_cases hkind : array.kind = kind
    · subst hkind
      by_cases hnull : output = .null
      · simp [hnull]
      · rw [if_neg (by simp [hnull])]
        simp only [Answer.flag.injEq, contains, holds_foldl_pushUnique valuesEqual_trans]
        simp [hnull, holds]
    · rw [if_pos (Or.inl hkind)]
      simp [hkind]

theorem arrayContains_iff :
    arrayContains (some array) kind cell output = .flag true ↔
      ∃ value, readValue kind cell = some value ∧ array.kind = kind ∧ output ≠ .null ∧
        array.contains value = true := by
  unfold arrayContains
  cases hread : readValue kind cell with
  | none => simp
  | some value =>
    simp only [Option.some.injEq, exists_eq_left']
    by_cases hkind : array.kind = kind
    · by_cases hnull : output = .null
      · simp [hnull]
      · rw [if_neg (by simp [hkind, hnull])]
        simp [hkind, hnull]
    · rw [if_pos (Or.inl hkind)]
      simp [hkind]

theorem contains_values_text_iff {text : UInt64} :
    contains memory .text array.values (.ptr text) = true ↔
      ∃ slot, RuntimeValue.ptr slot ∈ array.values ∧ textBytes memory slot ≠ none ∧
        textBytes memory slot = textBytes memory text := by
  simp only [contains, holds, List.any_eq_true, valuesEqual_text_iff]
  constructor
  · rintro ⟨value, hvalue, slot, rfl, hslot⟩
    exact ⟨slot, hvalue, hslot⟩
  · rintro ⟨slot, hvalue, hslot⟩
    exact ⟨.ptr slot, hvalue, slot, rfl, hslot⟩

theorem ownHandle_iff {text : UInt64} :
    (contains memory .text array.values (.ptr text) = true ↔ array.contains (.ptr text) = true) ↔
      OwnHandle memory array text := by
  rw [contains_values_text_iff, contains_text_iff]
  unfold OwnHandle
  by_cases hmem : RuntimeValue.ptr text ∈ array.values
  · simp only [hmem, iff_true, true_and, not_true_eq_false, false_and, or_false]
    constructor
    · rintro ⟨slot, -, hread, hsame⟩
      rwa [← hsame]
    · intro hread
      exact ⟨text, hmem, hread, rfl⟩
  · simp only [hmem, iff_false, false_and, not_false_eq_true, true_and, false_or]
    constructor
    · intro hnone slot hslot
      by_contra hboth
      rw [not_or, not_not] at hboth
      exact hnone ⟨slot, hslot, hboth.1, hboth.2⟩
    · rintro hall ⟨slot, hslot, hread, hsame⟩
      rcases hall slot hslot with h | h
      · exact hread h
      · exact h hsame

/-- The set of an array answers as the array unless a text is asked for whose content is in the
    array under other handles only. -/
theorem sameMembership_iff (memory : Memory) (runtime : Runtime) (array : RuntimeArray)
    (kind : ValueKind) (cell : Cell) (output : Output) :
    SameMembership memory runtime array kind cell output ↔
      (array.kind = .text → kind = .text → output ≠ .null →
        ∀ text, cell = some (.ptr text) → OwnHandle memory array text) := by
  obtain ⟨handle, runtime', hset, hcontains⟩ :
      ∃ handle runtime', setFromArray memory runtime (some array) = (.handle handle, runtime') ∧
        ((setContains memory runtime' handle kind cell output).1 = .flag true ↔ _) :=
    setContains_setFromArray
  have hsame : SameMembership memory runtime array kind cell output ↔
      ((setContains memory runtime' handle kind cell output).1 = .flag true ↔
        arrayContains (some array) kind cell output = .flag true) := by
    constructor
    · rintro ⟨handle', runtime'', hset', h⟩
      obtain ⟨⟨⟩, rfl⟩ : Answer.handle handle = .handle handle' ∧ runtime' = runtime'' :=
        Prod.mk.inj (hset.symm.trans hset')
      exact h
    · exact fun h => ⟨handle, runtime', hset, h⟩
  rw [hsame, hcontains, arrayContains_iff]
  by_cases htext : array.kind = .text ∧ kind = .text
  · obtain ⟨hkind, rfl⟩ := htext
    by_cases hnull : output = .null
    · simp [hnull]
    by_cases hptr : ∃ text, cell = some (.ptr text)
    · obtain ⟨text, rfl⟩ := hptr
      have hread : readValue .text (some (.ptr text)) = some (.ptr text) :=
        readValue_eq_some_iff.mpr ⟨rfl, rfl⟩
      simp only [hread, Option.some.injEq, exists_eq_left', hkind, hnull, ne_eq, not_false_eq_true,
        true_and, ownHandle_iff, true_implies, RuntimeValue.ptr.injEq, forall_eq']
    · have hread : readValue .text cell = none := by
        cases hread : readValue .text cell with
        | none => rfl
        | some value =>
          obtain ⟨rfl, hvalue⟩ := readValue_eq_some_iff.mp hread
          cases value with
          | ptr text => exact (hptr ⟨text, rfl⟩).elim
          | _ => simp [represents] at hvalue
      simp only [hread]
      refine ⟨fun _ _ _ _ text htext => (hptr ⟨text, htext⟩).elim, fun _ => by simp⟩
  · -- values of the other kinds are compared cell by cell in both
    constructor
    · intro _ harray hkind
      exact (htext ⟨harray, hkind⟩).elim
    · intro _
      refine exists_congr fun value => and_congr_right fun _ => and_congr_right fun harray =>
        and_congr_right fun _ => ?_
      have hkind : kind ≠ .text := fun hkind => htext ⟨harray.trans hkind, hkind⟩
      simp [contains, holds, RuntimeArray.contains, valuesEqual, hkind]

/-- A memory in which every handle is a text of its own with the content `a`. -/
def copies : Memory where
  slice text := ⟨text, 1⟩
  read _ _ := [97]

/-- The set finds the second copy of the text, and the array does not. -/
theorem copy_of_text : ¬ SameMembership copies ⟨[], []⟩ ⟨.text, [.ptr 16]⟩ .text (some (.ptr 32))
    .writable := by
  rintro ⟨handle, runtime', hset, h⟩
  cases hset
  have hset : (setContains copies ⟨[], [⟨.text, [.ptr 16]⟩]⟩ 0 .text (some (.ptr 32)) .writable).1 =
      .flag true := by decide
  have harray : arrayContains (some ⟨.text, [.ptr 16]⟩) .text (some (.ptr 32)) .writable ≠
      .flag true := by decide
  exact harray (h.mp hset)

end FaberHosts.Collections
