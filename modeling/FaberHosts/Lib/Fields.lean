import Mathlib.Data.List.TakeWhile
import Mathlib.Data.Nat.Digits.Defs

/-!
# Fields of a line

The words between the blanks of a line, a line cut at its first separator, and the
number a list of decimal digits writes.  Each is given by what it reads off, and by the
lines that read so.
-/

namespace FaberHosts.Lib

variable {α : Type}

/-! ## Words between blanks -/

/-- The runs without a blank. -/
def words (blank : α → Bool) (line : List α) : List (List α) :=
  (line.splitOnP blank).filter (fun word => decide (word ≠ []))

structure IsWord (blank : α → Bool) (word : List α) : Prop where
  ne_nil : word ≠ []
  solid : ∀ c ∈ word, blank c = false

/-- The line writes these words one after the other, with blanks around and between them. -/
def Spells (blank : α → Bool) : List (List α) → List α → Prop
  | [], line => ∀ c ∈ line, blank c = true
  | word :: rest, line =>
    ∃ gap tail, line = gap ++ (word ++ tail) ∧ (∀ c ∈ gap, blank c = true) ∧
      IsWord blank word ∧ (∀ c ∈ tail.head?, blank c = true) ∧ Spells blank rest tail

section Words

variable {blank : α → Bool} {line gap word : List α} {found : List (List α)}

theorem words_cons_blank {c : α} (hc : blank c = true) :
    words blank (c :: line) = words blank line := by
  simp [words, List.splitOnP_cons_eq_if_modifyHead, hc]

theorem words_blanks_append (hgap : ∀ c ∈ gap, blank c = true) :
    words blank (gap ++ line) = words blank line := by
  induction gap with
  | nil => rfl
  | cons c gap ih =>
    obtain ⟨hc, hgap⟩ := List.forall_mem_cons.mp hgap
    rw [List.cons_append, words_cons_blank hc, ih hgap]

theorem words_blanks (hline : ∀ c ∈ line, blank c = true) : words blank line = [] := by
  have happend : words blank (line ++ []) = words blank [] := words_blanks_append hline
  rw [List.append_nil] at happend
  simpa [words] using happend

theorem words_word_append {tail : List α} (hword : IsWord blank word)
    (htail : ∀ c ∈ tail.head?, blank c = true) :
    words blank (word ++ tail) = word :: words blank tail := by
  cases tail with
  | nil => simp [words, List.splitOnP_eq_singleton hword.solid, hword.ne_nil]
  | cons c tail =>
    have hc : blank c = true := htail c rfl
    rw [words_cons_blank hc, words,
      List.splitOnP_append_cons_of_forall_mem hword.solid c hc]
    simp [words, hword.ne_nil]

theorem words_eq_of_spells (h : Spells blank found line) : words blank line = found := by
  induction found generalizing line with
  | nil => exact words_blanks h
  | cons word rest ih =>
    obtain ⟨gap, tail, rfl, hgap, hword, htail, hrest⟩ := h
    rw [words_blanks_append hgap, words_word_append hword htail, ih hrest]

/-- A line with a character that is no blank starts with blanks and a word. -/
theorem exists_first_word (h : ¬ ∀ c ∈ line, blank c = true) :
    ∃ gap word tail, line = gap ++ (word ++ tail) ∧ (∀ c ∈ gap, blank c = true) ∧
      IsWord blank word ∧ ∀ c ∈ tail.head?, blank c = true := by
  have hsplit := List.takeWhile_append_dropWhile (p := blank) (l := line)
  have hblanks : ∀ c ∈ line.takeWhile blank, blank c = true := fun c hc => List.mem_takeWhile_imp hc
  have hhead := List.head?_dropWhile_not blank line
  cases hsolid : line.dropWhile blank with
  | nil =>
    rw [hsolid, List.append_nil] at hsplit
    exact absurd (hsplit ▸ hblanks) h
  | cons c rest =>
    have hc : blank c = false := by simpa [hsolid] using hhead
    have hword := List.takeWhile_append_dropWhile (p := fun d => !blank d) (l := c :: rest)
    have htail := List.head?_dropWhile_not (fun d => !blank d) (c :: rest)
    refine ⟨line.takeWhile blank, (c :: rest).takeWhile (fun d => !blank d),
      (c :: rest).dropWhile (fun d => !blank d), ?_, hblanks, ⟨?_, fun d hd => ?_⟩, fun d hd => ?_⟩
    · rw [hword, ← hsolid, hsplit]
    · rw [List.takeWhile_cons_of_pos (by simp [hc])]
      exact List.cons_ne_nil _ _
    · simpa using List.mem_takeWhile_imp hd
    · rw [Option.mem_def.mp hd] at htail
      simpa using htail

theorem spells_words (blank : α → Bool) (line : List α) : Spells blank (words blank line) line := by
  induction hn : line.length using Nat.strong_induction_on generalizing line with
  | _ n ih =>
    by_cases hline : ∀ c ∈ line, blank c = true
    · rw [words_blanks hline]
      exact hline
    · obtain ⟨gap, word, tail, rfl, hgap, hword, htail⟩ := exists_first_word hline
      have hlen : 0 < word.length := List.length_pos_iff.mpr hword.ne_nil
      have hrest : Spells blank (words blank tail) tail := by
        refine ih tail.length ?_ tail rfl
        simp only [List.length_append] at hn
        omega
      rw [words_blanks_append hgap, words_word_append hword htail]
      exact ⟨gap, tail, rfl, hgap, hword, htail, hrest⟩

theorem words_eq_iff : words blank line = found ↔ Spells blank found line := by
  constructor
  · rintro rfl
    exact spells_words blank line
  · exact words_eq_of_spells

theorem head?_gap_iff {tail : List α} (hgap : ∀ c ∈ gap, blank c = true)
    (hword : IsWord blank word) :
    (∀ c ∈ (gap ++ (word ++ tail)).head?, blank c = true) ↔ gap ≠ [] := by
  cases gap with
  | cons c gap => simpa using hgap c List.mem_cons_self
  | nil =>
    obtain ⟨d, word', rfl⟩ := List.exists_cons_of_ne_nil hword.ne_nil
    simp [hword.solid d List.mem_cons_self]

end Words

/-! ## The first separator -/

section Separator

variable [DecidableEq α] {separator : α} {line before behind : List α}

theorem first_separator (h : separator ∈ line) :
    line = line.takeWhile (fun c => decide (c ≠ separator)) ++
        separator :: (line.dropWhile (fun c => decide (c ≠ separator))).tail ∧
      separator ∉ line.takeWhile (fun c => decide (c ≠ separator)) := by
  have hsplit := List.takeWhile_append_dropWhile
    (p := fun c => decide (c ≠ separator)) (l := line)
  have hhead := List.head?_dropWhile_not (fun c => decide (c ≠ separator)) line
  have hbefore : separator ∉ line.takeWhile (fun c => decide (c ≠ separator)) :=
    fun hmem => by simpa using List.mem_takeWhile_imp hmem
  refine ⟨?_, hbefore⟩
  cases hrest : line.dropWhile (fun c => decide (c ≠ separator)) with
  | nil =>
    rw [hrest, List.append_nil] at hsplit
    rw [hsplit] at hbefore
    exact absurd h hbefore
  | cons c rest =>
    rw [hrest] at hhead hsplit
    obtain rfl : c = separator := by simpa using hhead
    exact hsplit.symm

theorem takeWhile_ne_append (h : separator ∉ before) :
    (before ++ separator :: behind).takeWhile (fun c => decide (c ≠ separator)) = before := by
  induction before with
  | nil => simp
  | cons c before ih =>
    obtain ⟨hc, hbefore⟩ := not_or.mp (mt List.mem_cons.mpr h)
    simpa [Ne.symm hc] using ih hbefore

theorem dropWhile_ne_append (h : separator ∉ before) :
    (before ++ separator :: behind).dropWhile (fun c => decide (c ≠ separator)) =
      separator :: behind := by
  induction before with
  | nil => simp
  | cons c before ih =>
    obtain ⟨hc, hbefore⟩ := not_or.mp (mt List.mem_cons.mpr h)
    simpa [Ne.symm hc] using ih hbefore

end Separator

/-! ## Decimal numbers -/

theorem foldl_digits_eq_ofDigits (digits : List Nat) (n : Nat) :
    digits.foldl (fun n d => 10 * n + d) n =
      10 ^ digits.length * n + Nat.ofDigits 10 digits.reverse := by
  induction digits generalizing n with
  | nil => simp
  | cons d digits ih =>
    rw [List.foldl_cons, ih, List.reverse_cons, Nat.ofDigits_append, List.length_reverse,
      Nat.ofDigits_singleton, List.length_cons]
    ring

end FaberHosts.Lib
