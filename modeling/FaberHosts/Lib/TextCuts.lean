import FaberHosts.Lib.Checks
import Mathlib.Data.String.Basic

/-!
# Cutting a text at a number of bytes

A text can only be cut between two characters.  A cap cuts it to the longest prefix
of at most so many bytes when it falls between two characters or behind the text.
-/

namespace FaberHosts.Lib

/-- The characters of the first bytes, if these bytes end with a character. -/
def takeBytes : Nat → List Char → Option (List Char)
  | 0, _ => some []
  | _ + 1, [] => none
  | take + 1, c :: rest =>
    if c.utf8Size ≤ take + 1 then (takeBytes (take + 1 - c.utf8Size) rest).map (c :: ·) else none

/-- `&text[..take]`. -/
def sliceTo (text : String) (take : Nat) : MayPanic String :=
  (takeBytes take text.toList).map String.ofList

/-- The cap does not fall inside a character of the text. -/
def AtCharacter (cap : Nat) (text : String) : Prop :=
  cap ≤ text.utf8ByteSize → String.Pos.Raw.IsValid text ⟨cap⟩

/-- The longest prefix of the text that the cap leaves room for, which the cap cuts at a
    character. -/
def Cut (cap : Nat) (text out : String) : Prop :=
  (∃ rest, text = out ++ rest) ∧ out.utf8ByteSize = min cap text.utf8ByteSize

/-- What is captured of a text under a cap. -/
structure Bounded (cap : Nat) (text out : String) : Prop where
  size : out.utf8ByteSize ≤ cap
  is_prefix : ∃ rest, text = out ++ rest
  whole : text.utf8ByteSize ≤ cap → out = text

/-! ## Cutting a text -/

theorem takeBytes_eq_some_iff {take : Nat} {chars taken : List Char} :
    takeBytes take chars = some taken ↔
      (∃ rest, chars = taken ++ rest) ∧ String.utf8Len taken = take := by
  induction take, chars using takeBytes.induct generalizing taken with
  | case1 chars =>
    rw [takeBytes]
    constructor
    · rintro ⟨⟩
      exact ⟨⟨chars, rfl⟩, rfl⟩
    · rintro ⟨-, hsize⟩
      rw [String.utf8Len_eq_zero.mp hsize]
  | case2 take =>
    rw [takeBytes]
    constructor
    · rintro ⟨⟩
    · rintro ⟨⟨rest, hchars⟩, hsize⟩
      obtain ⟨rfl, -⟩ := List.append_eq_nil_iff.mp hchars.symm
      cases hsize
  | case3 take c rest hfits ih =>
    rw [takeBytes, if_pos hfits]
    constructor
    · intro h
      obtain ⟨tail, htail, rfl⟩ := Option.map_eq_some_iff.mp h
      obtain ⟨⟨more, rfl⟩, hsize⟩ := ih.mp htail
      refine ⟨⟨more, rfl⟩, ?_⟩
      rw [String.utf8Len_cons, hsize]
      omega
    · rintro ⟨⟨more, hchars⟩, hsize⟩
      cases taken with
      | nil => cases hsize
      | cons d tail =>
        obtain ⟨rfl, rfl⟩ := List.cons.inj hchars
        rw [String.utf8Len_cons] at hsize
        rw [ih.mpr ⟨⟨more, rfl⟩, by omega⟩]
        rfl
  | case4 take c rest hfits =>
    rw [takeBytes, if_neg hfits]
    constructor
    · rintro ⟨⟩
    · rintro ⟨⟨more, hchars⟩, hsize⟩
      cases taken with
      | nil => cases hsize
      | cons d tail =>
        obtain ⟨rfl, -⟩ := List.cons.inj hchars
        rw [String.utf8Len_cons] at hsize
        omega

theorem sliceTo_eq_some_iff {text taken : String} {take : Nat} :
    sliceTo text take = some taken ↔
      (∃ rest, text = taken ++ rest) ∧ taken.utf8ByteSize = take := by
  rw [sliceTo, Option.map_eq_some_iff]
  constructor
  · rintro ⟨chars, hchars, rfl⟩
    obtain ⟨⟨rest, hrest⟩, hsize⟩ := takeBytes_eq_some_iff.mp hchars
    refine ⟨⟨String.ofList rest, ?_⟩, by rw [String.utf8ByteSize_ofList, hsize]⟩
    rw [← String.ofList_append, ← hrest, String.ofList_toList]
  · rintro ⟨⟨rest, rfl⟩, hsize⟩
    refine ⟨taken.toList, takeBytes_eq_some_iff.mpr ⟨⟨rest.toList, String.toList_append⟩, ?_⟩,
      String.ofList_toList⟩
    rw [← hsize, ← String.utf8ByteSize_ofList, String.ofList_toList]

theorem split_append {s t u v : String} (h : s ++ t = u ++ v)
    (hsize : s.utf8ByteSize ≤ u.utf8ByteSize) : ∃ w, u = s ++ w ∧ t = w ++ v := by
  have hlist : s.toList ++ t.toList = u.toList ++ v.toList := by
    rw [← String.toList_append, ← String.toList_append, h]
  rcases List.append_eq_append_iff.mp hlist with ⟨w, hu, ht⟩ | ⟨w, hs, hv⟩
  · refine ⟨String.ofList w, ?_, ?_⟩
    · rw [← String.toList_inj, String.toList_append, String.toList_ofList, hu]
    · rw [← String.toList_inj, String.toList_append, String.toList_ofList, ht]
  · have hw : s = u ++ String.ofList w := by
      rw [← String.toList_inj, String.toList_append, String.toList_ofList, hs]
    have hempty : (String.ofList w).utf8ByteSize = 0 := by
      rw [hw, String.utf8ByteSize_append] at hsize
      omega
    rw [String.utf8ByteSize_eq_zero_iff] at hempty
    rw [hempty, String.append_empty] at hw
    subst hw
    exact ⟨"", by rw [String.append_empty], by
      rw [String.empty_append]
      exact String.append_right_inj s |>.mp h⟩

theorem Cut.bounded {cap : Nat} {text out : String} (h : Cut cap text out) :
    Bounded cap text out := by
  obtain ⟨⟨rest, htext⟩, hsize⟩ := h
  refine ⟨by omega, ⟨rest, htext⟩, ?_⟩
  intro hfits
  have hempty : rest.utf8ByteSize = 0 := by
    have htotal := congrArg String.utf8ByteSize htext
    rw [String.utf8ByteSize_append] at htotal
    omega
  rw [String.utf8ByteSize_eq_zero_iff] at hempty
  rw [htext, hempty, String.append_empty]

theorem isValid_iff {text : String} {place : Nat} :
    String.Pos.Raw.IsValid text ⟨place⟩ ↔
      ∃ out rest, text = out ++ rest ∧ out.utf8ByteSize = place := by
  rw [String.Pos.Raw.isValid_iff_exists_append]
  simp only [String.Pos.Raw.ext_iff, String.byteIdx_rawEndPos, eq_comm]

theorem exists_cut_iff {cap : Nat} {text : String} :
    (∃ out, Cut cap text out) ↔ AtCharacter cap text := by
  rw [AtCharacter, isValid_iff]
  constructor
  · rintro ⟨out, ⟨rest, htext⟩, hsize⟩ hcap
    exact ⟨out, rest, htext, by omega⟩
  · intro h
    by_cases hcap : cap ≤ text.utf8ByteSize
    · obtain ⟨out, rest, htext, hout⟩ := h hcap
      exact ⟨out, ⟨rest, htext⟩, by omega⟩
    · exact ⟨text, ⟨"", by rw [String.append_empty]⟩, by omega⟩

/-- A cap at a character of a text is at a character of what the text starts with. -/
theorem AtCharacter.of_append {cap : Nat} {text more : String} (h : AtCharacter cap (text ++ more)) :
    AtCharacter cap text := by
  obtain ⟨out, ⟨rest, htext⟩, hsize⟩ := exists_cut_iff.mpr h
  intro hcap
  rw [String.utf8ByteSize_append] at hsize
  obtain ⟨w, hw, -⟩ := split_append htext.symm (by omega)
  exact isValid_iff.mpr ⟨out, w, hw, by omega⟩

end FaberHosts.Lib
