import Mathlib

/-!
# Maps as ordered entries

A finite map as the list of its entries in key order, for types that nest a map
of themselves.
-/

namespace FaberHosts.Lib

variable {K V : Type} [LinearOrder K]

/-- Insert a value, in place of the one the key had. -/
def insertEntry (key : K) (value : V) : List (K × V) → List (K × V)
  | [] => [(key, value)]
  | entry :: rest =>
    if key < entry.1 then (key, value) :: entry :: rest
    else if key = entry.1 then (key, value) :: rest
    else entry :: insertEntry key value rest

/-- The keys are distinct and in order. -/
def OrderedEntries (entries : List (K × V)) : Prop :=
  entries.Pairwise (fun a b => a.1 < b.1)

theorem insertEntry_of_last {key : K} {value : V} {entries : List (K × V)}
    (h : ∀ entry ∈ entries, entry.1 < key) :
    insertEntry key value entries = entries ++ [(key, value)] := by
  induction entries with
  | nil => rfl
  | cons first rest ih =>
    have hlt : first.1 < key := h first List.mem_cons_self
    rw [insertEntry, if_neg (not_lt.mpr hlt.le), if_neg hlt.ne',
      ih (fun entry hentry => h entry (List.mem_cons_of_mem _ hentry)), List.cons_append]

end FaberHosts.Lib
