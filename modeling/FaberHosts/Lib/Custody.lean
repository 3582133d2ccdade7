import Mathlib

/-!
# Keys in an index and in the hands of threads

An index leads from keys to owners, and each owner is recorded under at most one key.  A
thread takes an entry out of the index, holds it for a while, and files it again or
settles it.  `Move` is what one thread does, `Agrees` what every move keeps, and `Kept`
says that the keys of some owners are never lost.
-/

set_option linter.unusedSectionVars false

namespace FaberHosts.Lib

structure Desk (κ ω : Type) where
  index : κ → Option ω
  owner : ω → Option κ
  held : Nat → Option (κ × ω)

namespace Desk

variable {κ ω : Type} [DecidableEq κ] [DecidableEq ω]
variable {desk after : Desk κ ω} {thread : Nat} {key : κ} {id : ω} {S T : ω → Prop}

/-- What one thread does to the index, the owners and what it holds.  It lets go of, and
    removes, only keys whose owners are outside `T`. -/
inductive Move (desk : Desk κ ω) (thread : Nat) (T : ω → Prop) : Desk κ ω → Prop
  | still : Move desk thread T desk
  | leave (hlost : ∀ key id, desk.held thread = some (key, id) → ¬ T id) :
    Move desk thread T { desk with held := Function.update desk.held thread none }
  | take {key : κ} {id : ω} (hindex : desk.index key = some id)
      (hnone : desk.held thread = none) :
    Move desk thread T { desk with
      index := Function.update desk.index key none
      held := Function.update desk.held thread (some (key, id)) }
  | file {key : κ} {id : ω} (hheld : desk.held thread = some (key, id)) :
    Move desk thread T { desk with
      index := Function.update desk.index key (some id)
      held := Function.update desk.held thread none }
  | grant {key : κ} {id : ω} (hfree : desk.owner id = none)
      (hnew : ∀ other, desk.owner other ≠ some key) (hnone : desk.held thread = none) :
    Move desk thread T { desk with
      owner := Function.update desk.owner id (some key)
      held := Function.update desk.held thread (some (key, id)) }
  | settle {key : κ} {id : ω} (hheld : desk.held thread = some (key, id)) :
    Move desk thread T { desk with
      owner := Function.update desk.owner id none
      held := Function.update desk.held thread none }
  | remove (keys : List κ) (hnone : desk.held thread = none)
      (hlost : ∀ key id, key ∈ keys → desk.index key = some id → ¬ T id) :
    Move desk thread T { desk with
      index := fun key => if key ∈ keys then none else desk.index key
      held := Function.update desk.held thread none }

/-- An entry of the index, and what a thread holds, is the key its owner is recorded
    under; what is held is out of the index and in one hand. -/
structure Agrees (desk : Desk κ ω) : Prop where
  filed : ∀ key id, desk.index key = some id → desk.owner id = some key
  hand : ∀ thread key id, desk.held thread = some (key, id) → desk.owner id = some key
  out : ∀ thread key id, desk.held thread = some (key, id) → desk.index key = none
  alone : ∀ thread other key id id', desk.held thread = some (key, id) →
    desk.held other = some (key, id') → thread = other
  single : ∀ key id id', desk.owner id = some key → desk.owner id' = some key → id = id'

/-- The key of every owner in `S` is filed or in a hand. -/
def Kept (desk : Desk κ ω) (S : ω → Prop) : Prop :=
  ∀ id key, S id → desk.owner id = some key →
    desk.index key = some id ∨ ∃ thread, desk.held thread = some (key, id)

theorem agrees_empty (desk : Desk κ ω) (hindex : ∀ key, desk.index key = none)
    (howner : ∀ id, desk.owner id = none) (hheld : ∀ thread, desk.held thread = none) :
    desk.Agrees where
  filed key id h := by simp [hindex] at h
  hand thread key id h := by simp [hheld] at h
  out thread key id h := by simp [hheld] at h
  alone thread other key id id' h := by simp [hheld] at h
  single key id id' h := by simp [howner] at h

namespace Agrees

theorem leave (h : desk.Agrees) :
    Agrees { desk with held := Function.update desk.held thread none } where
  filed := h.filed
  hand := by grind [h.hand]
  out := by grind [h.out]
  alone := by grind [h.alone]
  single := h.single

theorem take (h : desk.Agrees) (hindex : desk.index key = some id) :
    Agrees { desk with
      index := Function.update desk.index key none
      held := Function.update desk.held thread (some (key, id)) } where
  filed := by grind [h.filed]
  hand := by grind [h.hand, h.filed]
  out := by grind [h.out]
  alone := by grind [h.alone, h.out]
  single := h.single

theorem file (h : desk.Agrees) (hheld : desk.held thread = some (key, id)) :
    Agrees { desk with
      index := Function.update desk.index key (some id)
      held := Function.update desk.held thread none } where
  filed := by grind [h.filed, h.hand]
  hand := by grind [h.hand]
  out := by grind [h.out, h.alone]
  alone := by grind [h.alone]
  single := h.single

theorem free_of_new (h : desk.Agrees) (hnew : ∀ other, desk.owner other ≠ some key) :
    desk.index key = none ∧ ∀ thread id, desk.held thread ≠ some (key, id) := by
  refine ⟨?_, fun thread id hheld => hnew id (h.hand thread key id hheld)⟩
  cases hindex : desk.index key with
  | none => rfl
  | some id => exact absurd (h.filed key id hindex) (hnew id)

theorem grant (h : desk.Agrees) (hnone : desk.owner id = none)
    (hnew : ∀ other, desk.owner other ≠ some key) :
    Agrees { desk with
      owner := Function.update desk.owner id (some key)
      held := Function.update desk.held thread (some (key, id)) } := by
  obtain ⟨hindex, hheld⟩ := h.free_of_new hnew
  constructor
  · grind [h.filed]
  · grind [h.hand]
  · grind [h.out]
  · grind [h.alone]
  · grind [h.single]

theorem settle (h : desk.Agrees) (hheld : desk.held thread = some (key, id)) :
    Agrees { desk with
      owner := Function.update desk.owner id none
      held := Function.update desk.held thread none } := by
  have howner := h.hand thread key id hheld
  have hout := h.out thread key id hheld
  constructor
  · grind [h.filed]
  · grind [h.hand, h.alone]
  · grind [h.out]
  · grind [h.alone]
  · grind [h.single]

theorem remove (h : desk.Agrees) (keys : List κ) :
    Agrees { desk with
      index := fun key => if key ∈ keys then none else desk.index key } where
  filed := by grind [h.filed]
  hand := h.hand
  out := by grind [h.out]
  alone := h.alone
  single := h.single

theorem move (h : desk.Agrees) (hmove : desk.Move thread T after) : after.Agrees := by
  cases hmove with
  | still => exact h
  | leave hlost => exact h.leave
  | take hindex hnone => exact h.take hindex
  | file hheld => exact h.file hheld
  | grant hfree hnew hnone => exact h.grant hfree hnew
  | settle hheld => exact h.settle hheld
  | remove keys hnone hlost => exact (h.remove keys).leave

end Agrees

theorem Move.same {hand : Option (κ × ω)} (hheld : desk.held thread = hand) :
    Move desk thread T { desk with held := Function.update desk.held thread hand } := by
  have hself : Function.update desk.held thread hand = desk.held := by
    rw [← hheld]
    exact Function.update_eq_self thread desk.held
  rw [hself]
  exact .still

theorem update_owner_none (hnone : desk.owner id = none) :
    { desk with owner := Function.update desk.owner id none } = desk := by
  rw [← hnone, Function.update_eq_self]

namespace Kept

theorem leave (h : desk.Kept S)
    (hlost : ∀ key id, desk.held thread = some (key, id) → ¬ S id) :
    Kept { desk with held := Function.update desk.held thread none } S := by
  intro id key hS howner
  rcases h id key hS howner with hfiled | ⟨holder, hheld⟩
  · exact Or.inl hfiled
  · refine Or.inr ⟨holder, ?_⟩
    have hne : holder ≠ thread := by
      intro heq
      exact hlost key id (heq ▸ hheld) hS
    simpa [Function.update_of_ne hne] using hheld

theorem take (h : desk.Kept S) (hindex : desk.index key = some id)
    (hnone : desk.held thread = none) :
    Kept { desk with
      index := Function.update desk.index key none
      held := Function.update desk.held thread (some (key, id)) } S := by
  intro other otherKey hS howner
  rcases h other otherKey hS howner with hfiled | ⟨holder, hheld⟩
  · by_cases heq : otherKey = key
    · subst heq
      obtain rfl : id = other := by simpa [hindex] using hfiled
      exact Or.inr ⟨thread, by simp⟩
    · exact Or.inl (by simpa [Function.update_of_ne heq] using hfiled)
  · refine Or.inr ⟨holder, ?_⟩
    have hne : holder ≠ thread := by
      intro heq
      simp [heq, hnone] at hheld
    simpa [Function.update_of_ne hne] using hheld

theorem file (h : desk.Kept S) (hagrees : desk.Agrees)
    (hheld : desk.held thread = some (key, id)) :
    Kept { desk with
      index := Function.update desk.index key (some id)
      held := Function.update desk.held thread none } S := by
  intro other otherKey hS howner
  by_cases heq : otherKey = key
  · subst heq
    have hsame := hagrees.single otherKey id other (hagrees.hand thread _ id hheld) howner
    exact Or.inl (by simp [hsame])
  · rcases h other otherKey hS howner with hfiled | ⟨holder, hholder⟩
    · exact Or.inl (by simpa [Function.update_of_ne heq] using hfiled)
    · refine Or.inr ⟨holder, ?_⟩
      have hne : holder ≠ thread := by
        intro hthread
        rw [hthread, hheld] at hholder
        simp at hholder
        exact heq hholder.1.symm
      simpa [Function.update_of_ne hne] using hholder

theorem grant (h : desk.Kept S) (hnone : desk.held thread = none) :
    Kept { desk with
      owner := Function.update desk.owner id (some key)
      held := Function.update desk.held thread (some (key, id)) } S := by
  intro other otherKey hS howner
  by_cases heq : other = id
  · subst heq
    obtain rfl : key = otherKey := by simpa using howner
    exact Or.inr ⟨thread, by simp⟩
  · have howner : desk.owner other = some otherKey := by
      simpa [Function.update_of_ne heq] using howner
    rcases h other otherKey hS howner with hfiled | ⟨holder, hheld⟩
    · exact Or.inl hfiled
    · refine Or.inr ⟨holder, ?_⟩
      have hne : holder ≠ thread := by
        intro hthread
        simp [hthread, hnone] at hheld
      simpa [Function.update_of_ne hne] using hheld

theorem settle (h : desk.Kept S) (hheld : desk.held thread = some (key, id)) :
    Kept { desk with
      owner := Function.update desk.owner id none
      held := Function.update desk.held thread none } S := by
  intro other otherKey hS howner
  have hne : other ≠ id := by
    intro heq
    simp [heq] at howner
  have howner : desk.owner other = some otherKey := by
    simpa [Function.update_of_ne hne] using howner
  rcases h other otherKey hS howner with hfiled | ⟨holder, hholder⟩
  · exact Or.inl hfiled
  · refine Or.inr ⟨holder, ?_⟩
    have hother : holder ≠ thread := by
      intro hthread
      rw [hthread, hheld] at hholder
      simp at hholder
      exact hne hholder.2.symm
    simpa [Function.update_of_ne hother] using hholder

/-- Removing entries loses nothing that belongs to an owner outside `S`. -/
theorem remove (h : desk.Kept S) (keys : List κ)
    (hlost : ∀ key id, key ∈ keys → desk.index key = some id → ¬ S id) :
    Kept { desk with
      index := fun key => if key ∈ keys then none else desk.index key } S := by
  intro id key hS howner
  rcases h id key hS howner with hfiled | hheld
  · have hmem : key ∉ keys := fun hmem => hlost key id hmem hfiled hS
    exact Or.inl (by simpa [hmem] using hfiled)
  · exact Or.inr hheld

/-- What a set of owners keeps, a move keeps for any set that it adds only owners without
    a key to. -/
theorem move (h : desk.Kept S) (hagrees : desk.Agrees) (hmove : desk.Move thread T after)
    (hsub : ∀ id, T id → S id ∨ desk.owner id = none) : after.Kept T := by
  have hT : desk.Kept T := by
    intro id key hid howner
    rcases hsub id hid with hS | hnone
    · exact h id key hS howner
    · simp [hnone] at howner
  cases hmove with
  | still => exact hT
  | leave hlost => exact hT.leave hlost
  | take hindex hnone => exact hT.take hindex hnone
  | file hheld => exact hT.file hagrees hheld
  | grant hfree hnew hnone => exact hT.grant hnone
  | settle hheld => exact hT.settle hheld
  | remove keys hnone hlost =>
    refine (hT.remove keys hlost).leave ?_
    intro key id hheld
    simp [hnone] at hheld

end Kept

end Desk

end FaberHosts.Lib

/-!
## Holders of shared resources

A group of parties that each hold some resources while they live.  A party may start another
that takes over some of what it holds, release a resource, or end; nobody comes to hold
what was not held before.
-/

namespace FaberHosts.Lib.Holders

structure Holder (ρ : Type) where
  alive : Bool
  holds : List ρ
  deriving DecidableEq, Repr

variable {ρ : Type}

/-- A living party of the group holds it. -/
def Held (group : List (Holder ρ)) (r : ρ) : Prop :=
  ∃ holder ∈ group, holder.alive = true ∧ r ∈ holder.holds

instance [DecidableEq ρ] (group : List (Holder ρ)) (r : ρ) : Decidable (Held group r) :=
  inferInstanceAs (Decidable (∃ holder ∈ group, holder.alive = true ∧ r ∈ holder.holds))

/-- The party lives. -/
def lives (group : List (Holder ρ)) (i : Nat) : Bool := group[i]?.any (·.alive)

/-- A party starts another with what it keeps of its resources. -/
def fork (kept : ρ → Bool) (group : List (Holder ρ)) (i : Nat) : List (Holder ρ) :=
  group ++ (group[i]?.map fun parent => ⟨parent.alive, parent.holds.filter kept⟩).toList

def release [DecidableEq ρ] (group : List (Holder ρ)) (i : Nat) (r : ρ) : List (Holder ρ) :=
  group.modify i fun holder => { holder with holds := holder.holds.filter (· ≠ r) }

def exit (group : List (Holder ρ)) (i : Nat) : List (Holder ρ) :=
  group.modify i fun holder => { holder with alive := false }

def killAll (group : List (Holder ρ)) : List (Holder ρ) :=
  group.map fun holder => { holder with alive := false }

section

variable {group : List (Holder ρ)} {i : Nat} {r : ρ}

theorem mem_modify {f : Holder ρ → Holder ρ} {holder : Holder ρ} (h : holder ∈ group.modify i f) :
    holder ∈ group ∨ ∃ before ∈ group, holder = f before := by
  obtain ⟨j, hj⟩ := List.mem_iff_getElem?.mp h
  rw [List.getElem?_modify] at hj
  obtain ⟨before, hbefore, heq⟩ := Option.map_eq_some_iff.mp hj
  have hmem := List.mem_of_getElem? hbefore
  split at heq
  · exact .inr ⟨before, hmem, heq.symm⟩
  · exact .inl (heq ▸ hmem)

/-- A party that changes to hold no more, and to live no longer, adds nothing that is held. -/
theorem held_of_modify {f : Holder ρ → Holder ρ}
    (hf : ∀ holder, (f holder).alive = true → r ∈ (f holder).holds →
      holder.alive = true ∧ r ∈ holder.holds) (h : Held (group.modify i f) r) : Held group r := by
  obtain ⟨holder, hmem, halive, hr⟩ := h
  rcases mem_modify hmem with hsame | ⟨before, hbefore, rfl⟩
  · exact ⟨holder, hsame, halive, hr⟩
  · exact ⟨before, hbefore, hf before halive hr⟩

theorem held_of_release [DecidableEq ρ] {released : ρ} (h : Held (release group i released) r) :
    Held group r := by
  unfold release at h
  refine held_of_modify ?_ h
  exact fun holder halive hr => ⟨halive, (List.mem_filter.mp hr).1⟩

theorem held_of_exit (h : Held (exit group i) r) : Held group r := by
  unfold exit at h
  refine held_of_modify ?_ h
  rintro holder ⟨⟩

theorem held_of_fork {kept : ρ → Bool} (h : Held (fork kept group i) r) : Held group r := by
  obtain ⟨holder, hmem, halive, hr⟩ := h
  rcases List.mem_append.mp hmem with hmem | hmem
  · exact ⟨holder, hmem, halive, hr⟩
  · obtain ⟨parent, hparent, rfl⟩ := Option.map_eq_some_iff.mp (Option.mem_toList.mp hmem)
    exact ⟨parent, List.mem_of_getElem? hparent, halive, (List.mem_filter.mp hr).1⟩

end

end FaberHosts.Lib.Holders
