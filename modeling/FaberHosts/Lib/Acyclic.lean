import Mathlib

/-!
# Walks that end

A graph whose walks all end from every node, and what a change of the edges of one node keeps
of it: the new edges must not lead back to that node.
-/

namespace FaberHosts.Lib

variable {α : Type} {R R' : α → α → Prop} {a : α}

/-- Every walk along the edges ends. -/
def Terminating (R : α → α → Prop) : Prop := ∀ a, Acc (fun b a => R a b) a

theorem terminating_of_no_edge (h : ∀ a b, ¬ R a b) : Terminating R :=
  fun a => ⟨a, fun b hb => absurd hb (h a b)⟩

/-- From a node that does not lead to `a` the new edges of `a` are not reached. -/
theorem acc_of_apart (h : Terminating R)
    (hedges : ∀ x y, R' x y → R x y ∨ x = a ∧ ¬ Relation.ReflTransGen R y a) {b : α}
    (hapart : ¬ Relation.ReflTransGen R b a) : Acc (fun y x => R' x y) b := by
  have hacc := h b
  induction hacc with
  | intro x _ ih =>
    refine ⟨x, fun y hxy => ?_⟩
    rcases hedges x y hxy with hold | ⟨rfl, -⟩
    · exact ih y hold (fun hya => hapart (hya.head hold))
    · exact absurd .refl hapart

/-- The edges of `a` may change when none of the new ones leads back to `a`. -/
theorem Terminating.redirect (h : Terminating R)
    (hedges : ∀ x y, R' x y → R x y ∨ x = a ∧ ¬ Relation.ReflTransGen R y a) : Terminating R' := by
  intro b
  have hacc := h b
  induction hacc with
  | intro x _ ih =>
    refine ⟨x, fun y hxy => ?_⟩
    rcases hedges x y hxy with hold | ⟨rfl, hapart⟩
    · exact ih y hold
    · exact acc_of_apart h hedges hapart

/-- Where walks end, what holds from some bound on for the nodes next to a node, and then for
    it a step later, holds from some bound on for every node. -/
theorem Terminating.eventually {P : Nat → α → Prop} (h : Terminating R) (next : α → List α)
    (hnext : ∀ a, ∀ b, R a b → b ∈ next a)
    (hstep : ∀ a depth, (∀ b, R a b → P depth b) → P (depth + 1) a) (a : α) :
    ∃ bound, ∀ depth, bound ≤ depth → P depth a := by
  have hacc := h a
  induction hacc with
  | intro x _ ih =>
    have hbound : ∀ l : List α, ∃ bound, ∀ y ∈ l, R x y → ∀ depth, bound ≤ depth → P depth y := by
      intro l
      induction l with
      | nil => exact ⟨0, nofun⟩
      | cons y rest ihrest =>
        obtain ⟨bound, hrest⟩ := ihrest
        by_cases hxy : R x y
        · obtain ⟨more, hmore⟩ := ih y hxy
          refine ⟨max bound more, fun z hz hxz depth hdepth => ?_⟩
          rcases List.mem_cons.mp hz with rfl | hz
          · exact hmore depth (le_of_max_le_right hdepth)
          · exact hrest z hz hxz depth (le_of_max_le_left hdepth)
        · refine ⟨bound, fun z hz hxz depth hdepth => ?_⟩
          rcases List.mem_cons.mp hz with rfl | hz
          · exact absurd hxz hxy
          · exact hrest z hz hxz depth hdepth
    obtain ⟨bound, hall⟩ := hbound (next x)
    refine ⟨bound + 1, fun depth hdepth => ?_⟩
    obtain ⟨depth, rfl⟩ : ∃ n, depth = n + 1 := ⟨depth - 1, by omega⟩
    exact hstep x depth (fun y hxy => hall y (hnext x y hxy) hxy depth (by omega))

end FaberHosts.Lib
