import Mathlib

/-!
# Worklist reachability

The nodes reachable from some roots along a list of edges, computed by a loop
that pops a node, skips it when it was reached before, and otherwise pushes the
targets of its edges.  A node may wait on the stack several times.  The fuel the
loop needs is the length of the stack and the number of edges not followed yet.
-/

namespace FaberHosts.Lib

variable {α E : Type} {src dst : E → α} {edges : List E}

/-- There is an edge from `a` to `b`. -/
def Linked (src dst : E → α) (edges : List E) (a b : α) : Prop :=
  ∃ e ∈ edges, src e = a ∧ dst e = b

/-- A path of edges leads from some root to `a`. -/
def ReachedFrom (src dst : E → α) (edges : List E) (roots : List α) (a : α) : Prop :=
  ∃ r ∈ roots, Relation.ReflTransGen (Linked src dst edges) r a

variable [DecidableEq α]

/-- Push the targets of the edges from `node` not reached yet, one push per edge. -/
def pushTargets (src dst : E → α) (edges : List E) (node : α) (reached stack : List α) : List α :=
  edges.foldl (fun stack e => if src e = node ∧ dst e ∉ reached then dst e :: stack else stack)
    stack

/-- The loop, with the top of the stack as its head; `none` when the fuel runs out. -/
def worklist (src dst : E → α) (edges : List E) : Nat → List α → List α → Option (List α)
  | _, [], reached => some reached
  | 0, _ :: _, _ => none
  | fuel + 1, node :: stack, reached =>
    if node ∈ reached then
      worklist src dst edges fuel stack reached
    else
      worklist src dst edges fuel (pushTargets src dst edges node (reached ++ [node]) stack)
        (reached ++ [node])

theorem pushTargets_cons {e : E} {rest : List E} {node : α} {reached stack : List α} :
    pushTargets src dst (e :: rest) node reached stack =
      pushTargets src dst rest node reached
        (if src e = node ∧ dst e ∉ reached then dst e :: stack else stack) := rfl

theorem mem_pushTargets {node x : α} {reached stack : List α} :
    x ∈ pushTargets src dst edges node reached stack ↔
      x ∈ stack ∨ Linked src dst edges node x ∧ x ∉ reached := by
  induction edges generalizing stack with
  | nil => simp [pushTargets, Linked]
  | cons e rest ih =>
    have hlinked : Linked src dst (e :: rest) node x ↔
        (src e = node ∧ dst e = x) ∨ Linked src dst rest node x := by simp [Linked]
    rw [pushTargets_cons, ih, hlinked]
    by_cases hpush : src e = node ∧ dst e ∉ reached
    · rw [if_pos hpush, List.mem_cons, eq_comm (a := x)]
      constructor
      · rintro ((rfl | hx) | hx)
        · exact Or.inr ⟨Or.inl ⟨hpush.1, rfl⟩, hpush.2⟩
        · exact Or.inl hx
        · exact Or.inr ⟨Or.inr hx.1, hx.2⟩
      · rintro (hx | ⟨⟨-, rfl⟩ | hx, hnew⟩)
        · exact Or.inl (Or.inr hx)
        · exact Or.inl (Or.inl rfl)
        · exact Or.inr ⟨hx, hnew⟩
    · rw [if_neg hpush]
      constructor
      · rintro (hx | hx)
        · exact Or.inl hx
        · exact Or.inr ⟨Or.inr hx.1, hx.2⟩
      · rintro (hx | ⟨⟨hsrc, rfl⟩ | hx, hnew⟩)
        · exact Or.inl hx
        · exact absurd ⟨hsrc, hnew⟩ hpush
        · exact Or.inr ⟨hx, hnew⟩

theorem length_pushTargets_le (node : α) (reached stack : List α) :
    (pushTargets src dst edges node reached stack).length ≤
      stack.length + edges.countP (src · = node) := by
  induction edges generalizing stack with
  | nil => simp [pushTargets]
  | cons e rest ih =>
    rw [pushTargets_cons, List.countP_cons]
    refine (ih _).trans ?_
    by_cases hpush : src e = node ∧ dst e ∉ reached
    · rw [if_pos hpush, if_pos (by simpa using hpush.1), List.length_cons]
      omega
    · rw [if_neg hpush]
      omega

theorem countP_unreached {node : α} {reached : List α} (hnode : node ∉ reached) :
    edges.countP (src · ∉ reached ++ [node]) + edges.countP (src · = node) =
      edges.countP (src · ∉ reached) := by
  induction edges with
  | nil => rfl
  | cons e rest ih =>
    have hhead : ((if src e ∉ reached ++ [node] then 1 else 0) + if src e = node then 1 else 0) =
        if src e ∉ reached then 1 else 0 := by
      by_cases heq : src e = node
      · simp [heq, hnode]
      · simp [heq]
    simp only [List.countP_cons, decide_eq_true_eq] at ih ⊢
    omega

theorem worklist_returns {fuel : Nat} {stack reached : List α}
    (hfuel : stack.length + edges.countP (src · ∉ reached) ≤ fuel) :
    ∃ r, worklist src dst edges fuel stack reached = some r := by
  induction fuel generalizing stack reached with
  | zero =>
    have hstack : stack = [] := List.length_eq_zero_iff.mp (by omega)
    exact ⟨reached, by rw [hstack]; rfl⟩
  | succ fuel ih =>
    cases stack with
    | nil => exact ⟨reached, rfl⟩
    | cons node stack =>
      rw [worklist]
      rw [List.length_cons] at hfuel
      by_cases hmem : node ∈ reached
      · rw [if_pos hmem]
        exact ih (by omega)
      · rw [if_neg hmem]
        have hpush : (pushTargets src dst edges node (reached ++ [node]) stack).length ≤
            stack.length + edges.countP (src · = node) := length_pushTargets_le node _ stack
        have hcount : edges.countP (src · ∉ reached ++ [node]) + edges.countP (src · = node) =
            edges.countP (src · ∉ reached) := countP_unreached hmem
        exact ih (by omega)

omit [DecidableEq α] in
/-- Where the targets of reached nodes are reached or waiting, a path from a
    reached node stays reached or passes through the stack. -/
theorem reached_or_waiting {stack reached : List α}
    (hclosed : ∀ a ∈ reached, ∀ b, Linked src dst edges a b → b ∈ reached ∨ b ∈ stack)
    {a x : α} (ha : a ∈ reached) (hpath : Relation.ReflTransGen (Linked src dst edges) a x) :
    x ∈ reached ∨ ReachedFrom src dst edges stack x := by
  induction hpath using Relation.ReflTransGen.head_induction_on with
  | refl => exact Or.inl ha
  | head hlink hrest ih =>
    rcases hclosed _ ha _ hlink with hb | hb
    · exact ih hb
    · exact Or.inr ⟨_, hb, hrest⟩

/-- What the loop returns: the reached nodes and those reachable from the stack. -/
theorem mem_worklist {fuel : Nat} {stack reached r : List α}
    (hclosed : ∀ a ∈ reached, ∀ b, Linked src dst edges a b → b ∈ reached ∨ b ∈ stack)
    (h : worklist src dst edges fuel stack reached = some r) (x : α) :
    x ∈ r ↔ x ∈ reached ∨ ReachedFrom src dst edges stack x := by
  fun_induction worklist src dst edges fuel stack reached with
  | case1 _ reached =>
    cases h
    simp [ReachedFrom]
  | case2 => cases h
  | case3 fuel node stack reached hmem ih =>
    have hclosed' : ∀ a ∈ reached, ∀ b, Linked src dst edges a b → b ∈ reached ∨ b ∈ stack := by
      intro a ha b hb
      rcases hclosed a ha b hb with hb | hb
      · exact Or.inl hb
      · rcases List.mem_cons.mp hb with rfl | hb
        · exact Or.inl hmem
        · exact Or.inr hb
    rw [ih hclosed' h]
    constructor
    · rintro (hx | ⟨s, hs, hpath⟩)
      · exact Or.inl hx
      · exact Or.inr ⟨s, List.mem_cons_of_mem _ hs, hpath⟩
    · rintro (hx | ⟨s, hs, hpath⟩)
      · exact Or.inl hx
      · rcases List.mem_cons.mp hs with rfl | hs
        · exact reached_or_waiting hclosed' hmem hpath
        · exact Or.inr ⟨s, hs, hpath⟩
  | case4 fuel node stack reached hmem ih =>
    have hclosed' : ∀ a ∈ reached ++ [node], ∀ b, Linked src dst edges a b →
        b ∈ reached ++ [node] ∨
          b ∈ pushTargets src dst edges node (reached ++ [node]) stack := by
      intro a ha b hb
      by_cases hnew : b ∈ reached ++ [node]
      · exact Or.inl hnew
      · rw [mem_pushTargets]
        rcases List.mem_append.mp ha with ha | ha
        · rcases hclosed a ha b hb with hb | hb
          · exact Or.inl (List.mem_append_left _ hb)
          · rcases List.mem_cons.mp hb with rfl | hb
            · exact Or.inl (by simp)
            · exact Or.inr (Or.inl hb)
        · rw [List.mem_singleton.mp ha] at hb
          exact Or.inr (Or.inr ⟨hb, hnew⟩)
    rw [ih hclosed' h]
    constructor
    · rintro (hx | ⟨s, hs, hpath⟩)
      · rcases List.mem_append.mp hx with hx | hx
        · exact Or.inl hx
        · rw [List.mem_singleton.mp hx]
          exact Or.inr ⟨node, by simp, .refl⟩
      · rcases mem_pushTargets.mp hs with hs | ⟨hlink, -⟩
        · exact Or.inr ⟨s, List.mem_cons_of_mem _ hs, hpath⟩
        · exact Or.inr ⟨node, by simp, hpath.head hlink⟩
    · rintro (hx | ⟨s, hs, hpath⟩)
      · exact Or.inl (List.mem_append_left _ hx)
      · rcases List.mem_cons.mp hs with rfl | hs
        · exact reached_or_waiting hclosed' (by simp) hpath
        · exact Or.inr ⟨s, mem_pushTargets.mpr (Or.inl hs), hpath⟩

theorem mem_worklist_nil {fuel : Nat} {stack r : List α}
    (h : worklist src dst edges fuel stack [] = some r) (x : α) :
    x ∈ r ↔ ReachedFrom src dst edges stack x := by
  rw [mem_worklist (by simp) h x]
  simp

end FaberHosts.Lib
