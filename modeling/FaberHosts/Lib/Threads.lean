import Mathlib

/-!
# Threads that hold things

The threads of a system are a list of local states, and `held` says what each of
them holds.  One thread's move changes the list at its position, and what is held
altogether by what that thread took up or let go.
-/

namespace FaberHosts.Lib

variable {α β γ : Type} {threads : List α} {held : α → Option β} {i k : Nat} {before after : α}

variable (held after) in
theorem perm_filterMap_set (hbefore : threads[i]? = some before) :
    List.Perm ((held after).toList ++ threads.filterMap held)
      ((held before).toList ++ (threads.set i after).filterMap held) := by
  induction threads generalizing i with
  | nil => simp at hbefore
  | cons first rest ih =>
    have hcons : ∀ (thread : α) (l : List α),
        (thread :: l).filterMap held = (held thread).toList ++ l.filterMap held := by
      intro thread l
      rw [List.filterMap_cons]
      cases held thread <;> rfl
    cases i with
    | zero =>
      obtain rfl : first = before := by simpa using hbefore
      rw [List.set_cons_zero, hcons, hcons]
      exact List.perm_append_comm_assoc _ _ _
    | succ i =>
      have hrest := ih (by simpa using hbefore)
      rw [List.set_cons_succ, hcons, hcons]
      refine (List.perm_append_comm_assoc _ _ _).trans ?_
      exact (hrest.append_left _).trans (List.perm_append_comm_assoc _ _ _)

theorem filterMap_set_of_eq (hbefore : threads[i]? = some before)
    (hsame : held after = held before) :
    (threads.set i after).filterMap held = threads.filterMap held := by
  induction threads generalizing i with
  | nil => rfl
  | cons first rest ih =>
    cases i with
    | zero =>
      obtain rfl : first = before := by simpa using hbefore
      rw [List.set_cons_zero, List.filterMap_cons, List.filterMap_cons, hsame]
    | succ i =>
      rw [List.set_cons_succ, List.filterMap_cons, List.filterMap_cons, ih (by simpa using hbefore)]

variable (after) in
theorem sum_map_set (weight : α → Nat) (hbefore : threads[i]? = some before) :
    ((threads.set i after).map weight).sum + weight before =
      (threads.map weight).sum + weight after := by
  induction threads generalizing i with
  | nil => simp at hbefore
  | cons first rest ih =>
    cases i with
    | zero =>
      obtain rfl : first = before := by simpa using hbefore
      simp only [List.set_cons_zero, List.map_cons, List.sum_cons]
      omega
    | succ i =>
      have hrest := ih (by simpa using hbefore)
      simp only [List.set_cons_succ, List.map_cons, List.sum_cons]
      omega

/-- A thread after a move is the one that moved or one that stood still. -/
theorem getElem?_set_cases {thread : α} (h : (threads.set i after)[k]? = some thread) :
    k = i ∧ thread = after ∨ k ≠ i ∧ threads[k]? = some thread := by
  by_cases hk : k = i
  · subst hk
    obtain ⟨hlt, hget⟩ := List.getElem?_eq_some_iff.mp h
    rw [List.getElem_set_self] at hget
    exact Or.inl ⟨rfl, hget.symm⟩
  · rw [List.getElem?_set_ne (Ne.symm hk)] at h
    exact Or.inr ⟨hk, h⟩

theorem mem_set_cases {thread : α} (h : thread ∈ threads.set i after) :
    thread = after ∨ thread ∈ threads := by
  obtain ⟨k, hk⟩ := List.getElem?_of_mem h
  rcases getElem?_set_cases hk with ⟨-, rfl⟩ | ⟨-, hstill⟩
  · exact Or.inl rfl
  · exact Or.inr (List.mem_of_getElem? hstill)

theorem mem_set_of_ne {thread : α} (hthread : thread ∈ threads) (hbefore : threads[i]? = some before)
    (hne : thread ≠ before) : thread ∈ threads.set i after := by
  obtain ⟨k, hk⟩ := List.getElem?_of_mem hthread
  have hki : i ≠ k := by
    rintro rfl
    exact hne (Option.some.inj (hk.symm.trans hbefore))
  rw [← List.getElem?_set_ne hki] at hk
  exact List.mem_of_getElem? hk

theorem mem_set_self (hbefore : threads[i]? = some before) : after ∈ threads.set i after := by
  obtain ⟨hlt, -⟩ := List.getElem?_eq_some_iff.mp hbefore
  exact List.mem_of_getElem? (List.getElem?_set_self hlt)

theorem held_ne_of_nodup {key : β → γ} (hnodup : ((threads.filterMap held).map key).Nodup)
    {x y : β} (hi : threads[i]? = some before) (hk : threads[k]? = some after) (hne : i ≠ k)
    (hx : held before = some x) (hy : held after = some y) : key x ≠ key y := by
  rw [List.Nodup, List.pairwise_map, List.pairwise_filterMap] at hnodup
  obtain ⟨hlti, hgeti⟩ := List.getElem?_eq_some_iff.mp hi
  obtain ⟨hltk, hgetk⟩ := List.getElem?_eq_some_iff.mp hk
  have hpair := List.pairwise_iff_getElem.mp hnodup
  rcases Nat.lt_or_gt_of_ne hne with hlt | hgt
  · exact hpair i k hlti hltk hlt x (hgeti ▸ hx) y (hgetk ▸ hy)
  · exact (hpair k i hltk hlti hgt y (hgetk ▸ hy) x (hgeti ▸ hx)).symm

end FaberHosts.Lib
