import FaberHosts.Http.Registry
import FaberHosts.Lib.Runs

/-!
# Calls side by side

Any number of calls on one provider, each going from lock to lock; the schedule says which
of them takes its next step.  A call that has not begun stands at its beginning.
-/

namespace FaberHosts.Http
open FaberHosts.Lib

structure System where
  shared : Shared
  pcs : Nat → Pc

namespace System

/-- A new provider and the calls that will be made on it. -/
def start (calls : Nat → Pc) : System := ⟨.new, calls⟩

/-- One call takes its next step in the world of `move.2`. -/
def move (s : System) (move : Nat × Env) : System where
  shared := (advance move.2 s.shared (s.pcs move.1)).1
  pcs := Function.update s.pcs move.1 (advance move.2 s.shared (s.pcs move.1)).2

/-- Every step returns. -/
def step (s : System) (move : Nat × Env) : Option System := some (s.move move)

def holds (s : System) (t : Nat) : Hold := (s.pcs t).hold

end System

/-- Where a call begins. -/
def Pc.isCall : Pc → Bool
  | .listen _ => true
  | .accept _ => true
  | .respond _ _ => true
  | .respondOpen _ _ => true
  | .respondChunk _ _ => true
  | .respondFinish _ _ => true
  | .stop _ => true
  | _ => false

/-- A call alone, step by step. -/
def runCall : Shared → Pc → List Env → Shared × Pc
  | shared, pc, [] => (shared, pc)
  | shared, pc, env :: envs => runCall (advance env shared pc).1 (advance env shared pc).2 envs

/-- The call polls a connection that another call has read a request from and not marked
    yet. -/
def Crowds (s : System) (t : Nat) : Prop :=
  ∃ c ∈ (s.holds t).polling.head?, ∃ u, u ≠ t ∧ (s.holds u).marking = some c

theorem hold_of_isCall {pc : Pc} (h : pc.isCall = true) : pc.hold = {} := by
  cases pc <;> simp [Pc.isCall] at h <;> rfl

variable {s : System} {move : Nat × Env}

theorem holds_move (s : System) (move : Nat × Env) :
    (s.move move).holds =
      Function.update s.holds move.1 (advance move.2 s.shared (s.pcs move.1)).2.hold := by
  funext t
  by_cases h : t = move.1
  · subst h
    simp [System.holds, System.move]
  · simp [System.holds, System.move, Function.update_of_ne h]

theorem act_move (s : System) (move : Nat × Env) :
    Act (CutsTerminator move.2 s.shared (s.pcs move.1)) (FilesLate s.shared (s.pcs move.1))
      s.shared.view (s.holds move.1) (s.move move).shared.view
      (advance move.2 s.shared (s.pcs move.1)).2.hold :=
  act_advance move.2 s.shared (s.pcs move.1)

theorem apart_of_not_crowds (inv : Registry s.shared.view s.holds) (h : ¬ Crowds s move.1) :
    Apart s.holds move.1 (advance move.2 s.shared (s.pcs move.1)).2.hold := by
  have hact := act_move s move
  intro c u hmarking hu hother
  generalize hh : s.holds move.1 = hold at hact
  generalize (advance move.2 s.shared (s.pcs move.1)).2.hold = after at hact hmarking
  generalize (s.move move).shared.view = viewAfter at hact
  cases hact with
  | keep => exact hu (inv.numbered.alone u move.1 c hother (by rw [hh]; exact hmarking))
  | read c' cs hidle =>
    obtain rfl : c' = c := by simpa using hmarking
    exact h ⟨c', by simp [hh], u, hu, hother⟩
  | _ => simp at hmarking

theorem registry_move (inv : Registry s.shared.view s.holds) (h : ¬ Crowds s move.1) :
    Registry (s.move move).shared.view (s.move move).holds := by
  rw [holds_move]
  exact inv.step (act_move s move) (apart_of_not_crowds inv h)

theorem covered_move (covered : Covered s.shared.view s.holds)
    (inv : Registry s.shared.view s.holds) (h : ¬ FilesLate s.shared (s.pcs move.1)) :
    Covered (s.move move).shared.view (s.move move).holds := by
  rw [holds_move]
  exact covered.step inv (act_move s move) h

variable {calls : Nat → Pc}

theorem holds_start (hcalls : ∀ t, (calls t).isCall = true) :
    (System.start calls).holds = fun _ => {} := by
  funext t
  exact hold_of_isCall (hcalls t)

theorem registry_start (hcalls : ∀ t, (calls t).isCall = true) :
    Registry (System.start calls).shared.view (System.start calls).holds := by
  rw [holds_start hcalls]
  exact registry_new

theorem covered_start (hcalls : ∀ t, (calls t).isCall = true) :
    Covered (System.start calls).shared.view (System.start calls).holds := by
  rw [holds_start hcalls]
  exact covered_new

theorem pcs_run {moves : List (Nat × Env)} {s after : System} {t : Nat}
    (ht : ∀ move ∈ moves, move.1 ≠ t) (hrun : runSteps System.step s moves = some after) :
    after.pcs t = s.pcs t := by
  induction moves generalizing s with
  | nil =>
    obtain rfl : s = after := by simpa using hrun
    rfl
  | cons move moves ih =>
    obtain ⟨next, hnext, hrest⟩ := runSteps_cons hrun
    obtain rfl : s.move move = next := Option.some.inj hnext
    rw [ih (fun m hm => ht m (List.mem_cons_of_mem move hm)) hrest]
    have hne : t ≠ move.1 := (ht move List.mem_cons_self).symm
    simp [System.move, Function.update_of_ne hne]

end FaberHosts.Http
