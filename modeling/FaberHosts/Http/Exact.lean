import FaberHosts.Http.System

/-!
# The indexes between calls

One call at a time: what the indexes say when it has answered.  They are exact, unless a
call to `respond_finish` fails to write the terminator: it has taken the writer out of the
index by then, and leaves the connection streaming.
-/

namespace FaberHosts.Http
open FaberHosts.Lib FaberHosts.Kernel

/-! ## Completed calls -/

/-- A call that answers. -/
def serveCall (shared : Shared) (call : Pc × List Env) : Option Shared :=
  if call.1.isCall then
    match runCall shared call.1 call.2 with
    | (after, .done _) => some after
    | _ => none
  else
    none

/-- A step of the call cuts a terminator short. -/
def CutsDuring : Shared → Pc → List Env → Prop
  | _, _, [] => False
  | shared, pc, env :: envs => CutsTerminator env shared pc ∨
      CutsDuring (advance env shared pc).1 (advance env shared pc).2 envs

instance decidableCutsDuring :
    (shared : Shared) → (pc : Pc) → (envs : List Env) → Decidable (CutsDuring shared pc envs)
  | _, _, [] => isFalse id
  | shared, pc, env :: envs =>
    have := decidableCutsDuring (advance env shared pc).1 (advance env shared pc).2 envs
    inferInstanceAs (Decidable (CutsTerminator env shared pc ∨
      CutsDuring (advance env shared pc).1 (advance env shared pc).2 envs))

/-- The indexes lead to the connections that wait for an answer or have one open, to
    no others, and every such connection is found through one of them. -/
structure Exact (shared : Shared) : Prop where
  requests : ∀ r c, shared.requests r = some c ↔
    c ∈ shared.connections ∧ (shared.heap c).phase = .pending r
  writers : ∀ w c, shared.writers w = some c ↔
    c ∈ shared.connections ∧ ∃ r, (shared.heap c).phase = .streaming r w
  found : ∀ c ∈ shared.connections, (shared.heap c).phase ≠ .idle →
    (∃ r, shared.requests r = some c) ∨ ∃ w, shared.writers w = some c

/-! ## One call at a time -/

/-- What one call holds when there is no other. -/
def alone (h : Hold) : Nat → Hold := Function.update (fun _ => {}) 0 h

theorem alone_zero (h : Hold) : alone h 0 = h := Function.update_self ..

theorem update_alone (h h' : Hold) : Function.update (alone h) 0 h' = alone h' :=
  Function.update_idem ..

theorem alone_empty : alone {} = fun _ => {} := Function.update_eq_self ..

/-- Nobody takes a connection a call works on out of the map while it is alone. -/
def Stored (shared : Shared) : Pc → Prop
  | .acceptPoll _ _ slots _ => ∀ c ∈ slots, c ∈ shared.connections
  | .acceptMark c _ | .acceptIndex c _ | .admitIndex c _ => c ∈ shared.connections
  | .openWrite c _ _ | .openIndex c _ => c ∈ shared.connections
  | _ => True

theorem not_filesLate_of_stored {shared : Shared} {pc : Pc} (h : Stored shared pc) :
    ¬ FilesLate shared pc := by
  cases pc <;> simp_all [Stored, FilesLate]

theorem stored_resume (shared : Shared) (after : After) : Stored shared (resume after) := by
  unfold resume
  split <;> trivial

theorem stored_pollStep {env : Env} {shared : Shared} {handle : Int} {listener : ListenerState}
    {id : Nat} {slots closed : List Nat} (h : ∀ c ∈ id :: slots, c ∈ shared.connections) :
    Stored (pollStep env shared handle listener id slots closed).1
      (pollStep env shared handle listener id slots closed).2 := by
  have hslots : ∀ c ∈ slots, c ∈ shared.connections :=
    fun c hc => h c (List.mem_cons_of_mem id hc)
  unfold pollStep
  simp only
  split
  · exact hslots
  · split
    · trivial
    · exact h id List.mem_cons_self
    · exact hslots
    · split
      · exact hslots
      · split <;> exact hslots

theorem Stored.advance {env : Env} {shared : Shared} {pc : Pc} (h : Stored shared pc) :
    Stored (advance env shared pc).1 (advance env shared pc).2 := by
  cases pc with
  | acceptScan handle listener =>
    intro c hc
    simp only [Shared.idleOf, List.mem_filter, decide_eq_true_eq] at hc
    exact hc.2.1
  | acceptPoll handle listener slots closed =>
    cases slots with
    | nil => exact stored_resume _ _
    | cons id slots => exact stored_pollStep h
  | acceptMark c parts => exact h
  | admitRead handle listener =>
    simp only [Http.advance, admitStep]
    split <;> trivial
  | admitStore handle read parts => exact List.mem_cons_self
  | drop id after =>
    simp only [Http.advance]
    split
    · trivial
    · exact stored_resume _ _
  | forget id after =>
    simp only [Http.advance, forgetStep]
    split
    · exact stored_resume _ _
    · trivial
    · trivial
  | forgetRequest requestId writer after =>
    cases writer with
    | none => exact stored_resume _ _
    | some writer => trivial
  | forgetWriter writer after => exact stored_resume _ _
  | respondWrite id requestId response =>
    simp only [Http.advance, respondStep]
    split <;> trivial
  | openSlot id requestId opening =>
    simp only [Http.advance]
    split
    · assumption
    · trivial
  | openWrite id requestId opening =>
    simp only [Http.advance, openStep]
    split
    · trivial
    · split
      · trivial
      · exact h
  | chunkWrite id writer bytes =>
    simp only [Http.advance, chunkStep]
    split <;> trivial
  | finishWrite id writer keepAlive =>
    simp only [Http.advance, finishStep]
    split
    · trivial
    · split
      · trivial
      · split <;> trivial
  | stopSlots handle slots requestIds writers =>
    cases slots with
    | nil => trivial
    | cons id slots =>
      simp only [Http.advance, stopSlotStep]
      split <;> trivial
  | stopSweep handle => trivial
  | stopFlag handle => trivial
  | stopRequests handle requestIds writers => trivial
  | stopWriters handle writers => trivial
  | listen listener => trivial
  | acceptIndex c parts => trivial
  | admitIndex c parts => trivial
  | openIndex c writer => trivial
  | done reply => trivial
  | acceptCheck handle listener =>
    simp only [Http.advance]
    split
    · trivial
    · split <;> trivial
  | _ => simp only [Http.advance]; split <;> trivial

structure Settled (shared : Shared) (pc : Pc) : Prop where
  registry : Registry shared.view (alone pc.hold)
  served : Served shared.view (alone pc.hold)
  covered : Covered shared.view (alone pc.hold)
  stored : Stored shared pc

theorem Settled.advance {env : Env} {shared : Shared} {pc : Pc} (h : Settled shared pc)
    (hcut : ¬ CutsTerminator env shared pc) :
    Settled (advance env shared pc).1 (advance env shared pc).2 := by
  have hact := act_advance env shared pc
  rw [← alone_zero pc.hold] at hact
  have hlate := not_filesLate_of_stored h.stored
  have hapart : Apart (alone pc.hold) 0 (Http.advance env shared pc).2.hold := by
    intro c u _ hu
    simp [alone, hu]
  have hregistry := h.registry.step hact hapart
  have hserved := h.served.step h.registry hact hcut
  have hcovered := h.covered.step h.registry hact hlate
  rw [update_alone] at hregistry hserved hcovered
  exact ⟨hregistry, hserved, hcovered, h.stored.advance⟩

theorem Settled.runCall {shared : Shared} {pc : Pc} {envs : List Env} (h : Settled shared pc)
    (hcuts : ¬ CutsDuring shared pc envs) :
    Settled (runCall shared pc envs).1 (runCall shared pc envs).2 := by
  induction envs generalizing shared pc with
  | nil => exact h
  | cons env envs ih =>
    have hfirst : ¬ CutsTerminator env shared pc := fun hcut => hcuts (Or.inl hcut)
    exact ih (h.advance hfirst) (fun hlater => hcuts (Or.inr hlater))

theorem exact_of_settled {shared : Shared} {reply : Reply} (h : Settled shared (.done reply)) :
    Exact shared := by
  obtain ⟨registry, served, covered, -⟩ := h
  simp only [show (Pc.done reply).hold = {} from rfl, alone_empty] at registry served covered
  -- no call holds anything, so an entry is where its connection says it is
  have hsafe : ∀ c ∈ shared.connections, Safe shared.view (fun _ => {}) c :=
    fun c hc => ⟨hc, fun _ => nofun⟩
  have hrequests : ∀ r c, shared.requests r = some c ↔
      c ∈ shared.connections ∧ (shared.heap c).phase = .pending r := by
    intro r c
    constructor
    · intro hindex
      have hpending := Phase.pendingId_eq_some_iff.mp (registry.requests.filed r c hindex)
      have hstored : c ∈ shared.connections := by
        simpa [Shared.view] using covered.requests r c hindex
      exact ⟨hstored, hpending⟩
    · rintro ⟨hstored, hpending⟩
      have hkept := served.requests c r (hsafe c hstored) (Phase.pendingId_eq_some_iff.mpr hpending)
      simpa [requestDesk, Shared.view] using hkept
  have hwriters : ∀ w c, shared.writers w = some c ↔
      c ∈ shared.connections ∧ ∃ r, (shared.heap c).phase = .streaming r w := by
    intro w c
    constructor
    · intro hindex
      have hstreaming := Phase.writer?_eq_some_iff.mp (registry.writers.filed w c hindex)
      have hstored : c ∈ shared.connections := by
        simpa [Shared.view] using covered.writers w c hindex
      exact ⟨hstored, hstreaming⟩
    · rintro ⟨hstored, hstreaming⟩
      have hkept := served.writers c w (hsafe c hstored) (Phase.writer?_eq_some_iff.mpr hstreaming)
      simpa [writerDesk, Shared.view] using hkept
  refine ⟨hrequests, hwriters, ?_⟩
  intro c hstored hphase
  cases hp : (shared.heap c).phase with
  | idle => exact absurd hp hphase
  | pending r => exact Or.inl ⟨r, (hrequests r c).mpr ⟨hstored, hp⟩⟩
  | streaming r w => exact Or.inr ⟨w, (hwriters w c).mpr ⟨hstored, r, hp⟩⟩

theorem settled_new : Settled .new (.done (.ok .vacuum)) where
  registry := by rw [show (Pc.done (.ok .vacuum)).hold = {} from rfl, alone_empty]; exact registry_new
  served := by rw [show (Pc.done (.ok .vacuum)).hold = {} from rfl, alone_empty]; exact served_new
  covered := by rw [show (Pc.done (.ok .vacuum)).hold = {} from rfl, alone_empty]; exact covered_new
  stored := trivial

theorem stored_of_isCall {shared : Shared} {pc : Pc} (h : pc.isCall = true) :
    Stored shared pc := by
  cases pc <;> simp [Pc.isCall] at h <;> trivial

/-- A call leaves the provider as settled as it found it, unless it cuts a terminator. -/
theorem Settled.serveCall {shared after : Shared} {call : Pc × List Env} {reply : Reply}
    (h : Settled shared (.done reply)) (hcuts : ¬ CutsDuring shared call.1 call.2)
    (hserve : serveCall shared call = some after) : Settled after (.done reply) := by
  unfold Http.serveCall at hserve
  split at hserve
  · rename_i hcall
    have hstart : Settled shared call.1 := by
      obtain ⟨registry, served, covered, -⟩ := h
      refine ⟨?_, ?_, ?_, stored_of_isCall hcall⟩ <;> rw [hold_of_isCall hcall]
      · exact registry
      · exact served
      · exact covered
    have hend := hstart.runCall hcuts
    split at hserve
    · rename_i after' reply' hrun
      rw [hrun] at hend
      obtain rfl : after' = after := by simpa using hserve
      exact ⟨hend.registry, hend.served, hend.covered, trivial⟩
    · simp at hserve
  · simp at hserve

/-- After each of a sequence of calls the indexes are exact, as long as none of them cuts
    a terminator. -/
theorem serve_exact {calls : List (Pc × List Env)} {shared : Shared}
    (hmeet : StepsMeet serveCall (fun shared call => ¬ CutsDuring shared call.1 call.2) .new calls)
    (hrun : runSteps serveCall .new calls = some shared) : Exact shared := by
  have hsettled : Settled shared (.done (.ok .vacuum)) := by
    apply runSteps_preserves_of_meets _ hmeet settled_new hrun
    intro s call t hs hcuts hserve
    exact hs.serveCall hcuts hserve
  exact exact_of_settled hsettled

/-- A listener takes a request from a new socket, and the answer to it is opened. -/
def openedCalls : List (Pc × List Env) :=
  [(.listen ⟨100, ⟨10, 10⟩⟩, [.quiet]),
    (.accept 1, [.quiet, .quiet, .quiet, .quiet, { Env.quiet with incoming := .socket },
      { Env.quiet with reads := [.data plainRequest] }, .quiet, .quiet, .quiet]),
    (.respondOpen "http-1" ⟨200, []⟩,
      [.quiet, .quiet, { Env.quiet with writes := [.wrote 1000] }, .quiet])]

/-- The answer is finished, or the terminator waits for the client until it times out. -/
def finishCall (write : WriteEvent) : Pc × List Env :=
  (.respondFinish 1 true, [.quiet, .quiet, { Env.quiet with writes := [write] }])

theorem serve_exact_finished : ∃ shared,
    runSteps serveCall .new (openedCalls ++ [finishCall (.wrote 5)]) = some shared ∧
      Exact shared := by
  obtain ⟨shared, hrun⟩ := Option.isSome_iff_exists.mp
    (show (runSteps serveCall .new (openedCalls ++ [finishCall (.wrote 5)])).isSome by
      decide +kernel)
  exact ⟨shared, hrun, serve_exact (by decide +kernel) hrun⟩

/-- A terminator that times out leaves a streaming connection that nothing leads to. -/
theorem timed_out_finish_loses_writer :
    ¬ ∀ calls shared, runSteps serveCall .new calls = some shared → Exact shared := by
  intro h
  have hlost : (runSteps serveCall .new (openedCalls ++ [finishCall .timedOut])).map
      (fun shared => (shared.connections, (shared.heap 1).phase, shared.writers 1)) =
        some ([1], .streaming "http-1" 1, none) := by
    decide +kernel
  obtain ⟨shared, hrun, hshared⟩ := Option.map_eq_some_iff.mp hlost
  have hexact := h _ shared hrun
  simp only [Prod.mk.injEq] at hshared
  obtain ⟨hstored, hphase, hwriter⟩ := hshared
  have hindex := (hexact.writers 1 1).mpr ⟨by simp [hstored], "http-1", hphase⟩
  simp [hwriter] at hindex

end FaberHosts.Http
