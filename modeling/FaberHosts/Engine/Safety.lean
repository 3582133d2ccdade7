import FaberHosts.Engine.Session

/-!
# Safety of the engine session

A frame loop belongs to the state `ready`, and `start` runs in the states before it.  The invariant
holds in every run in which no `start` ends after the session has failed; loss notifications only
matter for the current device while none arrives for a replaced one.
-/

namespace FaberHosts.Engine
open FaberHosts.Lib

namespace EngineSession

variable {options : SessionOptions} {session : EngineSession}

/-! ## What the helpers change -/

/-- The state after a transition whose refusal is swallowed. -/
def moved (source target : EngineState) : EngineState :=
  if target ∈ source.transitions then target else source

theorem tryTransition_eq (session : EngineSession) (next : EngineState) :
    ∃ history facts, session.tryTransition next = { session with
      machine := ⟨moved session.state next, history⟩
      facts := facts } := by
  unfold tryTransition transition EngineStateMachine.transition moved
  by_cases hnext : next ∈ session.state.transitions
  · simp only [hnext, if_true, Except.map]
    exact ⟨_, _, rfl⟩
  · simp only [hnext, if_false, Except.map]
    exact ⟨_, _, rfl⟩

theorem transition_admitted {next : EngineState}
    (hnext : next ∈ session.machine.state.transitions) :
    session.transition next = .ok { session with
      machine := ⟨next, session.machine.history ++ [(session.machine.state, next)]⟩
      facts := session.facts ++ [("data-render-status", next.renderStatus),
        ("data-device-status", next.deviceStatus)] } := by
  simp [transition, EngineStateMachine.transition, hnext, Except.map, EngineSession.setFacts]

theorem moved_failed (source : EngineState) : moved source .failed = .failed := by
  cases source <;> rfl

theorem failStart_eq (session : EngineSession) (recovering : Bool) (error : EngineError) :
    ∃ history facts rejected, session.failStart recovering error = { session with
      machine := ⟨.failed, history⟩
      facts := facts
      sessionError := some error
      pending := none
      rejectedRecovers := rejected } := by
  obtain ⟨history, facts, hmoved⟩ := tryTransition_eq session .failed
  rw [moved_failed] at hmoved
  unfold failStart
  rw [hmoved]
  exact ⟨_, _, _, rfl⟩

/-! ## The invariant -/

/-- The scheduler runs in `ready` only, and `start` waits in the states before it or after a
    failure. -/
structure Invariant (session : EngineSession) : Prop where
  scheduled : session.scheduled = session.scheduler.toList
  ready : session.scheduler.isSome → session.state = .ready
  waiting : session.pending.isSome → session.started = true ∧
    (session.state = .startup ∨ session.state = .recovering ∨ session.state = .failed)
  started : session.state ≠ .startup → session.state ≠ .failed → session.started = true
  destroyed : session.destroyed = true → session.state = .failed
  rejected : session.rejectedRecovers ≠ [] → session.state = .failed

theorem invariant_new (device : Nat) : (new device).Invariant :=
  ⟨rfl, nofun, nofun, fun h => (h rfl).elim, nofun, fun h => (h rfl).elim⟩

theorem Invariant.congr (h : session.Invariant) {session' : EngineSession}
    (hstate : session'.state = session.state) (hscheduler : session'.scheduler = session.scheduler)
    (hscheduled : session'.scheduled = session.scheduled)
    (hpending : session'.pending = session.pending) (hstarted : session'.started = session.started)
    (hdestroyed : session'.destroyed = session.destroyed)
    (hrejected : session'.rejectedRecovers = session.rejectedRecovers) : session'.Invariant :=
  ⟨by rw [hscheduled, hscheduler, h.scheduled],
    by rw [hscheduler, hstate]; exact h.ready,
    by rw [hpending, hstarted, hstate]; exact h.waiting,
    by rw [hstarted, hstate]; exact h.started,
    by rw [hdestroyed, hstate]; exact h.destroyed,
    by rw [hrejected, hstate]; exact h.rejected⟩

theorem Invariant.setFacts (h : session.Invariant) (published : List (String × String)) :
    (session.setFacts published).Invariant := h.congr rfl rfl rfl rfl rfl rfl rfl

theorem Invariant.noScheduler (h : session.Invariant) (hstate : session.state ≠ .ready) :
    session.scheduler = none := by
  by_contra hsome
  exact hstate (h.ready (Option.isSome_iff_ne_none.mpr hsome))

theorem stopScheduler_eq (hscheduled : session.scheduled = session.scheduler.toList) :
    session.stopScheduler = { session with scheduler := none, scheduled := [] } := by
  unfold stopScheduler
  cases hscheduler : session.scheduler with
  | none =>
    rw [hscheduler] at hscheduled
    cases session
    simp_all
  | some scheduler => simp [hscheduled, hscheduler]

theorem invariant_failed (hstate : session.state = .failed) (hscheduler : session.scheduler = none)
    (hscheduled : session.scheduled = [])
    (hstarted : session.pending.isSome → session.started = true) : session.Invariant :=
  ⟨by rw [hscheduled, hscheduler]; rfl, by simp [hscheduler],
    fun hpending => ⟨hstarted hpending, .inr (.inr hstate)⟩, fun _ h => (h hstate).elim,
    fun _ => hstate, fun _ => hstate⟩

theorem Invariant.failStart (h : session.Invariant) (hstate : session.state ≠ .ready)
    (recovering : Bool) (error : EngineError) : (session.failStart recovering error).Invariant := by
  obtain ⟨history, facts, rejected, hfail⟩ := failStart_eq session recovering error
  have hnone := h.noScheduler hstate
  rw [hfail]
  refine invariant_failed rfl hnone ?_ nofun
  rw [h.scheduled, hnone]
  rfl

theorem Invariant.not_ready (h : session.Invariant) (hpending : session.pending.isSome) :
    session.state ≠ .ready := by
  intro hready
  rcases (h.waiting hpending).2 with hstate | hstate | hstate
  all_goals simp [hready] at hstate

/-! ## `start` -/

theorem Invariant.start (h : session.Invariant) (hstate : session.started = false →
      session.state = .startup ∨ session.state = .recovering ∨ session.state = .failed)
    (recovering : Bool) (admission : Except EngineError Unit) :
    (session.start recovering admission).Invariant := by
  unfold EngineSession.start
  by_cases hstarted : session.started = true
  · simpa [hstarted] using h
  · have hbefore := hstate (by simpa using hstarted)
    have hopened : ({ session with started := true } : EngineSession).Invariant :=
      ⟨h.scheduled, h.ready, fun hp => ⟨rfl, (h.waiting hp).2⟩, fun _ _ => rfl, h.destroyed,
        h.rejected⟩
    simp only [hstarted, Bool.false_eq_true, if_false]
    cases admission with
    | error error =>
      refine hopened.failStart ?_ recovering error
      intro hready
      rcases hbefore with hs | hs | hs
      all_goals simp [show session.state = .ready from hready] at hs
    | ok _ =>
      exact ⟨h.scheduled, h.ready, fun _ => ⟨rfl, hbefore⟩, fun _ _ => rfl, h.destroyed, h.rejected⟩

theorem Invariant.startLoop (h : session.Invariant)
    (hstate : session.state = .startup ∨ session.state = .recovering)
    (hstarted : session.started = true) (recovering : Bool) :
    (session.startLoop recovering).Invariant := by
  have hnone : session.scheduler = none := by
    apply h.noScheduler
    rcases hstate with hs | hs
    all_goals simp [hs]
  have hready : EngineState.ready ∈ (session.buildMirrorBuffer.buildScheduler.registerDeviceLoss
      |>.startScheduler).machine.state.transitions := by
    show EngineState.ready ∈ session.state.transitions
    rcases hstate with hs | hs
    all_goals simp [hs, EngineState.transitions]
  have hscheduled : session.scheduled = [] := by
    rw [h.scheduled, hnone]
    rfl
  have hlive : session.state ≠ .failed := by
    rcases hstate with hs | hs
    all_goals simp [hs]
  unfold EngineSession.startLoop
  dsimp only
  rw [transition_admitted hready]
  refine ⟨?_, fun _ => rfl, nofun, fun _ _ => hstarted, ?_, ?_⟩
  · simp [startScheduler, registerDeviceLoss, buildScheduler, buildMirrorBuffer, hscheduled]
  · exact fun hdestroyed => (hlive (h.destroyed hdestroyed)).elim
  · exact fun hrejected => (hlive (h.rejected hrejected)).elim

/-- The completion lets `start` run to its end. -/
def reachesLoop (options : SessionOptions) (session : EngineSession) : Completion → Bool
  | .pipelineRejected _ => false
  | .pipelineLoaded _ renderer samples =>
    session.pending.any (fun pending => pending.await = .pipeline) && renderer.isOk &&
      !(options.pixelSamples && samples.isOk) && !options.waitForSceneBlob
  | .pixelsMapped _ =>
    session.pending.any (fun pending => pending.await = .pixels) && !options.waitForSceneBlob
  | .sceneReady _ => session.pending.any (fun pending => pending.await = .scene)

theorem Invariant.awaitScene (h : session.Invariant) {pending : PendingStart}
    (hpending : session.pending = some pending)
    (hstate : options.waitForSceneBlob = false → session.state ≠ .failed) :
    (awaitScene options session pending.recovering).Invariant := by
  have hwaiting := h.waiting (by simp [hpending])
  unfold EngineSession.awaitScene
  split
  · exact ⟨h.scheduled, h.ready, fun _ => hwaiting, h.started, h.destroyed, h.rejected⟩
  · next hnone =>
    have hlive := hstate (by simpa using hnone)
    refine h.startLoop ?_ hwaiting.1 _
    rcases hwaiting.2 with hs | hs | hs
    · exact .inl hs
    · exact .inr hs
    · exact (hlive hs).elim

theorem Invariant.continueStart (h : session.Invariant) {completion : Completion}
    {session' : EngineSession}
    (hguard : session.reachesLoop options completion = true → session.state ≠ .failed)
    (hstep : session.continueStart options completion = some session') : session'.Invariant := by
  obtain ⟨pending, hpending, hrun⟩ := Option.bind_eq_some_iff.mp hstep
  obtain ⟨await, recovering⟩ := pending
  have hnot := h.not_ready (by simp [hpending])
  cases await with
  | pipeline =>
    cases completion with
    | pipelineRejected error =>
      cases hrun
      exact h.failStart hnot _ error
    | pipelineLoaded cacheKey renderer samples =>
      have hloaded : ({ session with pipelineLoaded := true }.setFacts
          [("data-pipeline-status", "loaded"), ("data-pipeline-cache-key", cacheKey)]).Invariant :=
        h.congr rfl rfl rfl rfl rfl rfl rfl
      cases renderer with
      | error error =>
        cases hrun
        exact hloaded.failStart hnot _ error
      | ok _ =>
        simp only at hrun
        split at hrun
        · next hsamples =>
          cases samples with
          | error message =>
            cases hrun
            refine (hloaded.setFacts _).awaitScene hpending (fun hscene => hguard ?_)
            simp [reachesLoop, hpending, Except.isOk, Except.toBool, hscene]
          | ok _ =>
            cases hrun
            exact ⟨h.scheduled, h.ready, fun _ => h.waiting (by simp [hpending]), h.started,
              h.destroyed, h.rejected⟩
        · next hsamples =>
          cases hrun
          refine hloaded.awaitScene hpending (fun hscene => hguard ?_)
          simp [reachesLoop, hpending, Except.isOk, Except.toBool, hscene, hsamples]
    | pixelsMapped center => cases hrun
    | sceneReady mounted => cases hrun
  | pixels =>
    cases completion with
    | pixelsMapped center =>
      cases center with
      | ok center =>
        cases hrun
        refine (h.setFacts _).awaitScene hpending (fun hscene => hguard ?_)
        simp [reachesLoop, hpending, hscene]
      | error message =>
        cases hrun
        refine (h.setFacts _).awaitScene hpending (fun hscene => hguard ?_)
        simp [reachesLoop, hpending, hscene]
    | pipelineRejected error => cases hrun
    | pipelineLoaded cacheKey renderer samples => cases hrun
    | sceneReady mounted => cases hrun
  | scene =>
    cases completion with
    | sceneReady mounted =>
      cases hrun
      have hwaiting := h.waiting (by simp [hpending])
      have hlive := hguard (by simp [reachesLoop, hpending])
      have hmounted : (session.mountScene mounted).Invariant := by
        cases mounted with
        | ok count => exact h.setFacts _
        | error message => exact h.setFacts _
      have hsame : (session.mountScene mounted).state = session.state ∧
          (session.mountScene mounted).started = session.started := by
        cases mounted with
        | ok count => exact ⟨rfl, rfl⟩
        | error message => exact ⟨rfl, rfl⟩
      refine hmounted.startLoop ?_ (hsame.2.trans hwaiting.1) _
      rw [hsame.1]
      rcases hwaiting.2 with hs | hs | hs
      · exact .inl hs
      · exact .inr hs
      · exact (hlive hs).elim
    | pipelineRejected error => cases hrun
    | pipelineLoaded cacheKey renderer samples => cases hrun
    | pixelsMapped center => cases hrun

/-! ## The other tasks -/

theorem Invariant.pending_none (h : session.Invariant) (hstartup : session.state ≠ .startup)
    (hrecovering : session.state ≠ .recovering) (hfailed : session.state ≠ .failed) :
    session.pending = none := by
  by_contra hpending
  rcases (h.waiting (Option.isSome_iff_ne_none.mpr hpending)).2 with hs | hs | hs
  · exact hstartup hs
  · exact hrecovering hs
  · exact hfailed hs

theorem Invariant.suspend (h : session.Invariant) : session.suspend.Invariant := by
  unfold EngineSession.suspend
  split
  · next hstate =>
    have hpending := h.pending_none (by simp [hstate]) (by simp [hstate]) (by simp [hstate])
    have hstarted := h.started (by simp [hstate]) (by simp [hstate])
    obtain ⟨history, facts, hmoved⟩ := tryTransition_eq session.stopScheduler .suspended
    rw [hmoved, stopScheduler_eq h.scheduled]
    refine ⟨rfl, nofun, ?_, fun _ _ => hstarted, ?_, ?_⟩
    · simp [hpending]
    · intro hdestroyed
      exact absurd (h.destroyed hdestroyed) (by simp [hstate])
    · intro hrejected
      exact absurd (h.rejected hrejected) (by simp [hstate])
  · exact h

theorem Invariant.resume (h : session.Invariant) : session.resume.Invariant := by
  unfold EngineSession.resume
  split
  · next hstate =>
    have hpending := h.pending_none (by simp [hstate]) (by simp [hstate]) (by simp [hstate])
    have hstarted := h.started (by simp [hstate]) (by simp [hstate])
    have hscheduled : session.scheduled = [] := by
      rw [h.scheduled, h.noScheduler (by simp [hstate])]
      rfl
    obtain ⟨history, facts, hmoved⟩ := tryTransition_eq
      session.buildMirrorBuffer.buildScheduler.startScheduler .ready
    rw [hmoved]
    refine ⟨?_, fun _ => ?_, ?_, fun _ _ => hstarted, ?_, ?_⟩
    · simp [startScheduler, buildScheduler, buildMirrorBuffer, hscheduled]
    · show moved session.state .ready = .ready
      rw [hstate]
      rfl
    · simp [startScheduler, buildScheduler, buildMirrorBuffer, hpending]
    · intro hdestroyed
      exact absurd (h.destroyed hdestroyed) (by simp [hstate])
    · intro hrejected
      exact absurd (h.rejected hrejected) (by simp [hstate])
  · exact h

theorem Invariant.recover_eq (h : session.Invariant) (hstate : session.state = .deviceLost)
    (device : Nat) (admission : Except EngineError Unit) :
    ∃ facts, session.recover device admission = EngineSession.start { session with
      machine := ⟨.recovering, session.machine.history ++ [(.deviceLost, .recovering)]⟩
      facts := facts
      mirrorBuffer := none
      currentDevice := device
      started := false } true admission := by
  have hnone := h.noScheduler (by simp [hstate])
  refine ⟨session.facts ++ [("data-render-status", "recovering"),
    ("data-device-status", "recovering")], ?_⟩
  have hmachine : session.machine.state = .deviceLost := hstate
  unfold EngineSession.recover EngineSession.transition EngineStateMachine.transition
  simp only [hmachine, EngineState.transitions, true_or, if_true, List.mem_cons, Except.map]
  simp [stopScheduler, destroyMirrorBuffer, EngineSession.setFacts, hnone, EngineState.renderStatus,
    EngineState.deviceStatus]

theorem Invariant.recover (h : session.Invariant) (device : Nat)
    (admission : Except EngineError Unit) : (session.recover device admission).Invariant := by
  by_cases hlost : session.state = .deviceLost
  · obtain ⟨facts, hrecover⟩ := h.recover_eq hlost device admission
    have hnone := h.noScheduler (by simp [hlost])
    have hpending := h.pending_none (by simp [hlost]) (by simp [hlost]) (by simp [hlost])
    rw [hrecover]
    unfold EngineSession.start
    simp only [Bool.false_eq_true, if_false]
    have hlive : session.destroyed ≠ true := fun hdestroyed =>
      absurd (h.destroyed hdestroyed) (by simp [hlost])
    have haccepted : session.rejectedRecovers = [] := by
      by_contra hrejected
      exact absurd (h.rejected hrejected) (by simp [hlost])
    have hopened : ({ session with
        machine := ⟨.recovering, session.machine.history ++ [(.deviceLost, .recovering)]⟩
        facts := facts
        mirrorBuffer := none
        currentDevice := device
        started := true } : EngineSession).Invariant :=
      ⟨h.scheduled, by simp [hnone], by simp [hpending], fun _ _ => rfl,
        fun hdestroyed => (hlive hdestroyed).elim, fun hrejected => (hrejected haccepted).elim⟩
    cases admission with
    | error error => exact hopened.failStart (by simp) true error
    | ok _ =>
      refine ⟨h.scheduled, ?_, fun _ => ⟨rfl, .inr (.inl rfl)⟩, fun _ _ => rfl,
        fun hdestroyed => (hlive hdestroyed).elim, fun hrejected => (hrejected haccepted).elim⟩
      simp [EngineSession.setFacts, hnone]
  · unfold EngineSession.recover
    split
    · next hor =>
      have hrecovering : session.machine.state = .recovering := hor.resolve_left hlost
      have hrefused : session.transition .recovering =
          .error (engineStateError .recovering .recovering) := by
        simp [EngineSession.transition, EngineStateMachine.transition, hrecovering,
          EngineState.transitions, Except.map]
      rw [hrefused]
      obtain ⟨history, facts, hmoved⟩ := tryTransition_eq session .failed
      have hnone := h.noScheduler (by simp [EngineSession.state, hrecovering])
      simp only [hmoved, moved_failed]
      refine invariant_failed rfl hnone ?_ (fun hp => (h.waiting hp).1)
      show session.scheduled = []
      rw [h.scheduled, hnone]
      rfl
    · exact h

theorem Invariant.recoverRejected (h : session.Invariant) {session' : EngineSession}
    (hstep : session.recoverRejected = some session') : session'.Invariant := by
  unfold EngineSession.recoverRejected at hstep
  split at hstep
  · cases hstep
  · next error rest hrejected =>
    cases hstep
    have hfailed := h.rejected (by simp [hrejected])
    have hnone := h.noScheduler (by simp [hfailed])
    obtain ⟨history, facts, hmoved⟩ :=
      tryTransition_eq { session with rejectedRecovers := rest } .failed
    simp only [hmoved, moved_failed]
    refine invariant_failed rfl hnone ?_ (fun hp => (h.waiting hp).1)
    show session.scheduled = []
    rw [h.scheduled, hnone]
    rfl

theorem moved_deviceLost (source : EngineState) :
    (moved source .deviceLost = .deviceLost ∧ (source = .ready ∨ source = .suspended ∨
      source = .deviceLost)) ∨ (moved source .deviceLost = source ∧ source ≠ .ready ∧
        source ≠ .suspended) := by
  cases source <;> simp [moved, EngineState.transitions]

theorem Invariant.handleDeviceLoss (h : session.Invariant) (reason : String) :
    (session.handleDeviceLoss reason).Invariant := by
  unfold EngineSession.handleDeviceLoss
  obtain ⟨history, facts, hmoved⟩ := tryTransition_eq (session.setFacts
    [("data-device-status", "lost"), ("data-device-loss-reason", reason)]) .deviceLost
  have hstopped := @stopScheduler_eq { session with
    machine := ⟨moved session.state .deviceLost, history⟩
    facts := facts } h.scheduled
  rw [hmoved]
  have hstate : (session.setFacts [("data-device-status", "lost"),
    ("data-device-loss-reason", reason)]).state = session.state := rfl
  rw [hstate]
  refine Eq.subst (motive := Invariant) hstopped.symm ?_
  rcases moved_deviceLost session.state with ⟨hlost, hfrom⟩ | ⟨hsame, hready, -⟩
  · -- a running session: it was started, and nothing waits
    have hne : session.state ≠ .startup ∧ session.state ≠ .recovering ∧ session.state ≠ .failed := by
      rcases hfrom with hs | hs | hs
      all_goals simp [hs]
    have hpending := h.pending_none hne.1 hne.2.1 hne.2.2
    have hstarted := h.started hne.1 hne.2.2
    rw [hlost]
    refine ⟨rfl, nofun, ?_, fun _ _ => hstarted, ?_, ?_⟩
    · intro hp
      exact absurd hpending (Option.isSome_iff_ne_none.mp hp)
    · exact fun hdestroyed => (hne.2.2 (h.destroyed hdestroyed)).elim
    · exact fun hrejected => (hne.2.2 (h.rejected hrejected)).elim
  · rw [hsame]
    exact ⟨rfl, nofun, h.waiting, h.started, h.destroyed, h.rejected⟩

theorem Invariant.deviceLost (h : session.Invariant) {device : Nat} {reason : String}
    {session' : EngineSession} (hstep : session.deviceLost device reason = some session') :
    session'.Invariant := by
  unfold EngineSession.deviceLost at hstep
  split at hstep
  · cases hstep
    have herased : ({ session with
        lossCallbacks := session.lossCallbacks.erase device } : EngineSession).Invariant :=
      h.congr rfl rfl rfl rfl rfl rfl rfl
    split
    · exact herased
    · exact herased.handleDeviceLoss reason
  · cases hstep

theorem Invariant.destroy (h : session.Invariant) : session.destroy.Invariant := by
  unfold EngineSession.destroy
  split
  · exact h
  · have hstopped : ({ session with destroyed := true } : EngineSession).stopScheduler =
        { session with destroyed := true, scheduler := none, scheduled := [] } :=
      @stopScheduler_eq { session with destroyed := true } h.scheduled
    obtain ⟨history, facts, hmoved⟩ := tryTransition_eq
      ({ session with destroyed := true } : EngineSession).stopScheduler.destroyMirrorBuffer .failed
    rw [hmoved, moved_failed, hstopped]
    exact invariant_failed rfl rfl rfl (fun hp => (h.waiting hp).1)

end EngineSession

/-! ## Runs -/

open EngineSession in
/-- No `start` reaches its end after a failure, `recover` is not called while one runs, and no loss
    of a replaced device is reported before `destroy`. -/
def WellTimed (options : SessionOptions) (session : EngineSession) : SessionTask → Prop
  | .completed completion =>
    session.reachesLoop options completion = true → session.state ≠ .failed
  | .recover _ _ => session.state ≠ .recovering
  | .lost device _ => device = session.currentDevice ∨ session.destroyed = true
  | _ => True

instance (options : SessionOptions) (session : EngineSession) (task : SessionTask) :
    Decidable (WellTimed options session task) := by
  unfold WellTimed
  cases task <;> infer_instance

theorem invariant_runTask {options : SessionOptions} {session session' : EngineSession}
    {task : SessionTask} (h : session.Invariant) (htimed : WellTimed options session task)
    (hstep : runTask options session task = some session') : session'.Invariant := by
  cases task with
  | start admission =>
    cases hstep
    apply h.start
    intro hstarted
    by_cases hstartup : session.state = .startup
    · exact .inl hstartup
    · refine .inr (.inr ?_)
      by_contra hfailed
      have := h.started hstartup hfailed
      simp [hstarted] at this
  | completed completion => exact h.continueStart htimed hstep
  | suspend => cases hstep; exact h.suspend
  | resume => cases hstep; exact h.resume
  | recover device admission => cases hstep; exact h.recover device admission
  | recoverRejected => exact h.recoverRejected hstep
  | handleDeviceLoss reason => cases hstep; exact h.handleDeviceLoss reason
  | lost device reason => exact h.deviceLost hstep
  | destroy => cases hstep; exact h.destroy

/-- A frame loop runs in `ready` only, and there is at most one. -/
structure OneLoop (session : EngineSession) : Prop where
  ready : session.scheduled ≠ [] → session.state = .ready
  single : session.scheduled.length ≤ 1

theorem oneLoop_of_invariant {session : EngineSession} (h : session.Invariant) :
    OneLoop session := by
  constructor
  · intro hscheduled
    apply h.ready
    cases hscheduler : session.scheduler with
    | none => simp [h.scheduled, hscheduler] at hscheduled
    | some scheduler => rfl
  · rw [h.scheduled]
    cases session.scheduler <;> simp

/-- The loops, mirror buffers and loss callbacks created so far. -/
def made (session : EngineSession) : Nat × Nat × Nat :=
  (session.schedulersMade, session.buffersMade, session.lossCallbacksMade)

/-- What a task does to a session. -/
structure SafeStep (session : EngineSession) (task : SessionTask) (session' : EngineSession) :
    Prop where
  destroyed : session.destroyed = true → made session' = made session ∧ session'.scheduled = []
  replaced : ∀ device reason, task = .lost device reason → device ≠ session.currentDevice →
    session' = { session with lossCallbacks := session.lossCallbacks.erase device }
  recovered : ∀ device admission, task = .recover device admission →
    session.state = .deviceLost ∨ session.state = .recovering →
      (EngineState.deviceLost, EngineState.recovering) ∈
        session'.machine.history.drop session.machine.history.length ∧
      (admission = .ok () →
        session'.state = .recovering ∧ session'.pending = some ⟨.pipeline, true⟩)

namespace EngineSession

variable {options : SessionOptions} {session : EngineSession}

/-- What no task changes in a destroyed session. -/
def kept (session : EngineSession) : (Nat × Nat × Nat) × Bool := (made session, session.destroyed)

@[simp] theorem kept_setFacts (published : List (String × String)) :
    (session.setFacts published).kept = session.kept := rfl

@[simp] theorem kept_tryTransition (next : EngineState) :
    (session.tryTransition next).kept = session.kept := by
  obtain ⟨history, facts, hmoved⟩ := tryTransition_eq session next
  rw [hmoved]
  rfl

@[simp] theorem kept_stopScheduler : session.stopScheduler.kept = session.kept := by
  unfold stopScheduler
  cases session.scheduler <;> rfl

@[simp] theorem kept_failStart (recovering : Bool) (error : EngineError) :
    (session.failStart recovering error).kept = session.kept := by
  obtain ⟨history, facts, rejected, hfail⟩ := failStart_eq session recovering error
  rw [hfail]
  rfl

theorem kept_start (recovering : Bool) (admission : Except EngineError Unit) :
    (session.start recovering admission).kept = session.kept := by
  unfold EngineSession.start
  split
  · rfl
  · cases admission with
    | error error =>
      show (EngineSession.failStart _ _ _).kept = _
      rw [kept_failStart]
      rfl
    | ok _ => rfl

theorem kept_handleDeviceLoss (reason : String) :
    (session.handleDeviceLoss reason).kept = session.kept := by
  unfold EngineSession.handleDeviceLoss
  rw [kept_stopScheduler, kept_tryTransition, kept_setFacts]

theorem kept_awaitScene (hscene : options.waitForSceneBlob = true) (recovering : Bool) :
    (awaitScene options session recovering).kept = session.kept := by
  unfold EngineSession.awaitScene
  rw [if_pos hscene]
  rfl

theorem kept_continueStart {completion : Completion} {session' : EngineSession}
    (hshort : session.reachesLoop options completion = false)
    (hstep : session.continueStart options completion = some session') :
    session'.kept = session.kept := by
  obtain ⟨⟨await, recovering⟩, hpending, hrun⟩ := Option.bind_eq_some_iff.mp hstep
  cases await with
  | pipeline =>
    cases completion with
    | pipelineRejected error =>
      cases hrun
      exact kept_failStart _ _
    | pipelineLoaded cacheKey renderer samples =>
      cases renderer with
      | error error =>
        cases hrun
        exact kept_failStart _ _
      | ok _ =>
        simp only at hrun
        split at hrun
        · next hsamples =>
          cases samples with
          | error message =>
            cases hrun
            refine kept_awaitScene ?_ _
            simpa [reachesLoop, hpending, Except.isOk, Except.toBool] using hshort
          | ok _ =>
            cases hrun
            rfl
        · next hsamples =>
          cases hrun
          refine kept_awaitScene ?_ _
          simpa [reachesLoop, hpending, Except.isOk, Except.toBool, hsamples] using hshort
    | pixelsMapped center => cases hrun
    | sceneReady mounted => cases hrun
  | pixels =>
    cases completion with
    | pixelsMapped center =>
      have hscene : options.waitForSceneBlob = true := by
        simpa [reachesLoop, hpending] using hshort
      cases center with
      | ok center =>
        cases hrun
        exact kept_awaitScene hscene _
      | error message =>
        cases hrun
        exact kept_awaitScene hscene _
    | pipelineRejected error => cases hrun
    | pipelineLoaded cacheKey renderer samples => cases hrun
    | sceneReady mounted => cases hrun
  | scene =>
    cases completion with
    | sceneReady mounted => simp [reachesLoop, hpending] at hshort
    | pipelineRejected error => cases hrun
    | pipelineLoaded cacheKey renderer samples => cases hrun
    | pixelsMapped center => cases hrun

/-- In a destroyed session a loss notification has no effect but that it is used up. -/
theorem deviceLost_destroyed (hdestroyed : session.destroyed = true) {device : Nat} {reason : String}
    {session' : EngineSession} (hstep : session.deviceLost device reason = some session') :
    session' = { session with lossCallbacks := session.lossCallbacks.erase device } := by
  unfold EngineSession.deviceLost at hstep
  split at hstep
  · rw [← Option.some.inj hstep]
    exact if_pos hdestroyed
  · cases hstep

theorem kept_runTask (h : session.Invariant) (hdestroyed : session.destroyed = true)
    {task : SessionTask} {session' : EngineSession} (htimed : WellTimed options session task)
    (hstep : runTask options session task = some session') : session'.kept = session.kept := by
  have hfailed := h.destroyed hdestroyed
  cases task with
  | start admission => cases hstep; exact kept_start _ _
  | completed completion =>
    refine kept_continueStart ?_ hstep
    by_contra hreaches
    exact htimed (by simpa using hreaches) hfailed
  | suspend => cases hstep; simp [EngineSession.suspend, hfailed]
  | resume => cases hstep; simp [EngineSession.resume, hfailed]
  | recover device admission => cases hstep; simp [EngineSession.recover, hfailed]
  | recoverRejected =>
    change session.recoverRejected = some session' at hstep
    unfold EngineSession.recoverRejected at hstep
    split at hstep
    · cases hstep
    · cases hstep
      show (EngineSession.tryTransition _ _).kept = _
      rw [kept_tryTransition]
      rfl
  | handleDeviceLoss reason => cases hstep; exact kept_handleDeviceLoss reason
  | lost device reason =>
    rw [deviceLost_destroyed hdestroyed hstep]
    rfl
  | destroy => cases hstep; simp [EngineSession.destroy, hdestroyed]

theorem recover_recovers (h : session.Invariant) (hstate : session.state = .deviceLost)
    (device : Nat) (admission : Except EngineError Unit) :
    (EngineState.deviceLost, EngineState.recovering) ∈
      (session.recover device admission).machine.history.drop session.machine.history.length ∧
    (admission = .ok () → (session.recover device admission).state = .recovering ∧
      (session.recover device admission).pending = some ⟨.pipeline, true⟩) := by
  obtain ⟨facts, hrecover⟩ := h.recover_eq hstate device admission
  rw [hrecover]
  cases admission with
  | ok _ => simp [EngineSession.start, EngineSession.setFacts]
  | error error =>
    simp [EngineSession.start, EngineSession.failStart, EngineSession.tryTransition,
      EngineSession.transition, EngineStateMachine.transition, EngineState.transitions,
      EngineSession.publishSessionError, EngineSession.setFacts, Except.map]

end EngineSession

open EngineSession in
theorem safeStep_of_invariant {options : SessionOptions} {session session' : EngineSession}
    {task : SessionTask} (h : session.Invariant) (htimed : WellTimed options session task)
    (hstep : runTask options session task = some session') : SafeStep session task session' := by
  have hnext := invariant_runTask h htimed hstep
  refine ⟨fun hdestroyed => ?_, ?_, ?_⟩
  · have hkept := kept_runTask h hdestroyed htimed hstep
    refine ⟨congrArg Prod.fst hkept, ?_⟩
    have hstill : session'.destroyed = true := (congrArg Prod.snd hkept).trans hdestroyed
    by_contra hscheduled
    have hready := (oneLoop_of_invariant hnext).ready hscheduled
    simp [hnext.destroyed hstill] at hready
  · rintro device reason rfl hother
    exact deviceLost_destroyed (htimed.resolve_left hother) hstep
  · rintro device admission rfl hstate
    cases hstep
    exact recover_recovers h (hstate.resolve_right htimed) device admission

/-- In a well-timed run the session is safe in every state, and through the next task. -/
theorem session_safe_while_well_timed (options : SessionOptions) (device : Nat)
    {tasks : List SessionTask} {session : EngineSession}
    (hmeet : StepsMeet (runTask options) (WellTimed options) (EngineSession.new device) tasks)
    (hrun : runSteps (runTask options) (EngineSession.new device) tasks = some session) :
    OneLoop session ∧ ∀ task session', WellTimed options session task →
      runTask options session task = some session' → SafeStep session task session' := by
  have h : session.Invariant := runSteps_preserves_of_meets
    (fun _ _ _ hs htimed hstep => invariant_runTask hs htimed hstep) hmeet
    (EngineSession.invariant_new device) hrun
  exact ⟨oneLoop_of_invariant h, fun task session' htimed hstep =>
    safeStep_of_invariant h htimed hstep⟩

namespace Scenarios

/-- A session that waits for its scene and takes no pixel samples. -/
def options : SessionOptions := ⟨false, true⟩

def loaded : SessionTask := .completed (.pipelineLoaded "key" (.ok ()) (.ok ()))

def mounted : SessionTask := .completed (.sceneReady (.ok 1))

/-- A session that runs, loses its device, recovers on another one and is destroyed. -/
def orderly : List SessionTask :=
  [.start (.ok ()), loaded, mounted, .suspend, .resume, .lost 0 "unknown", .recover 1 (.ok ()),
    loaded, mounted, .destroy]

end Scenarios

open Scenarios in
/-- The orderly session is safe, also when its second device is lost after `destroy`. -/
theorem orderly_session_safe : ∃ session,
    runSteps (runTask options) (EngineSession.new 0) orderly = some session ∧ OneLoop session ∧
      ∃ session', runTask options session (.lost 1 "destroyed") = some session' ∧
        SafeStep session (.lost 1 "destroyed") session' := by
  have hruns : (runSteps (runTask options) (EngineSession.new 0) orderly).any (fun session =>
      decide (session.destroyed = true) &&
        (runTask options session (.lost 1 "destroyed")).isSome) = true := by
    decide +kernel
  have hmeet : StepsMeet (runTask options) (WellTimed options) (EngineSession.new 0) orderly := by
    decide +kernel
  obtain ⟨session, hrun, hends⟩ := (Option.any_eq_true _ _).mp hruns
  obtain ⟨hdestroyed, hlost⟩ := Bool.and_eq_true_iff.mp hends
  obtain ⟨session', hstep⟩ := Option.isSome_iff_exists.mp hlost
  have hsafe := session_safe_while_well_timed options 0 hmeet hrun
  exact ⟨session, hrun, hsafe.1, session', hstep,
    hsafe.2 _ session' (.inr (of_decide_eq_true hdestroyed)) hstep⟩

open Scenarios in
/-- Three ways out: a `start` that ends after `destroy` schedules a loop, the loss of a replaced
    device takes the session to `device-lost`, and a second `recover` fails the session. -/
theorem late_tasks_unsafe :
    (∃ session, runSteps (runTask options) (EngineSession.new 0)
        [.start (.ok ()), loaded, .destroy, mounted] = some session ∧
      session.destroyed = true ∧ session.state = .failed ∧ session.scheduled = [0] ∧
      session.mirrorBuffer = some 0 ∧ session.lossCallbacks = [0]) ∧
    (∃ session session', runSteps (runTask options) (EngineSession.new 0)
        [.start (.ok ()), loaded, mounted, .handleDeviceLoss "unknown", .recover 1 (.ok ()), loaded,
          mounted] = some session ∧
      session.currentDevice = 1 ∧ session.state = .ready ∧
      runTask options session (.lost 0 "destroyed") = some session' ∧
      session'.state = .deviceLost ∧ session'.scheduled = []) ∧
    (∃ session session', runSteps (runTask options) (EngineSession.new 0)
        [.start (.ok ()), loaded, mounted, .handleDeviceLoss "unknown", .recover 1 (.ok ())] =
          some session ∧
      session.state = .recovering ∧ runTask options session (.recover 2 (.ok ())) = some session' ∧
      session'.sessionError = some (engineStateError .recovering .recovering) ∧
      session'.state = .failed) := by
  refine ⟨⟨_, rfl, ?_⟩, ⟨_, _, rfl, ?_, ?_, rfl, ?_⟩, ⟨_, _, rfl, ?_, rfl, ?_⟩⟩
  all_goals decide +kernel

end FaberHosts.Engine
