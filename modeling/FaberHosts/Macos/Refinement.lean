import FaberHosts.Macos.Handles
import FaberHosts.Transaction.Fake
import FaberHosts.Transaction.Replay

/-!
# The runtime backend and the fake

Whatever the devices do, the runtime backend keeps its reservations, staged and published writes
and events as the fake backend does, so that a transaction over it goes as over a fake that is
made to fail where it failed.
-/

namespace FaberHosts.Macos
open FaberHosts.Lib FaberHosts.Coordinator FaberHosts.Descriptor FaberHosts.Session
open FaberHosts.Transaction DeviceRuntimeBackend

/-! ## What the devices do not touch -/

/-- The same books: what a transaction can see of the backend. -/
structure SameBooks (b b' : DeviceRuntimeBackend) : Prop where
  reservations : b'.reservations = b.reservations
  stagedWrites : b'.stagedWrites = b.stagedWrites
  publishedWrites : b'.publishedWrites = b.publishedWrites
  stagedTotalBytes : b'.stagedTotalBytes = b.stagedTotalBytes
  publishedTotalBytes : b'.publishedTotalBytes = b.publishedTotalBytes
  publishedOnce : b'.publishedOnce = b.publishedOnce
  completedEvents : b'.completedEvents = b.completedEvents

theorem SameBooks.refl (b : DeviceRuntimeBackend) : SameBooks b b :=
  ⟨rfl, rfl, rfl, rfl, rfl, rfl, rfl⟩

theorem SameBooks.trans (b b' b'' : DeviceRuntimeBackend) (h : SameBooks b b')
    (h' : SameBooks b' b'') : SameBooks b b'' :=
  ⟨h'.reservations.trans h.reservations, h'.stagedWrites.trans h.stagedWrites,
    h'.publishedWrites.trans h.publishedWrites, h'.stagedTotalBytes.trans h.stagedTotalBytes,
    h'.publishedTotalBytes.trans h.publishedTotalBytes, h'.publishedOnce.trans h.publishedOnce,
    h'.completedEvents.trans h.completedEvents⟩

theorem moves_onRuntime {α : Type} (partition : LogicalPartitionId) (fault : FaultClass)
    (operation : PhysicalDeviceId → DeviceM α) :
    Moves SameBooks (onRuntime partition fault operation) := by
  intro b answer b' h
  unfold onRuntime at h
  split at h
  · cases h
    exact .refl b
  · split at h
    · cases h
      exact .refl b
    · split at h
      · cases h
        exact ⟨rfl, rfl, rfl, rfl, rfl, rfl, rfl⟩
      · cases h
        exact ⟨rfl, rfl, rfl, rfl, rfl, rfl, rfl⟩

theorem sameBooks_steps (env : Environment) :
    DeviceSteps env (fun _ => True) SameBooks where
  refl := .refl
  trans := .trans
  alloc := by
    intro partition lenBytes _
    refine moves_bind SameBooks.trans (moves_onRuntime _ _ _) (fun handle => ?_)
    refine moves_bind SameBooks.trans (moves_modify fun b => ?_) (fun _ => moves_pure .refl _)
    exact ⟨rfl, rfl, rfl, rfl, rfl, rfl, rfl⟩
  ensureModule := by
    intro partition
    refine moves_bind SameBooks.trans (moves_get .refl) (fun b => ?_)
    refine moves_bind SameBooks.trans (moves_lift .refl _) (fun device => ?_)
    split
    · exact moves_pure .refl _
    · refine moves_bind SameBooks.trans (moves_onRuntime _ _ _) (fun module => ?_)
      refine moves_bind SameBooks.trans (moves_modify fun b => ?_) (fun _ => moves_pure .refl _)
      exact ⟨rfl, rfl, rfl, rfl, rfl, rfl, rfl⟩
  copyIn := fun _ _ _ => moves_onRuntime _ _ _
  readback := fun _ _ => moves_onRuntime _ _ _
  launch := fun _ _ _ _ _ _ => moves_onRuntime _ _ _
  sync := fun _ => moves_onRuntime _ _ _
  transportCopy := by
    intro spec source destination b answer b' h
    unfold transportCopy at h
    split at h
    · cases h
      exact ⟨rfl, rfl, rfl, rfl, rfl, rfl, rfl⟩
    · cases h
      exact ⟨rfl, rfl, rfl, rfl, rfl, rfl, rfl⟩

/-! ## The methods -/

/-- What the runtime backend and an auto-completing fake have in common. -/
structure SameAsFake (b : DeviceRuntimeBackend) (fake : FakeExecutionBackend) : Prop where
  reservations : fake.reservations = b.reservations
  stagedWrites : fake.stagedWrites = b.stagedWrites
  publishedWrites : fake.publishedWrites = b.publishedWrites
  stagedTotalBytes : fake.stagedTotalBytes = b.stagedTotalBytes
  publishedTotalBytes : fake.publishedTotalBytes = b.publishedTotalBytes
  publishedOnce : fake.publishedOnce = b.publishedOnce
  completedEvents : fake.completedEvents = b.completedEvents
  autoComplete : fake.autoComplete = true

theorem SameAsFake.of_books {b b' : DeviceRuntimeBackend} {fake : FakeExecutionBackend}
    (h : SameAsFake b fake) (hbooks : SameBooks b b') : SameAsFake b' fake :=
  ⟨h.reservations.trans hbooks.reservations.symm, h.stagedWrites.trans hbooks.stagedWrites.symm,
    h.publishedWrites.trans hbooks.publishedWrites.symm,
    h.stagedTotalBytes.trans hbooks.stagedTotalBytes.symm,
    h.publishedTotalBytes.trans hbooks.publishedTotalBytes.symm,
    h.publishedOnce.trans hbooks.publishedOnce.symm,
    h.completedEvents.trans hbooks.completedEvents.symm, h.autoComplete⟩

section Methods

variable {env : Environment} {T : Toolchain} {b u : DeviceRuntimeBackend}
  {fake : FakeExecutionBackend}

/-- What a reservation leaves: the books as they were, with the reservation held if it is
    granted. -/
theorem reserve_answer {partition : LogicalPartitionId} {record : ReservationRecord}
    {answer : Except BackendError Unit} (h : reserve env partition record b = some (answer, u)) :
    (∃ error, answer = .error error ∧ SameBooks b u) ∨
      answer = .ok () ∧ partition ∉ b.reservations ∧ ∃ w, SameBooks b w ∧
        u = { w with reservations := w.reservations.insert partition record } := by
  have hsteps := sameBooks_steps env
  rcases bind_answer h with ⟨error, hget, -⟩ | ⟨found, w, hget, h⟩
  · cases hget
  cases hget
  split at h
  · cases h
    exact .inl ⟨_, rfl, .refl b⟩
  rename_i hfree
  rcases bind_answer h with ⟨error, hlift, rfl⟩ | ⟨device, w, hlift, h⟩
  · exact .inl ⟨error, rfl, moves_lift .refl _ _ _ _ hlift⟩
  have hw := moves_lift SameBooks.refl _ _ _ _ hlift
  rcases bind_answer h with ⟨error, houtput, rfl⟩ | ⟨_, w₁, houtput, h⟩
  · exact .inl ⟨error, rfl, .trans _ _ _ hw (hsteps.moves_allocReserved trivial _ _ _ _ houtput)⟩
  have hw₁ := SameBooks.trans _ _ _ hw (hsteps.moves_allocReserved trivial _ _ _ _ houtput)
  rcases bind_answer h with ⟨error, hstaging, rfl⟩ | ⟨_, w₂, hstaging, h⟩
  · exact .inl ⟨error, rfl, .trans _ _ _ hw₁ (hsteps.moves_allocReserved trivial _ _ _ _ hstaging)⟩
  have hw₂ := SameBooks.trans _ _ _ hw₁ (hsteps.moves_allocReserved trivial _ _ _ _ hstaging)
  rcases bind_answer h with ⟨error, hscratch, rfl⟩ | ⟨_, w₃, hscratch, h⟩
  · exact .inl ⟨error, rfl, .trans _ _ _ hw₂ (hsteps.moves_allocReserved trivial _ _ _ _ hscratch)⟩
  have hw₃ := SameBooks.trans _ _ _ hw₂ (hsteps.moves_allocReserved trivial _ _ _ _ hscratch)
  cases h
  exact .inr ⟨rfl, hfree, w₃, hw₃, rfl⟩

theorem runOperation_answer {operation : TransactionOperation}
    {answer : Except BackendError Unit} (h : runOperation env operation b = some (answer, u)) :
    (∃ error, answer = .error error ∧ SameBooks b u) ∨
      answer = .ok () ∧ ∃ w, SameBooks b w ∧
        u = { w with completedEvents := w.completedEvents ∪ operation.completedEvents } := by
  have hsteps := sameBooks_steps env
  rcases bind_answer h with ⟨error, hrun, rfl⟩ | ⟨_, w, hrun, h⟩
  · exact .inl ⟨error, rfl, hsteps.moves_runOnDevices (fun _ _ => trivial) _ _ _ hrun⟩
  · cases h
    exact .inr ⟨rfl, w, hsteps.moves_runOnDevices (fun _ _ => trivial) _ _ _ hrun, rfl⟩

/-- Freeing a partition changes the sessions, its handles and its reservation. -/
theorem freePartition_eq (env : Environment) (b : DeviceRuntimeBackend) (partition : LogicalPartitionId) :
    ∃ members, b.freePartition env partition =
      { b with
        set := members
        resources := b.resources.erase partition
        reservations := b.reservations.erase partition } := by
  unfold freePartition
  dsimp only
  split
  · exact ⟨_, rfl⟩
  · split
    · exact ⟨_, rfl⟩
    · exact ⟨_, rfl⟩

theorem SameAsFake.stagedCounts (h : SameAsFake b fake) (partition : LogicalPartitionId) :
    fake.stagedCounts partition = b.stagedCounts partition := by
  unfold FakeExecutionBackend.stagedCounts DeviceRuntimeBackend.stagedCounts
  rw [h.stagedWrites]

theorem runtimeBackend_imitated (T : Toolchain) (env : Environment) :
    Imitates (runtimeBackend T env) (fakeBackend T) SameAsFake where
  reserve := by
    intro partition record b answer u fake h hrun
    rcases reserve_answer hrun with ⟨error, rfl, hbooks⟩ | ⟨rfl, hfree, w, hbooks, rfl⟩
    · exact ⟨fun _ _ => h.of_books hbooks, nofun⟩
    · refine ⟨nofun, fun _ =>
        ⟨{ fake with reservations := fake.reservations.insert partition record }, ?_, ?_⟩⟩
      · have hfake : partition ∉ fake.reservations := h.reservations ▸ hfree
        simp [fakeBackend, FakeExecutionBackend.reserve, hfake]
      · have hw := h.of_books hbooks
        exact ⟨congrArg (·.insert partition record) hw.reservations, hw.stagedWrites,
          hw.publishedWrites, hw.stagedTotalBytes, hw.publishedTotalBytes, hw.publishedOnce,
          hw.completedEvents, hw.autoComplete⟩
  runOperation := by
    intro operation b answer u fake h hrun
    rcases runOperation_answer hrun with ⟨error, rfl, hbooks⟩ | ⟨rfl, w, hbooks, rfl⟩
    · exact ⟨fun _ _ => h.of_books hbooks, nofun⟩
    · refine ⟨nofun, fun _ => ⟨_, rfl, ?_⟩⟩
      have hw := h.of_books hbooks
      refine ⟨hw.reservations, hw.stagedWrites, hw.publishedWrites, hw.stagedTotalBytes,
        hw.publishedTotalBytes, hw.publishedOnce, ?_, hw.autoComplete⟩
      simp [hw.autoComplete, hw.completedEvents]
  eventCompleted := by
    intro event b answer u fake h hrun
    cases hrun
    refine ⟨fake, ?_, h⟩
    simp [fakeBackend, FakeExecutionBackend.eventCompleted, h.completedEvents]
  stageWrite := by
    intro write b answer u fake h hrun
    by_cases hstaged : write.outputRef ∈ b.stagedWrites
    · simp only [runtimeBackend, DeviceRuntimeBackend.stageWrite, hstaged, if_true] at hrun
      cases hrun
      refine ⟨fake, ?_, h⟩
      simp [fakeBackend, FakeExecutionBackend.stageWrite, h.stagedWrites, hstaged]
    · simp only [runtimeBackend, DeviceRuntimeBackend.stageWrite, hstaged, if_false] at hrun
      cases hrun
      refine ⟨fake.staged write, ?_, h.reservations, ?_, h.publishedWrites, ?_,
        h.publishedTotalBytes, h.publishedOnce, h.completedEvents, h.autoComplete⟩
      · simp [fakeBackend, FakeExecutionBackend.stageWrite, FakeExecutionBackend.staged,
          h.stagedWrites, hstaged]
      · exact congrArg (·.insert write.outputRef write) h.stagedWrites
      · exact congrArg (saturatingAdd · write.byteCount) h.stagedTotalBytes
  publish := by
    intro b answer u fake h hrun
    cases honce : b.publishedOnce with
    | true =>
      simp only [runtimeBackend, DeviceRuntimeBackend.publish, honce, if_true] at hrun
      cases hrun
      refine ⟨fake, ?_, h⟩
      simp [fakeBackend, FakeExecutionBackend.publish, h.publishedOnce, honce]
    | false =>
      simp only [runtimeBackend, DeviceRuntimeBackend.publish, honce, Bool.false_eq_true,
        if_false] at hrun
      cases hrun
      refine ⟨fake.published, ?_, h.reservations, h.stagedWrites, h.stagedWrites,
        h.stagedTotalBytes, h.stagedTotalBytes, rfl, h.completedEvents, h.autoComplete⟩
      simp [fakeBackend, FakeExecutionBackend.publish, FakeExecutionBackend.published,
        h.publishedOnce, honce]
  stagedBytes := fun h => h.stagedTotalBytes.symm
  publishedBytes := fun h => h.publishedTotalBytes.symm
  release := by
    intro partition b answer u fake h hrun
    cases hrun
    obtain ⟨members, hfreed⟩ := freePartition_eq env b partition
    refine ⟨_, rfl, ?_⟩
    rw [hfreed]
    exact ⟨congrArg (·.erase partition) h.reservations, h.stagedWrites, h.publishedWrites,
      h.stagedTotalBytes, h.publishedTotalBytes, h.publishedOnce, h.completedEvents,
      h.autoComplete⟩
  retire := by
    intro partition failure b answer u fake h hrun
    obtain ⟨retired, hretired, hsame⟩ := Option.map_eq_some_iff.mp hrun
    cases hsame
    obtain ⟨members, hfreed⟩ := freePartition_eq env (b.unstage partition retired) partition
    refine ⟨{ fake with
      stagedTotalBytes := saturatingSub fake.stagedTotalBytes retired
      stagedWrites := fake.stagedWrites.filter (fun _ write => write.partition ≠ partition)
      reservations := fake.reservations.erase partition
      retiredPartitions := fake.retiredPartitions.insert partition }, ?_, ?_⟩
    · simp [fakeBackend, FakeExecutionBackend.retire, h.stagedCounts, hretired]
    · rw [hfreed]
      refine ⟨congrArg (·.erase partition) h.reservations, ?_, h.publishedWrites, ?_,
        h.publishedTotalBytes, h.publishedOnce, h.completedEvents, h.autoComplete⟩
      · exact congrArg (·.filter (fun _ write => write.partition ≠ partition)) h.stagedWrites
      · exact congrArg (saturatingSub · retired) h.stagedTotalBytes

end Methods

/-! ## Runs -/

theorem sameAsFake_of_new {members : DeviceRuntimeSet}
    {partitionDevices : BTreeMap LogicalPartitionId PhysicalDeviceId} {launch : LaunchProgram}
    {budget : TransferBudget} {timeoutNanos : Nat} {backend : DeviceRuntimeBackend}
    (h : DeviceRuntimeBackend.new members partitionDevices launch budget timeoutNanos =
      .ok backend) : SameAsFake backend .new := by
  unfold DeviceRuntimeBackend.new at h
  split at h
  · cases h
  · split at h
    · cases h
    · cases h
      exact ⟨rfl, rfl, rfl, rfl, rfl, rfl, rfl, rfl⟩

/-- The same after a call, times apart: the answer, the transaction with its state and receipt,
    and what is staged and published. -/
structure SameResult (step : CallAnswer × Machine (DeviceRuntimeBackend × Faults))
    (step' : CallAnswer × Machine (FakeExecutionBackend × Faults)) : Prop where
  answer : step.1.Alike step'.1
  transaction : step.2.transaction.Alike step'.2.transaction
  staged : step'.2.backend.1.stagedWrites = step.2.backend.1.stagedWrites
  published : step'.2.backend.1.publishedWrites = step.2.backend.1.publishedWrites

/-- A run over the runtime backend goes, call by call, as the run over a fake made to fail in the
    reserve and run calls that failed. -/
theorem runtime_refines_fake {T : Toolchain} {env : Environment} {tx : ExecutionTransaction}
    {members : DeviceRuntimeSet} {partitionDevices : BTreeMap LogicalPartitionId PhysicalDeviceId}
    {launch : LaunchProgram} {budget : TransferBudget} {timeoutNanos : Nat}
    {backend : DeviceRuntimeBackend} {calls calls' : List TransactionCall}
    {steps : List (CallAnswer × Machine (DeviceRuntimeBackend × Faults))}
    (hnew : DeviceRuntimeBackend.new members partitionDevices launch budget timeoutNanos =
      .ok backend)
    (hcalls : calls.map TransactionCall.untimed = calls'.map TransactionCall.untimed)
    (hsteps : answerCalls T (noted (runtimeBackend T env)) ⟨tx, (backend, [])⟩ calls =
      some steps) :
    ∃ steps', answerCalls T (scripted (fakeBackend T))
        ⟨tx, (.new, (endOf ⟨tx, (backend, [])⟩ steps).backend.2)⟩ calls' = some steps' ∧
      List.Forall₂ SameResult steps steps' := by
  have hreplays := replays_scripted (runtimeBackend_imitated T env)
  have hsame := sameAsFake_of_new hnew
  have hrelated : ∀ script, MachineRel (UnderScript SameAsFake)
      (⟨tx, (backend, [])⟩ : Machine (DeviceRuntimeBackend × Faults)) script
      ⟨tx, (.new, script)⟩ := fun _ => ⟨rfl, hsame, rfl⟩
  obtain ⟨made, hmade, hrun⟩ := replays_answerCalls hreplays hcalls ⟨[], _, hrelated []⟩ hsteps
  obtain ⟨steps', hsteps', hall⟩ := hrun [] _ (hrelated (made ++ []))
  refine ⟨steps', ?_, hall.imp ?_⟩
  · rw [hmade, ← hsteps', List.append_nil]
    rfl
  · rintro step step' ⟨hanswer, script, htx, hbackend, -⟩
    exact ⟨hanswer, htx, hbackend.stagedWrites, hbackend.publishedWrites⟩

/-- Prepare, execute, commit and abort over a device that refuses its fifth call. -/
theorem runtime_refines_fake_refusing : ∃ tx backend steps,
    TwoDevices.transaction = some tx ∧ TwoDevices.backend = .ok backend ∧
      answerCalls .dev (noted (runtimeBackend .dev (TwoDevices.environment (TwoDevices.refusing 4))))
        ⟨tx, (backend, [])⟩ [.prepare 1, .execute 2, .commit ⟨1⟩ 3, .abort "stop" 4] =
          some steps ∧
      ∃ steps', answerCalls .dev (scripted (fakeBackend .dev))
          ⟨tx, (.new, (endOf ⟨tx, (backend, [])⟩ steps).backend.2)⟩
          [.prepare 5, .execute 6, .commit ⟨1⟩ 7, .abort "stop" 8] = some steps' ∧
        List.Forall₂ SameResult steps steps' := by
  have hruns : TwoDevices.transaction.any (fun tx => TwoDevices.backend.toOption.any (fun backend =>
      (answerCalls .dev
        (noted (runtimeBackend .dev (TwoDevices.environment (TwoDevices.refusing 4))))
        ⟨tx, (backend, [])⟩
        [.prepare 1, .execute 2, .commit ⟨1⟩ 3, .abort "stop" 4]).isSome)) = true := by
    decide +kernel
  obtain ⟨tx, htx, hruns⟩ := (Option.any_eq_true _ _).mp hruns
  obtain ⟨backend, hbackend, hruns⟩ := (Option.any_eq_true _ _).mp hruns
  obtain ⟨steps, hsteps⟩ := Option.isSome_iff_exists.mp hruns
  have hopened := toOption_eq_some_iff.mp hbackend
  have hnew := hopened
  unfold TwoDevices.backend at hnew
  refine ⟨tx, backend, steps, htx, hopened, hsteps, ?_⟩
  have hcalls : [TransactionCall.prepare 1, .execute 2, .commit ⟨1⟩ 3, .abort "stop" 4].map
      TransactionCall.untimed = [TransactionCall.prepare 5, .execute 6, .commit ⟨1⟩ 7,
        .abort "stop" 8].map TransactionCall.untimed := rfl
  exact runtime_refines_fake hnew hcalls hsteps

end FaberHosts.Macos
