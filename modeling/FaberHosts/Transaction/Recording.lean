import FaberHosts.Lib.Runs
import FaberHosts.Transaction.Rules

/-!
# Runs and their backend calls

A run is a sequence of calls of the transaction's five methods.  `recording`
wraps a backend so that every call it receives is logged with its answer, and
`Advances` is what a stretch of a run can do to the log and the transaction.
-/

namespace FaberHosts.Transaction
open FaberHosts.Lib FaberHosts.Coordinator Machine

variable {β ε α : Type} {T : Toolchain} {B : DeviceExecutionBackend β}

/-! ## Runs -/

/-- One call of a public method, with the time it takes. -/
inductive TransactionCall where
  | prepare (elapsed : Nat)
  | execute (elapsed : Nat)
  | executeOperation (operation : TransactionOperation)
  | commit (ordinal : PublicationOrdinal) (elapsed : Nat)
  | abort (reason : String) (elapsed : Nat)
  deriving DecidableEq

/-- The machine after a call, whatever the call answers. -/
def perform (T : Toolchain) (B : DeviceExecutionBackend β) (m : Machine β) :
    TransactionCall → MayPanic (Machine β)
  | .prepare elapsed => (prepare T B elapsed m).map Prod.snd
  | .execute elapsed => (execute T B elapsed m).map Prod.snd
  | .executeOperation operation => (executeOperation T B operation m).map Prod.snd
  | .commit ordinal elapsed => (commit T B ordinal elapsed m).map Prod.snd
  | .abort reason elapsed => (abort B reason elapsed m).map Prod.snd

theorem of_call {c : Call (Machine β) ε α} {P : Machine β → Prop} {m m' : Machine β}
    (hwp : c.wp True (fun _ => P) (fun _ => P) m) (h : (c m).map Prod.snd = some m') : P m' := by
  obtain ⟨answered, hanswered, rfl⟩ := Option.map_eq_some_iff.mp h
  exact Call.wp_of_some hwp hanswered

theorem perform_spec {P : Machine β → Prop} {m m' : Machine β} {call : TransactionCall}
    (hprepare : ∀ elapsed, call = .prepare elapsed →
      (prepare T B elapsed).wp True (fun _ => P) (fun _ => P) m)
    (hexecute : ∀ elapsed, call = .execute elapsed →
      (execute T B elapsed).wp True (fun _ => P) (fun _ => P) m)
    (hoperation : ∀ operation, call = .executeOperation operation →
      (executeOperation T B operation).wp True (fun _ => P) (fun _ => P) m)
    (hcommit : ∀ ordinal elapsed, call = .commit ordinal elapsed →
      (commit T B ordinal elapsed).wp True (fun _ => P) (fun _ => P) m)
    (habort : ∀ reason elapsed, call = .abort reason elapsed →
      (abort B reason elapsed).wp True (fun _ => P) (fun _ => P) m)
    (h : perform T B m call = some m') : P m' := by
  cases call with
  | prepare elapsed => exact of_call (hprepare elapsed rfl) h
  | execute elapsed => exact of_call (hexecute elapsed rfl) h
  | executeOperation operation => exact of_call (hoperation operation rfl) h
  | commit ordinal elapsed => exact of_call (hcommit ordinal elapsed rfl) h
  | abort reason elapsed => exact of_call (habort reason elapsed rfl) h

theorem performed_of_wp {c : Call (Machine β) ε α} {m : Machine β}
    (hwp : c.wp False (fun _ u => u = m) (fun _ u => u = m) m) :
    (c m).map Prod.snd = some m := by
  obtain ⟨r, u, hc⟩ := Call.wp_returns hwp
  rw [hc, Option.map_some]
  cases r with
  | ok a => rw [Call.wp_of_ok hwp hc]
  | error e => rw [Call.wp_of_error hwp hc]

/-- A committed transaction, or an aborted one with its receipt, answers every
    call without changing anything. -/
theorem perform_terminal {m : Machine β} (hstate : m.transaction.state.Terminal)
    (hreceipt : ∀ failure, m.transaction.state = .aborted failure →
      m.transaction.receipt.isSome) (call : TransactionCall) :
    perform T B m call = some m := by
  have hnew : m.transaction.state ≠ .new := fun h => by rw [h] at hstate; exact hstate
  have hprepared : m.transaction.state ≠ .prepared := fun h => by rw [h] at hstate; exact hstate
  have hexecuting : m.transaction.state ≠ .executing := fun h => by rw [h] at hstate; exact hstate
  cases call with
  | prepare elapsed => exact performed_of_wp ((wp_prepare_other hnew).mpr rfl)
  | execute elapsed => exact performed_of_wp ((wp_execute_other hprepared).mpr rfl)
  | executeOperation operation =>
    exact performed_of_wp ((wp_executeOperation_other hexecuting).mpr rfl)
  | commit ordinal elapsed => exact performed_of_wp ((wp_commit_other hexecuting).mpr rfl)
  | abort reason elapsed =>
    cases found : m.transaction.state with
    | committed => exact performed_of_wp ((wp_abort_committed found).mpr rfl)
    | aborted failure =>
      obtain ⟨receipt, hsome⟩ := Option.isSome_iff_exists.mp (hreceipt failure found)
      exact performed_of_wp ((wp_abort_aborted found hsome).mpr rfl)
    | new | prepared | executing | failed _ =>
      rw [found] at hstate
      exact hstate.elim

/-! ## The call log -/

/-- A backend call with its answer. -/
inductive BackendCall where
  | reserve (partition : LogicalPartitionId) (record : ReservationRecord)
      (answer : Except BackendError Unit)
  | runOperation (operation : TransactionOperation) (answer : Except BackendError Unit)
  | eventCompleted (event : OperationEvent) (completed : Bool)
  | stageWrite (write : StagedWrite) (answer : Except BackendError Unit)
  | publish (answer : Except BackendError Unit)
  | release (partition : LogicalPartitionId)
  | retire (partition : LogicalPartitionId) (failure : TransactionFailure)

abbrev CallLog := List BackendCall

/-- The operations dispatched to the backend, in order. -/
def dispatched (log : CallLog) : List TransactionOperation :=
  log.filterMap (fun call =>
    match call with
    | .runOperation operation _ => some operation
    | _ => none)

/-- The answers of the `publish` calls, in order. -/
def publications (log : CallLog) : List (Except BackendError Unit) :=
  log.filterMap (fun call =>
    match call with
    | .publish answer => some answer
    | _ => none)

theorem mem_publications {log : CallLog} {answer : Except BackendError Unit} :
    answer ∈ publications log ↔ .publish answer ∈ log := by
  simp only [publications, List.mem_filterMap]
  constructor
  · rintro ⟨call, hcall, hanswer⟩
    cases call with
    | publish other =>
      cases hanswer
      exact hcall
    | _ => cases hanswer
  · intro h
    exact ⟨_, h, rfl⟩

/-- The `run_operation` and `stage_write` calls that answered `Err`. -/
def failures (log : CallLog) : CallLog :=
  log.filter (fun call =>
    match call with
    | .runOperation _ (.error _) => true
    | .stageWrite _ (.error _) => true
    | _ => false)

@[simp] theorem dispatched_append (first rest : CallLog) :
    dispatched (first ++ rest) = dispatched first ++ dispatched rest := by
  simp [dispatched]

@[simp] theorem publications_append (first rest : CallLog) :
    publications (first ++ rest) = publications first ++ publications rest := by
  simp [publications]

@[simp] theorem failures_append (first rest : CallLog) :
    failures (first ++ rest) = failures first ++ failures rest := by
  simp [failures]

/-- Log a call of the wrapped backend with its answer. -/
def recorded (c : Call β ε α) (entry : Except ε α → BackendCall) : Call (β × CallLog) ε α :=
  fun s => (c s.1).map (fun answered => (answered.1, (answered.2, s.2 ++ [entry answered.1])))

/-- The value of an answer that is never `Err`. -/
def infallible : Except Empty α → α
  | .ok a => a

/-- A backend that behaves as `B` and logs the calls it receives. -/
def recording (B : DeviceExecutionBackend β) : DeviceExecutionBackend (β × CallLog) where
  reserve partition record := recorded (B.reserve partition record) (.reserve partition record)
  runOperation operation := recorded (B.runOperation operation) (.runOperation operation)
  eventCompleted event :=
    recorded (B.eventCompleted event) (fun answer => .eventCompleted event (infallible answer))
  stageWrite write := recorded (B.stageWrite write) (.stageWrite write)
  publish := recorded B.publish .publish
  stagedBytes s := B.stagedBytes s.1
  publishedBytes s := B.publishedBytes s.1
  release partition := recorded (B.release partition) (fun _ => .release partition)
  retire partition failure :=
    recorded (B.retire partition failure) (fun _ => .retire partition failure)

/-- The calls the backend has received. -/
def Machine.log (m : Machine (β × CallLog)) : CallLog := m.backend.2

theorem wp_recorded {c : Call β ε α} {entry : Except ε α → BackendCall}
    {Q : α → β × CallLog → Prop} {E : ε → β × CallLog → Prop} {s : β × CallLog}
    (hok : ∀ a b, Q a (b, s.2 ++ [entry (.ok a)]))
    (herr : ∀ e b, E e (b, s.2 ++ [entry (.error e)])) :
    (recorded c entry).wp True Q E s := by
  unfold Call.wp recorded
  match c s.1 with
  | none => trivial
  | some (.ok a, b) => exact hok a b
  | some (.error e, b) => exact herr e b

theorem wp_recorded_infallible {c : Call β Empty α} (entry : Except Empty α → BackendCall)
    {Q : α → β × CallLog → Prop} {E : Empty → β × CallLog → Prop} {s : β × CallLog}
    (hok : ∀ a b, Q a (b, s.2 ++ [entry (.ok a)])) : (recorded c entry).wp True Q E s :=
  wp_recorded hok (fun e => e.elim)

/-! ## Stretches of a run -/

/-- From `m` to `m'` the backend was sent the operations `ran` and no `publish`,
    the calls `failed` failed, and events were recorded only as it reported them. -/
structure Advances (m m' : Machine (β × CallLog)) (ran : List TransactionOperation)
    (failed : CallLog) : Prop where
  operations : m'.transaction.operations = m.transaction.operations
  commitBoundary : m'.transaction.commitBoundary = m.transaction.commitBoundary
  operationKeys : m'.transaction.operationKeys = m.transaction.operationKeys
  log : ∃ calls, m'.log = m.log ++ calls ∧ dispatched calls = ran ∧ publications calls = [] ∧
    failures calls = failed
  events : ∀ event ∈ m'.transaction.completedEvents,
    event ∈ m.transaction.completedEvents ∨ .eventCompleted event true ∈ m'.log

namespace Advances

variable {m m' m'' : Machine (β × CallLog)} {ran ran' : List TransactionOperation}
  {failed failed' : CallLog}

theorem refl (m : Machine (β × CallLog)) : Advances m m [] [] :=
  ⟨rfl, rfl, rfl, ⟨[], by simp, rfl, rfl, rfl⟩, fun _ h => .inl h⟩

theorem mem_log (h : Advances m m' ran failed) {call : BackendCall} (hcall : call ∈ m.log) :
    call ∈ m'.log := by
  obtain ⟨calls, hlog, -⟩ := h.log
  rw [hlog]
  exact List.mem_append_left calls hcall

theorem trans (h : Advances m m' ran failed) (h' : Advances m' m'' ran' failed') :
    Advances m m'' (ran ++ ran') (failed ++ failed') := by
  refine ⟨h'.operations.trans h.operations, h'.commitBoundary.trans h.commitBoundary,
    h'.operationKeys.trans h.operationKeys, ?_, ?_⟩
  · obtain ⟨calls, hlog, hran, hpub, hfailed⟩ := h.log
    obtain ⟨calls', hlog', hran', hpub', hfailed'⟩ := h'.log
    exact ⟨calls ++ calls', by rw [hlog', hlog, List.append_assoc], by simp [hran, hran'],
      by simp [hpub, hpub'], by simp [hfailed, hfailed']⟩
  · intro event hevent
    rcases h'.events event hevent with hold | hnew
    · exact (h.events event hold).imp id h'.mem_log
    · exact .inr hnew

theorem dispatched_eq (h : Advances m m' ran failed) :
    dispatched m'.log = dispatched m.log ++ ran := by
  obtain ⟨calls, hlog, hran, -⟩ := h.log
  rw [hlog, dispatched_append, hran]

theorem publications_eq (h : Advances m m' ran failed) :
    publications m'.log = publications m.log := by
  obtain ⟨calls, hlog, -, hpub, -⟩ := h.log
  rw [hlog, publications_append, hpub, List.append_nil]

theorem failures_eq (h : Advances m m' ran failed) :
    failures m'.log = failures m.log ++ failed := by
  obtain ⟨calls, hlog, -, -, hfailed⟩ := h.log
  rw [hlog, failures_append, hfailed]

theorem of_entry {tx : ExecutionTransaction} {b : β} {entry : BackendCall}
    (hoperations : tx.operations = m.transaction.operations)
    (hboundary : tx.commitBoundary = m.transaction.commitBoundary)
    (hkeys : tx.operationKeys = m.transaction.operationKeys)
    (hdispatched : dispatched [entry] = ran) (hpublications : publications [entry] = [])
    (hfailures : failures [entry] = failed)
    (hevents : ∀ event ∈ tx.completedEvents,
      event ∈ m.transaction.completedEvents ∨ .eventCompleted event true = entry) :
    Advances m ⟨tx, (b, m.log ++ [entry])⟩ ran failed := by
  refine ⟨hoperations, hboundary, hkeys,
    ⟨[entry], rfl, hdispatched, hpublications, hfailures⟩, ?_⟩
  intro event hevent
  rcases hevents event hevent with hold | hnew
  · exact .inl hold
  · exact .inr (by simp [Machine.log, hnew])

theorem of_call {b : β} {entry : BackendCall} (hdispatched : dispatched [entry] = [])
    (hpublications : publications [entry] = []) (hfailures : failures [entry] = []) :
    Advances m ⟨m.transaction, (b, m.log ++ [entry])⟩ [] [] :=
  of_entry rfl rfl rfl hdispatched hpublications hfailures (fun _ h => .inl h)

end Advances

/-! ## Loops over a recorded backend -/

section Loops

variable {m : Machine (β × CallLog)}

/-- A loop of calls that leave the transaction alone and neither dispatch nor
    publish. -/
theorem forEach_quiet {γ : Type} {body : γ → Call (Machine (β × CallLog)) ε Unit} (l : List γ)
    {E : ε → Machine (β × CallLog) → Prop}
    (hbody : ∀ a t, Advances m t [] [] → t.transaction = m.transaction → (body a).wp True
      (fun _ u => Advances t u [] [] ∧ u.transaction = t.transaction) E t) :
    (Call.forEach l body).wp True
      (fun _ u => Advances m u [] [] ∧ u.transaction = m.transaction) E m := by
  refine Call.wp_forEach (fun _ t => Advances m t [] [] ∧ t.transaction = m.transaction) ?_
    ⟨.refl m, rfl⟩
  rintro done a rest t hl ⟨hadv, htx⟩
  refine Call.wp_mono (hbody a t hadv htx) ?_ (fun _ _ h => h)
  rintro _ u ⟨hu, hutx⟩
  exact ⟨hadv.trans hu, hutx.trans htx⟩

theorem holdReservations_recorded (entries : List (LogicalPartitionId × ReservationRecord)) :
    (Call.forEach entries (holdReservation (recording B))).wp True
      (fun _ u => Advances m u [] [] ∧ u.transaction = m.transaction)
      (fun _ u => Advances m u [] [] ∧ u.transaction = m.transaction) m := by
  apply forEach_quiet
  intro entry t hadv htx
  rw [wp_holdReservation]
  refine wp_recorded ?_ ?_
  · exact fun _ b => ⟨.of_call rfl rfl rfl, rfl⟩
  · exact fun _ b => ⟨hadv.trans (.of_call rfl rfl rfl), htx⟩

theorem releaseAll_recorded (partitions : BTreeSet LogicalPartitionId) :
    (releaseAll (recording B) partitions : Call _ ε Unit).wp True
      (fun _ u => Advances m u [] [] ∧ u.transaction = m.transaction) (fun _ _ => False) m := by
  apply forEach_quiet
  intro partition t _ _
  rw [wp_useBackend]
  apply wp_recorded_infallible (fun _ => .release partition)
  exact fun _ b => ⟨.of_call rfl rfl rfl, rfl⟩

theorem retireAll_recorded (partitions : List LogicalPartitionId) (failure : TransactionFailure) :
    (Call.forEach partitions (fun partition =>
      useBackend ((recording B).retire partition failure)) : Call _ ε Unit).wp True
      (fun _ u => Advances m u [] [] ∧ u.transaction = m.transaction) (fun _ _ => False) m := by
  apply forEach_quiet
  intro partition t _ _
  rw [wp_useBackend]
  apply wp_recorded_infallible (fun _ => .retire partition failure)
  exact fun _ b => ⟨.of_call rfl rfl rfl, rfl⟩

theorem joinEvents_recorded (events : List OperationEvent) :
    (Call.forEach events (joinEvent (recording B)) : Call _ ε Unit).wp True
      (fun _ u => Advances m u [] [] ∧ u.transaction.state = m.transaction.state ∧
        u.transaction.executedOperations = m.transaction.executedOperations)
      (fun _ _ => False) m := by
  refine Call.wp_forEach (fun _ t => Advances m t [] [] ∧
    t.transaction.state = m.transaction.state ∧
    t.transaction.executedOperations = m.transaction.executedOperations) ?_ ⟨.refl m, rfl, rfl⟩
  rintro done event rest t - ⟨hadv, hstate, hexecuted⟩
  rw [wp_joinEvent]
  apply wp_recorded_infallible (fun answer => .eventCompleted event (infallible answer))
  intro completed b
  refine ⟨hadv.trans (.of_entry rfl rfl rfl rfl rfl rfl ?_), hstate, hexecuted⟩
  intro other hother
  cases completed with
  | false => exact .inl hother
  | true =>
    rcases (mem_insert_iff _ _ _).mp hother with rfl | hold
    · exact .inr rfl
    · exact .inl hold

/-- A stretch that ends in `Failed`, without the operation being recorded. -/
structure Fails (m m' : Machine (β × CallLog)) (ran : List TransactionOperation) : Prop where
  advances : ∃ failed, Advances m m' ran failed
  failed : ∃ failure, m'.transaction.state = .failed failure
  executed : m'.transaction.executedOperations = m.transaction.executedOperations

theorem runOrFail_recorded {c : Call β BackendError Unit}
    (entry : Except BackendError Unit → BackendCall) {ran : List TransactionOperation}
    (hstate : m.transaction.state = .executing) (hdispatched : ∀ r, dispatched [entry r] = ran)
    (hpublications : ∀ r, publications [entry r] = [])
    (hfailures : failures [entry (.ok ())] = []) :
    (runOrFail (recorded c entry)).wp True
      (fun _ u => Advances m u ran [] ∧ u.transaction = m.transaction ∧
        entry (.ok ()) ∈ u.log)
      (fun _ u => Fails m u ran) m := by
  rw [wp_runOrFail]
  refine wp_recorded ?_ ?_
  · intro _ b
    exact ⟨.of_entry rfl rfl rfl (hdispatched _) (hpublications _) hfailures
      (fun _ h => .inl h), rfl, by simp [Machine.log]⟩
  · intro error b
    rw [ExecutionTransaction.fail_of_executing hstate]
    exact ⟨⟨_, .of_entry rfl rfl rfl (hdispatched _) (hpublications _) rfl
      (fun _ h => .inl h)⟩, ⟨_, rfl⟩, rfl⟩

theorem stageWrites_recorded (writes : List StagedWrite)
    (hstate : m.transaction.state = .executing) :
    (Call.forEach writes (stageDeclared (recording B))).wp True
      (fun _ u => Advances m u [] [] ∧ u.transaction.state = .executing ∧
        u.transaction.executedOperations = m.transaction.executedOperations ∧
        ∀ write ∈ writes, .stageWrite write (.ok ()) ∈ u.log)
      (fun _ u => Fails m u []) m := by
  refine Call.wp_forEach (fun done t => Advances m t [] [] ∧ t.transaction.state = .executing ∧
    t.transaction.executedOperations = m.transaction.executedOperations ∧
    ∀ write ∈ done, .stageWrite write (.ok ()) ∈ t.log) ?_ ⟨.refl m, hstate, rfl, by simp⟩
  rintro done write rest t - ⟨hadv, hexec, hrecorded, hstaged⟩
  rw [stageDeclared, Call.wp_bind]
  refine Call.wp_mono (runOrFail_recorded (.stageWrite write) hexec (fun _ => rfl)
    (fun _ => rfl) rfl) ?_ ?_
  · rintro _ u ⟨hu, htx, hmem⟩
    refine ⟨hadv.trans ⟨hu.operations, hu.commitBoundary, hu.operationKeys, hu.log, hu.events⟩,
      ?_, ?_, ?_⟩
    · rw [← hexec, ← htx]
      rfl
    · rw [← hrecorded, ← htx]
      rfl
    · intro other hother
      rcases List.mem_append.mp hother with hdone | hnew
      · exact hu.mem_log (hstaged other hdone)
      · rw [List.mem_singleton.mp hnew]
        exact hmem
  · intro error u hu
    obtain ⟨failed, hfailed⟩ := hu.advances
    exact ⟨⟨_, hadv.trans hfailed⟩, hu.failed, hu.executed.trans hrecorded⟩

/-- The operation was dispatched and all its writes were staged. -/
def Ran (operation : TransactionOperation) (log : CallLog) : Prop :=
  .runOperation operation (.ok ()) ∈ log ∧
    ∀ write ∈ operation.stagedWrites, .stageWrite write (.ok ()) ∈ log

theorem Advances.ran {m' : Machine (β × CallLog)} {ran : List TransactionOperation}
    {failed : CallLog} (h : Advances m m' ran failed) {operation : TransactionOperation} (hran : Ran operation m.log) :
    Ran operation m'.log :=
  ⟨h.mem_log hran.1, fun write hwrite => h.mem_log (hran.2 write hwrite)⟩

/-- Dispatching sends the operation to the backend once; it succeeds with all its
    writes staged or fails the transaction. -/
theorem dispatchOperation_recorded {operation : TransactionOperation}
    (hstate : m.transaction.state = .executing) :
    (dispatchOperation T (recording B) operation).wp True
      (fun _ u => Advances m u [operation] [] ∧ u.transaction.state = .executing ∧
        (∃ byteCount, u.transaction.executedOperations =
          m.transaction.executedOperations ++ [⟨operation, byteCount⟩]) ∧ Ran operation u.log)
      (fun _ u => Fails m u [operation]) m := by
  rw [wp_dispatchOperation]
  refine Call.wp_mono (runOrFail_recorded (.runOperation operation) hstate
    (fun _ => rfl) (fun _ => rfl) rfl) ?_ (fun _ _ h => h)
  rintro _ t ⟨hran, htx, hmem⟩
  refine Call.wp_mono (stageWrites_recorded operation.stagedWrites (by rw [htx, hstate])) ?_ ?_
  · rintro _ u ⟨hstaged, hexec, hrecorded, hwrites⟩
    refine ⟨fun _ => trivial, ?_⟩
    intro byteCount _
    refine Call.wp_mono (joinEvents_recorded operation.completedEvents.toList) ?_
      (fun _ _ h => h.elim)
    rintro _ v ⟨hjoined, hvstate, hvexecuted⟩
    have hall : Advances m v [operation] [] := (hran.trans hstaged).trans
      ⟨hjoined.operations, hjoined.commitBoundary, hjoined.operationKeys, hjoined.log,
        hjoined.events⟩
    refine ⟨hall, hvstate.trans hexec, ⟨byteCount, ?_⟩, ?_, ?_⟩
    · rw [hvexecuted, ← htx, ← hrecorded]
      rfl
    · exact hjoined.mem_log (hstaged.mem_log hmem)
    · exact fun write hwrite => hjoined.mem_log (hwrites write hwrite)
  · intro error u hfails
    obtain ⟨failed, hfailed⟩ := hfails.advances
    exact ⟨⟨_, hran.trans hfailed⟩, hfails.failed, by rw [hfails.executed, htx]⟩

end Loops

end FaberHosts.Transaction
