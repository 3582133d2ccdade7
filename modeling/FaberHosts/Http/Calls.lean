import FaberHosts.Http.Provider

/-!
# What one step of a call can do

`View` is what the indexes and phases of the provider say, and `Hold` what a call has in
hand between two locks.  `Act` lists the changes a step can make to them; every step of
`advance` is one of them.
-/

namespace FaberHosts.Http
open FaberHosts.Kernel

namespace Phase

/-- The request a connection waits to have answered. -/
def pendingId : Phase → Option String
  | .pending requestId => some requestId
  | _ => none

/-- The request a connection's phase names. -/
def requestId? : Phase → Option String
  | .idle => none
  | .pending requestId => some requestId
  | .streaming requestId _ => some requestId

/-- The open writer of a connection. -/
def writer? : Phase → Option Int
  | .streaming _ writer => some writer
  | _ => none

@[simp, grind =] theorem pendingId_idle : Phase.idle.pendingId = none := rfl
@[simp, grind =] theorem pendingId_pending (r : String) : (Phase.pending r).pendingId = some r := rfl
@[simp, grind =] theorem pendingId_streaming (r : String) (w : Int) :
    (Phase.streaming r w).pendingId = none := rfl
@[simp, grind =] theorem requestId?_idle : Phase.idle.requestId? = none := rfl
@[simp, grind =] theorem requestId?_pending (r : String) : (Phase.pending r).requestId? = some r := rfl
@[simp, grind =] theorem requestId?_streaming (r : String) (w : Int) :
    (Phase.streaming r w).requestId? = some r := rfl
@[simp, grind =] theorem writer?_idle : Phase.idle.writer? = none := rfl
@[simp, grind =] theorem writer?_pending (r : String) : (Phase.pending r).writer? = none := rfl
@[simp, grind =] theorem writer?_streaming (r : String) (w : Int) :
    (Phase.streaming r w).writer? = some w := rfl

theorem pendingId_eq_some_iff {phase : Phase} {r : String} :
    phase.pendingId = some r ↔ phase = .pending r := by
  cases phase <;> simp

theorem writer?_eq_some_iff {phase : Phase} {w : Int} :
    phase.writer? = some w ↔ ∃ r, phase = .streaming r w := by
  cases phase <;> simp

theorem isStreaming_iff {phase : Phase} {w : Int} :
    phase.isStreaming w = true ↔ phase.writer? = some w := by
  cases phase <;> simp [isStreaming]

end Phase

/-- The maps of a provider and the phases of its connections. -/
structure View where
  stored : List Nat
  phase : Nat → Phase
  listener : Nat → Int
  requests : String → Option Nat
  writers : Int → Option Nat
  nextRequest : Nat
  nextConnection : Nat
  nextWriter : Int

def Shared.view (shared : Shared) : View where
  stored := shared.connections
  phase id := (shared.heap id).phase
  listener id := (shared.heap id).listener
  requests := shared.requests
  writers := shared.writers
  nextRequest := shared.nextRequest
  nextConnection := shared.nextConnection
  nextWriter := shared.nextWriter

/-- What a call has in hand: the connections of a scan it has still to poll; a request read
    and not recorded yet, and the parked connection it came from; an index entry it took out or has not filed yet; a connection it is about
    to drop; connections it swept; and index entries it is about to remove. -/
@[ext]
structure Hold where
  polling : List Nat := []
  fresh : Option String := none
  marking : Option Nat := none
  request : Option (String × Nat) := none
  writer : Option (Int × Nat) := none
  dropping : Option Nat := none
  swept : List Nat := []
  requestIds : List String := []
  writers : List Int := []

def Pc.hold : Pc → Hold
  | .acceptPoll _ _ slots _ => { polling := slots }
  | .acceptMark id parts => { fresh := some parts.id, marking := some id }
  | .acceptIndex id parts => { request := some (parts.id, id) }
  | .admitCheck _ _ parts => { fresh := some parts.id }
  | .admitStore _ _ parts => { fresh := some parts.id }
  | .admitIndex id parts => { request := some (parts.id, id) }
  | .drop id _ => { dropping := some id }
  | .forget id _ => { swept := [id] }
  | .forgetRequest requestId writer _ => { requestIds := [requestId], writers := writer.toList }
  | .forgetWriter writer _ => { writers := [writer] }
  | .respondSlot id requestId _ => { request := some (requestId, id) }
  | .respondWrite id requestId _ => { request := some (requestId, id) }
  | .openSlot id requestId _ => { request := some (requestId, id) }
  | .openWrite id requestId _ => { request := some (requestId, id) }
  | .openIndex id writer => { writer := some (writer, id) }
  | .finishSlot id writer _ => { writer := some (writer, id) }
  | .finishWrite id writer _ => { writer := some (writer, id) }
  | .stopSlots _ slots requestIds writers => { swept := slots, requestIds, writers }
  | .stopRequests _ requestIds writers => { requestIds, writers }
  | .stopWriters _ writers => { writers }
  | _ => {}

/-- The change one step makes.  `cut` is whether it fails to write a terminator, and `late`
    whether it files an index entry of a connection that is not stored any more. -/
inductive Act (cut late : Prop) (v : View) : Hold → View → Hold → Prop
  | rest (next : Option Nat) : Act cut late v {} v { dropping := next }
  | keep (h : Hold) : Act cut late v h v h
  | scan (cs : List Nat) (hcs : ∀ c ∈ cs, c ∈ v.stored) : Act cut late v {} v { polling := cs }
  | pass (c : Nat) (cs : List Nat) : Act cut late v { polling := c :: cs } v { polling := cs }
  | fail (c : Nat) (cs : List Nat) : Act cut late v { polling := c :: cs } v {}
  | read (c : Nat) (cs : List Nat) (hidle : v.phase c = .idle) :
    Act cut late v { polling := c :: cs } { v with nextRequest := v.nextRequest + 1 }
      { fresh := some (requestId v.nextRequest), marking := some c }
  | admitted :
    Act cut late v {} { v with nextRequest := v.nextRequest + 1 }
      { fresh := some (requestId v.nextRequest) }
  | discard (r : String) : Act cut late v { fresh := some r } v {}
  | mark (r : String) (c : Nat) :
    Act cut late v { fresh := some r, marking := some c }
      { v with phase := Function.update v.phase c (.pending r) } { request := some (r, c) }
  | store (r : String) (listener : Int) :
    Act cut late v { fresh := some r }
      { v with
        stored := v.nextConnection :: v.stored
        phase := Function.update v.phase v.nextConnection (.pending r)
        listener := Function.update v.listener v.nextConnection listener
        nextConnection := v.nextConnection + 1 }
      { request := some (r, v.nextConnection) }
  | file (r : String) (c : Nat) (hstored : c ∈ v.stored ∨ late) :
    Act cut late v { request := some (r, c) }
      { v with requests := Function.update v.requests r (some c) } {}
  | take (r : String) (c : Nat) (hindex : v.requests r = some c) :
    Act cut late v {} { v with requests := Function.update v.requests r none }
      { request := some (r, c) }
  | lost (r : String) (c : Nat) (hlost : c ∉ v.stored) :
    Act cut late v { request := some (r, c) } v {}
  | takeOut (r : String) (c : Nat) :
    Act cut late v { request := some (r, c) } { v with stored := v.stored.filter (· ≠ c) }
      { request := some (r, c) }
  | answered (r : String) (c : Nat) :
    Act cut late v { request := some (r, c) }
      { v with phase := Function.update v.phase c .idle } {}
  | mismatched (r : String) (c : Nat) (hphase : v.phase c ≠ .pending r) :
    Act cut late v { request := some (r, c) } v {}
  | misfiled (r : String) (c : Nat) (hphase : v.phase c ≠ .pending r) :
    Act cut late v { request := some (r, c) }
      { v with
        nextWriter := v.nextWriter + 1
        requests := Function.update v.requests r (some c) } {}
  | opened (r : String) (c : Nat) :
    Act cut late v { request := some (r, c) }
      { v with
        nextWriter := v.nextWriter + 1
        phase := Function.update v.phase c (.streaming r v.nextWriter) }
      { writer := some (v.nextWriter, c) }
  | openFailed (r : String) (c : Nat) :
    Act cut late v { request := some (r, c) } { v with nextWriter := v.nextWriter + 1 }
      { dropping := some c }
  | indexed (w : Int) (c : Nat) (hstored : c ∈ v.stored ∨ late) :
    Act cut late v { writer := some (w, c) }
      { v with writers := Function.update v.writers w (some c) } {}
  | takeWriter (w : Int) (c : Nat) (hindex : v.writers w = some c) :
    Act cut late v {} { v with writers := Function.update v.writers w none }
      { writer := some (w, c) }
  | lostWriter (w : Int) (c : Nat) (hlost : c ∉ v.stored) :
    Act cut late v { writer := some (w, c) } v {}
  | mismatchedWriter (w : Int) (c : Nat) (hphase : (v.phase c).writer? ≠ some w) :
    Act cut late v { writer := some (w, c) } v {}
  | finished (w : Int) (c : Nat) :
    Act cut late v { writer := some (w, c) }
      { v with phase := Function.update v.phase c .idle } {}
  | finishClosed (w : Int) (c : Nat) :
    Act cut late v { writer := some (w, c) } v { dropping := some c }
  | finishFailed (w : Int) (c : Nat) (hcut : cut) :
    Act cut late v { writer := some (w, c) } v {}
  | unstored (c : Nat) (hstored : c ∈ v.stored) :
    Act cut late v { dropping := some c } { v with stored := v.stored.filter (· ≠ c) }
      { swept := [c] }
  | gone (c : Nat) (next : Option Nat) (hgone : c ∉ v.stored) :
    Act cut late v { dropping := some c } v { dropping := next }
  | visit (c : Nat) (cs : List Nat) (rs : List String) (ws : List Int) (next : Option Nat) :
    Act cut late v { swept := c :: cs, requestIds := rs, writers := ws } v
      { swept := cs
        requestIds := rs ++ (v.phase c).requestId?.toList
        writers := ws ++ (v.phase c).writer?.toList
        dropping := next }
  | forgotRequests (rs : List String) (ws : List Int) (next : Option Nat) :
    Act cut late v { requestIds := rs, writers := ws }
      { v with requests := fun r => if r ∈ rs then none else v.requests r }
      { writers := ws, dropping := next }
  | forgotWriters (ws : List Int) (next : Option Nat) :
    Act cut late v { writers := ws }
      { v with writers := fun w => if w ∈ ws then none else v.writers w }
      { dropping := next }
  | sweep (handle : Int) :
    Act cut late v {} { v with stored := v.stored.filter (v.listener · ≠ handle) }
      { swept := v.stored.filter (v.listener · = handle) }

/-! ## The steps -/

/-- The terminator of a response in chunks does not go out whole. -/
def CutsTerminator (env : Env) (shared : Shared) : Pc → Prop
  | .finishWrite id writer _ =>
    (shared.heap id).phase.isStreaming writer ∧
      (writeOn (shared.heap id) (writeAllBackpressure
        (shared.listenerIsStopped (shared.heap id).listener) lastChunk env.writes)).2 ≠ .ok ()
  | _ => False

/-- An index entry is filed for a connection that is not stored any more. -/
def FilesLate (shared : Shared) : Pc → Prop
  | .acceptIndex id _ | .admitIndex id _ | .openIndex id _ => id ∉ shared.connections
  | _ => False

instance (env : Env) (shared : Shared) (pc : Pc) : Decidable (CutsTerminator env shared pc) := by
  cases pc <;> unfold CutsTerminator <;> infer_instance

instance (shared : Shared) (pc : Pc) : Decidable (FilesLate shared pc) := by
  cases pc <;> unfold FilesLate <;> infer_instance

namespace Shared

variable {shared : Shared} {id : Nat} {connection : Connection}

theorem view_set_new :
    (shared.set id connection).view =
      { shared.view with
        phase := Function.update shared.view.phase id connection.phase
        listener := Function.update shared.view.listener id connection.listener } := by
  unfold view set
  congr 1 <;> funext other <;> by_cases h : other = id <;> simp [h]

theorem view_set (hlistener : connection.listener = (shared.heap id).listener) :
    (shared.set id connection).view =
      { shared.view with phase := Function.update shared.view.phase id connection.phase } := by
  have hself : Function.update shared.view.listener id connection.listener =
      shared.view.listener := by
    rw [hlistener]
    exact Function.update_eq_self id shared.view.listener
  rw [view_set_new, hself]

theorem view_set_of_same (hlistener : connection.listener = (shared.heap id).listener)
    (hphase : connection.phase = (shared.heap id).phase) :
    (shared.set id connection).view = shared.view := by
  have hself : Function.update shared.view.phase id connection.phase = shared.view.phase := by
    rw [hphase]
    exact Function.update_eq_self id shared.view.phase
  rw [view_set hlistener, hself]

end Shared

theorem writeOn_phase (connection : Connection) (write : List UInt8 × Except HostError Unit) :
    (writeOn connection write).1.phase = connection.phase := by
  unfold writeOn; split <;> rfl

theorem writeOn_listener (connection : Connection) (write : List UInt8 × Except HostError Unit) :
    (writeOn connection write).1.listener = connection.listener := by
  unfold writeOn; split <;> rfl

/-- A call that goes on after a drop holds at most the next connection to drop. -/
theorem resume_hold (after : After) : ∃ next, (resume after).hold = { dropping := next } := by
  unfold resume
  split
  · exact ⟨none, rfl⟩
  · exact ⟨_, rfl⟩
  · exact ⟨none, rfl⟩

variable {cut late : Prop}

theorem act_resume (v : View) (after : After) : Act cut late v {} v (resume after).hold := by
  obtain ⟨next, hnext⟩ := resume_hold after
  rw [hnext]
  exact .rest next

variable (env : Env) (shared : Shared)

theorem act_pollStep (handle : Int) (listener : ListenerState) (id : Nat)
    (slots closed : List Nat) :
    Act cut late shared.view { polling := id :: slots }
      (pollStep env shared handle listener id slots closed).1.view
      (pollStep env shared handle listener id slots closed).2.hold := by
  unfold pollStep
  by_cases hidle : (shared.heap id).phase = .idle
  · rw [if_neg (by simpa using hidle)]
    have hsame : ∀ read shut,
        (shared.set id { shared.heap id with read, shut }).view = shared.view :=
      fun read shut => Shared.view_set_of_same rfl rfl
    cases hpolled : pollRequest listener.maxBodyBytes (shared.stopped handle) false
        (requestId shared.nextRequest) env.now (shared.heap id).read
        (readsOf (shared.heap id) env) with
    | mk answer read =>
      -- only a complete request changes what the indexes and phases say
      have hpass : ∀ shut closed, Act cut late shared.view { polling := id :: slots }
          (shared.set id { shared.heap id with read, shut }).view
          (Pc.acceptPoll handle listener slots closed).hold := by
        intro shut closed
        rw [hsame]
        exact .pass id slots
      rcases answer with e | (parts | - | - | -)
      · simp only
        rw [hsame]
        exact .fail id slots
      · show Act cut late shared.view { polling := id :: slots }
          { (shared.set id { shared.heap id with read }).view with
            nextRequest := shared.nextRequest + 1 }
          { fresh := some parts.id, marking := some id }
        rw [hsame, pollRequest_ready_id hpolled]
        exact .read id slots hidle
      · simp only
        split <;> exact hpass _ _
      · simp only
        split <;> exact hpass _ _
      · exact hpass _ _
  · rw [if_pos (by simpa using hidle)]
    exact .pass id slots

theorem act_admitStep (handle : Int) (listener : ListenerState) :
    Act cut late shared.view {} (admitStep env shared handle listener).1.view
      (admitStep env shared handle listener).2.hold := by
  unfold admitStep
  cases hpolled : pollRequest listener.maxBodyBytes (shared.stopped handle) true
      (requestId shared.nextRequest) env.now (freshRead env.now) env.reads with
  | mk answer read =>
    rcases answer with e | (parts | - | - | -)
    · exact .rest none
    · show Act cut late shared.view {}
        { shared.view with nextRequest := shared.nextRequest + 1 } { fresh := some parts.id }
      rw [pollRequest_ready_id hpolled]
      exact .admitted
    · exact .rest none
    · exact .rest none
    · exact .rest none

theorem act_respondStep (id : Nat) (requestId : String) (response : OneShot) :
    Act cut late shared.view { request := some (requestId, id) }
      (respondStep env shared id requestId response).1.view
      (respondStep env shared id requestId response).2.hold := by
  unfold respondStep
  by_cases hphase : (shared.heap id).phase = .pending requestId
  · rw [if_neg (by simpa using hphase)]
    simp only
    rw [Shared.view_set (by exact writeOn_listener _ _)]
    exact .answered requestId id
  · rw [if_pos hphase]
    exact .mismatched requestId id hphase

theorem act_openStep (id : Nat) (requestId : String) (opening : Opening) :
    Act cut late shared.view { request := some (requestId, id) }
      (openStep env shared id requestId opening).1.view
      (openStep env shared id requestId opening).2.hold := by
  unfold openStep
  by_cases hphase : (shared.heap id).phase = .pending requestId
  · rw [if_neg (by simpa using hphase)]
    simp only
    split
    · rw [Shared.view_set_of_same (by exact writeOn_listener _ _) (by exact writeOn_phase _ _)]
      exact .openFailed requestId id
    · rw [Shared.view_set (by exact writeOn_listener _ _)]
      exact .opened requestId id
  · rw [if_pos hphase]
    exact .misfiled requestId id hphase

theorem act_chunkStep (id : Nat) (writer : Int) (bytes : List UInt8) :
    Act cut late shared.view {} (chunkStep env shared id writer bytes).1.view
      (chunkStep env shared id writer bytes).2.hold := by
  unfold chunkStep
  by_cases hstreaming : (shared.heap id).phase.isStreaming writer = true
  · rw [if_neg (by simpa using hstreaming)]
    simp only
    rw [Shared.view_set_of_same (writeOn_listener _ _) (writeOn_phase _ _)]
    exact .rest none
  · rw [if_pos hstreaming]
    exact .rest none

theorem act_finishStep (id : Nat) (writer : Int) (keepAlive : Bool) :
    Act (CutsTerminator env shared (.finishWrite id writer keepAlive)) late shared.view
      { writer := some (writer, id) } (finishStep env shared id writer keepAlive).1.view
      (finishStep env shared id writer keepAlive).2.hold := by
  unfold finishStep
  by_cases hstreaming : (shared.heap id).phase.isStreaming writer = true
  · rw [if_neg (by simpa using hstreaming)]
    simp only
    split
    · rename_i e hwrite
      rw [Shared.view_set_of_same (writeOn_listener _ _) (writeOn_phase _ _)]
      refine .finishFailed writer id ⟨hstreaming, ?_⟩
      rw [hwrite]
      exact nofun
    · split
      · rw [Shared.view_set (by exact writeOn_listener _ _)]
        exact .finished writer id
      · rw [Shared.view_set_of_same (by exact writeOn_listener _ _) (by exact writeOn_phase _ _)]
        exact .finishClosed writer id
  · rw [if_pos hstreaming]
    refine .mismatchedWriter writer id ?_
    rwa [Phase.isStreaming_iff] at hstreaming

theorem act_stopSlotStep (handle : Int) (id : Nat) (slots : List Nat)
    (requestIds : List String) (writers : List Int) :
    Act cut late shared.view { swept := id :: slots, requestIds, writers }
      (stopSlotStep shared handle id slots requestIds writers).1.view
      (stopSlotStep shared handle id slots requestIds writers).2.hold := by
  have hsame : (shared.set id { shared.heap id with shut := true }).view = shared.view :=
    Shared.view_set_of_same rfl rfl
  have hphase : shared.view.phase id = (shared.heap id).phase := rfl
  have hvisit : Act cut late shared.view _ _ _ := .visit id slots requestIds writers none
  have hview : (stopSlotStep shared handle id slots requestIds writers).1.view = shared.view := by
    unfold stopSlotStep
    simp only
    split <;> exact hsame
  rw [hphase] at hvisit
  rw [hview]
  unfold stopSlotStep
  cases h : (shared.heap id).phase <;> simpa [h, Pc.hold] using hvisit

theorem act_forgetStep (id : Nat) (after : After) :
    Act cut late shared.view { swept := [id] } shared.view (forgetStep shared id after).hold := by
  have hphase : shared.view.phase id = (shared.heap id).phase := rfl
  have hvisit : ∀ next, Act cut late shared.view _ _ _ := fun next => .visit id [] [] [] next
  rw [hphase] at hvisit
  unfold forgetStep
  cases h : (shared.heap id).phase with
  | idle =>
    obtain ⟨next, hnext⟩ := resume_hold after
    simpa [h, hnext] using hvisit next
  | pending requestId => simpa [h, Pc.hold] using hvisit none
  | streaming requestId writer => simpa [h, Pc.hold] using hvisit none

theorem act_advance (pc : Pc) :
    Act (CutsTerminator env shared pc) (FilesLate shared pc) shared.view pc.hold
      (advance env shared pc).1.view (advance env shared pc).2.hold := by
  cases pc with
  | listen listener => exact .rest none
  | accept handle =>
    simp only [advance]
    split <;> exact .rest none
  | acceptCheck handle listener =>
    simp only [advance]
    split
    · exact .rest none
    · split <;> exact .rest none
  | acceptScan handle listener =>
    refine .scan (shared.idleOf handle env.order) ?_
    intro c hc
    simp only [Shared.idleOf, List.mem_filter, decide_eq_true_eq] at hc
    exact hc.2.1
  | acceptPoll handle listener slots closed =>
    cases slots with
    | nil => exact act_resume _ _
    | cons id slots => exact act_pollStep env shared handle listener id slots closed
  | acceptMark id parts =>
    simp only [advance, Shared.setPhase]
    rw [Shared.view_set (by exact rfl)]
    exact .mark parts.id id
  | acceptIndex id parts =>
    exact .file parts.id id (Classical.em _)
  | acceptSocket handle listener =>
    simp only [advance]
    split <;> exact .rest none
  | admitRead handle listener => exact act_admitStep env shared handle listener
  | admitCheck handle read parts =>
    simp only [advance]
    split
    · exact .discard parts.id
    · exact .keep { fresh := some parts.id }
  | admitStore handle read parts =>
    show Act _ _ shared.view _
      { (shared.set shared.nextConnection ⟨handle, read, .pending parts.id, false, []⟩).view with
        stored := shared.nextConnection :: shared.connections
        nextConnection := shared.nextConnection + 1 } _
    rw [Shared.view_set_new]
    exact .store parts.id handle
  | admitIndex id parts => exact .file parts.id id (Classical.em _)
  | drop id after =>
    simp only [advance]
    split
    · rename_i hstored
      exact .unstored id hstored
    · rename_i hgone
      obtain ⟨next, hnext⟩ := resume_hold after
      rw [hnext]
      exact .gone id next hgone
  | forget id after => exact act_forgetStep shared id after
  | forgetRequest requestId writer after =>
    have hview : (shared.indexRequest requestId none).view =
        { shared.view with
          requests := fun r => if r ∈ [requestId] then none else shared.view.requests r } := by
      unfold Shared.indexRequest Shared.view
      congr 1
      funext r
      by_cases h : r = requestId <;> simp [h]
    simp only [advance]
    rw [hview]
    cases writer with
    | none =>
      obtain ⟨next, hnext⟩ := resume_hold after
      rw [hnext]
      exact .forgotRequests [requestId] [] next
    | some writer => exact .forgotRequests [requestId] [writer] none
  | forgetWriter writer after =>
    have hview : (shared.indexWriter writer none).view =
        { shared.view with
          writers := fun w => if w ∈ [writer] then none else shared.view.writers w } := by
      unfold Shared.indexWriter Shared.view
      congr 1
      funext w
      by_cases h : w = writer <;> simp [h]
    obtain ⟨next, hnext⟩ := resume_hold after
    simp only [advance]
    rw [hview, hnext]
    exact .forgotWriters [writer] next
  | respond requestId response =>
    simp only [advance]
    split
    · exact .rest none
    · rename_i id hindex
      exact .take requestId id hindex
  | respondSlot id requestId response =>
    simp only [advance]
    split
    · exact .takeOut requestId id
    · rename_i hlost
      exact .lost requestId id hlost
  | respondWrite id requestId response => exact act_respondStep env shared id requestId response
  | respondOpen requestId opening =>
    simp only [advance]
    split
    · exact .rest none
    · rename_i id hindex
      exact .take requestId id hindex
  | openSlot id requestId opening =>
    simp only [advance]
    split
    · exact .keep { request := some (requestId, id) }
    · rename_i hlost
      exact .lost requestId id hlost
  | openWrite id requestId opening => exact act_openStep env shared id requestId opening
  | openIndex id writer => exact .indexed writer id (Classical.em _)
  | respondChunk writer bytes =>
    simp only [advance]
    split <;> exact .rest none
  | chunkSlot id writer bytes =>
    simp only [advance]
    split <;> exact .rest none
  | chunkWrite id writer bytes => exact act_chunkStep env shared id writer bytes
  | respondFinish writer keepAlive =>
    simp only [advance]
    split
    · exact .rest none
    · rename_i id hindex
      exact .takeWriter writer id hindex
  | finishSlot id writer keepAlive =>
    simp only [advance]
    split
    · exact .keep { writer := some (writer, id) }
    · rename_i hlost
      exact .lostWriter writer id hlost
  | finishWrite id writer keepAlive => exact act_finishStep env shared id writer keepAlive
  | stop handle =>
    simp only [advance]
    split <;> exact .rest none
  | stopFlag handle => exact .rest none
  | stopSweep handle => exact .sweep handle
  | stopSlots handle slots requestIds writers =>
    cases slots with
    | nil => exact .keep { requestIds, writers }
    | cons id slots => exact act_stopSlotStep shared handle id slots requestIds writers
  | stopRequests handle requestIds writers => exact .forgotRequests requestIds writers none
  | stopWriters handle writers => exact .forgotWriters writers none
  | done reply => exact .keep {}

end FaberHosts.Http
