import FaberHosts.Http.System

/-!
# After a stop

`stop` removes the listener, raises its flag, and then sweeps its connections and their
index entries.  Once it and the calls beside it have returned, nothing of the listener is
left, and no later call reaches one of its connections, provided that no call stored a
connection or filed an index entry behind the sweep.
-/

namespace FaberHosts.Http
open FaberHosts.Lib FaberHosts.Kernel

/-! ## What a call refers to -/

/-- The connections a call still works on once a drop is done. -/
def After.mentions : After → List Nat
  | .scan _ _ closed => closed
  | .reply (.ok (.request _ c)) => [c]
  | .reply _ => []

def After.handle? : After → Option Int
  | .scan handle _ _ => some handle
  | .reply _ => none

/-- The connections a call refers to. -/
def Pc.mentions : Pc → List Nat
  | .acceptPoll _ _ slots closed => slots ++ closed
  | .acceptMark c _ => [c]
  | .acceptIndex c _ => [c]
  | .admitIndex c _ => [c]
  | .drop c after => c :: after.mentions
  | .forget c after => c :: after.mentions
  | .forgetRequest _ _ after => after.mentions
  | .forgetWriter _ after => after.mentions
  | .respondSlot c _ _ => [c]
  | .respondWrite c _ _ => [c]
  | .openSlot c _ _ => [c]
  | .openWrite c _ _ => [c]
  | .openIndex c _ => [c]
  | .chunkSlot c _ _ => [c]
  | .chunkWrite c _ _ => [c]
  | .finishSlot c _ _ => [c]
  | .finishWrite c _ _ => [c]
  | .stopSlots _ slots _ _ => slots
  | .done (.ok (.request _ c)) => [c]
  | _ => []

/-- The listener a call accepts from, once it has found it. -/
def Pc.handle? : Pc → Option Int
  | .acceptCheck handle _ => some handle
  | .acceptScan handle _ => some handle
  | .acceptPoll handle _ _ _ => some handle
  | .acceptSocket handle _ => some handle
  | .admitRead handle _ => some handle
  | .admitCheck handle _ _ => some handle
  | .admitStore handle _ _ => some handle
  | .drop _ after => after.handle?
  | .forget _ after => after.handle?
  | .forgetRequest _ _ after => after.handle?
  | .forgetWriter _ after => after.handle?
  | _ => none

/-- Nothing of the listener is left in the maps, and its handle will not be given out. -/
structure Silent (handle : Int) (shared : Shared) : Prop where
  listener : shared.listeners handle = none
  below : handle < shared.nextListener
  stored : ∀ c ∈ shared.connections, (shared.heap c).listener ≠ handle
  requests : ∀ r c, shared.requests r = some c → (shared.heap c).listener ≠ handle
  writers : ∀ w c, shared.writers w = some c → (shared.heap c).listener ≠ handle

/-- The call refers neither to the listener nor to one of its connections. -/
structure Elsewhere (handle : Int) (shared : Shared) (pc : Pc) : Prop where
  mentions : ∀ c ∈ pc.mentions, (shared.heap c).listener ≠ handle
  handle : pc.handle? ≠ some handle

/-- A step that keeps away from the listener: it leaves its connections as they are, and
    brings nothing of it back. -/
structure KeepsAway (handle : Int) (shared after : Shared) (pc : Pc) : Prop where
  silent : Silent handle after
  elsewhere : Elsewhere handle after pc
  apart : ∀ c, (shared.heap c).listener ≠ handle → (after.heap c).listener ≠ handle
  same : ∀ c < shared.nextConnection, (shared.heap c).listener = handle →
    after.heap c = shared.heap c
  grows : shared.nextConnection ≤ after.nextConnection

variable {handle : Int} {shared : Shared} {pc : Pc} {env : Env}

theorem elsewhere_resume {after : After}
    (hmentions : ∀ c ∈ after.mentions, (shared.heap c).listener ≠ handle)
    (hhandle : after.handle? ≠ some handle) : Elsewhere handle shared (resume after) := by
  unfold resume
  split
  · exact ⟨by simp [Pc.mentions], hhandle⟩
  · exact ⟨hmentions, hhandle⟩
  · rename_i reply
    refine ⟨?_, by simp [Pc.handle?]⟩
    intro c hc
    apply hmentions
    cases reply with
    | error e => simp [Pc.mentions] at hc
    | ok answer => cases answer <;> simp_all [Pc.mentions, After.mentions]

theorem Silent.keepsAway (h : Silent handle shared) {after : Shared} {pc : Pc}
    (hlistener : after.listeners handle = none)
    (hbelow : shared.nextListener ≤ after.nextListener)
    (hheap : ∀ c, after.heap c = shared.heap c ∨ (after.heap c).listener ≠ handle ∧
      ((shared.heap c).listener ≠ handle ∨ shared.nextConnection ≤ c))
    (hstored : ∀ c ∈ after.connections, c ∈ shared.connections ∨ (after.heap c).listener ≠ handle)
    (hrequests : ∀ r c, after.requests r = some c →
      shared.requests r = some c ∨ (shared.heap c).listener ≠ handle)
    (hwriters : ∀ w c, after.writers w = some c →
      shared.writers w = some c ∨ (shared.heap c).listener ≠ handle)
    (hgrows : shared.nextConnection ≤ after.nextConnection)
    (hpc : Elsewhere handle after pc) : KeepsAway handle shared after pc := by
  have hapart : ∀ c, (shared.heap c).listener ≠ handle → (after.heap c).listener ≠ handle := by
    intro c hc
    rcases hheap c with hsame | hnew
    · rwa [hsame]
    · exact hnew.1
  refine ⟨⟨hlistener, lt_of_lt_of_le h.below hbelow, ?_, ?_, ?_⟩, hpc, hapart, ?_, hgrows⟩
  · intro c hc
    rcases hstored c hc with hold | hnew
    · exact hapart c (h.stored c hold)
    · exact hnew
  · intro r c hr
    rcases hrequests r c hr with hold | hnew
    · exact hapart c (h.requests r c hold)
    · exact hapart c hnew
  · intro w c hw
    rcases hwriters w c hw with hold | hnew
    · exact hapart c (h.writers w c hold)
    · exact hapart c hnew
  · intro c hc hlistener
    rcases hheap c with hsame | hnew
    · exact hsame
    · rcases hnew.2 with hother | hborn
      · exact absurd hlistener hother
      · omega

theorem Silent.still (h : Silent handle shared) {pc : Pc} (hpc : Elsewhere handle shared pc) :
    KeepsAway handle shared shared pc :=
  ⟨h, hpc, fun _ => id, fun _ _ _ => rfl, le_rfl⟩

theorem Silent.maps (h : Silent handle shared) {after : Shared} {pc : Pc}
    (hlistener : after.listeners = shared.listeners)
    (hbelow : after.nextListener = shared.nextListener)
    (hheap : after.heap = shared.heap) (hgrows : after.nextConnection = shared.nextConnection)
    (hstored : ∀ c ∈ after.connections, c ∈ shared.connections)
    (hrequests : ∀ r c, after.requests r = some c →
      shared.requests r = some c ∨ (shared.heap c).listener ≠ handle)
    (hwriters : ∀ w c, after.writers w = some c →
      shared.writers w = some c ∨ (shared.heap c).listener ≠ handle)
    (hpc : Elsewhere handle shared pc) : KeepsAway handle shared after pc := by
  refine h.keepsAway (hlistener ▸ h.listener) hbelow.ge (fun c => Or.inl (by rw [hheap]))
    (fun c hc => Or.inl (hstored c hc)) hrequests hwriters hgrows.ge ?_
  exact ⟨by rw [hheap]; exact hpc.mentions, hpc.handle⟩

theorem Silent.set (h : Silent handle shared) {c : Nat} {connection : Connection} {pc : Pc}
    {after : Shared} (hlistener : after.listeners = shared.listeners)
    (hbelow : after.nextListener = shared.nextListener)
    (hheap : after.heap = (shared.set c connection).heap)
    (hgrows : after.nextConnection = shared.nextConnection)
    (hstored : after.connections = shared.connections)
    (hrequests : after.requests = shared.requests) (hwriters : after.writers = shared.writers)
    (hc : (shared.heap c).listener ≠ handle)
    (hsame : connection.listener = (shared.heap c).listener)
    (hpc : Elsewhere handle shared pc) : KeepsAway handle shared after pc := by
  have hkept : ∀ other, (after.heap other).listener = (shared.heap other).listener := by
    intro other
    rw [hheap]
    by_cases heq : other = c
    · subst heq
      simpa [Shared.set] using hsame
    · simp [Shared.set, heq]
  refine h.keepsAway (hlistener ▸ h.listener) hbelow.ge ?_ (fun c hc => Or.inl (hstored ▸ hc))
    (fun r c hr => Or.inl (hrequests ▸ hr)) (fun w c hw => Or.inl (hwriters ▸ hw)) hgrows.ge ?_
  · intro other
    by_cases heq : other = c
    · subst heq
      exact Or.inr ⟨by rwa [hkept], Or.inl hc⟩
    · exact Or.inl (by simp [hheap, Shared.set, heq])
  · refine ⟨?_, hpc.handle⟩
    intro other hother
    rw [hkept]
    exact hpc.mentions other hother

theorem requests_indexRequest {r r' : String} {entry : Option Nat} {c : Nat}
    (h : (shared.indexRequest r entry).requests r' = some c) :
    shared.requests r' = some c ∨ entry = some c := by
  by_cases heq : r' = r
  · subst heq
    exact Or.inr (by simpa [Shared.indexRequest] using h)
  · exact Or.inl (by simpa [Shared.indexRequest, heq] using h)

theorem writers_indexWriter {w w' : Int} {entry : Option Nat} {c : Nat}
    (h : (shared.indexWriter w entry).writers w' = some c) :
    shared.writers w' = some c ∨ entry = some c := by
  by_cases heq : w' = w
  · subst heq
    exact Or.inr (by simpa [Shared.indexWriter] using h)
  · exact Or.inl (by simpa [Shared.indexWriter, heq] using h)

/-- Change the requests index: a new entry leads to a connection of another listener. -/
theorem Silent.indexRequest (h : Silent handle shared) {r : String} {entry : Option Nat} {pc : Pc}
    (hentry : ∀ c, entry = some c → (shared.heap c).listener ≠ handle)
    (hpc : Elsewhere handle shared pc) :
    KeepsAway handle shared (shared.indexRequest r entry) pc := by
  refine h.maps rfl rfl rfl rfl (fun _ => id) ?_ (fun _ _ => Or.inl) hpc
  intro r' c hr'
  exact (requests_indexRequest hr').imp_right (hentry c)

theorem Silent.indexWriter (h : Silent handle shared) {w : Int} {entry : Option Nat} {pc : Pc}
    (hentry : ∀ c, entry = some c → (shared.heap c).listener ≠ handle)
    (hpc : Elsewhere handle shared pc) :
    KeepsAway handle shared (shared.indexWriter w entry) pc := by
  refine h.maps rfl rfl rfl rfl (fun _ => id) (fun _ _ => Or.inl) ?_ hpc
  intro w' c hw'
  exact (writers_indexWriter hw').imp_right (hentry c)

theorem Silent.sweep (h : Silent handle shared) {kept : List Nat} {pc : Pc}
    (hkept : ∀ c ∈ kept, c ∈ shared.connections) (hpc : Elsewhere handle shared pc) :
    KeepsAway handle shared { shared with connections := kept } pc :=
  h.maps rfl rfl rfl rfl hkept (fun _ _ => Or.inl) (fun _ _ => Or.inl) hpc

/-! ## The steps of the other calls -/

theorem elsewhere_done {reply : Reply} (h : ∀ parts c, reply ≠ .ok (.request parts c)) :
    Elsewhere handle shared (.done reply) := by
  refine ⟨?_, by simp [Pc.handle?]⟩
  rcases reply with e | (⟨parts, c⟩ | w | l | -)
  · simp [Pc.mentions]
  · exact absurd rfl (h parts c)
  · simp [Pc.mentions]
  · simp [Pc.mentions]
  · simp [Pc.mentions]

theorem Silent.pollStep (h : Silent handle shared) {other : Int} {listener : ListenerState}
    {c : Nat} {slots closed : List Nat} (hother : other ≠ handle)
    (hslots : ∀ id ∈ (c :: slots) ++ closed, (shared.heap id).listener ≠ handle) :
    KeepsAway handle shared (pollStep env shared other listener c slots closed).1
      (pollStep env shared other listener c slots closed).2 := by
  have hc := hslots c (by simp)
  have hpass : ∀ more, (∀ id ∈ more, id ∈ c :: slots ++ closed) →
      Elsewhere handle shared (.acceptPoll other listener slots more) := by
    intro more hmore
    refine ⟨?_, by simpa [Pc.handle?] using hother⟩
    intro id hid
    rcases List.mem_append.mp hid with hid | hid
    · exact hslots id (by simp [hid])
    · exact hslots id (hmore id hid)
  unfold Http.pollStep
  simp only
  split
  · exact h.still (hpass closed (by simp +contextual))
  · split
    · exact h.set rfl rfl rfl rfl rfl rfl rfl hc rfl (elsewhere_done (by simp))
    · refine h.set rfl rfl rfl rfl rfl rfl rfl hc rfl ⟨?_, by simp [Pc.handle?]⟩
      simpa [Pc.mentions] using hc
    · exact h.set rfl rfl rfl rfl rfl rfl rfl hc rfl (hpass closed (by simp +contextual))
    · split
      · exact h.set rfl rfl rfl rfl rfl rfl rfl hc rfl (hpass _ (by grind))
      · split
        · exact h.set rfl rfl rfl rfl rfl rfl rfl hc rfl (hpass _ (by grind))
        · exact h.set rfl rfl rfl rfl rfl rfl rfl hc rfl (hpass _ (by simp +contextual))

theorem Silent.admitStep (h : Silent handle shared) {other : Int} {listener : ListenerState}
    (hother : other ≠ handle) :
    KeepsAway handle shared (admitStep env shared other listener).1
      (admitStep env shared other listener).2 := by
  have hpc : ∀ pc : Pc, pc.mentions = [] → pc.handle? = some other →
      Elsewhere handle shared pc := by
    intro pc hmentions hhandle
    exact ⟨by simp [hmentions], by simpa [hhandle] using hother⟩
  unfold Http.admitStep
  simp only
  split
  · exact h.still (elsewhere_done (by simp))
  · exact h.maps rfl rfl rfl rfl (fun _ => id) (fun _ _ => Or.inl) (fun _ _ => Or.inl)
      (hpc _ rfl rfl)
  · exact h.still (elsewhere_done (by simp))
  · exact h.still (hpc _ rfl rfl)

/-- A call works on a connection of another listener and is done, or goes on with it. -/
theorem Silent.respondStep (h : Silent handle shared) {c : Nat} {r : String} {response : OneShot}
    (hc : (shared.heap c).listener ≠ handle) :
    KeepsAway handle shared (respondStep env shared c r response).1
      (respondStep env shared c r response).2 := by
  unfold Http.respondStep
  simp only
  split
  · exact h.still (elsewhere_done (by simp))
  · refine h.set rfl rfl rfl rfl rfl rfl rfl hc (writeOn_listener _ _) (elsewhere_done ?_)
    intro parts id
    cases (writeOn (shared.heap c) _).2 <;> simp [Except.map]

theorem Silent.openStep (h : Silent handle shared) {c : Nat} {r : String} {opening : Opening}
    (hc : (shared.heap c).listener ≠ handle) :
    KeepsAway handle shared (openStep env shared c r opening).1
      (openStep env shared c r opening).2 := by
  unfold Http.openStep
  simp only
  split
  · refine h.maps rfl rfl rfl rfl (fun _ => id) ?_ (fun _ _ => Or.inl) (elsewhere_done (by simp))
    intro r' c' hr'
    refine (requests_indexRequest hr').imp_right ?_
    intro heq
    obtain rfl : c = c' := by simpa using heq
    exact hc
  · split
    · refine h.set rfl rfl rfl rfl rfl rfl rfl hc (writeOn_listener _ _) ⟨?_, by simp [Pc.handle?, After.handle?]⟩
      simpa [Pc.mentions, After.mentions] using hc
    · refine h.set rfl rfl rfl rfl rfl rfl rfl hc (writeOn_listener _ _) ⟨?_, by simp [Pc.handle?]⟩
      simpa [Pc.mentions] using hc

theorem Silent.chunkStep (h : Silent handle shared) {c : Nat} {w : Int} {bytes : List UInt8}
    (hc : (shared.heap c).listener ≠ handle) :
    KeepsAway handle shared (chunkStep env shared c w bytes).1
      (chunkStep env shared c w bytes).2 := by
  unfold Http.chunkStep
  simp only
  split
  · exact h.still (elsewhere_done (by simp))
  · refine h.set rfl rfl rfl rfl rfl rfl rfl hc (writeOn_listener _ _) (elsewhere_done ?_)
    intro parts id
    cases (writeOn (shared.heap c) _).2 <;> simp [Except.map]

theorem Silent.finishStep (h : Silent handle shared) {c : Nat} {w : Int} {keepAlive : Bool}
    (hc : (shared.heap c).listener ≠ handle) :
    KeepsAway handle shared (finishStep env shared c w keepAlive).1
      (finishStep env shared c w keepAlive).2 := by
  unfold Http.finishStep
  simp only
  split
  · exact h.still (elsewhere_done (by simp))
  · split
    · exact h.set rfl rfl rfl rfl rfl rfl rfl hc (writeOn_listener _ _) (elsewhere_done (by simp))
    · split
      · exact h.set rfl rfl rfl rfl rfl rfl rfl hc (by exact writeOn_listener _ _)
          (elsewhere_done (by simp))
      · refine h.set rfl rfl rfl rfl rfl rfl rfl hc (by exact writeOn_listener _ _)
          ⟨?_, by simp [Pc.handle?, After.handle?]⟩
        simpa [Pc.mentions, After.mentions] using hc

theorem Silent.stopSlotStep (h : Silent handle shared) {other : Int} {c : Nat} {slots : List Nat}
    {rs : List String} {ws : List Int}
    (hslots : ∀ id ∈ c :: slots, (shared.heap id).listener ≠ handle) :
    KeepsAway handle shared (stopSlotStep shared other c slots rs ws).1
      (stopSlotStep shared other c slots rs ws).2 := by
  have hc := hslots c List.mem_cons_self
  have hpc : ∀ rs ws, Elsewhere handle shared (.stopSlots other slots rs ws) :=
    fun rs ws => ⟨fun id hid => hslots id (List.mem_cons_of_mem c hid), by simp [Pc.handle?]⟩
  unfold Http.stopSlotStep
  simp only
  split
  · exact h.set rfl rfl rfl rfl rfl rfl rfl hc rfl (hpc _ _)
  · exact h.set rfl rfl rfl rfl rfl rfl rfl hc rfl (hpc _ _)
  · exact h.set rfl rfl rfl rfl rfl rfl rfl hc rfl (hpc _ _)

theorem elsewhere_forgetStep {c : Nat} {after : After}
    (hmentions : ∀ id ∈ after.mentions, (shared.heap id).listener ≠ handle)
    (hhandle : after.handle? ≠ some handle) : Elsewhere handle shared (forgetStep shared c after) := by
  unfold forgetStep
  split
  · exact elsewhere_resume hmentions hhandle
  · exact ⟨hmentions, hhandle⟩
  · exact ⟨hmentions, hhandle⟩

/-- A call that refers to another listener keeps away with each of its steps. -/
theorem Silent.advance (h : Silent handle shared) (hpc : Elsewhere handle shared pc) :
    KeepsAway handle shared (advance env shared pc).1 (advance env shared pc).2 := by
  obtain ⟨hmentions, hhandle⟩ := hpc
  have hdone : ∀ e : HostError, Elsewhere handle shared (.done (.error e)) :=
    fun e => elsewhere_done (by simp)
  cases pc with
  | listen listener =>
    have hne : handle ≠ shared.nextListener := h.below.ne
    refine h.keepsAway ?_ (by simp [Http.advance]) (fun _ => Or.inl rfl) (fun _ => Or.inl)
      (fun _ _ => Or.inl) (fun _ _ => Or.inl) le_rfl (elsewhere_done (by simp))
    simpa [Http.advance, Function.update_of_ne hne] using h.listener
  | accept other =>
    simp only [Http.advance]
    split
    · exact h.still (hdone _)
    · rename_i listener hlistener
      refine h.still ⟨by simp [Pc.mentions], ?_⟩
      intro heq
      obtain rfl : other = handle := by simpa [Pc.handle?] using heq
      simp [h.listener] at hlistener
  | acceptCheck other listener =>
    simp only [Http.advance]
    split
    · exact h.still (hdone _)
    · split
      · exact h.still (hdone _)
      · exact h.still ⟨by simp [Pc.mentions], hhandle⟩
  | acceptScan other listener =>
    simp only [Http.advance]
    refine h.still ⟨?_, hhandle⟩
    intro c hc
    simp only [Pc.mentions, List.append_nil, Shared.idleOf, List.mem_filter,
      decide_eq_true_eq] at hc
    exact h.stored c hc.2.1
  | acceptPoll other listener slots closed =>
    cases slots with
    | nil => exact h.still (elsewhere_resume hmentions hhandle)
    | cons c slots => exact h.pollStep (by simpa [Pc.handle?] using hhandle) hmentions
  | acceptMark c parts =>
    simp only [Http.advance]
    exact h.set rfl rfl rfl rfl rfl rfl rfl (hmentions c (by simp [Pc.mentions])) rfl
      ⟨hmentions, by simp [Pc.handle?]⟩
  | acceptIndex c parts =>
    simp only [Http.advance]
    refine h.indexRequest ?_ ⟨hmentions, by simp [Pc.handle?]⟩
    intro id hid
    exact hmentions id (by simpa [Pc.mentions, eq_comm] using hid)
  | acceptSocket other listener =>
    simp only [Http.advance]
    split
    · exact h.still ⟨by simp [Pc.mentions], hhandle⟩
    · exact h.still ⟨by simp [Pc.mentions], hhandle⟩
    · exact h.still (hdone _)
    · exact h.still (hdone _)
  | admitRead other listener => exact h.admitStep (by simpa [Pc.handle?] using hhandle)
  | admitCheck other read parts =>
    simp only [Http.advance]
    split
    · exact h.still (hdone _)
    · exact h.still ⟨by simp [Pc.mentions], hhandle⟩
  | admitStore other read parts =>
    have hother : other ≠ handle := by simpa [Pc.handle?] using hhandle
    have hnew : ∀ c, (advance env shared (.admitStore other read parts)).1.heap c = shared.heap c ∨
        ((advance env shared (.admitStore other read parts)).1.heap c).listener ≠ handle ∧
          c = shared.nextConnection := by
      intro c
      by_cases heq : c = shared.nextConnection
      · exact Or.inr ⟨by simpa [Http.advance, Shared.set, heq] using hother, heq⟩
      · exact Or.inl (by simp [Http.advance, Shared.set, heq])
    have hself : ((advance env shared (.admitStore other read parts)).1.heap
        shared.nextConnection).listener ≠ handle := by
      simpa [Http.advance, Shared.set] using hother
    refine h.keepsAway h.listener le_rfl ?_ ?_ (fun _ _ => Or.inl) (fun _ _ => Or.inl)
      (Nat.le_succ _) ⟨?_, by simp [Http.advance, Pc.handle?]⟩
    · intro c
      exact (hnew c).imp_right (fun hc => ⟨hc.1, Or.inr hc.2.ge⟩)
    · intro c hc
      rcases List.mem_cons.mp hc with rfl | hc
      · exact Or.inr hself
      · exact Or.inl hc
    · intro c hc
      obtain rfl : c = shared.nextConnection := by simpa [Http.advance, Pc.mentions] using hc
      exact hself
  | admitIndex c parts =>
    simp only [Http.advance]
    refine h.indexRequest ?_ ⟨hmentions, by simp [Pc.handle?]⟩
    intro id hid
    exact hmentions id (by simpa [Pc.mentions, eq_comm] using hid)
  | drop c after =>
    simp only [Http.advance]
    split
    · exact h.sweep (by simp +contextual) ⟨hmentions, hhandle⟩
    · exact h.still (elsewhere_resume (fun id hid => hmentions id (by simp [Pc.mentions, hid]))
        hhandle)
  | forget c after => 
    exact h.still (elsewhere_forgetStep (fun id hid => hmentions id (by simp [Pc.mentions, hid])) hhandle)
  | forgetRequest r writer after =>
    simp only [Http.advance]
    refine h.indexRequest (by simp) ?_
    cases writer with
    | none => exact elsewhere_resume hmentions hhandle
    | some writer => exact ⟨hmentions, hhandle⟩
  | forgetWriter w after =>
    exact h.indexWriter (by simp) (elsewhere_resume hmentions hhandle)
  | respond r response =>
    simp only [Http.advance]
    split
    · exact h.still (hdone _)
    · rename_i c hindex
      exact h.indexRequest (by simp)
        ⟨by simpa [Pc.mentions] using h.requests r c hindex, by simp [Pc.handle?]⟩
  | respondSlot c r response =>
    simp only [Http.advance]
    split
    · exact h.sweep (by simp +contextual) ⟨hmentions, by simp [Pc.handle?]⟩
    · exact h.still (hdone _)
  | respondWrite c r response => exact h.respondStep (hmentions c (by simp [Pc.mentions]))
  | respondOpen r opening =>
    simp only [Http.advance]
    split
    · exact h.still (hdone _)
    · rename_i c hindex
      exact h.indexRequest (by simp)
        ⟨by simpa [Pc.mentions] using h.requests r c hindex, by simp [Pc.handle?]⟩
  | openSlot c r opening =>
    simp only [Http.advance]
    split
    · exact h.still ⟨hmentions, by simp [Pc.handle?]⟩
    · exact h.still (hdone _)
  | openWrite c r opening => exact h.openStep (hmentions c (by simp [Pc.mentions]))
  | openIndex c w =>
    simp only [Http.advance]
    refine h.indexWriter ?_ (elsewhere_done (by simp))
    intro id hid
    exact hmentions id (by simpa [Pc.mentions, eq_comm] using hid)
  | respondChunk w bytes =>
    simp only [Http.advance]
    split
    · exact h.still (hdone _)
    · rename_i c hindex
      exact h.still ⟨by simpa [Pc.mentions] using h.writers w c hindex, by simp [Pc.handle?]⟩
  | chunkSlot c w bytes =>
    simp only [Http.advance]
    split
    · exact h.still ⟨hmentions, by simp [Pc.handle?]⟩
    · exact h.still (hdone _)
  | chunkWrite c w bytes => exact h.chunkStep (hmentions c (by simp [Pc.mentions]))
  | respondFinish w keepAlive =>
    simp only [Http.advance]
    split
    · exact h.still (hdone _)
    · rename_i c hindex
      exact h.indexWriter (by simp)
        ⟨by simpa [Pc.mentions] using h.writers w c hindex, by simp [Pc.handle?]⟩
  | finishSlot c w keepAlive =>
    simp only [Http.advance]
    split
    · exact h.still ⟨hmentions, by simp [Pc.handle?]⟩
    · exact h.still (hdone _)
  | finishWrite c w keepAlive => exact h.finishStep (hmentions c (by simp [Pc.mentions]))
  | stop other =>
    simp only [Http.advance]
    split
    · exact h.still (hdone _)
    · refine h.keepsAway ?_ le_rfl (fun _ => Or.inl rfl) (fun _ => Or.inl) (fun _ _ => Or.inl)
        (fun _ _ => Or.inl) le_rfl ⟨by simp [Pc.mentions], by simp [Pc.handle?]⟩
      by_cases heq : handle = other
      · simp [heq]
      · simpa [Function.update_of_ne heq] using h.listener
  | stopFlag other =>
    exact h.maps rfl rfl rfl rfl (fun _ => id) (fun _ _ => Or.inl) (fun _ _ => Or.inl)
      ⟨by simp [Http.advance, Pc.mentions], by simp [Http.advance, Pc.handle?]⟩
  | stopSweep other =>
    simp only [Http.advance]
    refine h.sweep (by simp +contextual) ⟨?_, by simp [Pc.handle?]⟩
    intro c hc
    exact h.stored c (List.mem_filter.mp hc).1
  | stopSlots other slots rs ws =>
    cases slots with
    | nil =>
      exact h.still ⟨by simp [Http.advance, Pc.mentions], by simp [Http.advance, Pc.handle?]⟩
    | cons c slots => exact h.stopSlotStep hmentions
  | stopRequests other rs ws =>
    refine h.maps rfl rfl rfl rfl (fun _ => id) ?_ (fun _ _ => Or.inl)
      ⟨by simp [Http.advance, Pc.mentions], by simp [Http.advance, Pc.handle?]⟩
    intro r c hr
    by_cases hmem : r ∈ rs
    · simp [Http.advance, hmem] at hr
    · exact Or.inl (by simpa [Http.advance, hmem] using hr)
  | stopWriters other ws =>
    refine h.maps rfl rfl rfl rfl (fun _ => id) (fun _ _ => Or.inl) ?_ (elsewhere_done (by simp))
    intro w c hw
    by_cases hmem : w ∈ ws
    · simp [Http.advance, hmem] at hw
    · exact Or.inl (by simpa [Http.advance, hmem] using hw)
  | done reply => exact h.still ⟨hmentions, hhandle⟩

/-! ## Listeners and their flags -/

/-- The listeners and the flags of two states are the same. -/
structure SameListeners (shared after : Shared) : Prop where
  listeners : after.listeners = shared.listeners
  next : after.nextListener = shared.nextListener
  stopped : after.stopped = shared.stopped

theorem SameListeners.refl (shared : Shared) : SameListeners shared shared := ⟨rfl, rfl, rfl⟩

theorem sameListeners_pollStep (handle : Int) (listener : ListenerState) (c : Nat)
    (slots closed : List Nat) :
    SameListeners shared (pollStep env shared handle listener c slots closed).1 := by
  unfold pollStep
  simp only
  repeat' split
  all_goals exact ⟨rfl, rfl, rfl⟩

theorem sameListeners_admitStep (handle : Int) (listener : ListenerState) :
    SameListeners shared (admitStep env shared handle listener).1 := by
  unfold admitStep
  simp only
  split <;> exact ⟨rfl, rfl, rfl⟩

theorem sameListeners_openStep (c : Nat) (r : String) (opening : Opening) :
    SameListeners shared (openStep env shared c r opening).1 := by
  unfold openStep
  simp only
  repeat' split
  all_goals exact ⟨rfl, rfl, rfl⟩

theorem sameListeners_finishStep (c : Nat) (w : Int) (keepAlive : Bool) :
    SameListeners shared (finishStep env shared c w keepAlive).1 := by
  unfold finishStep
  simp only
  repeat' split
  all_goals exact ⟨rfl, rfl, rfl⟩

theorem sameListeners_advance (hlisten : ∀ listener, pc ≠ .listen listener)
    (hstop : ∀ handle, pc ≠ .stop handle) (hflag : ∀ handle, pc ≠ .stopFlag handle) :
    SameListeners shared (advance env shared pc).1 := by
  cases pc with
  | listen listener => exact absurd rfl (hlisten listener)
  | stop handle => exact absurd rfl (hstop handle)
  | stopFlag handle => exact absurd rfl (hflag handle)
  | acceptPoll handle listener slots closed =>
    cases slots with
    | nil => exact .refl _
    | cons c slots => exact sameListeners_pollStep handle listener c slots closed
  | admitRead handle listener => exact sameListeners_admitStep handle listener
  | respondWrite c r response =>
    simp only [Http.advance, respondStep]
    split <;> exact ⟨rfl, rfl, rfl⟩
  | openWrite c r opening => exact sameListeners_openStep c r opening
  | chunkWrite c w bytes =>
    simp only [Http.advance, chunkStep]
    split <;> exact ⟨rfl, rfl, rfl⟩
  | finishWrite c w keepAlive => exact sameListeners_finishStep c w keepAlive
  | stopSlots handle slots rs ws =>
    cases slots with
    | nil => exact .refl _
    | cons c slots =>
      simp only [Http.advance, stopSlotStep]
      split <;> exact ⟨rfl, rfl, rfl⟩
  | acceptCheck handle listener =>
    simp only [Http.advance]
    split
    · exact .refl _
    · split <;> exact .refl _
  | acceptScan handle listener => exact .refl _
  | acceptMark c parts => exact ⟨rfl, rfl, rfl⟩
  | acceptIndex c parts => exact ⟨rfl, rfl, rfl⟩
  | admitStore handle read parts => exact ⟨rfl, rfl, rfl⟩
  | admitIndex c parts => exact ⟨rfl, rfl, rfl⟩
  | forget c after => exact .refl _
  | forgetRequest r writer after => exact ⟨rfl, rfl, rfl⟩
  | forgetWriter w after => exact ⟨rfl, rfl, rfl⟩
  | openIndex c w => exact ⟨rfl, rfl, rfl⟩
  | stopSweep handle => exact ⟨rfl, rfl, rfl⟩
  | stopRequests handle rs ws => exact ⟨rfl, rfl, rfl⟩
  | stopWriters handle ws => exact ⟨rfl, rfl, rfl⟩
  | done reply => exact .refl _
  | _ =>
    simp only [Http.advance]
    split <;> exact ⟨rfl, rfl, rfl⟩

section Act

variable {cut late : Prop} {v v' : View} {h h' : Hold}

theorem Act.stored (hact : Act cut late v h v' h') (hfresh : h.fresh = none ∨ h.marking ≠ none) :
    ∀ c ∈ v'.stored, c ∈ v.stored := by
  cases hact <;> simp_all

theorem Act.listener (hact : Act cut late v h v' h') {c : Nat} (hc : c < v.nextConnection) :
    v'.listener c = v.listener c := by
  have hne : c ≠ v.nextConnection := hc.ne
  cases hact <;> simp [hne]

end Act

theorem connections_advance (hpc : ∀ handle read parts, pc ≠ .admitStore handle read parts) :
    ∀ c ∈ (advance env shared pc).1.connections, c ∈ shared.connections := by
  have hact := act_advance env shared pc
  cases pc with
  | admitStore handle read parts => exact absurd rfl (hpc handle read parts)
  | admitCheck handle read parts =>
    simp only [Http.advance]
    split <;> exact fun _ => id
  | acceptMark c parts => exact hact.stored (Or.inr (by simp [Pc.hold]))
  | _ => exact hact.stored (Or.inl rfl)

theorem listener_advance {c : Nat} (hc : c < shared.nextConnection) :
    ((advance env shared pc).1.heap c).listener = (shared.heap c).listener :=
  (act_advance env shared pc).listener hc

/-! ## Stopping -/

/-- The listener is gone, and its handle will not be given out. -/
def Closed (handle : Int) (shared : Shared) : Prop :=
  shared.listeners handle = none ∧ handle < shared.nextListener

/-- What a call of `stop` has done where it stands. -/
def StopsAt (handle : Int) (shared : Shared) : Pc → Prop
  | .stop other => other = handle
  | .stopFlag other => other = handle ∧ Closed handle shared
  | .stopSweep other => other = handle ∧ Closed handle shared ∧ shared.stopped handle = true
  | .stopSlots other _ _ _ => other = handle ∧ Closed handle shared ∧ shared.stopped handle = true
  | .stopRequests other _ _ => other = handle ∧ Closed handle shared ∧ shared.stopped handle = true
  | .stopWriters other _ => other = handle ∧ Closed handle shared ∧ shared.stopped handle = true
  | .done (.ok _) => Closed handle shared ∧ shared.stopped handle = true
  | .done (.error _) => True
  | _ => False

theorem Closed.of_same {after : Shared} (h : Closed handle shared)
    (hsame : SameListeners shared after) : Closed handle after :=
  ⟨hsame.listeners ▸ h.1, hsame.next ▸ h.2⟩

theorem Closed.advance (h : Closed handle shared) :
    Closed handle (advance env shared pc).1 := by
  have hclosed := h
  obtain ⟨hlistener, hbelow⟩ := h
  cases pc with
  | listen listener =>
    refine ⟨?_, by simp only [Http.advance]; omega⟩
    simpa [Http.advance, Function.update_of_ne hbelow.ne] using hlistener
  | stop other =>
    simp only [Http.advance]
    split
    · exact ⟨hlistener, hbelow⟩
    · refine ⟨?_, hbelow⟩
      by_cases heq : handle = other
      · simp [heq]
      · simpa [Function.update_of_ne heq] using hlistener
  | stopFlag other => exact ⟨hlistener, hbelow⟩
  | _ => exact hclosed.of_same (sameListeners_advance (by simp) (by simp) (by simp))

theorem stopped_of_same {after : Shared} (h : shared.stopped handle = true)
    (hsame : SameListeners shared after) : after.stopped handle = true :=
  hsame.stopped ▸ h

theorem stopped_advance (h : shared.stopped handle = true) :
    (advance env shared pc).1.stopped handle = true := by
  cases pc with
  | listen listener => exact h
  | stop other =>
    simp only [Http.advance]
    split <;> exact h
  | stopFlag other =>
    by_cases heq : handle = other
    · simp [Http.advance, heq]
    · simpa [Http.advance, Function.update_of_ne heq] using h
  | _ => exact stopped_of_same h (sameListeners_advance (by simp) (by simp) (by simp))

theorem stopped_advance_eq (hpc : ∀ handle, pc ≠ .stopFlag handle) :
    (advance env shared pc).1.stopped = shared.stopped := by
  cases pc with
  | listen listener => rfl
  | stop other =>
    simp only [Http.advance]
    split <;> rfl
  | stopFlag other => exact absurd rfl (hpc other)
  | _ => exact (sameListeners_advance (by simp) (by simp) (by simp)).stopped

theorem StopsAt.stays {stopper : Pc} (h : StopsAt handle shared stopper) :
    StopsAt handle (advance env shared pc).1 stopper := by
  cases stopper with
  | stop other => exact h
  | stopFlag other => exact ⟨h.1, h.2.advance⟩
  | stopSweep other => exact ⟨h.1, h.2.1.advance, stopped_advance h.2.2⟩
  | stopSlots other slots rs ws => exact ⟨h.1, h.2.1.advance, stopped_advance h.2.2⟩
  | stopRequests other rs ws => exact ⟨h.1, h.2.1.advance, stopped_advance h.2.2⟩
  | stopWriters other ws => exact ⟨h.1, h.2.1.advance, stopped_advance h.2.2⟩
  | done reply =>
    cases reply with
    | error e => trivial
    | ok answer => exact ⟨h.1.advance, stopped_advance h.2⟩
  | _ => exact h.elim

/-- The handles of listeners were given out. -/
def Registered (shared : Shared) : Prop :=
  ∀ handle, shared.listeners handle ≠ none → handle < shared.nextListener

theorem Registered.of_same {after : Shared} (h : Registered shared)
    (hsame : SameListeners shared after) : Registered after :=
  fun handle hhandle => hsame.next ▸ h handle (hsame.listeners ▸ hhandle)

theorem Registered.advance (h : Registered shared) : Registered (advance env shared pc).1 := by
  cases pc with
  | listen listener =>
    intro handle hhandle
    by_cases heq : handle = shared.nextListener
    · simp [Http.advance, heq]
    · have hlt := h handle (by simpa [Http.advance, Function.update_of_ne heq] using hhandle)
      simp only [Http.advance]
      omega
  | stop other =>
    simp only [Http.advance]
    split
    · exact h
    · intro handle hhandle
      by_cases heq : handle = other
      · simp [heq] at hhandle
      · exact h handle (by simpa [Function.update_of_ne heq] using hhandle)
  | stopFlag other => exact h
  | _ => exact h.of_same (sameListeners_advance (by simp) (by simp) (by simp))

theorem StopsAt.advance (h : StopsAt handle shared pc) (hregistered : Registered shared) :
    StopsAt handle (advance env shared pc).1 (advance env shared pc).2 := by
  cases pc with
  | stop other =>
    obtain rfl : other = handle := h
    simp only [Http.advance]
    split
    · trivial
    · rename_i listener hlistener
      exact ⟨rfl, by simp, hregistered other (by simp [hlistener])⟩
  | stopFlag other =>
    obtain ⟨rfl, hclosed⟩ := h
    exact ⟨rfl, hclosed, by simp [Http.advance]⟩
  | stopSweep other => exact h
  | stopSlots other slots rs ws =>
    obtain ⟨rfl, hclosed, hstopped⟩ := h
    cases slots with
    | nil => exact ⟨rfl, hclosed, hstopped⟩
    | cons c slots =>
      simp only [Http.advance, stopSlotStep]
      split <;> exact ⟨rfl, hclosed, hstopped⟩
  | stopRequests other rs ws => exact h
  | stopWriters other ws => exact h.2
  | done reply => exact h
  | _ => exact h.elim

/-! ## Runs -/

/-- The call stores a connection of a listener whose connections were swept. -/
def AdmitsLate (s : System) (t : Nat) : Prop :=
  match s.pcs t with
  | .admitStore handle _ _ => s.shared.stopped handle = true ∧ ∀ u, s.pcs u ≠ .stopSweep handle
  | _ => False

/-- The step polls a connection for itself, and stores and files nothing behind a sweep. -/
def InTime (s : System) (move : Nat × Env) : Prop :=
  ¬ Crowds s move.1 ∧ ¬ FilesLate s.shared (s.pcs move.1) ∧ ¬ AdmitsLate s move.1

/-- A connection of a stopped listener is still to be swept. -/
def Swept (s : System) : Prop :=
  ∀ c ∈ s.shared.connections, s.shared.stopped (s.shared.heap c).listener = true →
    ∃ u, s.pcs u = .stopSweep (s.shared.heap c).listener

theorem Swept.move {s : System} {move : Nat × Env} (h : Swept s)
    (hbelow : ∀ c ∈ s.shared.connections, c < s.shared.nextConnection)
    (hadmits : ¬ AdmitsLate s move.1) : Swept (s.move move) := by
  intro c hc hstopped
  -- a sweep another call is about to make is still ahead
  have hother : ∀ handle, (∃ u, s.pcs u = .stopSweep handle) →
      s.pcs move.1 ≠ .stopSweep handle → ∃ u, (s.move move).pcs u = .stopSweep handle := by
    rintro handle ⟨u, hu⟩ hself
    have hne : u ≠ move.1 := by
      intro heq
      exact hself (heq ▸ hu)
    exact ⟨u, by simpa [System.move, Function.update_of_ne hne] using hu⟩
  have hkeep : ∀ c ∈ s.shared.connections,
      ((s.move move).shared.heap c).listener = (s.shared.heap c).listener :=
    fun c hc => listener_advance (hbelow c hc)
  cases hpc : s.pcs move.1 with
  | admitStore handle read parts =>
    simp only [AdmitsLate, hpc, not_and, not_forall, not_not] at hadmits
    simp only [System.move, hpc, Http.advance, List.mem_cons] at hc
    by_cases hnew : c = s.shared.nextConnection
    · have hlistener : ((s.move move).shared.heap c).listener = handle := by
        simp [System.move, hpc, Http.advance, Shared.set, hnew]
      rw [hlistener] at hstopped ⊢
      simp only [System.move, hpc, Http.advance] at hstopped
      exact hother handle (hadmits hstopped) (by simp [hpc])
    · have hc := hc.resolve_left hnew
      rw [hkeep c hc] at hstopped ⊢
      simp only [System.move, hpc, Http.advance] at hstopped
      exact hother _ (h c hc hstopped) (by simp [hpc])
  | stopFlag handle =>
    simp only [System.move, hpc, Http.advance] at hc
    rw [hkeep c hc] at hstopped ⊢
    by_cases heq : (s.shared.heap c).listener = handle
    · exact ⟨move.1, by simp [System.move, hpc, Http.advance, heq]⟩
    · simp only [System.move, hpc, Http.advance, Function.update_of_ne heq] at hstopped
      exact hother _ (h c hc hstopped) (by simp [hpc])
  | stopSweep handle =>
    simp only [System.move, hpc, Http.advance, List.mem_filter, decide_eq_true_eq] at hc
    rw [hkeep c hc.1] at hstopped ⊢
    simp only [System.move, hpc, Http.advance] at hstopped
    refine hother _ (h c hc.1 hstopped) ?_
    rw [hpc]
    intro heq
    exact hc.2 (Pc.stopSweep.inj heq).symm
  | _ =>
    have hold : c ∈ s.shared.connections :=
      connections_advance (by simp [hpc]) c hc
    rw [hkeep c hold] at hstopped ⊢
    have hsame : (s.move move).shared.stopped = s.shared.stopped :=
      stopped_advance_eq (by simp [hpc])
    rw [hsame] at hstopped
    exact hother _ (h c hold hstopped) (by simp [hpc])

/-- What holds of a provider through every run in time. -/
structure Orderly (calls : Nat → Pc) (s : System) : Prop where
  registry : Registry s.shared.view s.holds
  covered : Covered s.shared.view s.holds
  registered : Registered s.shared
  swept : Swept s
  stops : ∀ t handle, calls t = .stop handle → StopsAt handle s.shared (s.pcs t)

theorem Orderly.move {calls : Nat → Pc} {s : System} {move : Nat × Env} (h : Orderly calls s)
    (hintime : InTime s move) : Orderly calls (s.move move) := by
  obtain ⟨hcrowds, hlate, hadmits⟩ := hintime
  refine ⟨registry_move h.registry hcrowds, covered_move h.covered h.registry hlate,
    h.registered.advance, h.swept.move h.registry.numbered.stored hadmits, ?_⟩
  intro t handle hcall
  have hstops := h.stops t handle hcall
  by_cases ht : t = move.1
  · subst ht
    simpa [System.move] using hstops.advance h.registered
  · simpa [System.move, Function.update_of_ne ht] using hstops.stays

theorem orderly_start {calls : Nat → Pc} (hcalls : ∀ t, (calls t).isCall = true) :
    Orderly calls (.start calls) where
  registry := registry_start hcalls
  covered := covered_start hcalls
  registered handle hhandle := by simp [System.start, Shared.new] at hhandle
  swept c hc := by simp [System.start, Shared.new] at hc
  stops t handle hcall := by
    show StopsAt handle _ (calls t)
    rw [hcall]
    rfl

theorem Orderly.run {calls : Nat → Pc} {moves : List (Nat × Env)} {s : System}
    (hcalls : ∀ t, (calls t).isCall = true)
    (hmeet : StepsMeet System.step InTime (.start calls) moves)
    (hrun : runSteps System.step (.start calls) moves = some s) : Orderly calls s := by
  apply runSteps_preserves_of_meets _ hmeet (orderly_start hcalls) hrun
  intro s move after horderly hintime hstep
  obtain rfl : s.move move = after := Option.some.inj hstep
  exact horderly.move hintime

/-- Every call that has begun has returned. -/
def Returned (calls : Nat → Pc) (s : System) : Prop :=
  ∀ t, s.pcs t = calls t ∨ ∃ reply, s.pcs t = .done reply

theorem Returned.holds {calls : Nat → Pc} {s : System} (hcalls : ∀ t, (calls t).isCall = true)
    (h : Returned calls s) : s.holds = fun _ => {} := by
  funext t
  rcases h t with hcall | ⟨reply, hdone⟩
  · simp only [System.holds, hcall]
    exact hold_of_isCall (hcalls t)
  · simp only [System.holds, hdone]
    rfl

/-- A stop that has returned, with the calls beside it, leaves nothing of the listener. -/
theorem Orderly.silent {calls : Nat → Pc} {s : System} {stopper : Nat} {handle : Int}
    {answer : Answer} (h : Orderly calls s) (hcalls : ∀ t, (calls t).isCall = true)
    (hstop : calls stopper = .stop handle) (hstopped : s.pcs stopper = .done (.ok answer))
    (hreturned : Returned calls s) : Silent handle s.shared := by
  have hclosed := h.stops stopper handle hstop
  rw [hstopped] at hclosed
  obtain ⟨⟨hlistener, hbelow⟩, hflag⟩ := hclosed
  have hstored : ∀ c ∈ s.shared.connections, (s.shared.heap c).listener ≠ handle := by
    intro c hc heq
    obtain ⟨u, hu⟩ := h.swept c hc (heq ▸ hflag)
    rcases hreturned u with hcall | ⟨reply, hdone⟩
    · have := hcalls u
      rw [← hcall, hu] at this
      simp [Pc.isCall] at this
    · simp [hdone] at hu
  have hcovered := h.covered
  rw [hreturned.holds hcalls] at hcovered
  refine ⟨hlistener, hbelow, hstored, ?_, ?_⟩
  · intro r c hindex
    exact hstored c (by simpa [Shared.view] using hcovered.requests r c hindex)
  · intro w c hindex
    exact hstored c (by simpa [Shared.view] using hcovered.writers w c hindex)

/-- What holds of a stopped listener ever after. -/
structure Over (handle : Int) (s after : System) : Prop where
  silent : Silent handle after.shared
  calls : ∀ t, (∃ reply, s.pcs t = .done reply ∧ after.pcs t = .done reply) ∨
    Elsewhere handle after.shared (after.pcs t)
  same : ∀ c < s.shared.nextConnection, (s.shared.heap c).listener = handle →
    after.shared.heap c = s.shared.heap c
  grows : s.shared.nextConnection ≤ after.shared.nextConnection

theorem Over.move {handle : Int} {s after : System} {move : Nat × Env}
    (h : Over handle s after) : Over handle s (after.move move) := by
  rcases h.calls move.1 with ⟨reply, hbefore, hdone⟩ | helsewhere
  · -- a call that has returned takes no step
    have hsame : after.move move = after := by
      unfold System.move
      rw [hdone]
      simp only [Http.advance]
      rw [← hdone, Function.update_eq_self]
    rw [hsame]
    exact h
  · have hkeeps : KeepsAway handle after.shared (after.move move).shared
        (Http.advance move.2 after.shared (after.pcs move.1)).2 := h.silent.advance helsewhere
    refine ⟨hkeeps.silent, ?_, ?_, h.grows.trans hkeeps.grows⟩
    · intro t
      by_cases ht : t = move.1
      · subst ht
        exact Or.inr (by simpa [System.move] using hkeeps.elsewhere)
      · have hpc : (after.move move).pcs t = after.pcs t := by
          simp [System.move, Function.update_of_ne ht]
        rw [hpc]
        refine (h.calls t).imp_right ?_
        intro hcall
        exact ⟨fun c hc => hkeeps.apart c (hcall.mentions c hc), hcall.handle⟩
    · intro c hc hlistener
      have hbefore := h.same c hc hlistener
      rw [hkeeps.same c (lt_of_lt_of_le hc h.grows) (by rw [hbefore]; exact hlistener), hbefore]

/-- Nothing of the listener is left, and from here on no call that has not begun takes a
    request from one of its connections, and none of them changes. -/
def Final (calls : Nat → Pc) (handle : Int) (s : System) : Prop :=
  Silent handle s.shared ∧
    ∀ later after, runSteps System.step s later = some after →
      Silent handle after.shared ∧
      (∀ t parts c, s.pcs t = calls t → after.pcs t = .done (.ok (.request parts c)) →
        (after.shared.heap c).listener ≠ handle) ∧
      ∀ c < s.shared.nextConnection, (s.shared.heap c).listener = handle →
        after.shared.heap c = s.shared.heap c

/-- Once a stop and the calls beside it have returned, it is final, if every step was in
    time. -/
theorem stop_is_final {calls : Nat → Pc} {moves : List (Nat × Env)} {s : System} {stopper : Nat}
    {handle : Int} {answer : Answer} (hcalls : ∀ t, (calls t).isCall = true)
    (hmeet : StepsMeet System.step InTime (.start calls) moves)
    (hrun : runSteps System.step (.start calls) moves = some s)
    (hstop : calls stopper = .stop handle) (hstopped : s.pcs stopper = .done (.ok answer))
    (hreturned : Returned calls s) : Final calls handle s := by
  have hsilent := (Orderly.run hcalls hmeet hrun).silent hcalls hstop hstopped hreturned
  have hover : Over handle s s := by
    refine ⟨hsilent, ?_, fun _ _ _ => rfl, le_rfl⟩
    intro t
    rcases hreturned t with hcall | ⟨reply, hdone⟩
    · refine Or.inr ?_
      have hbegin := hcalls t
      rw [← hcall] at hbegin
      cases hpc : s.pcs t <;> simp [hpc, Pc.isCall] at hbegin <;>
        exact ⟨by simp [Pc.mentions], by simp [Pc.handle?]⟩
    · exact Or.inl ⟨reply, hdone, hdone⟩
  refine ⟨hsilent, ?_⟩
  intro later after hlater
  have hafter : Over handle s after := by
    apply runSteps_preserves _ hover hlater
    intro s' move next hover hstep
    obtain rfl : s'.move move = next := Option.some.inj hstep
    exact hover.move
  refine ⟨hafter.silent, ?_, hafter.same⟩
  intro t parts c hcall hdone
  rcases hafter.calls t with ⟨reply, hbefore, -⟩ | helsewhere
  · have hbegin := hcalls t
    rw [← hcall, hbefore] at hbegin
    simp [Pc.isCall] at hbegin
  · exact helsewhere.mentions c (by simp [hdone, Pc.mentions])

/-- A listener, a call that accepts from it and calls that stop it. -/
def stoppingCalls : Nat → Pc
  | 0 => .listen ⟨100, ⟨10, 10⟩⟩
  | 1 => .accept 1
  | _ => .stop 1

/-- The listener comes up, and the accepting call reads a request from a new socket and
    sees that the listener is not stopped. -/
def readingMoves : List (Nat × Env) :=
  [(0, .quiet), (1, .quiet), (1, .quiet), (1, .quiet), (1, .quiet),
    (1, { Env.quiet with incoming := .socket }),
    (1, { Env.quiet with reads := [.data plainRequest] }), (1, .quiet)]

/-- It stores the connection and files the request. -/
def storingMoves : List (Nat × Env) := List.replicate 2 (1, .quiet)

/-- One stop from its beginning to its end, with as many steps as it sweeps connections. -/
def stoppingMoves (connections : Nat) : List (Nat × Env) :=
  List.replicate (6 + connections) (2, .quiet)

theorem stoppingCalls_isCall (t : Nat) : (stoppingCalls t).isCall = true := by
  unfold stoppingCalls
  split <;> rfl

theorem stoppingCalls_returned {moves : List (Nat × Env)} {s : System}
    (hrun : runSteps System.step (.start stoppingCalls) moves = some s)
    (hmoves : ∀ move ∈ moves, move.1 < 3) (hdone : ∀ t < 3, ∃ reply, s.pcs t = .done reply) :
    Returned stoppingCalls s := by
  intro t
  by_cases ht : t < 3
  · exact Or.inr (hdone t ht)
  · refine Or.inl (pcs_run ?_ hrun)
    intro move hmove heq
    have := hmoves move hmove
    omega

/-- A step that is in time for a reason that can be checked. -/
def Punctual (s : System) (move : Nat × Env) : Prop :=
  (s.holds move.1).polling = [] ∧ ¬ FilesLate s.shared (s.pcs move.1) ∧
    match s.pcs move.1 with
    | .admitStore handle _ _ => s.shared.stopped handle = false
    | _ => True

instance (s : System) (move : Nat × Env) : Decidable (Punctual s move) := by
  unfold Punctual
  cases s.pcs move.1 <;> infer_instance

theorem Punctual.inTime {s : System} {move : Nat × Env} (h : Punctual s move) :
    InTime s move := by
  obtain ⟨hpolling, hlate, hstopped⟩ := h
  refine ⟨?_, hlate, ?_⟩
  · rintro ⟨c, hc, -⟩
    simp [hpolling] at hc
  · unfold AdmitsLate
    split at hstopped
    · simp_all
    · exact id

theorem stop_is_final_after_accept : ∃ s,
    runSteps System.step (.start stoppingCalls)
      (readingMoves ++ storingMoves ++ stoppingMoves 1) = some s ∧ Final stoppingCalls 1 s := by
  have hends : (runSteps System.step (.start stoppingCalls)
      (readingMoves ++ storingMoves ++ stoppingMoves 1)).any (fun s =>
        s.pcs 0 = .done (.ok (.listener 1)) ∧
        s.pcs 1 = .done (.ok (.request ⟨"http-1", "GET", "/", [("Host", "")], []⟩ 1)) ∧
        s.pcs 2 = .done (.ok .vacuum)) = true := by
    decide +kernel
  obtain ⟨s, hrun, hs⟩ := (Option.any_eq_true _ _).mp hends
  obtain ⟨h0, h1, h2⟩ := of_decide_eq_true hs
  refine ⟨s, hrun, stop_is_final stoppingCalls_isCall ?_ hrun rfl h2 ?_⟩
  · exact StepsMeet.mono (fun _ _ => Punctual.inTime) (by decide +kernel)
  · refine stoppingCalls_returned hrun (by decide) ?_
    intro t ht
    interval_cases t
    · exact ⟨_, h0⟩
    · exact ⟨_, h1⟩
    · exact ⟨_, h2⟩

/-- A stop between the check of the flag and the store leaves a connection behind. -/
theorem stop_misses_late_admission : ¬ ∀ calls moves s stopper handle answer,
    (∀ t, (calls t).isCall = true) → runSteps System.step (.start calls) moves = some s →
      calls stopper = .stop handle → s.pcs stopper = .done (.ok answer) → Returned calls s →
      Final calls handle s := by
  intro h
  have hends : (runSteps System.step (.start stoppingCalls)
      (readingMoves ++ stoppingMoves 0 ++ storingMoves)).any (fun s =>
        s.pcs 0 = .done (.ok (.listener 1)) ∧
        s.pcs 1 = .done (.ok (.request ⟨"http-1", "GET", "/", [("Host", "")], []⟩ 1)) ∧
        s.pcs 2 = .done (.ok .vacuum) ∧
        s.shared.connections = [1] ∧ (s.shared.heap 1).listener = 1) = true := by
    decide +kernel
  obtain ⟨s, hrun, hs⟩ := (Option.any_eq_true _ _).mp hends
  obtain ⟨h0, h1, h2, hstored, hlistener⟩ := of_decide_eq_true hs
  have hreturned : Returned stoppingCalls s := by
    refine stoppingCalls_returned hrun (by decide) ?_
    intro t ht
    interval_cases t
    · exact ⟨_, h0⟩
    · exact ⟨_, h1⟩
    · exact ⟨_, h2⟩
  have hfinal := h stoppingCalls _ s 2 1 .vacuum stoppingCalls_isCall hrun rfl h2 hreturned
  exact hfinal.1.stored 1 (by simp [hstored]) hlistener

end FaberHosts.Http
