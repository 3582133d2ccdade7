import FaberHosts.Http.Wire

/-!
# The HTTP provider

`http/src/lib.rs`: listeners, kept-alive connections and the two indexes of pending
requests and open writers.  A call goes from one lock to the next; `Pc` says which lock
it takes next and `advance` what it does under it.  A connection lives on for the calls
that hold it after it left the connections map.
-/

namespace FaberHosts.Http
open FaberHosts.Kernel

/-! ## State -/

/-- Two windows in milliseconds: for an incomplete request, and between requests. -/
structure ReadDeadlines where
  headerBody : Nat
  idle : Nat
  deriving DecidableEq, Repr

structure ListenerState where
  maxBodyBytes : Nat
  readDeadlines : ReadDeadlines
  deriving DecidableEq, Repr

inductive Phase where
  | idle
  | pending (requestId : String)
  | streaming (requestId : String) (writer : Int)
  deriving DecidableEq, Repr

/-- A connection with its slot and its socket: whether the host shut it down, and what
    went out on it. -/
structure Connection where
  listener : Int
  read : ReadState
  phase : Phase
  shut : Bool
  sent : List UInt8
  deriving DecidableEq, Repr

/-- What the calls share.  `connections` are the ids the connections map holds, `heap` the
    connections they stand for. -/
structure Shared where
  listeners : Int → Option ListenerState
  stopped : Int → Bool
  connections : List Nat
  heap : Nat → Connection
  requests : String → Option Nat
  writers : Int → Option Nat
  nextListener : Int
  nextRequest : Nat
  nextConnection : Nat
  nextWriter : Int

def freshRead (now : Nat) : ReadState := ⟨[], now, none, false⟩

/-- A new provider. -/
def Shared.new : Shared where
  listeners _ := none
  stopped _ := false
  connections := []
  heap _ := ⟨0, freshRead 0, .idle, true, []⟩
  requests _ := none
  writers _ := none
  nextListener := 1
  nextRequest := 1
  nextConnection := 1
  nextWriter := 1

/-- `http-` and the number of the request. -/
def requestId (number : Nat) : String := s!"http-{number}"

theorem requestId_injective : Function.Injective requestId := by
  intro a b h
  simpa [requestId] using h

/-- What a listening socket answers to `accept`. -/
inductive Incoming where
  | wouldBlock
  | socket
  | unclonable (error : String)
  | failed (error : String)
  deriving DecidableEq, Repr

/-- What the world decides in one step: clocks, sockets, and the order in which a scan of
    the connections map finds the connections it can lock. -/
structure Env where
  cancelled : Bool
  now : Nat
  later : Nat
  order : List Nat
  reads : List ReadEvent
  incoming : Incoming
  writes : List WriteEvent
  deriving DecidableEq, Repr

/-- A world where nothing arrives and nothing goes out. -/
def Env.quiet : Env := ⟨false, 0, 0, [], [], .wouldBlock, []⟩

/-! ## Answers -/

inductive Answer where
  | request (parts : RequestParts) (connection : Nat)
  | writer (writer : Int)
  | listener (handle : Int)
  | vacuum
  deriving DecidableEq, Repr

abbrev Reply := Except HostError Answer

/-- What a call does once a connection is dropped. -/
inductive After where
  | scan (handle : Int) (listener : ListenerState) (closed : List Nat)
  | reply (reply : Reply)
  deriving DecidableEq, Repr

/-- A response in one piece. -/
structure OneShot where
  status : UInt16
  headers : List (String × String)
  body : List UInt8
  deriving DecidableEq, Repr

/-- The head of a response in chunks. -/
structure Opening where
  status : UInt16
  headers : List (String × String)
  deriving DecidableEq, Repr

/-- Where a call stands: the lock it takes next and what it carries. -/
inductive Pc where
  | listen (listener : ListenerState)
  | accept (handle : Int)
  | acceptCheck (handle : Int) (listener : ListenerState)
  | acceptScan (handle : Int) (listener : ListenerState)
  | acceptPoll (handle : Int) (listener : ListenerState) (slots closed : List Nat)
  | acceptMark (connection : Nat) (parts : RequestParts)
  | acceptIndex (connection : Nat) (parts : RequestParts)
  | acceptSocket (handle : Int) (listener : ListenerState)
  | admitRead (handle : Int) (listener : ListenerState)
  | admitCheck (handle : Int) (read : ReadState) (parts : RequestParts)
  | admitStore (handle : Int) (read : ReadState) (parts : RequestParts)
  | admitIndex (connection : Nat) (parts : RequestParts)
  | drop (connection : Nat) (after : After)
  | forget (connection : Nat) (after : After)
  | forgetRequest (requestId : String) (writer : Option Int) (after : After)
  | forgetWriter (writer : Int) (after : After)
  | respond (requestId : String) (response : OneShot)
  | respondSlot (connection : Nat) (requestId : String) (response : OneShot)
  | respondWrite (connection : Nat) (requestId : String) (response : OneShot)
  | respondOpen (requestId : String) (opening : Opening)
  | openSlot (connection : Nat) (requestId : String) (opening : Opening)
  | openWrite (connection : Nat) (requestId : String) (opening : Opening)
  | openIndex (connection : Nat) (writer : Int)
  | respondChunk (writer : Int) (bytes : List UInt8)
  | chunkSlot (connection : Nat) (writer : Int) (bytes : List UInt8)
  | chunkWrite (connection : Nat) (writer : Int) (bytes : List UInt8)
  | respondFinish (writer : Int) (keepAlive : Bool)
  | finishSlot (connection : Nat) (writer : Int) (keepAlive : Bool)
  | finishWrite (connection : Nat) (writer : Int) (keepAlive : Bool)
  | stop (handle : Int)
  | stopFlag (handle : Int)
  | stopSweep (handle : Int)
  | stopSlots (handle : Int) (slots : List Nat) (requestIds : List String) (writers : List Int)
  | stopRequests (handle : Int) (requestIds : List String) (writers : List Int)
  | stopWriters (handle : Int) (writers : List Int)
  | done (reply : Reply)
  deriving DecidableEq, Repr

/-! ## Updates -/

namespace Shared

/-- Change the connection of an id. -/
def set (shared : Shared) (id : Nat) (connection : Connection) : Shared :=
  { shared with heap := Function.update shared.heap id connection }

def setPhase (shared : Shared) (id : Nat) (phase : Phase) : Shared :=
  shared.set id { shared.heap id with phase }

/-- Take a connection out of the connections map. -/
def unstore (shared : Shared) (id : Nat) : Shared :=
  { shared with connections := shared.connections.filter (· ≠ id) }

def indexRequest (shared : Shared) (requestId : String) (connection : Option Nat) : Shared :=
  { shared with requests := Function.update shared.requests requestId connection }

def indexWriter (shared : Shared) (writer : Int) (connection : Option Nat) : Shared :=
  { shared with writers := Function.update shared.writers writer connection }

def listenerIsStopped (shared : Shared) (handle : Int) : Bool :=
  (shared.listeners handle).isNone || shared.stopped handle

/-- Whether the window the connection is in has closed. -/
def expired (deadlines : ReadDeadlines) (read : ReadState) (now : Nat) : Bool :=
  match read.readStarted with
  | some started => started + deadlines.headerBody ≤ now
  | none => read.idleSince + deadlines.idle ≤ now

/-- The idle connections of a listener among those a scan can lock, in its order. -/
def idleOf (shared : Shared) (handle : Int) (order : List Nat) : List Nat :=
  order.dedup.filter (fun id => id ∈ shared.connections ∧ (shared.heap id).listener = handle ∧
    (shared.heap id).phase = .idle)

end Shared

/-- The reads of a connection: a socket that ended has nothing more. -/
def readsOf (connection : Connection) (env : Env) : List ReadEvent :=
  if connection.read.ended then [.ended] else env.reads

/-- Write on a connection, unless its socket was shut down. -/
def writeOn (connection : Connection) (write : List UInt8 × Except HostError Unit) :
    Connection × Except HostError Unit :=
  if connection.shut then
    (connection, .error (.internal "http write failed: broken pipe"))
  else
    ({ connection with sent := connection.sent ++ write.1 }, write.2)

/-- What a call does next once it dropped a connection. -/
def resume : After → Pc
  | .scan handle listener [] => .acceptSocket handle listener
  | .scan handle listener (id :: closed) => .drop id (.scan handle listener closed)
  | .reply reply => .done reply

def unknownRequest (route requestId : String) : HostError :=
  .invalidArgs s!"{route} unknown request {requestId}"

def unknownConnection (id : Nat) : HostError := .invalidArgs s!"http unknown connection {id}"

def unknownWriter (route : String) (writer : Int) : HostError :=
  .invalidArgs s!"{route} unknown writer {writer}"

/-! ## Steps -/

/-- Poll the next connection of a scan. -/
def pollStep (env : Env) (shared : Shared) (handle : Int) (listener : ListenerState) (id : Nat)
    (slots closed : List Nat) : Shared × Pc :=
  let connection := shared.heap id
  if connection.phase ≠ .idle then
    (shared, .acceptPoll handle listener slots closed)
  else
    let (answer, read) := pollRequest listener.maxBodyBytes (shared.stopped handle) false
      (requestId shared.nextRequest) env.now connection.read (readsOf connection env)
    let polled := shared.set id { connection with read }
    match answer with
    | .error e => (polled, .done (.error e))
    | .ok (.ready parts) =>
      ({ polled with nextRequest := shared.nextRequest + 1 }, .acceptMark id parts)
    | .ok .expired => (polled, .acceptPoll handle listener slots closed)
    | .ok _ =>
      if Shared.expired listener.readDeadlines read env.later then
        (shared.set id { connection with read, shut := true },
          .acceptPoll handle listener slots (closed ++ [id]))
      else if answer = .ok .closed then
        (polled, .acceptPoll handle listener slots (closed ++ [id]))
      else
        (polled, .acceptPoll handle listener slots closed)

/-- Read the first request of a new socket. -/
def admitStep (env : Env) (shared : Shared) (handle : Int) (listener : ListenerState) :
    Shared × Pc :=
  let (answer, read) := pollRequest listener.maxBodyBytes (shared.stopped handle) true
    (requestId shared.nextRequest) env.now (freshRead env.now) env.reads
  match answer with
  | .error e => (shared, .done (.error e))
  | .ok (.ready parts) =>
    ({ shared with nextRequest := shared.nextRequest + 1 }, .admitCheck handle read parts)
  | .ok .closed =>
    (shared, .done (.error (.invalidArgs "http:accept request ended before headers")))
  | .ok _ => (shared, .acceptCheck handle listener)

/-- Write the whole response and shut the socket down. -/
def respondStep (env : Env) (shared : Shared) (id : Nat) (requestId : String)
    (response : OneShot) : Shared × Pc :=
  let connection := shared.heap id
  if connection.phase ≠ .pending requestId then
    (shared, .done (.error (unknownRequest "http:respond" requestId)))
  else
    let (written, answer) := writeOn connection (writeBlocking
      (formatResponse response.status requestId response.headers response.body) env.writes)
    (shared.set id { written with phase := .idle, shut := true },
      .done (answer.map (fun _ => .vacuum)))

/-- Write the head of a response in chunks. -/
def openStep (env : Env) (shared : Shared) (id : Nat) (requestId : String) (opening : Opening) :
    Shared × Pc :=
  let writer := shared.nextWriter
  let shared := { shared with nextWriter := writer + 1 }
  let connection := shared.heap id
  if connection.phase ≠ .pending requestId then
    (shared.indexRequest requestId (some id),
      .done (.error (unknownRequest "http:respond_open" requestId)))
  else
    let (written, answer) := writeOn connection (writeBlocking
      (formatChunkedOpen opening.status requestId opening.headers) env.writes)
    match answer with
    | .error e => (shared.set id { written with shut := true }, .drop id (.reply (.error e)))
    | .ok () =>
      (shared.set id { written with phase := .streaming requestId writer }, .openIndex id writer)

/-- Whether the phase is that of an open writer. -/
def Phase.isStreaming (writer : Int) : Phase → Bool
  | .streaming _ current => current == writer
  | _ => false

def chunkStep (env : Env) (shared : Shared) (id : Nat) (writer : Int) (bytes : List UInt8) :
    Shared × Pc :=
  let connection := shared.heap id
  if ¬ connection.phase.isStreaming writer then
    (shared, .done (.error (unknownWriter "http:respond_chunk" writer)))
  else
    let (written, answer) := writeOn connection (writeAllBackpressure
      (shared.listenerIsStopped connection.listener) (formatChunk bytes) env.writes)
    (shared.set id written, .done (answer.map (fun _ => .vacuum)))

def finishStep (env : Env) (shared : Shared) (id : Nat) (writer : Int) (keepAlive : Bool) :
    Shared × Pc :=
  let connection := shared.heap id
  if ¬ connection.phase.isStreaming writer then
    (shared, .done (.error (unknownWriter "http:respond_finish" writer)))
  else
    let (written, answer) := writeOn connection (writeAllBackpressure
      (shared.listenerIsStopped connection.listener) lastChunk env.writes)
    match answer with
    | .error e => (shared.set id written, .done (.error e))
    | .ok () =>
      if keepAlive then
        (shared.set id { written with
          phase := .idle, read := { written.read with idleSince := env.now } }, .done (.ok .vacuum))
      else
        (shared.set id { written with shut := true }, .drop id (.reply (.ok .vacuum)))

/-- Shut a swept connection down and note what its phase refers to. -/
def stopSlotStep (shared : Shared) (handle : Int) (id : Nat) (slots : List Nat)
    (requestIds : List String) (writers : List Int) : Shared × Pc :=
  let connection := shared.heap id
  let shared := shared.set id { connection with shut := true }
  match connection.phase with
  | .idle => (shared, .stopSlots handle slots requestIds writers)
  | .pending requestId => (shared, .stopSlots handle slots (requestIds ++ [requestId]) writers)
  | .streaming requestId writer =>
    (shared, .stopSlots handle slots (requestIds ++ [requestId]) (writers ++ [writer]))

/-- Read what a dropped connection's phase refers to. -/
def forgetStep (shared : Shared) (id : Nat) (after : After) : Pc :=
  match (shared.heap id).phase with
  | .idle => resume after
  | .pending requestId => .forgetRequest requestId none after
  | .streaming requestId writer => .forgetRequest requestId (some writer) after

/-- What a call does under the lock it stands at. -/
def advance (env : Env) (shared : Shared) : Pc → Shared × Pc
  | .listen listener =>
    ({ shared with
        listeners := Function.update shared.listeners shared.nextListener (some listener)
        nextListener := shared.nextListener + 1 },
      .done (.ok (.listener shared.nextListener)))
  | .accept handle =>
    match shared.listeners handle with
    | none => (shared, .done (.error (.invalidArgs s!"http:accept unknown listener {handle}")))
    | some listener => (shared, .acceptCheck handle listener)
  | .acceptCheck handle listener =>
    if env.cancelled then
      (shared, .done (.error .cancelled))
    else if shared.stopped handle then
      (shared, .done (.error (.invalidArgs "http:accept listener is stopped")))
    else
      (shared, .acceptScan handle listener)
  | .acceptScan handle listener =>
    (shared, .acceptPoll handle listener (shared.idleOf handle env.order) [])
  | .acceptPoll handle listener [] closed => (shared, resume (.scan handle listener closed))
  | .acceptPoll handle listener (id :: slots) closed =>
    pollStep env shared handle listener id slots closed
  | .acceptMark id parts => (shared.setPhase id (.pending parts.id), .acceptIndex id parts)
  | .acceptIndex id parts =>
    (shared.indexRequest parts.id (some id), .done (.ok (.request parts id)))
  | .acceptSocket handle listener =>
    match env.incoming with
    | .wouldBlock => (shared, .acceptCheck handle listener)
    | .socket => (shared, .admitRead handle listener)
    | .unclonable e => (shared, .done (.error (.internal s!"http:accept clone failed: {e}")))
    | .failed e => (shared, .done (.error (.internal s!"http:accept failed: {e}")))
  | .admitRead handle listener => admitStep env shared handle listener
  | .admitCheck handle read parts =>
    if shared.stopped handle then
      (shared, .done (.error (.invalidArgs "http:accept listener is stopped")))
    else
      (shared, .admitStore handle read parts)
  | .admitStore handle read parts =>
    ({ shared.set shared.nextConnection ⟨handle, read, .pending parts.id, false, []⟩ with
        connections := shared.nextConnection :: shared.connections
        nextConnection := shared.nextConnection + 1 },
      .admitIndex shared.nextConnection parts)
  | .admitIndex id parts =>
    (shared.indexRequest parts.id (some id), .done (.ok (.request parts id)))
  | .drop id after =>
    if id ∈ shared.connections then
      (shared.unstore id, .forget id after)
    else
      (shared, resume after)
  | .forget id after => (shared, forgetStep shared id after)
  | .forgetRequest requestId writer after =>
    (shared.indexRequest requestId none,
      match writer with
      | none => resume after
      | some writer => .forgetWriter writer after)
  | .forgetWriter writer after => (shared.indexWriter writer none, resume after)
  | .respond requestId response =>
    match shared.requests requestId with
    | none => (shared, .done (.error (unknownRequest "http" requestId)))
    | some id => (shared.indexRequest requestId none, .respondSlot id requestId response)
  | .respondSlot id requestId response =>
    if id ∈ shared.connections then
      (shared.unstore id, .respondWrite id requestId response)
    else
      (shared, .done (.error (unknownConnection id)))
  | .respondWrite id requestId response => respondStep env shared id requestId response
  | .respondOpen requestId opening =>
    match shared.requests requestId with
    | none => (shared, .done (.error (unknownRequest "http" requestId)))
    | some id => (shared.indexRequest requestId none, .openSlot id requestId opening)
  | .openSlot id requestId opening =>
    if id ∈ shared.connections then
      (shared, .openWrite id requestId opening)
    else
      (shared, .done (.error (unknownConnection id)))
  | .openWrite id requestId opening => openStep env shared id requestId opening
  | .openIndex id writer => (shared.indexWriter writer (some id), .done (.ok (.writer writer)))
  | .respondChunk writer bytes =>
    match shared.writers writer with
    | none => (shared, .done (.error (unknownWriter "http:respond_chunk" writer)))
    | some id => (shared, .chunkSlot id writer bytes)
  | .chunkSlot id writer bytes =>
    if id ∈ shared.connections then
      (shared, .chunkWrite id writer bytes)
    else
      (shared, .done (.error (unknownConnection id)))
  | .chunkWrite id writer bytes => chunkStep env shared id writer bytes
  | .respondFinish writer keepAlive =>
    match shared.writers writer with
    | none => (shared, .done (.error (unknownWriter "http:respond_finish" writer)))
    | some id => (shared.indexWriter writer none, .finishSlot id writer keepAlive)
  | .finishSlot id writer keepAlive =>
    if id ∈ shared.connections then
      (shared, .finishWrite id writer keepAlive)
    else
      (shared, .done (.error (unknownConnection id)))
  | .finishWrite id writer keepAlive => finishStep env shared id writer keepAlive
  | .stop handle =>
    match shared.listeners handle with
    | none => (shared, .done (.error (.invalidArgs s!"http:stop unknown listener {handle}")))
    | some _ =>
      ({ shared with listeners := Function.update shared.listeners handle none }, .stopFlag handle)
  | .stopFlag handle =>
    ({ shared with stopped := Function.update shared.stopped handle true }, .stopSweep handle)
  | .stopSweep handle =>
    let swept := shared.connections.filter (fun id => (shared.heap id).listener = handle)
    ({ shared with
        connections := shared.connections.filter (fun id => (shared.heap id).listener ≠ handle) },
      .stopSlots handle swept [] [])
  | .stopSlots handle [] requestIds writers => (shared, .stopRequests handle requestIds writers)
  | .stopSlots handle (id :: slots) requestIds writers =>
    stopSlotStep shared handle id slots requestIds writers
  | .stopRequests handle requestIds writers =>
    ({ shared with requests := fun r => if r ∈ requestIds then none else shared.requests r },
      .stopWriters handle writers)
  | .stopWriters _ writers =>
    ({ shared with writers := fun w => if w ∈ writers then none else shared.writers w },
      .done (.ok .vacuum))
  | .done reply => (shared, .done reply)

end FaberHosts.Http
