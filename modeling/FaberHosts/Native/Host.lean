import FaberHosts.Kernel.Registry

/-!
# The native host

`host-native/src/lib.rs`: callers put jobs on a bounded queue, workers take them
off, and a shutdown refuses what is queued and cancels what is active.  A step is
one access to what the threads share: the queue, the shutdown flag, the table of
active jobs under its lock, a cancellation token or a reply channel.
-/

namespace FaberHosts.Native
open FaberHosts.Lib FaberHosts.Kernel

/-! ## Jobs and frames -/

/-- A job.  `serial` counts the calls of `start`, `id` is what the counter gave it,
    and `token` names the cancellation its caller holds. -/
structure NativeJob where
  serial : Nat
  id : UInt64
  token : Nat
  deriving DecidableEq, Repr

inductive Frame where
  | content (data : ProviderContent)
  | done
  | cancel
  | error (e : HostError)

def Frame.isTerminal : Frame → Bool
  | .content _ => false
  | _ => true

structure DispatchError where
  issue : String
  message : String
  deriving DecidableEq, Repr

/-- The error of a job that a worker refuses. -/
def shuttingDownError : HostError :=
  ⟨"host_shutting_down", "native host is shutting down", false⟩

/-! ## Workers -/

/-- Where a worker is in `run_worker` and `run_job`. -/
inductive Worker where
  | waiting
  | received (job : NativeJob)
  | registering (job : NativeJob)
  | inserting (job : NativeJob)
  | refusing (job : NativeJob)
  | running (job : NativeJob)
  | dispatching (job : NativeJob)
  | replying (job : NativeJob) (contents : List ProviderContent)
  | sending (job : NativeJob) (content : ProviderContent) (contents : List ProviderContent)
  | answering (job : NativeJob) (frame : Frame)
  | finishing (job : NativeJob)
  | stopped

/-- How far `begin_shutdown` is: the flag is set under the queue lock, the sender is
    dropped with that lock, and the table is swept under its own. -/
inductive Phase where
  | accepting
  | flagged
  | dropped
  | sweeping (tokens : List Nat)
  | swept
  deriving DecidableEq, Repr

structure Host where
  capacity : Nat
  phase : Phase
  started : Nat
  nextJobId : UInt64
  starting : List NativeJob
  queue : List NativeJob
  workers : List Worker
  activeJobs : BTreeMap UInt64 Nat
  cancelled : Nat → Bool
  /-- What the caller of a job has received. -/
  frames : Nat → List Frame
  /-- The caller of a job has dropped its end of the reply channel. -/
  closed : Nat → Bool
  accepted : List NativeJob

namespace Host

def new (workers capacity : Nat) : Host where
  capacity := capacity
  phase := .accepting
  started := 0
  nextJobId := 0
  starting := []
  queue := []
  workers := List.replicate workers .waiting
  activeJobs := ∅
  cancelled := fun _ => false
  frames := fun _ => []
  closed := fun _ => false
  accepted := []

def ShuttingDown (host : Host) : Prop := host.phase ≠ .accepting

instance (host : Host) : Decidable host.ShuttingDown :=
  inferInstanceAs (Decidable (host.phase ≠ .accepting))

def senderDropped (host : Host) : Bool :=
  match host.phase with
  | .accepting | .flagged => false
  | .dropped | .sweeping _ | .swept => true

/-- The lock of the active jobs is free: no worker is between its check and its
    insertion, and no shutdown is sweeping. -/
structure ActiveFree (host : Host) : Prop where
  workers : ∀ job, Worker.inserting job ∉ host.workers
  phase : ∀ tokens, host.phase ≠ .sweeping tokens

/-- `try_send` finds room, or a receiver waiting for a channel without a buffer. -/
def HasRoom (host : Host) : Prop :=
  host.queue.length < host.capacity ∨
    host.capacity = 0 ∧ host.queue = [] ∧ ∃ worker ∈ host.workers, worker = .waiting

/-- Send a frame; nothing arrives on a closed channel. -/
def send (host : Host) (job : NativeJob) (frame : Frame) : Host :=
  if host.closed job.serial then host
  else
    { host with
      frames := Function.update host.frames job.serial (host.frames job.serial ++ [frame]) }

end Host

/-- The outcome of `enqueue_job`, under the queue lock. -/
inductive Enqueued (host : Host) (job : NativeJob) : Except DispatchError Host → Prop where
  | shuttingDown (hflag : host.ShuttingDown) :
    Enqueued host job (.error ⟨"host_shutting_down", "native host is shutting down"⟩)
  | noQueue (hopen : ¬ host.ShuttingDown) (hdropped : host.senderDropped = true) :
    Enqueued host job (.error ⟨"host_shutting_down", "native host is shutting down"⟩)
  | full (hopen : ¬ host.ShuttingDown) (hsender : host.senderDropped = false)
    (hfull : ¬ host.HasRoom) :
    Enqueued host job (.error ⟨"host_queue_saturated", "native host worker queue is saturated"⟩)
  | sent (hopen : ¬ host.ShuttingDown) (hsender : host.senderDropped = false)
    (hroom : host.HasRoom) :
    Enqueued host job (.ok { host with
      queue := host.queue ++ [job], accepted := host.accepted ++ [job] })

/-- What a worker does with the outcome of the dispatch; `none` is a panic. -/
def afterDispatch (job : NativeJob) : MayPanic (Except HostError ProviderReply) → Worker
  | some (.ok reply) => .replying job reply.contents
  | some (.error e) => .answering job (if e.code = "E_CANCELLED" then .cancel else .error e)
  | none => .answering job (.error .providerPanic)

/-- One step of a worker, with the host after it but for the worker itself. -/
inductive WorkerStep (host : Host) : Worker → Worker → Host → Prop where
  | receive {job : NativeJob} {rest : List NativeJob} (hqueue : host.queue = job :: rest) :
    WorkerStep host .waiting (.received job) { host with queue := rest }
  | hangUp (hqueue : host.queue = []) (hdropped : host.senderDropped = true) :
    WorkerStep host .waiting .stopped host
  | seeShutdown (job : NativeJob) (hflag : host.ShuttingDown) :
    WorkerStep host (.received job) (.refusing job) host
  | seeOpen (job : NativeJob) (hflag : ¬ host.ShuttingDown) :
    WorkerStep host (.received job) (.registering job) host
  | checkShutdown (job : NativeJob) (hfree : host.ActiveFree) (hflag : host.ShuttingDown) :
    WorkerStep host (.registering job) (.refusing job) host
  | checkOpen (job : NativeJob) (hfree : host.ActiveFree) (hflag : ¬ host.ShuttingDown) :
    WorkerStep host (.registering job) (.inserting job) host
  | insert (job : NativeJob) :
    WorkerStep host (.inserting job) (.running job)
      { host with activeJobs := host.activeJobs.insert job.id job.token }
  | runCancelled (job : NativeJob) (hcancelled : host.cancelled job.token = true) :
    WorkerStep host (.running job) (.answering job .cancel) host
  | runDispatch (job : NativeJob) (hcancelled : host.cancelled job.token = false) :
    WorkerStep host (.running job) (.dispatching job) host
  | dispatched (job : NativeJob) (outcome : MayPanic (Except HostError ProviderReply)) :
    WorkerStep host (.dispatching job) (afterDispatch job outcome) host
  | replyCancelled (job : NativeJob) (contents : List ProviderContent)
    (hcancelled : host.cancelled job.token = true) :
    WorkerStep host (.replying job contents) (.answering job .cancel) host
  | replyNext (job : NativeJob) (content : ProviderContent) (contents : List ProviderContent)
    (hcancelled : host.cancelled job.token = false) :
    WorkerStep host (.replying job (content :: contents)) (.sending job content contents) host
  | replyDone (job : NativeJob) (hcancelled : host.cancelled job.token = false) :
    WorkerStep host (.replying job []) (.answering job .done) host
  | sendClosed (job : NativeJob) (content : ProviderContent) (contents : List ProviderContent)
    (hclosed : host.closed job.serial = true) :
    WorkerStep host (.sending job content contents) (.finishing job) host
  | sendOpen (job : NativeJob) (content : ProviderContent) (contents : List ProviderContent)
    (hclosed : host.closed job.serial = false) :
    WorkerStep host (.sending job content contents) (.replying job contents)
      (host.send job (.content content))
  | answer (job : NativeJob) (frame : Frame) :
    WorkerStep host (.answering job frame) (.finishing job) (host.send job frame)
  | unregister (job : NativeJob) (hfree : host.ActiveFree) :
    WorkerStep host (.finishing job) .waiting
      { host with activeJobs := host.activeJobs.erase job.id }
  | refuse (job : NativeJob) :
    WorkerStep host (.refusing job) .waiting (host.send job (.error shuttingDownError))

/-- The steps of the workers and of the thread that shuts down. -/
inductive InternalStep (host : Host) : Host → Prop where
  | work (i : Nat) {before after : Worker} {next : Host} (hworker : host.workers[i]? = some before)
    (hstep : WorkerStep host before after next) :
    InternalStep host { next with workers := host.workers.set i after }
  | dropSender (hphase : host.phase = .flagged) :
    InternalStep host { host with phase := .dropped }
  | lockActive (hphase : host.phase = .dropped) (hfree : host.ActiveFree) :
    InternalStep host
      { host with phase := .sweeping (host.activeJobs.toList.map Prod.snd) }
  | cancelActive {token : Nat} {tokens : List Nat}
    (hphase : host.phase = .sweeping (token :: tokens)) :
    InternalStep host
      { host with
        phase := .sweeping tokens, cancelled := Function.update host.cancelled token true }
  | unlockActive (hphase : host.phase = .sweeping []) :
    InternalStep host { host with phase := .swept }

/-- Any step: of a caller, of the threads of the host, or of whoever holds a token or
    a reply channel.  `begin_shutdown` may begin at any time; a later call of it finds
    the flag set and does nothing. -/
inductive Step (host : Host) : Host → Prop where
  | internal {next : Host} (hstep : InternalStep host next) : Step host next
  | start (token : Nat) :
    Step host { host with
      started := host.started + 1
      nextJobId := host.nextJobId + 1
      starting := ⟨host.started, host.nextJobId, token⟩ :: host.starting }
  | enqueue {before after : List NativeJob} {job : NativeJob} {next : Host}
    (hlock : host.phase ≠ .flagged) (hstarting : host.starting = before ++ job :: after)
    (hsent : Enqueued { host with starting := before ++ after } job (.ok next)) : Step host next
  | enqueueFailed {before after : List NativeJob} {job : NativeJob} {e : DispatchError}
    (hlock : host.phase ≠ .flagged) (hstarting : host.starting = before ++ job :: after)
    (hfailed : Enqueued { host with starting := before ++ after } job (.error e)) :
    Step host { host with starting := before ++ after }
  | beginShutdown (hphase : host.phase = .accepting) : Step host { host with phase := .flagged }
  | requestCancel (token : Nat) :
    Step host { host with cancelled := Function.update host.cancelled token true }
  | closeReplies (serial : Nat) :
    Step host { host with closed := Function.update host.closed serial true }

/-- The states of a host with a number of workers and a queue capacity. -/
def Reachable (workers capacity : Nat) (host : Host) : Prop :=
  Relation.ReflTransGen Step (Host.new workers capacity) host

end FaberHosts.Native
