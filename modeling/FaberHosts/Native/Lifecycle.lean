import FaberHosts.Native.Shutdown

/-!
# The lifecycle of jobs

What holds in every state of a host, and that a shutdown comes to its end.
-/

namespace FaberHosts.Native
open FaberHosts.Lib FaberHosts.Kernel

variable {host next : Host}

/-! ## Invariants -/

/-- Places, replies and the table are in order. -/
structure Sound (host : Host) : Prop where
  placed : Placed host
  replied : Replied host
  tabled : Tabled host

theorem Sound.step (h : Sound host) (hstep : Step host next) : Sound next where
  placed := h.placed.step hstep
  replied := h.replied.step h.placed hstep
  tabled := h.tabled.step h.placed hstep

theorem Sound.run (h : Sound host) (hrun : Relation.ReflTransGen Step host next) : Sound next := by
  induction hrun with
  | refl => exact h
  | tail _ hstep ih => exact ih.step hstep

theorem sound_of_reachable {workers capacity : Nat} (h : Reachable workers capacity host) :
    Sound host :=
  Sound.run ⟨placed_new workers capacity, replied_new workers capacity,
    tabled_new workers capacity⟩ h

theorem length_workers_step (hstep : Step host next) :
    next.workers.length = host.workers.length := by
  cases hstep
  case internal hstep =>
    cases hstep
    case work i before after next hworker hstep => exact List.length_set
    all_goals rfl
  case enqueue before after job hlock hstarting hsent =>
    cases hsent
    rfl
  all_goals rfl

theorem length_workers_of_reachable {workers capacity : Nat}
    (h : Reachable workers capacity host) : host.workers.length = workers := by
  induction h with
  | refl => exact List.length_replicate
  | tail _ hstep ih => rw [length_workers_step hstep, ih]

/-! ## The end of a shutdown -/

/-- A job queued once the flag is set is refused, however the run goes on. -/
theorem Sound.refusable_run (h : Sound host) (hflag : host.ShuttingDown) {job : NativeJob}
    (hjob : host.Refusable job) {later : Host} (hrun : Relation.ReflTransGen Step host later) :
    later.Refusable job ∨ later.Refused job := by
  have hall : Sound later ∧ later.ShuttingDown ∧ (later.Refusable job ∨ later.Refused job) := by
    induction hrun with
    | refl => exact ⟨h, hflag, Or.inl hjob⟩
    | tail _ hstep ih =>
      obtain ⟨hsound, hdown, hfate⟩ := ih
      refine ⟨hsound.step hstep, shuttingDown_step hdown hstep, ?_⟩
      rcases hfate with hwait | hrefused
      · exact refusable_step hsound.placed hsound.replied hdown hwait hstep
      · exact Or.inr (hrefused.step hstep)
  exact hall.2.2

/-- After the sweep a job waits to be refused, has its answer, or runs cancelled. -/
theorem Sound.swept_job (h : Sound host) (hswept : host.phase = .swept) {job : NativeJob}
    (hjob : job ∈ host.accepted) :
    host.Refusable job ∨ host.Answered job ∨ (∃ worker ∈ host.workers,
      worker.active? = some job) ∧ (host.started ≤ 2 ^ 64 → host.cancelled job.token = true) := by
  have hpast : host.phase.pastLock = true := by rw [hswept]; rfl
  rcases h.replied.accepted job hjob with hqueue | hheld | hanswered
  · exact Or.inl (Or.inl hqueue)
  · obtain ⟨worker, hmem, hat⟩ := List.mem_filterMap.mp hheld
    by_cases hactive : worker.active? = some job
    · refine Or.inr (Or.inr ⟨⟨worker, hmem, hactive⟩, fun hbound => ?_⟩)
      have hentry := h.tabled.entries hbound worker hmem job hactive
      rcases h.tabled.swept _ _ hentry with hcancelled | ⟨tokens, hphase, -⟩ | hearly
      · exact hcancelled
      · rw [hswept] at hphase
        cases hphase
      · rw [hpast] at hearly
        cases hearly
    · left
      right
      refine ⟨worker, hmem, ?_⟩
      cases worker
      case received other =>
        cases hat
        exact Or.inl rfl
      case registering other =>
        cases hat
        exact Or.inr (Or.inl rfl)
      case refusing other =>
        cases hat
        exact Or.inr (Or.inr rfl)
      case inserting other => exact absurd hmem (h.tabled.noInsert hpast other)
      case waiting => cases hat
      case stopped => cases hat
      all_goals exact absurd hat hactive
  · exact Or.inr (Or.inl hanswered)

/-- When all workers have stopped, the table is empty and every caller has its answer. -/
theorem Sound.all_stopped (h : Sound host) (hworkers : host.workers ≠ [])
    (hstopped : ∀ worker ∈ host.workers, worker = .stopped) :
    host.activeJobs = ∅ ∧ ∀ job ∈ host.accepted, host.Answered job := by
  constructor
  · apply eq_empty_of_forall_getElem?
    intro id
    by_contra hsome
    obtain ⟨token, htoken⟩ := Option.ne_none_iff_exists'.mp hsome
    obtain ⟨worker, hmem, job, hactive, -⟩ :=
      h.tabled.keys id ((mem_iff_getElem? _ _).mpr ⟨token, htoken⟩)
    rw [hstopped worker hmem] at hactive
    cases hactive
  · intro job hjob
    rcases h.replied.accepted job hjob with hqueue | hheld | hanswered
    · obtain ⟨worker, hmem⟩ := List.exists_mem_of_ne_nil _ hworkers
      rw [(h.tabled.stopped (hstopped worker hmem ▸ hmem)).1] at hqueue
      cases hqueue
    · obtain ⟨worker, hmem, hat⟩ := List.mem_filterMap.mp hheld
      rw [hstopped worker hmem] at hat
      cases hat
    · exact hanswered

/-! ## Progress -/

/-- How many stages a worker has before it. -/
def Worker.stage : Worker → Nat
  | .stopped => 0
  | .waiting => 1
  | .finishing _ | .refusing _ => 2
  | .answering _ _ => 3
  | .replying _ _ | .sending _ _ _ => 4
  | .dispatching _ => 5
  | .running _ => 6
  | .inserting _ => 7
  | .registering _ => 8
  | .received _ => 9

/-- What a worker still has to send. -/
def Worker.unsent : Worker → Nat
  | .replying _ contents => 2 * contents.length
  | .sending _ _ contents => 2 * contents.length + 1
  | _ => 0

def Phase.rank : Phase → Nat
  | .accepting => 4
  | .flagged => 3
  | .dropped => 2
  | .sweeping _ => 1
  | .swept => 0

def Phase.unswept : Phase → Nat
  | .sweeping tokens => tokens.length
  | _ => 0

/-- What is left to do once the flag is set: phases, then stages and queued jobs, then
    contents and tokens. -/
def Host.rank (host : Host) : Nat × Nat × Nat :=
  (host.phase.rank, 10 * host.queue.length + (host.workers.map Worker.stage).sum,
    (host.workers.map Worker.unsent).sum + host.phase.unswept)

/-- The lexicographic order of ranks. -/
def RankLt : Nat × Nat × Nat → Nat × Nat × Nat → Prop :=
  Prod.Lex (· < ·) (Prod.Lex (· < ·) (· < ·))

theorem rankLt_wellFounded : WellFounded RankLt :=
  wellFounded_lt.prod_lex (wellFounded_lt.prod_lex wellFounded_lt)

theorem WorkerStep.rank_lt {before after : Worker} (h : WorkerStep host before after next) :
    10 * next.queue.length + after.stage < 10 * host.queue.length + before.stage ∨
      10 * next.queue.length + after.stage = 10 * host.queue.length + before.stage ∧
        after.unsent < before.unsent := by
  cases h
  case receive job rest hqueue =>
    left
    simp [hqueue, Worker.stage]
    omega
  case dispatched job outcome =>
    left
    unfold afterDispatch
    split <;> simp [Worker.stage]
  case replyNext job content contents hcancelled =>
    right
    simp [Worker.stage, Worker.unsent]
    omega
  case sendOpen job content contents hclosed =>
    right
    simp [Worker.stage, Worker.unsent]
  all_goals
    left
    simp [Worker.stage]

theorem rank_internal (h : InternalStep host next) :
    RankLt next.rank host.rank := by
  unfold RankLt Host.rank
  cases h
  case work i before after next hworker hstep =>
    have hphase := hstep.sameOutside.phase
    have hstages := sum_map_set after Worker.stage hworker
    have hunsent := sum_map_set after Worker.unsent hworker
    simp only [hphase]
    apply Prod.Lex.right
    rcases hstep.rank_lt with hlt | ⟨heq, hlt⟩
    · apply Prod.Lex.left
      omega
    · have hsame : 10 * next.queue.length + ((host.workers.set i after).map Worker.stage).sum =
          10 * host.queue.length + (host.workers.map Worker.stage).sum := by
        omega
      rw [hsame]
      apply Prod.Lex.right
      omega
  case dropSender hphase =>
    apply Prod.Lex.left
    simp [hphase, Phase.rank]
  case lockActive hphase hfree =>
    apply Prod.Lex.left
    simp [hphase, Phase.rank]
  case cancelActive token tokens hphase =>
    simp only [hphase]
    apply Prod.Lex.right
    apply Prod.Lex.right
    simp [Phase.unswept]
  case unlockActive hphase =>
    apply Prod.Lex.left
    simp [hphase, Phase.rank]

theorem rank_step (hflag : host.ShuttingDown) (h : Step host next) :
    RankLt next.rank host.rank ∨ next.rank = host.rank := by
  cases h
  case internal hstep => exact Or.inl (rank_internal hstep)
  case enqueue before after job hlock hstarting hsent =>
    cases hsent
    case sent hopen hsender hroom => exact absurd hflag hopen
  case beginShutdown hphase => exact absurd hphase hflag
  all_goals exact Or.inr rfl

theorem worker_progress (hflag : host.ShuttingDown) (hdropped : host.senderDropped = true)
    (hfree : host.ActiveFree) {worker : Worker} (hnot : worker ≠ .stopped) :
    ∃ after next, WorkerStep host worker after next := by
  cases worker
  case waiting =>
    cases hqueue : host.queue with
    | nil => exact ⟨_, _, .hangUp hqueue hdropped⟩
    | cons job rest => exact ⟨_, _, .receive hqueue⟩
  case received job => exact ⟨_, _, .seeShutdown job hflag⟩
  case registering job => exact ⟨_, _, .checkShutdown job hfree hflag⟩
  case inserting job => exact ⟨_, _, .insert job⟩
  case refusing job => exact ⟨_, _, .refuse job⟩
  case running job =>
    cases hcancelled : host.cancelled job.token with
    | true => exact ⟨_, _, .runCancelled job hcancelled⟩
    | false => exact ⟨_, _, .runDispatch job hcancelled⟩
  case dispatching job => exact ⟨_, _, .dispatched job none⟩
  case replying job contents =>
    cases hcancelled : host.cancelled job.token with
    | true => exact ⟨_, _, .replyCancelled job contents hcancelled⟩
    | false =>
      cases contents with
      | nil => exact ⟨_, _, .replyDone job hcancelled⟩
      | cons content contents => exact ⟨_, _, .replyNext job content contents hcancelled⟩
  case sending job content contents =>
    cases hclosed : host.closed job.serial with
    | true => exact ⟨_, _, .sendClosed job content contents hclosed⟩
    | false => exact ⟨_, _, .sendOpen job content contents hclosed⟩
  case answering job frame => exact ⟨_, _, .answer job frame⟩
  case finishing job => exact ⟨_, _, .unregister job hfree⟩
  case stopped => exact absurd rfl hnot

/-- Once the flag is set, the host can go on until all workers have stopped. -/
theorem host_progress (hflag : host.ShuttingDown)
    (hrunning : ∃ worker ∈ host.workers, worker ≠ .stopped) :
    ∃ next, InternalStep host next := by
  by_cases hinserting : ∃ job, Worker.inserting job ∈ host.workers
  · obtain ⟨job, hmem⟩ := hinserting
    obtain ⟨i, hi⟩ := List.getElem?_of_mem hmem
    exact ⟨_, .work i hi (.insert job)⟩
  · push Not at hinserting
    cases hphase : host.phase with
    | accepting => exact absurd hphase hflag
    | flagged => exact ⟨_, .dropSender hphase⟩
    | dropped => exact ⟨_, .lockActive hphase ⟨hinserting, by simp [hphase]⟩⟩
    | sweeping tokens =>
      cases tokens with
      | nil => exact ⟨_, .unlockActive hphase⟩
      | cons token tokens => exact ⟨_, .cancelActive hphase⟩
    | swept =>
      obtain ⟨worker, hmem, hnot⟩ := hrunning
      obtain ⟨i, hi⟩ := List.getElem?_of_mem hmem
      have hdropped : host.senderDropped = true := by
        unfold Host.senderDropped
        rw [hphase]
      obtain ⟨after, next, hstep⟩ :=
        worker_progress hflag hdropped ⟨hinserting, by simp [hphase]⟩ hnot
      exact ⟨_, .work i hi hstep⟩

/-! ## Jobs from start to answer -/

/-- One worker, and a job that is queued when the flag is set. -/
def queuedHost : Host :=
  { Host.new 1 4 with
    phase := .flagged, started := 1, nextJobId := 1, queue := [⟨0, 0, 7⟩], accepted := [⟨0, 0, 7⟩] }

theorem reachable_queuedHost : Reachable 1 4 queuedHost := by
  have hstart : Reachable 1 4 { Host.new 1 4 with
      started := 1, nextJobId := 1, starting := [⟨0, 0, 7⟩] } :=
    Relation.ReflTransGen.refl.tail (.start 7)
  have hroom : ({ Host.new 1 4 with started := 1, nextJobId := 1 } : Host).HasRoom :=
    Or.inl (by decide)
  have hqueued : Reachable 1 4 { queuedHost with phase := .accepting } :=
    hstart.tail (@Step.enqueue _ [] [] ⟨0, 0, 7⟩ _ (by decide) rfl
      (.sent (by decide) rfl hroom))
  exact hqueued.tail (.beginShutdown rfl)

end FaberHosts.Native
