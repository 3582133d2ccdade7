import FaberHosts.Lib.Threads
import FaberHosts.Native.Host

/-!
# Where jobs are

A job is with its caller, on the queue or held by a worker, and never in two of
these places.
-/

namespace FaberHosts.Native
open FaberHosts.Lib FaberHosts.Kernel

namespace Worker

/-- The job a worker holds. -/
def job? : Worker → Option NativeJob
  | .waiting | .stopped => none
  | .received job | .registering job | .inserting job | .refusing job | .running job
  | .dispatching job | .replying job _ | .sending job _ _ | .answering job _ | .finishing job =>
    some job

/-- The job a worker has in the table of active jobs. -/
def active? : Worker → Option NativeJob
  | .running job | .dispatching job | .replying job _ | .sending job _ _ | .answering job _
  | .finishing job => some job
  | _ => none

theorem job?_of_active? {worker : Worker} {job : NativeJob} (h : worker.active? = some job) :
    worker.job? = some job := by
  cases worker <;> simp_all [active?, job?]

theorem job?_afterDispatch (job : NativeJob)
    (outcome : MayPanic (Except HostError ProviderReply)) :
    (afterDispatch job outcome).job? = some job := by
  unfold afterDispatch
  split <;> rfl

theorem active?_afterDispatch (job : NativeJob)
    (outcome : MayPanic (Except HostError ProviderReply)) :
    (afterDispatch job outcome).active? = some job := by
  unfold afterDispatch
  split <;> rfl

end Worker

namespace Host

/-- The jobs the workers hold. -/
def held (host : Host) : List NativeJob := host.workers.filterMap Worker.job?

/-- The jobs that are somewhere in the host. -/
def located (host : Host) : List NativeJob := host.starting ++ host.queue ++ host.held

section Send

variable (host : Host) (job : NativeJob) (frame : Frame)

@[simp] theorem send_capacity : (host.send job frame).capacity = host.capacity := by
  unfold send; split <;> rfl

@[simp] theorem send_phase : (host.send job frame).phase = host.phase := by
  unfold send; split <;> rfl

@[simp] theorem send_started : (host.send job frame).started = host.started := by
  unfold send; split <;> rfl

@[simp] theorem send_nextJobId : (host.send job frame).nextJobId = host.nextJobId := by
  unfold send; split <;> rfl

@[simp] theorem send_starting : (host.send job frame).starting = host.starting := by
  unfold send; split <;> rfl

@[simp] theorem send_queue : (host.send job frame).queue = host.queue := by
  unfold send; split <;> rfl

@[simp] theorem send_workers : (host.send job frame).workers = host.workers := by
  unfold send; split <;> rfl

@[simp] theorem send_activeJobs : (host.send job frame).activeJobs = host.activeJobs := by
  unfold send; split <;> rfl

@[simp] theorem send_cancelled : (host.send job frame).cancelled = host.cancelled := by
  unfold send; split <;> rfl

@[simp] theorem send_closed : (host.send job frame).closed = host.closed := by
  unfold send; split <;> rfl

@[simp] theorem send_accepted : (host.send job frame).accepted = host.accepted := by
  unfold send; split <;> rfl

theorem send_frames_of_ne {serial : Nat} (hne : serial ≠ job.serial) :
    (host.send job frame).frames serial = host.frames serial := by
  unfold send
  split
  · rfl
  · exact Function.update_of_ne hne _ _

theorem send_frames_of_open (hopen : host.closed job.serial = false) :
    (host.send job frame).frames job.serial = host.frames job.serial ++ [frame] := by
  unfold send
  rw [hopen]
  exact Function.update_self _ _ _

theorem send_of_closed (hclosed : host.closed job.serial = true) :
    host.send job frame = host := by
  unfold send
  rw [if_pos hclosed]

end Send

end Host

/-! ## What a worker's step changes -/

section WorkerStep

variable {host next : Host} {before after : Worker}

/-- What the step of a worker leaves as it was. -/
structure SameOutside (host next : Host) : Prop where
  phase : next.phase = host.phase
  started : next.started = host.started
  nextJobId : next.nextJobId = host.nextJobId
  starting : next.starting = host.starting
  cancelled : next.cancelled = host.cancelled
  closed : next.closed = host.closed
  accepted : next.accepted = host.accepted

theorem WorkerStep.sameOutside (h : WorkerStep host before after next) :
    SameOutside host next := by
  cases h <;> constructor <;> simp

/-- A worker takes a job off the queue, keeps the one it holds, or lets it go. -/
theorem WorkerStep.jobs (h : WorkerStep host before after next) :
    (∃ job rest, host.queue = job :: rest ∧ next.queue = rest ∧ before = .waiting ∧
      after = .received job) ∨
    (next.queue = host.queue ∧ after.job? = before.job?) ∨
    ∃ job, next.queue = host.queue ∧ before.job? = some job ∧ after = .waiting ∧
      (before = .finishing job ∨ before = .refusing job) := by
  cases h
  case receive job rest hqueue => exact Or.inl ⟨job, rest, hqueue, rfl, rfl, rfl⟩
  case unregister job hfree => exact Or.inr (Or.inr ⟨job, rfl, rfl, rfl, Or.inl rfl⟩)
  case refuse job => exact Or.inr (Or.inr ⟨job, by simp, rfl, rfl, Or.inr rfl⟩)
  case dispatched job outcome =>
    exact Or.inr (Or.inl ⟨rfl, Worker.job?_afterDispatch job outcome⟩)
  all_goals exact Or.inr (Or.inl ⟨by simp, by simp [Worker.job?]⟩)

theorem WorkerStep.table (h : WorkerStep host before after next) :
    (next.activeJobs = host.activeJobs ∧ after.active? = before.active?) ∨
    (∃ job, before = .inserting job ∧ after = .running job ∧
      next.activeJobs = host.activeJobs.insert job.id job.token) ∨
    ∃ job, before = .finishing job ∧ after = .waiting ∧ host.ActiveFree ∧
      next.activeJobs = host.activeJobs.erase job.id := by
  cases h
  case insert job => exact Or.inr (Or.inl ⟨job, rfl, rfl, rfl⟩)
  case unregister job hfree => exact Or.inr (Or.inr ⟨job, rfl, rfl, hfree, rfl⟩)
  case dispatched job outcome => exact Or.inl ⟨rfl, Worker.active?_afterDispatch job outcome⟩
  all_goals exact Or.inl ⟨by simp, by simp [Worker.active?]⟩

theorem WorkerStep.frames (h : WorkerStep host before after next) :
    next.frames = host.frames ∨ ∃ job frame, before.job? = some job ∧
      next.frames = (host.send job frame).frames := by
  cases h
  case sendOpen job content contents hclosed => exact Or.inr ⟨job, .content content, rfl, rfl⟩
  case answer job frame => exact Or.inr ⟨job, frame, rfl, rfl⟩
  case refuse job => exact Or.inr ⟨job, _, rfl, rfl⟩
  all_goals exact Or.inl rfl

theorem WorkerStep.frames_of_ne (h : WorkerStep host before after next) {serial : Nat}
    (hne : ∀ job, before.job? = some job → job.serial ≠ serial) :
    next.frames serial = host.frames serial := by
  rcases h.frames with hsame | ⟨job, frame, hjob, hsent⟩
  · rw [hsame]
  · rw [hsent, Host.send_frames_of_ne host job frame (hne job hjob).symm]

end WorkerStep

/-! ## Places -/

/-- No job is in two places, and jobs carry the number of their start. -/
structure Placed (host : Host) : Prop where
  distinct : (host.located.map NativeJob.serial).Nodup
  started : ∀ job ∈ host.located, job.serial < host.started
  accepted : ∀ job ∈ host.accepted, job.serial < host.started
  ids : ∀ job ∈ host.located, job.id = UInt64.ofNat job.serial
  nextJobId : host.nextJobId = UInt64.ofNat host.started

section Located

variable {host next : Host}

theorem WorkerStep.located_subperm {i : Nat} {before after : Worker}
    (hworker : host.workers[i]? = some before) (h : WorkerStep host before after next) :
    ({ next with workers := host.workers.set i after } : Host).located.Subperm host.located := by
  have hperm := perm_filterMap_set Worker.job? after hworker
  unfold Host.located Host.held
  rw [h.sameOutside.starting]
  rcases h.jobs with ⟨job, rest, hqueue, hrest, rfl, rfl⟩ | ⟨hqueue, hjob⟩ |
    ⟨job, hqueue, hjob, rfl, -⟩
  · have htaken : List.Perm (job :: host.workers.filterMap Worker.job?)
        ((host.workers.set i (.received job)).filterMap Worker.job?) := hperm
    rw [hqueue, hrest, List.append_assoc, List.append_assoc]
    apply List.Perm.subperm
    apply List.Perm.append_left
    rw [List.cons_append]
    exact (htaken.symm.append_left rest).trans List.perm_middle
  · rw [hqueue, filterMap_set_of_eq hworker hjob]
  · have hdropped : List.Perm (host.workers.filterMap Worker.job?)
        (job :: (host.workers.set i .waiting).filterMap Worker.job?) := by
      rw [hjob] at hperm
      exact hperm
    rw [hqueue]
    apply (List.subperm_append_left _).mpr
    exact (List.sublist_cons_self _ _).subperm.trans hdropped.symm.subperm

/-- Jobs move between places and leave them; new ones come only by a start. -/
theorem located_step (h : Step host next) :
    (∃ token, next.located = ⟨host.started, host.nextJobId, token⟩ :: host.located ∧
      next.started = host.started + 1 ∧ next.nextJobId = host.nextJobId + 1 ∧
      next.accepted = host.accepted) ∨
    (next.located.Subperm host.located ∧ next.started = host.started ∧
      next.nextJobId = host.nextJobId ∧
      ∀ job ∈ next.accepted, job ∈ host.accepted ∨ job ∈ host.starting) := by
  cases h
  case internal hstep =>
    right
    cases hstep
    case work i before after next hworker hstep =>
      have hsame := hstep.sameOutside
      refine ⟨hstep.located_subperm hworker, hsame.started, hsame.nextJobId, ?_⟩
      intro job hjob
      exact Or.inl (hsame.accepted ▸ hjob)
    all_goals exact ⟨List.Subperm.refl _, rfl, rfl, fun job hjob => Or.inl hjob⟩
  case start token => exact Or.inl ⟨token, rfl, rfl, rfl, rfl⟩
  case enqueue before after job hlock hstarting hsent =>
    right
    cases hsent
    refine ⟨?_, rfl, rfl, ?_⟩
    · unfold Host.located Host.held
      rw [hstarting]
      apply List.Perm.subperm
      apply List.Perm.append_right
      simp only [List.append_assoc, List.cons_append]
      refine List.Perm.append_left _ ?_
      exact (List.append_assoc _ _ _ ▸ List.perm_append_singleton job (after ++ host.queue))
    · intro other hother
      rcases List.mem_append.mp hother with hold | hnew
      · exact Or.inl hold
      · rw [hstarting, List.mem_singleton.mp hnew]
        exact Or.inr (by simp)
  case enqueueFailed before after job e hlock hstarting hfailed =>
    right
    refine ⟨?_, rfl, rfl, fun other hother => Or.inl hother⟩
    unfold Host.located Host.held
    rw [hstarting]
    apply List.Sublist.subperm
    refine List.Sublist.append_right (List.Sublist.append_right ?_ _) _
    exact List.Sublist.append_left (List.sublist_cons_self _ _) _
  all_goals exact Or.inr ⟨List.Subperm.refl _, rfl, rfl, fun job hjob => Or.inl hjob⟩

theorem placed_new (workers capacity : Nat) : Placed (Host.new workers capacity) := by
  have hlocated : (Host.new workers capacity).located = [] := by
    simp [Host.located, Host.held, Host.new, Worker.job?]
  refine ⟨?_, ?_, ?_, ?_, rfl⟩
  · simp [hlocated]
  · simp [hlocated]
  · simp [Host.new]
  · simp [hlocated]

theorem Placed.step (hplaced : Placed host) (h : Step host next) : Placed next := by
  rcases located_step h with ⟨token, hlocated, hstarted, hnext, haccepted⟩ |
    ⟨hsub, hstarted, hnext, haccepted⟩
  · refine ⟨?_, ?_, ?_, ?_, ?_⟩
    · rw [hlocated, List.map_cons, List.nodup_cons]
      refine ⟨?_, hplaced.distinct⟩
      intro hmem
      obtain ⟨job, hjob, heq⟩ := List.mem_map.mp hmem
      exact absurd (hplaced.started job hjob) (by simp [heq])
    · rw [hlocated, hstarted]
      intro job hjob
      rcases List.mem_cons.mp hjob with rfl | hold
      · exact Nat.lt_succ_self _
      · exact Nat.lt_succ_of_lt (hplaced.started job hold)
    · rw [haccepted, hstarted]
      exact fun job hjob => Nat.lt_succ_of_lt (hplaced.accepted job hjob)
    · rw [hlocated]
      intro job hjob
      rcases List.mem_cons.mp hjob with rfl | hold
      · exact hplaced.nextJobId
      · exact hplaced.ids job hold
    · rw [hnext, hstarted, hplaced.nextJobId, UInt64.ofNat_add]
      rfl
  · have hmem : ∀ job ∈ next.located, job ∈ host.located := fun job hjob => hsub.subset hjob
    refine ⟨?_, ?_, ?_, ?_, ?_⟩
    · obtain ⟨l, hperm, hsublist⟩ := hsub
      have hdistinct := hplaced.distinct.sublist (hsublist.map NativeJob.serial)
      exact (hperm.map NativeJob.serial).nodup_iff.mp hdistinct
    · rw [hstarted]
      exact fun job hjob => hplaced.started job (hmem job hjob)
    · rw [hstarted]
      intro job hjob
      rcases haccepted job hjob with hold | hnew
      · exact hplaced.accepted job hold
      · exact hplaced.started job (by simp [Host.located, hnew])
    · exact fun job hjob => hplaced.ids job (hmem job hjob)
    · rw [hnext, hstarted]
      exact hplaced.nextJobId

end Located

end FaberHosts.Native
