import FaberHosts.Native.Places

/-!
# What callers receive

The caller of a job receives contents and then one terminal frame, and nothing
more after it.
-/

namespace FaberHosts.Native
open FaberHosts.Lib FaberHosts.Kernel

/-- No terminal frame yet. -/
def Unanswered (frames : List Frame) : Prop := ∀ frame ∈ frames, frame.isTerminal = false

/-- Exactly one terminal frame, and no frame after it. -/
def AnsweredOnce (frames : List Frame) : Prop :=
  ∃ contents terminal, frames = contents ++ [terminal] ∧ Unanswered contents ∧
    terminal.isTerminal = true

theorem unanswered_nil : Unanswered [] := by simp [Unanswered]

theorem Unanswered.append {frames : List Frame} {data : ProviderContent} (h : Unanswered frames) :
    Unanswered (frames ++ [.content data]) := by
  intro frame hframe
  rcases List.mem_append.mp hframe with hold | hnew
  · exact h frame hold
  · rw [List.mem_singleton.mp hnew]
    rfl

theorem Unanswered.answer {frames : List Frame} {terminal : Frame} (h : Unanswered frames)
    (hterminal : terminal.isTerminal = true) : AnsweredOnce (frames ++ [terminal]) :=
  ⟨frames, terminal, rfl, h, hterminal⟩

namespace Host

/-- The caller of a job has its terminal frame, or has stopped listening. -/
def Answered (host : Host) (job : NativeJob) : Prop :=
  host.closed job.serial = true ∨ AnsweredOnce (host.frames job.serial)

/-- What the caller has received fits where the worker of the job is. -/
def Fits (host : Host) : Worker → Prop
  | .waiting | .stopped => True
  | .received job | .registering job | .inserting job | .refusing job | .running job
  | .dispatching job => host.frames job.serial = []
  | .replying job _ | .sending job _ _ => Unanswered (host.frames job.serial)
  | .answering job frame => Unanswered (host.frames job.serial) ∧ frame.isTerminal = true
  | .finishing job => host.Answered job

section Fits

variable {host next : Host} {worker : Worker} {job : NativeJob} {frame : Frame}

theorem Answered.mono (hframes : next.frames job.serial = host.frames job.serial)
    (hclosed : ∀ serial, host.closed serial = true → next.closed serial = true)
    (h : host.Answered job) : next.Answered job := by
  rcases h with hc | hanswered
  · exact Or.inl (hclosed _ hc)
  · exact Or.inr (hframes ▸ hanswered)

theorem Fits.mono
    (hframes : ∀ job, worker.job? = some job → next.frames job.serial = host.frames job.serial)
    (hclosed : ∀ serial, host.closed serial = true → next.closed serial = true)
    (h : host.Fits worker) : next.Fits worker := by
  cases worker
  case waiting => trivial
  case stopped => trivial
  case finishing job => exact Answered.mono (hframes job rfl) hclosed h
  all_goals
    simp only [Fits] at h ⊢
    rw [hframes _ rfl]
    exact h

theorem answered_send (h : Unanswered (host.frames job.serial)) (hterminal : frame.isTerminal = true) :
    (host.send job frame).Answered job := by
  cases hclosed : host.closed job.serial with
  | true =>
    rw [send_of_closed host job frame hclosed]
    exact Or.inl hclosed
  | false =>
    right
    rw [send_frames_of_open host job frame hclosed]
    exact h.answer hterminal

theorem fits_afterDispatch (h : host.frames job.serial = [])
    (outcome : MayPanic (Except HostError ProviderReply)) :
    host.Fits (afterDispatch job outcome) := by
  unfold afterDispatch
  split
  · simp only [Fits, h]
    exact unanswered_nil
  next e =>
    simp only [Fits, h]
    refine ⟨unanswered_nil, ?_⟩
    split <;> rfl
  · simp only [Fits, h]
    exact ⟨unanswered_nil, rfl⟩

end Fits

end Host

theorem WorkerStep.fits {host next : Host} {before after : Worker}
    (h : WorkerStep host before after next)
    (hqueue : ∀ job ∈ host.queue, host.frames job.serial = []) (hfits : host.Fits before) :
    next.Fits after := by
  cases h
  case receive job rest hq => exact hqueue job (hq ▸ List.mem_cons_self)
  case dispatched job outcome => exact Host.fits_afterDispatch hfits outcome
  case runCancelled job hcancelled =>
    refine ⟨?_, rfl⟩
    rw [show host.frames job.serial = [] from hfits]
    exact unanswered_nil
  case replyCancelled job contents hcancelled => exact ⟨hfits, rfl⟩
  case replyDone job hcancelled => exact ⟨hfits, rfl⟩
  case sendClosed job content contents hclosed => exact Or.inl hclosed
  case sendOpen job content contents hclosed =>
    show Unanswered _
    rw [Host.send_frames_of_open host job _ hclosed]
    exact Unanswered.append hfits
  case answer job frame => exact Host.answered_send hfits.1 hfits.2
  case hangUp => trivial
  case unregister => trivial
  case refuse => trivial
  all_goals exact hfits

/-- What callers have received, wherever their jobs are. -/
structure Replied (host : Host) : Prop where
  workers : ∀ worker ∈ host.workers, host.Fits worker
  waiting : ∀ job ∈ host.starting ++ host.queue, host.frames job.serial = []
  fresh : ∀ serial, host.started ≤ serial → host.frames serial = []
  callers : ∀ serial, Unanswered (host.frames serial) ∨ AnsweredOnce (host.frames serial)
  accepted : ∀ job ∈ host.accepted, job ∈ host.queue ∨ job ∈ host.held ∨ host.Answered job

section Replied

variable {host next : Host}

theorem replied_new (workers capacity : Nat) : Replied (Host.new workers capacity) := by
  refine ⟨?_, by simp [Host.new], fun _ _ => rfl, fun _ => Or.inl unanswered_nil, by simp [Host.new]⟩
  intro worker hworker
  rw [List.eq_of_mem_replicate hworker]
  trivial

theorem Replied.of_frames (h : Replied host) (hframes : next.frames = host.frames)
    (hclosed : ∀ serial, host.closed serial = true → next.closed serial = true)
    (hworkers : next.workers = host.workers) (hstarted : host.started ≤ next.started)
    (hwaiting : ∀ job ∈ next.starting ++ next.queue,
      job ∈ host.starting ++ host.queue ∨ job.serial = host.started)
    (haccepted : ∀ job ∈ next.accepted, job ∈ host.accepted ∨ job ∈ next.queue)
    (hqueue : ∀ job ∈ host.queue, job ∈ next.queue) : Replied next := by
  have hsame : ∀ serial, next.frames serial = host.frames serial := fun _ => by rw [hframes]
  refine ⟨?_, ?_, ?_, ?_, ?_⟩
  · rw [hworkers]
    exact fun worker hworker =>
      (h.workers worker hworker).mono (fun job _ => hsame job.serial) hclosed
  · intro job hjob
    rw [hsame]
    rcases hwaiting job hjob with hold | hnew
    · exact h.waiting job hold
    · exact h.fresh _ hnew.ge
  · intro serial hserial
    rw [hsame]
    exact h.fresh serial (hstarted.trans hserial)
  · intro serial
    rw [hsame]
    exact h.callers serial
  · intro job hjob
    rcases haccepted job hjob with hold | hqueued
    · rcases h.accepted job hold with hwait | hheld | hanswered
      · exact Or.inl (hqueue job hwait)
      · exact Or.inr (Or.inl (by unfold Host.held; rw [hworkers]; exact hheld))
      · exact Or.inr (Or.inr (hanswered.mono (hsame _) hclosed))
    · exact Or.inl hqueued

theorem WorkerStep.sends {before after : Worker} (h : WorkerStep host before after next)
    (hfits : host.Fits before) :
    next.frames = host.frames ∨ ∃ job frame, before.job? = some job ∧
      next.frames = (host.send job frame).frames ∧ Unanswered (host.frames job.serial) := by
  cases h
  case sendOpen job content contents hclosed =>
    exact Or.inr ⟨job, .content content, rfl, rfl, hfits⟩
  case answer job frame => exact Or.inr ⟨job, frame, rfl, rfl, hfits.1⟩
  case refuse job =>
    refine Or.inr ⟨job, _, rfl, rfl, ?_⟩
    rw [show host.frames job.serial = [] from hfits]
    exact unanswered_nil
  all_goals exact Or.inl rfl

theorem not_unanswered {frames : List Frame} (h : AnsweredOnce frames) : ¬ Unanswered frames := by
  obtain ⟨contents, terminal, rfl, -, hterminal⟩ := h
  intro hall
  rw [hall terminal (by simp)] at hterminal
  cases hterminal

theorem Unanswered.extend {frames : List Frame} (h : Unanswered frames) (frame : Frame) :
    Unanswered (frames ++ [frame]) ∨ AnsweredOnce (frames ++ [frame]) := by
  cases frame with
  | content data => exact Or.inl h.append
  | done => exact Or.inr (h.answer rfl)
  | cancel => exact Or.inr (h.answer rfl)
  | error e => exact Or.inr (h.answer rfl)

theorem WorkerStep.answered {before after : Worker} (h : WorkerStep host before after next)
    (hfits : host.Fits before) {job : NativeJob} (hanswered : host.Answered job) :
    next.Answered job := by
  have hclosed := h.sameOutside.closed
  rcases hanswered with hc | honce
  · exact Or.inl (hclosed ▸ hc)
  · right
    rcases h.sends hfits with hsame | ⟨sent, frame, -, hsent, hopen⟩
    · rw [hsame]
      exact honce
    · rw [hsent, Host.send_frames_of_ne]
      · exact honce
      · intro heq
        exact not_unanswered (heq ▸ honce) hopen

theorem WorkerStep.callers {before after : Worker} (h : WorkerStep host before after next)
    (hfits : host.Fits before)
    (hcallers : ∀ serial, Unanswered (host.frames serial) ∨ AnsweredOnce (host.frames serial))
    (serial : Nat) : Unanswered (next.frames serial) ∨ AnsweredOnce (next.frames serial) := by
  rcases h.sends hfits with hsame | ⟨sent, frame, -, hsent, hopen⟩
  · rw [hsame]
    exact hcallers serial
  · rw [hsent]
    by_cases heq : serial = sent.serial
    · subst heq
      cases hclosed : host.closed sent.serial with
      | true =>
        rw [Host.send_of_closed host sent frame hclosed]
        exact hcallers _
      | false =>
        rw [Host.send_frames_of_open host sent frame hclosed]
        exact hopen.extend frame
    · rw [Host.send_frames_of_ne host sent frame heq]
      exact hcallers serial

theorem WorkerStep.released {before after : Worker} (h : WorkerStep host before after next)
    (hfits : host.Fits before) {job : NativeJob}
    (hbefore : before = .finishing job ∨ before = .refusing job) : next.Answered job := by
  rcases hbefore with rfl | rfl
  · cases h
    exact hfits
  · cases h
    apply Host.answered_send _ rfl
    rw [show host.frames job.serial = [] from hfits]
    exact unanswered_nil

theorem Replied.work (h : Replied host) (hplaced : Placed host) {i : Nat} {before after : Worker}
    (hworker : host.workers[i]? = some before) (hstep : WorkerStep host before after next) :
    Replied { next with workers := host.workers.set i after } := by
  have hsame := hstep.sameOutside
  have hclosed : ∀ serial, host.closed serial = true → next.closed serial = true :=
    fun serial hserial => hsame.closed ▸ hserial
  have hfits := h.workers before (List.mem_of_getElem? hworker)
  have hqueue : ∀ job ∈ host.queue, host.frames job.serial = [] :=
    fun job hjob => h.waiting job (List.mem_append_right _ hjob)
  have hdistinct := hplaced.distinct
  unfold Host.located at hdistinct
  rw [List.map_append, List.nodup_append] at hdistinct
  obtain ⟨-, hheld, hapart⟩ := hdistinct
  have hbefore : ∀ job, before.job? = some job → job ∈ host.held :=
    fun job hjob => List.mem_filterMap.mpr ⟨before, List.mem_of_getElem? hworker, hjob⟩
  have hsub : ∀ job ∈ next.starting ++ next.queue, job ∈ host.starting ++ host.queue := by
    intro job hjob
    rw [hsame.starting] at hjob
    rcases hstep.jobs with ⟨taken, rest, hq, hrest, -⟩ | ⟨hq, -⟩ | ⟨_, hq, -⟩
    · rw [hrest] at hjob
      rw [hq]
      rcases List.mem_append.mp hjob with hstart | hlater
      · exact List.mem_append_left _ hstart
      · exact List.mem_append_right _ (List.mem_cons_of_mem _ hlater)
    · rwa [hq] at hjob
    · rwa [hq] at hjob
  refine ⟨?_, ?_, ?_, fun serial => hstep.callers hfits h.callers serial, ?_⟩
  · intro worker hmem
    obtain ⟨k, hk⟩ := List.getElem?_of_mem hmem
    rcases getElem?_set_cases hk with ⟨-, rfl⟩ | ⟨hne, hstill⟩
    · exact hstep.fits hqueue hfits
    · refine Host.Fits.mono ?_ hclosed (h.workers worker (List.mem_of_getElem? hstill))
      intro job hjob
      apply hstep.frames_of_ne
      exact fun moved hmoved => held_ne_of_nodup hheld hworker hstill (Ne.symm hne) hmoved hjob
  · intro job hjob
    have hwait := hsub job hjob
    rw [show ({ next with workers := host.workers.set i after } : Host).frames = next.frames from rfl,
      hstep.frames_of_ne, h.waiting job hwait]
    intro moved hmoved heq
    exact hapart _ (List.mem_map_of_mem hwait) _ (List.mem_map_of_mem (hbefore moved hmoved)) heq.symm
  · intro serial hserial
    have hlate : host.started ≤ serial := hsame.started ▸ hserial
    show next.frames serial = []
    rw [hstep.frames_of_ne, h.fresh serial hlate]
    intro moved hmoved heq
    have hlt := hplaced.started moved (List.mem_append_right _ (hbefore moved hmoved))
    omega
  · intro job hjob
    have hperm := perm_filterMap_set Worker.job? after hworker
    rcases h.accepted job (hsame.accepted ▸ hjob) with hwait | hmem | hanswered
    · rcases hstep.jobs with ⟨taken, rest, hq, hrest, -, hafter⟩ | ⟨hq, -⟩ | ⟨_, hq, -⟩
      · rw [hq] at hwait
        rcases List.mem_cons.mp hwait with rfl | hlater
        · right
          left
          exact List.mem_filterMap.mpr ⟨after, mem_set_self hworker, by rw [hafter]; rfl⟩
        · exact Or.inl (by rw [hrest]; exact hlater)
      · exact Or.inl (by rw [hq]; exact hwait)
      · exact Or.inl (by rw [hq]; exact hwait)
    · rcases hstep.jobs with ⟨taken, rest, -, -, hfree, hafter⟩ | ⟨-, hkeep⟩ |
        ⟨released, -, hjob', hafter, hfrom⟩
      · right
        left
        show job ∈ (host.workers.set i after).filterMap Worker.job?
        rw [hfree, hafter] at hperm
        rw [hafter]
        exact hperm.subset (List.mem_cons_of_mem _ hmem)
      · right
        left
        show job ∈ (host.workers.set i after).filterMap Worker.job?
        rw [filterMap_set_of_eq hworker hkeep]
        exact hmem
      · rw [hafter, hjob'] at hperm
        rcases List.mem_cons.mp (hperm.subset hmem) with rfl | hstill
        · exact Or.inr (Or.inr (hstep.released hfits hfrom))
        · exact Or.inr (Or.inl (by rw [hafter]; exact hstill))
    · exact Or.inr (Or.inr (hstep.answered hfits hanswered))

theorem Replied.step (h : Replied host) (hplaced : Placed host) (hstep : Step host next) :
    Replied next := by
  cases hstep
  case internal hstep =>
    cases hstep
    case work i before after next hworker hstep => exact h.work hplaced hworker hstep
    all_goals
      exact h.of_frames rfl (fun _ hc => hc) rfl le_rfl (fun _ hjob => Or.inl hjob)
        (fun _ hjob => Or.inl hjob) (fun _ hjob => hjob)
  case start token =>
    refine h.of_frames rfl (fun _ hc => hc) rfl (Nat.le_succ _) ?_ (fun _ hjob => Or.inl hjob)
      (fun _ hjob => hjob)
    intro job hjob
    rcases List.mem_cons.mp hjob with rfl | hold
    · exact Or.inr rfl
    · exact Or.inl hold
  case enqueue before after job hlock hstarting hsent =>
    cases hsent
    refine h.of_frames rfl (fun _ hc => hc) rfl le_rfl ?_ ?_ ?_
    · intro other hother
      left
      rw [hstarting]
      simp only [List.mem_append, List.mem_cons] at hother ⊢
      tauto
    · intro other hother
      rcases List.mem_append.mp hother with hold | hnew
      · exact Or.inl hold
      · exact Or.inr (List.mem_append_right _ hnew)
    · exact fun other hother => List.mem_append_left _ hother
  case enqueueFailed before after job e hlock hstarting hfailed =>
    refine h.of_frames rfl (fun _ hc => hc) rfl le_rfl ?_ (fun _ hjob => Or.inl hjob)
      (fun _ hjob => hjob)
    intro other hother
    left
    rw [hstarting]
    simp only [List.mem_append, List.mem_cons] at hother ⊢
    tauto
  case closeReplies serial =>
    refine h.of_frames rfl ?_ rfl le_rfl (fun _ hjob => Or.inl hjob) (fun _ hjob => Or.inl hjob)
      (fun _ hjob => hjob)
    intro other hother
    show Function.update host.closed serial true other = true
    by_cases heq : other = serial
    · rw [heq, Function.update_self]
    · rw [Function.update_of_ne heq]
      exact hother
  all_goals
    exact h.of_frames rfl (fun _ hc => hc) rfl le_rfl (fun _ hjob => Or.inl hjob)
      (fun _ hjob => Or.inl hjob) (fun _ hjob => hjob)

end Replied

end FaberHosts.Native
