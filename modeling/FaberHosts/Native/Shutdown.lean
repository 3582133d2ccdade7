import FaberHosts.Native.Replies

/-!
# The table of active jobs and the shutdown

The table holds the tokens of the jobs that workers run.  A shutdown sets its flag
before it sweeps the table, and a worker checks the flag under the table's lock, so
that the sweep meets every job that still runs and no job enters after it.
-/

namespace FaberHosts.Native
open FaberHosts.Lib FaberHosts.Kernel

variable {host next : Host}

/-- The shutdown holds the table's lock or has released it for good. -/
def Phase.pastLock : Phase → Bool
  | .sweeping _ | .swept => true
  | _ => false

structure Tabled (host : Host) : Prop where
  /-- Every entry is of a job some worker runs. -/
  keys : ∀ id ∈ host.activeJobs, ∃ worker ∈ host.workers, ∃ job,
    worker.active? = some job ∧ job.id = id
  /-- Every running job is in the table, while the counter has not come round. -/
  entries : host.started ≤ 2 ^ 64 → ∀ worker ∈ host.workers, ∀ job, worker.active? = some job →
    host.activeJobs[job.id]? = some job.token
  /-- The sweep has cancelled what it has passed. -/
  swept : ∀ (id : UInt64) (token : Nat), host.activeJobs[id]? = some token →
    host.cancelled token = true ∨ (∃ tokens, host.phase = .sweeping tokens ∧ token ∈ tokens) ∨
      host.phase.pastLock = false
  noInsert : host.phase.pastLock = true → ∀ job, Worker.inserting job ∉ host.workers
  /-- A worker stops only when nothing is left and nothing can come. -/
  stopped : Worker.stopped ∈ host.workers → host.queue = [] ∧ host.senderDropped = true

theorem tabled_new (workers capacity : Nat) : Tabled (Host.new workers capacity) := by
  have hwaiting : ∀ worker ∈ (Host.new workers capacity).workers, worker = .waiting :=
    fun worker hworker => List.eq_of_mem_replicate hworker
  refine ⟨?_, ?_, ?_, ?_, ?_⟩
  · simp [Host.new]
  · intro _ worker hworker job hjob
    rw [hwaiting worker hworker] at hjob
    cases hjob
  · simp [Host.new]
  · simp [Host.new, Phase.pastLock]
  · intro hstopped
    cases hwaiting _ hstopped

/-- Below `2^64` starts, jobs with different numbers have different ids. -/
theorem ofNat_ne_of_ne {a b bound : Nat} (hbound : bound ≤ 2 ^ 64) (ha : a < bound)
    (hb : b < bound) (hne : a ≠ b) : UInt64.ofNat a ≠ UInt64.ofNat b := by
  intro heq
  have hnat := congrArg UInt64.toNat heq
  rw [UInt64.toNat_ofNat', UInt64.toNat_ofNat', Nat.mod_eq_of_lt, Nat.mod_eq_of_lt] at hnat
  · exact hne hnat
  · omega
  · omega

/-- Two workers run jobs with different ids, while the counter has not come round. -/
theorem Placed.id_ne (hplaced : Placed host) (hbound : host.started ≤ 2 ^ 64) {i k : Nat}
    {first second : Worker} (hi : host.workers[i]? = some first)
    (hk : host.workers[k]? = some second) (hne : i ≠ k) {job other : NativeJob}
    (hjob : first.job? = some job) (hother : second.job? = some other) : job.id ≠ other.id := by
  have hheld : ∀ {worker : Worker} {held : NativeJob}, worker ∈ host.workers →
      worker.job? = some held → held ∈ host.located := by
    intro worker held hmem hheld
    exact List.mem_append_right _ (List.mem_filterMap.mpr ⟨worker, hmem, hheld⟩)
  have hfirst := hheld (List.mem_of_getElem? hi) hjob
  have hsecond := hheld (List.mem_of_getElem? hk) hother
  have hdistinct := hplaced.distinct
  unfold Host.located at hdistinct
  rw [List.map_append, List.nodup_append] at hdistinct
  rw [hplaced.ids job hfirst, hplaced.ids other hsecond]
  exact ofNat_ne_of_ne hbound (hplaced.started job hfirst) (hplaced.started other hsecond)
    (held_ne_of_nodup hdistinct.2.1 hi hk hne hjob hother)

/-- No worker enters the part between check and insertion after the flag is set. -/
theorem WorkerStep.inserting {before after : Worker} (h : WorkerStep host before after next)
    {job : NativeJob} (hafter : after = .inserting job) :
    ¬ host.ShuttingDown ∧ host.ActiveFree := by
  cases h
  case checkOpen other hfree hflag => exact ⟨hflag, hfree⟩
  case dispatched other outcome =>
    have hactive := Worker.active?_afterDispatch other outcome
    rw [hafter] at hactive
    cases hactive
  all_goals cases hafter

theorem WorkerStep.stops {before after : Worker} (h : WorkerStep host before after next)
    (hafter : after = .stopped) : host.queue = [] ∧ host.senderDropped = true := by
  cases h
  case hangUp hqueue hdropped => exact ⟨hqueue, hdropped⟩
  case dispatched other outcome =>
    have hactive := Worker.active?_afterDispatch other outcome
    rw [hafter] at hactive
    cases hactive
  all_goals cases hafter

theorem shuttingDown_of_pastLock (h : host.phase.pastLock = true) : host.ShuttingDown := by
  intro hphase
  rw [hphase] at h
  cases h

theorem Tabled.work_keys (h : Tabled host) {i : Nat} {before after : Worker}
    (hworker : host.workers[i]? = some before) (hstep : WorkerStep host before after next) :
    ∀ id ∈ next.activeJobs, ∃ worker ∈ host.workers.set i after, ∃ job,
      worker.active? = some job ∧ job.id = id := by
  -- An entry of another worker's job stays with that worker.
  have hother : ∀ id ∈ host.activeJobs, (∀ job, before.active? = some job → job.id ≠ id) →
      ∃ worker ∈ host.workers.set i after, ∃ job, worker.active? = some job ∧ job.id = id := by
    intro id hid hnot
    obtain ⟨worker, hmem, job, hactive, heq⟩ := h.keys id hid
    refine ⟨worker, mem_set_of_ne hmem hworker ?_, job, hactive, heq⟩
    rintro rfl
    exact hnot job hactive heq
  intro id hid
  rcases hstep.table with ⟨htable, hactive⟩ | ⟨job, hbefore, hafter, htable⟩ |
    ⟨job, hbefore, -, -, htable⟩
  · rw [htable] at hid
    by_cases hmine : ∃ job, before.active? = some job ∧ job.id = id
    · obtain ⟨job, hjob, heq⟩ := hmine
      exact ⟨after, mem_set_self hworker, job, hactive.trans hjob, heq⟩
    · push Not at hmine
      exact hother id hid hmine
  · rw [htable, Std.ExtTreeMap.mem_insert, Std.LawfulEqOrd.compare_eq_iff_eq] at hid
    rcases hid with heq | hold
    · exact ⟨after, mem_set_self hworker, job, by rw [hafter]; rfl, heq⟩
    · exact hother id hold (by rw [hbefore]; simp [Worker.active?])
  · rw [htable, Std.ExtTreeMap.mem_erase] at hid
    apply hother id hid.2
    rw [hbefore]
    intro mine hmine heq
    cases hmine
    exact hid.1 (by simp [heq])

theorem Tabled.work_entries (h : Tabled host) (hplaced : Placed host) {i : Nat}
    {before after : Worker} (hworker : host.workers[i]? = some before)
    (hstep : WorkerStep host before after next) (hbound : host.started ≤ 2 ^ 64) :
    ∀ worker ∈ host.workers.set i after, ∀ job, worker.active? = some job →
      next.activeJobs[job.id]? = some job.token := by
  intro worker hmem job hactive
  obtain ⟨k, hk⟩ := List.getElem?_of_mem hmem
  rcases getElem?_set_cases hk with ⟨-, rfl⟩ | ⟨hne, hstill⟩
  · rcases hstep.table with ⟨htable, hsame⟩ | ⟨mine, -, hafter, htable⟩ | ⟨mine, -, hafter, -, -⟩
    · rw [htable]
      exact h.entries hbound before (List.mem_of_getElem? hworker) job (hsame.symm.trans hactive)
    · rw [hafter] at hactive
      cases hactive
      rw [htable]
      simp
    · rw [hafter] at hactive
      cases hactive
  · have hold := h.entries hbound worker (List.mem_of_getElem? hstill) job hactive
    have hapart : ∀ mine, before.job? = some mine → mine.id ≠ job.id := fun mine hmine =>
      hplaced.id_ne hbound hworker hstill (Ne.symm hne) hmine (Worker.job?_of_active? hactive)
    rcases hstep.table with ⟨htable, -⟩ | ⟨mine, hbefore, -, htable⟩ | ⟨mine, hbefore, -, -, htable⟩
    · rw [htable]
      exact hold
    · rw [htable, Std.ExtTreeMap.getElem?_insert, if_neg, hold]
      simpa using hapart mine (by rw [hbefore]; rfl)
    · rw [htable, Std.ExtTreeMap.getElem?_erase, if_neg, hold]
      simpa using hapart mine (by rw [hbefore]; rfl)

theorem Tabled.work_swept (h : Tabled host) {i : Nat} {before after : Worker}
    (hworker : host.workers[i]? = some before) (hstep : WorkerStep host before after next) :
    ∀ (id : UInt64) (token : Nat), next.activeJobs[id]? = some token →
      next.cancelled token = true ∨ (∃ tokens, next.phase = .sweeping tokens ∧ token ∈ tokens) ∨
        next.phase.pastLock = false := by
  have hsame := hstep.sameOutside
  intro id token hget
  rw [hsame.cancelled, hsame.phase]
  rcases hstep.table with ⟨htable, -⟩ | ⟨job, hbefore, -, -⟩ | ⟨job, -, -, -, htable⟩
  · exact h.swept id token (htable ▸ hget)
  · right
    right
    by_contra hpast
    exact h.noInsert (by simpa using hpast) job (hbefore ▸ List.mem_of_getElem? hworker)
  · rw [htable, Std.ExtTreeMap.getElem?_erase] at hget
    split at hget
    · cases hget
    · exact h.swept id token hget

theorem Tabled.work (h : Tabled host) (hplaced : Placed host) {i : Nat} {before after : Worker}
    (hworker : host.workers[i]? = some before) (hstep : WorkerStep host before after next) :
    Tabled { next with workers := host.workers.set i after } := by
  have hsame := hstep.sameOutside
  refine ⟨?_, ?_, ?_, ?_, ?_⟩
  · exact fun id hid => h.work_keys hworker hstep id hid
  · intro hbound worker hmem job hactive
    have hentry := h.work_entries hplaced hworker hstep (hsame.started ▸ hbound) worker hmem job
      hactive
    exact hentry
  · exact fun id token hget => h.work_swept hworker hstep id token hget
  · intro hpast job hmem
    have hpast' : host.phase.pastLock = true := hsame.phase ▸ hpast
    rcases mem_set_cases hmem with hnew | hold
    · exact (hstep.inserting hnew.symm).1 (shuttingDown_of_pastLock hpast')
    · exact h.noInsert hpast' job hold
  · intro hmem
    have hdropped : host.senderDropped = true →
        ({ next with workers := host.workers.set i after } : Host).senderDropped = true := by
      unfold Host.senderDropped
      rw [show ({ next with workers := host.workers.set i after } : Host).phase = host.phase
        from hsame.phase]
      exact id
    have hempty : host.queue = [] → next.queue = [] := by
      intro hqueue
      rcases hstep.jobs with ⟨_, _, hq, -⟩ | ⟨hq, -⟩ | ⟨_, hq, -⟩
      · rw [hqueue] at hq
        cases hq
      · rw [hq, hqueue]
      · rw [hq, hqueue]
    rcases mem_set_cases hmem with hnew | hold
    · obtain ⟨hqueue, hsender⟩ := hstep.stops hnew.symm
      exact ⟨hempty hqueue, hdropped hsender⟩
    · obtain ⟨hqueue, hsender⟩ := h.stopped hold
      exact ⟨hempty hqueue, hdropped hsender⟩

theorem cancelled_update {token : Nat} (other : Nat) (h : host.cancelled other = true) :
    Function.update host.cancelled token true other = true := by
  by_cases heq : other = token
  · rw [heq, Function.update_self]
  · rw [Function.update_of_ne heq]
    exact h

theorem Tabled.of_table (h : Tabled host) (htable : next.activeJobs = host.activeJobs)
    (hworkers : next.workers = host.workers) (hstarted : host.started ≤ next.started)
    (hswept : ∀ (id : UInt64) (token : Nat), host.activeJobs[id]? = some token →
      next.cancelled token = true ∨ (∃ tokens, next.phase = .sweeping tokens ∧ token ∈ tokens) ∨
        next.phase.pastLock = false)
    (hlock : next.phase.pastLock = true → ∀ job, Worker.inserting job ∉ host.workers)
    (hstopped : Worker.stopped ∈ host.workers → next.queue = [] ∧ next.senderDropped = true) :
    Tabled next := by
  refine ⟨?_, ?_, ?_, ?_, ?_⟩
  · rw [htable, hworkers]
    exact h.keys
  · intro hbound
    rw [htable, hworkers]
    exact h.entries (hstarted.trans hbound)
  · rw [htable]
    exact hswept
  · rw [hworkers]
    exact hlock
  · rw [hworkers]
    exact hstopped

theorem Tabled.internal (h : Tabled host) (hplaced : Placed host) (hstep : InternalStep host next) :
    Tabled next := by
  cases hstep
  case work i before after next hworker hstep => exact h.work hplaced hworker hstep
  case dropSender hphase =>
    refine h.of_table rfl rfl le_rfl (fun _ _ _ => Or.inr (Or.inr rfl)) (fun hpast => ?_) ?_
    · cases hpast
    · exact fun hstopped => ⟨(h.stopped hstopped).1, rfl⟩
  case lockActive hphase hfree =>
    refine h.of_table rfl rfl le_rfl ?_ (fun _ => hfree.workers) ?_
    · intro id token hget
      refine Or.inr (Or.inl ⟨_, rfl, ?_⟩)
      exact List.mem_map.mpr ⟨(id, token), Std.ExtTreeMap.mem_toList_iff_getElem?_eq_some.mpr hget, rfl⟩
    · exact fun hstopped => ⟨(h.stopped hstopped).1, rfl⟩
  case cancelActive token tokens hphase =>
    refine h.of_table rfl rfl le_rfl ?_ ?_ ?_
    · intro id other hget
      rcases h.swept id other hget with hcancelled | ⟨todo, htodo, hmem⟩ | hearly
      · exact Or.inl (cancelled_update other hcancelled)
      · rw [hphase] at htodo
        cases htodo
        rcases List.mem_cons.mp hmem with rfl | hlater
        · exact Or.inl (Function.update_self _ _ _)
        · exact Or.inr (Or.inl ⟨tokens, rfl, hlater⟩)
      · rw [hphase] at hearly
        cases hearly
    · exact fun _ => h.noInsert (by rw [hphase]; rfl)
    · exact fun hstopped => ⟨(h.stopped hstopped).1, rfl⟩
  case unlockActive hphase =>
    refine h.of_table rfl rfl le_rfl ?_ ?_ ?_
    · intro id token hget
      rcases h.swept id token hget with hcancelled | ⟨todo, htodo, hmem⟩ | hearly
      · exact Or.inl hcancelled
      · rw [hphase] at htodo
        cases htodo
        cases hmem
      · rw [hphase] at hearly
        cases hearly
    · exact fun _ => h.noInsert (by rw [hphase]; rfl)
    · exact fun hstopped => ⟨(h.stopped hstopped).1, rfl⟩

theorem Tabled.step (h : Tabled host) (hplaced : Placed host) (hstep : Step host next) :
    Tabled next := by
  cases hstep
  case internal hstep => exact h.internal hplaced hstep
  case start token => exact h.of_table rfl rfl (Nat.le_succ _) h.swept h.noInsert h.stopped
  case enqueue before after job hlock hstarting hsent =>
    cases hsent
    case sent hopen hsender hroom =>
      refine h.of_table rfl rfl le_rfl h.swept h.noInsert ?_
      intro hstopped
      have hdropped := (h.stopped hstopped).2
      exact absurd (hdropped.symm.trans hsender) (by simp)
  case enqueueFailed before after job e hlock hstarting hfailed =>
    exact h.of_table rfl rfl le_rfl h.swept h.noInsert h.stopped
  case beginShutdown hphase =>
    refine h.of_table rfl rfl le_rfl (fun _ _ _ => Or.inr (Or.inr rfl)) (fun hpast => ?_) ?_
    · cases hpast
    · intro hstopped
      have hdropped := (h.stopped hstopped).2
      unfold Host.senderDropped at hdropped
      rw [hphase] at hdropped
      cases hdropped
  case requestCancel token =>
    refine h.of_table rfl rfl le_rfl ?_ h.noInsert h.stopped
    intro id other hget
    rcases h.swept id other hget with hcancelled | hlater
    · exact Or.inl (cancelled_update other hcancelled)
    · exact Or.inr hlater
  case closeReplies serial => exact h.of_table rfl rfl le_rfl h.swept h.noInsert h.stopped

/-! ## Jobs queued at a shutdown -/

/-- The job waits to be refused, once the flag is set. -/
def Host.Refusable (host : Host) (job : NativeJob) : Prop :=
  job ∈ host.queue ∨ ∃ worker ∈ host.workers,
    worker = .received job ∨ worker = .registering job ∨ worker = .refusing job

/-- The job was refused: its caller has the one frame that says so, or has stopped
    listening, and no worker has the job. -/
structure Host.Refused (host : Host) (job : NativeJob) : Prop where
  frames : host.closed job.serial = true ∨
    host.frames job.serial = [.error shuttingDownError]
  gone : job.serial ∉ host.located.map NativeJob.serial
  started : job.serial < host.started

theorem closed_mono (h : Step host next) {serial : Nat} (hclosed : host.closed serial = true) :
    next.closed serial = true := by
  cases h
  case internal hstep =>
    cases hstep
    case work i before after next hworker hstep =>
      show next.closed serial = true
      rw [hstep.sameOutside.closed]
      exact hclosed
    all_goals exact hclosed
  case enqueue before after job hlock hstarting hsent =>
    cases hsent
    exact hclosed
  case closeReplies other =>
    show Function.update host.closed other true serial = true
    by_cases heq : serial = other
    · rw [heq, Function.update_self]
    · rw [Function.update_of_ne heq]
      exact hclosed
  all_goals exact hclosed

/-- Nothing is sent to the caller of a job that is nowhere in the host. -/
theorem frames_of_gone (h : Step host next) {serial : Nat}
    (hgone : serial ∉ host.located.map NativeJob.serial) :
    next.frames serial = host.frames serial := by
  cases h
  case internal hstep =>
    cases hstep
    case work i before after next hworker hstep =>
      apply hstep.frames_of_ne
      rintro job hjob rfl
      apply hgone
      apply List.mem_map_of_mem
      exact List.mem_append_right _
        (List.mem_filterMap.mpr ⟨before, List.mem_of_getElem? hworker, hjob⟩)
    all_goals rfl
  case enqueue before after job hlock hstarting hsent =>
    cases hsent
    rfl
  all_goals rfl

theorem Host.Refused.step {job : NativeJob} (h : host.Refused job) (hstep : Step host next) :
    next.Refused job := by
  refine ⟨?_, ?_, ?_⟩
  · rw [frames_of_gone hstep h.gone]
    exact h.frames.imp_left (closed_mono hstep)
  · intro hmem
    rcases located_step hstep with ⟨token, hlocated, -⟩ | ⟨hsub, -⟩
    · rw [hlocated, List.map_cons, List.mem_cons] at hmem
      rcases hmem with heq | hold
      · exact absurd h.started (by simp [heq])
      · exact h.gone hold
    · obtain ⟨other, hother, heq⟩ := List.mem_map.mp hmem
      exact h.gone (List.mem_map.mpr ⟨other, hsub.subset hother, heq⟩)
  · rcases located_step hstep with ⟨token, -, hstarted, -⟩ | ⟨-, hstarted, -⟩
    · rw [hstarted]
      exact Nat.lt_succ_of_lt h.started
    · rw [hstarted]
      exact h.started

theorem refused_of_refusing (hplaced : Placed host) (hreplied : Replied host) {i : Nat}
    {job : NativeJob} (hworker : host.workers[i]? = some (.refusing job)) :
    Host.Refused { host.send job (.error shuttingDownError) with
      workers := host.workers.set i .waiting } job := by
  have hmem : Worker.refusing job ∈ host.workers := List.mem_of_getElem? hworker
  have hempty : host.frames job.serial = [] := hreplied.workers _ hmem
  have hheld : job ∈ host.located :=
    List.mem_append_right _ (List.mem_filterMap.mpr ⟨_, hmem, rfl⟩)
  refine ⟨?_, ?_, ?_⟩
  · cases hclosed : host.closed job.serial with
    | true =>
      left
      show (host.send job _).closed job.serial = true
      rw [Host.send_closed]
      exact hclosed
    | false =>
      right
      show (host.send job _).frames job.serial = _
      rw [Host.send_frames_of_open host job _ hclosed, hempty]
      rfl
  · have hperm := perm_filterMap_set Worker.job? .waiting hworker
    have hdistinct := hplaced.distinct
    unfold Host.located Host.held at hdistinct ⊢
    simp only [Host.send_starting, Host.send_queue]
    have hall : List.Perm ((host.starting ++ host.queue ++ host.workers.filterMap Worker.job?).map
        NativeJob.serial)
        (job.serial :: (host.starting ++ host.queue ++
          (host.workers.set i .waiting).filterMap Worker.job?).map NativeJob.serial) := by
      have hheld' : List.Perm (host.workers.filterMap Worker.job?)
          (job :: (host.workers.set i .waiting).filterMap Worker.job?) := hperm
      exact ((hheld'.append_left _).trans List.perm_middle).map NativeJob.serial
    exact (List.nodup_cons.mp (hall.nodup_iff.mp hdistinct)).1
  · show job.serial < (host.send job _).started
    rw [Host.send_started]
    exact hplaced.started job hheld

theorem refusable_step (hplaced : Placed host) (hreplied : Replied host)
    (hflag : host.ShuttingDown) {job : NativeJob} (h : host.Refusable job)
    (hstep : Step host next) : next.Refusable job ∨ next.Refused job := by
  cases hstep
  case internal hstep =>
    cases hstep
    case work i before after next hworker hstep =>
      rcases h with hqueue | ⟨worker, hmem, hat⟩
      · left
        rcases hstep.jobs with ⟨taken, rest, hq, hrest, -, hafter⟩ | ⟨hq, -⟩ | ⟨_, hq, -⟩
        · rw [hq] at hqueue
          rcases List.mem_cons.mp hqueue with rfl | hlater
          · exact Or.inr ⟨after, mem_set_self hworker, Or.inl hafter⟩
          · exact Or.inl (by rw [hrest]; exact hlater)
        · exact Or.inl (by rw [hq]; exact hqueue)
        · exact Or.inl (by rw [hq]; exact hqueue)
      · by_cases hmoved : worker = before
        · subst hmoved
          rcases hat with rfl | rfl | rfl
          · cases hstep
            case seeShutdown => exact Or.inl (Or.inr ⟨_, mem_set_self hworker, Or.inr (Or.inr rfl)⟩)
            case seeOpen hopen => exact absurd hflag hopen
          · cases hstep
            case checkShutdown =>
              exact Or.inl (Or.inr ⟨_, mem_set_self hworker, Or.inr (Or.inr rfl)⟩)
            case checkOpen hfree hopen => exact absurd hflag hopen
          · cases hstep
            exact Or.inr (refused_of_refusing hplaced hreplied hworker)
        · exact Or.inl (Or.inr ⟨worker, mem_set_of_ne hmem hworker hmoved, hat⟩)
    all_goals exact Or.inl h
  case enqueue before after other hlock hstarting hsent =>
    cases hsent
    left
    exact h.imp_left (fun hqueue => List.mem_append_left _ hqueue)
  all_goals exact Or.inl h

theorem shuttingDown_step (hflag : host.ShuttingDown) (hstep : Step host next) :
    next.ShuttingDown := by
  unfold Host.ShuttingDown at hflag ⊢
  cases hstep
  case internal hstep =>
    cases hstep
    case work i before after next hworker hstep =>
      show next.phase ≠ .accepting
      rw [hstep.sameOutside.phase]
      exact hflag
    all_goals simp
  case enqueue before after job hlock hstarting hsent =>
    cases hsent
    exact hflag
  case beginShutdown => simp
  all_goals exact hflag

theorem accepted_step (hflag : host.ShuttingDown) (hstep : Step host next) :
    next.accepted = host.accepted := by
  cases hstep
  case internal hstep =>
    cases hstep
    case work i before after next hworker hstep => exact hstep.sameOutside.accepted
    all_goals rfl
  case enqueue before after job hlock hstarting hsent =>
    cases hsent
    case sent hopen hsender hroom => exact absurd hflag hopen
  all_goals rfl

end FaberHosts.Native
