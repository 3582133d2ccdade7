import FaberHosts.Kernel.Registry
import FaberHosts.Lib.Custody
import FaberHosts.Lib.Runs

/-!
# A command and its process group

`processus/src/lib.rs`: `run_command` beside the processes of the group it spawns.  The
direct child and its descendants hold the write ends of the two output pipes; a reader
ends when nobody holds its pipe any more.  Cancellation is looked at in the loop that
waits for the direct child, and nowhere behind it.
-/

namespace FaberHosts.Processus
open FaberHosts.Kernel FaberHosts.Lib FaberHosts.Lib.Holders

inductive Stream where
  | stdout
  | stderr
  deriving DecidableEq, Repr

def Stream.name : Stream → String
  | .stdout => "stdout"
  | .stderr => "stderr"

structure CommandOutput where
  status : Int
  stdout : List UInt8
  stderr : List UInt8
  deriving DecidableEq, Repr

/-- Why a command is aborted: it was cancelled, or `try_wait` failed. -/
inductive Why where
  | cancelled
  | waitFailed (error : String)
  deriving DecidableEq, Repr

/-- What the readers are joined after. -/
inductive After where
  | exited (status : Int)
  | aborted (why : Why) (termination : Except HostError Unit)
  deriving DecidableEq, Repr

/-- Where `run_command` is.  Behind `killGroup` stands the error of
    `terminate_process_group`, if it is one. -/
inductive Pc where
  | begin
  | spawn
  | check
  | tryWait
  | killGroup (why : Why)
  | killChild (why : Why) (group : Option HostError)
  | waitChild (why : Why) (group : Option HostError)
  | joinStdout (after : After)
  | joinStderr (after : After) (stdout : Except HostError (List UInt8))
  | done (result : Except HostError CommandOutput)
  deriving DecidableEq, Repr

/-- The reader that a join waits for. -/
def Pc.joins : Pc → Option Stream
  | .joinStdout _ => some .stdout
  | .joinStderr _ _ => some .stderr
  | _ => none

/-- The loop or the abort is behind. -/
def Pc.past : Pc → Bool
  | .joinStdout _ => true
  | .joinStderr _ _ => true
  | .done _ => true
  | _ => false

/-- There is no child yet. -/
def Pc.fresh : Pc → Bool
  | .begin => true
  | .spawn => true
  | _ => false

/-- There is a child, and the command has not returned. -/
def Pc.running : Pc → Bool
  | .begin => false
  | .spawn => false
  | .done _ => false
  | _ => true

structure Command where
  group : List (Holder Stream)
  stdout : List UInt8
  stderr : List UInt8
  cancelled : Bool
  killed : Bool
  reaps : Nat
  pc : Pc
  deriving DecidableEq, Repr

/-- Before `run_command` is called. -/
def Command.start : Command := ⟨[], [], [], false, false, 0, .begin⟩

/-- What `kill` answers for the group. -/
inductive Signalled where
  | all
  | noGroup
  | failed (error : String)
  deriving DecidableEq, Repr

/-- What `Child::kill` answers; a child that is not found counts as killed. -/
inductive ChildKill where
  | killed
  | notFound
  | failed (error : String)
  deriving DecidableEq, Repr

/-- How a reader's thread ends. -/
inductive Joined where
  | data
  | failed (error : String)
  | panicked
  deriving DecidableEq, Repr

/-- Behind the reader of the standard output the other one is joined. -/
def Pc.joinsNext : Pc → Joined → Bool
  | .joinStdout (.aborted _ _), _ => true
  | .joinStdout (.exited _), .data => true
  | _, _ => false

/-- The steps of the processes of the group, a request to cancel, and the turns of
    `run_command` with what the system answers. -/
inductive Action where
  | write (process : Nat) (stream : Stream) (bytes : List UInt8)
  | fork (process : Nat) (kept : List Stream)
  | release (process : Nat) (stream : Stream)
  | exit (process : Nat)
  | cancel
  | begin
  | spawn (answer : Except String Unit)
  | check
  | tryWait (answer : Except String (Option Int))
  | killGroup (answer : Signalled)
  | killChild (answer : ChildKill)
  | waitChild (answer : Except String Unit)
  | join (answer : Joined)
  deriving DecidableEq, Repr

namespace Command

variable (operation : String)

/-- What was written to a pipe. -/
def written (s : Command) : Stream → List UInt8
  | .stdout => s.stdout
  | .stderr => s.stderr

/-- The step of a process, which lives. -/
def process (s : Command) (i : Nat) (after : Command) : Option Command :=
  if lives s.group i then some after else none

/-- `join_reader`: the data of a pipe that nobody holds, or the reader's own failure. -/
def joinReader (s : Command) (stream : Stream) : Joined → Option (Except HostError (List UInt8))
  | .data => if Held s.group stream then none else some (.ok (s.written stream))
  | .failed error =>
    some (.error (.internal s!"{operation} failed reading {stream.name}: {error}"))
  | .panicked => some (.error (.internal s!"{operation} {stream.name} reader panicked"))

/-- What `run_command` returns after an abort. -/
def abortResult (why : Why) (cleanup : Except HostError Unit) : HostError :=
  match why, cleanup with
  | .cancelled, .ok () => .cancelled
  | .cancelled, .error error =>
    .internal s!"{operation} cancellation cleanup failed: {error.message}"
  | .waitFailed error, .ok () => .internal s!"{operation} wait failed: {error}"
  | .waitFailed error, .error cleanup =>
    .internal s!"{operation} wait failed: {error}; cleanup failed: {cleanup.message}"

/-- Behind the reader of the standard output: an exited command returns its failure at once,
    an aborted one joins the other reader too. -/
def afterStdout (after : After) (stdout : Except HostError (List UInt8)) : Pc :=
  match after, stdout with
  | .exited _, .error error => .done (.error error)
  | after, stdout => .joinStderr after stdout

/-- Behind both readers. -/
def afterStderr (after : After) (stdout stderr : Except HostError (List UInt8)) : Pc :=
  match after with
  | .exited status => .done (do
    let stdout ← stdout
    let stderr ← stderr
    return ⟨status, stdout, stderr⟩)
  | .aborted why termination => .done (.error (abortResult operation why (do
    termination
    let _ ← stdout
    let _ ← stderr
    return ())))

def step (s : Command) : Action → Option Command
  | .write i stream bytes =>
    if ∀ holder ∈ s.group[i]?, stream ∈ holder.holds then
      s.process i (match stream with
        | .stdout => { s with stdout := s.stdout ++ bytes }
        | .stderr => { s with stderr := s.stderr ++ bytes })
    else none
  | .fork i kept => s.process i { s with group := fork (· ∈ kept) s.group i }
  | .release i stream => s.process i { s with group := release s.group i stream }
  | .exit i => s.process i { s with group := exit s.group i }
  | .cancel => some { s with cancelled := true }
  | .begin =>
    match s.pc with
    | .begin =>
      some { s with pc := if s.cancelled then .done (.error .cancelled) else .spawn }
    | _ => none
  | .spawn answer =>
    match s.pc, answer with
    | .spawn, .ok () => some { s with group := [⟨true, [.stdout, .stderr]⟩], pc := .check }
    | .spawn, .error error =>
      some { s with pc := .done (.error (.internal s!"{operation} failed: {error}")) }
    | _, _ => none
  | .check =>
    match s.pc with
    | .check => some { s with pc := if s.cancelled then .killGroup .cancelled else .tryWait }
    | _ => none
  | .tryWait answer =>
    match s.pc, answer with
    | .tryWait, .ok none => if lives s.group 0 then some { s with pc := .check } else none
    | .tryWait, .ok (some status) =>
      if lives s.group 0 then none
      else some { s with reaps := s.reaps + 1, pc := .joinStdout (.exited status) }
    | .tryWait, .error error => some { s with pc := .killGroup (.waitFailed error) }
    | _, _ => none
  | .killGroup answer =>
    match s.pc, answer with
    | .killGroup why, .all =>
      some { s with group := killAll s.group, killed := true, pc := .waitChild why none }
    | .killGroup why, .noGroup => some { s with pc := .killChild why none }
    | .killGroup why, .failed error =>
      some { s with
        pc := .killChild why (some (.internal s!"failed to signal child group: {error}")) }
    | _, _ => none
  | .killChild answer =>
    match s.pc, answer with
    | .killChild why group, .killed =>
      some { s with group := exit s.group 0, pc := .waitChild why group }
    | .killChild why group, .notFound => some { s with pc := .waitChild why group }
    | .killChild why _, .failed error =>
      some { s with pc := .joinStdout (.aborted why
        (.error (.internal s!"failed to terminate child: {error}"))) }
    | _, _ => none
  | .waitChild answer =>
    match s.pc, answer with
    | .waitChild why group, .ok () =>
      if lives s.group 0 then none
      else
        some { s with
          reaps := s.reaps + 1
          pc := .joinStdout (.aborted why (match group with
            | none => .ok ()
            | some error => .error error)) }
    | .waitChild why _, .error error =>
      some { s with pc := .joinStdout (.aborted why
        (.error (.internal s!"failed to reap child: {error}"))) }
    | _, _ => none
  | .join answer =>
    match s.pc with
    | .joinStdout after =>
      (s.joinReader operation .stdout answer).map fun stdout =>
        { s with pc := afterStdout after stdout }
    | .joinStderr after stdout =>
      (s.joinReader operation .stderr answer).map fun stderr =>
        { s with pc := afterStderr operation after stdout stderr }
    | _ => none

/-! ## What a cancellation frees -/

/-- Cancelled, and joining a reader whose pipe a living process of the group holds, though
    the group was not killed. -/
def Stuck (s : Command) (stream : Stream) : Prop :=
  s.cancelled = true ∧ s.pc.joins = some stream ∧ Held s.group stream ∧ s.killed = false

/-- No cancellation leaves the command stuck, and the direct child, once there is one, is
    reaped when the loop or the abort is over, and not again. -/
structure Freed (s : Command) : Prop where
  free : ∀ stream, ¬ s.Stuck stream
  reaped : s.reaps = if s.group ≠ [] ∧ s.pc.past = true then 1 else 0
  fresh : s.pc.fresh = true → s.group = []
  spawned : s.pc.running = true → s.group ≠ []

/-- A join of this reader is no wait for a cancelled group that still lives. -/
def Joinable (s : Command) (stream : Stream) : Prop :=
  s.cancelled = true → s.killed = true ∨ ¬ Held s.group stream

/-- A join begins only where it is no wait for a cancelled group that still lives, none is
    cancelled while it waits for such a group, and the child can be killed and reaped. -/
def Timely (s : Command) : Action → Prop
  | .cancel => ∀ stream ∈ s.pc.joins, s.killed = true ∨ ¬ Held s.group stream
  | .tryWait (.ok (some _)) => s.Joinable .stdout
  | .killChild (.failed _) => False
  | .waitChild (.ok _) => s.Joinable .stdout
  | .waitChild (.error _) => False
  | .join answer => s.pc.joinsNext answer = true → s.Joinable .stderr
  | _ => True

instance (s : Command) (stream : Stream) : Decidable (s.Stuck stream) :=
  inferInstanceAs (Decidable (_ ∧ _ ∧ _ ∧ _))

instance (s : Command) (stream : Stream) : Decidable (s.Joinable stream) :=
  inferInstanceAs (Decidable (_ → _ ∨ _))

instance (s : Command) : (a : Action) → Decidable (s.Timely a)
  | .cancel => inferInstanceAs (Decidable (∀ stream ∈ s.pc.joins, _ ∨ _))
  | .tryWait (.ok (some _)) => inferInstanceAs (Decidable (s.Joinable .stdout))
  | .killChild (.failed _) => isFalse id
  | .waitChild (.ok _) => inferInstanceAs (Decidable (s.Joinable .stdout))
  | .waitChild (.error _) => isFalse id
  | .join _ => inferInstanceAs (Decidable (_ → s.Joinable .stderr))
  | .write .. => isTrue trivial
  | .fork .. => isTrue trivial
  | .release .. => isTrue trivial
  | .exit _ => isTrue trivial
  | .begin => isTrue trivial
  | .spawn _ => isTrue trivial
  | .check => isTrue trivial
  | .tryWait (.ok none) => isTrue trivial
  | .tryWait (.error _) => isTrue trivial
  | .killGroup _ => isTrue trivial
  | .killChild .killed => isTrue trivial
  | .killChild .notFound => isTrue trivial

/-! ## One step -/

section

variable {operation} {s t : Command} {stream : Stream}

theorem not_stuck_iff (h : s.pc.joins = some stream) :
    (∀ stream, ¬ s.Stuck stream) ↔ s.Joinable stream := by
  constructor
  · intro hfree hcancelled
    by_contra hbad
    obtain ⟨hkilled, hheld⟩ := not_or.mp hbad
    exact hfree stream ⟨hcancelled, h, not_not.mp hheld, Bool.eq_false_iff.mpr hkilled⟩
  · rintro hjoinable other ⟨hcancelled, hother, hheld, hkilled⟩
    obtain rfl : stream = other := Option.some.inj (h.symm.trans hother)
    rcases hjoinable hcancelled with hyes | hnot
    · rw [hkilled] at hyes
      cases hyes
    · exact hnot hheld

theorem not_stuck_of_joins (h : s.pc.joins = none) : ∀ stream, ¬ s.Stuck stream := by
  rintro stream ⟨-, hjoins, -⟩
  rw [h] at hjoins
  cases hjoins

theorem freed_process {i : Nat} {after : Command} (hs : s.Freed)
    (h : s.process i after = some t) (hpc : after.pc = s.pc)
    (hcancelled : after.cancelled = s.cancelled) (hkilled : after.killed = s.killed)
    (hreaps : after.reaps = s.reaps) (hgroup : after.group = [] ↔ s.group = [])
    (hheld : ∀ stream, Held after.group stream → Held s.group stream) : t.Freed := by
  unfold process at h
  split at h
  · cases h
    refine ⟨?_, ?_, ?_, ?_⟩
    · rintro stream ⟨hc, hj, hh, hk⟩
      exact hs.free stream ⟨hcancelled ▸ hc, hpc ▸ hj, hheld stream hh, hkilled ▸ hk⟩
    · simp only [hreaps, hs.reaped, hpc, ne_eq, hgroup]
    · exact fun hfresh => hgroup.mpr (hs.fresh (hpc ▸ hfresh))
    · exact fun hrunning => mt hgroup.mp (hs.spawned (hpc ▸ hrunning))
  · cases h

theorem Pc.of_joins {pc : Pc} (h : pc.joins = some stream) :
    pc.past = true ∧ pc.running = true ∧ pc.fresh = false := by
  cases pc with
  | joinStdout after => exact ⟨rfl, rfl, rfl⟩
  | joinStderr after stdout => exact ⟨rfl, rfl, rfl⟩
  | _ => cases h

/-- A command that joins a reader is freed where the join is no wait for a cancelled group that
    still lives and the child was reaped. -/
theorem freed_joining_iff (hjoins : s.pc.joins = some stream) (hgroup : s.group ≠ []) :
    s.Freed ↔ s.Joinable stream ∧ s.reaps = 1 := by
  obtain ⟨hpast, -, hfresh⟩ := Pc.of_joins hjoins
  constructor
  · intro h
    refine ⟨(not_stuck_iff hjoins).mp h.free, ?_⟩
    rw [h.reaped, if_pos ⟨hgroup, hpast⟩]
  · rintro ⟨hjoinable, hreaps⟩
    refine ⟨(not_stuck_iff hjoins).mpr hjoinable, ?_, ?_, fun _ => hgroup⟩
    · rw [hreaps, if_pos ⟨hgroup, hpast⟩]
    · intro h
      rw [hfresh] at h
      cases h

theorem freed_before (hpast : s.pc.past = false) (hfresh : s.pc.fresh = false)
    (hgroup : s.group ≠ []) (hreaps : s.reaps = 0) : s.Freed := by
  refine ⟨not_stuck_of_joins ?_, ?_, ?_, fun _ => hgroup⟩
  · cases hjoins : s.pc.joins with
    | none => rfl
    | some stream =>
      rw [(Pc.of_joins hjoins).1] at hpast
      cases hpast
  · rw [hreaps, if_neg (by simp [hpast])]
  · intro h
    rw [hfresh] at h
    cases h

theorem freed_done {result : Except HostError CommandOutput} (hpc : s.pc = .done result)
    (hreaps : s.reaps = if s.group ≠ [] then 1 else 0) : s.Freed := by
  refine ⟨not_stuck_of_joins (by rw [hpc]; rfl), ?_, ?_, ?_⟩
  · rw [hreaps, hpc]
    simp [Pc.past]
  · rw [hpc]
    nofun
  · rw [hpc]
    nofun

theorem Freed.reaps_before (hs : s.Freed) (hpast : s.pc.past = false) : s.reaps = 0 := by
  rw [hs.reaped, if_neg (by simp [hpast])]

theorem modify_eq_nil_iff {group : List (Holder Stream)} {i : Nat}
    {f : Holder Stream → Holder Stream} : group.modify i f = [] ↔ group = [] := by
  rw [← List.length_eq_zero_iff, List.length_modify, List.length_eq_zero_iff]

theorem fork_eq_nil_iff {group : List (Holder Stream)} {i : Nat} {kept : Stream → Bool} :
    fork kept group i = [] ↔ group = [] := by
  constructor
  · exact fun h => (List.append_eq_nil_iff.mp h).1
  · rintro rfl
    rfl

theorem killAll_eq_nil_iff {group : List (Holder Stream)} : killAll group = [] ↔ group = [] :=
  List.map_eq_nil_iff

/-- A step from a freed state is timely if and only if it leads to a freed state. -/
theorem timely_iff {a : Action} (hs : s.Freed) (h : step operation s a = some t) :
    s.Timely a ↔ t.Freed := by
  cases a with
  | write i stream bytes =>
    dsimp only [step] at h
    split at h
    · refine iff_of_true trivial ?_
      cases stream
      all_goals exact freed_process hs h rfl rfl rfl rfl Iff.rfl (fun _ => id)
    · cases h
  | fork i kept =>
    exact iff_of_true trivial
      (freed_process hs h rfl rfl rfl rfl fork_eq_nil_iff fun _ => held_of_fork)
  | release i stream =>
    exact iff_of_true trivial
      (freed_process hs h rfl rfl rfl rfl modify_eq_nil_iff fun _ => held_of_release)
  | exit i =>
    exact iff_of_true trivial
      (freed_process hs h rfl rfl rfl rfl modify_eq_nil_iff fun _ => held_of_exit)
  | cancel =>
    cases h
    constructor
    · intro htimely
      refine ⟨?_, hs.reaped, hs.fresh, hs.spawned⟩
      rintro stream ⟨-, hjoins, hheld, hkilled⟩
      rcases htimely stream hjoins with hyes | hnot
      · rw [show s.killed = false from hkilled] at hyes
        cases hyes
      · exact hnot hheld
    · intro hfreed stream hjoins
      by_contra hbad
      obtain ⟨hkilled, hheld⟩ := not_or.mp hbad
      exact hfreed.free stream ⟨rfl, hjoins, not_not.mp hheld, Bool.eq_false_iff.mpr hkilled⟩
  | begin =>
    dsimp only [step] at h
    split at h
    · next hpc =>
      have hnone := hs.fresh (by rw [hpc]; rfl)
      have hreaps := hs.reaps_before (by rw [hpc]; rfl)
      cases h
      refine iff_of_true trivial ?_
      cases s.cancelled with
      | true => exact freed_done rfl (by simp [hreaps, hnone])
      | false =>
        exact ⟨not_stuck_of_joins rfl, by simp [hreaps, hnone], fun _ => hnone, nofun⟩
    · cases h
  | spawn answer =>
    dsimp only [step] at h
    split at h
    · next hpc =>
      cases h
      exact iff_of_true trivial
        (freed_before rfl rfl (List.cons_ne_nil _ _) (hs.reaps_before (by rw [hpc]; rfl)))
    · next error hpc =>
      have hnone := hs.fresh (by rw [hpc]; rfl)
      have hreaps := hs.reaps_before (by rw [hpc]; rfl)
      cases h
      exact iff_of_true trivial (freed_done rfl (by simp [hreaps, hnone]))
    · cases h
  | check =>
    dsimp only [step] at h
    split at h
    · next hpc =>
      cases h
      have hgroup := hs.spawned (by rw [hpc]; rfl)
      have hreaps := hs.reaps_before (by rw [hpc]; rfl)
      refine iff_of_true trivial (freed_before ?_ ?_ hgroup hreaps)
      · dsimp only
        split <;> rfl
      · dsimp only
        split <;> rfl
    · cases h
  | tryWait answer =>
    dsimp only [step] at h
    have hgroup : s.pc = .tryWait → s.group ≠ [] := fun hpc =>
      hs.spawned (by rw [hpc]; rfl)
    have hreaps : s.pc = .tryWait → s.reaps = 0 := fun hpc => hs.reaps_before (by rw [hpc]; rfl)
    split at h
    · next hpc =>
      split at h
      · cases h
        exact iff_of_true trivial (freed_before rfl rfl (hgroup hpc) (hreaps hpc))
      · cases h
    · next status hpc =>
      split at h
      · cases h
      · cases h
        refine Iff.trans ?_ (Iff.symm (freed_joining_iff rfl (hgroup hpc)))
        exact (and_iff_left (by rw [hreaps hpc])).symm
    · next error hpc =>
      cases h
      exact iff_of_true trivial (freed_before rfl rfl (hgroup hpc) (hreaps hpc))
    · cases h
  | killGroup answer =>
    dsimp only [step] at h
    have hgroup : ∀ why, s.pc = .killGroup why → s.group ≠ [] := fun why hpc =>
      hs.spawned (by rw [hpc]; rfl)
    have hreaps : ∀ why, s.pc = .killGroup why → s.reaps = 0 := fun why hpc =>
      hs.reaps_before (by rw [hpc]; rfl)
    split at h
    · next why hpc =>
      cases h
      exact iff_of_true trivial
        (freed_before rfl rfl (mt killAll_eq_nil_iff.mp (hgroup why hpc)) (hreaps why hpc))
    · next why hpc =>
      cases h
      exact iff_of_true trivial (freed_before rfl rfl (hgroup why hpc) (hreaps why hpc))
    · next why error hpc =>
      cases h
      exact iff_of_true trivial (freed_before rfl rfl (hgroup why hpc) (hreaps why hpc))
    · cases h
  | killChild answer =>
    dsimp only [step] at h
    have hgroup : ∀ why group, s.pc = .killChild why group → s.group ≠ [] := fun why group hpc =>
      hs.spawned (by rw [hpc]; rfl)
    have hreaps : ∀ why group, s.pc = .killChild why group → s.reaps = 0 := fun why group hpc =>
      hs.reaps_before (by rw [hpc]; rfl)
    split at h
    · next why group hpc =>
      cases h
      exact iff_of_true trivial (freed_before rfl rfl
        (mt modify_eq_nil_iff.mp (hgroup why group hpc)) (hreaps why group hpc))
    · next why group hpc =>
      cases h
      exact iff_of_true trivial
        (freed_before rfl rfl (hgroup why group hpc) (hreaps why group hpc))
    · next why group error hpc =>
      cases h
      refine Iff.trans ?_ (Iff.symm (freed_joining_iff rfl (hgroup why group hpc)))
      exact iff_of_false id fun hone => absurd hone.2 (by rw [hreaps why group hpc]; decide)
    · cases h
  | waitChild answer =>
    dsimp only [step] at h
    have hgroup : ∀ why group, s.pc = .waitChild why group → s.group ≠ [] := fun why group hpc =>
      hs.spawned (by rw [hpc]; rfl)
    have hreaps : ∀ why group, s.pc = .waitChild why group → s.reaps = 0 := fun why group hpc =>
      hs.reaps_before (by rw [hpc]; rfl)
    split at h
    · next why group hpc =>
      split at h
      · cases h
      · cases h
        refine Iff.trans ?_ (Iff.symm (freed_joining_iff rfl (hgroup why group hpc)))
        exact (and_iff_left (by rw [hreaps why group hpc])).symm
    · next why group error hpc =>
      cases h
      refine Iff.trans ?_ (Iff.symm (freed_joining_iff rfl (hgroup why group hpc)))
      exact iff_of_false id fun hone => absurd hone.2 (by rw [hreaps why group hpc]; decide)
    · cases h
  | join answer =>
    dsimp only [step] at h
    split at h
    · next after hpc =>
      obtain ⟨stdout, hstdout, rfl⟩ := Option.map_eq_some_iff.mp h
      have hgroup : s.group ≠ [] := hs.spawned (by rw [hpc]; rfl)
      have hreaps : s.reaps = 1 := by rw [hs.reaped, if_pos ⟨hgroup, by rw [hpc]; rfl⟩]
      have hnext : ∀ after', Command.Freed { s with pc := .joinStderr after' stdout } ↔
          s.Joinable .stderr := fun after' =>
        Iff.trans (freed_joining_iff rfl hgroup) (and_iff_left hreaps)
      have hreturned : ∀ result, Command.Freed { s with pc := .done result } := fun result =>
        freed_done rfl (by rw [if_pos hgroup]; exact hreaps)
      cases after with
      | aborted why termination =>
        simp only [Timely, hpc, Pc.joinsNext, forall_const]
        exact (hnext _).symm
      | exited status =>
        cases answer with
        | data =>
          simp only [Timely, hpc, Pc.joinsNext, forall_const]
          dsimp only [joinReader] at hstdout
          split at hstdout
          · cases hstdout
          · cases hstdout
            exact (hnext _).symm
        | failed error =>
          simp only [Timely, hpc, Pc.joinsNext]
          cases hstdout
          exact iff_of_true nofun (hreturned _)
        | panicked =>
          simp only [Timely, hpc, Pc.joinsNext]
          cases hstdout
          exact iff_of_true nofun (hreturned _)
    · next after stdout hpc =>
      obtain ⟨stderr, -, rfl⟩ := Option.map_eq_some_iff.mp h
      have hgroup : s.group ≠ [] := hs.spawned (by rw [hpc]; rfl)
      have hreaps : s.reaps = 1 := by rw [hs.reaped, if_pos ⟨hgroup, by rw [hpc]; rfl⟩]
      simp only [Timely, hpc, Pc.joinsNext]
      cases after with
      | exited status =>
        exact iff_of_true nofun (freed_done rfl (by rw [if_pos hgroup]; exact hreaps))
      | aborted why termination =>
        exact iff_of_true nofun (freed_done rfl (by rw [if_pos hgroup]; exact hreaps))
    · cases h

end

/-! ## Every run -/

theorem freed_start : start.Freed :=
  ⟨not_stuck_of_joins rfl, rfl, fun _ => rfl, nofun⟩

/-- A run's steps are all timely if and only if no state it reaches is stuck and each has the
    direct child reaped as often as it should. -/
theorem cancellation_frees_iff (operation : String) (actions : List Action) (s : Command)
    (h : runSteps (step operation) .start actions = some s) :
    StepsMeet (step operation) Timely .start actions ↔
      ∀ first rest t, actions = first ++ rest → runSteps (step operation) .start first = some t →
        t.Freed :=
  stepsMeet_iff_reached (fun _ _ _ => timely_iff) freed_start h

/-- A command writes and exits, and both readers end. -/
theorem finished_freed :
    ∃ s, runSteps (step "processus:captura") .start
        [.begin, .spawn (.ok ()), .write 0 .stdout [104, 105], .exit 0, .check,
          .tryWait (.ok (some 0)), .join .data, .join .data] = some s ∧
      s.pc = .done (.ok ⟨0, [104, 105], []⟩) ∧ s.Freed := by
  refine ⟨_, rfl, by decide, ?_⟩
  have hfreed := (cancellation_frees_iff "processus:captura"
    [.begin, .spawn (.ok ()), .write 0 .stdout [104, 105], .exit 0, .check,
      .tryWait (.ok (some 0)), .join .data, .join .data] _ rfl).mp (by decide)
  exact hfreed _ [] _ (List.append_nil _).symm rfl

/-- `sh -c 'sleep 100 &'`: the shell forks and exits, the loop sees it, and the command is
    cancelled. -/
def leftBehind : List Action :=
  [.begin, .spawn (.ok ()), .fork 0 [.stdout, .stderr], .exit 0, .check, .tryWait (.ok (some 0)),
    .cancel]

/-- The descendant keeps the pipes, and nothing looks at the cancellation any more. -/
theorem left_behind_stuck :
    ∃ s, runSteps (step "processus:exsequi") .start leftBehind = some s ∧ s.Stuck .stdout ∧
      step "processus:exsequi" s (.join .data) = none :=
  ⟨_, rfl, by decide, rfl⟩

end Command

end FaberHosts.Processus
