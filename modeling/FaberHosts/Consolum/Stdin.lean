import FaberHosts.Kernel.Registry
import FaberHosts.Lib.Streams
import FaberHosts.Lib.Runs

/-!
# Waiting for standard input

`consolum/src/lib.rs`: the calls `consolum:lege` and `consolum:hauri` over the buffered
reader of standard input.  Before each read a call waits until the descriptor is
readable, which says nothing about the bytes that an earlier read left in the buffer.
-/

namespace FaberHosts.Consolum
open FaberHosts.Kernel FaberHosts.Lib

/-! ## The calls -/

def maxStdinReadBytes : Nat := 1024 * 1024

/-- The capacity of the reader behind `io::stdin`. -/
def stdinBufferBytes : Nat := 8 * 1024

def newline : UInt8 := 10

/-- What a call does: a line so far, or a number of bytes. -/
inductive Work where
  | lege (line : List UInt8)
  | hauri (magnitudo : Nat)
  deriving DecidableEq, Repr

/-- Where a call is: in `wait_for_fd`, or behind it. -/
inductive Phase where
  | waiting
  | reading
  deriving DecidableEq, Repr

inductive Reply where
  | byte (bytes : List UInt8)
  | textus (line : String)
  deriving DecidableEq, Repr

/-- Standard input, and the call that holds its lock. -/
structure Console where
  input : BufferedReader UInt8
  ended : Bool
  call : Option (Work × Phase)
  cancelled : Bool
  answers : List (Except HostError Reply)
  deriving DecidableEq, Repr

/-- Nothing has arrived and nothing was called. -/
def Console.start : Console := ⟨⟨[], []⟩, false, none, false, []⟩

inductive Action where
  | arrive (bytes : List UInt8)
  | close
  | lege
  | hauri (magnitudo : Int)
  | cancel
  | poll
  | pollFails (error : Option String)
  | read
  | readFails (error : String)
  deriving DecidableEq, Repr

def Work.route : Work → String
  | .lege _ => "consolum:lege"
  | .hauri _ => "consolum:hauri"

def boundedNonNegativeLen (value : Int) (max : Nat) (route name : String) :
    Except HostError Nat :=
  if value ≤ 0 then .ok 0
  else if max < value.toNat then
    .error (.invalidArgs s!"{route} {name} must be at most {max} bytes")
  else .ok value.toNat

def trimLineEnding (line : String) : String :=
  match line.toList.reverse with
  | '\n' :: '\r' :: rest => String.ofList rest.reverse
  | '\n' :: rest => String.ofList rest.reverse
  | _ => line

/-- A turn of the call itself. -/
def Action.isTurn : Action → Bool
  | .poll => true
  | .read => true
  | _ => false

namespace Console

variable (fromUtf8 : List UInt8 → Except String String)

/-- `poll` answers at once: bytes are queued, or the other end is closed. -/
def ready (s : Console) : Prop := s.input.queue ≠ [] ∨ s.ended

instance (s : Console) : Decidable s.ready := inferInstanceAs (Decidable (_ ∨ _))

/-- The call returns. -/
def answer (s : Console) (reply : Except HostError Reply) : Console :=
  { s with call := none, answers := s.answers ++ [reply] }

/-- The end of `read_line_from`, with the text of an error of `String::from_utf8`. -/
def finishLine (s : Console) (line : List UInt8) : Console :=
  s.answer (if s.cancelled then .error .cancelled else
    match fromUtf8 line with
    | .ok text => .ok (.textus (trimLineEnding text))
    | .error error => .error (.internal s!"failed to decode stdin line: {error}"))

/-- One byte for `read_line_from`. -/
def readByte (s : Console) (line : List UInt8) : Console :=
  let (bytes, input) := s.input.read stdinBufferBytes 1
  match bytes with
  | [] => finishLine fromUtf8 { s with input } line
  | byte :: _ =>
    if byte = newline then finishLine fromUtf8 { s with input } (line ++ [byte])
    else { s with input, call := some (.lege (line ++ [byte]), .waiting) }

/-- The one read of `read_stdin`. -/
def readBytes (s : Console) (magnitudo : Nat) : Console :=
  let (bytes, input) := s.input.read stdinBufferBytes magnitudo
  answer { s with input } (if s.cancelled then .error .cancelled else .ok (.byte bytes))

/-- A read with nothing to take and no end blocks. -/
def step (s : Console) : Action → Option Console
  | .arrive bytes =>
    if s.ended then none
    else some { s with input := ⟨s.input.queue ++ bytes, s.input.buffer⟩ }
  | .close => some { s with ended := true }
  | .lege =>
    if s.call.isSome then none
    else some { s with call := some (.lege [], .waiting), cancelled := false }
  | .hauri magnitudo =>
    if s.call.isSome then none
    else
      match boundedNonNegativeLen magnitudo maxStdinReadBytes "consolum:hauri" "magnitudo" with
      | .error error => some (s.answer (.error error))
      | .ok 0 => some (s.answer (.ok (.byte [])))
      | .ok (n + 1) =>
        some { s with call := some (.hauri (n + 1), .waiting), cancelled := false }
  | .cancel => some { s with cancelled := true }
  | .poll =>
    match s.call with
    | some (work, .waiting) =>
      if s.cancelled then some (s.answer (.error .cancelled))
      else if s.ready then some { s with call := some (work, .reading) }
      else some s
    | _ => none
  | .pollFails error =>
    match s.call with
    | some (work, .waiting) =>
      some (s.answer (.error (.internal (match error with
        | none => s!"{work.route} fd is invalid"
        | some error => s!"{work.route} poll failed: {error}"))))
    | _ => none
  | .read =>
    match s.call with
    | some (work, .reading) =>
      if s.input.unread = [] ∧ ¬ s.ended then none
      else
        match work with
        | .lege line => some (readByte fromUtf8 s line)
        | .hauri magnitudo => some (s.readBytes magnitudo)
    | _ => none
  | .readFails error =>
    match s.call with
    | some (.lege _, .reading) =>
      some (s.answer (.error (.internal s!"failed to read stdin line: {error}")))
    | some (.hauri _, .reading) =>
      some (s.answer (.error (.internal s!"failed to read stdin: {error}")))
    | _ => none

/-! ## Calls that wait for nothing -/

/-- A call is in `wait_for_fd` and will stay there until more arrives. -/
def Blocked (s : Console) (work : Work) : Prop :=
  s.call = some (work, .waiting) ∧ s.cancelled = false ∧ ¬ s.ready

/-- What has arrived ends the line. -/
def LineArrived (s : Console) : Prop := newline ∈ s.input.unread ∨ s.ended

/-- No call waits for more input while the buffer holds a byte, and no `lege` does whose
    line has arrived. -/
structure Prompt (s : Console) : Prop where
  buffer : ∀ work, s.Blocked work → s.input.buffer = []
  line : ∀ line, s.Blocked (.lege line) → ¬ s.LineArrived

/-- A `lege` is about to read. -/
def readsLine (s : Console) : Bool :=
  match s.call with
  | some (.lege _, .reading) => true
  | _ => false

/-- A call is made, and a byte of a line is taken, only where the wait that follows finds the
    descriptor readable or the buffer empty: what the buffer holds is the last byte of it, or
    the byte ends the line. -/
def Timely (s : Console) : Action → Prop
  | .lege => s.input.buffer = [] ∨ s.ready
  | .hauri magnitudo =>
    0 < magnitudo → magnitudo ≤ maxStdinReadBytes → s.input.buffer = [] ∨ s.ready
  | .read =>
    s.readsLine → s.cancelled = false → s.ended = false →
      (s.input.fill stdinBufferBytes).buffer.head? = some newline ∨
        (s.input.fill stdinBufferBytes).buffer.length = 1 ∨
        (s.input.fill stdinBufferBytes).queue ≠ []
  | _ => True

instance (s : Console) : (a : Action) → Decidable (s.Timely a)
  | .lege => inferInstanceAs (Decidable (_ ∨ _))
  | .hauri _ => inferInstanceAs (Decidable (_ → _ → _ ∨ _))
  | .read => inferInstanceAs (Decidable (_ → _ → _ → _ ∨ _ ∨ _))
  | .arrive _ => isTrue trivial
  | .close => isTrue trivial
  | .cancel => isTrue trivial
  | .poll => isTrue trivial
  | .pollFails _ => isTrue trivial
  | .readFails _ => isTrue trivial

/-! ## One step -/

section

variable {fromUtf8} {s t : Console}

theorem not_ready (h : ¬ s.ready) : s.input.queue = [] ∧ s.ended = false := by
  obtain ⟨hqueue, hended⟩ := not_or.mp h
  exact ⟨not_not.mp hqueue, Bool.eq_false_iff.mpr hended⟩

theorem prompt_iff : s.Prompt ↔ ∀ work, s.Blocked work → s.input.buffer = [] := by
  refine ⟨Prompt.buffer, fun hbuffer => ⟨hbuffer, fun line hblocked harrived => ?_⟩⟩
  obtain ⟨hqueue, hended⟩ := not_ready hblocked.2.2
  rw [LineArrived, BufferedReader.unread, hbuffer _ hblocked, hqueue, hended] at harrived
  rcases harrived with hmem | hend
  · cases hmem
  · cases hend

/-- A call that begins is prompt where it finds the buffer empty or the descriptor readable. -/
theorem prompt_waiting_iff {work : Work} (hcall : s.call = some (work, .waiting))
    (hcancelled : s.cancelled = false) : s.Prompt ↔ s.input.buffer = [] ∨ s.ready := by
  rw [prompt_iff]
  constructor
  · intro h
    by_cases hready : s.ready
    · exact .inr hready
    · exact .inl (h work ⟨hcall, hcancelled, hready⟩)
  · rintro h work' ⟨-, -, hready⟩
    exact h.resolve_right hready

theorem prompt_of_call (h : ∀ work, s.call ≠ some (work, .waiting)) : s.Prompt :=
  prompt_iff.mpr fun work hblocked => absurd hblocked.1 (h work)

theorem prompt_answer (reply : Except HostError Reply) : (s.answer reply).Prompt :=
  prompt_of_call fun _ => nofun

theorem prompt_of_cancelled (h : s.cancelled = true) : s.Prompt :=
  prompt_iff.mpr fun work hblocked => by
    rw [hblocked.2.1] at h
    cases h

theorem prompt_of_ready (h : s.ready) : s.Prompt :=
  prompt_iff.mpr fun _ hblocked => absurd h hblocked.2.2

/-- A byte of a line that is not its last leaves the call prompt where it was the last of the
    buffer, or the descriptor is still readable. -/
theorem prompt_readByte_iff {line : List UInt8}
    (hcall : s.call = some (.lege line, .reading)) (hread : ¬ (s.input.unread = [] ∧ ¬ s.ended)) :
    Timely s .read ↔ (readByte fromUtf8 s line).Prompt := by
  have hcapacity : 1 < stdinBufferBytes := by decide
  cases hfill : (s.input.fill stdinBufferBytes).buffer with
  | nil =>
    -- the end of the input: the line is what came before it
    have hunread := (BufferedReader.fill_buffer_eq_nil_iff (Nat.zero_lt_of_lt hcapacity)).mp hfill
    have hended : s.ended = true := by simpa [hunread] using hread
    rw [readByte, BufferedReader.read_one_nil hcapacity hunread]
    refine iff_of_true (fun _ _ hopen => ?_) (prompt_answer _)
    rw [hended] at hopen
    cases hopen
  | cons first rest =>
    rw [readByte, BufferedReader.read_one hcapacity hfill]
    dsimp only
    split
    · next hnewline =>
      refine iff_of_true (fun _ _ _ => .inl ?_) (prompt_answer _)
      rw [hfill, hnewline]
      rfl
    · next hnewline =>
      cases hcancelled : s.cancelled with
      | true =>
        refine iff_of_true (fun _ hactive => ?_) (prompt_of_cancelled rfl)
        rw [hcancelled] at hactive
        cases hactive
      | false =>
        refine Iff.trans ?_ (Iff.symm (prompt_waiting_iff rfl rfl))
        simp only [Timely, readsLine, hcall, hcancelled, hfill, ready, List.head?_cons,
          Option.some.injEq, hnewline, List.length_cons, Nat.add_eq_right, List.length_eq_zero_iff, false_or]
        cases s.ended <;> simp

/-- A step from a prompt state is timely if and only if it leads to a prompt state. -/
theorem timely_iff {a : Action} (hs : s.Prompt) (h : step fromUtf8 s a = some t) :
    s.Timely a ↔ t.Prompt := by
  cases a with
  | arrive bytes =>
    rw [step] at h
    split at h
    · cases h
    · next hended =>
      cases h
      refine iff_of_true trivial (prompt_iff.mpr fun work hblocked => ?_)
      obtain ⟨hcall, hcancelled, hready⟩ := hblocked
      obtain ⟨hqueue, -⟩ := not_ready hready
      have hbefore : ¬ s.ready :=
        not_or.mpr ⟨not_not.mpr (List.append_eq_nil_iff.mp hqueue).1, hended⟩
      exact hs.buffer work ⟨hcall, hcancelled, hbefore⟩
  | close =>
    cases h
    exact iff_of_true trivial (prompt_of_ready (.inr rfl))
  | cancel =>
    cases h
    exact iff_of_true trivial (prompt_of_cancelled rfl)
  | lege =>
    rw [step] at h
    split at h
    · cases h
    · cases h
      exact Iff.symm (prompt_waiting_iff rfl rfl)
  | hauri magnitudo =>
    rw [step] at h
    split at h
    · cases h
    · unfold boundedNonNegativeLen at h
      by_cases hlow : magnitudo ≤ 0
      · rw [if_pos hlow] at h
        cases h
        exact iff_of_true (fun hpositive => absurd hpositive (by omega)) (prompt_answer _)
      · rw [if_neg hlow] at h
        by_cases hhigh : maxStdinReadBytes < magnitudo.toNat
        · rw [if_pos hhigh] at h
          cases h
          exact iff_of_true (fun _ hle => absurd hhigh (by omega)) (prompt_answer _)
        · rw [if_neg hhigh] at h
          obtain ⟨n, hn⟩ : ∃ n, magnitudo.toNat = n + 1 := ⟨magnitudo.toNat - 1, by omega⟩
          rw [hn] at h
          cases h
          refine Iff.trans ⟨fun htimely => ?_, fun h _ _ => h⟩
            (Iff.symm (prompt_waiting_iff rfl rfl))
          exact htimely (by omega) (by omega)
  | poll =>
    rw [step] at h
    split at h
    · split at h
      · cases h
        exact iff_of_true trivial (prompt_answer _)
      · split at h
        · next hready =>
          cases h
          exact iff_of_true trivial (prompt_of_ready hready)
        · cases h
          exact iff_of_true trivial hs
    · cases h
  | pollFails error =>
    rw [step] at h
    split at h
    · cases h
      exact iff_of_true trivial (prompt_answer _)
    · cases h
  | read =>
    rw [step] at h
    split at h
    · next work hcall =>
      split at h
      · cases h
      · next hread =>
        split at h
        · cases h
          exact prompt_readByte_iff hcall hread
        · next magnitudo =>
          cases h
          refine iff_of_true ?_ (prompt_answer _)
          intro hreads
          rw [readsLine, hcall] at hreads
          cases hreads
    · cases h
  | readFails error =>
    rw [step] at h
    split at h
    · cases h
      exact iff_of_true trivial (prompt_answer _)
    · cases h
      exact iff_of_true trivial (prompt_answer _)
    · cases h

end

/-! ## A line that has arrived -/

/-- How many turns a `lege` needs for what has arrived of its line: two for each byte. -/
def stepsLeft (s : Console) : Nat :=
  2 * s.input.unread.findIdx (· == newline) +
    match s.call with
    | some (_, .waiting) => 2
    | _ => 1

section

variable {fromUtf8} {s t : Console} {line : List UInt8} {phase : Phase}

/-- What a step leaves of a `lege` whose line has arrived: it has returned, or its line has
    still arrived and it is no further from its end. -/
def NoFurther (s t : Console) : Prop :=
  t.call = none ∨
    (∃ line phase, t.call = some (.lege line, phase)) ∧ t.LineArrived ∧ t.stepsLeft ≤ s.stepsLeft

/-- A turn brings it nearer. -/
def Nearer (s t : Console) : Prop :=
  t.call = none ∨
    (∃ line phase, t.call = some (.lege line, phase)) ∧ t.LineArrived ∧ t.stepsLeft < s.stepsLeft

theorem poll_nearer (hs : s.Prompt) (hcall : s.call = some (.lege line, phase))
    (harrived : s.LineArrived) (h : step fromUtf8 s .poll = some t) : Nearer s t := by
  rw [step, hcall] at h
  cases phase with
  | reading => cases h
  | waiting =>
    dsimp only at h
    split at h
    · cases h
      exact .inl rfl
    · next hactive =>
      have hready : s.ready := by
        by_contra hready
        exact hs.line line ⟨hcall, Bool.eq_false_iff.mpr hactive, hready⟩ harrived
      rw [if_pos hready] at h
      cases h
      refine .inr ⟨⟨line, .reading, rfl⟩, harrived, ?_⟩
      simp [stepsLeft, hcall]

theorem read_nearer (hcall : s.call = some (.lege line, phase)) (harrived : s.LineArrived)
    (h : step fromUtf8 s .read = some t) : Nearer s t := by
  have hcapacity : 1 < stdinBufferBytes := by decide
  rw [step, hcall] at h
  cases phase with
  | waiting => cases h
  | reading =>
    dsimp only at h
    split at h
    · cases h
    · next hread =>
      cases h
      cases hfill : (s.input.fill stdinBufferBytes).buffer with
      | nil =>
        have hunread :=
          (BufferedReader.fill_buffer_eq_nil_iff (Nat.zero_lt_of_lt hcapacity)).mp hfill
        rw [readByte, BufferedReader.read_one_nil hcapacity hunread]
        exact .inl rfl
      | cons first rest =>
        have hsplit := @BufferedReader.read_append _ stdinBufferBytes 1 s.input
        rw [BufferedReader.read_one hcapacity hfill, List.singleton_append] at hsplit
        rw [readByte, BufferedReader.read_one hcapacity hfill]
        dsimp only
        split
        · exact .inl rfl
        · next hnewline =>
          refine .inr ⟨⟨_, _, rfl⟩, ?_, ?_⟩
          · rw [LineArrived, ← hsplit, List.mem_cons] at harrived
            exact harrived.imp_left (Or.resolve_left · (Ne.symm hnewline))
          · have hfirst : (first == newline) = false := by simpa using hnewline
            have hindex : s.input.unread.findIdx (· == newline) =
                (BufferedReader.unread ⟨(s.input.fill stdinBufferBytes).queue, rest⟩).findIdx
                  (· == newline) + 1 := by
              rw [← hsplit, List.findIdx_cons, hfirst]
              rfl
            rw [stepsLeft, stepsLeft, hindex, hcall]
            dsimp only
            omega

theorem other_noFurther {a : Action} (ha : a.isTurn = false)
    (hcall : s.call = some (.lege line, phase)) (harrived : s.LineArrived)
    (h : step fromUtf8 s a = some t) : NoFurther s t := by
  cases a with
  | arrive bytes =>
    rw [step] at h
    split at h
    · cases h
    · next hended =>
      cases h
      have hmem : newline ∈ s.input.unread := harrived.resolve_right hended
      have hunread : BufferedReader.unread ⟨s.input.queue ++ bytes, s.input.buffer⟩ =
          s.input.unread ++ bytes := (List.append_assoc _ _ _).symm
      refine .inr ⟨⟨line, phase, hcall⟩, .inl ?_, ?_⟩
      · rw [hunread]
        exact List.mem_append_left _ hmem
      · rw [stepsLeft, stepsLeft]
        dsimp only
        rw [hunread, List.findIdx_append,
          if_pos (List.findIdx_lt_length_of_exists ⟨newline, hmem, by simp⟩)]
  | close =>
    cases h
    exact .inr ⟨⟨line, phase, hcall⟩, .inr rfl, le_rfl⟩
  | cancel =>
    cases h
    exact .inr ⟨⟨line, phase, hcall⟩, harrived, le_rfl⟩
  | lege =>
    rw [step, hcall] at h
    cases h
  | hauri magnitudo =>
    rw [step, hcall] at h
    cases h
  | poll => cases ha
  | read => cases ha
  | pollFails error =>
    rw [step, hcall] at h
    cases phase with
    | waiting =>
      cases h
      exact .inl rfl
    | reading => cases h
  | readFails error =>
    rw [step, hcall] at h
    cases phase with
    | waiting => cases h
    | reading =>
      cases h
      exact .inl rfl

theorem stepsLeft_pos : 0 < s.stepsLeft := by
  unfold stepsLeft
  split <;> omega

theorem lege_returns {actions : List Action}
    (hs : s.Prompt) (hmeet : StepsMeet (step fromUtf8) Timely s actions)
    (hrun : runSteps (step fromUtf8) s actions = some t)
    (hcall : s.call = some (.lege line, phase)) (harrived : s.LineArrived)
    (hturns : s.stepsLeft ≤ actions.countP Action.isTurn) :
    ∃ first rest u, actions = first ++ rest ∧ runSteps (step fromUtf8) s first = some u ∧
      u.call = none := by
  induction actions generalizing s line phase with
  | nil => exact absurd hturns (Nat.not_le.mpr stepsLeft_pos)
  | cons a actions ih =>
    obtain ⟨v, hv, hrest⟩ := runSteps_cons hrun
    have hprompt := (timely_iff hs hv).mp hmeet.1
    -- returned on this step, or later from the state behind it
    have hlater : (v.call = none ∨ (∃ line phase, v.call = some (.lege line, phase)) ∧
        v.LineArrived ∧ v.stepsLeft ≤ actions.countP Action.isTurn) →
        ∃ first rest u, a :: actions = first ++ rest ∧ runSteps (step fromUtf8) s first = some u ∧
          u.call = none := by
      rintro (hnone | ⟨⟨line', phase', hcall'⟩, harrived', hturns'⟩)
      · exact ⟨[a], actions, v, rfl, by simp [runSteps, hv], hnone⟩
      · obtain ⟨first, rest, u, rfl, hu, hnone⟩ :=
          ih hprompt (hmeet.2 v hv) hrest hcall' harrived' hturns'
        exact ⟨a :: first, rest, u, rfl, by simp [runSteps, hv, hu], hnone⟩
    refine hlater ?_
    rw [List.countP_cons] at hturns
    cases hturn : a.isTurn with
    | true =>
      rw [hturn, if_pos rfl] at hturns
      have hnearer : Nearer s v := by
        cases a with
        | poll => exact poll_nearer hs hcall harrived hv
        | read => exact read_nearer hcall harrived hv
        | _ => cases hturn
      exact hnearer.imp_right fun hnear =>
        ⟨hnear.1, hnear.2.1, by have hless := hnear.2.2; omega⟩
    | false =>
      rw [hturn, if_neg Bool.false_ne_true, Nat.add_zero] at hturns
      exact (other_noFurther hturn hcall harrived hv).imp_right
        fun hfurther => ⟨hfurther.1, hfurther.2.1, hfurther.2.2.trans hturns⟩

end

/-! ## Every run -/

theorem prompt_start : start.Prompt := prompt_of_call fun _ => nofun

/-- A run's steps are all timely if and only if every state it reaches is prompt; and then a
    `lege` whose line has arrived returns within its turns. -/
theorem input_prompt_iff (fromUtf8 : List UInt8 → Except String String) (actions : List Action)
    (s : Console) (h : runSteps (step fromUtf8) .start actions = some s) :
    (StepsMeet (step fromUtf8) Timely .start actions ↔
      ∀ first rest t, actions = first ++ rest → runSteps (step fromUtf8) .start first = some t →
        t.Prompt) ∧
    (StepsMeet (step fromUtf8) Timely .start actions →
      ∀ first rest t line phase, actions = first ++ rest →
        runSteps (step fromUtf8) .start first = some t → t.call = some (.lege line, phase) →
        t.LineArrived → t.stepsLeft ≤ rest.countP Action.isTurn →
        ∃ more last u, rest = more ++ last ∧ runSteps (step fromUtf8) t more = some u ∧
          u.call = none) := by
  have hreached := stepsMeet_iff_reached (fun _ _ _ => timely_iff) prompt_start h
  refine ⟨hreached, fun hmeet first rest t line phase hsplit ht hcall harrived hturns => ?_⟩
  have hprompt := hreached.mp hmeet first rest t hsplit ht
  rw [hsplit, runSteps_append, ht] at h
  rw [hsplit] at hmeet
  exact lege_returns hprompt (hmeet.rest ht) h hcall harrived hturns

/-- The bytes of a line arrive one by one. -/
theorem byte_by_byte_prompt :
    ∃ s, runSteps (step fun _ => .ok "a\n") .start
        [.lege, .arrive [97], .poll, .read, .arrive [newline], .poll, .read] = some s ∧
      s.answers = [.ok (.textus "a")] ∧ s.Prompt := by
  refine ⟨_, rfl, by decide, ?_⟩
  have hprompt := (input_prompt_iff (fun _ => .ok "a\n")
    [.lege, .arrive [97], .poll, .read, .arrive [newline], .poll, .read] _ rfl).1.mp (by decide)
  exact hprompt _ [] _ (List.append_nil _).symm rfl

/-- `ab` and a newline arrive at once, and a line is read. -/
def lineAtOnce : List Action := [.arrive [97, 98, newline], .lege, .poll, .read]

/-- The first read moves the whole line into the buffer, and the call waits for more. -/
theorem line_at_once_blocked :
    ∃ s, runSteps (step fun _ => .ok "ab") .start lineAtOnce = some s ∧
      s.Blocked (.lege [97]) ∧ s.input.buffer = [98, newline] ∧ s.LineArrived ∧ ¬ s.Prompt := by
  refine ⟨_, rfl, ⟨rfl, rfl, by decide⟩, rfl, .inl (by decide), fun hprompt => ?_⟩
  have hempty := hprompt.buffer (.lege [97]) ⟨rfl, rfl, by decide⟩
  cases hempty

end Console

end FaberHosts.Consolum
