import FaberHosts.Http.Buffered

/-!
# Polls in a row

`http/src/lib.rs`: successive calls of `poll_request` on a connection, and the same run
together into one.
-/

namespace FaberHosts.Http
open FaberHosts.Lib FaberHosts.Kernel

/-- The bytes that events deliver. -/
def delivered : List ReadEvent → List UInt8
  | [] => []
  | .data bytes :: events => bytes ++ delivered events
  | _ :: events => delivered events

/-- The events a poll leaves to the next one.  A closed socket stays closed. -/
def unread (maxBodyBytes : Nat) (leftover : List UInt8) (events : List ReadEvent) :
    List ReadEvent :=
  match bufferedRequest maxBodyBytes "" leftover with
  | .ok none =>
    match events with
    | .data bytes :: events => unread maxBodyBytes (leftover ++ bytes) events
    | .wouldBlock _ _ :: events => events
    | .interrupted :: events => unread maxBodyBytes leftover events
    | events => events
  | _ => events

/-- How a series of polls ends: with an error, with a closed connection, or waiting on a
    socket that has nothing more; or it goes on after the last call. -/
inductive Ending where
  | failed (error : HostError)
  | closed
  | waiting
  | unfinished
  deriving DecidableEq, Repr

/-- The requests of a number of polls, each with the bytes not consumed after it, and how the
    polls end. -/
def pollAll (maxBodyBytes now : Nat) (stopped : Bool) :
    Nat → Nat → ReadState → List ReadEvent → List (RequestParts × List UInt8) × Ending
  | 0, _, _, _ => ([], .unfinished)
  | calls + 1, n, state, events =>
    match pollRequest maxBodyBytes stopped false (requestId n) now state events with
    | (.error e, _) => ([], .failed e)
    | (.ok .closed, _) => ([], .closed)
    | (.ok (.ready parts), after) =>
      let rest := unread maxBodyBytes state.leftover events
      let later := pollAll maxBodyBytes now stopped calls (n + 1) after rest
      ((parts, after.leftover ++ delivered rest) :: later.1, later.2)
    | (.ok _, after) =>
      if events = [] then ([], .waiting)
      else pollAll maxBodyBytes now stopped calls n after
        (unread maxBodyBytes state.leftover events)

/-! ## Polls run together -/

section Polls

variable {maxBodyBytes now n : Nat} {stopped : Bool} {state : ReadState}
  {events : List ReadEvent} {leftover : List UInt8}

/-- Successive polls run together, from what is buffered on. -/
def serve (maxBodyBytes n : Nat) (leftover : List UInt8) (events : List ReadEvent) :
    List (RequestParts × List UInt8) × Ending :=
  match _h : bufferedRequest maxBodyBytes (requestId n) leftover with
  | .error e => ([], .failed e)
  | .ok (some (parts, rest)) =>
    let later := serve maxBodyBytes (n + 1) rest events
    ((parts, rest ++ delivered events) :: later.1, later.2)
  | .ok none =>
    match events with
    | [] => ([], .waiting)
    | .data bytes :: events => serve maxBodyBytes n (leftover ++ bytes) events
    | .ended :: _ =>
      ([], if leftover = [] then .closed
        else .failed (.invalidArgs "http:accept request ended before headers"))
    | .wouldBlock _ _ :: events => serve maxBodyBytes n leftover events
    | .interrupted :: events => serve maxBodyBytes n leftover events
    | .failed error :: _ => ([], .failed (.internal s!"http:accept read failed: {error}"))
termination_by (leftover.length + (delivered events).length, events.length)
decreasing_by
  · exact Prod.Lex.left _ _ (Nat.add_lt_add_right (bufferedRequest_takes _h).length_lt _)
  · simp only [delivered, List.length_append, List.length_cons, ← Nat.add_assoc]
    exact Prod.Lex.right _ (Nat.lt_succ_self _)
  · exact Prod.Lex.right _ (Nat.lt_succ_self _)
  · exact Prod.Lex.right _ (Nat.lt_succ_self _)

theorem serve_error {e : HostError}
    (h : bufferedRequest maxBodyBytes (requestId n) leftover = .error e) :
    serve maxBodyBytes n leftover events = ([], .failed e) := by
  rw [serve.eq_def]
  split
  next e' herror => rw [Except.error.inj (h.symm.trans herror)]
  next hready => exact absurd (h.symm.trans hready) (by simp)
  next hnone => exact absurd (h.symm.trans hnone) (by simp)

theorem serve_ready {parts : RequestParts} {rest : List UInt8}
    (h : bufferedRequest maxBodyBytes (requestId n) leftover = .ok (some (parts, rest))) :
    serve maxBodyBytes n leftover events =
      ((parts, rest ++ delivered events) :: (serve maxBodyBytes (n + 1) rest events).1,
        (serve maxBodyBytes (n + 1) rest events).2) := by
  rw [serve.eq_def]
  split
  next herror => exact absurd (h.symm.trans herror) (by simp)
  next parts' rest' hready =>
    obtain ⟨rfl, rfl⟩ := Prod.mk.inj (Option.some.inj (Except.ok.inj (h.symm.trans hready)))
    rfl
  next hnone => exact absurd (h.symm.trans hnone) (by simp)

theorem serve_none (h : bufferedRequest maxBodyBytes (requestId n) leftover = .ok none) :
    serve maxBodyBytes n leftover events =
      match events with
      | [] => ([], .waiting)
      | .data bytes :: events => serve maxBodyBytes n (leftover ++ bytes) events
      | .ended :: _ =>
        ([], if leftover = [] then .closed
          else .failed (.invalidArgs "http:accept request ended before headers"))
      | .wouldBlock _ _ :: events => serve maxBodyBytes n leftover events
      | .interrupted :: events => serve maxBodyBytes n leftover events
      | .failed error :: _ => ([], .failed (.internal s!"http:accept read failed: {error}")) := by
  rw [serve.eq_def]
  split
  next herror => exact absurd (h.symm.trans herror) (by simp)
  next hready => exact absurd (h.symm.trans hready) (by simp)
  next => rfl

theorem bufferedRequest_none_rename {id : String} (id' : String)
    (h : bufferedRequest maxBodyBytes id leftover = .ok none) :
    bufferedRequest maxBodyBytes id' leftover = .ok none := by
  rw [bufferedRequest_rename maxBodyBytes id' id, h]
  rfl

theorem unread_none {id : String} (h : bufferedRequest maxBodyBytes id leftover = .ok none) :
    unread maxBodyBytes leftover events =
      match events with
      | .data bytes :: events => unread maxBodyBytes (leftover ++ bytes) events
      | .wouldBlock _ _ :: events => events
      | .interrupted :: events => unread maxBodyBytes leftover events
      | events => events := by
  rw [unread.eq_def, bufferedRequest_none_rename "" h]

theorem unread_ready {id : String} {parts : RequestParts} {rest : List UInt8}
    (h : bufferedRequest maxBodyBytes id leftover = .ok (some (parts, rest))) :
    unread maxBodyBytes leftover events = events := by
  rw [unread.eq_def, bufferedRequest_rename maxBodyBytes "" id, h]
  rfl

theorem pollRequest_error {id : String} {e : HostError}
    (h : bufferedRequest maxBodyBytes id state.leftover = .error e) :
    pollRequest maxBodyBytes stopped false id now state events = (.error e, state) := by
  rw [pollRequest.eq_def]
  simp only [h]

theorem pollRequest_ready {id : String} {parts : RequestParts} {rest : List UInt8}
    (h : bufferedRequest maxBodyBytes id state.leftover = .ok (some (parts, rest))) :
    pollRequest maxBodyBytes stopped false id now state events =
      (.ok (.ready parts), { state with
        leftover := rest
        idleSince := now
        readStarted := if rest = [] then none else some now }) := by
  rw [pollRequest.eq_def]
  simp only [h]

theorem pollRequest_none {id : String}
    (h : bufferedRequest maxBodyBytes id state.leftover = .ok none) :
    pollRequest maxBodyBytes stopped false id now state events =
      match events with
      | [] => (.ok .idle, state)
      | .data bytes :: events =>
        pollRequest maxBodyBytes stopped false id now { state with
          leftover := state.leftover ++ bytes
          readStarted := some (state.readStarted.getD now) } events
      | .ended :: _ =>
        if state.leftover = [] then (.ok .closed, { state with ended := true })
        else
          (.error (.invalidArgs "http:accept request ended before headers"),
            { state with ended := true })
      | .wouldBlock _ _ :: _ => (.ok .idle, state)
      | .interrupted :: events => pollRequest maxBodyBytes stopped false id now state events
      | .failed error :: _ => (.error (.internal s!"http:accept read failed: {error}"), state) := by
  rw [pollRequest.eq_def]
  simp only [h]
  rfl

/-- What a poll answers, as a part of the polls run together. -/
def PollServes (maxBodyBytes n : Nat) (state : ReadState) (events : List ReadEvent)
    (answer : Except HostError PollRead × ReadState) : Prop :=
  let rest := unread maxBodyBytes state.leftover events
  match answer with
  | (.error e, _) => serve maxBodyBytes n state.leftover events = ([], .failed e)
  | (.ok .closed, _) => serve maxBodyBytes n state.leftover events = ([], .closed)
  | (.ok (.ready parts), after) =>
    serve maxBodyBytes n state.leftover events =
        ((parts, after.leftover ++ delivered rest) ::
            (serve maxBodyBytes (n + 1) after.leftover rest).1,
          (serve maxBodyBytes (n + 1) after.leftover rest).2) ∧
      after.leftover.length + (delivered rest).length + rest.length <
        state.leftover.length + (delivered events).length + events.length
  | (.ok _, after) =>
    serve maxBodyBytes n state.leftover events = serve maxBodyBytes n after.leftover rest ∧
      (events = [] → serve maxBodyBytes n state.leftover events = ([], .waiting)) ∧
      after.leftover.length + (delivered rest).length ≤
        state.leftover.length + (delivered events).length ∧ rest.length ≤ events.length - 1

theorem PollServes.of_rest {before : ReadState} {event : ReadEvent}
    {answer : Except HostError PollRead × ReadState}
    (h : PollServes maxBodyBytes n state events answer)
    (hserve : serve maxBodyBytes n before.leftover (event :: events) =
      serve maxBodyBytes n state.leftover events)
    (hunread : unread maxBodyBytes before.leftover (event :: events) =
      unread maxBodyBytes state.leftover events)
    (hbytes : state.leftover.length + (delivered events).length =
      before.leftover.length + (delivered (event :: events)).length) :
    PollServes maxBodyBytes n before (event :: events) answer := by
  unfold PollServes at h ⊢
  rw [hserve, hunread, ← hbytes]
  rcases answer with ⟨e | read, after⟩
  · exact h
  · cases read with
    | closed => exact h
    | ready parts =>
      refine ⟨h.1, h.2.trans_le ?_⟩
      simp only [List.length_cons]
      omega
    | idle =>
      refine ⟨h.1, fun hnil => (List.cons_ne_nil _ _ hnil).elim, h.2.2.1, ?_⟩
      have := h.2.2.2
      simp only [List.length_cons]
      omega
    | expired =>
      refine ⟨h.1, fun hnil => (List.cons_ne_nil _ _ hnil).elim, h.2.2.1, ?_⟩
      have := h.2.2.2
      simp only [List.length_cons]
      omega

theorem pollServes_ready {parts : RequestParts} {rest : List UInt8} {started : Option Nat}
    (h : bufferedRequest maxBodyBytes (requestId n) state.leftover = .ok (some (parts, rest))) :
    PollServes maxBodyBytes n state events (.ok (.ready parts), { state with
      leftover := rest
      idleSince := now
      readStarted := started }) := by
  simp only [PollServes, unread_ready h]
  refine ⟨serve_ready h, ?_⟩
  have := (bufferedRequest_takes h).length_lt
  omega

theorem pollServes (maxBodyBytes now n : Nat) (stopped : Bool) (state : ReadState)
    (events : List ReadEvent) :
    PollServes maxBodyBytes n state events
      (pollRequest maxBodyBytes stopped false (requestId n) now state events) := by
  induction events generalizing state with
  | nil =>
    cases h : bufferedRequest maxBodyBytes (requestId n) state.leftover with
    | error e =>
      rw [pollRequest_error h]
      exact serve_error h
    | ok read =>
      cases read with
      | some read =>
        rw [pollRequest_ready h]
        exact pollServes_ready h
      | none =>
        rw [pollRequest_none h]
        refine ⟨?_, fun _ => serve_none h, ?_, ?_⟩
        · rw [unread_none h]
        · rw [unread_none h]
        · rw [unread_none h]
          simp
  | cons event events ih =>
    cases h : bufferedRequest maxBodyBytes (requestId n) state.leftover with
    | error e =>
      rw [pollRequest_error h]
      exact serve_error h
    | ok read =>
      cases read with
      | some read =>
        rw [pollRequest_ready h]
        exact pollServes_ready h
      | none =>
        rw [pollRequest_none h]
        cases event with
        | data bytes =>
          refine (ih _).of_rest (serve_none h) (unread_none h) ?_
          simp only [delivered, List.length_append]
          omega
        | ended =>
          dsimp only
          by_cases hempty : state.leftover = []
          · rw [if_pos hempty]
            exact (serve_none h).trans (by rw [if_pos hempty])
          · rw [if_neg hempty]
            exact (serve_none h).trans (by rw [if_neg hempty])
        | wouldBlock cancelled expired =>
          have hunread : unread maxBodyBytes state.leftover (.wouldBlock cancelled expired :: events) =
              events := unread_none h
          refine ⟨?_, fun hnil => (List.cons_ne_nil _ _ hnil).elim, ?_, ?_⟩
          · rw [hunread]
            exact serve_none h
          · rw [hunread]
            exact le_rfl
          · rw [hunread]
            exact le_rfl
        | interrupted => exact (ih _).of_rest (serve_none h) (unread_none h) rfl
        | failed error => exact serve_none h

theorem pollAll_eq_serve {calls : Nat}
    (h : state.leftover.length + (delivered events).length + events.length < calls) :
    pollAll maxBodyBytes now stopped calls n state events =
      serve maxBodyBytes n state.leftover events := by
  induction calls generalizing n state events with
  | zero => exact absurd h (Nat.not_lt_zero _)
  | succ calls ih =>
    have hpoll := pollServes maxBodyBytes now n stopped state events
    have hidle {after : ReadState} (hserve : serve maxBodyBytes n state.leftover events =
          serve maxBodyBytes n after.leftover (unread maxBodyBytes state.leftover events))
        (hwaits : events = [] → serve maxBodyBytes n state.leftover events = ([], .waiting))
        (hbytes : after.leftover.length +
            (delivered (unread maxBodyBytes state.leftover events)).length ≤
          state.leftover.length + (delivered events).length)
        (hrest : (unread maxBodyBytes state.leftover events).length ≤ events.length - 1) :
        (if events = [] then ([], .waiting)
          else pollAll maxBodyBytes now stopped calls n after
            (unread maxBodyBytes state.leftover events)) =
          serve maxBodyBytes n state.leftover events := by
      by_cases hnil : events = []
      · rw [if_pos hnil, hwaits hnil]
      · rw [if_neg hnil, hserve]
        have := List.length_pos_iff.mpr hnil
        exact ih (by omega)
    unfold pollAll
    cases hanswer : pollRequest maxBodyBytes stopped false (requestId n) now state events with
    | mk read after =>
      rw [hanswer] at hpoll
      cases read with
      | error e => exact hpoll.symm
      | ok read =>
        cases read with
        | closed => exact hpoll.symm
        | ready parts =>
          dsimp only
          rw [hpoll.1, ih (by have := hpoll.2; omega)]
        | idle => exact hidle hpoll.1 hpoll.2.1 hpoll.2.2.1 hpoll.2.2.2
        | expired => exact hidle hpoll.1 hpoll.2.1 hpoll.2.2.1 hpoll.2.2.2

theorem pollAll_enough (maxBodyBytes now n : Nat) (stopped : Bool) (state : ReadState)
    (events : List ReadEvent) :
    ∃ enough, ∀ calls, enough ≤ calls → pollAll maxBodyBytes now stopped calls n state events =
      serve maxBodyBytes n state.leftover events :=
  ⟨_, fun _ hcalls => pollAll_eq_serve (Nat.lt_of_succ_le hcalls)⟩

end Polls

end FaberHosts.Http
