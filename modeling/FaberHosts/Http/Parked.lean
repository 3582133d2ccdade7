import FaberHosts.Http.Exact

/-!
# Parked connections that go bad

An accept polls the connections that are kept open before it turns to the listening socket.
A poll that fails ends the call and leaves the connection where it is, so the next accept
fails on it again.
-/

namespace FaberHosts.Http
open FaberHosts.Lib FaberHosts.Kernel

/-! ## Bytes that no request can come of -/

/-- What is buffered and what arrives cannot become a request: the head is malformed or too
    large, the body too large, the client ends in the middle, or the socket fails. -/
def Spoiled (maxBodyBytes : Nat) : List UInt8 → List ReadEvent → Prop
  | leftover, events =>
    match bufferedRequest maxBodyBytes "" leftover with
    | .error _ => True
    | .ok (some _) => False
    | .ok none =>
      match events with
      | [] => False
      | .data bytes :: events => Spoiled maxBodyBytes (leftover ++ bytes) events
      | .ended :: _ => leftover ≠ []
      | .wouldBlock _ _ :: _ => False
      | .interrupted :: events => Spoiled maxBodyBytes leftover events
      | .failed _ :: _ => True

theorem bufferedRequest_rename (maxBodyBytes : Nat) (id id' : String) (leftover : List UInt8) :
    bufferedRequest maxBodyBytes id leftover =
      (bufferedRequest maxBodyBytes id' leftover).map
        (Option.map (fun read => ({ read.1 with id }, read.2))) := by
  unfold bufferedRequest
  split
  · split <;> rfl
  · rename_i headerEnd hend
    cases parseHeaders (leftover.take headerEnd) with
    | error e => rfl
    | ok parsed =>
      simp only [bind, Except.bind]
      split
      · rfl
      · split <;> rfl

/-- A poll fails on the bytes no request can come of, and on no others. -/
theorem pollRequest_error_iff {maxBodyBytes now : Nat} {stopped : Bool} {id : String}
    {state : ReadState} {events : List ReadEvent} :
    (∃ e, (pollRequest maxBodyBytes stopped false id now state events).1 = .error e) ↔
      Spoiled maxBodyBytes state.leftover events := by
  have hname : ∀ leftover, bufferedRequest maxBodyBytes id leftover =
      (bufferedRequest maxBodyBytes "" leftover).map
        (Option.map (fun read => ({ read.1 with id }, read.2))) :=
    bufferedRequest_rename maxBodyBytes id ""
  induction events generalizing state with
  | nil =>
    unfold pollRequest Spoiled
    rw [hname]
    cases bufferedRequest maxBodyBytes "" state.leftover with
    | error e => simp [Except.map]
    | ok read => cases read <;> simp [Except.map]
  | cons event events ih =>
    unfold pollRequest Spoiled
    rw [hname]
    cases bufferedRequest maxBodyBytes "" state.leftover with
    | error e => simp [Except.map]
    | ok read =>
      cases read with
      | some read => simp [Except.map]
      | none =>
        cases event with
        | data bytes => simpa [Except.map] using ih
        | ended =>
          by_cases hempty : state.leftover = [] <;> simp [Except.map, hempty]
        | wouldBlock cancelled expired => simp [Except.map]
        | interrupted => simpa [Except.map] using ih
        | failed error => simp [Except.map]

/-! ## Polls that fail -/

/-- The call polls a parked connection whose bytes no request can come of. -/
def Spoils (env : Env) (shared : Shared) : Pc → Prop
  | .acceptPoll _ listener (id :: _) _ => (shared.heap id).phase = .idle ∧
      Spoiled listener.maxBodyBytes (shared.heap id).read.leftover (readsOf (shared.heap id) env)
  | _ => False

/-- Some step of the call does. -/
def PollsSpoiled : Shared → Pc → List Env → Prop
  | _, _, [] => False
  | shared, pc, env :: envs => Spoils env shared pc ∨
      PollsSpoiled (advance env shared pc).1 (advance env shared pc).2 envs

/-- The connection the call polls now. -/
def Pc.polls : Pc → Option Nat
  | .acceptPoll _ _ (id :: _) _ => some id
  | _ => none

/-- The call has failed. -/
def Pc.failed : Pc → Bool
  | .done (.error _) => true
  | _ => false

/-- The parked connection whose poll ends the call with an error. -/
def blamed : Shared → Pc → List Env → Option Nat
  | _, _, [] => none
  | shared, pc, env :: envs =>
    if (advance env shared pc).2.failed then
      pc.polls
    else
      blamed (advance env shared pc).1 (advance env shared pc).2 envs

/-- The parked connections a call polls, in order. -/
def polled : Shared → Pc → List Env → List Nat
  | _, _, [] => []
  | shared, pc, env :: envs => pc.polls.toList ++
      polled (advance env shared pc).1 (advance env shared pc).2 envs

variable {env : Env} {shared : Shared} {pc : Pc} {envs : List Env} {handle : Int}
  {listener : ListenerState} {id : Nat} {slots closed : List Nat}

theorem pollStep_cases : (pollStep env shared handle listener id slots closed).2.failed = true ∨
    (∃ parts, (pollStep env shared handle listener id slots closed).2 = .acceptMark id parts) ∨
      ∃ closed', (pollStep env shared handle listener id slots closed).2 =
        .acceptPoll handle listener slots closed' := by
  unfold pollStep
  simp only
  split
  · exact Or.inr (Or.inr ⟨closed, rfl⟩)
  · split
    · exact Or.inl rfl
    · exact Or.inr (Or.inl ⟨_, rfl⟩)
    · exact Or.inr (Or.inr ⟨closed, rfl⟩)
    · split
      · exact Or.inr (Or.inr ⟨_, rfl⟩)
      · split
        · exact Or.inr (Or.inr ⟨_, rfl⟩)
        · exact Or.inr (Or.inr ⟨closed, rfl⟩)

theorem failed_pollStep : (pollStep env shared handle listener id slots closed).2.failed = true ↔
    (shared.heap id).phase = .idle ∧ Spoiled listener.maxBodyBytes
      (shared.heap id).read.leftover (readsOf (shared.heap id) env) := by
  have hpoll : (∃ e, (pollRequest listener.maxBodyBytes (shared.stopped handle) false
      (requestId shared.nextRequest) env.now (shared.heap id).read
      (readsOf (shared.heap id) env)).1 = .error e) ↔ _ := pollRequest_error_iff
  rw [← hpoll]
  unfold pollStep
  by_cases hidle : (shared.heap id).phase = .idle
  · rw [if_neg (by simpa using hidle)]
    cases pollRequest listener.maxBodyBytes (shared.stopped handle) false
        (requestId shared.nextRequest) env.now (shared.heap id).read
        (readsOf (shared.heap id) env) with
    | mk answer read =>
      simp only [hidle, true_and]
      rcases answer with e | (parts | - | - | -)
      · simp [Pc.failed]
      · simp [Pc.failed]
      · simp only
        split <;> simp [Pc.failed]
      · simp only
        split <;> simp [Pc.failed]
      · simp [Pc.failed]
  · simp [hidle, Pc.failed]

theorem failed_of_polls {c : Nat} (h : pc.polls = some c) :
    (advance env shared pc).2.failed = true ↔ Spoils env shared pc := by
  cases pc with
  | acceptPoll handle listener slots closed =>
    cases slots with
    | nil => simp [Pc.polls] at h
    | cons id slots => exact failed_pollStep
  | _ => simp [Pc.polls] at h

theorem polls_of_spoils (h : Spoils env shared pc) : ∃ c, pc.polls = some c := by
  cases pc with
  | acceptPoll handle listener slots closed =>
    cases slots with
    | nil => exact h.elim
    | cons id slots => exact ⟨id, rfl⟩
  | _ => exact h.elim

theorem runCall_done (shared : Shared) (reply : Reply) (envs : List Env) :
    runCall shared (.done reply) envs = (shared, .done reply) := by
  induction envs with
  | nil => rfl
  | cons env envs ih => exact ih

theorem not_pollsSpoiled_done (shared : Shared) (reply : Reply) (envs : List Env) :
    ¬ PollsSpoiled shared (.done reply) envs := by
  induction envs with
  | nil => exact id
  | cons env envs ih =>
    rintro (hspoils | hlater)
    · exact hspoils
    · exact ih hlater

theorem failed_iff : pc.failed = true ↔ ∃ e, pc = .done (.error e) := by
  unfold Pc.failed
  split <;> simp_all

theorem blamed_iff : (∃ c, blamed shared pc envs = some c) ↔ PollsSpoiled shared pc envs := by
  induction envs generalizing shared pc with
  | nil => simp [blamed, PollsSpoiled]
  | cons env envs ih =>
    unfold blamed PollsSpoiled
    split
    · rename_i hfailed
      obtain ⟨e, hdone⟩ := failed_iff.mp hfailed
      rw [hdone]
      constructor
      · rintro ⟨c, hc⟩
        exact Or.inl ((failed_of_polls hc).mp hfailed)
      · rintro (hspoils | hlater)
        · exact polls_of_spoils hspoils
        · exact absurd hlater (not_pollsSpoiled_done _ _ _)
    · rename_i hgoes
      rw [ih]
      constructor
      · exact Or.inr
      · rintro (hspoils | hlater)
        · obtain ⟨c, hc⟩ := polls_of_spoils hspoils
          exact absurd ((failed_of_polls hc).mpr hspoils) hgoes
        · exact hlater

/-- The connection a call fails on is still stored when the call has failed. -/
theorem stored_of_blamed {c : Nat} (hstored : Stored shared pc)
    (h : blamed shared pc envs = some c) : c ∈ (runCall shared pc envs).1.connections := by
  induction envs generalizing shared pc with
  | nil => simp [blamed] at h
  | cons env envs ih =>
    unfold blamed at h
    split at h
    · rename_i hfailed
      obtain ⟨e, hdone⟩ := failed_iff.mp hfailed
      cases pc with
      | acceptPoll handle listener slots closed =>
        cases slots with
        | nil => simp [Pc.polls] at h
        | cons id slots =>
          obtain rfl : id = c := by simpa [Pc.polls] using h
          have hsame : (advance env shared (.acceptPoll handle listener (id :: slots) closed)).1.connections =
              shared.connections := by
            simp only [advance, pollStep]
            repeat' split
            all_goals rfl
          rw [runCall, hdone, runCall_done, hsame]
          exact hstored id List.mem_cons_self
      | _ => simp [Pc.polls] at h
    · exact ih hstored.advance h

/-! ## Calls that go through -/

/-- From the end of a scan a call drops what it found closed and turns to the socket. -/
def Dropping (handle : Int) (listener : ListenerState) : Pc → Prop
  | .acceptSocket handle' listener' => handle' = handle ∧ listener' = listener
  | .drop _ (.scan handle' listener' _) => handle' = handle ∧ listener' = listener
  | .forget _ (.scan handle' listener' _) => handle' = handle ∧ listener' = listener
  | .forgetRequest _ _ (.scan handle' listener' _) => handle' = handle ∧ listener' = listener
  | .forgetWriter _ (.scan handle' listener' _) => handle' = handle ∧ listener' = listener
  | _ => False

theorem dropping_resume : Dropping handle listener (resume (.scan handle listener closed)) := by
  cases closed <;> exact ⟨rfl, rfl⟩

theorem Dropping.advance (h : Dropping handle listener pc)
    (hpc : ∀ handle listener, pc ≠ .acceptSocket handle listener) :
    Dropping handle listener (advance env shared pc).2 ∧ pc.polls = none := by
  cases pc with
  | acceptSocket handle' listener' => exact absurd rfl (hpc handle' listener')
  | drop c after =>
    cases after with
    | reply reply => exact h.elim
    | scan handle' listener' closed =>
      obtain ⟨rfl, rfl⟩ := h
      refine ⟨?_, rfl⟩
      simp only [Http.advance]
      split
      · exact ⟨rfl, rfl⟩
      · exact dropping_resume
  | forget c after =>
    cases after with
    | reply reply => exact h.elim
    | scan handle' listener' closed =>
      obtain ⟨rfl, rfl⟩ := h
      refine ⟨?_, rfl⟩
      simp only [Http.advance, forgetStep]
      split
      · exact dropping_resume
      · exact ⟨rfl, rfl⟩
      · exact ⟨rfl, rfl⟩
  | forgetRequest r writer after =>
    cases after with
    | reply reply => exact h.elim
    | scan handle' listener' closed =>
      obtain ⟨rfl, rfl⟩ := h
      refine ⟨?_, rfl⟩
      cases writer with
      | none => exact dropping_resume
      | some writer => exact ⟨rfl, rfl⟩
  | forgetWriter w after =>
    cases after with
    | reply reply => exact h.elim
    | scan handle' listener' closed =>
      obtain ⟨rfl, rfl⟩ := h
      exact ⟨dropping_resume, rfl⟩
  | _ => exact h.elim

/-- A call that comes back from dropping connections came to the socket. -/
theorem reaches_socket {reply : Reply} (h : Dropping handle listener pc)
    (hdone : (runCall shared pc envs).2 = .done reply) : ∃ before, before <+: envs ∧
      (runCall shared pc before).2 = .acceptSocket handle listener ∧
      polled shared pc before = [] := by
  induction envs generalizing shared pc with
  | nil =>
    obtain rfl : pc = .done reply := hdone
    exact h.elim
  | cons env envs ih =>
    by_cases hpc : pc = .acceptSocket handle listener
    · exact ⟨[], List.nil_prefix, hpc, rfl⟩
    · have hleft : ∀ handle' listener', pc ≠ .acceptSocket handle' listener' := by
        rintro handle' listener' rfl
        obtain ⟨rfl, rfl⟩ := h
        exact hpc rfl
      obtain ⟨hnext, hpolls⟩ := @Dropping.advance env shared _ _ _ h hleft
      obtain ⟨before, hbefore, hsocket, hnone⟩ := ih hnext hdone
      refine ⟨env :: before, ?_, hsocket, ?_⟩
      · simpa using hbefore
      · simp [polled, hpolls, hnone]

/-- A scan that polls its connections in order until one yields a request, or else all of
    them before it turns to the listening socket. -/
def Reaches (handle : Int) (listener : ListenerState) (slots : List Nat) (shared : Shared)
    (pc : Pc) (envs : List Env) : Prop :=
  ((runCall shared pc envs).2 = .acceptSocket handle listener ∧ polled shared pc envs = slots) ∨
    ∃ c parts earlier later, (runCall shared pc envs).2 = .acceptMark c parts ∧
      slots = earlier ++ c :: later ∧ polled shared pc envs = earlier ++ [c]

theorem reaches_of_not_spoiled {reply : Reply}
    (hspoiled : ¬ PollsSpoiled shared (.acceptPoll handle listener slots closed) envs)
    (hdone : (runCall shared (.acceptPoll handle listener slots closed) envs).2 = .done reply) :
    ∃ before, before <+: envs ∧
      Reaches handle listener slots shared (.acceptPoll handle listener slots closed) before := by
  induction slots generalizing shared closed envs with
  | nil =>
    cases envs with
    | nil => simp [runCall] at hdone
    | cons env envs =>
      obtain ⟨before, hbefore, hsocket, hnone⟩ := reaches_socket dropping_resume hdone
      refine ⟨env :: before, by simpa using hbefore, Or.inl ⟨hsocket, ?_⟩⟩
      exact hnone
  | cons id slots ih =>
    cases envs with
    | nil => simp [runCall] at hdone
    | cons env envs =>
      have hfailed : ¬ (pollStep env shared handle listener id slots closed).2.failed = true :=
        fun hfailed => hspoiled (Or.inl (failed_pollStep.mp hfailed))
      have hlater : ¬ PollsSpoiled (pollStep env shared handle listener id slots closed).1
          (pollStep env shared handle listener id slots closed).2 envs :=
        fun hlater => hspoiled (Or.inr hlater)
      rcases @pollStep_cases env shared handle listener id slots closed with
        h | ⟨parts, hmark⟩ | ⟨closed', hgoes⟩
      · exact absurd h hfailed
      · refine ⟨[env], by simp, Or.inr ⟨id, parts, [], slots, hmark, rfl, rfl⟩⟩
      · rw [hgoes] at hlater
        have hrest : (runCall (pollStep env shared handle listener id slots closed).1
            (.acceptPoll handle listener slots closed') envs).2 = .done reply := by
          rw [← hgoes]
          exact hdone
        obtain ⟨before, hbefore, hreaches⟩ := ih hlater hrest
        have hrun : runCall shared (.acceptPoll handle listener (id :: slots) closed)
            (env :: before) = runCall (pollStep env shared handle listener id slots closed).1
              (.acceptPoll handle listener slots closed') before := by
          rw [← hgoes]
          rfl
        have hpolled : polled shared (.acceptPoll handle listener (id :: slots) closed)
            (env :: before) = id :: polled (pollStep env shared handle listener id slots closed).1
              (.acceptPoll handle listener slots closed') before := by
          rw [← hgoes]
          rfl
        refine ⟨env :: before, by simpa using hbefore, ?_⟩
        unfold Reaches
        rw [hrun, hpolled]
        rcases hreaches with ⟨hsocket, hall⟩ | ⟨c, parts, earlier, later, hmark, hslots, hsome⟩
        · exact Or.inl ⟨hsocket, by rw [hall]⟩
        · exact Or.inr ⟨c, parts, id :: earlier, later, hmark, by rw [hslots]; rfl,
            by rw [hsome]; rfl⟩

theorem runCall_append (shared : Shared) (pc : Pc) (before rest : List Env) :
    runCall shared pc (before ++ rest) =
      runCall (runCall shared pc before).1 (runCall shared pc before).2 rest := by
  induction before generalizing shared pc with
  | nil => rfl
  | cons env before ih => exact ih _ _

theorem PollsSpoiled.append {before rest : List Env}
    (h : PollsSpoiled (runCall shared pc before).1 (runCall shared pc before).2 rest) :
    PollsSpoiled shared pc (before ++ rest) := by
  induction before generalizing shared pc with
  | nil => exact h
  | cons env before ih => exact Or.inr (ih h)

/-! ## Sequences of accepts -/

/-- An accept of a listener, in the worlds of its steps. -/
def serveAccept (shared : Shared) (call : Int × List Env) : Option Shared :=
  serveCall shared (.accept call.1, call.2)

/-- The connections that accepts fail on, one after the other. -/
def failures : Shared → List (Int × List Env) → List Nat
  | _, [] => []
  | shared, call :: calls => (blamed shared (.accept call.1) call.2).toList ++
      match serveAccept shared call with
      | some after => failures after calls
      | none => []

/-- The connection an accept fails on is removed, and every scan reaches the other idle
    connections and the listening socket, unless it finds a request. -/
structure Unblocked (shared : Shared) (call : Int × List Env) : Prop where
  removed : ∀ c, blamed shared (.accept call.1) call.2 = some c →
    c ∉ (runCall shared (.accept call.1) call.2).1.connections
  reached : ∀ before env rest handle listener reply, call.2 = before ++ env :: rest →
    (runCall shared (.accept call.1) before).2 = .acceptScan handle listener →
    (runCall shared (.accept call.1) call.2).2 = .done reply →
    ∃ further, further <+: rest ∧
      Reaches handle listener
        ((runCall shared (.accept call.1) before).1.idleOf handle env.order)
        (runCall shared (.accept call.1) before).1
        (.acceptPoll handle listener
          ((runCall shared (.accept call.1) before).1.idleOf handle env.order) []) further

theorem unblocked_iff {call : Int × List Env} :
    Unblocked shared call ↔ ¬ PollsSpoiled shared (.accept call.1) call.2 := by
  constructor
  · intro h hspoiled
    obtain ⟨c, hc⟩ := blamed_iff.mpr hspoiled
    exact h.removed c hc (stored_of_blamed trivial hc)
  · intro hspoiled
    refine ⟨?_, ?_⟩
    · intro c hc
      exact absurd (blamed_iff.mp ⟨c, hc⟩) hspoiled
    · intro before env rest handle listener reply henvs hscan hdone
      have hrest : runCall shared (.accept call.1) call.2 =
          runCall (runCall shared (.accept call.1) before).1
            (.acceptPoll handle listener
              ((runCall shared (.accept call.1) before).1.idleOf handle env.order) []) rest := by
        rw [henvs, runCall_append, hscan]
        rfl
      apply reaches_of_not_spoiled
      · intro hlater
        refine hspoiled ?_
        rw [henvs]
        refine PollsSpoiled.append ?_
        rw [hscan]
        exact Or.inr hlater
      · rw [← hrest]
        exact hdone

theorem failures_eq_nil {calls : List (Int × List Env)}
    (h : StepsMeet serveAccept (fun shared call => ¬ PollsSpoiled shared (.accept call.1) call.2)
      shared calls) : failures shared calls = [] := by
  induction calls generalizing shared with
  | nil => rfl
  | cons call calls ih =>
    have hnone : blamed shared (.accept call.1) call.2 = none := by
      rw [Option.eq_none_iff_forall_not_mem]
      intro c hc
      exact h.1 (blamed_iff.mp ⟨c, hc⟩)
    unfold failures
    rw [hnone]
    split
    · rename_i after hafter
      exact ih (h.2 after hafter)
    · rfl

/-- In any state and for any sequence of accepts, bad connections are removed, reach no
    second call and keep nobody else from being reached exactly when no accept polls one. -/
theorem accepts_unblocked_iff {calls : List (Int × List Env)} :
    (StepsMeet serveAccept Unblocked shared calls ∧ (failures shared calls).Nodup) ↔
      StepsMeet serveAccept
        (fun shared call => ¬ PollsSpoiled shared (.accept call.1) call.2) shared calls := by
  constructor
  · rintro ⟨hunblocked, -⟩
    exact hunblocked.mono (fun _ _ h => unblocked_iff.mp h)
  · intro hgood
    refine ⟨hgood.mono (fun _ _ h => unblocked_iff.mpr h), ?_⟩
    rw [failures_eq_nil hgood]
    exact List.nodup_nil

/-- The client sends one byte and ends, and two accepts poll the connection. -/
def spoiledAccepts : List (Int × List Env) :=
  [(1, [.quiet, .quiet, { Env.quiet with order := [1] },
      { Env.quiet with reads := [.data [71], .ended] }]),
    (1, [.quiet, .quiet, { Env.quiet with order := [1] }, .quiet])]

/-- Both accepts fail on the same byte of the same connection. -/
theorem spoiled_connection_fails_twice : ¬ ∀ shared calls,
    StepsMeet serveAccept Unblocked shared calls ∧ (failures shared calls).Nodup := by
  intro h
  have hfails : (runSteps serveCall .new
      (openedCalls ++ [finishCall (.wrote 5)])).any (fun shared =>
      failures shared spoiledAccepts = [1, 1]) = true := by
    decide +kernel
  obtain ⟨shared, -, hshared⟩ := (Option.any_eq_true _ _).mp hfails
  have hnodup := (h shared spoiledAccepts).2
  rw [of_decide_eq_true hshared] at hnodup
  simp at hnodup

end FaberHosts.Http
