import FaberHosts.Kernel.Frame
import FaberHosts.Lib.Runs

/-!
# Conversations

`router.rs`: what a caller holds after opening a route.  The frames it sent are kept in a
log, those of the gateway wait in a queue.  Both ends are handed out and closed by the
calls of `Operation`, in any order.
-/

namespace FaberHosts.Kernel
open FaberHosts.Lib

inductive Direction where
  | callerToGateway
  | gatewayToCaller
  deriving DecidableEq, Repr

structure Conversation where
  conversationId : String
  route : String
  sent : List Frame
  incoming : List Frame
  callerDone : Bool
  gatewayDone : Bool
  detached : Bool

namespace Conversation

def fromGatewayFrames (request : Frame) (incoming : List Frame) : Conversation where
  conversationId := request.id
  route := request.call
  sent := [request]
  incoming := incoming
  callerDone := false
  gatewayDone := incoming.getLast?.any (·.isTerminal)
  detached := false

/-- `stamps n` is for the `n`-th frame that is made. -/
def conversationIncoming (stamps : Nat → Stamp) (request response : Frame) : List Frame :=
  if response.status = .done ∧ frameData.isEmpty response.data = false then
    match response.data with
    | .lista items =>
      items.mapIdx (fun n item => request.itemWith (stamps n) item) ++
        [Frame.terminal (stamps items.length) request.id request.call .done]
    | data => [request.itemWith (stamps 0) data,
        Frame.terminal (stamps 1) request.id request.call .done]
  else if response.isTerminal = false then
    [response, Frame.terminal (stamps 0) request.id request.call .done]
  else
    [response]

def new (stamps : Nat → Stamp) (request response : Frame) : Conversation :=
  fromGatewayFrames request (conversationIncoming stamps request response)

variable (conversation : Conversation)

def localTerminal (stamp : Stamp) (status : Status) : Frame :=
  Frame.terminal stamp conversation.conversationId conversation.route status

def push (frame : Frame) : Conversation :=
  let frame := { frame with
    parentId := some conversation.conversationId
    call := conversation.route }
  { conversation with
    callerDone := conversation.callerDone || frame.isTerminal
    sent := conversation.sent ++ [frame] }

def recv : Option Frame × Conversation :=
  if conversation.detached then (none, conversation)
  else
    match conversation.incoming with
    | [] => (none, conversation)
    | frame :: incoming => (some frame, { conversation with
        incoming := incoming
        gatewayDone := conversation.gatewayDone || frame.isTerminal })

def done (stamp : Stamp) : Direction → Conversation
  | .callerToGateway =>
    if conversation.callerDone then conversation
    else conversation.push (conversation.localTerminal stamp .done)
  | .gatewayToCaller =>
    if conversation.gatewayDone then conversation
    else { conversation with
      incoming := conversation.incoming ++ [conversation.localTerminal stamp .done]
      gatewayDone := true }

def detach : Conversation := { conversation with detached := true, incoming := [] }

def isComplete : Bool :=
  conversation.callerDone && (conversation.gatewayDone || conversation.detached)

end Conversation

/-! ## The router -/

/-- A syscall handler; its one answer to a request is a frame or an error. -/
structure Syscall where
  prefixOf : String
  dispatch : Frame → Except HostError Frame

structure Router where
  routes : BTreeMap String Syscall

namespace Router

def register (router : Router) (syscall : Syscall) : Router :=
  ⟨router.routes.insert syscall.prefixOf syscall⟩

def route (router : Router) (stamp : Stamp) (request : Frame) : Frame :=
  match router.routes[request.prefixOf]? with
  | none => request.error stamp (.noRoute s!"no handler for call: {request.call}")
  | some syscall =>
    match syscall.dispatch request with
    | .ok response => response
    | .error error => request.error stamp error

/-- `stamps 0` is for the frame of an error, the later ones for the frames of the queue. -/
def «open» (router : Router) (stamps : Nat → Stamp) (request : Frame) : Conversation :=
  Conversation.new (fun n => stamps (n + 1)) request (router.route (stamps 0) request)

end Router

/-! ## Runs of a conversation -/

/-- A call on an open conversation; a `done` carries the stamp of the frame it may make. -/
inductive Operation where
  | push (frame : Frame)
  | recv
  | done (direction : Direction) (stamp : Stamp)
  | detach

/-- A conversation and the frames that `recv` has handed out. -/
structure Dialogue where
  conversation : Conversation
  received : List Frame

namespace Dialogue

def step (dialogue : Dialogue) : Operation → Dialogue
  | .push frame => { dialogue with conversation := dialogue.conversation.push frame }
  | .recv =>
    let (frame, conversation) := dialogue.conversation.recv
    ⟨conversation, dialogue.received ++ frame.toList⟩
  | .done direction stamp =>
    { dialogue with conversation := dialogue.conversation.done stamp direction }
  | .detach => { dialogue with conversation := dialogue.conversation.detach }

/-- Every call returns. -/
def advance (dialogue : Dialogue) (operation : Operation) : Option Dialogue :=
  some (dialogue.step operation)

/-- The call adds a frame to the log of the caller. -/
def Sends (dialogue : Dialogue) : Operation → Prop
  | .push _ => True
  | .done .callerToGateway _ => dialogue.conversation.callerDone = false
  | _ => False

/-- The call adds no frame behind a terminal one. -/
def SendsInTime (dialogue : Dialogue) (operation : Operation) : Prop :=
  dialogue.Sends operation → ∀ frame ∈ dialogue.conversation.sent, frame.isTerminal = false

/-- Every frame of the caller after the opener is filed under the conversation. -/
def Filed (opener : Frame) (sent : List Frame) : Prop :=
  ∃ later, sent = opener :: later ∧
    ∀ frame ∈ later, frame.parentId = some opener.id ∧ frame.call = opener.call

/-- One terminal frame at most in either direction, and the log filed. -/
structure Disciplined (opener : Frame) (dialogue : Dialogue) : Prop where
  received : EndsOnce dialogue.received
  filed : Filed opener dialogue.conversation.sent
  sent : EndsOnce dialogue.conversation.sent

/-- What holds of an opened conversation whatever the caller does. -/
structure Held (opener : Frame) (dialogue : Dialogue) : Prop where
  id : dialogue.conversation.conversationId = opener.id
  route : dialogue.conversation.route = opener.call
  -- the gateway is closed from the start, and nothing more is queued behind its terminal frame
  gatewayDone : dialogue.conversation.gatewayDone = true
  queued : EndsOnce (dialogue.received ++ dialogue.conversation.incoming)
  filed : Filed opener dialogue.conversation.sent

variable {opener : Frame} {dialogue : Dialogue}

theorem Held.received (h : Held opener dialogue) : EndsOnce dialogue.received :=
  h.queued.sublist (List.sublist_append_left _ _)

theorem Filed.push {conversation : Conversation} (h : Filed opener conversation.sent)
    (hid : conversation.conversationId = opener.id) (hroute : conversation.route = opener.call)
    (frame : Frame) : Filed opener (conversation.push frame).sent := by
  obtain ⟨later, hsent, hlater⟩ := h
  refine ⟨later ++ [_], by rw [Conversation.push, hsent]; rfl, ?_⟩
  intro earlier hearlier
  obtain hearlier | hearlier := List.mem_append.mp hearlier
  · exact hlater earlier hearlier
  · obtain rfl := List.mem_singleton.mp hearlier
    exact ⟨congrArg some hid, hroute⟩

theorem Held.push (h : Held opener dialogue) (frame : Frame) :
    Held opener { dialogue with conversation := dialogue.conversation.push frame } where
  id := h.id
  route := h.route
  gatewayDone := h.gatewayDone
  queued := h.queued
  filed := h.filed.push h.id h.route frame

theorem Held.step (h : Held opener dialogue) (operation : Operation) :
    Held opener (dialogue.step operation) := by
  cases operation with
  | push frame => exact h.push frame
  | recv =>
    simp only [Dialogue.step, Conversation.recv]
    split
    · simpa using h
    · split
      · simpa using h
      · next frame incoming hincoming =>
        refine ⟨h.id, h.route, by simp [h.gatewayDone], ?_, h.filed⟩
        simpa [hincoming] using h.queued
  | done direction stamp =>
    cases direction with
    | callerToGateway =>
      simp only [Dialogue.step, Conversation.done]
      split
      · exact h
      · exact h.push _
    | gatewayToCaller =>
      simp only [Dialogue.step, Conversation.done, h.gatewayDone, if_true]
      exact h
  | detach =>
    refine ⟨h.id, h.route, h.gatewayDone, ?_, h.filed⟩
    simpa [Dialogue.step, Conversation.detach] using h.received

theorem held_advance (dialogue : Dialogue) (operation : Operation) (dialogue' : Dialogue)
    (h : Held opener dialogue) (hstep : dialogue.advance operation = some dialogue') :
    Held opener dialogue' := by
  cases hstep
  exact h.step operation

theorem run_total (dialogue : Dialogue) (operations : List Operation) :
    ∃ last, runSteps advance dialogue operations = some last := by
  induction operations generalizing dialogue with
  | nil => exact ⟨dialogue, rfl⟩
  | cons operation rest ih => exact ih (dialogue.step operation)

theorem sent_step (dialogue : Dialogue) (operation : Operation) :
    (¬ dialogue.Sends operation ∧
      (dialogue.step operation).conversation.sent = dialogue.conversation.sent) ∨
    (dialogue.Sends operation ∧ ∃ frame,
      (dialogue.step operation).conversation.sent = dialogue.conversation.sent ++ [frame]) := by
  cases operation with
  | push frame => exact .inr ⟨trivial, _, rfl⟩
  | recv =>
    refine .inl ⟨id, ?_⟩
    simp only [Dialogue.step, Conversation.recv]
    split
    · rfl
    · split <;> rfl
  | done direction stamp =>
    cases direction with
    | callerToGateway =>
      cases hdone : dialogue.conversation.callerDone with
      | true => exact .inl ⟨by simp [Sends, hdone], by simp [Dialogue.step, Conversation.done, hdone]⟩
      | false =>
        refine .inr ⟨hdone, ?_⟩
        simp only [Dialogue.step, Conversation.done, hdone]
        exact ⟨_, rfl⟩
    | gatewayToCaller =>
      refine .inl ⟨id, ?_⟩
      simp only [Dialogue.step, Conversation.done]
      split <;> rfl
  | detach => exact .inl ⟨id, rfl⟩

/-- Where the log ends once, a call keeps it so exactly when it sends in time. -/
theorem sendsInTime_iff (h : EndsOnce dialogue.conversation.sent) (operation : Operation) :
    dialogue.SendsInTime operation ↔ EndsOnce (dialogue.step operation).conversation.sent := by
  obtain ⟨hnot, hsent⟩ | ⟨hsends, frame, hsent⟩ := dialogue.sent_step operation
  · rw [hsent]
    exact iff_of_true (fun hsends => absurd hsends hnot) h
  · rw [hsent, endsOnce_concat h]
    exact ⟨fun hintime => hintime hsends, fun hall _ => hall⟩

theorem isComplete_step (h : dialogue.conversation.isComplete = true) (operation : Operation) :
    (dialogue.step operation).conversation.isComplete = true := by
  obtain ⟨hcaller, hgateway⟩ := Bool.and_eq_true_iff.mp h
  cases operation with
  | push frame => simp_all [Dialogue.step, Conversation.push, Conversation.isComplete]
  | recv =>
    simp only [Dialogue.step, Conversation.recv]
    split
    · exact h
    · split
      · exact h
      · obtain hgateway | hgateway := Bool.or_eq_true_iff.mp hgateway <;>
          simp [Conversation.isComplete, hcaller, hgateway]
  | done direction stamp =>
    cases direction with
    | callerToGateway => simpa [Dialogue.step, Conversation.done, hcaller] using h
    | gatewayToCaller =>
      simp only [Dialogue.step, Conversation.done]
      split
      · exact h
      · simp [Conversation.isComplete, hcaller]
  | detach => simp [Dialogue.step, Conversation.detach, Conversation.isComplete, hcaller]

end Dialogue

end FaberHosts.Kernel
