import FaberHosts.Kernel.Conversation
import FaberHosts.Kernel.Routing

/-!
# The gateway of the host kernel

`host.rs` and `syscall.rs`: the host answers its own prefix, and every other request by
what the providers reply.  A reply becomes one frame on `route` and a queue of frames on
`open`.
-/

namespace FaberHosts.Kernel
open FaberHosts.Lib

/-! ## The built-in syscalls -/

namespace HostEcho

def echoData (data : Valor) : Valor := frameData.tabula [("echo", data)]

def byteData : Valor := .lista [.numerus 1, .numerus 2, .numerus 3]

def dispatch (stamp : Stamp) (request : Frame) : Except HostError Frame :=
  if request.call = "host:echo" then .ok (request.doneWith stamp (echoData request.data))
  else if request.call = "host:bytes" then .ok (request.byteWith stamp byteData)
  else .error (.noRoute s!"no built-in host syscall registered for {request.call}")

end HostEcho

/-! ## Replies as frames -/

def routeFrameFromReply (stamp : Stamp) (request : Frame) (reply : ProviderReply) : Frame :=
  match reply.contents with
  | [] => request.done stamp
  | [.item data] => request.doneWith stamp data
  | [.byte bytes] => request.byteWith stamp (.octeti bytes)
  | [.bulk data] => request.responseStatus stamp .bulk data
  | first :: second :: rest =>
    let items := first :: second :: rest
    if items.all ResultContract.isItem then
      request.doneWith stamp (.lista (items.filterMap fun
        | .item data => some data
        | _ => none))
    else
      match first with
      | .item data => request.doneWith stamp data
      | .byte bytes => request.byteWith stamp (.octeti bytes)
      | .bulk data => request.responseStatus stamp .bulk data

/-- The frame of one content in a queue. -/
def contentFrame (stamp : Stamp) (request : Frame) : ProviderContent → Frame
  | .item data => request.itemWith stamp data
  | .byte bytes => request.byteWith stamp (.octeti bytes)
  | .bulk data => request.responseStatus stamp .bulk data

/-- `stamps n` is for the `n`-th frame that is made. -/
def gatewayFramesFromReply (stamps : Nat → Stamp) (request : Frame) (reply : ProviderReply) :
    List Frame :=
  if reply.contents.isEmpty then [request.done (stamps 0)]
  else
    let frames := reply.contents.mapIdx (fun n content => contentFrame (stamps n) request content)
    if frames.getLast?.all (fun frame => frame.isTerminal = false) then
      frames ++ [Frame.terminal (stamps frames.length) request.id request.call .done]
    else
      frames

/-! ## The kernel -/

structure HostKernel where
  providers : Kernel

namespace HostKernel

/-- The probe of a cancellation flag that is never set. -/
def neverCancelled : DispatchContext := ⟨⟨some false⟩⟩

def dispatchPublic (kernel : HostKernel) (request : Frame) : Except HostError ProviderReply :=
  let publicRequest : RequestFrame := ⟨request.id, request.call, request.data, none⟩
  (kernel.providers.dispatch publicRequest neverCancelled).answer

def route (kernel : HostKernel) (stamp : Stamp) (request : Frame) : Frame :=
  if request.prefixOf = "host" then
    match HostEcho.dispatch stamp request with
    | .ok response => response
    | .error error => request.error stamp error
  else
    match kernel.dispatchPublic request with
    | .ok reply => routeFrameFromReply stamp request reply
    | .error error => request.error stamp error

def «open» (kernel : HostKernel) (stamps : Nat → Stamp) (request : Frame) : Conversation :=
  if request.prefixOf = "host" then
    match HostEcho.dispatch (stamps 0) request with
    | .ok response => Conversation.new (fun n => stamps (n + 1)) request response
    | .error error => Conversation.fromGatewayFrames request [request.error (stamps 0) error]
  else
    match kernel.dispatchPublic request with
    | .ok reply => Conversation.fromGatewayFrames request
        (gatewayFramesFromReply stamps request reply)
    | .error error => Conversation.fromGatewayFrames request [request.error (stamps 0) error]

end HostKernel

/-! ## What a queue holds -/

/-- Frames that are not terminal, and one behind them that is. -/
def Closed (frames : List Frame) : Prop :=
  ∃ contents last, frames = contents ++ [last] ∧
    (∀ frame ∈ contents, frame.isTerminal = false) ∧ last.isTerminal = true

theorem closed_singleton {frame : Frame} (h : frame.isTerminal = true) : Closed [frame] :=
  ⟨[], frame, rfl, by simp, h⟩

theorem Closed.getLast_terminal {frames : List Frame} (h : Closed frames) :
    frames.getLast?.any (·.isTerminal) = true := by
  obtain ⟨contents, last, rfl, -, hlast⟩ := h
  simpa using hlast

theorem Closed.endsOnce {frames : List Frame} (h : Closed frames) : EndsOnce frames := by
  obtain ⟨contents, last, rfl, hcontents, hlast⟩ := h
  exact ⟨contents, hcontents, .inr ⟨last, hlast, rfl⟩⟩

theorem conversationIncoming_closed (stamps : Nat → Stamp) (request response : Frame) :
    Closed (Conversation.conversationIncoming stamps request response) := by
  unfold Conversation.conversationIncoming
  split
  · split
    · next items _ =>
      refine ⟨_, _, rfl, ?_, rfl⟩
      intro frame hframe
      obtain ⟨n, hn, rfl⟩ := List.mem_mapIdx.mp hframe
      rfl
    · exact ⟨[_], _, rfl, by simp [Frame.itemWith, Frame.response, Frame.isTerminal,
        Status.isTerminal], rfl⟩
  · split
    · next hterminal => exact ⟨[_], _, rfl, by simpa using hterminal, rfl⟩
    · next hterminal => exact closed_singleton (by simpa using hterminal)

/-- The content a frame of a queue carries. -/
def Frame.content (frame : Frame) : Option ProviderContent :=
  match frame.status, frame.data with
  | .item, data => some (.item data)
  | .byte, .octeti bytes => some (.byte bytes)
  | .bulk, data => some (.bulk data)
  | _, _ => none

theorem contentFrame_isTerminal (stamp : Stamp) (request : Frame) (content : ProviderContent) :
    (contentFrame stamp request content).isTerminal = false := by
  cases content <;> rfl

theorem content_contentFrame (stamp : Stamp) (request : Frame) (content : ProviderContent) :
    (contentFrame stamp request content).content = some content := by
  cases content <;> rfl

/-- The frames carry the contents in order, and one terminal frame follows them. -/
def Carries (contents : List ProviderContent) (frames : List Frame) : Prop :=
  ∃ carriers last, frames = carriers ++ [last] ∧
    (∀ frame ∈ carriers, frame.isTerminal = false) ∧ last.isTerminal = true ∧
    carriers.map Frame.content = contents.map some

theorem Carries.closed {contents : List ProviderContent} {frames : List Frame}
    (h : Carries contents frames) : Closed frames := by
  obtain ⟨carriers, last, hframes, hcarriers, hlast, -⟩ := h
  exact ⟨carriers, last, hframes, hcarriers, hlast⟩

/-- The contents of a reply are never terminal frames, so a queue always gets its own. -/
theorem gatewayFramesFromReply_carries (stamps : Nat → Stamp) (request : Frame)
    (reply : ProviderReply) :
    Carries reply.contents (gatewayFramesFromReply stamps request reply) := by
  unfold gatewayFramesFromReply
  generalize reply.contents = contents
  cases contents with
  | nil => exact ⟨[], _, rfl, by simp, rfl, rfl⟩
  | cons first rest =>
    have hcontents : ∀ frame ∈ (first :: rest).mapIdx (fun n content =>
        contentFrame (stamps n) request content), frame.isTerminal = false := by
      intro frame hframe
      obtain ⟨n, hn, rfl⟩ := List.mem_mapIdx.mp hframe
      exact contentFrame_isTerminal _ _ _
    rw [if_neg (by simp), if_pos]
    · refine ⟨_, _, rfl, hcontents, rfl, ?_⟩
      apply List.ext_getElem?
      intro n
      rw [List.getElem?_map, List.getElem?_mapIdx, List.getElem?_map]
      cases (first :: rest)[n]? with
      | none => rfl
      | some content => exact congrArg some (content_contentFrame _ _ content)
    · apply (Option.all_eq_true_iff_get _ _).mpr
      intro hsome
      simpa using hcontents _ (List.mem_of_getLast? (Option.some_get hsome).symm)

theorem gatewayFramesFromReply_closed (stamps : Nat → Stamp) (request : Frame)
    (reply : ProviderReply) : Closed (gatewayFramesFromReply stamps request reply) :=
  (gatewayFramesFromReply_carries stamps request reply).closed

/-! ## What one frame holds -/

/-- The reply does not mix kinds of content. -/
def Unmixed (contents : List ProviderContent) : Prop :=
  contents.length ≤ 1 ∨ contents.all ResultContract.isItem = true

theorem unmixed_of_accepts {result : ResultContract} {contents : List ProviderContent}
    (h : result.accepts contents = true) : Unmixed contents := by
  cases result with
  | vacuum => exact .inl (by simp_all [ResultContract.accepts])
  | listaValor => exact .inr h
  | listaTextus =>
    refine .inr (List.all_eq_true.mpr fun content hcontent => ?_)
    have htext := List.all_eq_true.mp h content hcontent
    cases content with
    | item data => rfl
    | _ => cases htext
  | _ =>
    -- the other contracts let a single content through
    refine .inl ?_
    match contents with
    | [] => simp
    | [_] => simp
    | _ :: _ :: _ => simp [ResultContract.accepts] at h

theorem unmixed_of_invoke {provider : Provider} {contract : RouteContract}
    {request : RequestFrame} {context : DispatchContext} {reply : ProviderReply}
    (h : (Kernel.invoke provider contract request context).answer = .ok reply) :
    Unmixed reply.contents := by
  obtain hanswer | ⟨e, -, hanswer⟩ | ⟨sent, -, ⟨haccepts, hanswer⟩ | ⟨message, hanswer⟩⟩ :=
    invoke_cases provider contract request context
  · exact nomatch hanswer.symm.trans h
  · exact nomatch hanswer.symm.trans h
  · cases hanswer.symm.trans h
    exact unmixed_of_accepts haccepts
  · exact nomatch hanswer.symm.trans h

theorem unmixed_of_dispatch {kernel : Kernel} {request : RequestFrame} {context : DispatchContext}
    {reply : ProviderReply} (h : (kernel.dispatch request context).answer = .ok reply) :
    Unmixed reply.contents := by
  unfold Kernel.dispatch at h
  split at h
  · cases h
  · cases h
  · split at h
    · cases h
    · split at h
      · cases h
      · split at h
        · cases h
        · split at h
          · cases h
          · split at h
            · cases h
            · exact unmixed_of_invoke h

/-- The one content that stands for an unmixed reply: no content is an empty `tabula`, and
    several items are a list of them. -/
def unary : List ProviderContent → ProviderContent
  | [] => .item frameData.empty
  | [content] => content
  | contents => .item (.lista (contents.filterMap fun
      | .item data => some data
      | _ => none))

/-- The status and the payload of the frame for one content. -/
def unaryPayload : ProviderContent → Status × Valor
  | .item data => (.done, data)
  | .byte bytes => (.byte, .octeti bytes)
  | .bulk data => (.bulk, data)

theorem unaryPayload_injective : Function.Injective unaryPayload := by
  intro content content' h
  cases content <;> cases content' <;> simp_all [unaryPayload]

def Frame.payload (frame : Frame) : Status × Valor := (frame.status, frame.data)

theorem routeFrameFromReply_payload (stamp : Stamp) (request : Frame) {reply : ProviderReply}
    (h : Unmixed reply.contents) :
    (routeFrameFromReply stamp request reply).payload = unaryPayload (unary reply.contents) := by
  unfold routeFrameFromReply
  generalize reply.contents = contents at h
  match contents with
  | [] => rfl
  | [.item data] => rfl
  | [.byte bytes] => rfl
  | [.bulk data] => rfl
  | first :: second :: rest =>
    obtain hshort | hitems := h
    · simp at hshort
    · simp only [hitems, if_true]
      rfl

/-- Both paths of the gateway carry a reply.  The queue of `open` has its contents in order and
    one terminal frame.  A reply that the kernel passes on mixes no kinds, and the one frame of
    `route` then determines its contents, save that no content looks like one empty `tabula`,
    and several items like one item that lists them. -/
theorem gateway_carries (kernel : HostKernel) (stamps : Nat → Stamp) {request : Frame}
    (hroute : request.prefixOf ≠ "host") (reply : ProviderReply) :
    (kernel.dispatchPublic request = .ok reply →
      kernel.route (stamps 0) request = routeFrameFromReply (stamps 0) request reply ∧
      (kernel.open stamps request).incoming = gatewayFramesFromReply stamps request reply ∧
      Unmixed reply.contents) ∧
    Carries reply.contents (gatewayFramesFromReply stamps request reply) ∧
    (Unmixed reply.contents → ∀ (stamp : Stamp) (reply' : ProviderReply),
      Unmixed reply'.contents →
        ((routeFrameFromReply (stamps 0) request reply).payload =
            (routeFrameFromReply stamp request reply').payload ↔
          unary reply.contents = unary reply'.contents)) := by
  refine ⟨?_, gatewayFramesFromReply_carries stamps request reply, ?_⟩
  · intro hdispatch
    refine ⟨?_, ?_, unmixed_of_dispatch hdispatch⟩
    · rw [HostKernel.route, if_neg hroute, hdispatch]
    · rw [HostKernel.open, if_neg hroute, hdispatch]
      rfl
  · intro hunmixed stamp reply' hunmixed'
    rw [routeFrameFromReply_payload _ _ hunmixed, routeFrameFromReply_payload _ _ hunmixed']
    exact unaryPayload_injective.eq_iff

/-- A provider of one route that answers with two texts. -/
def listingProvider : Provider where
  manifest := ⟨1, "solum", "faber", ["solum"],
    [⟨"solum:enumera", "", "vacuum", "lista<textus>"⟩], []⟩
  dispatch := fun _ _ => some (.ok ⟨[.item (.textus "a"), .item (.textus "b")]⟩)

/-- A request for the one route of `listingProvider`. -/
def listingRequest : Frame := .terminal ⟨"frame-0", 0⟩ "root" "solum:enumera" .request

theorem listing_carried :
    let kernel : HostKernel := ⟨(registerAll [listingProvider]).1⟩
    let reply : ProviderReply := ⟨[.item (.textus "a"), .item (.textus "b")]⟩
    let stamps : Nat → Stamp := fun _ => ⟨"frame-1", 0⟩
    kernel.route (stamps 0) listingRequest =
      routeFrameFromReply (stamps 0) listingRequest reply ∧
    Carries reply.contents (kernel.open stamps listingRequest).incoming := by
  intro kernel reply stamps
  have hcarried := @gateway_carries kernel stamps listingRequest (by decide) reply
  have hanswered := hcarried.1 (by with_unfolding_all rfl)
  rw [hanswered.2.1]
  exact ⟨hanswered.1, hcarried.2.1⟩

/-- Replies of different contents with the same frame on `route`. -/
def MergedOnRoute (contents others : List ProviderContent) : Prop :=
  contents ≠ others ∧
    (routeFrameFromReply ⟨"frame-1", 0⟩ listingRequest ⟨contents⟩).payload =
      (routeFrameFromReply ⟨"frame-1", 0⟩ listingRequest ⟨others⟩).payload

/-- Without content and with an empty `tabula`, with two items and with the list of them, and,
    were one to arrive, with a second content of another kind and without it. -/
theorem route_merges_replies :
    MergedOnRoute [] [.item frameData.empty] ∧
      MergedOnRoute [.item (.numerus 1), .item (.numerus 2)]
        [.item (.lista [.numerus 1, .numerus 2])] ∧
      MergedOnRoute [.byte [1], .bulk .nihil] [.byte [1]] :=
  ⟨⟨by simp, rfl⟩, ⟨by simp, rfl⟩, ⟨by simp, rfl⟩⟩

/-! ## Conversations the gateway opens -/

/-- A conversation as `HostKernel::open` or `Router::open` builds it. -/
def Opened (request : Frame) (conversation : Conversation) : Prop :=
  (∃ (kernel : HostKernel) (stamps : Nat → Stamp), conversation = kernel.open stamps request) ∨
  ∃ (router : Router) (stamps : Nat → Stamp), conversation = router.open stamps request

theorem held_fromGatewayFrames (request : Frame) {incoming : List Frame} (h : Closed incoming) :
    Dialogue.Held request ⟨Conversation.fromGatewayFrames request incoming, []⟩ where
  id := rfl
  route := rfl
  gatewayDone := h.getLast_terminal
  queued := h.endsOnce
  filed := ⟨[], rfl, by simp⟩

theorem held_of_opened {request : Frame} {conversation : Conversation}
    (h : Opened request conversation) : Dialogue.Held request ⟨conversation, []⟩ := by
  have herror : ∀ (stamp : Stamp) (error : HostError), Closed [request.error stamp error] :=
    fun _ _ => closed_singleton rfl
  obtain ⟨kernel, stamps, rfl⟩ | ⟨router, stamps, rfl⟩ := h
  · unfold HostKernel.open
    split
    · split
      · exact held_fromGatewayFrames request (conversationIncoming_closed _ _ _)
      · exact held_fromGatewayFrames request (herror _ _)
    · split
      · exact held_fromGatewayFrames request (gatewayFramesFromReply_closed _ _ _)
      · exact held_fromGatewayFrames request (herror _ _)
  · exact held_fromGatewayFrames request (conversationIncoming_closed _ _ _)

theorem sent_of_opened {request : Frame} {conversation : Conversation}
    (h : Opened request conversation) : conversation.sent = [request] := by
  obtain ⟨kernel, stamps, rfl⟩ | ⟨router, stamps, rfl⟩ := h
  · unfold HostKernel.open
    split
    · split <;> rfl
    · split <;> rfl
  · rfl

/-- In every state that any calls on an opened conversation reach, each direction has at most
    one terminal frame, its last, and the log is filed under the opener, if and only if every
    call that adds to the log is made while it has no terminal frame.  A complete conversation
    stays complete in any case. -/
theorem conversation_disciplined {request : Frame} {conversation : Conversation}
    (h : Opened request conversation) (operations : List Operation) :
    (StepsMeet Dialogue.advance Dialogue.SendsInTime ⟨conversation, []⟩ operations ↔
      ∀ first rest dialogue, operations = first ++ rest →
        runSteps Dialogue.advance ⟨conversation, []⟩ first = some dialogue →
        dialogue.Disciplined request) ∧
    ∀ first dialogue, runSteps Dialogue.advance ⟨conversation, []⟩ first = some dialogue →
      dialogue.conversation.isComplete = true → ∀ rest later,
        runSteps Dialogue.advance dialogue rest = some later →
        later.conversation.isComplete = true := by
  have hheld := held_of_opened h
  have hsent : EndsOnce conversation.sent := by
    rw [sent_of_opened h]
    exact endsOnce_iff.mpr (List.pairwise_singleton _ _)
  constructor
  · have hexact : ∀ s operation t, Dialogue.Held request s ∧ EndsOnce s.conversation.sent →
        Dialogue.advance s operation = some t → (s.SendsInTime operation ↔
          Dialogue.Held request t ∧ EndsOnce t.conversation.sent) := by
      intro s operation t hs hstep
      cases hstep
      rw [Dialogue.sendsInTime_iff hs.2, and_iff_right (hs.1.step operation)]
    obtain ⟨last, hlast⟩ := Dialogue.run_total ⟨conversation, []⟩ operations
    rw [stepsMeet_iff_reached hexact ⟨hheld, hsent⟩ hlast]
    refine forall₃_congr fun first rest t => forall₂_congr fun _ ht => ?_
    have hheld := runSteps_preserves Dialogue.held_advance hheld ht
    exact ⟨fun hgood => ⟨hheld.received, hheld.filed, hgood.2⟩, fun hgood => ⟨hheld, hgood.sent⟩⟩
  · intro first dialogue _ hcomplete rest later hlater
    refine runSteps_preserves (P := fun s => s.conversation.isComplete = true) ?_ hcomplete hlater
    intro s operation t hs hstep
    cases hstep
    exact Dialogue.isComplete_step hs operation

/-- A conversation with a router that has no routes. -/
def unrouted : Conversation := Router.open ⟨∅⟩ (fun _ => ⟨"frame-1", 0⟩) listingRequest

theorem unrouted_disciplined :
    ∃ dialogue, runSteps Dialogue.advance ⟨unrouted, []⟩
        [.push listingRequest, .done .callerToGateway ⟨"frame-2", 0⟩, .recv, .detach] =
          some dialogue ∧
      dialogue.Disciplined listingRequest := by
  obtain ⟨dialogue, hrun⟩ := Dialogue.run_total ⟨unrouted, []⟩
    [.push listingRequest, .done .callerToGateway ⟨"frame-2", 0⟩, .recv, .detach]
  refine ⟨dialogue, hrun, ?_⟩
  refine (conversation_disciplined (.inr ⟨⟨∅⟩, _, rfl⟩) _).1.mp ?_ _ [] dialogue
    (List.append_nil _).symm hrun
  simp [StepsMeet, Dialogue.advance, Dialogue.SendsInTime, Dialogue.Sends, Dialogue.step,
    Conversation.push, Conversation.recv, Router.open, Conversation.new,
    Conversation.fromGatewayFrames, listingRequest, Frame.terminal, Frame.isTerminal,
    Status.isTerminal]

/-- `push` takes a frame after the terminal frame of the caller. -/
theorem late_push_undisciplined :
    ¬ ∀ dialogue, runSteps Dialogue.advance ⟨unrouted, []⟩
        [.push (listingRequest.done ⟨"frame-2", 0⟩), .push listingRequest] = some dialogue →
      dialogue.Disciplined listingRequest := by
  intro hall
  have hsent := endsOnce_iff.mp (hall _ rfl).sent
  simp [Dialogue.step, Conversation.push, unrouted, Router.open, Conversation.new,
    Conversation.fromGatewayFrames, listingRequest, Frame.done, Frame.response, Frame.terminal,
    Frame.isTerminal, Status.isTerminal] at hsent

end FaberHosts.Kernel
