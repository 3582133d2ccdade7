import FaberHosts.Kernel.Registry

/-!
# Frames

`frame.rs` and `frame_data.rs`: the message that every host route answers with.  A new
frame takes its identifier from a counter of the process and its time from the clock;
what these answer is the `Stamp` of the frame.
-/

namespace FaberHosts.Kernel
open FaberHosts.Lib

/-! ## Payloads -/

namespace frameData

def empty : Valor := .tabula []

def isEmptyTabula : Valor → Bool
  | .tabula tab => tab.isEmpty
  | _ => false

def isEmpty : Valor → Bool
  | .nihil => true
  | data => isEmptyTabula data

def tabula (fields : List (String × Valor)) : Valor :=
  .tabula (fields.foldl (fun tab field => insertEntry field.1 field.2 tab) [])

@[simp] theorem isEmptyTabula_empty : isEmptyTabula empty = true := rfl

theorem isEmptyTabula_iff {data : Valor} : isEmptyTabula data = true ↔ data = empty := by
  cases data with
  | tabula tab =>
    cases tab with
    | nil => simp [isEmptyTabula, empty]
    | cons entry rest => simp [isEmptyTabula, empty]
  | _ => simp [isEmptyTabula, empty]

end frameData

def HostError.toData (error : HostError) : Valor :=
  frameData.tabula [("code", .textus error.code), ("message", .textus error.message),
    ("retryable", .bivalens error.retryable)]

/-! ## Frames -/

inductive Status where
  | request
  | item
  | byte
  | bulk
  | done
  | error
  | cancel
  deriving DecidableEq, Repr

def Status.isTerminal : Status → Bool
  | .done | .error | .cancel => true
  | _ => false

/-- `u128`. -/
abbrev U128 := BitVec 128

/-- The answers of `next_frame_id` and `now_millis` when a frame is made. -/
structure Stamp where
  id : String
  createdMs : U128

/-- `sender` is the field `from`. -/
structure Frame where
  id : String
  parentId : Option String
  createdMs : U128
  expiresIn : UInt64
  sender : Option String
  call : String
  status : Status
  trace : Option Json
  data : Valor

namespace Frame

def prefixOf (frame : Frame) : String :=
  match splitOnce frame.call with
  | some (owner, _) => owner
  | none => frame.call

def response (frame : Frame) (stamp : Stamp) (status : Status) (data : Valor) : Frame where
  id := stamp.id
  parentId := some frame.id
  createdMs := stamp.createdMs
  expiresIn := 0
  sender := some "faber-host-macos-arm64"
  call := frame.call
  status := status
  trace := frame.trace
  data := data

def done (frame : Frame) (stamp : Stamp) : Frame := frame.response stamp .done frameData.empty

def doneWith (frame : Frame) (stamp : Stamp) (data : Valor) : Frame :=
  frame.response stamp .done data

def itemWith (frame : Frame) (stamp : Stamp) (data : Valor) : Frame :=
  frame.response stamp .item data

def byteWith (frame : Frame) (stamp : Stamp) (data : Valor) : Frame :=
  frame.response stamp .byte data

def responseStatus (frame : Frame) (stamp : Stamp) (status : Status) (data : Valor) : Frame :=
  frame.response stamp status data

def error (frame : Frame) (stamp : Stamp) (error : HostError) : Frame :=
  frame.response stamp .error error.toData

def terminal (stamp : Stamp) (parentId call : String) (status : Status) : Frame where
  id := stamp.id
  parentId := some parentId
  createdMs := stamp.createdMs
  expiresIn := 0
  sender := some "faber-host-macos-arm64"
  call := call
  status := status
  trace := none
  data := frameData.empty

def isTerminal (frame : Frame) : Bool := frame.status.isTerminal

end Frame

/-! ## Sequences of frames -/

/-- Content frames, then at most one terminal frame and nothing after it. -/
def EndsOnce (frames : List Frame) : Prop :=
  ∃ contents, (∀ frame ∈ contents, frame.isTerminal = false) ∧
    (frames = contents ∨ ∃ last, last.isTerminal = true ∧ frames = contents ++ [last])

theorem endsOnce_iff {frames : List Frame} :
    EndsOnce frames ↔ frames.Pairwise (fun earlier _ => earlier.isTerminal = false) := by
  constructor
  · intro h
    obtain ⟨contents, hcontents, rfl | ⟨last, -, rfl⟩⟩ := h
    · exact List.pairwise_of_forall_mem_list fun frame hframe _ _ => hcontents frame hframe
    · apply List.pairwise_append.mpr
      refine ⟨?_, List.pairwise_singleton _ _, fun frame hframe _ _ => hcontents frame hframe⟩
      exact List.pairwise_of_forall_mem_list fun frame hframe _ _ => hcontents frame hframe
  · intro h
    induction frames with
    | nil => exact ⟨[], by simp, .inl rfl⟩
    | cons first rest ih =>
      obtain ⟨hfirst, hrest⟩ := List.pairwise_cons.mp h
      obtain ⟨contents, hcontents, hrest⟩ := ih hrest
      cases hterminal : first.isTerminal with
      | false =>
        refine ⟨first :: contents, List.forall_mem_cons.mpr ⟨hterminal, hcontents⟩, ?_⟩
        obtain rfl | ⟨last, hlast, rfl⟩ := hrest
        · exact .inl rfl
        · exact .inr ⟨last, hlast, rfl⟩
      | true =>
        -- a terminal frame is the last one
        cases rest with
        | nil => exact ⟨[], by simp, .inr ⟨first, hterminal, rfl⟩⟩
        | cons second rest =>
          rw [hfirst second List.mem_cons_self] at hterminal
          cases hterminal

theorem EndsOnce.sublist {frames frames' : List Frame} (h : EndsOnce frames)
    (hsub : frames'.Sublist frames) : EndsOnce frames' :=
  endsOnce_iff.mpr ((endsOnce_iff.mp h).sublist hsub)

theorem endsOnce_concat {frames : List Frame} {frame : Frame} (h : EndsOnce frames) :
    EndsOnce (frames ++ [frame]) ↔ ∀ earlier ∈ frames, earlier.isTerminal = false := by
  rw [endsOnce_iff, List.pairwise_append]
  constructor
  · intro hall earlier hearlier
    exact hall.2.2 earlier hearlier frame List.mem_cons_self
  · intro hall
    exact ⟨endsOnce_iff.mp h, List.pairwise_singleton _ _, fun earlier hearlier _ _ =>
      hall earlier hearlier⟩

end FaberHosts.Kernel
