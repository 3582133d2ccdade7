import FaberHosts.Kernel.Frame
import FaberHosts.Kernel.WireRoundTrip

/-!
# Frames in transport

`frame.rs`: the JSON document of a frame, and the conversions between a frame and the
`Scrinium` of the runtime.
-/

namespace FaberHosts.Kernel
open FaberHosts.Lib

/-! ## The document of a frame -/

/-- A field of a document: a `serde_json::Value`, or an integer that needs more than 64 bits. -/
inductive Wire where
  | tree (json : Json)
  | wide (n : Nat)

/-- The two serializers: into a `serde_json::Value`, whose numbers have 64 bits, and into text. -/
inductive Carrier where
  | value
  | text
  deriving DecidableEq, Repr

abbrev Document := List (String × Wire)

def Carrier.u128 (carrier : Carrier) (n : U128) : Except String Wire :=
  if n.toNat < 2 ^ 64 then .ok (.tree (.number (.posInt (.ofNat n.toNat))))
  else
    match carrier with
    | .value => .error "number out of range"
    | .text => .ok (.wide n.toNat)

namespace Wire

def ofString (s : String) : Wire := .tree (.string s)

def ofOption : Option String → Wire
  | none => .tree .null
  | some s => ofString s

def string : Wire → Except String String
  | .tree (.string s) => .ok s
  | _ => .error "invalid type, expected a string"

def optionString : Wire → Except String (Option String)
  | .tree .null => .ok none
  | wire => some <$> wire.string

def u64 : Wire → Except String UInt64
  | .tree (.number (.posInt n)) => .ok n
  | _ => .error "invalid type or value, expected u64"

def u128 : Wire → Except String U128
  | .tree (.number (.posInt n)) => .ok (.ofNat 128 n.toNat)
  | .wide n => if n < 2 ^ 128 then .ok (.ofNat 128 n) else .error "number out of range"
  | _ => .error "invalid type or value, expected u128"

/-- `Value::deserialize`. -/
def json : Wire → Except String Json
  | .tree json => .ok json
  | .wide _ => .error "number out of range"

/-- `Option<Value>`: a null is `None`. -/
def optionJson : Wire → Except String (Option Json)
  | .tree .null => .ok none
  | wire => some <$> wire.json

end Wire

namespace Status

/-- `rename_all = "lowercase"`. -/
def name : Status → String
  | .request => "request"
  | .item => "item"
  | .byte => "byte"
  | .bulk => "bulk"
  | .done => "done"
  | .error => "error"
  | .cancel => "cancel"

def ofName : String → Except String Status
  | "request" => .ok .request
  | "item" => .ok .item
  | "byte" => .ok .byte
  | "bulk" => .ok .bulk
  | "done" => .ok .done
  | "error" => .ok .error
  | "cancel" => .ok .cancel
  | name => .error s!"unknown variant `{name}`"

/-- A unit variant is its name, or an object from its name to null. -/
def deserialize : Wire → Except String Status
  | .tree (.string name) => ofName name
  | .tree (.object [(name, .null)]) => ofName name
  | _ => .error "invalid type, expected string or map"

@[simp] theorem ofName_name (status : Status) : ofName status.name = .ok status := by
  cases status <;> rfl

end Status

/-- The field of a document, of which there is at most one. -/
def fieldOf (document : Document) (name : String) : Except String (Option Wire) :=
  match document.filter (fun field => field.1 = name) with
  | [] => .ok none
  | [field] => .ok (some field.2)
  | _ => .error s!"duplicate field `{name}`"

def requiredField (document : Document) (name : String) : Except String Wire := do
  match ← fieldOf document name with
  | some wire => .ok wire
  | none => .error s!"missing field `{name}`"

variable (T : WireText)

/-- `serde_field`. -/
def serializeData (data : Valor) : Except String Wire :=
  match valorToJson T data with
  | .ok json => .ok (.tree json)
  | .error error => .error error.message

def deserializeData (wire : Wire) : Except String Valor := do
  match jsonToValor T (← wire.json) with
  | .ok data => .ok data
  | .error error => .error error.message

namespace Frame

/-- The trace is left out when absent, and the data when it is an empty `tabula`. -/
def serialize (carrier : Carrier) (frame : Frame) : Except String Document := do
  let createdMs ← carrier.u128 frame.createdMs
  let data ←
    if frameData.isEmptyTabula frame.data then pure []
    else do
      let wire ← serializeData T frame.data
      pure [("data", wire)]
  .ok ([("id", .ofString frame.id), ("parent_id", .ofOption frame.parentId),
    ("created_ms", createdMs), ("expires_in", .tree (.number (.posInt frame.expiresIn))),
    ("from", .ofOption frame.sender), ("call", .ofString frame.call),
    ("status", .ofString frame.status.name)] ++
    frame.trace.toList.map (fun trace => ("trace", .tree trace)) ++ data)

def deserialize (document : Document) : Except String Frame := do
  let id ← (← requiredField document "id").string
  let parentId ← (← fieldOf document "parent_id").elim (.ok none) Wire.optionString
  let createdMs ← (← requiredField document "created_ms").u128
  let expiresIn ← (← requiredField document "expires_in").u64
  let sender ← (← fieldOf document "from").elim (.ok none) Wire.optionString
  let call ← (← requiredField document "call").string
  let status ← Status.deserialize (← requiredField document "status")
  let trace ← (← fieldOf document "trace").elim (.ok none) Wire.optionJson
  let data ← (← fieldOf document "data").elim (.ok frameData.empty) (deserializeData T)
  .ok ⟨id, parentId, createdMs, expiresIn, sender, call, status, trace, data⟩

end Frame

/-! ## The frames of the runtime -/

/-- `faber::FrameStatus`. -/
inductive FrameStatus where
  | request
  | item
  | byte
  | bulk
  | done
  | error
  | cancel
  deriving DecidableEq, Repr

def Status.ofFrameStatus : FrameStatus → Status
  | .request => .request
  | .item => .item
  | .byte => .byte
  | .bulk => .bulk
  | .done => .done
  | .error => .error
  | .cancel => .cancel

def FrameStatus.ofStatus : Status → FrameStatus
  | .request => .request
  | .item => .item
  | .byte => .byte
  | .bulk => .bulk
  | .done => .done
  | .error => .error
  | .cancel => .cancel

@[simp] theorem FrameStatus.ofStatus_ofFrameStatus (status : FrameStatus) :
    FrameStatus.ofStatus (Status.ofFrameStatus status) = status := by
  cases status <;> rfl

/-- `faber::Scrinium`; `sender` is the field `from`. -/
structure Scrinium where
  id : String
  parentId : Option String
  call : String
  status : FrameStatus
  data : Valor
  createdMs : Int64
  sender : Option String
  trace : Option Valor

/-- `Frame::from(scrinium)`: a trace that has no JSON is left out. -/
def Frame.ofScrinium (stamp : Stamp) (scrinium : Scrinium) : Frame where
  id := if scrinium.id = "" then stamp.id else scrinium.id
  parentId := scrinium.parentId
  createdMs :=
    if 0 ≤ scrinium.createdMs then .ofNat 128 scrinium.createdMs.toNatClampNeg
    else stamp.createdMs
  expiresIn := 0
  sender := scrinium.sender
  call := scrinium.call
  status := .ofFrameStatus scrinium.status
  trace := scrinium.trace.bind (fun trace => (valorToJson T trace).toOption)
  data := scrinium.data

/-- `Scrinium::from(frame)`: a trace that is no value is left out. -/
def Scrinium.ofFrame (frame : Frame) : Scrinium where
  id := frame.id
  parentId := frame.parentId
  call := frame.call
  status := .ofStatus frame.status
  data := frame.data
  createdMs :=
    if frame.createdMs.toNat ≤ Int64.maxValue.toNatClampNeg then .ofNat frame.createdMs.toNat
    else Int64.maxValue
  sender := frame.sender
  trace := frame.trace.bind (fun trace => (jsonToValor T trace).toOption)

/-! ## What transport keeps -/

/-- A frame whose data has its maps in key order, as every `BTreeMap` is. -/
abbrev OrderedFrame := { frame : Frame // frame.data.Ordered }

/-- A `Scrinium` whose values have their maps in key order. -/
abbrev OrderedScrinium :=
  { scrinium : Scrinium // scrinium.data.Ordered ∧ ∀ trace ∈ scrinium.trace, trace.Ordered }

variable {T}

@[simp] theorem Wire.string_ofString (s : String) : (Wire.ofString s).string = .ok s := rfl

@[simp] theorem Wire.optionString_ofOption (s : Option String) :
    (Wire.ofOption s).optionString = .ok s := by
  cases s <;> rfl

theorem Carrier.u128_inverts {carrier : Carrier} {n : U128} {wire : Wire}
    (h : carrier.u128 n = .ok wire) : wire.u128 = .ok n := by
  unfold Carrier.u128 at h
  split at h
  · next hsmall =>
    cases h
    have hsame : (UInt64.ofNat n.toNat).toNat = n.toNat := by
      simpa using Nat.mod_eq_of_lt hsmall
    simp only [Wire.u128, hsame, BitVec.ofNat_toNat, BitVec.setWidth_eq]
  · cases carrier with
    | value => cases h
    | text =>
      cases h
      simp [Wire.u128, n.isLt]

theorem serializeData_inverts {data : Valor} (hordered : data.Ordered) {wire : Wire}
    (h : serializeData T data = .ok wire) : deserializeData T wire = .ok data := by
  unfold serializeData at h
  cases hjson : valorToJson T data with
  | error error => simp [hjson] at h
  | ok json =>
    simp only [hjson, Except.ok.injEq] at h
    subst h
    simp [deserializeData, Wire.json, valorToJson_inverts data hordered json hjson, bind,
      Except.bind]

/-- A trace as it is read back: a null is absent. -/
def readTrace : Option Json → Option Json
  | some .null => none
  | trace => trace

theorem optionJson_tree (trace : Json) :
    (Wire.tree trace).optionJson = .ok (readTrace (some trace)) := by
  cases trace <;> rfl

theorem readTrace_eq_iff {trace : Option Json} : readTrace trace = trace ↔ trace ≠ some .null := by
  unfold readTrace
  split
  · simp
  · next hnull => exact iff_of_true rfl hnull

/-- The fields that are always written. -/
def Frame.fixedFields (frame : Frame) (createdMs : Wire) : Document :=
  [("id", .ofString frame.id), ("parent_id", .ofOption frame.parentId),
    ("created_ms", createdMs), ("expires_in", .tree (.number (.posInt frame.expiresIn))),
    ("from", .ofOption frame.sender), ("call", .ofString frame.call),
    ("status", .ofString frame.status.name)]

def traceField (trace : Option Json) : Document :=
  trace.toList.map (fun trace => ("trace", .tree trace))

def dataField (data : Option Wire) : Document := data.toList.map (fun wire => ("data", wire))

/-- A document is the fixed fields, a trace where there is one, and the data unless it is empty. -/
theorem serialize_ok {carrier : Carrier} {frame : Frame} {document : Document}
    (h : frame.serialize T carrier = .ok document) :
    ∃ createdMs data, carrier.u128 frame.createdMs = .ok createdMs ∧
      document = frame.fixedFields createdMs ++ traceField frame.trace ++ dataField data ∧
      (data = none ∧ frame.data = frameData.empty ∨
        ∃ wire, data = some wire ∧ serializeData T frame.data = .ok wire) := by
  unfold Frame.serialize at h
  cases hcreated : carrier.u128 frame.createdMs with
  | error e => simp [hcreated, bind, Except.bind] at h
  | ok createdMs =>
    simp only [hcreated, bind, Except.bind] at h
    cases hempty : frameData.isEmptyTabula frame.data with
    | true =>
      simp only [hempty, if_true, pure, Except.pure, Except.ok.injEq] at h
      exact ⟨createdMs, none, rfl, h.symm, .inl ⟨rfl, frameData.isEmptyTabula_iff.mp hempty⟩⟩
    | false =>
      cases hdata : serializeData T frame.data with
      | error e => simp [hempty, hdata] at h
      | ok wire =>
        simp only [hempty, hdata, Bool.false_eq_true, if_false, pure, Except.pure,
          Except.ok.injEq] at h
        exact ⟨createdMs, some wire, rfl, h.symm, .inr ⟨wire, rfl, rfl⟩⟩

theorem deserialize_fields (frame : Frame) (createdMs : Wire) (data : Option Wire) :
    Frame.deserialize T (frame.fixedFields createdMs ++ traceField frame.trace ++ dataField data) =
      (do
        let createdMs ← createdMs.u128
        let data ← data.elim (.ok frameData.empty) (deserializeData T)
        .ok { frame with createdMs := createdMs, trace := readTrace frame.trace, data := data }) := by
  have hstatus : Status.deserialize (.ofString frame.status.name) = .ok frame.status :=
    Status.ofName_name frame.status
  cases frame.trace with
  | none =>
    cases data with
    | none =>
      simp [Frame.deserialize, requiredField, fieldOf, Frame.fixedFields, traceField, dataField,
        bind, Except.bind, hstatus, Wire.u64, readTrace]
    | some wire =>
      simp [Frame.deserialize, requiredField, fieldOf, Frame.fixedFields, traceField, dataField,
        bind, Except.bind, hstatus, Wire.u64, readTrace]
  | some trace =>
    cases data with
    | none =>
      simp [Frame.deserialize, requiredField, fieldOf, Frame.fixedFields, traceField, dataField,
        bind, Except.bind, hstatus, Wire.u64, optionJson_tree]
    | some wire =>
      simp [Frame.deserialize, requiredField, fieldOf, Frame.fixedFields, traceField, dataField,
        bind, Except.bind, hstatus, Wire.u64, optionJson_tree]

/-- A frame is read back with its trace as `readTrace` says, and otherwise unchanged. -/
theorem deserialize_serialize {carrier : Carrier} {frame : Frame} (hordered : frame.data.Ordered)
    {document : Document} (h : frame.serialize T carrier = .ok document) :
    Frame.deserialize T document = .ok { frame with trace := readTrace frame.trace } := by
  obtain ⟨createdMs, data, hcreated, rfl, hdata⟩ := serialize_ok h
  have hread : data.elim (.ok frameData.empty) (deserializeData T) = .ok frame.data := by
    obtain ⟨rfl, hempty⟩ | ⟨wire, rfl, hwire⟩ := hdata
    · rw [hempty]
      rfl
    · exact serializeData_inverts hordered hwire
  rw [deserialize_fields, Carrier.u128_inverts hcreated, hread]
  rfl

/-! ## What the conversions keep -/

/-- A trace as it comes back from a frame: left out when it has no JSON. -/
theorem trace_of_frame {trace : Option Valor} (hordered : ∀ value ∈ trace, value.Ordered) :
    (trace.bind (fun value => (valorToJson T value).toOption)).bind
        (fun json => (jsonToValor T json).toOption) =
      trace.bind (fun value => (valorToJson T value).toOption.map (fun _ => value)) := by
  cases trace with
  | none => rfl
  | some value =>
    cases hjson : valorToJson T value with
    | error e => simp [hjson, Except.toOption]
    | ok json =>
      have hvalue := valorToJson_inverts value (hordered value rfl) json hjson
      simp [hjson, hvalue, Except.toOption]

theorem createdMs_inverts {n : Int64} (h : 0 ≤ n) :
    (if (BitVec.ofNat 128 n.toNatClampNeg).toNat ≤ Int64.maxValue.toNatClampNeg then
      Int64.ofNat (BitVec.ofNat 128 n.toNatClampNeg).toNat else Int64.maxValue) = n := by
  have hlt := n.toNatClampNeg_lt
  have hmax : Int64.maxValue.toNatClampNeg = 2 ^ 63 - 1 := by decide
  have hsame : (BitVec.ofNat 128 n.toNatClampNeg).toNat = n.toNatClampNeg := by
    rw [BitVec.toNat_ofNat]
    exact Nat.mod_eq_of_lt (by omega)
  rw [hsame, if_pos (by omega), Int64.ofNat_toNatClampNeg n h]

/-- A `Scrinium` comes back from its frame with its trace, when that has a JSON, and otherwise
    without it. -/
theorem ofFrame_ofScrinium (stamp : Stamp) {scrinium : Scrinium} (hid : scrinium.id ≠ "")
    (hcreated : 0 ≤ scrinium.createdMs) (hordered : ∀ trace ∈ scrinium.trace, trace.Ordered) :
    Scrinium.ofFrame T (Frame.ofScrinium T stamp scrinium) =
      { scrinium with
        trace := scrinium.trace.bind (fun trace =>
          (valorToJson T trace).toOption.map (fun _ => trace)) } := by
  unfold Scrinium.ofFrame Frame.ofScrinium
  simp only [if_neg hid, if_pos hcreated, createdMs_inverts hcreated, trace_of_frame hordered,
    FrameStatus.ofStatus_ofFrameStatus]

theorem trace_kept_iff {trace : Option Valor} :
    trace.bind (fun value => (valorToJson T value).toOption.map (fun _ => value)) = trace ↔
      ∀ value ∈ trace, value.Encodable := by
  cases trace with
  | none => simp
  | some value =>
    simp only [Option.bind_some, Option.mem_some_iff, forall_eq']
    rw [← valorToJson_succeeds_iff (T := T)]
    cases valorToJson T value <;> simp [Except.toOption]

/-- A frame whose trace is a null. -/
def nullTraceFrame : Frame :=
  { Frame.terminal ⟨"frame-1", 0⟩ "root" "solum:lege" .done with trace := some .null }

/-- A `Scrinium` whose trace is `2 ^ 64`. -/
def wideTraceScrinium : Scrinium :=
  ⟨"frame-1", none, "solum:lege", .request, .nihil, 0, none, some (.magnus (2 ^ 64))⟩

/-- `WireText` of empty texts. -/
def blankText : WireText := ⟨fun _ => "", fun _ => "", fun _ => "", fun _ => ""⟩

end FaberHosts.Kernel
