import FaberHosts.Lib.BTree
import FaberHosts.Lib.Calls
import FaberHosts.Toolchain

/-!
# The state of a Wasm run

`imports.rs`, `literal_table.rs`, `collections.rs`: the interned literal rows and
the arenas behind them, the space of dynamic handles, and the calls that hand out
and resolve handles.  An `i32` handle is given by its bits.
-/

namespace FaberHosts.Wasm
open FaberHosts.Lib

/-! ## Values -/

/-- An element value; an `f64` is its bits. -/
inductive RuntimeValue where
  | i1 (value : Bool)
  | i32 (value : UInt32)
  | i64 (value : UInt64)
  | f64 (bits : UInt64)
  | handle (handle : UInt32)
  deriving DecidableEq, Repr

structure CollectionValue where
  set : Bool
  kind : UInt32
  values : List RuntimeValue
  deriving DecidableEq, Repr

structure MapValue where
  keyKind : UInt32
  valueKind : UInt32
  entries : List (RuntimeValue × RuntimeValue)
  deriving DecidableEq, Repr

structure OptionValue where
  kind : UInt32
  payload : Option RuntimeValue
  deriving DecidableEq, Repr

structure TensorValue where
  kind : UInt32
  shape : List UInt64
  values : List RuntimeValue
  deriving DecidableEq, Repr

/-- A regex with its compiled program; only a literal may have none. -/
structure RegexValue (κ : Type) where
  pattern : String
  flags : Option String
  compiled : Option κ
  deriving DecidableEq, Repr

/-- A value the host allocated; an index points into the arena of its kind. -/
inductive DynamicValue (κ μ : Type) where
  | text (text : String)
  | regex (regex : RegexValue κ)
  | found (found : μ)
  | collection (index : Nat)
  | map (index : Nat)
  | option (index : Nat)
  | tensor (index : Nat)
  deriving DecidableEq, Repr

/-! ## Literal tables -/

/-- A declared row: its kind and its payload bytes. -/
structure RawRow where
  kind : UInt32
  payload : List UInt8
  deriving DecidableEq, Repr

def rowKindText : UInt32 := 0
def rowKindOcteti : UInt32 := 1
def rowKindRegexPattern : UInt32 := 2
def rowKindRegexFlags : UInt32 := 3

inductive InternedRowKind where
  | text
  | octeti
  | regex
  deriving DecidableEq, Repr

/-- An interned row and its place in the arena of its kind. -/
structure InternedRow where
  kind : InternedRowKind
  arena : UInt32
  deriving DecidableEq, Repr

/-- How the initialization of a module ends when it fails. -/
inductive RunOutcome where
  | initializationFailed (message : String)
  deriving DecidableEq, Repr

structure HostState (κ μ : Type) where
  rows : List InternedRow
  textArena : List String
  octetiArena : List (List UInt8)
  regexArena : List (RegexValue κ)
  collections : List CollectionValue
  maps : List MapValue
  options : List OptionValue
  tensors : List TensorValue
  nextDynamic : UInt32
  dynamic : BTreeMap UInt32 (DynamicValue κ μ)

namespace HostState

variable {κ μ ρ : Type}

def new : HostState κ μ := ⟨[], [], [], [], [], [], [], [], 0, ∅⟩

/-! ## Interning -/

def initFailed (message : String) : RunOutcome :=
  .initializationFailed ("literal-table initialization failed: " ++ message)

def decodeText (payload : List UInt8) (what : String) : Except RunOutcome String :=
  match String.fromUTF8? ⟨payload.toArray⟩ with
  | some text => .ok text
  | none => .error (initFailed s!"{what} is not valid UTF-8")

/-- The next place in an arena; it has to fit an `i32`. -/
def arenaHandle (length : Nat) : MayPanic UInt32 :=
  if length < 2 ^ 31 then some (UInt32.ofNat length) else none

/-- One arena entry for each different text of a table. -/
def internText (content : List (String × UInt32)) (payload : String) :
    Call (HostState κ μ) RunOutcome (UInt32 × List (String × UInt32)) :=
  match content.lookup payload with
  | some handle => return (handle, content)
  | none => do
    let host ← Call.get
    let handle ← Call.value (arenaHandle host.textArena.length)
    Call.modify (fun host => { host with textArena := host.textArena ++ [payload] })
    return (handle, (payload, handle) :: content)

def internOcteti (payload : List UInt8) : Call (HostState κ μ) RunOutcome UInt32 := do
  let host ← Call.get
  let handle ← Call.value (arenaHandle host.octetiArena.length)
  Call.modify (fun host => { host with octetiArena := host.octetiArena ++ [payload] })
  return handle

def internRegex (compile : String → Except ρ κ) (pattern : String) (flags : Option String) :
    Call (HostState κ μ) RunOutcome UInt32 := do
  let host ← Call.get
  let handle ← Call.value (arenaHandle host.regexArena.length)
  Call.modify (fun host =>
    { host with
      regexArena := host.regexArena ++ [⟨pattern, flags, (compile pattern).toOption⟩] })
  return handle

def pushRows (rows : List InternedRow) : Call (HostState κ μ) RunOutcome Unit :=
  Call.modify (fun host => { host with rows := host.rows ++ rows })

/-- The loop of `intern_literal_table`, from the row of the given index on. -/
def internRows (compile : String → Except ρ κ) (content : List (String × UInt32)) (index : Nat) :
    List RawRow → Call (HostState κ μ) RunOutcome Unit
  | [] => return ()
  | raw :: rest =>
    if raw.kind = rowKindText then do
      let payload ← Call.lift (some (decodeText raw.payload s!"text row {index} payload"))
      let (handle, content) ← internText content payload
      pushRows [⟨.text, handle⟩]
      internRows compile content (index + 1) rest
    else if raw.kind = rowKindOcteti then do
      let handle ← internOcteti raw.payload
      pushRows [⟨.octeti, handle⟩]
      internRows compile content (index + 1) rest
    else if raw.kind = rowKindRegexPattern then do
      let pattern ← Call.lift (some (decodeText raw.payload s!"regex row {index} pattern"))
      match rest with
      | flagsRow :: later =>
        if flagsRow.kind = rowKindRegexFlags then do
          let flags ← Call.lift (some
            (decodeText flagsRow.payload s!"regex flags row {index + 1}"))
          let handle ← internRegex compile pattern (some flags)
          -- the flags row keeps its index, with the handle of its pattern
          pushRows [⟨.regex, handle⟩, ⟨.regex, handle⟩]
          internRows compile content (index + 2) later
        else do
          let handle ← internRegex compile pattern none
          pushRows [⟨.regex, handle⟩]
          internRows compile content (index + 1) (flagsRow :: later)
      | [] => do
        let handle ← internRegex compile pattern none
        pushRows [⟨.regex, handle⟩]
    else
      Call.throw (initFailed s!"row {index} declares unknown kind {raw.kind}")

/-- Intern the rows of a table; dynamic handles then start after the last row. -/
def internLiteralTable (compile : String → Except ρ κ) (rows : List RawRow) :
    Call (HostState κ μ) RunOutcome Unit := do
  internRows compile [] 0 rows
  let host ← Call.get
  let next ← Call.value (arenaHandle host.rows.length)
  Call.modify (fun host => { host with nextDynamic := next })

/-- A module without a literal table initializes nothing. -/
def initializeLiteralTable (compile : String → Except ρ κ) (table : Option (List RawRow)) :
    Call (HostState κ μ) RunOutcome Unit :=
  match table with
  | none => return ()
  | some rows => internLiteralTable compile rows

/-! ## Dynamic values -/

/-- `next_dynamic += 1` on `i32`. -/
def nextHandle (T : Toolchain) (handle : UInt32) : MayPanic UInt32 :=
  if T.overflowChecks ∧ handle.toNat = 2 ^ 31 - 1 then none else some (handle + 1)

def allocDynamic (T : Toolchain) (host : HostState κ μ) (value : DynamicValue κ μ) :
    MayPanic (UInt32 × HostState κ μ) :=
  (nextHandle T host.nextDynamic).map (fun next =>
    (host.nextDynamic,
      { host with nextDynamic := next, dynamic := host.dynamic.insert host.nextDynamic value }))

def allocText (T : Toolchain) (host : HostState κ μ) (text : String) :
    MayPanic (UInt32 × HostState κ μ) :=
  host.allocDynamic T (.text text)

/-- A pattern outside the dialect allocates nothing. -/
def allocRegex (T : Toolchain) (compile : String → Except ρ κ) (host : HostState κ μ)
    (pattern : String) (flags : Option String) :
    MayPanic (Except ρ UInt32 × HostState κ μ) :=
  match compile pattern with
  | .error e => some (.error e, host)
  | .ok compiled =>
    (host.allocDynamic T (.regex ⟨pattern, flags, some compiled⟩)).map (fun allocated =>
      (.ok allocated.1, allocated.2))

def allocMatch (T : Toolchain) (host : HostState κ μ) (found : μ) :
    MayPanic (UInt32 × HostState κ μ) :=
  host.allocDynamic T (.found found)

def allocCollection (T : Toolchain) (host : HostState κ μ) (set : Bool) (kind : UInt32)
    (values : List RuntimeValue) : MayPanic (UInt32 × HostState κ μ) :=
  allocDynamic T { host with collections := host.collections ++ [⟨set, kind, values⟩] }
    (.collection host.collections.length)

def allocMap (T : Toolchain) (host : HostState κ μ) (keyKind valueKind : UInt32)
    (entries : List (RuntimeValue × RuntimeValue)) : MayPanic (UInt32 × HostState κ μ) :=
  allocDynamic T { host with maps := host.maps ++ [⟨keyKind, valueKind, entries⟩] }
    (.map host.maps.length)

def allocOption (T : Toolchain) (host : HostState κ μ) (kind : UInt32)
    (payload : Option RuntimeValue) : MayPanic (UInt32 × HostState κ μ) :=
  allocDynamic T { host with options := host.options ++ [⟨kind, payload⟩] }
    (.option host.options.length)

def allocTensor (T : Toolchain) (host : HostState κ μ) (tensor : TensorValue) :
    MayPanic (UInt32 × HostState κ μ) :=
  allocDynamic T { host with tensors := host.tensors ++ [tensor] } (.tensor host.tensors.length)

/-! ## Resolving -/

/-- The index of a handle; a negative `i32` has none. -/
def handleIndex (handle : UInt32) : Option Nat :=
  if handle.toNat < 2 ^ 31 then some handle.toNat else none

/-- An interned text row, else a dynamic text. -/
def resolveText (host : HostState κ μ) (handle : UInt32) : Option String :=
  (handleIndex handle).bind (fun index =>
    match host.rows[index]? with
    | some row => if row.kind = .text then host.textArena[row.arena.toNat]? else none
    | none =>
      match host.dynamic[handle]? with
      | some (.text text) => some text
      | _ => none)

/-- An interned octeti row. -/
def resolveOcteti (host : HostState κ μ) (handle : UInt32) : Option (List UInt8) :=
  (handleIndex handle).bind (fun index =>
    match host.rows[index]? with
    | some row => if row.kind = .octeti then host.octetiArena[row.arena.toNat]? else none
    | none => none)

/-- An interned regex row, else a dynamic regex. -/
def resolveRegex (host : HostState κ μ) (handle : UInt32) : Option (RegexValue κ) :=
  (handleIndex handle).bind (fun index =>
    match host.rows[index]? with
    | some row => if row.kind = .regex then host.regexArena[row.arena.toNat]? else none
    | none =>
      match host.dynamic[handle]? with
      | some (.regex regex) => some regex
      | _ => none)

def findCollection (host : HostState κ μ) (handle : UInt32) : Option CollectionValue :=
  match host.dynamic[handle]? with
  | some (.collection index) => host.collections[index]?
  | _ => none

def findMap (host : HostState κ μ) (handle : UInt32) : Option MapValue :=
  match host.dynamic[handle]? with
  | some (.map index) => host.maps[index]?
  | _ => none

def findOption (host : HostState κ μ) (handle : UInt32) : Option OptionValue :=
  match host.dynamic[handle]? with
  | some (.option index) => host.options[index]?
  | _ => none

def findTensor (host : HostState κ μ) (handle : UInt32) : Option TensorValue :=
  match host.dynamic[handle]? with
  | some (.tensor index) => host.tensors[index]?
  | _ => none

end HostState

end FaberHosts.Wasm
