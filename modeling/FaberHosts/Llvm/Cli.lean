import FaberHosts.Llvm.Arenas
import FaberHosts.Coordinator.Identity

/-!
# Parsing the command line

The emitted entry hands the host the descriptor of its command line; the host
parses the arguments of the process against it and keeps a table of typed
entries.  A handle in the table is modelled by what the object behind it holds.
A parse that ends the process (the help and the version are printed, or the
diagnostic of a wrong argument) is a `Stop`.
-/

namespace FaberHosts.Llvm.Cli
open FaberHosts.Kernel FaberHosts.Coordinator

/-! ### The descriptor -/

inductive DescriptorExit where
  | none
  | fixed (code : Int)
  | binding (binding : String)
  | field (field : String)
  | unsupported

inductive DescriptorDefault where
  | text (value : String)
  | integer (value : Int)
  | float (value : F64)
  | bool (value : Bool)
  | nil
  | expr (value : String)

structure DescriptorOption where
  binding : String
  ty : UInt8
  short : Option String
  long : Option String
  flag : Bool
  default : Option DescriptorDefault

structure DescriptorOperand where
  binding : String
  ty : UInt8
  rest : Bool
  default : Option DescriptorDefault

structure DescriptorCommand where
  path : List String
  aliases : List String
  options : List DescriptorOption
  operands : List DescriptorOperand

structure CliDescriptor where
  mode : UInt8
  version : Option String
  exit : DescriptorExit
  globalOptions : List DescriptorOption
  globalOperands : List DescriptorOperand
  options : List DescriptorOption
  operands : List DescriptorOperand
  commands : List DescriptorCommand

@[match_pattern] def tTextus : UInt8 := 0
@[match_pattern] def tNumerus : UInt8 := 1
@[match_pattern] def tFractus : UInt8 := 2
@[match_pattern] def tBivalens : UInt8 := 3
@[match_pattern] def tOcteti : UInt8 := 4
@[match_pattern] def tListaTextus : UInt8 := 6
@[match_pattern] def tListaNumerus : UInt8 := 7

def modeSubcommand : UInt8 := 1

/-! ### The table -/

/-- What an entry holds: a scalar, or a handle to a text, to octeti, to a lista of
    pointers or of numbers, to an option, or the null pointer. -/
inductive CliPayload where
  | text (value : String)
  | octeti (bytes : List UInt8)
  | listaPtr (values : List CliPayload)
  | listaI64 (values : List Int)
  | optioNone (kind : ValueKind)
  | optioSome (kind : ValueKind) (value : CliPayload)
  | null
  | integer (value : Int)
  | float (value : F64)
  | bool (value : Bool)

structure CliEntry where
  kind : UInt8
  carrier : Bool
  value : CliPayload

structure RuntimeCliTable where
  entries : List CliEntry
  bindingNames : List String
  exit : DescriptorExit
  selectedCommand : Int

/-- How a parse ends without a table: a help or the version is printed and the process
    exits with 0, or the parse reports a diagnostic, after the root help or alone. -/
inductive Stop where
  | rootHelp
  | surfaceHelp
  | version (text : String)
  | errorAfterHelp (message : String)
  | error (message : String)
  deriving DecidableEq, Repr

/-! ### Values -/

/-- `str::parse::<i64>`: an optional sign and decimal digits, in range. -/
def parseI64 (raw : String) : Option Int :=
  let digits (chars : List Char) : Option Nat :=
    if chars ≠ [] ∧ chars.all Char.isDigit then
      some (chars.foldl (fun value c => value * 10 + (c.toNat - '0'.toNat)) 0)
    else none
  match raw.toList with
  | '-' :: chars =>
    (digits chars).bind fun value => if value ≤ 2 ^ 63 then some (-(value : Int)) else none
  | '+' :: chars => (digits chars).bind fun value => if value < 2 ^ 63 then some value else none
  | chars => (digits chars).bind fun value => if value < 2 ^ 63 then some value else none

/-- `str::parse::<bool>`. -/
def parseBool (raw : String) : Option Bool :=
  if raw = "true" then some true else if raw = "false" then some false else none

def invalidNumeric (raw : String) : Stop := .error s!"invalid numeric value '{raw}'"

def invalidBoolean (raw : String) : Stop := .error s!"invalid boolean value '{raw}'"

/-- `option_value_kind`. -/
def optionValueKind (ty : UInt8) : ValueKind :=
  match ty with
  | tNumerus => .i64
  | tFractus => .f64
  | tBivalens => .i1
  | tOcteti => .ptr
  | tListaTextus => .ptr
  | tListaNumerus => .ptr
  | _ => .text

/-- `0.0`. -/
def zeroF64 : F64 := ⟨0⟩

/-- `default_value_entry`. -/
def defaultValueEntry (ty : UInt8) (default : DescriptorDefault) : CliEntry :=
  match ty, default with
  | tNumerus, .integer value => ⟨ty, false, .integer value⟩
  | tFractus, .float value => ⟨ty, false, .float value⟩
  | tBivalens, .bool value => ⟨ty, false, .bool value⟩
  | tOcteti, .text value => ⟨ty, false, .octeti (utf8Bytes value)⟩
  | _, .text value => ⟨ty, false, .text value⟩
  | _, .expr value => ⟨ty, false, .text value⟩
  | tNumerus, _ => ⟨ty, false, .integer 0⟩
  | tFractus, _ => ⟨ty, false, .float zeroF64⟩
  | tBivalens, _ => ⟨ty, false, .bool false⟩
  | _, .nil => ⟨ty, false, if ty = tOcteti then .octeti [] else .text ""⟩
  | _, _ => ⟨ty, false, .integer 0⟩

/-- `initial_option_entry`. -/
def initialOptionEntry (option : DescriptorOption) : CliEntry :=
  if option.flag then
    let enabled := match option.default with
      | some (.bool true) => true
      | _ => false
    ⟨option.ty, false, .bool enabled⟩
  else
    match option.default with
    | some default => defaultValueEntry option.ty default
    | none => ⟨option.ty, true, .optioNone (optionValueKind option.ty)⟩

section

-- `str::parse::<f64>`
variable (parseF64 : String → Option F64)

/-- The scalar and text types that an option's value and an operand's share. -/
def parseScalar (ty : UInt8) (raw : String) : Except Stop CliPayload :=
  match ty with
  | tNumerus => ((parseI64 raw).map .integer).elim (.error (invalidNumeric raw)) .ok
  | tFractus => ((parseF64 raw).map .float).elim (.error (invalidNumeric raw)) .ok
  | tBivalens => ((parseBool raw).map .bool).elim (.error (invalidBoolean raw)) .ok
  | tOcteti => .ok (.octeti (utf8Bytes raw))
  | _ => .ok (.text raw)

/-- `parse_option_value`: an option without a default carries its value in an `optio`. -/
def parseOptionValue (option : DescriptorOption) (raw : String) : Except Stop CliEntry := do
  let value ← parseScalar parseF64 option.ty raw
  if option.default.isNone then
    return ⟨option.ty, true, .optioSome (optionValueKind option.ty) value⟩
  else
    return ⟨option.ty, false, value⟩

/-- `apply_option`: the entries, and how many of the following arguments are the
    option's value. -/
def applyOption (option : DescriptorOption) (optionIndex : Nat) (entries : List CliEntry)
    (label : String) (inline : Option String) (following : List String) :
    Except Stop (List CliEntry × Nat) :=
  if option.flag then .ok (entries.set optionIndex ⟨option.ty, false, .bool true⟩, 0)
  else
    match inline with
    | some raw => do
      let entry ← parseOptionValue parseF64 option raw
      return (entries.set optionIndex entry, 0)
    | none =>
      match following.head? with
      | some raw => do
        let entry ← parseOptionValue parseF64 option raw
        return (entries.set optionIndex entry, 1)
      | none => .error (.error s!"missing value for {label}")

end

/-! ### Options -/

/-- `arg.split_once('=')`. -/
def splitInline (arg : String) : String × Option String :=
  match arg.toList.span (· ≠ '=') with
  | (_, []) => (arg, none)
  | (name, _ :: value) => (String.ofList name, some (String.ofList value))

/-- The option that a long argument names. -/
def DescriptorOption.hasLong (option : DescriptorOption) (name : String) : Bool :=
  option.long.any fun long => name == "--" ++ long

/-- The option that a short argument names. -/
def DescriptorOption.hasShort (option : DescriptorOption) (arg : String) : Bool :=
  option.short.any fun short => arg == "-" ++ short

/-- The first option that passes a test, with its place. -/
def findOption (options : List DescriptorOption) (test : DescriptorOption → Bool) :
    Option (DescriptorOption × Nat) :=
  options.zipIdx.find? fun option => test option.1

/-- How an argument reads outside the values of options. -/
inductive ArgumentForm where
  | long
  | short
  | word
  deriving DecidableEq, Repr

/-- `starts_with("--")`, then `starts_with('-') && len() > 1`. -/
def argumentForm (arg : String) : ArgumentForm :=
  match arg.toList with
  | '-' :: '-' :: _ => .long
  | '-' :: _ :: _ => .short
  | _ => .word

section

variable (parseF64 : String → Option F64)

/-- `parse_long_option`. -/
def parseLongOption (options : List DescriptorOption) (entries : List CliEntry) (arg : String)
    (following : List String) : Except Stop (List CliEntry × Nat) :=
  let (name, inline) := splitInline arg
  match findOption options (·.hasLong name) with
  | some (option, optionIndex) =>
    applyOption parseF64 option optionIndex entries name inline following
  | none => .error (.error s!"unknown option '{arg}'")

/-- `parse_short_option`. -/
def parseShortOption (options : List DescriptorOption) (entries : List CliEntry) (arg : String)
    (following : List String) : Except Stop (List CliEntry × Nat) :=
  match findOption options (·.hasShort arg) with
  | some (option, optionIndex) =>
    applyOption parseF64 option optionIndex entries arg none following
  | none => .error (.error s!"unknown option '{arg}'")

/-! ### One surface -/

/-- `default_value_payload`. -/
def defaultValuePayload (ty : UInt8) (default : DescriptorDefault) : CliPayload :=
  match ty, default with
  | tNumerus, .integer value => .integer value
  | tFractus, .float value => .float value
  | tBivalens, .bool value => .bool value
  | tOcteti, .text value => .octeti (utf8Bytes value)
  | _, .text value => .text value
  | tNumerus, _ => .integer 0
  | tFractus, _ => .float zeroF64
  | tBivalens, _ => .bool false
  | _, _ => .text ""

/-- `parse_operand_payload`. -/
def parseOperandPayload (operand : DescriptorOperand) (raw : String) : Except Stop CliPayload :=
  match operand.ty with
  | tListaNumerus => ((parseI64 raw).map .integer).elim (.error (invalidNumeric raw)) .ok
  | ty => parseScalar parseF64 ty raw

def CliPayload.asI64 : CliPayload → Int
  | .integer value => value
  | _ => 0

def CliPayload.asPtr : CliPayload → CliPayload
  | .integer _ => .null
  | .float _ => .null
  | .bool _ => .null
  | handle => handle

/-- `list_value_entry`. -/
def listValueEntry (ty : UInt8) (values : List CliPayload) : CliEntry :=
  if ty = tListaNumerus then ⟨ty, false, .listaI64 (values.map (·.asI64))⟩
  else ⟨ty, false, .listaPtr (values.map (·.asPtr))⟩

/-- The loop of `assign_operands`: the entries, and the positionals left over. -/
def assignEach : List DescriptorOperand → List String → Except Stop (List CliEntry × List String)
  | [], positionals => .ok ([], positionals)
  | operand :: operands, positionals => do
    if operand.rest then
      let values ← positionals.mapM (parseOperandPayload parseF64 operand)
      let (entries, left) ← assignEach operands []
      return (listValueEntry operand.ty values :: entries, left)
    else
      let (value, rest) ←
        match positionals, operand.default with
        | raw :: rest, _ => do
          let value ← parseOperandPayload parseF64 operand raw
          pure (value, rest)
        | [], some default => pure (defaultValuePayload operand.ty default, [])
        | [], none => throw (Stop.error s!"missing operand '{operand.binding}'")
      let (entries, left) ← assignEach operands rest
      return (⟨operand.ty, false, value⟩ :: entries, left)

/-- `assign_operands`. -/
def assignOperands (operands : List DescriptorOperand) (positionals : List String) :
    Except Stop (List CliEntry) := do
  let (entries, left) ← assignEach parseF64 operands positionals
  match operands.any (·.rest), left with
  | false, extra :: _ => throw (.error s!"unexpected operand '{extra}'")
  | _, _ => return entries

/-- The loop of `parse_surface_with_entries`: `skip` arguments are the values of the
    options before them. -/
def surfaceLoop (version : Option String) (options : List DescriptorOption) :
    Nat → List CliEntry → List String → Except Stop (List CliEntry × List String)
  | _, entries, [] => .ok (entries, [])
  | skip + 1, entries, _ :: arguments => surfaceLoop version options skip entries arguments
  | 0, entries, arg :: arguments =>
    if arg = "--" then .ok (entries, arguments)
    else if arg = "--help" ∨ arg = "-h" then .error .surfaceHelp
    else
      match version, decide (arg = "--version") with
      | some text, true => .error (.version text)
      | _, _ =>
        match argumentForm arg with
        | .long => do
          let (entries, taken) ← parseLongOption parseF64 options entries arg arguments
          surfaceLoop version options taken entries arguments
        | .short => do
          let (entries, taken) ← parseShortOption parseF64 options entries arg arguments
          surfaceLoop version options taken entries arguments
        | .word => do
          let (entries, positionals) ← surfaceLoop version options 0 entries arguments
          return (entries, arg :: positionals)

/-- `parse_surface_with_entries`. -/
def parseSurfaceWithEntries (descriptor : CliDescriptor) (options : List DescriptorOption)
    (operands : List DescriptorOperand) (arguments : List String) (entries : List CliEntry) :
    Except Stop (List CliEntry × List String) := do
  let (optionEntries, positionals) ←
    surfaceLoop parseF64 descriptor.version options 0 entries arguments
  let operandEntries ← assignOperands parseF64 operands positionals
  return (optionEntries ++ operandEntries, options.map (·.binding) ++ operands.map (·.binding))

/-! ### Commands -/

/-- `alias_path`. -/
def aliasPath (name : String) : List String :=
  ((name.toList.splitOn '/').map String.ofList).filter (· ≠ "")

/-- The words open the parts of the command line. -/
def opens (words parts : List String) : Bool :=
  decide (parts.length ≥ words.length) &&
    words.zipIdx.all fun word => parts[word.2]? == some word.1

/-- A match of `select_command`: its command's index, how many words it took, and the
    command. -/
abbrev Match : Type := Nat × Nat × DescriptorCommand

/-- The best match so far; a later one replaces it only when it is longer. -/
def consider (best : Option Match) (candidate : Match) : Option Match :=
  match best with
  | none => some candidate
  | some current => if candidate.2.1 > current.2.1 then some candidate else best

/-- One command of the loop in `select_command`: its path, then each alias. -/
def considerCommand (parts : List String) (best : Option Match)
    (command : DescriptorCommand × Nat) : Option Match :=
  let best :=
    if opens command.1.path parts then
      consider best (command.2, command.1.path.length, command.1)
    else best
  command.1.aliases.foldl (fun best name =>
    if opens (aliasPath name) parts then
      consider best (command.2, (aliasPath name).length, command.1)
    else best) best

/-- `select_command`. -/
def selectCommand (descriptor : CliDescriptor) (parts : List String) :
    Option (Nat × DescriptorCommand) :=
  (descriptor.commands.zipIdx.foldl (considerCommand parts) none).map
    fun best => (best.1, best.2.2)

/-- The loop of `parse_subcommand` up to the first word: the entries of the global
    options, and that word with everything after it. -/
def globalLoop (version : Option String) (options : List DescriptorOption) :
    Nat → List CliEntry → List String → Except Stop (List CliEntry × List String)
  | _, entries, [] => .ok (entries, [])
  | skip + 1, entries, _ :: arguments => globalLoop version options skip entries arguments
  | 0, entries, arg :: arguments =>
    if arg = "--help" ∨ arg = "-h" then .error .rootHelp
    else
      match version, decide (arg = "--version") with
      | some text, true => .error (.version text)
      | _, _ =>
        match argumentForm arg with
        | .long => do
          let (entries, taken) ← parseLongOption parseF64 options entries arg arguments
          globalLoop version options taken entries arguments
        | .short => do
          let (entries, taken) ← parseShortOption parseF64 options entries arg arguments
          globalLoop version options taken entries arguments
        | .word => .ok (entries, arg :: arguments)

/-- What `parse_subcommand` hands to the surface of the command it selected. -/
structure Dispatched where
  commandIndex : Nat
  command : DescriptorCommand
  commandArguments : List String
  optionEntries : List CliEntry

/-- `parse_subcommand` up to the selected command's own surface. -/
def dispatch (descriptor : CliDescriptor) (arguments : List String) :
    Except Stop Dispatched := do
  let (globalEntries, commandParts) ←
    globalLoop parseF64 descriptor.version descriptor.globalOptions 0
      (descriptor.globalOptions.map initialOptionEntry) arguments
  match commandParts with
  | [] => throw (.errorAfterHelp "")
  | first :: _ =>
    match selectCommand descriptor commandParts with
    | none => throw (.errorAfterHelp s!"unknown command '{first}'")
    | some (commandIndex, command) =>
      let consumed := min command.path.length commandParts.length
      return {
        commandIndex
        command
        commandArguments := commandParts.drop consumed
        optionEntries := globalEntries ++ command.options.map initialOptionEntry }

/-- `parse_subcommand`. -/
def parseSubcommand (descriptor : CliDescriptor) (arguments : List String) :
    Except Stop RuntimeCliTable := do
  let dispatched ← dispatch parseF64 descriptor arguments
  let (entries, bindingNames) ← parseSurfaceWithEntries parseF64 descriptor
    (descriptor.globalOptions ++ dispatched.command.options)
    (descriptor.globalOperands ++ dispatched.command.operands)
    dispatched.commandArguments dispatched.optionEntries
  return {
    entries
    bindingNames
    exit := descriptor.exit
    selectedCommand := dispatched.commandIndex }

/-- `parse_descriptor`. -/
def parseDescriptor (descriptor : CliDescriptor) (arguments : List String) :
    Except Stop RuntimeCliTable :=
  if descriptor.mode = modeSubcommand then parseSubcommand parseF64 descriptor arguments
  else do
    let options := descriptor.globalOptions ++ descriptor.options
    let (entries, bindingNames) ← parseSurfaceWithEntries parseF64 descriptor options
      (descriptor.globalOperands ++ descriptor.operands) arguments
      (options.map initialOptionEntry)
    return { entries, bindingNames, exit := descriptor.exit, selectedCommand := -1 }

end

end FaberHosts.Llvm.Cli
