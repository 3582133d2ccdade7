import FaberHosts.Llvm.Cli
import FaberHosts.Lib.Ranking
import Mathlib.Data.List.Basic

/-!
# What a selected command's surface parses

A command is named by its path or by an alias, and the longest name that opens
the command line selects it.  The words dropped before the command's surface
are counted from its path, whichever name was matched.
-/

namespace FaberHosts.Llvm.Cli
open FaberHosts.Kernel FaberHosts.Lib

/-- A command under one of its names. -/
structure Named where
  index : Nat
  words : List String
  command : DescriptorCommand

/-- The names of one command: its path, then its aliases. -/
def namesOf (command : DescriptorCommand × Nat) : List Named :=
  (command.1.path :: command.1.aliases.map aliasPath).map fun words =>
    ⟨command.2, words, command.1⟩

/-- The names that open the command line, in the order of the descriptor. -/
def matching (descriptor : CliDescriptor) (parts : List String) : List Named :=
  (descriptor.commands.zipIdx.flatMap namesOf).filter fun named => opens named.words parts

/-- The longest name that opens the command line, and the first of that length. -/
def FirstLongest (descriptor : CliDescriptor) (parts : List String) (named : Named) : Prop :=
  FirstMax (·.words.length) (matching descriptor parts) named

/-- An argument that takes the next one as its value. -/
def takesNext (options : List DescriptorOption) (arg : String) : Bool :=
  match argumentForm arg with
  | .long =>
    let (name, inline) := splitInline arg
    inline.isNone && (findOption options (·.hasLong name)).any fun option => !option.1.flag
  | .short => (findOption options (·.hasShort arg)).any fun option => !option.1.flag
  | .word => false

/-- The command line from its first word on, past the global options and their values. -/
def commandWords (options : List DescriptorOption) : Nat → List String → List String
  | _, [] => []
  | skip + 1, _ :: arguments => commandWords options skip arguments
  | 0, arg :: arguments =>
    if argumentForm arg = .word then arg :: arguments
    else commandWords options (if takesNext options arg then 1 else 0) arguments

/-- The surface of the selected command parses exactly what follows a longest name that
    opens the command line, and the name is that command's. -/
def Dispatched.Exact (descriptor : CliDescriptor) (parts : List String)
    (dispatched : Dispatched) : Prop :=
  ∃ named ∈ matching descriptor parts,
    (∀ other ∈ matching descriptor parts, other.words.length ≤ named.words.length) ∧
      named.index = dispatched.commandIndex ∧ named.command = dispatched.command ∧
      dispatched.commandArguments = parts.drop named.words.length

/-! ### The words that are left -/

section

variable {parseF64 : String → Option F64} {options : List DescriptorOption}

theorem applyOption_taken {option : DescriptorOption} {optionIndex taken : Nat}
    {entries entries' : List CliEntry} {label : String} {inline : Option String}
    {following : List String}
    (h : applyOption parseF64 option optionIndex entries label inline following =
      .ok (entries', taken)) :
    taken = if inline.isNone && !option.flag then 1 else 0 := by
  unfold applyOption at h
  by_cases hflag : option.flag = true
  · rw [if_pos hflag] at h
    cases h
    simp [hflag]
  · rw [if_neg hflag] at h
    cases inline with
    | some raw =>
      cases hvalue : parseOptionValue parseF64 option raw with
      | error stop => simp [hvalue, bind, Except.bind] at h
      | ok entry =>
        simp only [hvalue, bind, Except.bind, pure, Except.pure, Except.ok.injEq,
          Prod.mk.injEq] at h
        simp [← h.2]
    | none =>
      cases hnext : following.head? with
      | none => simp [hnext] at h
      | some raw =>
        cases hvalue : parseOptionValue parseF64 option raw with
        | error stop => simp [hnext, hvalue, bind, Except.bind] at h
        | ok entry =>
          simp only [hnext, hvalue, bind, Except.bind, pure, Except.pure, Except.ok.injEq,
            Prod.mk.injEq] at h
          simp [← h.2, hflag]

theorem parseLongOption_taken {arg : String} {entries entries' : List CliEntry} {taken : Nat}
    {following : List String} (hform : argumentForm arg = .long)
    (h : parseLongOption parseF64 options entries arg following = .ok (entries', taken)) :
    taken = if takesNext options arg then 1 else 0 := by
  unfold parseLongOption at h
  cases hfound : findOption options (·.hasLong (splitInline arg).1) with
  | none => simp [hfound] at h
  | some found =>
    simp only [hfound] at h
    simpa [takesNext, hform, hfound] using applyOption_taken h

theorem parseShortOption_taken {arg : String} {entries entries' : List CliEntry} {taken : Nat}
    {following : List String} (hform : argumentForm arg = .short)
    (h : parseShortOption parseF64 options entries arg following = .ok (entries', taken)) :
    taken = if takesNext options arg then 1 else 0 := by
  unfold parseShortOption at h
  cases hfound : findOption options (·.hasShort arg) with
  | none => simp [hfound] at h
  | some found =>
    simp only [hfound] at h
    simpa [takesNext, hform, hfound] using applyOption_taken h

/-- The loop over the global options stops at the first word, with everything after it. -/
theorem globalLoop_parts {version : Option String} {arguments parts : List String} {skip : Nat}
    {entries entries' : List CliEntry}
    (h : globalLoop parseF64 version options skip entries arguments = .ok (entries', parts)) :
    parts = commandWords options skip arguments := by
  induction arguments generalizing skip entries with
  | nil =>
    cases skip <;> cases h <;> rfl
  | cons arg arguments ih =>
    cases skip with
    | succ skip => exact ih h
    | zero =>
      unfold globalLoop at h
      unfold commandWords
      split at h
      · cases h
      · split at h
        · cases h
        · split at h
          case h_1 hform =>
            cases hparsed : parseLongOption parseF64 options entries arg arguments with
            | error stop => simp [hparsed, bind, Except.bind] at h
            | ok parsed =>
              rw [hparsed] at h
              rw [if_neg (by simp [hform]), ← parseLongOption_taken hform hparsed]
              exact ih h
          case h_2 hform =>
            cases hparsed : parseShortOption parseF64 options entries arg arguments with
            | error stop => simp [hparsed, bind, Except.bind] at h
            | ok parsed =>
              rw [hparsed] at h
              rw [if_neg (by simp [hform]), ← parseShortOption_taken hform hparsed]
              exact ih h
          case h_3 hform =>
            cases h
            rw [if_pos hform]

end

/-! ### The selected command -/

section

variable {descriptor : CliDescriptor} {parts : List String}

/-- A name as `select_command` keeps it: the words by their number. -/
def Named.toMatch (named : Named) : Match :=
  (named.index, named.words.length, named.command)

theorem opens_iff {words : List String} : opens words parts = true ↔ words <+: parts := by
  unfold opens
  simp only [Bool.and_eq_true, decide_eq_true_eq, List.all_eq_true, beq_iff_eq]
  rw [List.prefix_iff_getElem?]
  constructor
  · rintro ⟨hle, hall⟩ i hi
    have := hall (words[i], i) (by simp [List.mem_zipIdx_iff_getElem?, hi])
    simpa using this
  · intro h
    refine ⟨?_, ?_⟩
    · exact (List.prefix_iff_getElem?.mpr h).length_le
    · rintro ⟨word, i⟩ hmem
      rw [List.mem_zipIdx_iff_getElem?] at hmem
      obtain ⟨hi, heq⟩ := List.getElem?_eq_some_iff.mp hmem
      simpa [heq] using h i hi

/-- The loop over the commands considers each name that opens the command line. -/
theorem considerCommand_eq (best : Option Match) (command : DescriptorCommand × Nat) :
    considerCommand parts best command =
      (((namesOf command).filter fun named => opens named.words parts).map Named.toMatch).foldl
        consider best := by
  have haliases : ∀ (names : List String) (best : Option Match),
      names.foldl (fun best name =>
        if opens (aliasPath name) parts then
          consider best (command.2, (aliasPath name).length, command.1)
        else best) best =
      ((((names.map aliasPath).map fun words => Named.mk command.2 words command.1).filter
        fun named => opens named.words parts).map Named.toMatch).foldl consider best := by
    intro names
    induction names with
    | nil => exact fun _ => rfl
    | cons name names ih =>
      intro best
      simp only [List.foldl_cons, List.map_cons, List.filter_cons, ih]
      by_cases hopens : opens (aliasPath name) parts = true <;> simp [hopens, Named.toMatch]
  unfold considerCommand namesOf
  rw [haliases]
  by_cases hopens : opens command.1.path parts = true <;>
    simp [hopens, Named.toMatch]

theorem foldl_considerCommand (commands : List (DescriptorCommand × Nat)) (best : Option Match) :
    commands.foldl (considerCommand parts) best =
      (((commands.flatMap namesOf).filter fun named => opens named.words parts).map
        Named.toMatch).foldl consider best := by
  induction commands generalizing best with
  | nil => rfl
  | cons command commands ih =>
    rw [List.foldl_cons, ih, considerCommand_eq]
    simp

theorem foldl_consider_map (names : List Named) (best : Option Named) :
    (names.map Named.toMatch).foldl consider (best.map Named.toMatch) =
      (names.foldl (keepBest (·.words.length)) best).map Named.toMatch := by
  induction names generalizing best with
  | nil => rfl
  | cons named names ih =>
    rw [List.map_cons, List.foldl_cons, List.foldl_cons, ← ih]
    congr 1
    cases best with
    | none => rfl
    | some current =>
      by_cases hlonger : named.words.length > current.words.length <;>
        simp [consider, keepBest, Named.toMatch, hlonger]

theorem selectCommand_eq_some {index : Nat} {command : DescriptorCommand} :
    selectCommand descriptor parts = some (index, command) ↔
      ∃ named, FirstLongest descriptor parts named ∧ named.index = index ∧
        named.command = command := by
  have hfold : selectCommand descriptor parts =
      ((matching descriptor parts).foldl (keepBest (·.words.length)) none).map
        fun named => (named.index, named.command) := by
    unfold selectCommand
    rw [foldl_considerCommand]
    have := foldl_consider_map (matching descriptor parts) none
    rw [Option.map_none] at this
    rw [← matching, this, Option.map_map]
    rfl
  rw [hfold, Option.map_eq_some_iff]
  simp only [foldl_keepBest_eq_some, Prod.mk.injEq, FirstLongest]

end

/-! ### What the surface parses -/

section

variable {parseF64 : String → Option F64} {descriptor : CliDescriptor}
  {arguments parts : List String} {dispatched : Dispatched}

/-- A dispatch selects the command of the first longest name, and drops as many words as
    that command's path has. -/
theorem dispatch_ok (h : dispatch parseF64 descriptor arguments = .ok dispatched) :
    ∃ named, FirstLongest descriptor (commandWords descriptor.globalOptions 0 arguments) named ∧
      named.index = dispatched.commandIndex ∧ named.command = dispatched.command ∧
      dispatched.commandArguments =
        (commandWords descriptor.globalOptions 0 arguments).drop named.command.path.length := by
  unfold dispatch at h
  cases hloop : globalLoop parseF64 descriptor.version descriptor.globalOptions 0
      (descriptor.globalOptions.map initialOptionEntry) arguments with
  | error stop => simp [hloop, bind, Except.bind] at h
  | ok looped =>
    obtain ⟨entries, parts⟩ := looped
    rw [← globalLoop_parts hloop]
    simp only [hloop, bind, Except.bind] at h
    cases parts with
    | nil => cases h
    | cons first rest =>
      cases hselect : selectCommand descriptor (first :: rest) with
      | none => simp [hselect, throw, throwThe, MonadExceptOf.throw] at h
      | some selected =>
        obtain ⟨named, hfirst, hindex, hcommand⟩ := selectCommand_eq_some.mp hselect
        simp only [hselect, pure, Except.pure, Except.ok.injEq] at h
        subst h
        refine ⟨named, hfirst, hindex, hcommand, ?_⟩
        rw [hcommand]
        by_cases hle : selected.2.path.length ≤ (first :: rest).length
        · rw [Nat.min_eq_left hle]
        · rw [Nat.min_eq_right (by omega), List.drop_eq_nil_of_le (Nat.le_refl _),
            List.drop_eq_nil_of_le (by omega)]

theorem drop_eq_drop_iff {α : Type} {l : List α} {m n : Nat} (hn : n ≤ l.length) :
    l.drop m = l.drop n ↔ m = n ∨ l.length = n ∧ n ≤ m := by
  constructor
  · intro h
    have := congrArg List.length h
    simp only [List.length_drop] at this
    omega
  · rintro (rfl | ⟨hlength, hle⟩)
    · rfl
    · rw [List.drop_eq_nil_of_le (by omega), List.drop_eq_nil_of_le (by omega)]

/-- The selected command is the one of a longest name, and its surface parses exactly what
    follows that name, if and only if the first longest name has as many words as the path
    of its command, or is the whole command line and no longer than the path. -/
theorem surface_arguments_iff (parseF64 : String → Option F64) (descriptor : CliDescriptor)
    (arguments : List String) (dispatched : Dispatched)
    (h : dispatch parseF64 descriptor arguments = .ok dispatched) :
    dispatched.Exact descriptor (commandWords descriptor.globalOptions 0 arguments) ↔
      ∀ named, FirstLongest descriptor (commandWords descriptor.globalOptions 0 arguments) named →
        named.command.path.length = named.words.length ∨
          (commandWords descriptor.globalOptions 0 arguments).length = named.words.length ∧
            named.words.length ≤ named.command.path.length := by
  obtain ⟨selected, hfirst, hindex, hcommand, harguments⟩ := dispatch_ok h
  generalize commandWords descriptor.globalOptions 0 arguments = parts at *
  have hopens : selected.words.length ≤ parts.length :=
    (opens_iff.mp (List.mem_filter.mp hfirst.mem).2).length_le
  have hexact : dispatched.Exact descriptor parts ↔
      dispatched.commandArguments = parts.drop selected.words.length := by
    constructor
    · intro hexact
      obtain ⟨named, hmem, hlongest, -, -, hdrop⟩ := hexact
      have hle := hlongest selected hfirst.mem
      have hge := hfirst.le_of_mem hmem
      rw [hdrop, Nat.le_antisymm hge hle]
    · intro hdrop
      exact ⟨selected, hfirst.mem, fun other hother => hfirst.le_of_mem hother, hindex,
        hcommand, hdrop⟩
  rw [hexact, harguments, drop_eq_drop_iff hopens]
  constructor
  · intro hlength named hnamed
    rw [← hfirst.unique hnamed]
    exact hlength
  · intro hall
    exact hall selected hfirst

/-- A command `remote add` that `ra` stands for. -/
def remoteAddCommand : DescriptorCommand :=
  ⟨["remote", "add"], ["ra"], [], [⟨"name", tTextus, false, none⟩]⟩

def remoteAdd : CliDescriptor where
  mode := modeSubcommand
  version := none
  exit := .none
  globalOptions := []
  globalOperands := []
  options := []
  operands := []
  commands := [remoteAddCommand]

/-- The path matched: its surface parses what follows it. -/
theorem remote_add_by_path :
    ∃ dispatched, dispatch (fun _ => none) remoteAdd ["remote", "add", "origin"] = .ok dispatched ∧
      dispatched.Exact remoteAdd ["remote", "add", "origin"] := by
  refine ⟨_, rfl, (surface_arguments_iff (fun _ => none) remoteAdd ["remote", "add", "origin"] _
    rfl).mpr ?_⟩
  intro named hnamed
  have hmatching : matching remoteAdd ["remote", "add", "origin"] =
      [⟨0, ["remote", "add"], remoteAddCommand⟩] := rfl
  have hmem : named ∈ matching remoteAdd ["remote", "add", "origin"] := hnamed.mem
  rw [hmatching, List.mem_singleton] at hmem
  rw [hmem]
  exact Or.inl rfl

/-- The alias matched: the operand after it is dropped as if it were the path's second
    word, and the parse reports that it is missing. -/
theorem remote_add_by_alias :
    ∃ dispatched, dispatch (fun _ => none) remoteAdd ["ra", "origin"] = .ok dispatched ∧
      dispatched.commandArguments = [] ∧ ¬ dispatched.Exact remoteAdd ["ra", "origin"] ∧
      parseSubcommand (fun _ => none) remoteAdd ["ra", "origin"] =
        .error (.error "missing operand 'name'") := by
  refine ⟨_, rfl, rfl, ?_, rfl⟩
  intro hexact
  obtain ⟨named, hmem, -, -, -, hdrop⟩ := hexact
  have hmatching : matching remoteAdd ["ra", "origin"] = [⟨0, ["ra"], remoteAddCommand⟩] := rfl
  rw [hmatching, List.mem_singleton] at hmem
  rw [hmem] at hdrop
  cases hdrop

end

end FaberHosts.Llvm.Cli
