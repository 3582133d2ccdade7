import FaberHosts.Llvm.CommandPaths
import FaberHosts.Lib.Streams
import FaberHosts.Lib.Scan

/-!
# The table of a parsed command line

The getters the emitted entry reads the table with, and what the command line gives each
field: the occurrences of the options in the order of the arguments, and the positionals
each operand takes.  A parse that returns wrote exactly these inputs into the table.
-/

namespace FaberHosts.Llvm.Cli
open FaberHosts.Kernel FaberHosts.Lib

/-! ### The getters -/

/-- `find_entry`, asked with the handle of the stored table. -/
def findEntry (table : RuntimeCliTable) (index : Int) : Option CliEntry :=
  if 0 ≤ index then table.entries[index.toNat]? else none

/-- `__faber_rt_v1_cli_field_ptr`. -/
def cliFieldPtr (table : RuntimeCliTable) (index : Int) : CliPayload :=
  match findEntry table index with
  | none => .null
  | some entry =>
    if ¬ entry.carrier ∧ entry.kind ∉ [tTextus, tOcteti, tListaTextus, tListaNumerus] then .null
    else entry.value.asPtr

/-- `__faber_rt_v1_cli_field_i64`. -/
def cliFieldI64 (table : RuntimeCliTable) (index : Int) : Int :=
  match findEntry table index with
  | none => 0
  | some entry =>
    match entry.kind, entry.value with
    | tNumerus, .integer value => value
    | _, _ => 0

/-- `__faber_rt_v1_cli_field_f64`. -/
def cliFieldF64 (table : RuntimeCliTable) (index : Int) : F64 :=
  match findEntry table index with
  | none => zeroF64
  | some entry =>
    match entry.kind, entry.value with
    | tFractus, .float value => value
    | _, _ => zeroF64

/-- `__faber_rt_v1_cli_field_i1`. -/
def cliFieldI1 (table : RuntimeCliTable) (index : Int) : UInt8 :=
  match findEntry table index with
  | none => 0
  | some entry =>
    match entry.kind, entry.value with
    | tBivalens, .bool value => if value then 1 else 0
    | _, _ => 0

/-! ### What the command line gives each field -/

/-- The option an argument names, its place, and the value the argument carries itself. -/
def namedOption (options : List DescriptorOption) (arg : String) :
    Option ((DescriptorOption × Nat) × Option String) :=
  match argumentForm arg with
  | .long =>
    (findOption options (·.hasLong (splitInline arg).1)).map fun found =>
      (found, (splitInline arg).2)
  | .short => (findOption options (·.hasShort arg)).map fun found => (found, none)
  | .word => none

/-- The place of the option an argument names, with its value; a flag has none. -/
def occurrence (options : List DescriptorOption) (arg : String) (following : List String) :
    List (Nat × Option String) :=
  match namedOption options arg with
  | none => []
  | some ((option, place), inline) =>
    [(place, if option.flag then none else inline.or following.head?)]

/-- The options a surface's arguments name, in order. -/
def optionInputs (options : List DescriptorOption) :
    Nat → List String → List (Nat × Option String)
  | _, [] => []
  | skip + 1, _ :: arguments => optionInputs options skip arguments
  | 0, arg :: arguments =>
    if arg = "--" then []
    else
      occurrence options arg arguments ++
        optionInputs options (if takesNext options arg then 1 else 0) arguments

/-- A surface's other arguments, and all behind `--`. -/
def positionalInputs (options : List DescriptorOption) : Nat → List String → List String
  | _, [] => []
  | skip + 1, _ :: arguments => positionalInputs options skip arguments
  | 0, arg :: arguments =>
    if arg = "--" then arguments
    else if argumentForm arg = .word then arg :: positionalInputs options 0 arguments
    else positionalInputs options (if takesNext options arg then 1 else 0) arguments

/-- The global options named before the command. -/
def globalInputs (options : List DescriptorOption) :
    Nat → List String → List (Nat × Option String)
  | _, [] => []
  | skip + 1, _ :: arguments => globalInputs options skip arguments
  | 0, arg :: arguments =>
    if argumentForm arg = .word then []
    else
      occurrence options arg arguments ++
        globalInputs options (if takesNext options arg then 1 else 0) arguments

/-- What each operand takes of the positionals. -/
def operandInputs : List DescriptorOperand → List String → List (List String)
  | [], _ => []
  | operand :: operands, positionals =>
    if operand.rest then positionals :: operandInputs operands []
    else positionals.take 1 :: operandInputs operands (positionals.drop 1)

/-- The fields of a command line and what it gives them. -/
structure Surface where
  options : List DescriptorOption
  operands : List DescriptorOperand
  given : List (Nat × Option String)
  positionals : List String

/-- The surface a command line is parsed against: of the whole program, or of the command
    that its first words select. -/
def surfaceOf (descriptor : CliDescriptor) (arguments : List String) : Option Surface :=
  if descriptor.mode = modeSubcommand then
    let parts := commandWords descriptor.globalOptions 0 arguments
    (selectCommand descriptor parts).map fun selected =>
      let options := descriptor.globalOptions ++ selected.2.options
      let commandArguments := parts.drop (min selected.2.path.length parts.length)
      { options
        operands := descriptor.globalOperands ++ selected.2.operands
        given := globalInputs descriptor.globalOptions 0 arguments ++
          optionInputs options 0 commandArguments
        positionals := positionalInputs options 0 commandArguments }
  else
    let options := descriptor.globalOptions ++ descriptor.options
    some {
      options
      operands := descriptor.globalOperands ++ descriptor.operands
      given := optionInputs options 0 arguments
      positionals := positionalInputs options 0 arguments }

/-! ### Options -/

section Options

variable (parseF64 : String → Option F64) (options : List DescriptorOption)

/-- The entry of an option that is given. -/
def givenEntry (option : DescriptorOption) (raw : Option String) : Except Stop CliEntry :=
  if option.flag then .ok ⟨option.ty, false, .bool true⟩
  else
    match raw with
    | some raw => parseOptionValue parseF64 option raw
    | none => .error (.error "")

/-- The entry the option in a place gets. -/
def placedEntry (place : Nat) (raw : Option String) : Except Stop CliEntry :=
  match options[place]? with
  | some option => givenEntry parseF64 option raw
  | none => .error (.error "")

variable {parseF64 options}

theorem findOption_place {test : DescriptorOption → Bool} {option : DescriptorOption} {place : Nat}
    (h : findOption options test = some (option, place)) : options[place]? = some option :=
  List.mem_zipIdx_iff_getElem?.mp (List.mem_of_find?_eq_some h)

theorem applyOption_written {option : DescriptorOption} {place taken : Nat}
    {entries entries' : List CliEntry} {label : String} {inline : Option String}
    {following : List String} (hplace : options[place]? = some option)
    (h : applyOption parseF64 option place entries label inline following =
      .ok (entries', taken)) :
    Written (placedEntry parseF64 options)
      [(place, if option.flag then none else inline.or following.head?)] entries entries' := by
  have hwritten : ∀ raw entry, givenEntry parseF64 option raw = .ok entry →
      Written (placedEntry parseF64 options) [(place, raw)] entries (entries.set place entry) :=
    fun raw entry hentry => .single (by rw [placedEntry, hplace]; exact hentry)
  unfold applyOption at h
  by_cases hflag : option.flag = true
  · rw [if_pos hflag] at h
    cases h
    rw [if_pos hflag]
    exact hwritten none _ (if_pos hflag)
  · rw [if_neg hflag] at h
    rw [if_neg hflag]
    have hparsed : ∀ raw entry, parseOptionValue parseF64 option raw = .ok entry →
        Written (placedEntry parseF64 options) [(place, some raw)] entries
          (entries.set place entry) := fun raw entry hentry =>
      hwritten (some raw) entry (by rw [givenEntry, if_neg hflag]; exact hentry)
    cases inline with
    | some raw =>
      obtain ⟨entry, hentry, hresult⟩ := bind_ok_iff.mp h
      cases hresult
      exact hparsed raw entry hentry
    | none =>
      cases hnext : following.head? with
      | none =>
        rw [hnext] at h
        cases h
      | some raw =>
        rw [hnext] at h
        obtain ⟨entry, hentry, hresult⟩ := bind_ok_iff.mp h
        cases hresult
        exact hparsed raw entry hentry

theorem parseLongOption_written {arg : String} {entries entries' : List CliEntry} {taken : Nat}
    {following : List String} (hform : argumentForm arg = .long)
    (h : parseLongOption parseF64 options entries arg following = .ok (entries', taken)) :
    Written (placedEntry parseF64 options) (occurrence options arg following) entries entries' := by
  unfold parseLongOption at h
  cases hfound : findOption options (·.hasLong (splitInline arg).1) with
  | none => simp [hfound] at h
  | some found =>
    simp only [hfound] at h
    simpa [occurrence, namedOption, hform, hfound] using
      applyOption_written (findOption_place hfound) h

theorem parseShortOption_written {arg : String} {entries entries' : List CliEntry} {taken : Nat}
    {following : List String} (hform : argumentForm arg = .short)
    (h : parseShortOption parseF64 options entries arg following = .ok (entries', taken)) :
    Written (placedEntry parseF64 options) (occurrence options arg following) entries entries' := by
  unfold parseShortOption at h
  cases hfound : findOption options (·.hasShort arg) with
  | none => simp [hfound] at h
  | some found =>
    simp only [hfound] at h
    simpa [occurrence, namedOption, hform, hfound] using
      applyOption_written (findOption_place hfound) h

theorem occurrence_word {arg : String} (hform : argumentForm arg = .word)
    (following : List String) : occurrence options arg following = [] := by
  simp [occurrence, namedOption, hform]

theorem takesNext_word {arg : String} (hform : argumentForm arg = .word) :
    takesNext options arg = false := by simp [takesNext, hform]

theorem namedOption_place {arg : String} {found : DescriptorOption × Nat}
    {inline : Option String} (h : namedOption options arg = some (found, inline)) :
    options[found.2]? = some found.1 := by
  unfold namedOption at h
  split at h
  · obtain ⟨named, hfound, hsome⟩ := Option.map_eq_some_iff.mp h
    cases hsome
    exact findOption_place hfound
  · obtain ⟨named, hfound, hsome⟩ := Option.map_eq_some_iff.mp h
    cases hsome
    exact findOption_place hfound
  · cases h

theorem occurrence_place {arg : String} {following : List String} :
    ∀ write ∈ occurrence options arg following, write.1 < options.length := by
  intro write hwrite
  unfold occurrence at hwrite
  split at hwrite
  · cases hwrite
  · next option place inline hnamed =>
    rw [List.mem_singleton.mp hwrite]
    exact (List.getElem?_eq_some_iff.mp (namedOption_place hnamed)).1

theorem globalInputs_place {arguments : List String} {skip : Nat} :
    ∀ write ∈ globalInputs options skip arguments, write.1 < options.length := by
  induction arguments generalizing skip with
  | nil =>
    intro write hwrite
    cases skip <;> cases hwrite
  | cons arg arguments ih =>
    cases skip with
    | succ skip => exact ih
    | zero =>
      intro write hwrite
      rw [globalInputs] at hwrite
      split at hwrite
      · cases hwrite
      · rcases List.mem_append.mp hwrite with hwrite | hwrite
        · exact occurrence_place write hwrite
        · exact ih write hwrite

/-- The loop over the global options writes the inputs before the command. -/
theorem globalLoop_written {version : Option String} {arguments parts : List String} {skip : Nat}
    {entries entries' : List CliEntry}
    (h : globalLoop parseF64 version options skip entries arguments = .ok (entries', parts)) :
    Written (placedEntry parseF64 options) (globalInputs options skip arguments) entries
      entries' := by
  induction arguments generalizing skip entries with
  | nil =>
    cases skip <;> cases h <;> exact .nil _ _
  | cons arg arguments ih =>
    cases skip with
    | succ skip => exact ih h
    | zero =>
      unfold globalLoop at h
      unfold globalInputs
      split at h
      · cases h
      · split at h
        · cases h
        · split at h
          case h_1 hform =>
            obtain ⟨⟨middle, taken⟩, hparsed, hrest⟩ := bind_ok_iff.mp h
            have hword : argumentForm arg ≠ .word := by simp [hform]
            rw [if_neg hword, ← parseLongOption_taken hform hparsed]
            exact (parseLongOption_written hform hparsed).trans (ih hrest)
          case h_2 hform =>
            obtain ⟨⟨middle, taken⟩, hparsed, hrest⟩ := bind_ok_iff.mp h
            have hword : argumentForm arg ≠ .word := by simp [hform]
            rw [if_neg hword, ← parseShortOption_taken hform hparsed]
            exact (parseShortOption_written hform hparsed).trans (ih hrest)
          case h_3 hform =>
            cases h
            rw [if_pos hform]
            exact .nil _ _

/-- The loop over a surface writes the inputs of its options and keeps the positionals. -/
theorem surfaceLoop_written {version : Option String} {arguments positionals : List String}
    {skip : Nat} {entries entries' : List CliEntry}
    (h : surfaceLoop parseF64 version options skip entries arguments =
      .ok (entries', positionals)) :
    Written (placedEntry parseF64 options) (optionInputs options skip arguments) entries entries' ∧
      positionals = positionalInputs options skip arguments := by
  induction arguments generalizing skip entries positionals with
  | nil =>
    cases skip <;> cases h <;> exact ⟨.nil _ _, rfl⟩
  | cons arg arguments ih =>
    cases skip with
    | succ skip => exact ih h
    | zero =>
      unfold surfaceLoop at h
      unfold optionInputs positionalInputs
      split at h
      · next hbreak =>
        cases h
        rw [if_pos hbreak, if_pos hbreak]
        exact ⟨.nil _ _, rfl⟩
      · next hbreak =>
        rw [if_neg hbreak, if_neg hbreak]
        split at h
        · cases h
        · split at h
          · cases h
          · split at h
            case h_1 hform =>
              obtain ⟨⟨middle, taken⟩, hparsed, hrest⟩ := bind_ok_iff.mp h
              have hword : argumentForm arg ≠ .word := by simp [hform]
              rw [if_neg hword, ← parseLongOption_taken hform hparsed]
              obtain ⟨hwritten, hpositionals⟩ := ih hrest
              exact ⟨(parseLongOption_written hform hparsed).trans hwritten, hpositionals⟩
            case h_2 hform =>
              obtain ⟨⟨middle, taken⟩, hparsed, hrest⟩ := bind_ok_iff.mp h
              have hword : argumentForm arg ≠ .word := by simp [hform]
              rw [if_neg hword, ← parseShortOption_taken hform hparsed]
              obtain ⟨hwritten, hpositionals⟩ := ih hrest
              exact ⟨(parseShortOption_written hform hparsed).trans hwritten, hpositionals⟩
            case h_3 hform =>
              obtain ⟨⟨after, left⟩, hloop, hresult⟩ := bind_ok_iff.mp h
              cases hresult
              obtain ⟨hwritten, hpositionals⟩ := ih hloop
              rw [occurrence_word hform, takesNext_word hform, if_pos hform]
              exact ⟨hwritten, by rw [hpositionals]⟩

end Options

/-! ### Operands -/

section Operands

variable (parseF64 : String → Option F64)

/-- The entry of an operand that takes these positionals. -/
def operandEntry (operand : DescriptorOperand) (raws : List String) : Except Stop CliEntry :=
  if operand.rest then do
    let values ← raws.mapM (parseOperandPayload parseF64 operand)
    return listValueEntry operand.ty values
  else
    match raws, operand.default with
    | raw :: _, _ => do
      let value ← parseOperandPayload parseF64 operand raw
      return ⟨operand.ty, false, value⟩
    | [], some default => .ok ⟨operand.ty, false, defaultValuePayload operand.ty default⟩
    | [], none => .error (.error s!"missing operand '{operand.binding}'")

variable {parseF64}

theorem length_operandInputs (operands : List DescriptorOperand) (positionals : List String) :
    (operandInputs operands positionals).length = operands.length := by
  induction operands generalizing positionals with
  | nil => rfl
  | cons operand operands ih =>
    rw [operandInputs]
    split <;> simp [ih]

theorem assignEach_operands {operands : List DescriptorOperand} {positionals left : List String}
    {entries : List CliEntry}
    (h : assignEach parseF64 operands positionals = .ok (entries, left)) :
    List.Forall₂ (fun field entry => operandEntry parseF64 field.1 field.2 = .ok entry)
      (operands.zip (operandInputs operands positionals)) entries := by
  induction operands generalizing positionals entries left with
  | nil =>
    cases h
    exact .nil
  | cons operand operands ih =>
    rw [assignEach] at h
    rw [operandInputs]
    by_cases hrest : operand.rest = true
    · rw [if_pos hrest] at h
      obtain ⟨values, hvalues, h⟩ := bind_ok_iff.mp h
      obtain ⟨⟨others, left'⟩, hothers, h⟩ := bind_ok_iff.mp h
      cases h
      rw [if_pos hrest, List.zip_cons_cons]
      refine .cons ?_ (ih hothers)
      change operandEntry parseF64 operand positionals = _
      unfold operandEntry
      rw [if_pos hrest, hvalues]
      rfl
    · rw [if_neg hrest] at h
      rw [if_neg hrest, List.zip_cons_cons]
      cases positionals with
      | cons raw more =>
        obtain ⟨payload, hpayload, h⟩ := bind_ok_iff.mp h
        obtain ⟨⟨value, rest⟩, hpure, h⟩ := bind_ok_iff.mp h
        cases hpure
        obtain ⟨⟨others, left'⟩, hothers, h⟩ := bind_ok_iff.mp h
        cases h
        refine .cons ?_ (ih hothers)
        change operandEntry parseF64 operand [raw] = _
        unfold operandEntry
        rw [if_neg hrest]
        simp only [hpayload]
        rfl
      | nil =>
        cases hdefault : operand.default with
        | none =>
          rw [hdefault] at h
          cases h
        | some default =>
          rw [hdefault] at h
          obtain ⟨⟨value, rest⟩, hpure, h⟩ := bind_ok_iff.mp h
          cases hpure
          obtain ⟨⟨others, left'⟩, hothers, h⟩ := bind_ok_iff.mp h
          cases h
          refine .cons ?_ (ih hothers)
          change operandEntry parseF64 operand [] = _
          unfold operandEntry
          rw [if_neg hrest, hdefault]

theorem assignOperands_entries {operands : List DescriptorOperand} {positionals : List String}
    {entries : List CliEntry} (h : assignOperands parseF64 operands positionals = .ok entries) :
    entries.length = operands.length ∧
      ∀ (place : Nat) operand raws, operands[place]? = some operand →
        (operandInputs operands positionals)[place]? = some raws →
        ∃ entry : CliEntry, operandEntry parseF64 operand raws = .ok entry ∧
          entries[place]? = some entry := by
  obtain ⟨⟨assigned, left⟩, hassigned, hresult⟩ := bind_ok_iff.mp h
  have hentries : assigned = entries := by
    dsimp only at hresult
    split at hresult
    · cases hresult
    · exact Except.ok.inj hresult
  rw [hentries] at hassigned
  have hfields := assignEach_operands hassigned
  have hlength := hfields.length_eq
  rw [List.length_zip, length_operandInputs, Nat.min_self] at hlength
  refine ⟨hlength.symm, fun place operand raws hoperand hraws => ?_⟩
  have hzip : (operands.zip (operandInputs operands positionals))[place]? =
      some (operand, raws) := List.getElem?_zip_eq_some.mpr ⟨hoperand, hraws⟩
  rcases getElem?_of_forall₂ hfields place with ⟨hnone, -⟩ | ⟨field, entry, hfield, hentry, hmade⟩
  · rw [hzip] at hnone
    cases hnone
  · rw [hzip] at hfield
    cases hfield
    exact ⟨entry, hmade, hentry⟩

end Operands

/-! ### The table -/

/-- The table holds, for each field of the surface, the entry made of its input. -/
structure Surface.Holds (parseF64 : String → Option F64) (surface : Surface)
    (table : RuntimeCliTable) : Prop where
  names : table.bindingNames =
    surface.options.map (·.binding) ++ surface.operands.map (·.binding)
  length : table.entries.length = surface.options.length + surface.operands.length
  absent : ∀ place option, surface.options[place]? = some option →
    lastWrite surface.given place = none → table.entries[place]? = some (initialOptionEntry option)
  given : ∀ place option raw, surface.options[place]? = some option →
    lastWrite surface.given place = some raw →
    ∃ entry, givenEntry parseF64 option raw = .ok entry ∧ table.entries[place]? = some entry
  operand : ∀ place operand raws, surface.operands[place]? = some operand →
    (operandInputs surface.operands surface.positionals)[place]? = some raws →
    ∃ entry, operandEntry parseF64 operand raws = .ok entry ∧
      table.entries[surface.options.length + place]? = some entry

section Table

variable {parseF64 : String → Option F64} {descriptor : CliDescriptor}

theorem parseSurface_holds {options : List DescriptorOption} {operands : List DescriptorOperand}
    {arguments : List String} {entries : List CliEntry} {table : RuntimeCliTable}
    {given : List (Nat × Option String)}
    (hbefore : Written (placedEntry parseF64 options) given (options.map initialOptionEntry)
      entries)
    (h : parseSurfaceWithEntries parseF64 descriptor options operands arguments entries =
      .ok (table.entries, table.bindingNames)) :
    Surface.Holds parseF64
      ⟨options, operands, given ++ optionInputs options 0 arguments,
        positionalInputs options 0 arguments⟩ table := by
  obtain ⟨⟨optionEntries, positionals⟩, hloop, hrest⟩ := bind_ok_iff.mp h
  obtain ⟨operandEntries, hoperands, hresult⟩ := bind_ok_iff.mp hrest
  obtain ⟨hlater, rfl⟩ := surfaceLoop_written hloop
  obtain ⟨hlength, hoperand⟩ := assignOperands_entries hoperands
  have hwritten := hbefore.trans hlater
  have hoptions : optionEntries.length = options.length := by
    rw [hwritten.length, List.length_map]
  obtain ⟨hentries, hnames⟩ := Prod.mk.inj (Except.ok.inj hresult)
  have hleft : ∀ place, place < options.length →
      table.entries[place]? = optionEntries[place]? := fun place hplace => by
    rw [← hentries, List.getElem?_append_left (hoptions ▸ hplace)]
  refine ⟨hnames.symm, ?_, ?_, ?_, ?_⟩
  · rw [← hentries, List.length_append, hoptions, hlength]
  · intro place option hplace hnone
    have hlt := (List.getElem?_eq_some_iff.mp hplace).1
    rw [hleft place hlt, hwritten.kept place hnone, List.getElem?_map, hplace]
    rfl
  · intro place option raw hplace hsome
    have hlt := (List.getElem?_eq_some_iff.mp hplace).1
    obtain ⟨entry, hentry, hslot⟩ := hwritten.stored place raw hsome (by simpa using hlt)
    rw [placedEntry, hplace] at hentry
    exact ⟨entry, hentry, by rw [hleft place hlt, hslot]⟩
  · intro place operand raws hplace hraws
    obtain ⟨entry, hentry, hslot⟩ := hoperand place operand raws hplace hraws
    refine ⟨entry, hentry, ?_⟩
    rw [← hentries, ← hoptions, List.getElem?_append_right (Nat.le_add_right _ _),
      Nat.add_sub_cancel_left, hslot]

/-- What `parse_subcommand` hands on holds the inputs before the command. -/
theorem dispatch_written {arguments : List String} {dispatched : Dispatched}
    (h : dispatch parseF64 descriptor arguments = .ok dispatched) :
    ∃ parts, parts = commandWords descriptor.globalOptions 0 arguments ∧
      selectCommand descriptor parts = some (dispatched.commandIndex, dispatched.command) ∧
      dispatched.commandArguments =
        parts.drop (min dispatched.command.path.length parts.length) ∧
      Written (placedEntry parseF64 (descriptor.globalOptions ++ dispatched.command.options))
        (globalInputs descriptor.globalOptions 0 arguments)
        ((descriptor.globalOptions ++ dispatched.command.options).map initialOptionEntry)
        dispatched.optionEntries := by
  obtain ⟨⟨entries, parts⟩, hloop, h⟩ := bind_ok_iff.mp h
  refine ⟨parts, globalLoop_parts hloop, ?_⟩
  cases parts with
  | nil => cases h
  | cons first rest =>
    dsimp only at h
    split at h
    · cases h
    · next commandIndex command hselected =>
      cases h
      refine ⟨hselected, rfl, ?_⟩
      rw [List.map_append]
      refine (globalLoop_written hloop).append ?_ ?_
      · simpa using globalInputs_place
      · intro place raw entry hentry
        unfold placedEntry at hentry ⊢
        split at hentry
        · next option hplace =>
          rw [List.getElem?_append_left (List.getElem?_eq_some_iff.mp hplace).1, hplace]
          exact hentry
        · cases hentry

/-- A parse that returns has a surface, and its table holds the inputs of the surface. -/
theorem parseDescriptor_holds {arguments : List String} {table : RuntimeCliTable}
    (h : parseDescriptor parseF64 descriptor arguments = .ok table) :
    ∃ surface, surfaceOf descriptor arguments = some surface ∧ surface.Holds parseF64 table := by
  unfold parseDescriptor at h
  unfold surfaceOf
  split at h
  · next hmode =>
    rw [if_pos hmode]
    obtain ⟨dispatched, hdispatch, h⟩ := bind_ok_iff.mp h
    obtain ⟨⟨entries, names⟩, hsurface, h⟩ := bind_ok_iff.mp h
    obtain ⟨parts, rfl, hselected, harguments, hwritten⟩ := dispatch_written hdispatch
    cases h
    dsimp only
    rw [hselected]
    refine ⟨_, rfl, ?_⟩
    rw [harguments] at hsurface
    exact parseSurface_holds hwritten hsurface
  · next hmode =>
    rw [if_neg hmode]
    obtain ⟨⟨entries, names⟩, hsurface, h⟩ := bind_ok_iff.mp h
    cases h
    exact ⟨_, rfl, parseSurface_holds (.nil _ _) hsurface⟩

end Table

end FaberHosts.Llvm.Cli
