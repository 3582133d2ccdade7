import FaberHosts.Lib.Runs
import FaberHosts.Wasm.Literals

/-!
# Literal handles of a package

`run_package`: the siblings and then the entry are instantiated on one host, and
each one's literal table is interned before the next module is linked.  A module
that has code running may allocate at any time.  Every table is interned behind
those before it, while a module uses the indices of its own rows.
-/

namespace FaberHosts.Wasm
open FaberHosts.Lib

/-! ## The run of a package -/

/-- What the modules of a package have their host do with handles. -/
inductive PackageCall (μ : Type) where
  | initializeLiteralTable (table : Option (List RawRow))
  | allocText (text : String)
  | allocRegex (pattern : String) (flags : Option String)
  | allocMatch (found : μ)
  | allocCollection (set : Bool) (kind : UInt32) (values : List RuntimeValue)
  | allocMap (keyKind valueKind : UInt32) (entries : List (RuntimeValue × RuntimeValue))
  | allocOption (kind : UInt32) (payload : Option RuntimeValue)
  | allocTensor (tensor : TensorValue)

variable {κ μ ρ : Type}

/-- A call on the host, with the handle it returns if it returns one. -/
def PackageCall.perform (T : Toolchain) (compile : String → Except ρ κ) :
    PackageCall μ → Call (HostState κ μ) RunOutcome (Option UInt32)
  | .initializeLiteralTable table => do
    HostState.initializeLiteralTable compile table
    return none
  | .allocText text => allocated (fun host => host.allocText T text)
  | .allocRegex pattern flags => fun host =>
    (host.allocRegex T compile pattern flags).map (fun answered =>
      (.ok answered.1.toOption, answered.2))
  | .allocMatch found => allocated (fun host => host.allocMatch T found)
  | .allocCollection set kind values =>
    allocated (fun host => host.allocCollection T set kind values)
  | .allocMap keyKind valueKind entries =>
    allocated (fun host => host.allocMap T keyKind valueKind entries)
  | .allocOption kind payload => allocated (fun host => host.allocOption T kind payload)
  | .allocTensor tensor => allocated (fun host => host.allocTensor T tensor)
where
  allocated (alloc : HostState κ μ → MayPanic (UInt32 × HostState κ μ)) :
      Call (HostState κ μ) RunOutcome (Option UInt32) := fun host =>
    (alloc host).map (fun answered => (.ok (some answered.1), answered.2))

/-- The host of a package and the dynamic handles it returned. -/
structure Package (κ μ : Type) where
  host : HostState κ μ
  handles : List UInt32

namespace Package

def new : Package κ μ := ⟨.new, []⟩

/-- A panic and a failed initialization end the run. -/
def step (T : Toolchain) (compile : String → Except ρ κ) (package : Package κ μ)
    (call : PackageCall μ) : Option (Package κ μ) :=
  ((call.perform T compile).okEnd package.host).map (fun ended =>
    ⟨ended.2, package.handles ++ ended.1.toList⟩)

end Package

/-! ## What a run declares and allocates -/

/-- The table a call initializes. -/
def PackageCall.table : PackageCall μ → Option (List RawRow)
  | .initializeLiteralTable table => table
  | _ => none

/-- The call returns a handle: all but a regex outside the dialect do. -/
def PackageCall.allocates (compile : String → Except ρ κ) : PackageCall μ → Bool
  | .initializeLiteralTable _ => false
  | .allocRegex pattern _ => (compile pattern).isOk
  | _ => true

def tables (calls : List (PackageCall μ)) : List (List RawRow) := calls.filterMap PackageCall.table

def allocations (compile : String → Except ρ κ) (calls : List (PackageCall μ)) : Nat :=
  calls.countP (PackageCall.allocates compile)

/-- The literals of a table. -/
def declared (table : List RawRow) : List Literal := (literalsOf table).getD []

/-- The literals of the package, table by table. -/
def packageLiterals (calls : List (PackageCall μ)) : List Literal := (tables calls).flatMap declared

namespace Package

variable {T : Toolchain} {compile : String → Except ρ κ}

/-! ## One call -/

/-- The interned literals stay as they are. -/
structure SameRows (host t : HostState κ μ) : Prop where
  rows : t.rows = host.rows
  texts : t.textArena = host.textArena
  octeti : t.octetiArena = host.octetiArena
  regexes : t.regexArena = host.regexArena

theorem SameRows.refl (host : HostState κ μ) : SameRows host host := ⟨rfl, rfl, rfl, rfl⟩

theorem SameRows.trans {host t u : HostState κ μ} (h : SameRows host t) (h' : SameRows t u) :
    SameRows host u :=
  ⟨h'.rows.trans h.rows, h'.texts.trans h.texts, h'.octeti.trans h.octeti,
    h'.regexes.trans h.regexes⟩

theorem SameRows.holds {host t : HostState κ μ} (h : SameRows host t) {literals : List Literal}
    (hholds : host.Holds literals) : t.Holds literals := by
  have hliteral : t.literal = host.literal := by
    funext row
    simp only [HostState.literal, h.texts, h.octeti, h.regexes]
  rw [HostState.Holds, hliteral, h.rows]
  exact hholds

theorem allocDynamic_some {host t : HostState κ μ} {value : DynamicValue κ μ} {handle : UInt32}
    (h : host.allocDynamic T value = some (handle, t)) :
    handle = host.nextDynamic ∧ t.nextDynamic = host.nextDynamic + 1 ∧ SameRows host t := by
  obtain ⟨next, hnext, heq⟩ := Option.map_eq_some_iff.mp h
  cases heq
  have hplus : next = host.nextDynamic + 1 := by
    unfold HostState.nextHandle at hnext
    split at hnext
    · cases hnext
    · exact (Option.some.inj hnext).symm
  exact ⟨rfl, hplus, rfl, rfl, rfl, rfl⟩

theorem allocated_some {call : PackageCall μ} {host t : HostState κ μ} {handle : Option UInt32}
    (start : HostState κ μ) {value : DynamicValue κ μ}
    (hcall : call.perform T compile host = (start.allocDynamic T value).map (fun answered =>
      (.ok (some answered.1), answered.2)))
    (hstart : SameRows host start) (hnext : start.nextDynamic = host.nextDynamic)
    (h : call.perform T compile host = some (.ok handle, t)) :
    handle = some host.nextDynamic ∧ t.nextDynamic = host.nextDynamic + 1 ∧ SameRows host t := by
  obtain ⟨answered, hanswered, heq⟩ := Option.map_eq_some_iff.mp (hcall.symm.trans h)
  cases heq
  obtain ⟨hhandle, hplus, hsame⟩ := allocDynamic_some hanswered
  exact ⟨by rw [hhandle, hnext], by rw [hplus, hnext], hstart.trans hsame⟩

/-- A call interns a table, allocates a handle or leaves the host alone. -/
theorem perform_cases {call : PackageCall μ} {host t : HostState κ μ} {handle : Option UInt32}
    (h : call.perform T compile host = some (.ok handle, t)) :
    (∃ rows, call.table = some rows ∧ call.allocates compile = false ∧ handle = none ∧
      HostState.internLiteralTable compile rows host = some (.ok (), t)) ∨
    (call.table = none ∧ call.allocates compile = true ∧ handle = some host.nextDynamic ∧
      t.nextDynamic = host.nextDynamic + 1 ∧ SameRows host t) ∨
    (call.table = none ∧ call.allocates compile = false ∧ handle = none ∧ t = host) := by
  cases call with
  | initializeLiteralTable table =>
    cases table with
    | none =>
      cases h
      exact .inr (.inr ⟨rfl, rfl, rfl, rfl⟩)
    | some rows =>
      change (HostState.internLiteralTable compile rows >>= fun _ => pure none) host = _ at h
      obtain ⟨_, u, hintern, hrest⟩ := Call.bind_ok h
      cases hrest
      exact .inl ⟨rows, rfl, rfl, rfl, hintern⟩
  | allocRegex pattern flags =>
    obtain ⟨answered, hanswered, heq⟩ := Option.map_eq_some_iff.mp h
    cases heq
    unfold HostState.allocRegex at hanswered
    cases hcompile : compile pattern with
    | error e =>
      rw [hcompile] at hanswered
      cases hanswered
      exact .inr (.inr ⟨rfl,
        by simp [PackageCall.allocates, hcompile, Except.isOk, Except.toBool], rfl, rfl⟩)
    | ok compiled =>
      rw [hcompile] at hanswered
      obtain ⟨allocated, hallocated, heq⟩ := Option.map_eq_some_iff.mp hanswered
      cases heq
      obtain ⟨hhandle, hplus, hsame⟩ := allocDynamic_some hallocated
      refine .inr (.inl ⟨rfl, ?_, congrArg some hhandle, hplus, hsame⟩)
      simp [PackageCall.allocates, hcompile, Except.isOk, Except.toBool]
  | allocText text => exact .inr (.inl ⟨rfl, rfl, allocated_some host rfl (.refl host) rfl h⟩)
  | allocMatch found => exact .inr (.inl ⟨rfl, rfl, allocated_some host rfl (.refl host) rfl h⟩)
  | allocCollection set kind values =>
    exact .inr (.inl ⟨rfl, rfl,
      allocated_some { host with collections := host.collections ++ [⟨set, kind, values⟩] } rfl
        ⟨rfl, rfl, rfl, rfl⟩ rfl h⟩)
  | allocMap keyKind valueKind entries =>
    exact .inr (.inl ⟨rfl, rfl,
      allocated_some { host with maps := host.maps ++ [⟨keyKind, valueKind, entries⟩] } rfl
        ⟨rfl, rfl, rfl, rfl⟩ rfl h⟩)
  | allocOption kind payload =>
    exact .inr (.inl ⟨rfl, rfl,
      allocated_some { host with options := host.options ++ [⟨kind, payload⟩] } rfl
        ⟨rfl, rfl, rfl, rfl⟩ rfl h⟩)
  | allocTensor tensor =>
    exact .inr (.inl ⟨rfl, rfl,
      allocated_some { host with tensors := host.tensors ++ [tensor] } rfl
        ⟨rfl, rfl, rfl, rfl⟩ rfl h⟩)

/-! ## What holds along a run -/

/-- The host holds the literals of every table so far, and each allocation returned
    a handle. -/
structure Interning (compile : String → Except ρ κ) (calls : List (PackageCall μ))
    (package : Package κ μ) : Prop where
  holds : package.host.Holds (packageLiterals calls)
  rows : package.host.rows.length = (tables calls).flatten.length
  fits : package.host.rows.length < 2 ^ 31
  count : package.handles.length = allocations compile calls
  literals : ∀ table ∈ tables calls, literalsOf table = some (declared table)

theorem tables_concat (calls : List (PackageCall μ)) (call : PackageCall μ) :
    tables (calls ++ [call]) = tables calls ++ call.table.toList := by
  rw [tables, List.filterMap_append, tables]
  cases htable : call.table with
  | none => simp [htable]
  | some table => simp [htable]

theorem allocations_concat (calls : List (PackageCall μ)) (call : PackageCall μ) :
    allocations compile (calls ++ [call]) =
      allocations compile calls + (call.allocates compile).toNat := by
  rw [allocations, List.countP_append, allocations]
  cases hallocates : call.allocates compile with
  | false => simp [hallocates]
  | true => simp [hallocates]

theorem interning_new : Interning compile ([] : List (PackageCall μ)) new := by
  refine ⟨rfl, rfl, by simp [new, HostState.new], rfl, ?_⟩
  intro table htable
  cases htable

theorem step_some {package later : Package κ μ} {call : PackageCall μ}
    (h : package.step T compile call = some later) :
    ∃ handle, call.perform T compile package.host = some (.ok handle, later.host) ∧
      later.handles = package.handles ++ handle.toList := by
  obtain ⟨ended, hended, heq⟩ := Option.map_eq_some_iff.mp h
  cases heq
  exact ⟨ended.1, Call.okEnd_eq_some_iff.mp hended, rfl⟩

theorem Interning.step {calls : List (PackageCall μ)} {package later : Package κ μ}
    {call : PackageCall μ} (hinv : Interning compile calls package)
    (h : package.step T compile call = some later) :
    Interning compile (calls ++ [call]) later := by
  obtain ⟨handle, hperform, hhandles⟩ := step_some h
  have hkept : call.table = none → SameRows package.host later.host →
      later.handles.length = allocations compile (calls ++ [call]) →
      Interning compile (calls ++ [call]) later := by
    intro htable hsame hcount
    have htables : tables (calls ++ [call]) = tables calls := by
      rw [tables_concat, htable]
      simp
    refine ⟨?_, ?_, ?_, hcount, ?_⟩
    · rw [packageLiterals, htables]
      exact hsame.holds hinv.holds
    · rw [hsame.rows, htables]
      exact hinv.rows
    · rw [hsame.rows]
      exact hinv.fits
    · rw [htables]
      exact hinv.literals
  rcases perform_cases hperform with ⟨rows, htable, hquiet, rfl, hintern⟩ |
    ⟨htable, hallocates, rfl, -, hsame⟩ | ⟨htable, hquiet, rfl, heq⟩
  · obtain ⟨more, hmore, hholds, hfits, -, -⟩ := Call.wp_of_ok
      (HostState.internLiteralTable_spec compile rows hinv.holds) hintern
    have hdeclared : declared rows = more := by simp [declared, hmore]
    have hlength : later.host.rows.length = (packageLiterals calls ++ more).length := by
      simpa using congrArg List.length hholds
    have hbefore : package.host.rows.length = (packageLiterals calls).length := by
      simpa using congrArg List.length hinv.holds
    have hrows := HostState.literalsOf_length rows hmore
    have hbefore' := hinv.rows
    refine ⟨?_, ?_, hfits, ?_, ?_⟩
    · simpa [packageLiterals, tables_concat, htable, hdeclared] using hholds
    · simp only [tables_concat, htable, List.length_append, List.flatten_append] at hlength ⊢
      simp only [Option.toList_some, List.flatten_cons, List.flatten_nil, List.append_nil]
      omega
    · rw [hhandles, allocations_concat, hquiet]
      simpa using hinv.count
    · intro table hmem
      rw [tables_concat, htable] at hmem
      rcases List.mem_append.mp hmem with hold | hnew
      · exact hinv.literals table hold
      · rw [List.mem_singleton.mp hnew, hdeclared]
        exact hmore
  · apply hkept htable hsame
    rw [hhandles, allocations_concat, hallocates]
    simp [hinv.count]
  · apply hkept htable (heq ▸ .refl _)
    rw [hhandles, allocations_concat, hquiet]
    simp [hinv.count]

theorem interning_run {calls : List (PackageCall μ)} :
    ∀ {package : Package κ μ}, runSteps (step T compile) new calls = some package →
      Interning compile calls package := by
  induction calls using List.reverseRecOn with
  | nil =>
    intro package hrun
    cases hrun
    exact interning_new
  | append_singleton calls call ih =>
    intro later hrun
    obtain ⟨package, hbefore, hstep⟩ := runSteps_concat hrun
    exact (ih hbefore).step hstep

/-! ## Where the dynamic handles lie -/

/-- A table was initialized after an allocation. -/
def Restarted (compile : String → Except ρ κ) (calls : List (PackageCall μ)) : Prop :=
  ∃ before call after, calls = before ++ call :: after ∧ call.table.isSome = true ∧
    allocations compile before ≠ 0

/-- No table is initialized after an allocation, but for an empty one that no
    allocation follows. -/
def TablesFirst (compile : String → Except ρ κ) (calls : List (PackageCall μ)) : Prop :=
  ∀ before call after table, calls = before ++ call :: after → call.table = some table →
    allocations compile before = 0 ∨ table = [] ∧ allocations compile after = 0

theorem concat_eq_split {α : Type} {l before after : List α} {a b : α}
    (h : l ++ [a] = before ++ b :: after) :
    (before = l ∧ b = a ∧ after = []) ∨ ∃ rest, after = rest ++ [a] ∧ l = before ++ b :: rest := by
  induction after using List.reverseRecOn with
  | nil =>
    obtain ⟨hl, ha⟩ := List.append_inj' h rfl
    cases ha
    exact .inl ⟨hl.symm, rfl, rfl⟩
  | append_singleton rest c _ =>
    have h' : l ++ [a] = (before ++ b :: rest) ++ [c] := by simpa using h
    obtain ⟨hl, ha⟩ := List.append_inj' h' rfl
    cases ha
    exact .inr ⟨rest, rfl, hl⟩

section Concat
variable {calls : List (PackageCall μ)} {call : PackageCall μ}

theorem restarted_concat : Restarted compile (calls ++ [call]) ↔ Restarted compile calls ∨
    call.table.isSome = true ∧ allocations compile calls ≠ 0 := by
  constructor
  · intro h
    obtain ⟨before, restart, after, hsplit, htable, hbefore⟩ := h
    rcases concat_eq_split hsplit with ⟨rfl, rfl, rfl⟩ | ⟨rest, rfl, hcalls⟩
    · exact .inr ⟨htable, hbefore⟩
    · exact .inl ⟨before, restart, rest, hcalls, htable, hbefore⟩
  · intro h
    rcases h with ⟨before, restart, after, hsplit, htable, hbefore⟩ | ⟨htable, hcalls⟩
    · exact ⟨before, restart, after ++ [call], by simp [hsplit], htable, hbefore⟩
    · exact ⟨calls, call, [], rfl, htable, hcalls⟩

theorem tablesFirst_of_concat (h : TablesFirst compile (calls ++ [call])) :
    TablesFirst compile calls := by
  intro before restart after table hsplit htable
  rcases h before restart (after ++ [call]) table (by simp [hsplit]) htable with hnone | hempty
  · exact .inl hnone
  · rw [allocations_concat] at hempty
    exact .inr ⟨hempty.1, by omega⟩

theorem tablesFirst_concat_table {rows : List RawRow} (htable : call.table = some rows)
    (hquiet : call.allocates compile = false) : TablesFirst compile (calls ++ [call]) ↔
      TablesFirst compile calls ∧ (allocations compile calls = 0 ∨ rows = []) := by
  constructor
  · intro h
    refine ⟨tablesFirst_of_concat h, ?_⟩
    rcases h calls call [] rows rfl htable with hnone | hempty
    · exact .inl hnone
    · exact .inr hempty.1
  · intro h before restart after table hsplit hrestart
    rcases concat_eq_split hsplit with ⟨rfl, rfl, rfl⟩ | ⟨rest, rfl, hcalls⟩
    · rw [htable] at hrestart
      cases hrestart
      rcases h.2 with hnone | hempty
      · exact .inl hnone
      · exact .inr ⟨hempty, rfl⟩
    · rcases h.1 before restart rest table hcalls hrestart with hnone | hempty
      · exact .inl hnone
      · rw [allocations_concat, hquiet]
        exact .inr hempty

theorem tablesFirst_concat_alloc (htable : call.table = none)
    (hallocates : call.allocates compile = true) : TablesFirst compile (calls ++ [call]) ↔
      TablesFirst compile calls ∧ ¬ Restarted compile calls := by
  constructor
  · intro h
    refine ⟨tablesFirst_of_concat h, ?_⟩
    intro hrestarted
    obtain ⟨before, restart, after, hsplit, hrestart, hbefore⟩ := hrestarted
    obtain ⟨table, hrestart⟩ := Option.isSome_iff_exists.mp hrestart
    rcases h before restart (after ++ [call]) table (by simp [hsplit]) hrestart with hnone | hempty
    · exact hbefore hnone
    · rw [allocations_concat, hallocates] at hempty
      simp at hempty
  · intro h before restart after table hsplit hrestart
    rcases concat_eq_split hsplit with ⟨rfl, rfl, rfl⟩ | ⟨rest, rfl, hcalls⟩
    · rw [htable] at hrestart
      cases hrestart
    · by_contra hbefore
      apply h.2
      exact ⟨before, restart, rest, hcalls, by simp [hrestart], fun hnone => hbefore (.inl hnone)⟩

theorem tablesFirst_concat_quiet (htable : call.table = none)
    (hquiet : call.allocates compile = false) : TablesFirst compile (calls ++ [call]) ↔
      TablesFirst compile calls := by
  refine ⟨tablesFirst_of_concat, ?_⟩
  intro h before restart after table hsplit hrestart
  rcases concat_eq_split hsplit with ⟨rfl, rfl, rfl⟩ | ⟨rest, rfl, hcalls⟩
  · rw [htable] at hrestart
    cases hrestart
  · rcases h before restart rest table hcalls hrestart with hnone | hempty
    · exact .inl hnone
    · rw [allocations_concat, hquiet]
      exact .inr hempty

end Concat

/-- The dynamic handles differ from each other and from every row index. -/
def Apart (package : Package κ μ) : Prop :=
  package.handles.Nodup ∧ ∀ handle ∈ package.handles, package.host.rows.length ≤ handle.toNat

/-- The handles from a row count on. -/
def handlesFrom (rows count : Nat) : List UInt32 :=
  (List.range count).map (fun place => UInt32.ofNat (rows + place))

theorem handlesFrom_succ (rows count : Nat) :
    handlesFrom rows (count + 1) = handlesFrom rows count ++ [UInt32.ofNat (rows + count)] := by
  simp [handlesFrom, List.range_succ]

theorem mem_handlesFrom {rows count : Nat} (hfits : count = 0 ∨ rows + count ≤ 2 ^ 32)
    {handle : UInt32} : handle ∈ handlesFrom rows count ↔
      rows ≤ handle.toNat ∧ handle.toNat < rows + count := by
  have hsize : UInt32.size = 2 ^ 32 := rfl
  simp only [handlesFrom, List.mem_map, List.mem_range]
  constructor
  · intro h
    obtain ⟨place, hplace, rfl⟩ := h
    rw [UInt32.toNat_ofNat_of_lt' (by omega)]
    omega
  · intro h
    refine ⟨handle.toNat - rows, by omega, ?_⟩
    have hback : rows + (handle.toNat - rows) = handle.toNat := by omega
    rw [hback, UInt32.ofNat_toNat]

/-- The dynamic handles fit behind the rows. -/
def HandlesFit (compile : String → Except ρ κ) (calls : List (PackageCall μ)) : Prop :=
  allocations compile calls = 0 ∨
    (tables calls).flatten.length + allocations compile calls ≤ 2 ^ 32

/-- Handles that are apart are those right behind the rows, and the next one follows
    them unless a table restarted it. -/
structure Block (compile : String → Except ρ κ) (calls : List (PackageCall μ))
    (package : Package κ μ) : Prop where
  first : TablesFirst compile calls
  fits : HandlesFit compile calls
  handles : package.handles =
    handlesFrom package.host.rows.length (allocations compile calls)
  next : ¬ Restarted compile calls → package.host.nextDynamic =
    UInt32.ofNat (package.host.rows.length + allocations compile calls)
  restarted : Restarted compile calls →
    package.host.nextDynamic = UInt32.ofNat package.host.rows.length ∧ allocations compile calls ≠ 0

theorem handlesFrom_nodup {rows count : Nat} (hfits : count = 0 ∨ rows + count ≤ 2 ^ 32) :
    (handlesFrom rows count).Nodup := by
  have hsize : UInt32.size = 2 ^ 32 := rfl
  apply List.Nodup.map_on _ List.nodup_range
  intro place hplace place' hplace' heq
  rw [List.mem_range] at hplace hplace'
  have hnat := congrArg UInt32.toNat heq
  rw [UInt32.toNat_ofNat_of_lt' (by omega), UInt32.toNat_ofNat_of_lt' (by omega)] at hnat
  omega

theorem handlesFit_of_concat {calls : List (PackageCall μ)} {call : PackageCall μ}
    (h : HandlesFit compile (calls ++ [call])) : HandlesFit compile calls := by
  unfold HandlesFit at h ⊢
  rw [allocations_concat, tables_concat, List.flatten_append, List.length_append] at h
  omega

section Block
variable {calls : List (PackageCall μ)} {call : PackageCall μ} {package later : Package κ μ}

theorem Block.count_fits (h : Block compile calls package)
    (hinv : Interning compile calls package) : allocations compile calls = 0 ∨
      package.host.rows.length + allocations compile calls ≤ 2 ^ 32 := by
  rw [hinv.rows]
  exact h.fits

theorem Block.apart (h : Block compile calls package) (hinv : Interning compile calls package) :
    Apart package := by
  have hfits := h.count_fits hinv
  constructor
  · rw [h.handles]
    exact handlesFrom_nodup hfits
  · intro handle hmem
    rw [h.handles] at hmem
    exact ((mem_handlesFrom hfits).mp hmem).1

theorem apart_of_step (hinv : Interning compile calls package)
    (h : package.step T compile call = some later) (hapart : Apart later) : Apart package := by
  have hlater := hinv.step h
  obtain ⟨handle, -, hhandles⟩ := step_some h
  have hrows : package.host.rows.length ≤ later.host.rows.length := by
    rw [hinv.rows, hlater.rows, tables_concat, List.flatten_append, List.length_append]
    omega
  rw [Apart, hhandles] at hapart
  refine ⟨(List.nodup_append.mp hapart.1).1, ?_⟩
  intro handle' hmem
  exact Nat.le_trans hrows (hapart.2 handle' (List.mem_append_left _ hmem))

theorem Block.step (hblock : Block compile calls package) (hinv : Interning compile calls package)
    (h : package.step T compile call = some later)
    (hfirst : TablesFirst compile (calls ++ [call]))
    (hfits : HandlesFit compile (calls ++ [call])) : Block compile (calls ++ [call]) later := by
  have hlater := hinv.step h
  obtain ⟨handle, hperform, hhandles⟩ := step_some h
  rcases perform_cases hperform with ⟨rows, htable, hquiet, rfl, hintern⟩ |
    ⟨htable, hallocates, rfl, hnext, hsame⟩ | ⟨htable, hquiet, rfl, heq⟩
  · obtain ⟨-, hroom⟩ := (tablesFirst_concat_table htable hquiet).mp hfirst
    obtain ⟨_, -, -, -, hnext, -⟩ := Call.wp_of_ok
      (HostState.internLiteralTable_spec compile rows hinv.holds) hintern
    have hallocations : allocations compile (calls ++ [call]) = allocations compile calls := by
      simp [allocations_concat, hquiet]
    have hplace : later.host.nextDynamic = UInt32.ofNat later.host.rows.length := by
      rw [← hnext, UInt32.ofNat_toNat]
    refine ⟨hfirst, hfits, ?_, ?_, ?_⟩
    · rw [hhandles, hallocations, Option.toList_none, List.append_nil, hblock.handles]
      rcases hroom with hnone | rfl
      · rw [hnone]
        rfl
      · rw [hlater.rows, hinv.rows, tables_concat, htable]
        simp
    · intro hfresh
      rw [restarted_concat, htable, not_or] at hfresh
      have hnone : allocations compile calls = 0 := by simpa using hfresh.2
      rw [hplace, hallocations, hnone, Nat.add_zero]
    · intro hrestarted
      rw [hallocations]
      refine ⟨hplace, ?_⟩
      rcases restarted_concat.mp hrestarted with hbefore | hnow
      · exact (hblock.restarted hbefore).2
      · exact hnow.2
  · obtain ⟨-, hfresh⟩ := (tablesFirst_concat_alloc htable hallocates).mp hfirst
    have hallocations : allocations compile (calls ++ [call]) = allocations compile calls + 1 := by
      simp [allocations_concat, hallocates]
    have hplace := hblock.next hfresh
    have hstill : ¬ Restarted compile (calls ++ [call]) := by
      rw [restarted_concat, htable]
      simpa using hfresh
    refine ⟨hfirst, hfits, ?_, fun _ => ?_, fun hrestarted => absurd hrestarted hstill⟩
    · rw [hhandles, hallocations, handlesFrom_succ, hblock.handles, hsame.rows, hplace]
      rfl
    · rw [hnext, hallocations, hsame.rows, hplace, ← Nat.add_assoc]
      exact (UInt32.ofNat_add _ 1).symm
  · have hallocations : allocations compile (calls ++ [call]) = allocations compile calls := by
      simp [allocations_concat, hquiet]
    have hrestarted : Restarted compile (calls ++ [call]) ↔ Restarted compile calls := by
      rw [restarted_concat, htable]
      simp
    refine ⟨hfirst, hfits, ?_, ?_, ?_⟩
    · rw [hhandles, hallocations, heq]
      simpa using hblock.handles
    · rw [hrestarted, hallocations, heq]
      exact hblock.next
    · rw [hrestarted, hallocations, heq]
      exact hblock.restarted

theorem Block.conditions_of_apart (hblock : Block compile calls package)
    (hinv : Interning compile calls package) (h : package.step T compile call = some later)
    (hapart : Apart later) :
    TablesFirst compile (calls ++ [call]) ∧ HandlesFit compile (calls ++ [call]) := by
  have hlater := hinv.step h
  have hcount := hblock.count_fits hinv
  obtain ⟨handle, hperform, hhandles⟩ := step_some h
  rcases perform_cases hperform with ⟨rows, htable, hquiet, rfl, hintern⟩ |
    ⟨htable, hallocates, rfl, hnext, hsame⟩ | ⟨htable, hquiet, rfl, heq⟩
  · have hroom : allocations compile calls = 0 ∨ rows = [] := by
      by_contra hneither
      rw [not_or] at hneither
      have hpositive := List.length_pos_iff.mpr hneither.2
      have hgrown : later.host.rows.length = package.host.rows.length + rows.length := by
        rw [hlater.rows, hinv.rows, tables_concat, htable]
        simp
      have hfits := hinv.fits
      have hsize : UInt32.size = 2 ^ 32 := rfl
      have hplace : (UInt32.ofNat package.host.rows.length).toNat = package.host.rows.length :=
        UInt32.toNat_ofNat_of_lt' (by omega)
      have hheld : UInt32.ofNat package.host.rows.length ∈ later.handles := by
        rw [hhandles, hblock.handles]
        apply List.mem_append_left
        rw [mem_handlesFrom hcount]
        omega
      have hbeyond := hapart.2 _ hheld
      omega
    refine ⟨(tablesFirst_concat_table htable hquiet).mpr ⟨hblock.first, hroom⟩, ?_⟩
    unfold HandlesFit
    rw [allocations_concat, hquiet, ← hlater.rows]
    rcases hroom with hnone | rfl
    · exact .inl (by simp [hnone])
    · rw [hlater.rows, tables_concat, htable]
      simpa [HandlesFit] using hblock.fits
  · have hheld : package.host.nextDynamic ∉ package.handles := by
      intro hmem
      rw [Apart, hhandles] at hapart
      exact (List.nodup_append.mp hapart.1).2.2 _ hmem _ (by simp) rfl
    have hbeyond : package.host.rows.length ≤ package.host.nextDynamic.toNat := by
      rw [← hsame.rows]
      exact hapart.2 _ (by simp [hhandles])
    rw [hblock.handles, mem_handlesFrom hcount] at hheld
    have hfits := hinv.fits
    have hsize : UInt32.size = 2 ^ 32 := rfl
    have hfresh : ¬ Restarted compile calls := by
      intro hrestarted
      obtain ⟨hnext, hsome⟩ := hblock.restarted hrestarted
      rw [hnext, UInt32.toNat_ofNat_of_lt' (by omega)] at hheld
      omega
    refine ⟨(tablesFirst_concat_alloc htable hallocates).mpr ⟨hblock.first, hfresh⟩, ?_⟩
    unfold HandlesFit
    rw [allocations_concat, hallocates, ← hlater.rows, hsame.rows]
    right
    by_contra hover
    -- the handle after the last `i32` is 0
    have hnext := hblock.next hfresh
    have hsum : package.host.rows.length + allocations compile calls = 2 ^ 32 := by
      simp at hover
      omega
    rw [hsum] at hnext
    have hzero : package.host.nextDynamic.toNat = 0 := by rw [hnext]; rfl
    omega
  · refine ⟨(tablesFirst_concat_quiet htable hquiet).mpr hblock.first, ?_⟩
    unfold HandlesFit
    rw [allocations_concat, hquiet, tables_concat, htable]
    simpa [HandlesFit] using hblock.fits

end Block

theorem block_run {calls : List (PackageCall μ)} : ∀ {package : Package κ μ},
    runSteps (step T compile) new calls = some package →
      (Apart package ∨ TablesFirst compile calls ∧ HandlesFit compile calls) →
        Block compile calls package := by
  induction calls using List.reverseRecOn with
  | nil =>
    intro package hrun _
    cases hrun
    refine ⟨?_, .inl rfl, rfl, fun _ => rfl, ?_⟩
    · intro before restart after table hsplit
      simp at hsplit
    · intro hrestarted
      obtain ⟨before, restart, after, hsplit, -⟩ := hrestarted
      simp at hsplit
  | append_singleton calls call ih =>
    intro later hrun hor
    obtain ⟨package, hbefore, hstep⟩ := runSteps_concat hrun
    have hinv := interning_run hbefore
    rcases hor with hapart | ⟨hfirst, hfits⟩
    · have hblock := ih hbefore (.inl (apart_of_step hinv hstep hapart))
      obtain ⟨hfirst, hfits⟩ := hblock.conditions_of_apart hinv hstep hapart
      exact hblock.step hinv hstep hfirst hfits
    · have hblock := ih hbefore
        (.inr ⟨tablesFirst_of_concat hfirst, handlesFit_of_concat hfits⟩)
      exact hblock.step hinv hstep hfirst hfits

theorem apart_iff {calls : List (PackageCall μ)} {package : Package κ μ}
    (hrun : runSteps (step T compile) new calls = some package) :
    Apart package ↔ TablesFirst compile calls ∧ HandlesFit compile calls := by
  constructor
  · intro h
    have hblock := block_run hrun (.inl h)
    exact ⟨hblock.first, hblock.fits⟩
  · intro h
    exact (block_run hrun (.inr h)).apart (interning_run hrun)

/-! ## The handles of a package -/

/-- Each row index of a module's table resolves to the literal of that row. -/
def OwnLiterals (calls : List (PackageCall μ)) (package : Package κ μ) : Prop :=
  ∀ table ∈ tables calls, ∀ index value, (declared table)[index]? = some value →
    package.host.Resolves (UInt32.ofNat index) value

theorem ownLiterals_iff {calls : List (PackageCall μ)} {package : Package κ μ}
    (hinv : Interning compile calls package) : OwnLiterals calls package ↔
      ∀ table ∈ tables calls, declared table <+: packageLiterals calls := by
  apply forall₂_congr
  intro table hmem
  have hwithin : (declared table).length ≤ (packageLiterals calls).length :=
    (List.sublist_flatten_of_mem (List.mem_map_of_mem hmem)).length_le
  rw [List.prefix_iff_getElem?]
  constructor
  · intro h index hindex
    have hresolves := h index _ (List.getElem?_eq_getElem hindex)
    exact (hinv.holds.resolves_iff hinv.fits (by omega)).mp hresolves
  · intro h index value hvalue
    obtain ⟨hindex, rfl⟩ := List.getElem?_eq_some_iff.mp hvalue
    exact (hinv.holds.resolves_iff hinv.fits (by omega)).mpr (h index hindex)

/-- Literal handles resolve to the module that declared them, and dynamic handles stay
    apart from them and from each other, exactly if every table repeats the rows the
    package starts with, the tables come before the allocations and the handles do
    not wrap around. -/
theorem handles_resolve_iff (T : Toolchain) (compile : String → Except ρ κ)
    (calls : List (PackageCall μ)) (package : Package κ μ)
    (hrun : runSteps (step T compile) new calls = some package) :
    (OwnLiterals calls package ∧ Apart package) ↔
      (∀ table ∈ tables calls, declared table <+: packageLiterals calls) ∧
        TablesFirst compile calls ∧ HandlesFit compile calls := by
  rw [ownLiterals_iff (interning_run hrun), apart_iff hrun]

/-- A module with one octeti row. -/
def octetiModule (byte : UInt8) : PackageCall Unit :=
  .initializeLiteralTable (some [⟨rowKindOcteti, [byte]⟩])

/-- Any pattern compiles, to itself. -/
def anyRegex (pattern : String) : Except Unit String := .ok pattern

theorem single_module_resolves : ∃ package : Package String Unit,
    runSteps (step .release anyRegex) new [octetiModule 7, .allocText "dyn"] = some package ∧
      OwnLiterals [octetiModule 7, .allocText "dyn"] package ∧ Apart package := by
  refine ⟨_, rfl, ?_⟩
  refine (handles_resolve_iff .release anyRegex _ _ rfl).mpr ⟨?_, ?_, ?_⟩
  · intro table htable
    rw [List.mem_singleton.mp (by exact htable : table ∈ [[⟨rowKindOcteti, [7]⟩]])]
    exact List.prefix_rfl
  · intro before call after table hsplit htable
    cases before with
    | nil => exact .inl rfl
    | cons first rest =>
      have hcall : call ∈ [PackageCall.allocText "dyn"] := by
        rw [(List.cons.inj hsplit).2]
        simp
      rw [List.mem_singleton.mp hcall] at htable
      cases htable
  · exact .inr (by decide)

/-- The entry of a package of two modules gets the row of its sibling. -/
theorem entry_resolves_sibling_row : ∃ package : Package String Unit,
    runSteps (step .release anyRegex) new [octetiModule 1, octetiModule 2] = some package ∧
      package.host.resolveOcteti 0 = some [1] ∧
        ¬ OwnLiterals [octetiModule 1, octetiModule 2] package := by
  refine ⟨_, rfl, rfl, ?_⟩
  intro h
  have hentry := h [⟨rowKindOcteti, [2]⟩] (by decide) 0 (.octeti [2]) (by decide)
  have hrow : some [(1 : UInt8)] = some [2] := hentry
  exact absurd hrow (by decide)

end Package

end FaberHosts.Wasm
