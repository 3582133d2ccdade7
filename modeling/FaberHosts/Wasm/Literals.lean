import FaberHosts.Wasm.HostState

/-!
# What interning a literal table leaves

A table denotes a list of literals, one for each row: the flags row of a regex
stands for the regex of the row before it.  Interning appends these literals to
those the host resolves by row index.
-/

namespace FaberHosts.Wasm
open FaberHosts.Lib

/-! ## The literals of a table -/

inductive Literal where
  | text (text : String)
  | octeti (bytes : List UInt8)
  | regex (pattern : String) (flags : Option String)
  deriving DecidableEq, Repr

def utf8 (payload : List UInt8) : Option String := String.fromUTF8? ⟨payload.toArray⟩

/-- The literals of a table that initializes. -/
def literalsOf : List RawRow → Option (List Literal)
  | [] => some []
  | raw :: rest =>
    if raw.kind = rowKindText then do
      let text ← utf8 raw.payload
      let literals ← literalsOf rest
      return .text text :: literals
    else if raw.kind = rowKindOcteti then do
      let literals ← literalsOf rest
      return .octeti raw.payload :: literals
    else if raw.kind = rowKindRegexPattern then do
      let pattern ← utf8 raw.payload
      match rest with
      | flagsRow :: later =>
        if flagsRow.kind = rowKindRegexFlags then do
          let flags ← utf8 flagsRow.payload
          let literals ← literalsOf later
          return .regex pattern (some flags) :: .regex pattern (some flags) :: literals
        else do
          let literals ← literalsOf (flagsRow :: later)
          return .regex pattern none :: literals
      | [] => return [.regex pattern none]
    else none

namespace HostState

variable {κ μ ρ : Type}

/-! ## The literals of a host -/

/-- The literal an interned row stands for. -/
def literal (host : HostState κ μ) (row : InternedRow) : Option Literal :=
  match row.kind with
  | .text => host.textArena[row.arena.toNat]?.map .text
  | .octeti => host.octetiArena[row.arena.toNat]?.map .octeti
  | .regex => host.regexArena[row.arena.toNat]?.map (fun regex => .regex regex.pattern regex.flags)

/-- The rows stand for these literals, in order. -/
def Holds (host : HostState κ μ) (literals : List Literal) : Prop :=
  host.rows.map host.literal = literals.map some

/-- The arenas only grew, and what is not interned is as it was. -/
structure Grown (host later : HostState κ μ) : Prop where
  texts : host.textArena <+: later.textArena
  octeti : host.octetiArena <+: later.octetiArena
  regexes : host.regexArena <+: later.regexArena
  nextDynamic : later.nextDynamic = host.nextDynamic
  dynamic : later.dynamic = host.dynamic

theorem Grown.refl (host : HostState κ μ) : Grown host host :=
  ⟨List.prefix_rfl, List.prefix_rfl, List.prefix_rfl, rfl, rfl⟩

theorem Grown.trans {host later last : HostState κ μ} (h : Grown host later)
    (h' : Grown later last) : Grown host last :=
  ⟨h.texts.trans h'.texts, h.octeti.trans h'.octeti, h.regexes.trans h'.regexes,
    h'.nextDynamic.trans h.nextDynamic, h'.dynamic.trans h.dynamic⟩

theorem getElem?_of_prefix {α : Type} {l l' : List α} (h : l <+: l') {i : Nat} {a : α}
    (ha : l[i]? = some a) : l'[i]? = some a := by
  obtain ⟨more, rfl⟩ := h
  rw [List.getElem?_append_left (List.getElem?_eq_some_iff.mp ha).1]
  exact ha

theorem Grown.literal {host later : HostState κ μ} (h : Grown host later) {row : InternedRow}
    {value : Literal} (hrow : host.literal row = some value) : later.literal row = some value := by
  unfold HostState.literal at hrow ⊢
  cases hkind : row.kind with
  | text =>
    simp only [hkind, Option.map_eq_some_iff] at hrow ⊢
    obtain ⟨text, htext, heq⟩ := hrow
    exact ⟨text, getElem?_of_prefix h.texts htext, heq⟩
  | octeti =>
    simp only [hkind, Option.map_eq_some_iff] at hrow ⊢
    obtain ⟨bytes, hbytes, heq⟩ := hrow
    exact ⟨bytes, getElem?_of_prefix h.octeti hbytes, heq⟩
  | regex =>
    simp only [hkind, Option.map_eq_some_iff] at hrow ⊢
    obtain ⟨regex, hregex, heq⟩ := hrow
    exact ⟨regex, getElem?_of_prefix h.regexes hregex, heq⟩

theorem Grown.holds {host later : HostState κ μ} (h : Grown host later) {literals more : List Literal}
    {rows : List InternedRow} (hholds : host.Holds literals) (hrows : later.rows = host.rows ++ rows)
    (hmore : rows.map later.literal = more.map some) : later.Holds (literals ++ more) := by
  have hkept : host.rows.map later.literal = literals.map some := by
    rw [← hholds]
    apply List.map_congr_left
    intro row hrow
    have hsome : host.literal row ∈ literals.map some := hholds ▸ List.mem_map_of_mem hrow
    obtain ⟨value, -, hvalue⟩ := List.mem_map.mp hsome
    rw [← hvalue]
    exact h.literal hvalue.symm
  rw [Holds, hrows, List.map_append, List.map_append, hkept, hmore]

/-! ## Interning one row -/

theorem toNat_arenaHandle {length : Nat} {handle : UInt32} (h : arenaHandle length = some handle) :
    handle.toNat = length := by
  unfold arenaHandle at h
  split at h
  · cases h
    have hsize : UInt32.size = 2 ^ 32 := rfl
    exact UInt32.toNat_ofNat_of_lt' (by omega)
  · cases h

theorem decodeText_ok {payload : List UInt8} {what text : String}
    (h : decodeText payload what = .ok text) : utf8 payload = some text := by
  unfold decodeText at h
  unfold utf8
  split at h
  · cases h
    assumption
  · cases h

/-- The texts already met are in the arena at their handles. -/
def Known (host : HostState κ μ) (content : List (String × UInt32)) : Prop :=
  ∀ text handle, content.lookup text = some handle → host.textArena[handle.toNat]? = some text

variable {host : HostState κ μ} {content : List (String × UInt32)}

theorem internText_spec {payload : String} {E : RunOutcome → HostState κ μ → Prop}
    (hknown : host.Known content) :
    Call.wp True (internText content payload) (fun interned t => t.rows = host.rows ∧
      Grown host t ∧ t.textArena[interned.1.toNat]? = some payload ∧ t.Known interned.2) E host := by
  unfold internText
  cases hlookup : content.lookup payload with
  | some handle => exact ⟨rfl, .refl host, hknown payload handle hlookup, hknown⟩
  | none =>
    rw [Call.wp_bind, Call.wp_get, Call.wp_bind, Call.wp_value]
    refine ⟨fun _ => trivial, fun handle hhandle => ?_⟩
    rw [Call.wp_bind, Call.wp_modify, Call.wp_pure]
    have hplace := toNat_arenaHandle hhandle
    have hgrown : Grown host { host with textArena := host.textArena ++ [payload] } :=
      ⟨List.prefix_append _ _, List.prefix_rfl, List.prefix_rfl, rfl, rfl⟩
    have hnew : (host.textArena ++ [payload])[handle.toNat]? = some payload := by
      simp [hplace]
    refine ⟨rfl, hgrown, hnew, ?_⟩
    intro text handle' hfound
    rw [List.lookup_cons] at hfound
    split at hfound
    · rename_i hsame
      cases hfound
      rw [beq_iff_eq] at hsame
      rw [hsame]
      exact hnew
    · exact getElem?_of_prefix hgrown.texts (hknown text handle' hfound)

theorem internOcteti_spec {payload : List UInt8} {E : RunOutcome → HostState κ μ → Prop} :
    Call.wp True (internOcteti payload) (fun handle t => t.rows = host.rows ∧ Grown host t ∧
      t.textArena = host.textArena ∧ t.octetiArena[handle.toNat]? = some payload) E host := by
  rw [internOcteti, Call.wp_bind, Call.wp_get, Call.wp_bind, Call.wp_value]
  refine ⟨fun _ => trivial, fun handle hhandle => ?_⟩
  rw [Call.wp_bind, Call.wp_modify, Call.wp_pure]
  have hplace := toNat_arenaHandle hhandle
  refine ⟨rfl, ⟨List.prefix_rfl, List.prefix_append _ _, List.prefix_rfl, rfl, rfl⟩, rfl, ?_⟩
  simp [hplace]

theorem internRegex_spec {compile : String → Except ρ κ} {pattern : String}
    {flags : Option String} {E : RunOutcome → HostState κ μ → Prop} :
    Call.wp True (internRegex compile pattern flags) (fun handle t => t.rows = host.rows ∧
      Grown host t ∧ t.textArena = host.textArena ∧
      ∃ regex, t.regexArena[handle.toNat]? = some regex ∧ regex.pattern = pattern ∧
        regex.flags = flags) E host := by
  rw [internRegex, Call.wp_bind, Call.wp_get, Call.wp_bind, Call.wp_value]
  refine ⟨fun _ => trivial, fun handle hhandle => ?_⟩
  rw [Call.wp_bind, Call.wp_modify, Call.wp_pure]
  have hplace := toNat_arenaHandle hhandle
  refine ⟨rfl, ⟨List.prefix_rfl, List.prefix_rfl, List.prefix_append _ _, rfl, rfl⟩, rfl,
    ⟨pattern, flags, (compile pattern).toOption⟩, ?_, rfl, rfl⟩
  simp [hplace]

/-! ## Interning a table -/

/-- The host holds these literals behind those of `host`, and is otherwise as it was. -/
structure Interned (host : HostState κ μ) (literals more : List Literal) (t : HostState κ μ) :
    Prop where
  grown : Grown host t
  holds : t.Holds (literals ++ more)

theorem wp_pushRows {host t : HostState κ μ} {literals : List Literal} (first : List Literal)
    {rest : Option (List Literal)} {rows : List InternedRow}
    {later : Call (HostState κ μ) RunOutcome Unit} (hholds : host.Holds literals)
    (hgrown : Grown host t) (hsame : t.rows = host.rows)
    (hrows : rows.map t.literal = first.map some)
    (h : ∀ u : HostState κ μ, u.Holds (literals ++ first) → u.textArena = t.textArena →
      Call.wp True later (fun _ v => ∃ more, rest = some more ∧
        Interned u (literals ++ first) more v) (fun _ _ => True) u) :
    Call.wp True (pushRows rows >>= fun _ => later) (fun _ v => ∃ more, rest = some more ∧
      Interned host literals (first ++ more) v) (fun _ _ => True) t := by
  rw [pushRows, Call.wp_bind, Call.wp_modify]
  have hpushed : Grown host { t with rows := t.rows ++ rows } := by
    refine hgrown.trans ⟨?_, ?_, ?_, rfl, rfl⟩ <;> exact List.prefix_rfl
  have hfirst : HostState.Holds { t with rows := t.rows ++ rows } (literals ++ first) :=
    hpushed.holds hholds (by rw [hsame]) hrows
  refine Call.wp_mono (h _ hfirst rfl) ?_ (fun _ _ _ => trivial)
  intro _ v hv
  obtain ⟨more, hmore, hinterned⟩ := hv
  refine ⟨more, hmore, hpushed.trans hinterned.grown, ?_⟩
  rw [← List.append_assoc]
  exact hinterned.holds

theorem Known.of_texts {host t : HostState κ μ} (h : host.Known content)
    (htexts : t.textArena = host.textArena) : t.Known content := by
  intro text handle hfound
  rw [htexts]
  exact h text handle hfound

theorem wp_pushRegex {compile : String → Except ρ κ} {host : HostState κ μ}
    {literals : List Literal} {pattern : String} {flags : Option String}
    {later : Call (HostState κ μ) RunOutcome Unit} (count : Nat) (rest : Option (List Literal))
    (hholds : host.Holds literals) (hknown : host.Known content)
    (h : ∀ u : HostState κ μ, u.Holds (literals ++ List.replicate count (.regex pattern flags)) →
      u.Known content → Call.wp True later (fun _ v => ∃ more, rest = some more ∧
        Interned u (literals ++ List.replicate count (.regex pattern flags)) more v)
        (fun _ _ => True) u) :
    Call.wp True (internRegex compile pattern flags >>= fun handle =>
      pushRows (List.replicate count ⟨.regex, handle⟩) >>= fun _ => later)
      (fun _ v => ∃ more, rest = some more ∧
        Interned host literals (List.replicate count (.regex pattern flags) ++ more) v)
      (fun _ _ => True) host := by
  rw [Call.wp_bind]
  refine Call.wp_mono internRegex_spec ?_ (fun _ _ h => h)
  intro handle t ht
  obtain ⟨hsame, hgrown, htexts, regex, hplace, rfl, rfl⟩ := ht
  apply wp_pushRows _ hholds hgrown hsame
  · simp [literal, hplace]
  · intro u hu htexts'
    exact h u hu (hknown.of_texts (htexts'.trans htexts))

/-- Every row of a table becomes the row of its literal, behind the rows already there. -/
theorem internRows_spec (compile : String → Except ρ κ) (rows : List RawRow) :
    ∀ {host : HostState κ μ} {literals : List Literal} {content : List (String × UInt32)}
      {index : Nat}, host.Holds literals → host.Known content →
      Call.wp True (internRows compile content index rows) (fun _ t =>
        ∃ more, literalsOf rows = some more ∧ Interned host literals more t)
        (fun _ _ => True) host := by
  induction rows using literalsOf.induct with
  | case1 =>
    intro host literals content index hholds _
    exact ⟨[], rfl, .refl host, by rwa [List.append_nil]⟩
  | case2 raw rest htext ih =>
    intro host literals content index hholds hknown
    rw [internRows, if_pos htext]
    refine Call.wp_of_check (fun payload hpayload => ?_) (fun _ _ => trivial)
    rw [Call.wp_bind]
    refine Call.wp_mono (internText_spec hknown) ?_ (fun _ _ h => h)
    intro interned t ht
    obtain ⟨hsame, hgrown, hplace, hknown⟩ := ht
    refine Call.wp_mono (wp_pushRows [.text payload] hholds hgrown hsame
      (by simp [literal, hplace])
      (fun u hu htexts => ih hu (hknown.of_texts htexts))) ?_ (fun _ _ h => h)
    intro _ v hv
    obtain ⟨more, hmore, hinterned⟩ := hv
    exact ⟨.text payload :: more, by simp [literalsOf, htext, decodeText_ok hpayload, hmore],
      hinterned⟩
  | case3 raw rest htext hocteti ih =>
    intro host literals content index hholds hknown
    rw [internRows, if_neg htext, if_pos hocteti, Call.wp_bind]
    refine Call.wp_mono internOcteti_spec ?_ (fun _ _ h => h)
    intro handle t ht
    obtain ⟨hsame, hgrown, htexts, hplace⟩ := ht
    refine Call.wp_mono (wp_pushRows [.octeti raw.payload] hholds hgrown hsame
      (by simp [literal, hplace])
      (fun u hu htexts' => ih hu (hknown.of_texts (htexts'.trans htexts)))) ?_ (fun _ _ h => h)
    intro _ v hv
    obtain ⟨more, hmore, hinterned⟩ := hv
    refine ⟨.octeti raw.payload :: more, ?_, hinterned⟩
    rw [literalsOf, if_neg htext, if_pos hocteti]
    simp [hmore]
  | case4 raw rest htext hocteti hpattern ih =>
    intro host literals content index hholds hknown
    rw [internRows, if_neg htext, if_neg hocteti, if_pos hpattern]
    refine Call.wp_of_check (fun pattern hdecoded => ?_) (fun _ _ => trivial)
    have hdecode := decodeText_ok hdecoded
    cases rest with
    | nil =>
      have hpushed : Call.wp True (internRegex compile pattern none >>= fun handle =>
          pushRows [⟨.regex, handle⟩] >>= fun _ => pure ()) _ _ host :=
        wp_pushRegex 1 (some []) hholds hknown
          (fun u hu _ => ⟨[], rfl, .refl u, by rwa [List.append_nil]⟩)
      refine Call.wp_mono hpushed ?_ (fun _ _ h => h)
      intro _ v hv
      obtain ⟨more, hmore, hinterned⟩ := hv
      cases hmore
      refine ⟨[.regex pattern none], ?_, hinterned⟩
      rw [literalsOf, if_neg htext, if_neg hocteti, if_pos hpattern]
      simp [hdecode]
    | cons flagsRow later =>
      by_cases hflags : flagsRow.kind = rowKindRegexFlags
      · simp only [if_pos hflags]
        refine Call.wp_of_check (fun flags hdecoded' => ?_) (fun _ _ => trivial)
        have hdecode' := decodeText_ok hdecoded'
        refine Call.wp_mono (wp_pushRegex 2 _ hholds hknown (fun u hu hknown => ih.1 hu hknown)) ?_
          (fun _ _ h => h)
        intro _ v hv
        obtain ⟨more, hmore, hinterned⟩ := hv
        refine ⟨.regex pattern (some flags) :: .regex pattern (some flags) :: more, ?_, hinterned⟩
        rw [literalsOf, if_neg htext, if_neg hocteti, if_pos hpattern]
        simp [hdecode, hflags, hdecode', hmore]
      · simp only [if_neg hflags]
        refine Call.wp_mono (wp_pushRegex 1 _ hholds hknown (fun u hu hknown => ih.2 hu hknown)) ?_
          (fun _ _ h => h)
        intro _ v hv
        obtain ⟨more, hmore, hinterned⟩ := hv
        refine ⟨.regex pattern none :: more, ?_, hinterned⟩
        rw [literalsOf, if_neg htext, if_neg hocteti, if_pos hpattern]
        simp [hdecode, hflags, hmore]
  | case5 raw rest htext hocteti hpattern =>
    intro host literals content index _ _
    rw [internRows, if_neg htext, if_neg hocteti, if_neg hpattern]
    trivial

theorem literalsOf_length (rows : List RawRow) :
    ∀ {literals : List Literal}, literalsOf rows = some literals →
      literals.length = rows.length := by
  induction rows using literalsOf.induct with
  | case1 =>
    intro literals h
    cases h
    rfl
  | case2 raw rest htext ih =>
    intro literals h
    rw [literalsOf, if_pos htext] at h
    obtain ⟨text, -, h⟩ := Option.bind_eq_some_iff.mp h
    obtain ⟨more, hmore, h⟩ := Option.bind_eq_some_iff.mp h
    cases h
    simp [ih hmore]
  | case3 raw rest htext hocteti ih =>
    intro literals h
    rw [literalsOf, if_neg htext, if_pos hocteti] at h
    obtain ⟨more, hmore, h⟩ := Option.bind_eq_some_iff.mp h
    cases h
    simp [ih hmore]
  | case4 raw rest htext hocteti hpattern ih =>
    intro literals h
    rw [literalsOf, if_neg htext, if_neg hocteti, if_pos hpattern] at h
    obtain ⟨pattern, -, h⟩ := Option.bind_eq_some_iff.mp h
    cases rest with
    | nil =>
      cases h
      rfl
    | cons flagsRow later =>
      by_cases hflags : flagsRow.kind = rowKindRegexFlags
      · simp only [if_pos hflags] at h
        obtain ⟨flags, -, h⟩ := Option.bind_eq_some_iff.mp h
        obtain ⟨more, hmore, h⟩ := Option.bind_eq_some_iff.mp h
        cases h
        simp [ih.1 hmore]
      · simp only [if_neg hflags] at h
        obtain ⟨more, hmore, h⟩ := Option.bind_eq_some_iff.mp h
        cases h
        simpa using ih.2 hmore
  | case5 raw rest htext hocteti hpattern =>
    intro literals h
    rw [literalsOf, if_neg htext, if_neg hocteti, if_neg hpattern] at h
    cases h

/-- A declared table interns its literals and restarts the dynamic handles behind its rows. -/
theorem internLiteralTable_spec (compile : String → Except ρ κ) (rows : List RawRow)
    {host : HostState κ μ} {literals : List Literal} (hholds : host.Holds literals) :
    Call.wp True (internLiteralTable compile rows) (fun _ t => ∃ more,
      literalsOf rows = some more ∧ t.Holds (literals ++ more) ∧ t.rows.length < 2 ^ 31 ∧
        t.nextDynamic.toNat = t.rows.length ∧ t.dynamic = host.dynamic) (fun _ _ => True) host := by
  rw [internLiteralTable, Call.wp_bind]
  have hknown : host.Known [] := fun _ _ h => by cases h
  refine Call.wp_mono (internRows_spec compile rows hholds hknown) ?_ (fun _ _ h => h)
  intro _ t ht
  obtain ⟨more, hmore, hinterned⟩ := ht
  rw [Call.wp_bind, Call.wp_get, Call.wp_bind, Call.wp_value]
  refine ⟨fun _ => trivial, fun next hnext => ?_⟩
  rw [Call.wp_modify]
  have hplace := toNat_arenaHandle hnext
  have hfits : t.rows.length < 2 ^ 31 := by
    unfold arenaHandle at hnext
    split at hnext
    · assumption
    · cases hnext
  exact ⟨more, hmore, hinterned.holds, hfits, hplace, hinterned.grown.dynamic⟩

/-! ## Resolving a row -/

/-- The handle resolves to the literal. -/
def Resolves (host : HostState κ μ) (handle : UInt32) : Literal → Prop
  | .text text => host.resolveText handle = some text
  | .octeti bytes => host.resolveOcteti handle = some bytes
  | .regex pattern flags => ∃ regex, host.resolveRegex handle = some regex ∧
      regex.pattern = pattern ∧ regex.flags = flags

theorem resolves_row_iff {host : HostState κ μ} {handle : UInt32} {row : InternedRow}
    {value : Literal} (hhandle : handle.toNat < 2 ^ 31)
    (hrow : host.rows[handle.toNat]? = some row) :
    host.Resolves handle value ↔ host.literal row = some value := by
  have hindex : handleIndex handle = some handle.toNat := by
    rw [handleIndex, if_pos hhandle]
  obtain ⟨kind, arena⟩ := row
  cases value with
  | text text => cases kind <;> simp [Resolves, resolveText, literal, hindex, hrow]
  | octeti bytes => cases kind <;> simp [Resolves, resolveOcteti, literal, hindex, hrow]
  | regex pattern flags => cases kind <;> simp [Resolves, resolveRegex, literal, hindex, hrow]

theorem Holds.resolves_iff {host : HostState κ μ} {literals : List Literal}
    (hholds : host.Holds literals) (hfits : host.rows.length < 2 ^ 31) {index : Nat}
    (hindex : index < literals.length) {value : Literal} :
    host.Resolves (UInt32.ofNat index) value ↔ literals[index]? = some value := by
  have hlength : host.rows.length = literals.length := by
    simpa using congrArg List.length hholds
  have hsize : UInt32.size = 2 ^ 32 := rfl
  have hplace : (UInt32.ofNat index).toNat = index :=
    UInt32.toNat_ofNat_of_lt' (by omega)
  have hrow : host.rows[(UInt32.ofNat index).toNat]? = some host.rows[index] := by
    rw [hplace]
    exact List.getElem?_eq_getElem (by omega)
  rw [resolves_row_iff (by omega) hrow]
  have hsame : (host.rows.map host.literal)[index]? = (literals.map some)[index]? := by
    rw [hholds]
  rw [List.getElem?_map, List.getElem?_map, List.getElem?_eq_getElem (by omega : index < host.rows.length),
    List.getElem?_eq_getElem hindex] at hsame
  rw [Option.some.inj hsame, List.getElem?_eq_getElem hindex]

end HostState

end FaberHosts.Wasm
