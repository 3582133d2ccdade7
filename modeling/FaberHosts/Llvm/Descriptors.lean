import FaberHosts.Llvm.Conversion
import Mathlib.Logic.Relation

/-!
# Which pointers are read as text

A request to the host (a diagnostic, or a conversion) has parts: the elements,
entries and payloads it goes on to.  A request fits when the pointer it holds
itself is one that its own path has a lookup for.  Requests whose parts all fit
read nothing but texts as text, and no others do.
-/

namespace FaberHosts.Llvm
open FaberHosts.Kernel FaberHosts.Lib

/-- What the host is asked: a diagnostic of an opaque handle, of an element of a lista
    or copia, or of an option; a conversion of a value, or of a whole aggregate. -/
inductive Request where
  | opaqueText (handle : Handle)
  | elementText (kind : ValueKind) (element : RuntimeValue)
  | optionText (option : Handle) (kind : ValueKind)
  | convert (kind : ValueKind) (value : RuntimeValue)
  | valorArray (handle : Handle)
  | valorMap (handle : Handle)
  | valorTensor (handle : Handle)

section

variable {Instans : Type} (display : Display Instans) (runtime : RuntimeContext Instans)
  (memory : Memory)

/-- The pointers that `text_value` dereferences while the request is answered. -/
def Request.readAsText (depth : Nat) : Request → List Handle
  | .opaqueText handle => (opaqueValueText display runtime memory depth handle).record
  | .elementText kind element => (opaqueElementText display runtime memory kind element).record
  | .optionText option kind => (optionDiagnosticText display runtime memory depth option kind).record
  | .convert kind value => (runtimeValueToValor runtime memory depth kind value).record
  | .valorArray handle => (Llvm.valorArray runtime memory depth handle).record
  | .valorMap handle => (Llvm.valorMap runtime memory depth handle).record
  | .valorTensor handle => (Llvm.valorTensor runtime memory depth handle).record

/-- Whatever the stack allows, only arena texts and literals are read as text. -/
def Request.Safe (request : Request) : Prop :=
  ∀ depth, ∀ handle ∈ request.readAsText display runtime memory depth,
    IsText runtime memory handle

/-- The conversions of the entries of a map. -/
def entryParts (map : RuntimeMap) : List Request :=
  map.entries.flatMap fun entry => [.convert map.keyKind entry.1, .convert map.valueKind entry.2]

/-- What an opaque diagnostic goes on to: the elements of a lista or a copia, the
    entries of a tabula. -/
def opaqueParts (handle : Handle) : List Request :=
  match findArray runtime handle with
  | some array => array.values.map (.elementText array.kind)
  | none =>
    match findMap runtime handle with
    | some map => entryParts map
    | none =>
      match findSet runtime handle with
      | some set => set.values.map (.elementText set.kind)
      | none => []

/-- The requests that answering a request goes on to. -/
def Request.parts : Request → List Request
  | .opaqueText handle => opaqueParts runtime handle
  | .elementText _ _ => []
  | .optionText option kind =>
    match findOption runtime option with
    | some ⟨.ptr, some (.ptr handle)⟩ => [.opaqueText handle]
    | some _ => []
    | none => if kind = .ptr then [.opaqueText option] else []
  | .convert .ptr (.ptr handle) =>
    match findArray runtime handle with
    | some array => array.values.map (.convert array.kind)
    | none => ((findMap runtime handle).map entryParts).getD []
  | .convert _ _ => []
  | .valorArray handle =>
    ((findArray runtime handle).map fun array =>
      array.values.map (Request.convert array.kind)).getD []
  | .valorMap handle => ((findMap runtime handle).map entryParts).getD []
  | .valorTensor handle =>
    ((findTensor runtime handle).map fun tensor =>
      tensor.data.map (Request.convert tensor.kind)).getD []

/-- The request itself, or a part of it at any depth. -/
def Request.Within (part request : Request) : Prop :=
  Relation.ReflTransGen (fun whole part => part ∈ Request.parts runtime whole) request part

/-- A pointer that may be given where a text is due; the null pointer is turned away. -/
def TextOrNull (handle : Handle) : Prop := handle = 0 ∨ IsText runtime memory handle

/-- A payload of an option that is a pointer of kind `ptr` or `text` is a text. -/
def PayloadFits : ValueKind → RuntimeValue → Prop
  | .ptr, .ptr handle => TextOrNull runtime memory handle
  | .text, .ptr handle => TextOrNull runtime memory handle
  | _, _ => True

/-- The pointer that the request holds itself, where it holds one, is of a kind that
    its path looks up. -/
def Request.Fits : Request → Prop
  | .elementText .ptr (.ptr handle) => TextOrNull runtime memory handle
  | .optionText option kind =>
    option ≠ 0 →
      match findOption runtime option with
      | some ⟨_, none⟩ => True
      | some ⟨boxed, some payload⟩ => PayloadFits runtime memory boxed payload
      | none => kind = .text → IsText runtime memory option
  | .convert .text (.ptr handle) => TextOrNull runtime memory handle
  | .convert .ptr (.ptr handle) =>
    (findOcteti runtime handle).isSome ∨ (findArray runtime handle).isSome ∨
      (findMap runtime handle).isSome ∨ (findSet runtime handle).isSome ∨
        TextOrNull runtime memory handle
  | _ => True

end

section

variable {Instans : Type} {display : Display Instans} {runtime : RuntimeContext Instans}
  {memory : Memory} {request part : Request} {depth : Nat}

theorem Request.Within.refl : Request.Within runtime request request :=
  Relation.ReflTransGen.refl

theorem Request.Within.of_part {sub : Request} (hpart : part ∈ request.parts runtime)
    (hsub : Request.Within runtime sub part) : Request.Within runtime sub request :=
  Relation.ReflTransGen.head hpart hsub

/-- Only texts are read as text. -/
abbrev ReadsTexts {α : Type} (runtime : RuntimeContext Instans) (memory : Memory)
    (x : Traced Handle α) : Prop :=
  x.Only (IsText runtime memory)

theorem readsTexts_textValue {handle : Handle} :
    ReadsTexts runtime memory (textValue memory handle) ↔ TextOrNull runtime memory handle :=
  only_textValue

/-- A lookup among the texts comes first, so an arena text is not read through. -/
theorem readsTexts_textFirst {handle : Handle} :
    ReadsTexts runtime memory
        ((Traced.found (findText runtime handle)).orElse (textValue memory handle)) ↔
      TextOrNull runtime memory handle := by
  rw [ReadsTexts, Traced.only_orElse, only_textValue]
  constructor
  · rintro ⟨-, h⟩
    rcases htext : findText runtime handle with _ | text
    · exact h htext
    · exact Or.inr (Or.inl (by rw [htext]; rfl))
  · intro h
    exact ⟨Traced.only_found, fun _ => h⟩

theorem readsTexts_renderTextPayload {handle : Handle} :
    ReadsTexts runtime memory (renderTextPayload runtime memory handle) ↔
      TextOrNull runtime memory handle := by
  unfold renderTextPayload
  rcases htext : findText runtime handle with _ | text
  · exact only_textValue
  · refine ⟨fun _ => Or.inr (Or.inl ?_), fun _ => Traced.only_pure⟩
    rw [htext]
    rfl

theorem readsTexts_opaqueElementText {kind : ValueKind} {element : RuntimeValue} :
    ReadsTexts runtime memory (opaqueElementText display runtime memory kind element) ↔
      Request.Fits runtime memory (.elementText kind element) := by
  unfold opaqueElementText
  split
  · rw [ReadsTexts, Traced.only_map]
    exact readsTexts_textFirst
  · split <;> simp [Request.Fits]
  all_goals simp_all [Request.Fits]

theorem readsTexts_mapToValor {convert : ValueKind → RuntimeValue → Traced Handle Valor}
    {map : RuntimeMap}
    (hconvert : ∀ kind value, Request.convert kind value ∈ entryParts map →
      ReadsTexts runtime memory (convert kind value)) :
    ReadsTexts runtime memory (mapToValor convert map) := by
  refine Traced.Only.bind (Traced.Only.each fun entry hentry => ?_) fun _ => Traced.only_pure
  have hkey : Request.convert map.keyKind entry.1 ∈ entryParts map :=
    List.mem_flatMap.mpr ⟨entry, hentry, List.mem_cons_self⟩
  have hvalue : Request.convert map.valueKind entry.2 ∈ entryParts map :=
    List.mem_flatMap.mpr ⟨entry, hentry, List.mem_cons_of_mem _ List.mem_cons_self⟩
  refine Traced.Only.bind (hconvert _ _ hkey) fun key => ?_
  cases key with
  | textus key => exact (hconvert _ _ hvalue).bind fun _ => Traced.only_pure
  | _ => exact Traced.only_fail

theorem readsTexts_arrayToValor {convert : ValueKind → RuntimeValue → Traced Handle Valor}
    {array : RuntimeArray}
    (hconvert : ∀ value ∈ array.values, ReadsTexts runtime memory (convert array.kind value)) :
    ReadsTexts runtime memory (arrayToValor convert array) :=
  (Traced.Only.each hconvert).bind fun _ => Traced.only_pure

/-- Induction on the depth: each conversion reads its own pointer or goes on to the
    conversions that are its parts. -/
theorem readsTexts_runtimeValueToValor (depth : Nat) {kind : ValueKind} {value : RuntimeValue}
    (hfits : ∀ part, Request.Within runtime part (.convert kind value) →
      part.Fits runtime memory) :
    ReadsTexts runtime memory (runtimeValueToValor runtime memory depth kind value) := by
  induction depth generalizing kind value with
  | zero => exact Traced.only_fail
  | succ depth ih =>
    have hself := hfits _ .refl
    have hparts : ∀ kind' value', Request.convert kind' value' ∈
        (Request.convert kind value).parts runtime →
        ReadsTexts runtime memory (runtimeValueToValor runtime memory depth kind' value') := by
      intro kind' value' hpart
      exact ih fun part hwithin => hfits part (.of_part hpart hwithin)
    unfold runtimeValueToValor
    split
    case h_9 => split <;> simp
    case h_12 handle =>
      rw [ReadsTexts, Traced.only_map]
      exact only_textValue.mpr hself
    case h_13 handle =>
      rcases htext : findText runtime handle with _ | text
      · rcases hocteti : findOcteti runtime handle with _ | bytes
        · rcases harray : findArray runtime handle with _ | array
          · rcases hmap : findMap runtime handle with _ | map
            · by_cases hset : (findSet runtime handle).isSome
              · simp [hset]
              · have htextOrNull : TextOrNull runtime memory handle := by
                  simpa [Request.Fits, hocteti, harray, hmap, hset] using hself
                simp only [hset, Bool.false_eq_true, if_false]
                rw [ReadsTexts, Traced.only_map]
                exact only_textValue.mpr htextOrNull
            · refine readsTexts_mapToValor fun kind' value' hentry => hparts kind' value' ?_
              simpa [Request.parts, harray, hmap] using hentry
          · refine readsTexts_arrayToValor fun value' hvalue => hparts array.kind value' ?_
            simpa [Request.parts, harray] using hvalue
        · exact Traced.only_pure
      · exact Traced.only_pure
    case h_14 handle => split <;> simp
    all_goals simp

/-- A pointer of kind `ptr` that no lookup of the conversion finds is read as text. -/
theorem convertPtr_fits {handle : Handle}
    (hone : ReadsTexts runtime memory
      (runtimeValueToValor runtime memory 1 .ptr (.ptr handle))) :
    Request.Fits runtime memory (.convert .ptr (.ptr handle)) := by
  show (findOcteti runtime handle).isSome ∨ (findArray runtime handle).isSome ∨
    (findMap runtime handle).isSome ∨ (findSet runtime handle).isSome ∨ _
  rcases htext : findText runtime handle with _ | text
  · rcases hocteti : findOcteti runtime handle with _ | bytes
    · rcases harray : findArray runtime handle with _ | array
      · rcases hmap : findMap runtime handle with _ | map
        · by_cases hset : (findSet runtime handle).isSome
          · simp [hset]
          · simp only [runtimeValueToValor, htext, hocteti, harray, hmap, hset,
              Bool.false_eq_true, if_false] at hone
            rw [ReadsTexts, Traced.only_map] at hone
            simp [readsTexts_textValue.mp hone]
        · simp
      · simp
    · simp
  · have : IsText runtime memory handle := Or.inl (by rw [htext]; rfl)
    simp [TextOrNull, this]

theorem convertText_fits {handle : Handle}
    (hone : ReadsTexts runtime memory
      (runtimeValueToValor runtime memory 1 .text (.ptr handle))) :
    Request.Fits runtime memory (.convert .text (.ptr handle)) := by
  rw [runtimeValueToValor, ReadsTexts, Traced.only_map] at hone
  exact readsTexts_textValue.mp hone

theorem readsTexts_opaqueValueText (depth : Nat) {handle : Handle}
    (hparts : ∀ part ∈ opaqueParts runtime handle, part.Safe display runtime memory) :
    ReadsTexts runtime memory (opaqueValueText display runtime memory depth handle) := by
  unfold opaqueValueText
  unfold opaqueParts at hparts
  rcases harray : findArray runtime handle with _ | array
  · rw [harray] at hparts
    rcases findOcteti runtime handle with _ | bytes
    · rcases findInstans runtime handle with _ | instans
      · rcases findValor runtime handle with _ | valor
        · rcases hmap : findMap runtime handle with _ | map
          · rw [hmap] at hparts
            rcases hset : findSet runtime handle with _ | set
            · exact Traced.only_fail
            · rw [hset] at hparts
              refine Traced.Only.bind (Traced.Only.each fun element helement => ?_)
                fun _ => Traced.only_pure
              exact hparts _ (List.mem_map_of_mem helement) 0
          · rw [hmap] at hparts
            refine Traced.Only.bind (readsTexts_mapToValor fun kind value hentry => ?_)
              fun _ => Traced.only_pure
            exact hparts _ hentry depth
        · cases valor <;> exact Traced.only_pure
      · exact Traced.only_pure
    · exact Traced.only_pure
  · rw [harray] at hparts
    refine Traced.Only.bind (Traced.Only.each fun element helement => ?_)
      fun _ => Traced.only_pure
    exact hparts _ (List.mem_map_of_mem helement) 0

theorem payloadFits_of_reads {kind : ValueKind} {payload : RuntimeValue}
    (hreads : ReadsTexts runtime memory
      (renderOptionPayload display runtime memory depth kind payload)) :
    PayloadFits runtime memory kind payload := by
  unfold PayloadFits
  split
  · exact readsTexts_textFirst.mp (Traced.only_orElse.mp hreads).1
  · exact readsTexts_renderTextPayload.mp hreads
  · trivial

/-- A payload that fits is read as text, or is displayed as an opaque handle. -/
theorem readsTexts_renderOptionPayload (depth : Nat) {kind : ValueKind} {payload : RuntimeValue}
    (hfits : PayloadFits runtime memory kind payload)
    (hshown : ∀ handle, kind = .ptr → payload = .ptr handle →
      (Request.opaqueText handle).Safe display runtime memory) :
    ReadsTexts runtime memory
      (renderOptionPayload display runtime memory depth kind payload) := by
  unfold renderOptionPayload
  split
  case h_12 handle => exact readsTexts_renderTextPayload.mpr hfits
  case h_13 handle =>
    exact Traced.only_orElse.mpr
      ⟨readsTexts_textFirst.mpr hfits, fun _ => hshown handle rfl rfl depth⟩
  all_goals simp

theorem readsTexts_optionDiagnosticText (depth : Nat) {option : Handle} {kind : ValueKind}
    (hfits : (Request.optionText option kind).Fits runtime memory)
    (hparts : ∀ part ∈ (Request.optionText option kind).parts runtime,
      part.Safe display runtime memory) :
    ReadsTexts runtime memory
      (optionDiagnosticText display runtime memory depth option kind) := by
  unfold optionDiagnosticText
  by_cases hnull : option = 0
  · rw [if_pos hnull]
    exact Traced.only_pure
  · rw [if_neg hnull]
    have hfits := hfits hnull
    rcases hboxed : findOption runtime option with _ | ⟨boxed, _ | payload⟩
    · simp only [hboxed] at hfits
      simp only [Request.parts, hboxed] at hparts
      cases kind with
      | text => exact readsTexts_renderTextPayload.mpr (Or.inr (hfits rfl))
      | ptr => exact hparts (.opaqueText option) (by simp) depth
      | _ => simp [renderRawOptionPayload]
    · exact Traced.only_pure
    · simp only [hboxed] at hfits
      refine readsTexts_renderOptionPayload depth hfits ?_
      rintro handle rfl rfl
      exact hparts _ (by simp [Request.parts, hboxed])

theorem optionText_fits {option : Handle} {kind : ValueKind}
    (hone : ReadsTexts runtime memory (optionDiagnosticText display runtime memory 0 option kind)) :
    Request.Fits runtime memory (.optionText option kind) := by
  intro hnull
  unfold optionDiagnosticText at hone
  rw [if_neg hnull] at hone
  rcases hboxed : findOption runtime option with _ | ⟨boxed, _ | payload⟩
  · rw [hboxed] at hone
    rintro rfl
    exact (readsTexts_renderTextPayload.mp hone).resolve_left hnull
  · trivial
  · rw [hboxed] at hone
    exact payloadFits_of_reads hone

theorem fits_of_safe (hsafe : request.Safe display runtime memory) :
    request.Fits runtime memory := by
  cases request with
  | elementText kind element => exact readsTexts_opaqueElementText.mp (hsafe 0)
  | optionText option kind => exact optionText_fits (hsafe 0)
  | convert kind value =>
    have hone : ReadsTexts runtime memory (runtimeValueToValor runtime memory 1 kind value) :=
      hsafe 1
    unfold Request.Fits
    split
    case h_3 heq =>
      cases heq
      exact convertText_fits hone
    case h_4 heq =>
      cases heq
      exact convertPtr_fits hone
    all_goals simp_all
  | _ => trivial

theorem of_mem_opaqueParts {handle : Handle} (hpart : part ∈ opaqueParts runtime handle) :
    (∃ kind element, part = .elementText kind element) ∨
      ∃ kind value, part = .convert kind value := by
  unfold opaqueParts at hpart
  split at hpart
  · obtain ⟨element, -, rfl⟩ := List.mem_map.mp hpart
    exact Or.inl ⟨_, _, rfl⟩
  · split at hpart
    · obtain ⟨entry, -, hentry⟩ := List.mem_flatMap.mp hpart
      right
      rcases List.mem_cons.mp hentry with rfl | hentry
      · exact ⟨_, _, rfl⟩
      · exact ⟨_, _, List.mem_singleton.mp hentry⟩
    · split at hpart
      · obtain ⟨element, -, rfl⟩ := List.mem_map.mp hpart
        exact Or.inl ⟨_, _, rfl⟩
      · cases hpart

/-- A request all of whose parts fit. -/
abbrev AllFit (runtime : RuntimeContext Instans) (memory : Memory) (request : Request) : Prop :=
  ∀ part, Request.Within runtime part request → part.Fits runtime memory

theorem AllFit.of_part (hfits : AllFit runtime memory request)
    (hpart : part ∈ request.parts runtime) : AllFit runtime memory part :=
  fun sub hsub => hfits sub (.of_part hpart hsub)

theorem convert_safe {kind : ValueKind} {value : RuntimeValue}
    (hfits : AllFit runtime memory (.convert kind value)) :
    (Request.convert kind value).Safe display runtime memory :=
  fun depth => readsTexts_runtimeValueToValor depth hfits

theorem opaqueText_safe {handle : Handle}
    (hfits : AllFit runtime memory (.opaqueText handle)) :
    (Request.opaqueText handle).Safe display runtime memory := by
  intro depth
  refine readsTexts_opaqueValueText depth fun part hpart => ?_
  have hpartFits : AllFit runtime memory part := hfits.of_part hpart
  rcases of_mem_opaqueParts hpart with ⟨kind, element, rfl⟩ | ⟨kind, value, rfl⟩
  · exact fun _ => readsTexts_opaqueElementText.mpr (hpartFits _ .refl)
  · exact convert_safe hpartFits

theorem optionText_safe {option : Handle} {kind : ValueKind}
    (hfits : AllFit runtime memory (.optionText option kind)) :
    (Request.optionText option kind).Safe display runtime memory := by
  intro depth
  refine readsTexts_optionDiagnosticText depth (hfits _ .refl) fun part hpart => ?_
  have hpartFits : AllFit runtime memory part := hfits.of_part hpart
  have hshown : ∃ handle, part = .opaqueText handle := by
    simp only [Request.parts] at hpart
    split at hpart
    · exact ⟨_, List.mem_singleton.mp hpart⟩
    · cases hpart
    · split at hpart
      · exact ⟨_, List.mem_singleton.mp hpart⟩
      · cases hpart
  obtain ⟨handle, rfl⟩ := hshown
  exact opaqueText_safe hpartFits

theorem valorAggregate_safe (hfits : AllFit runtime memory request)
    (haggregate : (∃ handle, request = .valorArray handle) ∨
      (∃ handle, request = .valorMap handle) ∨ ∃ handle, request = .valorTensor handle) :
    request.Safe display runtime memory := by
  have hconvert : ∀ kind value, Request.convert kind value ∈ request.parts runtime →
      ∀ depth, ReadsTexts runtime memory (runtimeValueToValor runtime memory depth kind value) := by
    intro kind value hpart
    have hsafe : (Request.convert kind value).Safe display runtime memory :=
      convert_safe (hfits.of_part hpart)
    exact hsafe
  intro depth
  rcases haggregate with ⟨handle, rfl⟩ | ⟨handle, rfl⟩ | ⟨handle, rfl⟩
  · show ReadsTexts runtime memory (valorArray runtime memory depth handle)
    unfold valorArray
    rcases harray : findArray runtime handle with _ | array
    · exact Traced.only_fail
    · refine readsTexts_arrayToValor fun value hvalue => hconvert array.kind value ?_ depth
      simpa [Request.parts, harray] using hvalue
  · show ReadsTexts runtime memory (valorMap runtime memory depth handle)
    unfold valorMap
    rcases hmap : findMap runtime handle with _ | map
    · exact Traced.only_fail
    · refine readsTexts_mapToValor fun kind value hentry => hconvert kind value ?_ depth
      simpa [Request.parts, hmap] using hentry
  · show ReadsTexts runtime memory (valorTensor runtime memory depth handle)
    unfold valorTensor
    rcases htensor : findTensor runtime handle with _ | tensor
    · exact Traced.only_fail
    · refine Traced.Only.bind (Traced.Only.each fun value hvalue => ?_) fun _ => Traced.only_pure
      refine hconvert tensor.kind value ?_ depth
      simpa [Request.parts, htensor] using hvalue

theorem safe_of_allFit (hfits : AllFit runtime memory request) :
    request.Safe display runtime memory := by
  cases request with
  | opaqueText handle => exact opaqueText_safe hfits
  | elementText kind element =>
    exact fun _ => readsTexts_opaqueElementText.mpr (hfits _ .refl)
  | optionText option kind => exact optionText_safe hfits
  | convert kind value => exact convert_safe hfits
  | valorArray handle => exact valorAggregate_safe hfits (Or.inl ⟨handle, rfl⟩)
  | valorMap handle => exact valorAggregate_safe hfits (Or.inr (Or.inl ⟨handle, rfl⟩))
  | valorTensor handle => exact valorAggregate_safe hfits (Or.inr (Or.inr ⟨handle, rfl⟩))

end

/-- A request and everything it goes on to read only arena texts and literals as text
    exactly when each pointer met on the way is one that its path looks up: a text or
    literal for an element, an option's payload and a value of kind `text`; also an
    octeti, lista, tabula or copia for a value of kind `ptr`. -/
theorem texts_only_iff {Instans : Type} (display : Display Instans)
    (runtime : RuntimeContext Instans) (memory : Memory) (request : Request) :
    (∀ part, Request.Within runtime part request → part.Safe display runtime memory) ↔
      ∀ part, Request.Within runtime part request → part.Fits runtime memory := by
  constructor
  · intro hsafe part hpart
    exact fits_of_safe (hsafe part hpart)
  · intro hfits part hpart
    exact safe_of_allFit fun sub hsub => hfits sub (hpart.trans hsub)

section

/-- A lista at 16 whose one element is the lista at 32. -/
def nestedListae : RuntimeContext Unit where
  texts := []
  valors := []
  octeti := []
  instants := []
  arrays := [(16, ⟨.ptr, [.ptr 32]⟩), (32, ⟨.i64, [.i64 7]⟩)]
  options := [(48, ⟨.ptr, some (.ptr 32)⟩)]
  maps := []
  sets := []
  tensors := []
  displayTokens := none

/-- The words of a Latin module, every other value as the empty text. -/
def latinWords : Display Unit where
  latin := ⟨"verum", "falsum", "nihil", ""⟩
  fractus32 _ := ""
  fractus64 _ := ""
  bivalensWith b tokens := if b then tokens.true_ else tokens.false_
  valorWith _ _ := ""
  debugTextus s := s
  debugInstans _ := ""
  debugValor _ := ""

/-- `nota` of a lista of listae, and of an option that holds a lista, dereferences the
    inner lista as if it were a text. -/
theorem lista_read_as_text :
    (findArray nestedListae 32).isSome ∧ ¬ IsText nestedListae ⟨[], fun _ => none⟩ 32 ∧
      32 ∈ (Request.opaqueText 16).readAsText latinWords nestedListae ⟨[], fun _ => none⟩ 1 ∧
      32 ∈ (Request.optionText 48 .ptr).readAsText latinWords nestedListae
        ⟨[], fun _ => none⟩ 1 := by
  refine ⟨rfl, by decide, ?_, ?_⟩
  · show 32 ∈ [32]
    simp
  · show 32 ∈ [32]
    simp

end

end FaberHosts.Llvm
