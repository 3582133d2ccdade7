import FaberHosts.Lib.Ranking
import FaberHosts.Library.Grouped

/-!
# Router selection

`router_selection` of `moe.rs`: a packed GEMV gives each row a logit for every expert, and
`select_row` writes the ids and weights of the highest.  The grouped body that follows
takes the width of a row from the length of the buffers it is given.
-/

namespace FaberHosts.Library
open FaberHosts.Lib KernelBodyError Call

attribute [local instance] Call.lawfulMonad

variable {σ F : Type}

/-- `RouterSelectionLayout`. -/
inductive RouterSelectionLayout where
  | packed
  | unsupported
  deriving DecidableEq

/-- `RouterSelectionBind`. -/
structure RouterSelectionBind where
  rows : Nat
  k : Nat
  experts : Nat
  active : Nat
  inputRowStride : Nat
  packedExpertStrideBytes : Nat
  format : QuantizedFormat
  layout : RouterSelectionLayout
  grid : Vector UInt32 3
  deriving DecidableEq

namespace RouterSelectionBind

def validate (bind : RouterSelectionBind) : Except KernelBodyError Unit := do
  refuseIf (bind.rows = 0 ∨ bind.k = 0 ∨ bind.experts = 0 ∨ bind.active = 0)
    (invalidBind "router selection has a zero dimension")
  refuseIf (bind.active > bind.experts)
    (invalidBind "router selection active experts exceed the declared expert count")
  refuseIf (bind.layout ≠ .packed) (invalidBind "router selection layout is not servable")
  refuseIf (bind.inputRowStride = 0 ∨ bind.packedExpertStrideBytes = 0)
    (invalidBind "router selection has a zero stride")
  refuseIf (0 ∈ bind.grid.toList) (invalidBind "router selection has a zero dispatch axis")
  refuseIf (bind.k % bind.format.blockElements ≠ 0)
    (invalidBind "router selection K is not block aligned")
  let blocksPerExpert := bind.k / bind.format.blockElements
  let minimumExpertBytes ← okOr (mulWord blocksPerExpert bind.format.blockBytes)
    (invalidBind "router selection packed expert span overflow")
  refuseIf (bind.packedExpertStrideBytes < minimumExpertBytes)
    (invalidBind "router selection packed expert stride is smaller than its block span")

def inputSpan (bind : RouterSelectionBind) : Except KernelBodyError Nat :=
  okOr (checkedSpan bind.rows bind.inputRowStride bind.k)
    (invalidBind "router selection input span overflow")

def weightSpan (bind : RouterSelectionBind) : Except KernelBodyError Nat := do
  let perExpert ← okOr (mulWord (bind.k / bind.format.blockElements) bind.format.blockBytes)
    (invalidBind "router selection packed expert span overflow")
  okOr (checkedSpan bind.experts bind.packedExpertStrideBytes perExpert)
    (invalidBind "router selection weight span overflow")

def selectionSpan (bind : RouterSelectionBind) : Except KernelBodyError Nat :=
  okOr (mulWord bind.rows bind.active) (invalidBind "router selection span overflow")

end RouterSelectionBind

def checkedBuffer (name : String) (required actual : Nat) : Except KernelBodyError Unit :=
  refuseIf (required > actual) (bufferTooShort name required actual)

/-- The buffers a router writes. -/
structure RouterOutputs (F : Type) where
  ids : List UInt32
  weights : List F
  deriving Inhabited

namespace RouterOutputs

/-- `[lo..hi]` of both buffers. -/
def row (lo hi : Nat) (outputs : RouterOutputs F) : RouterOutputs F :=
  ⟨(outputs.ids.drop lo).take (hi - lo), (outputs.weights.drop lo).take (hi - lo)⟩

def setRow (lo hi : Nat) (outputs row : RouterOutputs F) : RouterOutputs F :=
  ⟨replaceSlice outputs.ids lo hi row.ids, replaceSlice outputs.weights lo hi row.weights⟩

end RouterOutputs

/-- A body on `&mut expert_ids[lo..hi]` and `&mut expert_weights[lo..hi]`. -/
def inRow (lo hi : Nat) (c : Body (RouterOutputs F) Unit) : Body (RouterOutputs F) Unit :=
  fun outputs =>
    if hi ≤ wordMax ∧ lo ≤ hi ∧ hi ≤ outputs.ids.length ∧ hi ≤ outputs.weights.length then
      within (RouterOutputs.row lo hi) (RouterOutputs.setRow lo hi) c outputs
    else none

/-- `expert_ids[slot] = id; expert_weights[slot] = weight`. -/
def writeSlot (slot : Nat) (id : UInt32) (weight : F) : Body (RouterOutputs F) Unit :=
  fun row =>
    if slot < row.ids.length ∧ slot < row.weights.length then
      some (.ok (), ⟨row.ids.set slot id, row.weights.set slot weight⟩)
    else none

section Bodies

variable [F32 F]

/-- The comparison of the ranking: larger logits first, then lower ids. -/
def rankLe (left right : Nat × F) : Bool :=
  ((F32.partialCmp right.2 left.2).getD .eq).then (compare left.1 right.1) != .gt

/-- `logits.iter().copied().enumerate()`. -/
def enumerate (logits : List F) : List (Nat × F) := logits.zipIdx.map Prod.swap

/-- The experts a row selects, with their softmax weights. -/
def selection (logits : List F) (active : Nat) : MayPanic (List (Nat × F)) := do
  let ranked := ((enumerate logits).mergeSort rankLe).take active
  let first ← ranked[0]?
  let weights := ranked.map fun entry => F32.exp (entry.2 - first.2)
  let normalizer := F32.sum weights
  some ((ranked.zip weights).map fun entry => (entry.1.1, entry.2 / normalizer))

def selectRow (logits : List F) (active row : Nat) : Body (RouterOutputs F) Unit := do
  match logits.findIdx? fun value => !F32.isFinite value with
  | some expert => Call.throw (nonFiniteLogit row expert)
  | none =>
    let selected ← Call.value (selection logits active)
    Call.forEach selected.zipIdx fun entry =>
      writeSlot entry.2 (UInt32.ofNat entry.1.1) entry.1.2

/-- The logit of an expert for a row. -/
def routerLogit (bind : RouterSelectionBind) (activation : List F) (routerWeight : List UInt8)
    (row expert : Nat) : Body σ F :=
  foldRange (bind.k / bind.format.blockElements) 0 fun logit blockIndex => do
    let blockBase := expert * bind.packedExpertStrideBytes + blockIndex * bind.format.blockBytes
    let block ← fetchSlice routerWeight blockBase (blockBase + bind.format.blockBytes)
    let activationBase := row * bind.inputRowStride + blockIndex * bind.format.blockElements
    foldRange bind.format.blockElements logit fun logit element => do
      let weight ← blockValue bind.format block element
      let x ← fetch activation (activationBase + element)
      pure (logit + x * weight)

/-- The logits of a row. -/
def routerLogits (bind : RouterSelectionBind) (activation : List F) (routerWeight : List UInt8)
    (row : Nat) : Body σ (List F) :=
  (List.range bind.experts).mapM (routerLogit bind activation routerWeight row)

/-- The rows of `router_selection`. -/
def routerRows (bind : RouterSelectionBind) (activation : List F) (routerWeight : List UInt8) :
    Body (RouterOutputs F) Unit :=
  forRange bind.rows fun row => do
    let logits ← routerLogits bind activation routerWeight row
    inRow (row * bind.active) ((row + 1) * bind.active) (selectRow logits bind.active row)

def routerSelection (bind : RouterSelectionBind) (activation : List F)
    (routerWeight : List UInt8) : Body (RouterOutputs F) Unit := do
  check bind.validate
  let inputSpan ← check bind.inputSpan
  let weightSpan ← check bind.weightSpan
  let selectionSpan ← check bind.selectionSpan
  let outputs ← Call.get
  check (checkedBuffer "router selection activation" inputSpan activation.length)
  check (checkedBuffer "router selection packed weights" weightSpan routerWeight.length)
  check (checkedBuffer "router selection expert ids" selectionSpan outputs.ids.length)
  check (checkedBuffer "router selection expert weights" selectionSpan outputs.weights.length)
  let _ : List F ← Call.value (zeroed bind.experts)
  routerRows bind activation routerWeight

/-! ## What a row is written -/

omit [F32 F] in
theorem length_enumerate (logits : List F) : (enumerate logits).length = logits.length := by
  rw [enumerate, List.length_map, List.length_zipIdx]

/-- A row that has enough logits selects as many experts as it is asked for. -/
theorem selection_returns {logits : List F} {active : Nat} (hpos : 1 ≤ active)
    (hle : active ≤ logits.length) : ∃ chosen, selection logits active = some chosen ∧
      chosen.length = active ∧
      chosen.map Prod.fst = (((enumerate logits).mergeSort rankLe).take active).map Prod.fst := by
  have hlength : (((enumerate logits).mergeSort rankLe).take active).length = active := by
    rw [List.length_take, List.length_mergeSort, length_enumerate]
    omega
  unfold selection
  generalize ((enumerate logits).mergeSort rankLe).take active = ranked at hlength ⊢
  have hfirst : ∃ first, ranked[0]? = some first :=
    ⟨_, List.getElem?_eq_getElem (by omega)⟩
  obtain ⟨first, hfirst⟩ := hfirst
  simp only [hfirst, Option.bind_eq_bind, Option.bind_some, Option.some.injEq, exists_eq_left']
  refine ⟨?_, ?_⟩
  · rw [List.length_map, List.length_zip, List.length_map]
    omega
  · rw [List.map_map]
    change (ranked.zip _).map (Prod.fst ∘ Prod.fst) = _
    rw [← List.map_map, List.map_fst_zip (by rw [List.length_map])]

omit [F32 F] in
/-- Writing the slots of a row from the first on leaves what was written. -/
theorem writeSlots_wp {E : KernelBodyError → RouterOutputs F → Prop} {row : RouterOutputs F}
    {chosen : List (Nat × F)} (hids : row.ids.length = chosen.length)
    (hweights : row.weights.length = chosen.length) :
    wp False (Call.forEach chosen.zipIdx fun entry =>
        writeSlot entry.2 (UInt32.ofNat entry.1.1) entry.1.2)
      (fun _ after => after = ⟨chosen.map fun entry => UInt32.ofNat entry.1,
        chosen.map Prod.snd⟩) E row := by
  refine wp_mono (wp_forEach (fun (done : List ((Nat × F) × Nat)) after =>
    after = ⟨done.map (fun entry => UInt32.ofNat entry.1.1) ++ row.ids.drop done.length,
      done.map (fun entry => entry.1.2) ++ row.weights.drop done.length⟩) ?_ rfl) ?_
    fun _ _ he => he
  · intro done entry rest after hsplit hafter
    have hslot : entry.2 = done.length := by
      have hget := congrArg (·[done.length]?) hsplit
      simp only [List.getElem?_zipIdx, List.getElem?_append_right (Nat.le_refl _), Nat.sub_self,
        List.getElem?_cons_zero, Nat.zero_add] at hget
      obtain ⟨_, -, rfl⟩ := Option.map_eq_some_iff.mp hget
      rfl
    have hroom : done.length < chosen.length := by
      have hlength := congrArg List.length hsplit
      rw [List.length_zipIdx, List.length_append, List.length_cons] at hlength
      omega
    have hset : ∀ {β : Type} (front tail : List β) (b : β), front.length = done.length →
        done.length < tail.length →
        (front ++ tail.drop done.length).set done.length b =
          front ++ [b] ++ tail.drop (done.length + 1) := by
      intro β front tail b hfront htail
      rw [List.set_append_right _ _ (by omega), hfront, Nat.sub_self,
        List.drop_eq_getElem_cons htail, List.set_cons_zero, List.append_assoc]
      rfl
    rw [wp, writeSlot, hafter, hslot, if_pos (by simp; omega)]
    simp only [List.map_append, List.map_cons, List.map_nil, List.length_append, List.length_cons,
      List.length_nil, Nat.zero_add]
    rw [hset _ _ _ (by rw [List.length_map]) (by omega),
      hset _ _ _ (by rw [List.length_map]) (by omega)]
  · intro _ after hafter
    have hidx : chosen.zipIdx.map Prod.fst = chosen := List.zipIdx_map_fst 0 chosen
    rw [hafter, List.length_zipIdx, ← hids, List.drop_length, hids, ← hweights, List.drop_length,
      List.append_nil, List.append_nil]
    conv_rhs => rw [← hidx]
    rw [List.map_map, List.map_map]
    rfl

theorem selectRow_wp {logits : List F} {active row : Nat} {outputs : RouterOutputs F}
    (hpos : 1 ≤ active) (hle : active ≤ logits.length) (hids : outputs.ids.length = active)
    (hweights : outputs.weights.length = active) :
    wp False (selectRow logits active row)
      (fun _ after => (∀ value ∈ logits, F32.isFinite value = true) ∧
        ∃ chosen, selection logits active = some chosen ∧ chosen.length = active ∧
          after = ⟨chosen.map fun entry => UInt32.ofNat entry.1, chosen.map Prod.snd⟩)
      (fun _ after => after = outputs ∧ ∃ value ∈ logits, F32.isFinite value = false)
      outputs := by
  unfold selectRow
  cases hfind : logits.findIdx? fun value => !F32.isFinite value with
  | some expert =>
    refine ⟨rfl, ?_⟩
    obtain ⟨hexpert, hbad, -⟩ := List.findIdx?_eq_some_iff_getElem.mp hfind
    exact ⟨_, List.getElem_mem hexpert, by simpa using hbad⟩
  | none =>
    have hfinite : ∀ value ∈ logits, F32.isFinite value = true := by
      intro value hvalue
      simpa using List.findIdx?_eq_none_iff.mp hfind value hvalue
    obtain ⟨chosen, hchosen, hlength, -⟩ := selection_returns hpos hle
    refine wp_of_value hchosen ?_
    refine wp_mono (writeSlots_wp (E := fun _ _ => False) (by omega) (by omega)) ?_
      fun _ _ he => he.elim
    intro _ after hafter
    exact ⟨hfinite, chosen, hchosen, hlength, hafter⟩

/-! ## Every row of a run -/

/-- The buffers hold what a router addresses. -/
structure RouterSelectionBind.Held (bind : RouterSelectionBind) (activationLength weightLength
    idCount weightCount : Nat) : Prop where
  rows_pos : 1 ≤ bind.rows
  active_pos : 1 ≤ bind.active
  active_le : bind.active ≤ bind.experts
  aligned : bind.k % bind.format.blockElements = 0
  input : (bind.rows - 1) * bind.inputRowStride + bind.k ≤ activationLength
  inputWord : (bind.rows - 1) * bind.inputRowStride + bind.k ≤ wordMax
  weight : (bind.experts - 1) * bind.packedExpertStrideBytes +
    bind.k / bind.format.blockElements * bind.format.blockBytes ≤ weightLength
  weightWord : (bind.experts - 1) * bind.packedExpertStrideBytes +
    bind.k / bind.format.blockElements * bind.format.blockBytes ≤ wordMax
  selectionWord : bind.rows * bind.active ≤ wordMax
  ids : bind.rows * bind.active ≤ idCount
  weights : bind.rows * bind.active ≤ weightCount

variable {bind : RouterSelectionBind} {activation : List F} {routerWeight : List UInt8}
  {before after : RouterOutputs F}

theorem routerLogit_gives {idCount weightCount row expert : Nat}
    (hheld : bind.Held activation.length routerWeight.length idCount weightCount)
    (hrow : row < bind.rows) (hexpert : expert < bind.experts) :
    Gives (routerLogit bind activation routerWeight row expert : Body σ F) fun _ => True := by
  have hinput := hheld.input
  have hinputWord := hheld.inputWord
  have hweight := hheld.weight
  have hweightWord := hheld.weightWord
  have hwhole := Nat.div_mul_cancel (Nat.dvd_of_mod_eq_zero hheld.aligned)
  have hrows := mul_le_span bind.inputRowStride hrow
  have hexperts := mul_le_span bind.packedExpertStrideBytes hexpert
  refine Gives.foldRange (fun _ _ => True) ?_ trivial
  intro block hblock logit _
  have hbytes : (block + 1) * bind.format.blockBytes ≤
      bind.k / bind.format.blockElements * bind.format.blockBytes := Nat.mul_le_mul_right _ hblock
  have helements : (block + 1) * bind.format.blockElements ≤
      bind.k / bind.format.blockElements * bind.format.blockElements :=
    Nat.mul_le_mul_right _ hblock
  rw [Nat.add_mul, Nat.one_mul] at hbytes helements
  refine (fetchSlice_gives (by omega) (by omega) (by omega)).bind fun bytes hslice => ?_
  refine Gives.foldRange (fun _ _ => True) ?_ trivial
  intro element helement logit _
  refine (blockValue_gives ?_ helement).bind fun weight _ => ?_
  · rw [hslice, List.length_take, List.length_drop]
    omega
  · exact (fetch_gives (by omega) (by omega)).bind fun x _ => .pure trivial

/-- What a run has written of a row: the experts it chose from the row's logits. -/
structure RowRouted (bind : RouterSelectionBind) (activation : List F) (routerWeight : List UInt8)
    (after : RouterOutputs F) (row : Nat) (logits : List F) (chosen : List (Nat × F)) : Prop where
  run : (routerLogits bind activation routerWeight row : Body (RouterOutputs F) (List F)) =
    pure logits
  count : logits.length = bind.experts
  finite : ∀ value ∈ logits, F32.isFinite value = true
  selected : selection logits bind.active = some chosen
  ids : ∀ slot < bind.active, after.ids[row * bind.active + slot]? =
    chosen[slot]?.map fun entry => UInt32.ofNat entry.1
  weights : ∀ slot < bind.active, after.weights[row * bind.active + slot]? =
    chosen[slot]?.map Prod.snd

/-- The rows a run has written. -/
structure Routed (bind : RouterSelectionBind) (activation : List F) (routerWeight : List UInt8)
    (before after : RouterOutputs F) (count : Nat) : Prop where
  ids : after.ids.length = before.ids.length
  weights : after.weights.length = before.weights.length
  row : ∀ row < count, ∃ logits chosen,
    RowRouted bind activation routerWeight after row logits chosen

/-- Some logit of some row is not finite. -/
def NonFinite (bind : RouterSelectionBind) (activation : List F) (routerWeight : List UInt8) :
    Prop :=
  ∃ row < bind.rows, ∃ logits, (routerLogits bind activation routerWeight row :
    Body (RouterOutputs F) (List F)) = pure logits ∧ ∃ value ∈ logits, F32.isFinite value = false

theorem routerRows_wp
    (hheld : bind.Held activation.length routerWeight.length before.ids.length
      before.weights.length) :
    wp False (routerRows bind activation routerWeight)
      (fun _ after => Routed bind activation routerWeight before after bind.rows)
      (fun _ _ => NonFinite bind activation routerWeight) before := by
  have hids := hheld.ids
  have hweights := hheld.weights
  have hword := hheld.selectionWord
  refine wp_forRange (fun count after =>
    Routed bind activation routerWeight before after count) ?_ ⟨rfl, rfl, by simp⟩
  intro row hrow after hafter
  have hlogits : Gives (routerLogits bind activation routerWeight row :
      Body (RouterOutputs F) (List F)) (·.length = bind.experts) := by
    refine (Gives.mapM (R := fun _ _ => True) ?_).mono fun logits h => ?_
    · intro expert hexpert
      exact routerLogit_gives hheld hrow (List.mem_range.mp hexpert)
    · rw [← h.length_eq, List.length_range]
  obtain ⟨logits, hrun, hcount⟩ := hlogits
  rw [hrun, pure_bind]
  -- the row's slices lie within the buffers
  have hend : (row + 1) * bind.active ≤ bind.rows * bind.active := Nat.mul_le_mul_right _ hrow
  have hwidth : (row + 1) * bind.active - row * bind.active = bind.active := by
    rw [Nat.add_mul, Nat.one_mul, Nat.add_sub_cancel_left]
  have hstart : row * bind.active ≤ (row + 1) * bind.active :=
    Nat.mul_le_mul_right _ (Nat.le_succ row)
  have hidRoom : (row + 1) * bind.active ≤ after.ids.length := by
    rw [hafter.ids]
    omega
  have hweightRoom : (row + 1) * bind.active ≤ after.weights.length := by
    rw [hafter.weights]
    omega
  rw [wp, inRow, if_pos ⟨by omega, hstart, hidRoom, hweightRoom⟩]
  refine wp_within.mpr (wp_mono (selectRow_wp hheld.active_pos (by rw [hcount]; exact
    hheld.active_le) ?_ ?_) ?_ ?_)
  · simp only [RouterOutputs.row, List.length_take, List.length_drop]
    omega
  · simp only [RouterOutputs.row, List.length_take, List.length_drop]
    omega
  · intro _ slices hselected
    obtain ⟨hfinite, chosen, hchosen, hlength, rfl⟩ := hselected
    have hidBlock : (chosen.map fun entry => UInt32.ofNat entry.1).length =
        (row + 1) * bind.active - row * bind.active := by
      rw [List.length_map]
      omega
    have hweightBlock : (chosen.map Prod.snd).length =
        (row + 1) * bind.active - row * bind.active := by
      rw [List.length_map]
      omega
    refine ⟨?_, ?_, ?_⟩
    · exact (length_replaceSlice hstart hidRoom hidBlock).trans hafter.ids
    · exact (length_replaceSlice hstart hweightRoom hweightBlock).trans hafter.weights
    · intro earlier hearlier
      by_cases hsame : earlier = row
      · subst hsame
        refine ⟨logits, chosen, hrun, hcount, hfinite, hchosen, ?_, ?_⟩
        · intro slot hslot
          rw [← List.getElem?_map]
          exact getElem?_replaceSlice_inside hstart hidRoom hidBlock (by omega)
        · intro slot hslot
          rw [← List.getElem?_map]
          exact getElem?_replaceSlice_inside hstart hweightRoom hweightBlock (by omega)
      · obtain ⟨logits', chosen', hrouted⟩ := hafter.row earlier (by omega)
        have hbelow : ∀ slot < bind.active, earlier * bind.active + slot < row * bind.active := by
          intro slot hslot
          exact row_place_lt (by omega) hslot
        refine ⟨logits', chosen', hrouted.run, hrouted.count, hrouted.finite, hrouted.selected,
          ?_, ?_⟩
        · intro slot hslot
          rw [← hrouted.ids slot hslot]
          exact getElem?_replaceSlice_outside hstart hidRoom hidBlock (.inl (hbelow slot hslot))
        · intro slot hslot
          rw [← hrouted.weights slot hslot]
          exact getElem?_replaceSlice_outside hstart hweightRoom hweightBlock
            (.inl (hbelow slot hslot))
  · intro _ _ hbad
    exact ⟨row, hrow, logits, hrun, hbad.2⟩

theorem of_routerSelection_ok
    (h : routerSelection bind activation routerWeight before = some (.ok (), after)) :
    bind.Held activation.length routerWeight.length before.ids.length before.weights.length ∧
      Routed bind activation routerWeight before after bind.rows := by
  suffices hrun : wp True (routerSelection bind activation routerWeight) (fun _ after =>
      bind.Held activation.length routerWeight.length before.ids.length before.weights.length ∧
        Routed bind activation routerWeight before after bind.rows) (fun _ _ => True) before by
    have hend := wp_of_ok hrun h
    exact hend
  refine wp_of_check ?_ fun _ _ => trivial
  intro _ hvalidate
  simp only [RouterSelectionBind.validate, Lib.bind_ok_iff, refuseIf_eq_ok_iff, not_or]
    at hvalidate
  obtain ⟨_, ⟨hrows, -, -, hpos⟩, _, hle, _, -, _, -, _, -, _, haligned, -⟩ := hvalidate
  refine wp_of_check ?_ fun _ _ => trivial
  intro inputSpan hinput
  refine wp_of_check ?_ fun _ _ => trivial
  intro weightSpan hweight
  refine wp_of_check ?_ fun _ _ => trivial
  intro selectionSpan hselection
  simp only [RouterSelectionBind.inputSpan, RouterSelectionBind.weightSpan,
    RouterSelectionBind.selectionSpan, Lib.bind_ok_iff, okOr_eq_ok_iff, checkedSpan_eq_some_iff,
    mulWord_eq_some_iff] at hinput hweight hselection
  obtain ⟨-, hinputWord, rfl⟩ := hinput
  obtain ⟨_, ⟨-, rfl⟩, -, hweightWord, rfl⟩ := hweight
  obtain ⟨hselectionWord, rfl⟩ := hselection
  rw [Call.wp_bind, wp_get]
  refine wp_of_check ?_ fun _ _ => trivial
  intro _ hinputRoom
  refine wp_of_check ?_ fun _ _ => trivial
  intro _ hweightRoom
  refine wp_of_check ?_ fun _ _ => trivial
  intro _ hids
  refine wp_of_check ?_ fun _ _ => trivial
  intro _ hweights
  simp only [checkedBuffer, refuseIf_eq_ok_iff, gt_iff_lt, Nat.not_lt] at hinputRoom hweightRoom
  simp only [checkedBuffer, refuseIf_eq_ok_iff, gt_iff_lt, Nat.not_lt] at hids hweights
  have hheld : bind.Held activation.length routerWeight.length before.ids.length
      before.weights.length :=
    ⟨by omega, by omega, by omega, by omega, hinputRoom, hinputWord, hweightRoom, hweightWord,
      hselectionWord, hids, hweights⟩
  rw [Call.wp_bind, wp_value]
  refine ⟨fun _ => trivial, fun _ _ => ?_⟩
  refine wp_mono (wp_of_total (routerRows_wp hheld)) ?_ fun _ _ _ => trivial
  exact fun _ _ hrouted => ⟨hheld, hrouted⟩

/-! ## The order of the experts -/

/-- What `partial_cmp` goes by: finite values stand for numbers. -/
structure Numbers (F : Type) [F32 F] where
  value : F → ℚ
  partialCmp_eq : ∀ a b, F32.isFinite a = true → F32.isFinite b = true →
    F32.partialCmp a b = some (compare (value a) (value b))

/-- Descending logit, ascending id. -/
def Precedes (numbers : Numbers F) (logits : List F) (a b : Nat) : Prop :=
  numbers.value (logits.getD b 0) < numbers.value (logits.getD a 0) ∨
    (numbers.value (logits.getD a 0) = numbers.value (logits.getD b 0) ∧ a < b)

instance (numbers : Numbers F) (logits : List F) : DecidableRel (Precedes numbers logits) :=
  fun _ _ => inferInstanceAs (Decidable (_ ∨ _ ∧ _))

theorem Precedes.asymm {numbers : Numbers F} {logits : List F} {a b : Nat}
    (h : Precedes numbers logits a b) : ¬Precedes numbers logits b a := by
  intro h'
  rcases h with hlt | ⟨heq, hid⟩
  · rcases h' with hlt' | ⟨heq', -⟩
    · exact lt_asymm hlt hlt'
    · exact hlt.ne heq'
  · rcases h' with hlt' | ⟨-, hid'⟩
    · exact hlt'.ne heq
    · omega

theorem rankLe_iff (numbers : Numbers F) {p q : Nat × F} (hp : F32.isFinite p.2 = true)
    (hq : F32.isFinite q.2 = true) : rankLe p q = true ↔
      numbers.value q.2 < numbers.value p.2 ∨
        (numbers.value p.2 = numbers.value q.2 ∧ p.1 ≤ q.1) := by
  rw [rankLe, numbers.partialCmp_eq _ _ hq hp, Option.getD_some]
  rcases lt_trichotomy (numbers.value q.2) (numbers.value p.2) with hlt | heq | hgt
  · simp [compare_lt_iff_lt.mpr hlt, hlt]
  · rw [heq, compare_eq_iff_eq.mpr rfl]
    simp [Ordering.then, compare_gt_iff_gt]
  · rw [compare_gt_iff_gt.mpr hgt]
    simp [hgt.le, hgt.ne]

omit [F32 F] in
theorem mem_enumerate {logits : List F} {p : Nat × F} :
    p ∈ enumerate logits ↔ logits[p.1]? = some p.2 := by
  obtain ⟨i, x⟩ := p
  simp [enumerate, List.mem_zipIdx_iff_getElem?]

omit [F32 F] in
theorem enumerate_map_fst (logits : List F) :
    (enumerate logits).map Prod.fst = List.range logits.length := by
  rw [enumerate, List.map_map]
  change logits.zipIdx.map Prod.snd = _
  rw [List.zipIdx_map_snd, List.range_eq_range']

theorem firstInOrder_ranked (numbers : Numbers F) {logits : List F} {active : Nat}
    (hfinite : ∀ value ∈ logits, F32.isFinite value = true) (hle : active ≤ logits.length) :
    FirstInOrder (Precedes numbers logits) (List.range logits.length) active
      ((((enumerate logits).mergeSort rankLe).take active).map Prod.fst) := by
  have hentry : ∀ p ∈ enumerate logits, F32.isFinite p.2 = true := fun p hp =>
    hfinite _ (List.mem_of_getElem? (mem_enumerate.mp hp))
  have htrans : ∀ p ∈ enumerate logits, ∀ q ∈ enumerate logits, ∀ s ∈ enumerate logits,
      rankLe p q = true → rankLe q s = true → rankLe p s = true := by
    intro p hp q hq s hs hpq hqs
    rw [rankLe_iff numbers (hentry p hp) (hentry q hq)] at hpq
    rw [rankLe_iff numbers (hentry q hq) (hentry s hs)] at hqs
    rw [rankLe_iff numbers (hentry p hp) (hentry s hs)]
    rcases hpq with hpq | ⟨hpq, hid⟩
    · rcases hqs with hqs | ⟨hqs, -⟩
      · exact .inl (hqs.trans hpq)
      · exact .inl (hqs ▸ hpq)
    · rcases hqs with hqs | ⟨hqs, hid'⟩
      · exact .inl (hpq ▸ hqs)
      · exact .inr ⟨hpq.trans hqs, hid.trans hid'⟩
  have htotal : ∀ p ∈ enumerate logits, ∀ q ∈ enumerate logits,
      rankLe p q = true ∨ rankLe q p = true := by
    intro p hp q hq
    rw [rankLe_iff numbers (hentry p hp) (hentry q hq),
      rankLe_iff numbers (hentry q hq) (hentry p hp)]
    rcases lt_trichotomy (numbers.value p.2) (numbers.value q.2) with hlt | heq | hgt
    · exact .inr (.inl hlt)
    · rcases Nat.le_total p.1 q.1 with hid | hid
      · exact .inl (.inr ⟨heq, hid⟩)
      · exact .inr (.inr ⟨heq.symm, hid⟩)
    · exact .inl (.inl hgt)
  have hfirst : FirstInOrder (fun p q => rankLe p q = true) (enumerate logits) active _ :=
    firstInOrder_take_mergeSort htrans htotal (by rw [length_enumerate]; exact hle)
  obtain ⟨rest, hperm, hpairwise, hlength⟩ := hfirst
  have hids := (hperm.map Prod.fst).trans (.of_eq (enumerate_map_fst logits))
  rw [List.map_append] at hids
  refine ⟨rest.map Prod.fst, hids, ?_, by rw [List.length_map, hlength]⟩
  have hdistinct := hids.nodup_iff.mpr List.nodup_range
  rw [← List.map_append] at hdistinct ⊢
  rw [List.pairwise_map]
  refine (hpairwise.and (List.pairwise_map.mp hdistinct)).imp_of_mem ?_
  intro p q hp hq hpq
  have hp := hperm.mem_iff.mp hp
  have hq := hperm.mem_iff.mp hq
  obtain ⟨hrank, hne⟩ := hpq
  rw [Precedes, List.getD_eq_getElem?_getD, List.getD_eq_getElem?_getD, mem_enumerate.mp hp,
    mem_enumerate.mp hq]
  rcases (rankLe_iff numbers (hentry p hp) (hentry q hq)).mp hrank with hlt | ⟨heq, hid⟩
  · exact .inl hlt
  · exact .inr ⟨heq, by omega⟩

/-! ## The router and the grouped body on the same buffers -/

/-- What a router wrote for a row: the buffers are `[rows, active]`. -/
def writtenRow (bind : RouterSelectionBind) (after : RouterOutputs F) (row : Nat) :
    List (UInt32 × F) :=
  ((after.ids.drop (row * bind.active)).take bind.active).zip
    ((after.weights.drop (row * bind.active)).take bind.active)

/-- The grouped body admits the width of the buffers and reads, slot by slot, what the router
    wrote for each row. -/
def ReadsAsWritten (bind : RouterSelectionBind) (gemm : GroupedExpertGemmBind)
    (after : RouterOutputs F) : Prop :=
  ∃ span width, mulWord gemm.rows (after.ids.length / gemm.rows) = some span ∧
    dispatchWidth gemm after.ids after.weights span = .ok width ∧
    ∀ row < gemm.rows,
      ((List.range width).mapM (dispatchSlot after.ids after.weights width row) :
        Body (List F) (List (UInt32 × F))) = pure (writtenRow bind after row)

/-- The ids written for every row are distinct and the first of the experts in the order of
    the row's logits. -/
def SelectsFirst (numbers : Numbers F) (bind : RouterSelectionBind) (activation : List F)
    (routerWeight : List UInt8) (after : RouterOutputs F) : Prop :=
  ∀ row < bind.rows, ∃ logits, (routerLogits bind activation routerWeight row :
      Body (RouterOutputs F) (List F)) = pure logits ∧
    ((writtenRow bind after row).map (·.1.toNat)).Nodup ∧
    FirstInOrder (Precedes numbers logits) (List.range bind.experts) bind.active
      ((writtenRow bind after row).map (·.1.toNat))

/-- In every row enough experts precede each whose number is no `u32`. -/
def ExpertsFit (numbers : Numbers F) (bind : RouterSelectionBind) (activation : List F)
    (routerWeight : List UInt8) : Prop :=
  ∀ row < bind.rows, ∀ logits, (routerLogits bind activation routerWeight row :
      Body (RouterOutputs F) (List F)) = pure logits →
    ∀ expert < bind.experts, 2 ^ 32 ≤ expert →
      bind.active ≤ (List.range bind.experts).countP
        (fun other => decide (Precedes numbers logits other expert))

section Rows

variable {gemm : GroupedExpertGemmBind} {row : Nat}

omit [F32 F] in
theorem row_end_le {rows active length : Nat} (hlength : rows * active ≤ length)
    (hrow : row < rows) : row * active + active ≤ length := by
  have hnext : (row + 1) * active ≤ rows * active := Nat.mul_le_mul_right _ hrow
  rw [Nat.add_mul, Nat.one_mul] at hnext
  omega

omit [F32 F] in
theorem length_writtenRow (hids : bind.rows * bind.active ≤ after.ids.length)
    (hweights : bind.rows * bind.active ≤ after.weights.length) (hrow : row < bind.rows) :
    (writtenRow bind after row).length = bind.active := by
  have hidEnd := row_end_le hids hrow
  have hweightEnd := row_end_le hweights hrow
  simp only [writtenRow, List.length_zip, List.length_take, List.length_drop]
  omega

theorem RowRouted.writtenRow_eq {logits : List F} {chosen : List (Nat × F)}
    (h : RowRouted bind activation routerWeight after row logits chosen)
    (hlength : chosen.length = bind.active) :
    writtenRow bind after row = chosen.map fun entry => (UInt32.ofNat entry.1, entry.2) := by
  have hids : (after.ids.drop (row * bind.active)).take bind.active =
      chosen.map fun entry => UInt32.ofNat entry.1 := by
    apply List.ext_getElem?
    intro slot
    by_cases hslot : slot < bind.active
    · rw [List.getElem?_take_of_lt hslot, List.getElem?_drop, h.ids slot hslot, List.getElem?_map]
    · rw [List.getElem?_take_eq_none (by omega), List.getElem?_eq_none (by simp; omega)]
  have hweights : (after.weights.drop (row * bind.active)).take bind.active =
      chosen.map Prod.snd := by
    apply List.ext_getElem?
    intro slot
    by_cases hslot : slot < bind.active
    · rw [List.getElem?_take_of_lt hslot, List.getElem?_drop, h.weights slot hslot,
        List.getElem?_map]
    · rw [List.getElem?_take_eq_none (by omega), List.getElem?_eq_none (by simp; omega)]
  rw [writtenRow, hids, hweights, List.zip_map']

omit [F32 F] in
/-- What the grouped body reads of buffers that hold a row of its width. -/
theorem dispatchRow_gives {width : Nat} (hids : row * width + width ≤ after.ids.length)
    (hweights : row * width + width ≤ after.weights.length)
    (hword : row * width + width ≤ wordMax) :
    Gives ((List.range width).mapM (dispatchSlot after.ids after.weights width row) :
        Body (List F) (List (UInt32 × F)))
      (List.Forall₂ (fun slot selected => after.ids[row * width + slot]? = some selected.1 ∧
        after.weights[row * width + slot]? = some selected.2) (List.range width)) := by
  refine Gives.mapM ?_
  intro slot hslot
  have hslot := List.mem_range.mp hslot
  exact dispatchSlot_gives (by omega) (by omega) (by omega)

omit [F32 F] in
/-- The grouped body reads what was written exactly where the buffers have no more than the
    rows. -/
theorem readsAsWritten_iff (hrows : gemm.rows = bind.rows) (hexperts : gemm.experts = bind.experts)
    (hpos : 1 ≤ bind.rows) (hactive : 1 ≤ bind.active) (hle : bind.active ≤ bind.experts)
    (hword : bind.rows * bind.active ≤ wordMax)
    (hids : bind.rows * bind.active ≤ after.ids.length)
    (hweights : bind.rows * bind.active ≤ after.weights.length) :
    ReadsAsWritten bind gemm after ↔ after.ids.length = bind.rows * bind.active ∧
      after.weights.length = bind.rows * bind.active := by
  constructor
  · intro h
    obtain ⟨span, width, hspan, hwidth, hread⟩ := h
    have hdispatched := (dispatchWidth_eq_ok_iff (by omega) hspan).mp hwidth
    have hidCount := hdispatched.ids
    have hweightCount := hdispatched.weights
    obtain ⟨hspanWord, -⟩ := mulWord_eq_some_iff.mp hspan
    rw [hidCount, Nat.mul_div_cancel_left _ (by omega)] at hspanWord
    have hwhole : 0 * width + width ≤ gemm.rows * width := row_end_le (Nat.le_refl _) (by omega)
    obtain ⟨read, hrun, hforall⟩ := dispatchRow_gives
      (show 0 * width + width ≤ after.ids.length by omega)
      (show 0 * width + width ≤ after.weights.length by omega) (by omega)
    rw [hread 0 (by omega)] at hrun
    have hsame := congrArg List.length (pure_inj hrun)
    rw [length_writtenRow hids hweights (by omega), ← hforall.length_eq, List.length_range] at hsame
    rw [hidCount, hweightCount, hrows, ← hsame]
    exact ⟨rfl, rfl⟩
  · intro h
    obtain ⟨hidCount, hweightCount⟩ := h
    have hdiv : after.ids.length / gemm.rows = bind.active := by
      rw [hidCount, hrows, Nat.mul_div_cancel_left _ hpos]
    have hspan : mulWord gemm.rows (after.ids.length / gemm.rows) =
        some (bind.rows * bind.active) := by
      rw [hdiv, hrows]
      exact word_of_le hword
    refine ⟨_, bind.active, hspan, (dispatchWidth_eq_ok_iff (by omega) hspan).mpr
      ⟨by rw [hidCount, hrows], by rw [hweightCount, hrows], hactive, by omega⟩, ?_⟩
    intro row hrow
    rw [hrows] at hrow
    have hend : row * bind.active + bind.active ≤ bind.rows * bind.active :=
      row_end_le (Nat.le_refl _) hrow
    obtain ⟨read, hrun, hforall⟩ := dispatchRow_gives
      (show row * bind.active + bind.active ≤ after.ids.length by omega)
      (show row * bind.active + bind.active ≤ after.weights.length by omega) (by omega)
    rw [hrun]
    congr 1
    have hlength := hforall.length_eq
    rw [List.length_range] at hlength
    apply List.ext_getElem
    · rw [← hlength, length_writtenRow hids hweights hrow]
    · intro slot hslot hslot'
      have hselected := List.forall₂_iff_get.mp hforall |>.2 slot (by simpa using by omega) hslot
      simp only [List.get_eq_getElem, List.getElem_range] at hselected
      have hwritten : (writtenRow bind after row)[slot]? = some read[slot] := by
        refine List.getElem?_zip_eq_some.mpr ⟨?_, ?_⟩
        · rw [List.getElem?_take_of_lt (by omega), List.getElem?_drop]
          exact hselected.1
        · rw [List.getElem?_take_of_lt (by omega), List.getElem?_drop]
          exact hselected.2
      rw [List.getElem?_eq_getElem hslot'] at hwritten
      exact (Option.some.inj hwritten).symm

/-- The ids a run wrote for a row are the chosen experts as `u32` values. -/
theorem RowRouted.ids_eq {logits : List F} {chosen : List (Nat × F)}
    (h : RowRouted bind activation routerWeight after row logits chosen)
    (hlength : chosen.length = bind.active) :
    (writtenRow bind after row).map (·.1.toNat) = (chosen.map Prod.fst).map (· % 2 ^ 32) := by
  rw [h.writtenRow_eq hlength, List.map_map, List.map_map]
  apply List.map_congr_left
  intro entry _
  simp [UInt32.toNat_ofNat']

/-- The chosen experts of a row are the first in the order of its logits. -/
theorem RowRouted.firstInOrder (numbers : Numbers F) {logits : List F}
    {chosen : List (Nat × F)} (h : RowRouted bind activation routerWeight after row logits chosen)
    (hpos : 1 ≤ bind.active) (hle : bind.active ≤ bind.experts) :
    chosen.length = bind.active ∧ FirstInOrder (Precedes numbers logits)
      (List.range bind.experts) bind.active (chosen.map Prod.fst) := by
  have hcount := h.count
  obtain ⟨chosen', hchosen', hlength, hids⟩ := selection_returns hpos
    (show bind.active ≤ logits.length by omega)
  obtain rfl : chosen = chosen' := Option.some.inj (h.selected.symm.trans hchosen')
  have hfirst := firstInOrder_ranked numbers h.finite (show bind.active ≤ logits.length by omega)
  rw [hcount] at hfirst
  exact ⟨hlength, hids ▸ hfirst⟩

/-- The ids of every row are the first experts exactly where each of those fits a `u32`. -/
theorem selectsFirst_iff (numbers : Numbers F) (hpos : 1 ≤ bind.active)
    (hle : bind.active ≤ bind.experts)
    (hrouted : Routed bind activation routerWeight before after bind.rows) :
    SelectsFirst numbers bind activation routerWeight after ↔
      ExpertsFit numbers bind activation routerWeight := by
  have hasymm : ∀ logits, ∀ a ∈ List.range bind.experts, ∀ b ∈ List.range bind.experts,
      Precedes numbers logits a b → ¬Precedes numbers logits b a :=
    fun _ _ _ _ _ => Precedes.asymm
  constructor
  · intro h row hrow logits hlogits expert hexpert hlarge
    obtain ⟨logits', chosen, hrowRouted⟩ := hrouted.row row hrow
    obtain rfl : logits = logits' := pure_inj (hlogits.symm.trans hrowRouted.run)
    obtain ⟨hlength, hfirst⟩ := hrowRouted.firstInOrder numbers hpos hle
    obtain ⟨logits', hlogits', -, hwritten⟩ := h row hrow
    obtain rfl : logits = logits' := pure_inj (hlogits.symm.trans hlogits')
    rw [hrowRouted.ids_eq hlength] at hwritten
    have hsame := hfirst.unique (hasymm logits) hwritten
    by_contra hfew
    have hmem := (hfirst.mem_iff (hasymm logits) (List.mem_range.mpr hexpert)).mpr (by omega)
    rw [hsame] at hmem
    obtain ⟨other, -, hother⟩ := List.mem_map.mp hmem
    have hsmall := Nat.mod_lt other (show 0 < 2 ^ 32 by decide)
    omega
  · intro h row hrow
    obtain ⟨logits, chosen, hrowRouted⟩ := hrouted.row row hrow
    obtain ⟨hlength, hfirst⟩ := hrowRouted.firstInOrder numbers hpos hle
    have hids : (chosen.map Prod.fst).map (· % 2 ^ 32) = chosen.map Prod.fst := by
      conv_rhs => rw [← List.map_id (chosen.map Prod.fst)]
      apply List.map_congr_left
      intro expert hexpert
      refine Nat.mod_eq_of_lt ?_
      by_contra hlarge
      have hrange := hfirst.mem hexpert
      have hfew := (hfirst.mem_iff (hasymm logits) hrange).mp hexpert
      have hmany := h row hrow logits hrowRouted.run expert (List.mem_range.mp hrange) (by omega)
      omega
    refine ⟨logits, hrowRouted.run, ?_⟩
    rw [hrowRouted.ids_eq hlength, hids]
    exact ⟨hfirst.nodup List.nodup_range, hfirst⟩

end Rows

/-- The grouped body reads what the router wrote, which are the first experts of each row's
    order, exactly where the buffers hold no more than the rows and the experts fit. -/
theorem router_gemm_agree_iff (numbers : Numbers F) (bind : RouterSelectionBind)
    (gemm : GroupedExpertGemmBind) (activation : List F) (routerWeight : List UInt8)
    (before after : RouterOutputs F) (hrows : gemm.rows = bind.rows)
    (hexperts : gemm.experts = bind.experts)
    (haccepted : routerSelection bind activation routerWeight before = some (.ok (), after)) :
    ReadsAsWritten bind gemm after ∧ SelectsFirst numbers bind activation routerWeight after ↔
      (before.ids.length = bind.rows * bind.active ∧
        before.weights.length = bind.rows * bind.active) ∧
      ExpertsFit numbers bind activation routerWeight := by
  obtain ⟨hheld, hrouted⟩ := of_routerSelection_ok haccepted
  have hids := hheld.ids
  have hweights := hheld.weights
  rw [← hrouted.ids] at hids
  rw [← hrouted.weights] at hweights
  rw [readsAsWritten_iff hrows hexperts hheld.rows_pos hheld.active_pos hheld.active_le
    hheld.selectionWord hids hweights, selectsFirst_iff numbers hheld.active_pos hheld.active_le
    hrouted, hrouted.ids, hrouted.weights]

end Bodies

namespace OneActive

/-- Whole numbers compare as numbers. -/
def numbers : Numbers Int where
  value a := a
  partialCmp_eq a b _ _ := by
    rcases lt_trichotomy a b with hlt | heq | hgt
    · simp [F32.partialCmp, compare_lt_iff_lt.mpr hlt, compare_lt_iff_lt.mpr (Int.cast_lt.mpr hlt)]
    · simp [F32.partialCmp, heq]
    · simp [F32.partialCmp, compare_gt_iff_gt.mpr hgt, compare_gt_iff_gt.mpr (Int.cast_lt.mpr hgt)]

/-- One row, two experts and one active expert. -/
def bind : RouterSelectionBind :=
  ⟨1, 32, 2, 1, 32, 34, .q8_0, .packed, .replicate 3 1⟩

def gemm : GroupedExpertGemmBind :=
  ⟨1, 32, 1, 2, 32, 1, 34, 34, .q8_0, .rank3Experts, .replicate 3 1⟩

def activation : List Int := List.replicate 32 1

theorem accepted (before : RouterOutputs Int) (hids : 1 ≤ before.ids.length)
    (hweights : 1 ≤ before.weights.length) : ∃ after,
    routerSelection bind activation TwoExperts.packedWeights before = some (.ok (), after) := by
  have hheld : bind.Held activation.length TwoExperts.packedWeights.length before.ids.length
      before.weights.length :=
    ⟨by decide, by decide, by decide, by decide, by decide, by decide, by decide, by decide,
      by decide, hids, hweights⟩
  have hvalidate : bind.validate = .ok () := rfl
  have hinput : bind.inputSpan = .ok 32 := rfl
  have hweight : bind.weightSpan = .ok 68 := rfl
  have hselection : bind.selectionSpan = .ok 1 := rfl
  have hactivation : checkedBuffer "router selection activation" 32 activation.length = .ok () :=
    rfl
  have hpacked : checkedBuffer "router selection packed weights" 68
      TwoExperts.packedWeights.length = .ok () := rfl
  have hidRoom : checkedBuffer "router selection expert ids" 1 before.ids.length = .ok () :=
    refuseIf_of_not (by omega)
  have hweightRoom : checkedBuffer "router selection expert weights" 1 before.weights.length =
      .ok () := refuseIf_of_not (by omega)
  have hrun : wp False (routerSelection bind activation TwoExperts.packedWeights)
      (fun _ _ => True) (fun _ _ => False) before := by
    simp only [routerSelection, hvalidate, hinput, hweight, hselection, check_ok, pure_bind]
    rw [Call.wp_bind, wp_get]
    simp only [hactivation, hpacked, hidRoom, hweightRoom, check_ok, pure_bind]
    refine wp_of_value rfl (wp_mono (routerRows_wp hheld) (fun _ _ _ => trivial) ?_)
    intro e after hbad
    obtain ⟨row, -, logits, -, value, -, hfinite⟩ := hbad
    cases hfinite
  obtain ⟨_, after, hrows, -⟩ := wp_ok hrun
  exact ⟨after, hrows⟩

/-- With a place to spare the grouped body takes two entries for the row's one. -/
theorem spare_entry_read : ∃ after, routerSelection bind activation TwoExperts.packedWeights
      ⟨[0, 0], [0, 0]⟩ = some (.ok (), after) ∧
    ¬(ReadsAsWritten bind gemm after ∧
      SelectsFirst numbers bind activation TwoExperts.packedWeights after) := by
  obtain ⟨after, hrun⟩ := accepted ⟨[0, 0], [0, 0]⟩ (by decide) (by decide)
  refine ⟨after, hrun, fun hagree => ?_⟩
  obtain ⟨hheld, hrouted⟩ := of_routerSelection_ok hrun
  have hids : after.ids.length = 2 := hrouted.ids
  have hweights : after.weights.length = 2 := hrouted.weights
  have hreads := readsAsWritten_iff (show gemm.rows = bind.rows from rfl)
    (show gemm.experts = bind.experts from rfl) (by decide) (by decide) (by decide) (by decide)
    (show bind.rows * bind.active ≤ after.ids.length by rw [hids]; decide)
    (show bind.rows * bind.active ≤ after.weights.length by rw [hweights]; decide)
  have hexact := hreads.mp hagree.1
  rw [hids] at hexact
  exact absurd hexact.1 (by decide)

/-- With buffers of one entry the grouped body reads the expert the router chose. -/
theorem exact_entries_read : ∃ after, routerSelection bind activation TwoExperts.packedWeights
      ⟨[0], [0]⟩ = some (.ok (), after) ∧ ReadsAsWritten bind gemm after ∧
    SelectsFirst numbers bind activation TwoExperts.packedWeights after := by
  obtain ⟨after, hrun⟩ := accepted ⟨[0], [0]⟩ (by decide) (by decide)
  refine ⟨after, hrun, (router_gemm_agree_iff numbers bind gemm activation
    TwoExperts.packedWeights ⟨[0], [0]⟩ after rfl rfl hrun).mpr ⟨⟨rfl, rfl⟩, ?_⟩⟩
  intro row _ logits _ expert hexpert hlarge
  have hexperts : bind.experts = 2 := rfl
  omega

end OneActive

end FaberHosts.Library
