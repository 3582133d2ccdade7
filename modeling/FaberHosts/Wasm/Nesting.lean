import FaberHosts.Lib.Acyclic
import FaberHosts.Wasm.Display
import FaberHosts.Wasm.Literals

/-!
# Nested values

The handles that a display follows from a list, a map or an option to the values it holds.
Where following them ends, every display returns.
-/

namespace FaberHosts.Wasm
open FaberHosts.Lib

/-! ## The handles that are followed -/

/-- The handle that a display of an element follows. -/
def followedHandle (kinds : ValueKinds) (kind : UInt32) : RuntimeValue → Option UInt32
  | .handle handle => if kind ∈ [kinds.ptr, kinds.valor] then some handle else none
  | _ => none

def CollectionValue.links (kinds : ValueKinds) (collection : CollectionValue) : List UInt32 :=
  collection.values.filterMap (followedHandle kinds collection.kind)

def MapValue.links (kinds : ValueKinds) (map : MapValue) : List UInt32 :=
  map.entries.filterMap (fun entry => followedHandle kinds map.valueKind entry.2)

def OptionValue.links (kinds : ValueKinds) (option : OptionValue) : List UInt32 :=
  option.payload.toList.filterMap (followedHandle kinds option.kind)

namespace HostState

variable {κ μ : Type} (kinds : ValueKinds) (host : HostState κ μ)

/-- The handles in the value of a handle. -/
def links (handle : UInt32) : List UInt32 :=
  ((host.findCollection handle).map (CollectionValue.links kinds)).getD [] ++
    ((host.findMap handle).map (MapValue.links kinds)).getD [] ++
    ((host.findOption handle).map (OptionValue.links kinds)).getD []

/-- The handle is that of a literal whose display does not look at dynamic values. -/
def Shadowed (handle : UInt32) : Prop :=
  ∃ index row, handleIndex handle = some index ∧ host.rows[index]? = some row ∧
    (row.kind = .text ∧ (host.textArena[row.arena.toNat]?).isSome ∨
      row.kind = .octeti ∧ (host.octetiArena[row.arena.toNat]?).isSome)

/-- A display of the first handle follows the second one. -/
def Follows (a b : UInt32) : Prop := ¬ host.Shadowed a ∧ b ∈ host.links kinds a

variable {host} {handle : UInt32}

theorem not_shadowed (htext : host.resolveText handle = none)
    (hocteti : host.resolveOcteti handle = none) : ¬ host.Shadowed handle := by
  rintro ⟨index, row, hindex, hrow, ⟨hkind, hsome⟩ | ⟨hkind, hsome⟩⟩
  · unfold resolveText at htext
    simp only [hindex, Option.bind_some, hrow, hkind, if_true] at htext
    simp [htext] at hsome
  · unfold resolveOcteti at hocteti
    simp only [hindex, Option.bind_some, hrow, hkind, if_true] at hocteti
    simp [hocteti] at hsome

end HostState

/-! ## Displays that return -/

/-- The display does not need a deeper stack. -/
def Shown.Returns {α : Type} (shown : OptionT MayPanic α) : Prop := shown.run ≠ none

section Returns

variable {α β : Type}

theorem returns_pure (a : α) : Shown.Returns (pure a : OptionT MayPanic α) := nofun

theorem returns_fails : Shown.Returns Shown.fails := nofun

theorem returns_ofResult (text : Option String) : Shown.Returns (Shown.ofResult text) := nofun

theorem returns_bind {shown : OptionT MayPanic α} {f : α → OptionT MayPanic β}
    (h : Shown.Returns shown) (hf : ∀ a, Shown.Returns (f a)) : Shown.Returns (shown >>= f) := by
  unfold Shown.Returns at h ⊢
  rw [OptionT.run_bind]
  cases hrun : shown.run with
  | none => exact absurd hrun h
  | some answer =>
    cases answer with
    | none => exact nofun
    | some a => exact hf a

theorem returns_mapM {l : List α} {f : α → OptionT MayPanic β}
    (h : ∀ a ∈ l, Shown.Returns (f a)) : Shown.Returns (l.mapM f) := by
  induction l with
  | nil => exact returns_pure []
  | cons a rest ih =>
    rw [List.mapM_cons]
    refine returns_bind (h a List.mem_cons_self) fun b => ?_
    refine returns_bind (ih fun c hc => h c (List.mem_cons_of_mem a hc)) fun bs => ?_
    exact returns_pure _

end Returns

namespace Dialect

variable {κ μ : Type} {d : Dialect} {host : HostState κ μ} {kind handle : UInt32}
  {value : RuntimeValue} {display valor : UInt32 → Shown}

theorem returns_ite {c : Prop} [Decidable c] {yes no : Shown} (hyes : c → Shown.Returns yes)
    (hno : ¬ c → Shown.Returns no) : Shown.Returns (if c then yes else no) := by
  by_cases hc : c
  · rw [if_pos hc]
    exact hyes hc
  · rw [if_neg hc]
    exact hno hc

theorem renderValorValue_returns
    (h : ∀ nested, followedHandle d.kinds kind value = some nested → Shown.Returns (valor nested)) :
    Shown.Returns (renderValorValue d host valor kind value) := by
  cases value with
  | i1 value => exact returns_ite (fun _ => returns_pure _) (fun _ => returns_fails)
  | i32 value => exact returns_ite (fun _ => returns_pure _) (fun _ => returns_fails)
  | i64 value => exact returns_ite (fun _ => returns_pure _) (fun _ => returns_fails)
  | f64 bits => exact returns_ite (fun _ => returns_pure _) (fun _ => returns_fails)
  | handle nested =>
    refine returns_ite (fun _ => ?_) (fun _ => returns_ite (fun hkind => ?_)
      (fun _ => returns_fails))
    · exact returns_bind (returns_ofResult _) fun _ => returns_pure _
    · exact h nested (if_pos hkind)

theorem renderEntries_returns {shown : BTreeMap String String}
    {entries : List (RuntimeValue × RuntimeValue)}
    (h : ∀ entry ∈ entries, ∀ nested, followedHandle d.kinds kind entry.2 = some nested →
      Shown.Returns (valor nested)) :
    Shown.Returns (renderEntries d host valor kind shown entries) := by
  induction entries generalizing shown with
  | nil => exact returns_pure _
  | cons entry rest ih =>
    obtain ⟨key, value⟩ := entry
    cases key with
    | handle keyHandle =>
      refine returns_bind (returns_ofResult _) fun key => ?_
      refine returns_bind (renderValorValue_returns (h _ List.mem_cons_self)) fun text => ?_
      exact ih fun entry hentry => h entry (List.mem_cons_of_mem _ hentry)
    | _ => exact nofun

theorem renderElement_returns
    (h : ∀ nested, followedHandle d.kinds kind value = some nested →
      Shown.Returns (display nested)) :
    Shown.Returns (renderElement d host display kind value) := by
  cases value with
  | handle nested =>
    refine returns_ite (fun _ => ?_) (fun _ => returns_ite (fun hkind => ?_)
      (fun _ => returns_fails))
    · exact returns_bind (returns_ofResult _) fun _ => returns_pure _
    · exact h nested (if_pos hkind)
  | _ => exact returns_pure _

theorem renderOptionPayload_returns
    (h : ∀ nested, followedHandle d.kinds kind value = some nested →
      Shown.Returns (display nested)) :
    Shown.Returns (renderOptionPayload d host display kind value) := by
  cases value with
  | i1 value => exact returns_ite (fun _ => returns_pure _) (fun _ => returns_fails)
  | i32 value => exact returns_ite (fun _ => returns_pure _) (fun _ => returns_fails)
  | i64 value => exact returns_ite (fun _ => returns_pure _) (fun _ => returns_fails)
  | f64 bits => exact returns_ite (fun _ => returns_pure _) (fun _ => returns_fails)
  | handle nested =>
    refine returns_ite (fun _ => returns_ofResult _) (fun _ => returns_ite (fun hkind => ?_)
      (fun _ => returns_fails))
    exact h nested (if_pos hkind)

/-! ## The links of a value -/

theorem mem_links_collection {collection : CollectionValue} {nested : UInt32}
    (hfound : host.findCollection handle = some collection) (hvalue : value ∈ collection.values)
    (hnested : followedHandle d.kinds collection.kind value = some nested) :
    nested ∈ host.links d.kinds handle := by
  unfold HostState.links
  rw [hfound]
  exact List.mem_append_left _ (List.mem_append_left _
    (List.mem_filterMap.mpr ⟨value, hvalue, hnested⟩))

theorem mem_links_map {map : MapValue} {entry : RuntimeValue × RuntimeValue} {nested : UInt32}
    (hfound : host.findMap handle = some map) (hentry : entry ∈ map.entries)
    (hnested : followedHandle d.kinds map.valueKind entry.2 = some nested) :
    nested ∈ host.links d.kinds handle := by
  unfold HostState.links
  rw [hfound]
  exact List.mem_append_left _ (List.mem_append_right _
    (List.mem_filterMap.mpr ⟨entry, hentry, hnested⟩))

theorem mem_links_option {option : OptionValue} {nested : UInt32}
    (hfound : host.findOption handle = some option) (hpayload : option.payload = some value)
    (hnested : followedHandle d.kinds option.kind value = some nested) :
    nested ∈ host.links d.kinds handle := by
  unfold HostState.links
  rw [hfound]
  exact List.mem_append_right _
    (List.mem_filterMap.mpr ⟨value, by rw [hpayload]; exact List.mem_singleton_self value, hnested⟩)

/-! ## One level -/

variable {depth : Nat}

/-- A nested rendering returns when those of the handles it follows do. -/
theorem renderHandleValor_returns
    (h : ∀ nested, host.Follows d.kinds handle nested →
      Shown.Returns (renderHandleValor d host depth nested)) :
    Shown.Returns (renderHandleValor d host (depth + 1) handle) := by
  unfold renderHandleValor
  cases htext : host.resolveText handle with
  | some text => exact returns_pure _
  | none =>
    dsimp only
    cases hocteti : host.resolveOcteti handle with
    | some bytes => exact returns_pure _
    | none =>
      have hopen := HostState.not_shadowed htext hocteti
      dsimp only
      cases hmap : host.findMap handle with
      | some map =>
        refine returns_bind (renderEntries_returns fun entry hentry nested hnested => ?_)
          fun _ => returns_pure _
        exact h nested ⟨hopen, mem_links_map hmap hentry hnested⟩
      | none =>
        dsimp only
        cases hcollection : host.findCollection handle with
        | some collection =>
          refine returns_bind (returns_mapM fun value hvalue => ?_) fun _ => returns_pure _
          exact renderValorValue_returns fun nested hnested =>
            h nested ⟨hopen, mem_links_collection hcollection hvalue hnested⟩
        | none =>
          dsimp only
          cases hoption : host.findOption handle with
          | some option =>
            dsimp only
            cases hpayload : option.payload with
            | some payload =>
              exact renderValorValue_returns fun nested hnested =>
                h nested ⟨hopen, mem_links_option hoption hpayload hnested⟩
            | none => exact returns_pure _
          | none => exact returns_ite (fun _ => returns_pure _) (fun _ => returns_fails)

/-- A display returns when those of the handles it follows do, in either rendering. -/
theorem renderHandleDisplay_returns
    (h : ∀ nested, host.Follows d.kinds handle nested →
      Shown.Returns (renderHandleDisplay d host depth nested) ∧
        Shown.Returns (renderHandleValor d host depth nested)) :
    Shown.Returns (renderHandleDisplay d host (depth + 1) handle) := by
  unfold renderHandleDisplay
  cases htext : host.resolveText handle with
  | some text => exact returns_pure _
  | none =>
    dsimp only
    cases host.resolveRegex handle with
    | some regex => exact returns_pure _
    | none =>
      dsimp only
      cases hocteti : host.resolveOcteti handle with
      | some bytes => exact returns_pure _
      | none =>
        have hopen := HostState.not_shadowed htext hocteti
        dsimp only
        cases hcollection : host.findCollection handle with
        | some collection =>
          refine returns_bind (returns_mapM fun value hvalue => ?_) fun _ => returns_pure _
          exact renderElement_returns fun nested hnested =>
            (h nested ⟨hopen, mem_links_collection hcollection hvalue hnested⟩).1
        | none =>
          dsimp only
          cases hmap : host.findMap handle with
          | some map =>
            refine returns_bind (renderEntries_returns fun entry hentry nested hnested => ?_)
              fun _ => returns_pure _
            exact (h nested ⟨hopen, mem_links_map hmap hentry hnested⟩).2
          | none =>
            dsimp only
            cases hoption : host.findOption handle with
            | some option =>
              dsimp only
              cases hpayload : option.payload with
              | some payload =>
                exact renderOptionPayload_returns fun nested hnested =>
                  (h nested ⟨hopen, mem_links_option hoption hpayload hnested⟩).1
              | none => exact returns_pure _
            | none => exact returns_ite (fun _ => returns_pure _) (fun _ => returns_fails)

/-- Both renderings of a handle end with a text or a failure on a stack that is deep enough. -/
def Displays (d : Dialect) (host : HostState κ μ) (handle : UInt32) : Prop :=
  (∃ depth shown, (renderHandleDisplay d host depth handle).run = some shown) ∧
    ∃ depth shown, (renderHandleValor d host depth handle).run = some shown

theorem displays_of_terminating (h : Terminating (host.Follows d.kinds)) (handle : UInt32) :
    d.Displays host handle := by
  obtain ⟨bound, hbound⟩ := h.eventually
    (P := fun depth handle => Shown.Returns (renderHandleDisplay d host depth handle) ∧
      Shown.Returns (renderHandleValor d host depth handle))
    (host.links d.kinds) (fun _ _ hfollows => hfollows.2)
    (fun handle depth hnested => ⟨renderHandleDisplay_returns hnested,
      renderHandleValor_returns fun nested hfollows => (hnested nested hfollows).2⟩) handle
  obtain ⟨hdisplay, hvalor⟩ := hbound bound le_rfl
  exact ⟨⟨bound, Option.ne_none_iff_exists'.mp hdisplay⟩,
    ⟨bound, Option.ne_none_iff_exists'.mp hvalor⟩⟩

end Dialect

end FaberHosts.Wasm
