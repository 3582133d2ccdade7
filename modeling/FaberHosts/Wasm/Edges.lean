import FaberHosts.Lib.Calls
import FaberHosts.Wasm.ListRows
import FaberHosts.Wasm.Nesting
import FaberHosts.Wasm.Package
import FaberHosts.Wasm.TensorRows

/-!
# What the rows do to the handles that are followed

Every list, map and option has one handle, behind which it stays.  A row then changes the
handles that one container leads to and no others, and most rows lead nowhere new.
-/

namespace FaberHosts.Wasm
open FaberHosts.Lib

/-! ## Containers and their handles -/

section Placed

variable {κ μ : Type}

/-- A container lies in the arena of its kind. -/
def DynamicValue.Within (host : HostState κ μ) : DynamicValue κ μ → Prop
  | .collection index => index < host.collections.length
  | .map index => index < host.maps.length
  | .option index => index < host.options.length
  | _ => True

/-- A list, a set, a map or an option. -/
def DynamicValue.Container : DynamicValue κ μ → Prop
  | .collection _ => True
  | .map _ => True
  | .option _ => True
  | _ => False

namespace HostState

/-- Every container lies in its arena and has one handle. -/
structure Placed (host : HostState κ μ) : Prop where
  within : ∀ (handle : UInt32) (value : DynamicValue κ μ), host.dynamic[handle]? = some value →
    value.Within host
  apart : ∀ (a b : UInt32) (value : DynamicValue κ μ), value.Container → host.dynamic[a]? = some value →
    host.dynamic[b]? = some value → a = b

theorem placed_new : (new : HostState κ μ).Placed := by
  refine ⟨fun handle value hvalue => ?_, fun a b value _ hvalue => ?_⟩
  · simp [new] at hvalue
  · simp [new] at hvalue

/-- The handles followed from one handle become the given ones, and no others. -/
structure Redirects (kinds : ValueKinds) (target : UInt32) (stored : List UInt32)
    (host later : HostState κ μ) : Prop where
  placed : host.Placed → later.Placed
  follows : host.Placed → ∀ a b, later.Follows kinds a b →
    host.Follows kinds a b ∨ a = target ∧ b ∈ stored ∧ ¬ host.Shadowed target

/-- No handle is followed that was not followed before. -/
structure Quiet (kinds : ValueKinds) (host later : HostState κ μ) : Prop where
  placed : host.Placed → later.Placed
  follows : host.Placed → ∀ a b, later.Follows kinds a b → host.Follows kinds a b

variable {kinds : ValueKinds} {host later last : HostState κ μ} {target handle : UInt32}
  {stored : List UInt32}

theorem Quiet.refl (host : HostState κ μ) : Quiet kinds host host := ⟨id, fun _ _ _ h => h⟩

theorem Quiet.trans (h : Quiet kinds host later) (h' : Quiet kinds later last) :
    Quiet kinds host last :=
  ⟨fun hplaced => h'.placed (h.placed hplaced),
    fun hplaced a b hlast => h.follows hplaced a b (h'.follows (h.placed hplaced) a b hlast)⟩

theorem Quiet.redirects (h : Quiet kinds host later) : Redirects kinds target stored host later :=
  ⟨h.placed, fun hplaced a b hlater => .inl (h.follows hplaced a b hlater)⟩

theorem Redirects.quiet (h : Redirects kinds target [] host later) : Quiet kinds host later := by
  refine ⟨h.placed, fun hplaced a b hlater => ?_⟩
  rcases h.follows hplaced a b hlater with hold | ⟨-, hnone, -⟩
  · exact hold
  · cases hnone

section QuietCalls

variable {ε α β : Type}

theorem quiet_pure (a : α) : Moves (Quiet kinds) (pure a : Call (HostState κ μ) ε α) :=
  moves_pure Quiet.refl a

theorem quiet_throw (e : ε) : Moves (Quiet kinds) (Call.throw e : Call (HostState κ μ) ε α) :=
  moves_throw Quiet.refl e

theorem quiet_lift (answer : MayPanic (Except ε α)) :
    Moves (Quiet kinds) (Call.lift answer : Call (HostState κ μ) ε α) :=
  moves_lift Quiet.refl answer

theorem quiet_bind {c : Call (HostState κ μ) ε α} {f : α → Call (HostState κ μ) ε β}
    (hc : Moves (Quiet kinds) c) (hf : ∀ a, Moves (Quiet kinds) (f a)) :
    Moves (Quiet kinds) (c >>= f) :=
  moves_bind (R := Quiet kinds) (fun _ _ _ h h' => h.trans h') hc hf

theorem quiet_get_bind {f : HostState κ μ → Call (HostState κ μ) ε β}
    (hf : ∀ host, Moves (Quiet kinds) (f host)) : Moves (Quiet kinds) (Call.get >>= f) :=
  quiet_bind (moves_get Quiet.refl) hf

end QuietCalls

theorem quiet_of_same (hdynamic : later.dynamic = host.dynamic)
    (hcollections : later.collections = host.collections) (hmaps : later.maps = host.maps)
    (hoptions : later.options = host.options)
    (hshadow : ∀ handle, host.Shadowed handle → later.Shadowed handle) :
    Quiet kinds host later := by
  refine ⟨fun hplaced => ⟨fun handle value hvalue => ?_, ?_⟩, fun _ a b hfollows => ?_⟩
  · rw [hdynamic] at hvalue
    have hwithin := hplaced.within handle value hvalue
    cases value with
    | collection index => exact lt_of_lt_of_eq hwithin (congrArg List.length hcollections).symm
    | map index => exact lt_of_lt_of_eq hwithin (congrArg List.length hmaps).symm
    | option index => exact lt_of_lt_of_eq hwithin (congrArg List.length hoptions).symm
    | _ => trivial
  · rw [hdynamic]
    exact hplaced.apart
  · obtain ⟨hopen, hlink⟩ := hfollows
    refine ⟨fun hshadowed => hopen (hshadow a hshadowed), ?_⟩
    unfold links findCollection findMap findOption at hlink ⊢
    rwa [hdynamic, hcollections, hmaps, hoptions] at hlink

/-! ## New handles -/

/-- A value takes the next handle; a container is new in its arena, which only grows. -/
structure Allocates (host : HostState κ μ) (value : DynamicValue κ μ) (later : HostState κ μ) :
    Prop where
  dynamic : later.dynamic = host.dynamic.insert host.nextDynamic value
  rows : later.rows = host.rows
  texts : later.textArena = host.textArena
  octeti : later.octetiArena = host.octetiArena
  collections : host.collections <+: later.collections
  maps : host.maps <+: later.maps
  options : host.options <+: later.options
  fresh : value.Container → ¬ value.Within host
  within : value.Within later

theorem allocates_of {T : Toolchain} {start : HostState κ μ} {value : DynamicValue κ μ}
    (hstart : ∀ next, Allocates host value
      { start with nextDynamic := next, dynamic := host.dynamic.insert host.nextDynamic value })
    (hnext : start.nextDynamic = host.nextDynamic) (hdynamic : start.dynamic = host.dynamic)
    (h : start.allocDynamic T value = some (handle, later)) : Allocates host value later := by
  obtain ⟨next, -, heq⟩ := Option.map_eq_some_iff.mp h
  cases heq
  have hlater := hstart next
  rw [← hnext, ← hdynamic] at hlater
  exact hlater

namespace Allocates

variable {value : DynamicValue κ μ} (h : Allocates host value later)

include h

theorem shadowed_iff (handle : UInt32) : later.Shadowed handle ↔ host.Shadowed handle := by
  unfold Shadowed
  rw [h.rows, h.texts, h.octeti]

theorem getElem?_next : later.dynamic[host.nextDynamic]? = some value := by
  rw [h.dynamic, Std.ExtTreeMap.getElem?_insert_self]

theorem getElem?_of_ne (hne : handle ≠ host.nextDynamic) :
    later.dynamic[handle]? = host.dynamic[handle]? := by
  rw [h.dynamic, Std.ExtTreeMap.getElem?_insert, if_neg]
  exact fun heq => hne (Std.LawfulEqOrd.eq_of_compare heq).symm

theorem placed (hplaced : host.Placed) : later.Placed := by
  have hkept : ∀ other : DynamicValue κ μ, other.Within host → other.Within later := by
    intro other hother
    cases other with
    | collection index => exact lt_of_lt_of_le hother h.collections.length_le
    | map index => exact lt_of_lt_of_le hother h.maps.length_le
    | option index => exact lt_of_lt_of_le hother h.options.length_le
    | _ => trivial
  have hold : ∀ {handle other}, handle ≠ host.nextDynamic → later.dynamic[handle]? = some other →
      host.dynamic[handle]? = some other := by
    intro handle other hne hother
    rw [← h.getElem?_of_ne hne]
    exact hother
  refine ⟨fun handle other hother => ?_, fun a b other hcontainer ha hb => ?_⟩
  · by_cases hnext : handle = host.nextDynamic
    · rw [hnext, h.getElem?_next] at hother
      cases hother
      exact h.within
    · exact hkept other (hplaced.within handle other (hold hnext hother))
  · -- the container at the new handle is in no arena that another handle points into
    have hfresh : ∀ handle, handle ≠ host.nextDynamic → later.dynamic[handle]? = some other →
        other ≠ value := by
      intro handle hne hother heq
      subst heq
      exact h.fresh hcontainer (hplaced.within handle other (hold hne hother))
    by_cases hanext : a = host.nextDynamic
    · by_cases hbnext : b = host.nextDynamic
      · rw [hanext, hbnext]
      · rw [hanext, h.getElem?_next] at ha
        exact absurd (Option.some.inj ha).symm (hfresh b hbnext hb)
    · by_cases hbnext : b = host.nextDynamic
      · rw [hbnext, h.getElem?_next] at hb
        exact absurd (Option.some.inj hb).symm (hfresh a hanext ha)
      · exact hplaced.apart a b other hcontainer (hold hanext ha) (hold hbnext hb)

theorem links_of_ne (hplaced : host.Placed) (hne : handle ≠ host.nextDynamic) :
    later.links kinds handle = host.links kinds handle := by
  have hdyn := h.getElem?_of_ne hne
  have hcollection : later.findCollection handle = host.findCollection handle := by
    unfold findCollection
    rw [hdyn]
    cases hvalue : host.dynamic[handle]? with
    | none => rfl
    | some other =>
      cases other with
      | collection index =>
        exact (List.prefix_iff_getElem?.mp h.collections index (hplaced.within _ _ hvalue)).trans
          (List.getElem?_eq_getElem (hplaced.within _ _ hvalue)).symm
      | _ => rfl
  have hmap : later.findMap handle = host.findMap handle := by
    unfold findMap
    rw [hdyn]
    cases hvalue : host.dynamic[handle]? with
    | none => rfl
    | some other =>
      cases other with
      | map index =>
        exact (List.prefix_iff_getElem?.mp h.maps index (hplaced.within _ _ hvalue)).trans
          (List.getElem?_eq_getElem (hplaced.within _ _ hvalue)).symm
      | _ => rfl
  have hoption : later.findOption handle = host.findOption handle := by
    unfold findOption
    rw [hdyn]
    cases hvalue : host.dynamic[handle]? with
    | none => rfl
    | some other =>
      cases other with
      | option index =>
        exact (List.prefix_iff_getElem?.mp h.options index (hplaced.within _ _ hvalue)).trans
          (List.getElem?_eq_getElem (hplaced.within _ _ hvalue)).symm
      | _ => rfl
  unfold links
  rw [hcollection, hmap, hoption]

/-- An allocation leads to the handles in the new value, from its handle only. -/
theorem redirects (hlinks : ∀ b ∈ later.links kinds host.nextDynamic, b ∈ stored) :
    Redirects kinds host.nextDynamic stored host later := by
  refine ⟨h.placed, fun hplaced a b hfollows => ?_⟩
  obtain ⟨hopen, hlink⟩ := hfollows
  rw [h.shadowed_iff] at hopen
  by_cases hnext : a = host.nextDynamic
  · subst hnext
    exact .inr ⟨rfl, hlinks b hlink, hopen⟩
  · rw [h.links_of_ne hplaced hnext] at hlink
    exact .inl ⟨hopen, hlink⟩

end Allocates

/-! ## Changes in place -/

/-- One container changes in its place. -/
structure Changes (host : HostState κ μ) (handle : UInt32) (later : HostState κ μ) : Prop where
  dynamic : later.dynamic = host.dynamic
  rows : later.rows = host.rows
  texts : later.textArena = host.textArena
  octeti : later.octetiArena = host.octetiArena
  options : later.options = host.options
  collections : later.collections.length = host.collections.length
  maps : later.maps.length = host.maps.length
  elsewhere : host.Placed → ∀ a, a ≠ handle → later.findCollection a = host.findCollection a ∧
    later.findMap a = host.findMap a

theorem Changes.redirects (h : Changes host handle later)
    (hlinks : ∀ b ∈ later.links kinds handle, b ∈ host.links kinds handle ∨ b ∈ stored) :
    Redirects kinds handle stored host later := by
  refine ⟨fun hplaced => ⟨fun a value ha => ?_, fun a b value hcontainer ha hb => ?_⟩,
    fun hplaced a b hfollows => ?_⟩
  · rw [h.dynamic] at ha
    have hwithin := hplaced.within a value ha
    cases value with
    | collection index => exact lt_of_lt_of_eq hwithin h.collections.symm
    | map index => exact lt_of_lt_of_eq hwithin h.maps.symm
    | option index => exact lt_of_lt_of_eq hwithin (congrArg List.length h.options).symm
    | _ => trivial
  · rw [h.dynamic] at ha hb
    exact hplaced.apart a b value hcontainer ha hb
  · obtain ⟨hopen, hlink⟩ := hfollows
    have hopen : ¬ host.Shadowed a := by
      unfold Shadowed at hopen ⊢
      rwa [h.rows, h.texts, h.octeti] at hopen
    by_cases heq : a = handle
    · subst heq
      rcases hlinks b hlink with hold | hnew
      · exact .inl ⟨hopen, hold⟩
      · exact .inr ⟨rfl, hnew, hopen⟩
    · have hoption : later.findOption a = host.findOption a := by
        unfold findOption
        rw [h.dynamic, h.options]
      obtain ⟨hcollection, hmap⟩ := h.elsewhere hplaced a heq
      unfold links at hlink
      rw [hcollection, hmap, hoption] at hlink
      exact .inl ⟨hopen, hlink⟩

theorem modifyCollection_changes (f : CollectionValue → CollectionValue) :
    Changes host handle (modifyCollection handle f host) := by
  unfold modifyCollection
  cases hdyn : host.dynamic[handle]? with
  | none => exact ⟨rfl, rfl, rfl, rfl, rfl, rfl, rfl, fun _ _ _ => ⟨rfl, rfl⟩⟩
  | some value =>
    cases value with
    | collection index =>
      refine ⟨rfl, rfl, rfl, rfl, rfl, List.length_modify .., rfl, fun hplaced a hne => ⟨?_, rfl⟩⟩
      unfold findCollection
      dsimp only
      cases ha : host.dynamic[a]? with
      | none => rfl
      | some other =>
        cases other with
        | collection place =>
          dsimp only
          rw [List.getElem?_modify_ne]
          intro heq
          subst heq
          exact hne (hplaced.apart a handle (.collection index) trivial ha hdyn)
        | _ => rfl
    | _ => exact ⟨rfl, rfl, rfl, rfl, rfl, rfl, rfl, fun _ _ _ => ⟨rfl, rfl⟩⟩

theorem modifyMap_changes (f : MapValue → MapValue) :
    Changes host handle (modifyMap handle f host) := by
  unfold modifyMap
  cases hdyn : host.dynamic[handle]? with
  | none => exact ⟨rfl, rfl, rfl, rfl, rfl, rfl, rfl, fun _ _ _ => ⟨rfl, rfl⟩⟩
  | some value =>
    cases value with
    | map index =>
      refine ⟨rfl, rfl, rfl, rfl, rfl, rfl, List.length_modify .., fun hplaced a hne => ⟨rfl, ?_⟩⟩
      unfold findMap
      dsimp only
      cases ha : host.dynamic[a]? with
      | none => rfl
      | some other =>
        cases other with
        | map place =>
          dsimp only
          rw [List.getElem?_modify_ne]
          intro heq
          subst heq
          exact hne (hplaced.apart a handle (.map index) trivial ha hdyn)
        | _ => rfl
    | _ => exact ⟨rfl, rfl, rfl, rfl, rfl, rfl, rfl, fun _ _ _ => ⟨rfl, rfl⟩⟩

/-! ## The handles in a container -/

section Links

variable {index : Nat}

theorem links_collection (h : host.dynamic[handle]? = some (.collection index)) :
    host.links kinds handle =
      ((host.collections[index]?).map (CollectionValue.links kinds)).getD [] := by
  simp [links, findCollection, findMap, findOption, h]

theorem links_map (h : host.dynamic[handle]? = some (.map index)) :
    host.links kinds handle = ((host.maps[index]?).map (MapValue.links kinds)).getD [] := by
  simp [links, findCollection, findMap, findOption, h]

theorem links_option (h : host.dynamic[handle]? = some (.option index)) :
    host.links kinds handle = ((host.options[index]?).map (OptionValue.links kinds)).getD [] := by
  simp [links, findCollection, findMap, findOption, h]

theorem redirects_modifyCollection {f : CollectionValue → CollectionValue}
    (hlinks : ∀ collection, host.findCollection handle = some collection →
      ∀ b ∈ (f collection).links kinds, b ∈ collection.links kinds ∨ b ∈ stored) :
    Redirects kinds handle stored host (modifyCollection handle f host) := by
  have hchanges : Changes host handle (modifyCollection handle f host) :=
    modifyCollection_changes f
  cases hdyn : host.dynamic[handle]? with
  | none =>
    rw [show modifyCollection handle f host = host by simp [modifyCollection, hdyn]]
    exact (Quiet.refl host).redirects
  | some value =>
    cases value with
    | collection index =>
      refine hchanges.redirects fun b hb => ?_
      have hfound : host.findCollection handle = host.collections[index]? := by
        simp [findCollection, hdyn]
      rw [links_collection (hchanges.dynamic ▸ hdyn)] at hb
      rw [links_collection hdyn]
      simp only [modifyCollection, hdyn, List.getElem?_modify_eq] at hb
      cases hcollection : host.collections[index]? with
      | none => simp [hcollection] at hb
      | some collection =>
        rw [hcollection] at hb hfound
        exact hlinks collection hfound b hb
    | _ =>
      rw [show modifyCollection handle f host = host by simp [modifyCollection, hdyn]]
      exact (Quiet.refl host).redirects

theorem redirects_modifyMap {f : MapValue → MapValue}
    (hlinks : ∀ map, host.findMap handle = some map →
      ∀ b ∈ (f map).links kinds, b ∈ map.links kinds ∨ b ∈ stored) :
    Redirects kinds handle stored host (modifyMap handle f host) := by
  have hchanges : Changes host handle (modifyMap handle f host) := modifyMap_changes f
  cases hdyn : host.dynamic[handle]? with
  | none =>
    rw [show modifyMap handle f host = host by simp [modifyMap, hdyn]]
    exact (Quiet.refl host).redirects
  | some value =>
    cases value with
    | map index =>
      refine hchanges.redirects fun b hb => ?_
      have hfound : host.findMap handle = host.maps[index]? := by simp [findMap, hdyn]
      rw [links_map (hchanges.dynamic ▸ hdyn)] at hb
      rw [links_map hdyn]
      simp only [modifyMap, hdyn, List.getElem?_modify_eq] at hb
      cases hmap : host.maps[index]? with
      | none => simp [hmap] at hb
      | some map =>
        rw [hmap] at hb hfound
        exact hlinks map hfound b hb
    | _ =>
      rw [show modifyMap handle f host = host by simp [modifyMap, hdyn]]
      exact (Quiet.refl host).redirects

end Links

/-! ## Allocations -/

section Allocations

variable {T : Toolchain} {value : DynamicValue κ μ}

theorem links_scalar (h : host.dynamic[handle]? = some value) (hscalar : ¬ value.Container) :
    host.links kinds handle = [] := by
  cases value with
  | collection index => exact absurd trivial hscalar
  | map index => exact absurd trivial hscalar
  | option index => exact absurd trivial hscalar
  | _ => simp [links, findCollection, findMap, findOption, h]

theorem quiet_allocDynamic (hscalar : ¬ value.Container)
    (h : host.allocDynamic T value = some (handle, later)) : Quiet kinds host later := by
  have hallocates : Allocates host value later := by
    refine allocates_of (fun next => ⟨rfl, rfl, rfl, rfl, List.prefix_rfl, List.prefix_rfl,
      List.prefix_rfl, fun hcontainer => absurd hcontainer hscalar, ?_⟩) rfl rfl h
    cases value with
    | collection index => exact absurd trivial hscalar
    | map index => exact absurd trivial hscalar
    | option index => exact absurd trivial hscalar
    | _ => trivial
  have hredirects : Redirects kinds host.nextDynamic [] host later := by
    refine hallocates.redirects fun b hb => ?_
    rw [links_scalar hallocates.getElem?_next hscalar] at hb
    exact hb
  exact hredirects.quiet

theorem quiet_allocTensor {tensor : TensorValue}
    (h : host.allocTensor T tensor = some (handle, later)) : Quiet kinds host later := by
  have hstart : Quiet kinds host { host with tensors := host.tensors ++ [tensor] } :=
    quiet_of_same rfl rfl rfl rfl fun _ => id
  exact hstart.trans (quiet_allocDynamic (by exact id) h)

theorem redirects_allocCollection {set : Bool} {kind : UInt32} {values : List RuntimeValue}
    (h : host.allocCollection T set kind values = some (handle, later)) :
    Redirects kinds host.nextDynamic (values.filterMap (followedHandle kinds kind)) host later := by
  obtain ⟨next, -, heq⟩ := Option.map_eq_some_iff.mp h
  cases heq
  have hallocates : Allocates host (.collection host.collections.length)
      { host with
        collections := host.collections ++ [⟨set, kind, values⟩]
        nextDynamic := next
        dynamic := host.dynamic.insert host.nextDynamic (.collection host.collections.length) } :=
    ⟨rfl, rfl, rfl, rfl, List.prefix_append .., List.prefix_rfl, List.prefix_rfl,
      fun _ => lt_irrefl _, by simp [DynamicValue.Within]⟩
  refine hallocates.redirects fun b hb => ?_
  rw [links_collection hallocates.getElem?_next, List.getElem?_concat_length] at hb
  exact hb

theorem redirects_allocMap {keyKind valueKind : UInt32}
    {entries : List (RuntimeValue × RuntimeValue)}
    (h : host.allocMap T keyKind valueKind entries = some (handle, later)) :
    Redirects kinds host.nextDynamic
      (entries.filterMap (fun entry => followedHandle kinds valueKind entry.2)) host later := by
  obtain ⟨next, -, heq⟩ := Option.map_eq_some_iff.mp h
  cases heq
  have hallocates : Allocates host (.map host.maps.length)
      { host with
        maps := host.maps ++ [⟨keyKind, valueKind, entries⟩]
        nextDynamic := next
        dynamic := host.dynamic.insert host.nextDynamic (.map host.maps.length) } :=
    ⟨rfl, rfl, rfl, rfl, List.prefix_rfl, List.prefix_append .., List.prefix_rfl,
      fun _ => lt_irrefl _, by simp [DynamicValue.Within]⟩
  refine hallocates.redirects fun b hb => ?_
  rw [links_map hallocates.getElem?_next, List.getElem?_concat_length] at hb
  exact hb

theorem redirects_allocOption {kind : UInt32} {payload : Option RuntimeValue}
    (h : host.allocOption T kind payload = some (handle, later)) :
    Redirects kinds host.nextDynamic (payload.toList.filterMap (followedHandle kinds kind)) host
      later := by
  obtain ⟨next, -, heq⟩ := Option.map_eq_some_iff.mp h
  cases heq
  have hallocates : Allocates host (.option host.options.length)
      { host with
        options := host.options ++ [⟨kind, payload⟩]
        nextDynamic := next
        dynamic := host.dynamic.insert host.nextDynamic (.option host.options.length) } :=
    ⟨rfl, rfl, rfl, rfl, List.prefix_rfl, List.prefix_rfl, List.prefix_append ..,
      fun _ => lt_irrefl _, by simp [DynamicValue.Within]⟩
  refine hallocates.redirects fun b hb => ?_
  rw [links_option hallocates.getElem?_next, List.getElem?_concat_length] at hb
  exact hb

theorem moves_optionResult (kind : UInt32) (payload : Option RuntimeValue) :
    Moves (Quiet kinds) (optionResult T kinds kind payload : Call (HostState κ μ) String UInt32) := by
  unfold optionResult
  by_cases hkind : kind ∈ kinds.boxed
  · rw [if_pos hkind]
    intro host answer later h
    obtain ⟨answered, hanswered, heq⟩ := Option.map_eq_some_iff.mp h
    cases heq
    have hredirects : Redirects kinds host.nextDynamic _ host answered.2 :=
      redirects_allocOption hanswered
    have hnone : payload.toList.filterMap (followedHandle kinds kind) = [] := by
      rw [List.filterMap_eq_nil_iff]
      intro value _
      cases value with
      | handle nested => exact if_neg (kinds.boxed_unfollowed hkind)
      | _ => rfl
    rw [hnone] at hredirects
    exact hredirects.quiet
  · rw [if_neg hkind]
    exact quiet_pure _

end Allocations

end HostState

end Placed

end FaberHosts.Wasm

/-!
## Rows that lead nowhere new

The interning of literal tables and all rows of tensors but `tensor_flatten` leave every
display with the handles it followed before, or with fewer.
-/

namespace FaberHosts.Wasm
open FaberHosts.Lib HostState

variable {κ μ ρ : Type} {kinds : ValueKinds}

/-! ## Literal tables -/

section Interning

variable {host later : HostState κ μ}

theorem HostState.Shadowed.grown {handle : UInt32} (h : host.Shadowed handle)
    (hrows : host.rows <+: later.rows) (htexts : host.textArena <+: later.textArena)
    (hocteti : host.octetiArena <+: later.octetiArena) : later.Shadowed handle := by
  obtain ⟨index, row, hindex, hrow, hliteral⟩ := h
  refine ⟨index, row, hindex, getElem?_of_prefix hrows hrow, hliteral.imp ?_ ?_⟩
  · rintro ⟨hkind, htext⟩
    obtain ⟨text, htext⟩ := Option.isSome_iff_exists.mp htext
    exact ⟨hkind, Option.isSome_iff_exists.mpr ⟨text, getElem?_of_prefix htexts htext⟩⟩
  · rintro ⟨hkind, hbytes⟩
    obtain ⟨bytes, hbytes⟩ := Option.isSome_iff_exists.mp hbytes
    exact ⟨hkind, Option.isSome_iff_exists.mpr ⟨bytes, getElem?_of_prefix hocteti hbytes⟩⟩

theorem moves_internText (content : List (String × UInt32)) (payload : String) :
    Moves (Quiet kinds) (internText content payload :
      Call (HostState κ μ) RunOutcome (UInt32 × List (String × UInt32))) := by
  unfold internText
  cases content.lookup payload with
  | some handle => exact quiet_pure _
  | none =>
    refine quiet_get_bind fun host => ?_
    refine quiet_bind (quiet_lift _) fun handle => ?_
    refine quiet_bind (moves_modify fun host => ?_)
      fun _ => quiet_pure _
    exact quiet_of_same rfl rfl rfl rfl fun _ h =>
      h.grown List.prefix_rfl (List.prefix_append ..) List.prefix_rfl

theorem moves_internOcteti (payload : List UInt8) :
    Moves (Quiet kinds) (internOcteti payload : Call (HostState κ μ) RunOutcome UInt32) := by
  refine quiet_get_bind fun host => ?_
  refine quiet_bind (quiet_lift _) fun handle => ?_
  refine quiet_bind (moves_modify fun host => ?_)
    fun _ => quiet_pure _
  exact quiet_of_same rfl rfl rfl rfl fun _ h =>
    h.grown List.prefix_rfl List.prefix_rfl (List.prefix_append ..)

theorem moves_internRegex (compile : String → Except ρ κ) (pattern : String)
    (flags : Option String) :
    Moves (Quiet kinds) (internRegex compile pattern flags :
      Call (HostState κ μ) RunOutcome UInt32) := by
  refine quiet_get_bind fun host => ?_
  refine quiet_bind (quiet_lift _) fun handle => ?_
  exact quiet_bind
    (moves_modify fun host => quiet_of_same rfl rfl rfl rfl fun _ => id)
    fun _ => quiet_pure _

theorem moves_pushRows (rows : List InternedRow) :
    Moves (Quiet kinds) (pushRows rows : Call (HostState κ μ) RunOutcome Unit) :=
  moves_modify fun _ => quiet_of_same rfl rfl rfl rfl fun _ h =>
    h.grown (List.prefix_append ..) List.prefix_rfl List.prefix_rfl

theorem moves_internRows (compile : String → Except ρ κ) (rows : List RawRow) :
    ∀ (content : List (String × UInt32)) (index : Nat),
      Moves (Quiet kinds) (internRows compile content index rows :
        Call (HostState κ μ) RunOutcome Unit) := by
  induction rows using literalsOf.induct with
  | case1 => exact fun _ _ => quiet_pure ()
  | case2 raw rest htext ih =>
    intro content index
    rw [internRows, if_pos htext]
    refine quiet_bind (quiet_lift _) fun payload => ?_
    refine quiet_bind (moves_internText _ _) fun interned => ?_
    exact quiet_bind (moves_pushRows _) fun _ => ih _ _
  | case3 raw rest htext hocteti ih =>
    intro content index
    rw [internRows, if_neg htext, if_pos hocteti]
    refine quiet_bind (moves_internOcteti _) fun handle => ?_
    exact quiet_bind (moves_pushRows _) fun _ => ih _ _
  | case4 raw rest htext hocteti hpattern ih =>
    intro content index
    rw [internRows, if_neg htext, if_neg hocteti, if_pos hpattern]
    refine quiet_bind (quiet_lift _) fun pattern => ?_
    cases rest with
    | nil => exact quiet_bind (moves_internRegex _ _ _) fun handle => moves_pushRows _
    | cons flagsRow later =>
      by_cases hflags : flagsRow.kind = rowKindRegexFlags
      · simp only [if_pos hflags]
        refine quiet_bind (quiet_lift _) fun flags => ?_
        refine quiet_bind (moves_internRegex _ _ _) fun handle => ?_
        exact quiet_bind (moves_pushRows _) fun _ => ih.1 _ _
      · simp only [if_neg hflags]
        refine quiet_bind (moves_internRegex _ _ _) fun handle => ?_
        exact quiet_bind (moves_pushRows _) fun _ => ih.2 _ _
  | case5 raw rest htext hocteti hpattern =>
    intro content index
    rw [internRows, if_neg htext, if_neg hocteti, if_neg hpattern]
    exact quiet_throw _

theorem moves_initializeLiteralTable (compile : String → Except ρ κ)
    (table : Option (List RawRow)) :
    Moves (Quiet kinds) (initializeLiteralTable compile table :
      Call (HostState κ μ) RunOutcome Unit) := by
  cases table with
  | none => exact quiet_pure ()
  | some rows =>
    refine quiet_bind (moves_internRows compile rows [] 0) fun _ => ?_
    refine quiet_get_bind fun host => ?_
    refine quiet_bind (quiet_lift _) fun next => ?_
    exact moves_modify fun host => quiet_of_same rfl rfl rfl rfl fun _ => id

end Interning

/-! ## The rows of tensors -/

section TensorRows

variable {d : Dialect} {ops : FloatOps} {α β : Type}

theorem quiet_ite {c : Prop} [Decidable c] {yes no : Call (HostState κ μ) String α}
    (hyes : Moves (Quiet kinds) yes) (hno : Moves (Quiet kinds) no) :
    Moves (Quiet kinds) (if c then yes else no) := by
  by_cases hc : c
  · rwa [if_pos hc]
  · rwa [if_neg hc]

theorem quiet_newTensor (T : Toolchain) (tensor : TensorValue) :
    Moves (Quiet kinds)
      (Call.infallible (allocTensor T · tensor) : Call (HostState κ μ) String UInt32) := by
  intro host answer later h
  obtain ⟨answered, hanswered, heq⟩ := Option.map_eq_some_iff.mp h
  cases heq
  exact quiet_allocTensor hanswered

theorem quiet_modifyTensor (handle : UInt32) (f : TensorValue → TensorValue) :
    Moves (Quiet kinds) (Call.modify (modifyTensor handle f) : Call (HostState κ μ) String Unit) := by
  refine moves_modify fun host => ?_
  unfold modifyTensor
  cases host.dynamic[handle]? with
  | none => exact .refl host
  | some value =>
    cases value with
    | tensor index => exact quiet_of_same rfl rfl rfl rfl fun _ => id
    | _ => exact .refl host

variable (handle dims : UInt32)

theorem quiet_create (seed : UInt32) (bits : UInt64) :
    Moves (Quiet kinds) (tensorCreate d seed bits dims : Call (HostState κ μ) String UInt32) := by
  refine quiet_get_bind fun host => ?_
  cases host.findTensor seed with
  | none => exact quiet_throw _
  | some tensor =>
    cases host.readIndexVector dims with
    | none => exact quiet_throw _
    | some words =>
      dsimp only
      cases tensorShapeElementCount words with
      | none => exact quiet_throw _
      | some count =>
        refine quiet_bind (quiet_lift _) fun value => ?_
        exact quiet_bind (quiet_lift _) fun _ => quiet_newTensor _ _

theorem quiet_fromFlat (seed flat : UInt32) :
    Moves (Quiet kinds) (tensorFromFlat d seed flat dims : Call (HostState κ μ) String UInt32) := by
  refine quiet_get_bind fun host => ?_
  cases host.findTensor seed with
  | none => exact quiet_throw _
  | some tensor =>
    cases host.readIndexVector dims with
    | none => exact quiet_throw _
    | some words =>
      cases host.findCollection flat with
      | none => exact quiet_throw _
      | some collection =>
        dsimp only
        cases tensorShapeElementCount words with
        | none => exact quiet_throw _
        | some expected => exact quiet_ite (quiet_throw _) (quiet_newTensor _ _)

theorem quiet_rank : Moves (Quiet kinds) (tensorRank handle : Call (HostState κ μ) String UInt64) := by
  refine quiet_get_bind fun host => ?_
  cases host.findTensor handle with
  | none => exact quiet_throw _
  | some tensor => exact quiet_lift _

theorem quiet_shape :
    Moves (Quiet d.kinds) (tensorShape d handle : Call (HostState κ μ) String UInt32) := by
  refine quiet_get_bind fun host => ?_
  cases host.findTensor handle with
  | none => exact quiet_throw _
  | some tensor =>
    intro host answer later h
    obtain ⟨answered, hanswered, heq⟩ := Option.map_eq_some_iff.mp h
    cases heq
    have hredirects : Redirects d.kinds host.nextDynamic _ host answered.2 :=
      redirects_allocCollection hanswered
    rw [List.filterMap_eq_nil_iff.mpr ?_] at hredirects
    · exact hredirects.quiet
    · intro value hvalue
      obtain ⟨dim, -, rfl⟩ := List.mem_map.mp hvalue
      rfl

theorem quiet_reshape :
    Moves (Quiet kinds) (tensorReshape d handle dims : Call (HostState κ μ) String UInt32) := by
  refine quiet_get_bind fun host => ?_
  cases host.findTensor handle with
  | none => exact quiet_throw _
  | some tensor =>
    cases host.readIndexVector dims with
    | none => exact quiet_throw _
    | some words =>
      dsimp only
      cases tensorShapeElementCount words with
      | none => exact quiet_throw _
      | some expected => exact quiet_ite (quiet_throw _) (quiet_newTensor _ _)

theorem quiet_get (index : UInt32) : Moves (Quiet kinds)
    (tensorGet d.toolchain kinds handle index : Call (HostState κ μ) String UInt32) := by
  refine quiet_get_bind fun host => ?_
  cases host.findTensor handle with
  | none => exact quiet_throw _
  | some tensor =>
    cases host.readIndexVector index with
    | none => exact quiet_throw _
    | some words => exact moves_optionResult _ _

theorem quiet_set (index : UInt32) (bits : UInt64) :
    Moves (Quiet kinds) (tensorSet d handle index bits : Call (HostState κ μ) String Unit) := by
  refine quiet_get_bind fun host => ?_
  cases host.findTensor handle with
  | none => exact quiet_throw _
  | some tensor =>
    cases host.readIndexVector index with
    | none => exact quiet_throw _
    | some words =>
      dsimp only
      cases tensorFlatOffset tensor.shape words with
      | none => exact quiet_throw _
      | some offset => exact quiet_bind (quiet_lift _) fun _ => quiet_modifyTensor _ _

theorem quiet_fill (bits : UInt64) :
    Moves (Quiet kinds) (tensorFill d handle bits : Call (HostState κ μ) String UInt32) := by
  refine quiet_get_bind fun host => ?_
  cases host.findTensor handle with
  | none => exact quiet_throw _
  | some tensor =>
    dsimp only
    cases tensorShapeElementCount tensor.shape with
    | none => exact quiet_throw _
    | some count =>
      refine quiet_bind (quiet_lift _) fun converted => ?_
      refine quiet_bind (quiet_lift _) fun _ => ?_
      exact quiet_bind (quiet_modifyTensor _ _) fun _ => quiet_pure _

theorem quiet_materialize :
    Moves (Quiet kinds) (tensorMaterialize d handle : Call (HostState κ μ) String UInt32) := by
  refine quiet_get_bind fun host => ?_
  cases host.findTensor handle with
  | none => exact quiet_throw _
  | some tensor => exact quiet_newTensor _ _

theorem quiet_slice (start stop : UInt64) :
    Moves (Quiet kinds) (tensorSlice d handle start stop : Call (HostState κ μ) String UInt32) := by
  refine quiet_get_bind fun host => ?_
  cases host.findTensor handle with
  | none => exact quiet_throw _
  | some tensor =>
    dsimp only
    cases tensor.shape with
    | nil => exact quiet_throw _
    | cons first rest =>
      refine quiet_ite (quiet_throw _) ?_
      refine quiet_bind (quiet_lift _) fun capacity => ?_
      refine quiet_bind (quiet_lift _) fun _ => ?_
      exact quiet_bind (quiet_lift _) fun sliced => quiet_newTensor _ _

theorem quiet_binary (op : TensorBinaryOp) (left right : UInt32) : Moves (Quiet kinds)
    (tensorAddSubMul d ops op left right : Call (HostState κ μ) String UInt32) := by
  refine quiet_get_bind fun host => ?_
  cases host.findTensor left with
  | none => exact quiet_throw _
  | some tensor =>
    cases host.findTensor right with
    | none => exact quiet_throw _
    | some other => exact quiet_bind (quiet_lift _) fun values => quiet_newTensor _ _

theorem quiet_matmul (left right : UInt32) :
    Moves (Quiet kinds) (tensorMatmul d ops left right : Call (HostState κ μ) String UInt32) := by
  refine quiet_get_bind fun host => ?_
  split
  · exact quiet_throw _
  split
  · exact quiet_throw _
  split
  · split
    · refine quiet_ite (quiet_throw _) ?_
      split
      · refine quiet_bind (quiet_lift _) fun capacity => ?_
        refine quiet_bind (quiet_lift _) fun _ => ?_
        exact quiet_bind (quiet_lift _) fun values => quiet_newTensor _ _
      · exact quiet_throw _
    · exact quiet_throw _
  · exact quiet_throw _

theorem quiet_sum : Moves (Quiet kinds) (tensorSum ops handle : Call (HostState κ μ) String UInt64) := by
  refine quiet_get_bind fun host => ?_
  cases host.findTensor handle with
  | none => exact quiet_throw _
  | some tensor =>
    dsimp only
    cases sumElements ops tensor.values with
    | none => exact quiet_throw _
    | some sum => exact quiet_pure _

theorem quiet_mean : Moves (Quiet kinds) (tensorMean ops handle : Call (HostState κ μ) String UInt64) := by
  refine quiet_get_bind fun host => ?_
  cases host.findTensor handle with
  | none => exact quiet_throw _
  | some tensor =>
    refine quiet_ite (quiet_throw _) ?_
    cases sumElements ops tensor.values with
    | none => exact quiet_throw _
    | some sum => exact quiet_pure _

theorem quiet_convert (source target : UInt32) : Moves (Quiet kinds)
    (tensorConvert d ops handle source target : Call (HostState κ μ) String UInt32) := by
  refine quiet_get_bind fun host => ?_
  cases host.findTensor handle with
  | none => exact quiet_throw _
  | some tensor => exact quiet_bind (quiet_lift _) fun converted => quiet_newTensor _ _

end TensorRows

end FaberHosts.Wasm
