import FaberHosts.Lib.Runs
import FaberHosts.Wasm.Edges
import FaberHosts.Wasm.TensorRows

/-!
# Displays along a run

A guest may store any handle in any container.  A display ends as long as no call stores a
handle that leads back to the container it is stored in.
-/

namespace FaberHosts.Wasm
open FaberHosts.Lib HostState IndexRead

variable {κ μ ρ : Type} {kinds : ValueKinds}

/-! ## Calls -/

/-- A call of a guest: what its package has the host do, the rows that change a container and
    those of tensors.  The other rows read, or allocate what they return. -/
inductive HostCall (μ : Type) where
  | package (call : PackageCall μ)
  | arrayPush (handle : UInt32) (value : UInt64)
  | arrayExtend (destination source : UInt32)
  | arrayOption (handle : UInt32) (key : UInt64)
  | arrayReverse (handle : UInt32)
  | arraySort (handle : UInt32)
  | mapPut (handle key : UInt32) (value : UInt64)
  | mapDelete (handle : UInt32) (key : UInt64)
  | tensor (call : TensorCall)

namespace HostCall

/-- The host after a call, also after one that fails. -/
def step (d : Dialect) (ops : FloatOps) (compile : String → Except ρ κ) (host : HostState κ μ)
    (call : HostCall μ) : MayPanic (HostState κ μ) :=
  match call with
  | .package call => (call.perform d.toolchain compile host).map Prod.snd
  | .arrayPush handle value => (HostState.arrayPush d.kinds handle value host).map Prod.snd
  | .arrayExtend destination source => (HostState.arrayExtend destination source host).map Prod.snd
  | .arrayOption handle key =>
    (HostState.arrayOption d.toolchain d.kinds handle key host).map Prod.snd
  | .arrayReverse handle => (HostState.arrayReverse handle host).map Prod.snd
  | .arraySort handle => (HostState.arraySort handle host).map Prod.snd
  | .mapPut handle key value => (HostState.mapPut d.kinds handle key value host).map Prod.snd
  | .mapDelete handle key => (HostState.mapDelete d.kinds handle key host).map Prod.snd
  | .tensor call => (call.run d ops host).map Prod.snd

variable (kinds : ValueKinds) (host : HostState κ μ)

/-- The container that a call writes to: the one it names, or the new one. -/
def target : HostCall μ → UInt32
  | .arrayPush handle _ => handle
  | .arrayExtend destination _ => destination
  | .arrayOption handle _ => handle
  | .arrayReverse handle => handle
  | .arraySort handle => handle
  | .mapPut handle _ _ => handle
  | .mapDelete handle _ => handle
  | _ => host.nextDynamic

/-- The nested handles that a call stores there. -/
def stored : HostCall μ → List UInt32
  | .package (.allocCollection _ kind values) => values.filterMap (followedHandle kinds kind)
  | .package (.allocMap _ valueKind entries) =>
    entries.filterMap (fun entry => followedHandle kinds valueKind entry.2)
  | .package (.allocOption kind payload) => payload.toList.filterMap (followedHandle kinds kind)
  | .arrayPush handle value =>
    match host.findCollection handle with
    | some collection =>
      ((valueFromI64 kinds collection.kind value).bind
        (followedHandle kinds collection.kind)).toList
    | none => []
  | .arrayExtend destination source =>
    match host.findCollection destination, host.findCollection source with
    | some collection, some from_ => from_.values.filterMap (followedHandle kinds collection.kind)
    | _, _ => []
  | .mapPut handle _ value =>
    match host.findMap handle with
    | some map =>
      ((valueFromI64 kinds map.valueKind value).bind (followedHandle kinds map.valueKind)).toList
    | none => []
  | .tensor (.flatten handle) =>
    match host.findTensor handle with
    | some found => found.values.filterMap (followedHandle kinds found.kind)
    | none => []
  | _ => []

/-- No handle that the call stores leads back to the container it is stored in.  Nothing is
    followed from the handle of a text or octeti literal. -/
def Grounded (call : HostCall μ) : Prop :=
  ¬ host.Shadowed (call.target host) → ∀ nested ∈ call.stored kinds host,
    ¬ Relation.ReflTransGen (host.Follows kinds) nested (call.target host)

end HostCall

/-! ## What a call changes -/

section Steps

variable {d : Dialect} {ops : FloatOps} {compile : String → Except ρ κ} {host : HostState κ μ}

/-- However the call answers, only its target leads to new handles, those it stores. -/
abbrev Writes {ε α : Type} (kinds : ValueKinds) (host : HostState κ μ) (call : HostCall μ)
    (c : Call (HostState κ μ) ε α) : Prop :=
  c.wp True (fun _ => Redirects kinds (call.target host) (call.stored kinds host) host)
    (fun _ => Redirects kinds (call.target host) (call.stored kinds host) host) host

theorem writes_of_quiet {ε α : Type} {call : HostCall μ} {c : Call (HostState κ μ) ε α}
    (h : Moves (Quiet kinds) c) : Writes kinds host call c :=
  wp_of_moves h fun _ hquiet => hquiet.redirects

theorem writes_throw {ε α : Type} {call : HostCall μ} (e : ε) :
    Writes kinds host call (Call.throw e : Call (HostState κ μ) ε α) :=
  writes_of_quiet (quiet_throw e)

theorem quiet_modifyOcteti (handle : UInt32) (f : List UInt8 → List UInt8) :
    Quiet kinds host (modifyOcteti handle f host) := by
  unfold modifyOcteti
  cases (handleIndex handle).bind (host.rows[·]?) with
  | none => exact .refl host
  | some row =>
    dsimp only
    by_cases hkind : row.kind = .octeti
    · rw [if_pos hkind]
      refine quiet_of_same rfl rfl rfl rfl fun a ⟨index, found, hindex, hrow, hliteral⟩ => ?_
      refine ⟨index, found, hindex, hrow, hliteral.imp_right fun ⟨hfound, hsome⟩ => ?_⟩
      exact ⟨hfound, by simpa [List.getElem?_modify] using hsome⟩
    · rw [if_neg hkind]
      exact .refl host

theorem links_append {collection : CollectionValue} {values : List RuntimeValue} {b : UInt32}
    (hb : b ∈ ({ collection with values := collection.values ++ values } : CollectionValue).links
      kinds) : b ∈ collection.links kinds ∨
        b ∈ values.filterMap (followedHandle kinds collection.kind) := by
  unfold CollectionValue.links at hb ⊢
  rw [List.filterMap_append, List.mem_append] at hb
  exact hb

theorem links_subset {collection : CollectionValue} {values : List RuntimeValue} {b : UInt32}
    (hvalues : ∀ value ∈ values, value ∈ collection.values)
    (hb : b ∈ ({ collection with values := values } : CollectionValue).links kinds) :
    b ∈ collection.links kinds := by
  obtain ⟨value, hvalue, hfollowed⟩ := List.mem_filterMap.mp hb
  exact List.mem_filterMap.mpr ⟨value, hvalues value hvalue, hfollowed⟩

theorem writes_push (handle : UInt32) (value : UInt64) :
    Writes kinds host (.arrayPush handle value) (arrayPush kinds handle value) := by
  unfold Writes arrayPush
  rw [Call.wp_bind, Call.wp_get]
  cases hfound : host.findCollection handle with
  | some collection =>
    dsimp only
    cases hvalue : valueFromI64 kinds collection.kind value with
    | none => exact writes_throw _
    | some stored =>
      refine redirects_modifyCollection fun found hcollection b hb => ?_
      cases hfound.symm.trans hcollection
      refine (links_append hb).imp_right fun hnew => ?_
      obtain ⟨other, hother, hfollowed⟩ := List.mem_filterMap.mp hnew
      rw [List.mem_singleton.mp hother] at hfollowed
      simp [HostCall.stored, hfound, hvalue, hfollowed]
  | none =>
    dsimp only
    cases host.resolveOcteti handle with
    | some bytes => exact (quiet_modifyOcteti _ _).redirects
    | none => exact writes_throw _

theorem writes_extend (destination source : UInt32) :
    Writes kinds host (.arrayExtend destination source) (arrayExtend destination source) := by
  unfold Writes arrayExtend
  rw [Call.wp_bind, Call.wp_get]
  cases hfound : host.findCollection destination with
  | none => exact writes_throw _
  | some collection =>
    cases hsource : host.findCollection source with
    | none => exact writes_throw _
    | some other =>
      refine redirects_modifyCollection fun found hcollection b hb => ?_
      cases hfound.symm.trans hcollection
      refine (links_append hb).imp_right fun hnew => ?_
      simpa only [HostCall.stored, hfound, hsource] using hnew

theorem writes_option (T : Toolchain) (handle : UInt32) (key : UInt64) :
    Writes kinds host (.arrayOption handle key) (arrayOption T kinds handle key) := by
  have hremoves : ∀ (f : List RuntimeValue → List RuntimeValue) (kind : UInt32)
      (payload : Option RuntimeValue), (∀ values, ∀ value ∈ f values, value ∈ values) →
      Writes kinds host (.arrayOption handle key) (Call.modify (modifyCollection handle
        (fun c => { c with values := f c.values })) >>= fun _ =>
          optionResult T kinds kind payload) := by
    intro f kind payload hf
    refine writes_of_quiet (quiet_bind (moves_modify fun host => ?_)
      fun _ => moves_optionResult kind payload)
    have hredirects : Redirects kinds handle [] host
        (modifyCollection handle (fun c => { c with values := f c.values }) host) :=
      redirects_modifyCollection fun collection _ b hb =>
        .inl (links_subset (hf collection.values) hb)
    exact hredirects.quiet
  unfold Writes arrayOption
  rw [Call.wp_bind, Call.wp_get]
  cases host.findCollection handle with
  | some collection =>
    by_cases hlast : key = removeLastKey
    · simp only [if_pos hlast]
      exact hremoves _ _ _ fun values value => List.mem_of_mem_dropLast
    · simp only [if_neg hlast]
      by_cases hfirst : key = removeFirstKey
      · simp only [if_pos hfirst]
        exact hremoves _ _ _ fun values value => List.mem_of_mem_tail
      · simp only [if_neg hfirst]
        exact writes_of_quiet (moves_optionResult _ _)
  | none =>
    cases host.findMap handle with
    | some map => exact writes_of_quiet (moves_optionResult _ _)
    | none =>
      cases host.resolveOcteti handle with
      | some bytes =>
        dsimp only
        cases usizeOfI64 key with
        | none => exact writes_of_quiet (quiet_pure _)
        | some index => exact writes_of_quiet (moves_optionResult _ _)
      | none => exact writes_throw _

theorem writes_reorder {call : HostCall μ} {handle : UInt32}
    {f : List RuntimeValue → List RuntimeValue} (hf : ∀ values, ∀ value ∈ f values, value ∈ values)
    (hcall : call.target host = handle) : Redirects kinds (call.target host)
      (call.stored kinds host) host
      (modifyCollection handle (fun c => { c with values := f c.values }) host) := by
  rw [hcall]
  exact redirects_modifyCollection fun collection _ b hb =>
    .inl (links_subset (hf collection.values) hb)

theorem writes_reverse (handle : UInt32) :
    Writes kinds host (.arrayReverse handle) (arrayReverse handle) := by
  unfold Writes arrayReverse
  rw [Call.wp_bind, Call.wp_get]
  cases host.findCollection handle with
  | none => exact writes_throw _
  | some collection => exact writes_reorder (fun values value => List.mem_reverse.mp) rfl

theorem writes_sort (handle : UInt32) :
    Writes kinds host (.arraySort handle) (arraySort handle) := by
  unfold Writes arraySort
  rw [Call.wp_bind, Call.wp_get]
  cases host.findCollection handle with
  | none => exact writes_throw _
  | some collection => exact writes_reorder (fun values value => List.mem_mergeSort.mp) rfl

theorem writes_put (handle key : UInt32) (value : UInt64) :
    Writes kinds host (.mapPut handle key value) (mapPut kinds handle key value) := by
  unfold Writes mapPut
  rw [Call.wp_bind, Call.wp_get]
  cases hfound : host.findMap handle with
  | none => exact writes_throw _
  | some map =>
    dsimp only
    cases hvalue : valueFromI64 kinds map.valueKind value with
    | none => exact writes_throw _
    | some put =>
      refine redirects_modifyMap fun found hmap b hb => ?_
      cases hfound.symm.trans hmap
      obtain ⟨entry, hentry, hfollowed⟩ := List.mem_filterMap.mp hb
      rcases mem_assign hentry with hold | hnew
      · exact .inl (List.mem_filterMap.mpr ⟨entry, hold, hfollowed⟩)
      · right
        rw [hnew] at hfollowed
        simp [HostCall.stored, hfound, hvalue, hfollowed]

theorem writes_delete (handle : UInt32) (key : UInt64) :
    Writes kinds host (.mapDelete handle key) (mapDelete kinds handle key) := by
  unfold Writes mapDelete
  rw [Call.wp_bind, Call.wp_get]
  cases hfound : host.findMap handle with
  | some map =>
    refine redirects_modifyMap fun found hmap b hb => ?_
    cases hfound.symm.trans hmap
    obtain ⟨entry, hentry, hfollowed⟩ := List.mem_filterMap.mp hb
    exact .inl (List.mem_filterMap.mpr ⟨entry, (List.mem_filter.mp hentry).1, hfollowed⟩)
  | none =>
    dsimp only
    cases hcollection : host.findCollection handle with
    | none => exact writes_throw _
    | some collection =>
      dsimp only
      cases valueFromI64 kinds collection.kind key with
      | none => exact writes_throw _
      | some value =>
        refine redirects_modifyCollection fun found hsame b hb => ?_
        cases hcollection.symm.trans hsame
        exact .inl (links_subset (fun other hother => (List.mem_filter.mp hother).1) hb)

theorem writes_package (T : Toolchain) (call : PackageCall μ) :
    Writes kinds host (.package call) (call.perform T compile) := by
  have hallocated : ∀ {alloc : HostState κ μ → MayPanic (UInt32 × HostState κ μ)},
      (∀ {handle later}, alloc host = some (handle, later) → Redirects kinds host.nextDynamic
        ((HostCall.package call).stored kinds host) host later) →
      Writes kinds host (.package call) (PackageCall.perform.allocated alloc) := by
    intro alloc h
    unfold Writes Call.wp PackageCall.perform.allocated
    cases halloc : alloc host with
    | none => trivial
    | some answered => exact h halloc
  cases call with
  | initializeLiteralTable table =>
    exact writes_of_quiet (quiet_bind (moves_initializeLiteralTable compile table)
      fun _ => quiet_pure _)
  | allocRegex pattern flags =>
    refine writes_of_quiet fun host answer later h => ?_
    obtain ⟨answered, hanswered, heq⟩ := Option.map_eq_some_iff.mp h
    cases heq
    unfold allocRegex at hanswered
    cases hcompile : compile pattern with
    | error e =>
      rw [hcompile] at hanswered
      cases hanswered
      exact .refl host
    | ok compiled =>
      rw [hcompile] at hanswered
      obtain ⟨allocated, hallocated, heq⟩ := Option.map_eq_some_iff.mp hanswered
      cases heq
      exact quiet_allocDynamic (by exact id) hallocated
  | allocText text => exact hallocated fun h => (quiet_allocDynamic (by exact id) h).redirects
  | allocMatch found => exact hallocated fun h => (quiet_allocDynamic (by exact id) h).redirects
  | allocCollection set kind values => exact hallocated redirects_allocCollection
  | allocMap keyKind valueKind entries => exact hallocated redirects_allocMap
  | allocOption kind payload => exact hallocated redirects_allocOption
  | allocTensor tensor => exact hallocated fun h => (quiet_allocTensor h).redirects

theorem writes_flatten (handle : UInt32) :
    Writes kinds host (.tensor (.flatten handle)) (tensorFlatten d handle) := by
  unfold Writes tensorFlatten
  rw [Call.wp_bind, Call.wp_get]
  cases hfound : host.findTensor handle with
  | none => exact writes_throw _
  | some tensor =>
    dsimp only
    rw [Call.wp_infallible]
    refine ⟨fun _ => trivial, fun answer later h => ?_⟩
    simp only [HostCall.stored, hfound]
    exact redirects_allocCollection h

theorem writes_tensor (call : TensorCall) :
    Writes d.kinds host (.tensor call) (call.run d ops) := by
  have hmap : ∀ {α : Type} {c : Call (HostState κ μ) String α} (f : α → TensorAnswer),
      Moves (Quiet d.kinds) c → Writes d.kinds host (.tensor call) (f <$> c) :=
    fun f h => writes_of_quiet (quiet_bind h fun _ => quiet_pure _)
  cases call with
  | new kind => exact hmap _ (quiet_newTensor _ _)
  | create seed bits dims => exact hmap _ (quiet_create dims seed bits)
  | fromFlat seed flat dims => exact hmap _ (quiet_fromFlat dims seed flat)
  | rank handle => exact hmap _ (quiet_rank handle)
  | shape handle => exact hmap _ (quiet_shape handle)
  | reshape handle dims => exact hmap _ (quiet_reshape handle dims)
  | get handle index => exact hmap _ (quiet_get handle index)
  | set handle index bits => exact hmap _ (quiet_set handle index bits)
  | fill handle bits => exact hmap _ (quiet_fill handle bits)
  | flatten handle => exact (Call.wp_map _ _).mpr (writes_flatten handle)
  | materialize handle => exact hmap _ (quiet_materialize handle)
  | slice handle start stop => exact hmap _ (quiet_slice handle start stop)
  | binary op left right => exact hmap _ (quiet_binary op left right)
  | matmul left right => exact hmap _ (quiet_matmul left right)
  | sum handle => exact hmap _ (quiet_sum handle)
  | mean handle => exact hmap _ (quiet_mean handle)
  | convert handle source target => exact hmap _ (quiet_convert handle source target)

/-- A call leads to new handles from its target only, to those it stores. -/
theorem HostCall.step_redirects {call : HostCall μ} {later : HostState κ μ}
    (h : call.step d ops compile host = some later) :
    Redirects d.kinds (call.target host) (call.stored d.kinds host) host later := by
  have hleft : ∀ {ε α : Type} {c : Call (HostState κ μ) ε α}, Writes d.kinds host call c →
      (c host).map Prod.snd = some later →
      Redirects d.kinds (call.target host) (call.stored d.kinds host) host later := by
    intro ε α c hwrites hlater
    obtain ⟨⟨answer, t⟩, hc, heq⟩ := Option.map_eq_some_iff.mp hlater
    cases heq
    exact Call.wp_of_some hwrites hc
  cases call with
  | package call => exact hleft (writes_package d.toolchain call) h
  | arrayPush handle value => exact hleft (writes_push handle value) h
  | arrayExtend destination source => exact hleft (writes_extend destination source) h
  | arrayOption handle key => exact hleft (writes_option d.toolchain handle key) h
  | arrayReverse handle => exact hleft (writes_reverse handle) h
  | arraySort handle => exact hleft (writes_sort handle) h
  | mapPut handle key value => exact hleft (writes_put handle key value) h
  | mapDelete handle key => exact hleft (writes_delete handle key) h
  | tensor call => exact hleft (writes_tensor call) h

end Steps

/-! ## Runs -/

section Runs

theorem findCollection_mem {host : HostState κ μ} {collection : CollectionValue} {handle : UInt32}
    (h : host.findCollection handle = some collection) : collection ∈ host.collections := by
  unfold findCollection at h
  split at h
  next => exact List.mem_of_getElem? h
  next => cases h

/-- Nothing is followed where the lists hold no handles and there are no maps and options. -/
theorem not_follows_of_empty {host : HostState κ μ}
    (hcollections : ∀ collection ∈ host.collections, collection.links kinds = [])
    (hmaps : host.maps = []) (hoptions : host.options = []) (a b : UInt32) :
    ¬ host.Follows kinds a b := by
  rintro ⟨-, hlink⟩
  have hmap : host.findMap a = none := by
    unfold findMap
    rw [hmaps]
    split <;> rfl
  have hoption : host.findOption a = none := by
    unfold findOption
    rw [hoptions]
    split <;> rfl
  unfold HostState.links at hlink
  rw [hmap, hoption] at hlink
  cases hfound : host.findCollection a with
  | none => simp [hfound] at hlink
  | some collection => simp [hfound, hcollections collection (findCollection_mem hfound)] at hlink

variable (d : Dialect) (ops : FloatOps) (compile : String → Except ρ κ)

/-- Every container has one handle, and following the handles in containers ends. -/
structure Acyclic (host : HostState κ μ) : Prop where
  placed : host.Placed
  ends : Terminating (host.Follows d.kinds)

theorem acyclic_new : Acyclic d (HostState.new : HostState κ μ) :=
  ⟨placed_new, terminating_of_no_edge (not_follows_of_empty nofun rfl rfl)⟩

variable {d ops compile} {host later : HostState κ μ} {call : HostCall μ}

/-- A call that stores no handle leading back keeps the containers free of cycles. -/
theorem Acyclic.step (hinv : Acyclic d host) (hgrounded : call.Grounded d.kinds host)
    (h : call.step d ops compile host = some later) : Acyclic d later := by
  have hredirects := HostCall.step_redirects h
  refine ⟨hredirects.placed hinv.placed,
    hinv.ends.redirect (a := call.target host) fun a b hfollows => ?_⟩
  rcases hredirects.follows hinv.placed a b hfollows with hold | ⟨heq, hstored, hopen⟩
  · exact .inl hold
  · exact .inr ⟨heq, hgrounded hopen b hstored⟩

/-- Along a run whose calls store no handle leading back to its container, both displays of
    every handle end, with a text or a failure. -/
theorem displays_end (calls : List (HostCall μ))
    (hgrounded : StepsMeet (HostCall.step d ops compile)
      (fun host call => call.Grounded d.kinds host) HostState.new calls)
    (hrun : runSteps (HostCall.step d ops compile) HostState.new calls = some host)
    (handle : UInt32) : d.Displays host handle := by
  have hacyclic : Acyclic d host := runSteps_preserves_of_meets
    (fun _ _ _ hinv hgrounded hstep => Acyclic.step hinv hgrounded hstep) hgrounded
    (acyclic_new d) hrun
  exact Dialect.displays_of_terminating hacyclic.ends handle

end Runs

/-- A regex compiler that takes every pattern. -/
def compileAll : String → Except Unit Unit := fun _ => .ok ()

/-- A text and a list of handles, which then gets the text. -/
def nestedCalls : List (HostCall Unit) :=
  [.package (.allocText "a"), .package (.allocCollection false ValueKinds.counted.ptr []),
    .arrayPush 1 0]

/-- Floats whose sums and products are all 0. -/
def zeroOps : FloatOps :=
  ⟨fun _ _ => 0, fun _ _ => 0, fun _ _ => 0, fun _ _ => 0, fun _ => 0, fun _ => 0, fun _ => 0,
    fun _ => 0, fun _ => 0⟩

theorem nestedCalls_display : ∃ host : HostState Unit Unit,
    runSteps (HostCall.step plainDialect zeroOps compileAll) .new nestedCalls = some host ∧
      plainDialect.Displays host 1 := by
  have hempty : ∀ {later : HostState Unit Unit} {kind : UInt32},
      later.collections = [⟨false, kind, []⟩] → later.maps = [] → later.options = [] →
      ∀ a b, ¬ later.Follows plainDialect.kinds a b := by
    intro later kind hcollections
    refine not_follows_of_empty fun collection hcollection => ?_
    rw [hcollections] at hcollection
    rw [List.mem_singleton.mp hcollection]
    rfl
  refine ⟨_, rfl, @displays_end Unit Unit Unit plainDialect zeroOps compileAll _ nestedCalls
    ⟨nofun, fun texted htexted => ⟨nofun, fun listed hlisted => ⟨fun _ nested hnested hwalk => ?_,
      fun _ _ => trivial⟩⟩⟩ rfl 1⟩
  cases htexted
  cases hlisted
  cases List.mem_singleton.mp hnested
  rcases hwalk.cases_head with heq | ⟨next, hfollows, -⟩
  · cases heq
  · exact hempty rfl rfl rfl _ _ hfollows

/-- A list of handles that holds its own. -/
def selfHost : HostState Unit Unit :=
  { (HostState.new : HostState Unit Unit) with
    collections := [⟨false, ValueKinds.counted.ptr, [.handle 0]⟩]
    nextDynamic := 1
    dynamic := (∅ : BTreeMap UInt32 (DynamicValue Unit Unit)).insert 0 (.collection 0) }

theorem selfHost_display (depth : Nat) :
    (Dialect.renderHandleDisplay plainDialect selfHost depth 0).run = none := by
  induction depth with
  | zero => rfl
  | succ depth ih =>
    change (Dialect.renderCollection plainDialect selfHost
      (Dialect.renderHandleDisplay plainDialect selfHost depth)
      ⟨false, ValueKinds.counted.ptr, [.handle 0]⟩).run = none
    have helement : Dialect.renderElement plainDialect selfHost
        (Dialect.renderHandleDisplay plainDialect selfHost depth) ValueKinds.counted.ptr
        (.handle 0) = Dialect.renderHandleDisplay plainDialect selfHost depth 0 := rfl
    unfold Dialect.renderCollection
    rw [List.mapM_cons, helement, bind_assoc, OptionT.run_bind, ih]
    rfl

theorem selfHost_reached :
    runSteps (HostCall.step plainDialect zeroOps compileAll) HostState.new
      [.package (.allocCollection false ValueKinds.counted.ptr []), .arrayPush 0 0] =
        some selfHost ∧
      ¬ plainDialect.Displays selfHost 0 := by
  refine ⟨rfl, fun hdisplays => ?_⟩
  obtain ⟨⟨depth, shown, hshown⟩, -⟩ := hdisplays
  rw [selfHost_display depth] at hshown
  cases hshown

end FaberHosts.Wasm
