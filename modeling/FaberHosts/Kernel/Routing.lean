import FaberHosts.Lib.Scan
import FaberHosts.Kernel.Registry

/-!
# What the registry keeps

After any registrations the kernel holds exactly what the accepted providers
declare, and a dispatched request meets the contract of its route.
-/

namespace FaberHosts.Kernel
open FaberHosts.Lib

/-! ## Valid manifests -/

theorem nodup_of_size_setOf {l : List String} (h : (setOf l).size = l.length) : l.Nodup := by
  have hsame : (setOf l).toList.toFinset = l.toFinset := by
    ext a
    simp
  have hcard : l.dedup.length = l.length := by
    rw [← List.card_toFinset, ← hsame, List.toFinset_card_of_nodup (nodup_toList _),
      Std.ExtTreeSet.length_toList, h]
  exact List.dedup_eq_self.mp ((List.dedup_sublist l).eq_of_length hcard)

theorem setOf_append_singleton (l : List String) (a : String) :
    (setOf l).insert a = setOf (l ++ [a]) := by
  refine Std.ExtTreeSet.ext_mem (fun b => ?_)
  rw [mem_insert_iff]
  simp [or_comm]

/-- What an accepted manifest says of its calls and prefixes. -/
structure ValidManifest (manifest : ProviderManifest) : Prop where
  owned : manifest.prefixes ≠ []
  calls : ∀ call ∈ manifest.calls, ∃ contract owner verb,
    RouteContract.parse call = .ok contract ∧ splitOnce call.route = some (owner, verb) ∧
      owner ∈ manifest.prefixes
  prefixes : manifest.prefixes.Nodup
  routes : (manifest.calls.map (·.route)).Nodup

/-- What the loop over the calls remembers. -/
def seenRoutes (calls : List ManifestCall) : BTreeSet String := setOf (calls.map (·.route))

theorem seenRoutes_append_singleton (calls : List ManifestCall) (call : ManifestCall) :
    seenRoutes (calls ++ [call]) = (seenRoutes calls).insert call.route := by
  unfold seenRoutes
  rw [List.map_append, List.map_singleton, setOf_append_singleton]

/-- What `checkCall` asks of a call after the calls before it. -/
def CallFits (prefixes : BTreeSet String) (before : List ManifestCall) (call : ManifestCall) :
    Prop :=
  (∃ contract owner verb, RouteContract.parse call = .ok contract ∧
    splitOnce call.route = some (owner, verb) ∧
      ¬ (verb = "" ∨ ':' ∈ verb.toList ∨ owner ∉ prefixes)) ∧
  call.route ∉ before.map (·.route)

theorem checkCall_ok_iff {prefixes : BTreeSet String} {before : List ManifestCall}
    {call : ManifestCall} {t : BTreeSet String} :
    checkCall prefixes (seenRoutes before) call = .ok t ↔
      CallFits prefixes before call ∧ seenRoutes (before ++ [call]) = t := by
  rw [seenRoutes_append_singleton]
  unfold checkCall CallFits
  cases hparse : RouteContract.parse call with
  | error e => simp [bind, Except.bind]
  | ok contract =>
    cases hsplit : splitOnce call.route with
    | none => simp [bind, Except.bind]
    | some ends =>
      obtain ⟨owner, verb⟩ := ends
      simp only [bind, Except.bind, seenRoutes, mem_setOf]
      by_cases hbad : verb = "" ∨ ':' ∈ verb.toList ∨ owner ∉ prefixes
      · rw [if_pos hbad]
        simp only [reduceCtorEq, false_iff, not_and]
        rintro ⟨⟨_, _, _, -, heq, hgood⟩, -⟩
        cases heq
        exact absurd hbad hgood
      · rw [if_neg hbad]
        by_cases hold : call.route ∈ before.map (·.route)
        · rw [if_pos hold]
          simp [hold]
        · rw [if_neg hold]
          simp only [Except.ok.injEq, Option.some.injEq, Prod.mk.injEq]
          constructor
          · intro h
            exact ⟨⟨⟨contract, owner, verb, rfl, ⟨rfl, rfl⟩, hbad⟩, hold⟩, h⟩
          · exact And.right

theorem checkCalls_ok {prefixes routes : BTreeSet String} {calls : List ManifestCall}
    (h : calls.foldlM (checkCall prefixes) ∅ = .ok routes) :
    EachAfter (CallFits prefixes) [] calls := by
  have hstart : (∅ : BTreeSet String) = seenRoutes [] := rfl
  rw [hstart] at h
  have hwalk := foldlM_ok_iff (checkCall prefixes) seenRoutes (CallFits prefixes) [] calls routes
    (fun before call t _ => checkCall_ok_iff) trivial
  exact (hwalk.mp h).1

theorem validManifest_of_ok {manifest : ProviderManifest}
    (h : validateManifest manifest = .ok ()) : ValidManifest manifest := by
  unfold validateManifest at h
  split at h
  · cases h
  split at h
  · cases h
  next hnamed =>
  split at h
  · cases h
  split at h
  · cases h
  next hsize =>
    cases hnames : tryEach checkPrefix manifest.prefixes with
    | error e =>
      rw [hnames] at h
      cases h
    | ok u =>
      rw [hnames] at h
      cases hcalls : manifest.calls.foldlM (checkCall (setOf manifest.prefixes)) ∅ with
      | error e =>
        rw [hcalls] at h
        cases h
      | ok routes =>
        have hfits := checkCalls_ok hcalls
        unfold CallFits at hfits
        rw [eachAfter_and, eachAfter_const, eachAfter_notMem_map] at hfits
        refine ⟨(not_or.mp hnamed).2, ?_, nodup_of_size_setOf (not_not.mp hsize), hfits.2⟩
        intro call hcall
        obtain ⟨contract, owner, verb, hparse, hsplit, hgood⟩ := hfits.1 call hcall
        push Not at hgood
        exact ⟨contract, owner, verb, hparse, hsplit, (mem_setOf _ _).mp hgood.2.2⟩

/-! ## Registrations -/

theorem mapM_parse_ok {calls : List ManifestCall} {contracts : List (String × RouteContract)}
    (h : calls.mapM (fun call => do
      let contract ← RouteContract.parse call
      Except.ok (ε := HostError) (call.route, contract)) = .ok contracts) :
    contracts.map Prod.fst = calls.map (·.route) ∧
      ∀ entry, entry ∈ contracts ↔
        ∃ call ∈ calls, call.route = entry.1 ∧ RouteContract.parse call = .ok entry.2 := by
  induction calls generalizing contracts with
  | nil =>
    cases h
    simp
  | cons call rest ih =>
    rw [List.mapM_cons] at h
    cases hparse : RouteContract.parse call with
    | error e =>
      rw [hparse] at h
      cases h
    | ok contract =>
      rw [hparse] at h
      obtain ⟨first, hfirst, h⟩ := bind_ok_iff.mp h
      cases hfirst
      obtain ⟨later, hlater, h⟩ := bind_ok_iff.mp h
      cases h
      obtain ⟨hkeys, hentries⟩ := ih hlater
      constructor
      · rw [List.map_cons, List.map_cons, hkeys]
      · rintro ⟨route, found⟩
        simp only [List.mem_cons, hentries, Prod.mk.injEq, exists_eq_or_imp, hparse,
          Except.ok.injEq]
        tauto

/-- The checks of a registration. -/
structure Admitted (kernel : Kernel) (manifest : ProviderManifest)
    (contracts : List (String × RouteContract)) : Prop where
  valid : ValidManifest manifest
  identity : ∀ (name : String) (owner : Provider), kernel.providers[name]? = some owner →
    owner.manifest.provider ≠ manifest.provider
  prefixes : ∀ name ∈ manifest.prefixes, name ∉ kernel.providers
  routes : ∀ call ∈ manifest.calls, call.route ∉ kernel.routes
  keys : contracts.map Prod.fst = manifest.calls.map (·.route)
  entries : ∀ entry, entry ∈ contracts ↔
    ∃ call ∈ manifest.calls, call.route = entry.1 ∧ RouteContract.parse call = .ok entry.2

theorem admitted_of_ok {kernel : Kernel} {manifest : ProviderManifest}
    {contracts : List (String × RouteContract)}
    (h : kernel.registerChecks manifest = .ok contracts) : Admitted kernel manifest contracts := by
  unfold Kernel.registerChecks at h
  obtain ⟨_, hvalid, h⟩ := bind_ok_iff.mp h
  split at h
  · cases h
  next hidentity =>
    obtain ⟨_, hnames, h⟩ := bind_ok_iff.mp h
    obtain ⟨_, hroutes, h⟩ := bind_ok_iff.mp h
    obtain ⟨hkeys, hentries⟩ := mapM_parse_ok h
    refine ⟨validManifest_of_ok hvalid, ?_, ?_, ?_, hkeys, hentries⟩
    · intro name owner hget heq
      apply hidentity
      rw [List.any_eq_true]
      exact ⟨(name, owner), Std.ExtTreeMap.mem_toList_iff_getElem?_eq_some.mpr hget, by simpa⟩
    · intro name hname hmem
      have hcheck := tryEach_ok_iff.mp hnames name hname
      rw [if_pos hmem] at hcheck
      cases hcheck
    · intro call hcall hmem
      have hcheck := tryEach_ok_iff.mp hroutes call hcall
      rw [if_pos hmem] at hcheck
      cases hcheck

/-- The routes a provider exports. -/
def Provider.routes (provider : Provider) : List String := provider.manifest.calls.map (·.route)

/-- The kernel holds what the accepted providers declare, and nothing else. -/
structure Registered (accepted : List Provider) (kernel : Kernel) : Prop where
  providers : ∀ name provider, kernel.providers[name]? = some provider ↔
    provider ∈ accepted ∧ name ∈ provider.manifest.prefixes
  routes : ∀ route, route ∈ kernel.routes ↔ ∃ provider ∈ accepted, route ∈ provider.routes
  contracts : ∀ route contract, kernel.routeContracts[route]? = some contract ↔
    ∃ provider ∈ accepted, ∃ call ∈ provider.manifest.calls,
      call.route = route ∧ RouteContract.parse call = .ok contract
  identities : (accepted.map (·.manifest.provider)).Nodup
  prefixes : (accepted.flatMap (·.manifest.prefixes)).Nodup
  exported : (accepted.flatMap Provider.routes).Nodup
  valid : ∀ provider ∈ accepted, ValidManifest provider.manifest

theorem registered_new : Registered [] Kernel.new where
  providers := by simp [Kernel.new]
  routes := by simp [Kernel.new]
  contracts := by simp [Kernel.new]
  identities := List.nodup_nil
  prefixes := List.nodup_nil
  exported := List.nodup_nil
  valid := by simp

theorem mem_foldl_insert_routes {calls : List ManifestCall} {routes : BTreeSet String}
    {route : String} :
    route ∈ calls.foldl (fun set call => set.insert call.route) routes ↔
      route ∈ calls.map (·.route) ∨ route ∈ routes := by
  induction calls generalizing routes with
  | nil => simp
  | cons call rest ih =>
    rw [List.foldl_cons, ih, mem_insert_iff, List.map_cons, List.mem_cons]
    tauto

theorem getElem?_foldl_insert_owner {names : List String} {providers : BTreeMap String Provider}
    {provider found : Provider} {name : String} (hnames : names.Nodup) :
    (names.foldl (fun map name => map.insert name provider) providers)[name]? = some found ↔
      name ∈ names ∧ found = provider ∨ name ∉ names ∧ providers[name]? = some found := by
  have hmap : names.foldl (fun map name => map.insert name provider) providers =
      (names.map fun name => (name, provider)).foldl
        (fun map entry => map.insert entry.1 entry.2) providers := by
    rw [List.foldl_map]
  have hkeys : (names.map fun name => (name, provider)).map Prod.fst = names := by
    simp [List.map_map, Function.comp_def]
  rw [hmap, getElem?_foldl_insert_iff (hkeys.symm ▸ hnames), hkeys]
  simp [and_comm, eq_comm]

theorem register_error {kernel : Kernel} {provider : Provider} {e : HostError}
    (h : (kernel.register provider).1 = .error e) : (kernel.register provider).2 = kernel := by
  unfold Kernel.register at h ⊢
  split at h
  · rfl
  · cases h

/-- One registration that returns adds its provider to the accepted ones. -/
theorem Registered.register {accepted : List Provider} {kernel : Kernel} {provider : Provider}
    (h : Registered accepted kernel) (hok : (kernel.register provider).1 = .ok ()) :
    Registered (accepted ++ [provider]) (kernel.register provider).2 := by
  cases hchecks : kernel.registerChecks provider.manifest with
  | error e =>
    rw [Kernel.register, hchecks] at hok
    cases hok
  | ok contracts =>
    have hadmitted := admitted_of_ok hchecks
    have hvalid := hadmitted.valid
    have hnewPrefix : ∀ name ∈ provider.manifest.prefixes, ∀ other ∈ accepted,
        name ∉ other.manifest.prefixes := by
      intro name hname other hother hmem
      exact hadmitted.prefixes name hname
        ((mem_iff_getElem? _ _).mpr ⟨other, (h.providers name other).mpr ⟨hother, hmem⟩⟩)
    have hnewRoute : ∀ route ∈ provider.routes, ∀ other ∈ accepted, route ∉ other.routes := by
      intro route hroute other hother hmem
      obtain ⟨call, hcall, rfl⟩ := List.mem_map.mp hroute
      exact hadmitted.routes call hcall ((h.routes _).mpr ⟨other, hother, hmem⟩)
    rw [Kernel.register, hchecks]
    constructor
    case providers =>
      intro name found
      rw [getElem?_foldl_insert_owner hvalid.prefixes, h.providers, List.mem_append,
        List.mem_singleton]
      constructor
      · rintro (⟨hname, rfl⟩ | ⟨-, hfound, hname⟩)
        · exact ⟨Or.inr rfl, hname⟩
        · exact ⟨Or.inl hfound, hname⟩
      · rintro ⟨hfound | rfl, hname⟩
        · exact Or.inr ⟨fun hnew => hnewPrefix name hnew found hfound hname, hfound, hname⟩
        · exact Or.inl ⟨hname, rfl⟩
    case routes =>
      intro route
      rw [mem_foldl_insert_routes, h.routes]
      simp only [List.mem_append, List.mem_singleton, or_and_right, exists_or, exists_eq_left]
      exact or_comm
    case contracts =>
      intro route contract
      have hkeys : (contracts.map Prod.fst).Nodup := hadmitted.keys ▸ hvalid.routes
      rw [getElem?_foldl_insert_iff hkeys, h.contracts, hadmitted.entries, hadmitted.keys]
      constructor
      · rintro (⟨call, hcall, hroute, hparse⟩ | ⟨-, other, hother, hcall⟩)
        · exact ⟨provider, by simp, call, hcall, hroute, hparse⟩
        · exact ⟨other, by simp [hother], hcall⟩
      · rintro ⟨other, hother, call, hcall, rfl, hparse⟩
        rcases List.mem_append.mp hother with hother | hother
        · refine Or.inr ⟨fun hnew => ?_, other, hother, call, hcall, rfl, hparse⟩
          exact hnewRoute call.route hnew other hother (List.mem_map_of_mem hcall)
        · cases List.mem_singleton.mp hother
          exact Or.inl ⟨call, hcall, rfl, hparse⟩
    case identities =>
      rw [List.map_append, List.nodup_append]
      refine ⟨h.identities, by simp, ?_⟩
      rintro identity hidentity _ hlast rfl
      obtain ⟨other, hother, heq⟩ := List.mem_map.mp hidentity
      rw [List.map_singleton, List.mem_singleton] at hlast
      obtain ⟨name, hname⟩ := List.exists_mem_of_ne_nil _ (h.valid other hother).owned
      exact hadmitted.identity name other ((h.providers name other).mpr ⟨hother, hname⟩)
        (heq.trans hlast)
    case prefixes =>
      rw [List.flatMap_append, List.flatMap_singleton, List.nodup_append]
      refine ⟨h.prefixes, hvalid.prefixes, ?_⟩
      rintro name hold _ hnew rfl
      obtain ⟨other, hother, hname⟩ := List.mem_flatMap.mp hold
      exact hnewPrefix name hnew other hother hname
    case exported =>
      rw [List.flatMap_append, List.flatMap_singleton, List.nodup_append]
      refine ⟨h.exported, hvalid.routes, ?_⟩
      rintro route hold _ hnew rfl
      obtain ⟨other, hother, hroute⟩ := List.mem_flatMap.mp hold
      exact hnewRoute route hnew other hother hroute
    case valid =>
      intro other hother
      rcases List.mem_append.mp hother with hother | hother
      · exact h.valid other hother
      · exact List.mem_singleton.mp hother ▸ hvalid

/-- A run of registrations from the empty kernel: the kernel, and the providers it
    accepted in order. -/
def registerAll (attempts : List Provider) : Kernel × List Provider :=
  attempts.foldl (fun state provider =>
    match state.1.register provider with
    | (.ok (), next) => (next, state.2 ++ [provider])
    | (.error _, next) => (next, state.2)) (Kernel.new, [])

theorem registered_registerAll (attempts : List Provider) :
    Registered (registerAll attempts).2 (registerAll attempts).1 := by
  induction attempts using List.reverseRecOn with
  | nil => exact registered_new
  | append_singleton attempts provider ih =>
    rw [registerAll, List.foldl_append, List.foldl_cons, List.foldl_nil, ← registerAll]
    cases hresult : (registerAll attempts).1.register provider with
    | mk answer next =>
      cases answer with
      | ok u =>
        have hok : ((registerAll attempts).1.register provider).1 = .ok () := by rw [hresult]
        have hstep := ih.register hok
        rwa [hresult] at hstep
      | error e =>
        have herror : ((registerAll attempts).1.register provider).1 = .error e := by rw [hresult]
        have hsame := register_error herror
        rw [hresult] at hsame
        show Registered (registerAll attempts).2 next
        rw [show next = (registerAll attempts).1 from hsame]
        exact ih

/-! ## Dispatch -/

/-- What a dispatch through the registered providers did. -/
structure Routed (accepted : List Provider) (request : RequestFrame) (context : DispatchContext)
    (provider : Provider) (contract : RouteContract) (dispatched : Kernel.Dispatched) : Prop where
  registered : provider ∈ accepted
  exported : ∃ call ∈ provider.manifest.calls,
    call.route = request.route ∧ RouteContract.parse call = .ok contract
  opener : contract.opener.accepts request.opener = true
  answer : dispatched = Kernel.invoke provider contract request context

/-- A route with a contract has its prefix registered to the provider that declares it. -/
theorem Registered.owner {accepted : List Provider} {kernel : Kernel}
    (h : Registered accepted kernel) {provider : Provider} (hprovider : provider ∈ accepted)
    {call : ManifestCall} (hcall : call ∈ provider.manifest.calls) :
    ∃ owner verb, splitOnce call.route = some (owner, verb) ∧
      kernel.providers[owner]? = some provider := by
  obtain ⟨_, owner, verb, -, hsplit, howner⟩ := (h.valid provider hprovider).calls call hcall
  exact ⟨owner, verb, hsplit, (h.providers owner provider).mpr ⟨hprovider, howner⟩⟩

theorem Registered.routes_iff_contract {accepted : List Provider} {kernel : Kernel}
    (h : Registered accepted kernel) (route : String) :
    route ∈ kernel.routes ↔ route ∈ kernel.routeContracts := by
  rw [h.routes, mem_iff_getElem?]
  constructor
  · rintro ⟨provider, hprovider, hroute⟩
    obtain ⟨call, hcall, rfl⟩ := List.mem_map.mp hroute
    obtain ⟨contract, _, _, hparse, -, -⟩ := (h.valid provider hprovider).calls call hcall
    exact ⟨contract, (h.contracts _ _).mpr ⟨provider, hprovider, call, hcall, rfl, hparse⟩⟩
  · rintro ⟨contract, hcontract⟩
    obtain ⟨provider, hprovider, call, hcall, rfl, -⟩ := (h.contracts _ _).mp hcontract
    exact ⟨provider, hprovider, List.mem_map_of_mem hcall⟩

/-- Each dispatch ends before it calls a provider, or calls the one that declared the
    route under its contract. -/
theorem Registered.dispatch_cases {accepted : List Provider} {kernel : Kernel}
    (h : Registered accepted kernel) (request : RequestFrame) (context : DispatchContext) :
    (∃ e, kernel.dispatch request context = ⟨none, .error e⟩ ∧
        (kernel.supportsRoute request.route = true → e.code ≠ "E_NO_ROUTE")) ∨
      ∃ provider contract,
        Routed accepted request context provider contract (kernel.dispatch request context) := by
  unfold Kernel.dispatch
  split
  next e hcancelled =>
    refine Or.inl ⟨e, rfl, fun _ => ?_⟩
    unfold CancellationProbe.tryIsCancelled at hcancelled
    split at hcancelled
    · cases hcancelled
    · cases hcancelled
      simp [HostError.internal]
  · exact Or.inl ⟨_, rfl, fun _ => by simp [HostError.cancelled]⟩
  split
  next hsplit =>
    refine Or.inl ⟨_, rfl, fun hsupported => ?_⟩
    obtain ⟨provider, hprovider, hroute⟩ :=
      (h.routes _).mp (Std.ExtTreeSet.contains_iff_mem.mp hsupported)
    obtain ⟨call, hcall, heq⟩ := List.mem_map.mp hroute
    obtain ⟨owner, verb, howner, -⟩ := h.owner hprovider hcall
    rw [heq, hsplit] at howner
    cases howner
  next owner verb hsplit =>
    by_cases hroute : request.route ∈ kernel.routes
    · obtain ⟨provider, hprovider, hexported⟩ := (h.routes _).mp hroute
      obtain ⟨call, hcall, heq⟩ := List.mem_map.mp hexported
      obtain ⟨owner', verb', hsplit', hfound⟩ := h.owner hprovider hcall
      rw [heq, hsplit] at hsplit'
      cases hsplit'
      obtain ⟨contract, hcontract⟩ :=
        (mem_iff_getElem? _ _).mp ((h.routes_iff_contract _).mp hroute)
      obtain ⟨other, hother, call', hcall', heq', hparse⟩ := (h.contracts _ _).mp hcontract
      obtain ⟨owner', verb', hsplit', hfound'⟩ := h.owner hother hcall'
      rw [heq', hsplit] at hsplit'
      cases hsplit'
      cases Option.some.inj (hfound.symm.trans hfound')
      simp only [hfound, hcontract, if_neg (not_not.mpr hroute)]
      unfold validateRequestContract
      by_cases hopener : contract.opener.accepts request.opener = true
      · rw [if_pos hopener]
        exact Or.inr ⟨provider, contract, hprovider, ⟨call', hcall', heq', hparse⟩, hopener, rfl⟩
      · rw [if_neg hopener]
        exact Or.inl ⟨_, rfl, fun _ => by simp [HostError.invalidArgs]⟩
    · have hunsupported : kernel.supportsRoute request.route = true → False :=
        fun hsupported => hroute (Std.ExtTreeSet.contains_iff_mem.mp hsupported)
      split
      · exact Or.inl ⟨_, rfl, fun hsupported => (hunsupported hsupported).elim⟩
      · rw [if_pos hroute]
        exact Or.inl ⟨_, rfl, fun hsupported => (hunsupported hsupported).elim⟩

theorem invoke_cases (provider : Provider) (contract : RouteContract) (request : RequestFrame)
    (context : DispatchContext) :
    ((Kernel.invoke provider contract request context).answer = .error .providerPanic) ∨
    (∃ e, provider.dispatch request context = some (.error e) ∧
      (Kernel.invoke provider contract request context).answer = .error e) ∨
    ∃ reply, provider.dispatch request context = some (.ok reply) ∧
      ((contract.result.accepts reply.contents = true ∧
        (Kernel.invoke provider contract request context).answer = .ok reply) ∨
      ∃ message, (Kernel.invoke provider contract request context).answer =
        .error (.internal message)) := by
  unfold Kernel.invoke
  cases hdispatch : provider.dispatch request context with
  | none => exact Or.inl rfl
  | some answer =>
    cases answer with
    | error e => exact Or.inr (Or.inl ⟨e, rfl, rfl⟩)
    | ok reply =>
      refine Or.inr (Or.inr ⟨reply, rfl, ?_⟩)
      simp only [validateReplyContract]
      by_cases haccepts : contract.result.accepts reply.contents = true
      · rw [if_pos haccepts]
        exact Or.inl ⟨haccepts, rfl⟩
      · rw [if_neg haccepts]
        exact Or.inr ⟨_, rfl⟩

def Kernel.Dispatched.errorCode (dispatched : Kernel.Dispatched) : Option String :=
  match dispatched.answer with
  | .error e => some e.code
  | .ok _ => none

/-- A supported route answers `E_NO_ROUTE` only in the words of its provider. -/
theorem Registered.noRoute_of_provider {accepted : List Provider} {kernel : Kernel}
    (h : Registered accepted kernel) {request : RequestFrame} {context : DispatchContext}
    (hsupported : kernel.supportsRoute request.route = true)
    (hcode : (kernel.dispatch request context).errorCode = some "E_NO_ROUTE") :
    ∃ provider e, (kernel.dispatch request context).invoked = some provider ∧
      provider.dispatch request context = some (.error e) ∧
      (kernel.dispatch request context).answer = .error e := by
  rcases h.dispatch_cases request context with ⟨e, heq, hnot⟩ | ⟨provider, contract, hrouted⟩
  · rw [heq] at hcode
    exact absurd (Option.some.inj hcode) (hnot hsupported)
  · rw [hrouted.answer] at hcode ⊢
    unfold Kernel.Dispatched.errorCode at hcode
    rcases invoke_cases provider contract request context with hpanic | ⟨e, hdispatch, heq⟩ | ⟨reply, -, hreply⟩
    · rw [hpanic] at hcode
      simp [HostError.providerPanic] at hcode
    · exact ⟨provider, e, rfl, hdispatch, heq⟩
    · rcases hreply with ⟨-, heq⟩ | ⟨message, heq⟩
      · rw [heq] at hcode
        cases hcode
      · rw [heq] at hcode
        simp [HostError.internal] at hcode

/-- A provider is called only for a route it declared, with an opener the route's
    contract accepts, and its reply reaches the caller only if the contract accepts it. -/
theorem Registered.invoked_meets {accepted : List Provider} {kernel : Kernel}
    (h : Registered accepted kernel) {request : RequestFrame} {context : DispatchContext}
    {provider : Provider} (hinvoked : (kernel.dispatch request context).invoked = some provider) :
    provider ∈ accepted ∧ ∃ call ∈ provider.manifest.calls, call.route = request.route ∧
      ∃ contract, RouteContract.parse call = .ok contract ∧
        contract.opener.accepts request.opener = true ∧
        ∀ reply, (kernel.dispatch request context).answer = .ok reply →
          provider.dispatch request context = some (.ok reply) ∧
            contract.result.accepts reply.contents = true := by
  rcases h.dispatch_cases request context with ⟨e, heq, -⟩ | ⟨other, contract, hrouted⟩
  · rw [heq] at hinvoked
    cases hinvoked
  · rw [hrouted.answer] at hinvoked ⊢
    cases hinvoked
    obtain ⟨call, hcall, hroute, hparse⟩ := hrouted.exported
    refine ⟨hrouted.registered, call, hcall, hroute, contract, hparse, hrouted.opener, ?_⟩
    intro reply hreply
    rcases invoke_cases provider contract request context with hpanic | ⟨e, -, heq⟩ | ⟨sent, hdispatch, hcases⟩
    · rw [hpanic] at hreply
      cases hreply
    · rw [heq] at hreply
      cases hreply
    · rcases hcases with ⟨haccepts, heq⟩ | ⟨message, heq⟩
      · rw [heq] at hreply
        cases hreply
        exact ⟨hdispatch, haccepts⟩
      · rw [heq] at hreply
        cases hreply

theorem Registered.answered_invoked {accepted : List Provider} {kernel : Kernel}
    (h : Registered accepted kernel) {request : RequestFrame} {context : DispatchContext}
    {reply : ProviderReply} (hreply : (kernel.dispatch request context).answer = .ok reply) :
    ∃ provider, (kernel.dispatch request context).invoked = some provider := by
  rcases h.dispatch_cases request context with ⟨e, heq, -⟩ | ⟨provider, contract, hrouted⟩
  · rw [heq] at hreply
    cases hreply
  · exact ⟨provider, by rw [hrouted.answer]; rfl⟩

/-- After any registrations the routes, contracts, prefixes and identities of the
    kernel agree, and its dispatch keeps the contracts. -/
theorem registry_consistent (attempts : List Provider) :
    let kernel := (registerAll attempts).1
    let accepted := (registerAll attempts).2
    (∀ route, kernel.supportsRoute route = true ↔ route ∈ kernel.routeContracts) ∧
    (∀ route, kernel.supportsRoute route = true ↔
      ∃ provider ∈ accepted, route ∈ provider.routes) ∧
    (∀ provider ∈ accepted, ∀ route ∈ provider.routes, ∃ owner verb,
      splitOnce route = some (owner, verb) ∧ kernel.providers[owner]? = some provider) ∧
    (accepted.map (·.manifest.provider)).Nodup ∧
    (accepted.flatMap (·.manifest.prefixes)).Nodup ∧
    (accepted.flatMap Provider.routes).Nodup ∧
    (∀ provider e, (kernel.register provider).1 = .error e →
      (kernel.register provider).2 = kernel) ∧
    ∀ request context,
      (kernel.supportsRoute request.route = true →
        (kernel.dispatch request context).errorCode = some "E_NO_ROUTE" →
        ∃ provider e, (kernel.dispatch request context).invoked = some provider ∧
          provider.dispatch request context = some (.error e) ∧
          (kernel.dispatch request context).answer = .error e) ∧
      (∀ provider, (kernel.dispatch request context).invoked = some provider →
        provider ∈ accepted ∧ ∃ call ∈ provider.manifest.calls, call.route = request.route ∧
          ∃ contract, RouteContract.parse call = .ok contract ∧
            contract.opener.accepts request.opener = true ∧
            ∀ reply, (kernel.dispatch request context).answer = .ok reply →
              provider.dispatch request context = some (.ok reply) ∧
                contract.result.accepts reply.contents = true) ∧
      ∀ reply, (kernel.dispatch request context).answer = .ok reply →
        ∃ provider, (kernel.dispatch request context).invoked = some provider := by
  intro kernel accepted
  have hregistered : Registered accepted kernel := registered_registerAll attempts
  have hsupports : ∀ route, kernel.supportsRoute route = true ↔ route ∈ kernel.routes :=
    fun route => Std.ExtTreeSet.contains_iff_mem
  refine ⟨?_, ?_, ?_, hregistered.identities, hregistered.prefixes, hregistered.exported,
    fun provider e => register_error, ?_⟩
  · intro route
    rw [hsupports, hregistered.routes_iff_contract]
  · intro route
    rw [hsupports, hregistered.routes]
  · intro provider hprovider route hroute
    obtain ⟨call, hcall, rfl⟩ := List.mem_map.mp hroute
    exact hregistered.owner hprovider hcall
  · intro request context
    exact ⟨hregistered.noRoute_of_provider, fun provider => hregistered.invoked_meets,
      fun reply => hregistered.answered_invoked⟩

/-- A provider whose one route answers that it has no such route. -/
def refusingProvider : Provider where
  manifest := ⟨1, "solum", "faber", ["solum"], [⟨"solum:lege", "", "vacuum", "vacuum"⟩], []⟩
  dispatch := fun _ _ => some (.error (.noRoute "solum:lege"))

/-- A supported route may answer `E_NO_ROUTE`: the error of a provider is passed on. -/
theorem refused_supported_route :
    let kernel := (registerAll [refusingProvider]).1
    kernel.supportsRoute "solum:lege" = true ∧
      (kernel.dispatch ⟨"c", "solum:lege", .nihil, none⟩ ⟨⟨some false⟩⟩).errorCode =
        some "E_NO_ROUTE" := by
  decide +kernel

end FaberHosts.Kernel
