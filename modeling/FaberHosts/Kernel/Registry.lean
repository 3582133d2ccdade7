import FaberHosts.Lib.BTree
import FaberHosts.Lib.Checks
import FaberHosts.Kernel.Valor

/-!
# The provider registry

`host-kernel/src/lib.rs`: providers register the prefixes they own and the routes
they export, each route with a contract on what opens it and what it answers, and
a request is routed to the provider of its prefix.
-/

namespace FaberHosts.Kernel
open FaberHosts.Lib

/-! ## Errors -/

structure HostError where
  code : String
  message : String
  retryable : Bool
  deriving DecidableEq, Repr

namespace HostError

def invalidArgs (message : String) : HostError := ⟨"E_INVALID_ARGS", message, false⟩

def internal (message : String) : HostError := ⟨"E_INTERNAL", message, false⟩

def noRoute (message : String) : HostError := ⟨"E_NO_ROUTE", message, false⟩

def cancelled : HostError := ⟨"E_CANCELLED", "operation cancelled", false⟩

def providerPanic : HostError := ⟨"E_PROVIDER_PANIC", "provider panicked", false⟩

end HostError

/-! ## Requests and replies -/

structure RequestFrame where
  conversationId : String
  route : String
  opener : Valor
  target : Option String

/-- The probe answers, or panics. -/
structure CancellationProbe where
  isCancelled : MayPanic Bool

def CancellationProbe.tryIsCancelled (probe : CancellationProbe) : Except HostError Bool :=
  match probe.isCancelled with
  | some answer => .ok answer
  | none => .error (.internal "cancellation probe panicked")

structure DispatchContext where
  cancellation : CancellationProbe

inductive ProviderContent where
  | item (data : Valor)
  | byte (data : List UInt8)
  | bulk (data : Valor)

structure ProviderReply where
  contents : List ProviderContent

/-! ## Manifests and contracts -/

structure ManifestCall where
  route : String
  summary : String
  opener : String
  result : String
  deriving DecidableEq, Repr

structure ProviderManifest where
  manifestVersion : UInt32
  provider : String
  owner : String
  prefixes : List String
  calls : List ManifestCall
  nativeDependencies : List String
  deriving DecidableEq, Repr

inductive OpenerContract where
  | vacuum
  | sponteNumerus
  | textus
  | numerus
  | octeti
  | listaTextus
  | listaNumerus
  | listaValor
  | textusOrListaValor
  | valor
  deriving DecidableEq, Repr

namespace OpenerContract

def parse (value : String) : Option OpenerContract :=
  match value with
  | "vacuum" => some .vacuum
  | "sponte<numerus>" => some .sponteNumerus
  | "textus" => some .textus
  | "numerus" => some .numerus
  | "octeti" => some .octeti
  | "lista<textus>" => some .listaTextus
  | "lista<numerus>" => some .listaNumerus
  | "lista<valor>" => some .listaValor
  | "textus ∪ lista<valor>" => some .textusOrListaValor
  | "valor" => some .valor
  | _ => none

def isVacuumCarrier : Valor → Bool
  | .nihil => true
  | .tabula fields => fields.isEmpty
  | _ => false

def isTextus : Valor → Bool
  | .textus _ => true
  | _ => false

def isNumerus : Valor → Bool
  | .numerus _ => true
  | _ => false

/-- The openers a contract lets through. -/
def accepts : OpenerContract → Valor → Bool
  | .vacuum, opener => isVacuumCarrier opener
  | .sponteNumerus, opener => isVacuumCarrier opener || isNumerus opener
  | .textus, opener => isTextus opener
  | .numerus, opener => isNumerus opener
  | .octeti, .octeti _ => true
  | .listaTextus, .lista items => items.all isTextus
  | .listaNumerus, .lista items => items.all isNumerus
  | .listaValor, .lista _ => true
  | .textusOrListaValor, .textus _ => true
  | .textusOrListaValor, .lista _ => true
  | .valor, _ => true
  | _, _ => false

end OpenerContract

inductive ResultContract where
  | vacuum
  | textus
  | numerus
  | fractus
  | bivalens
  | octeti
  | instansNs
  | listaTextus
  | valor
  | bytes
  | listaValor
  | bulkValor
  deriving DecidableEq, Repr

namespace ResultContract

def parse (value : String) : Option ResultContract :=
  match value with
  | "vacuum" => some .vacuum
  | "textus" => some .textus
  | "numerus" => some .numerus
  | "fractus" => some .fractus
  | "bivalens" => some .bivalens
  | "octeti" => some .octeti
  | "instans<ns>" => some .instansNs
  | "lista<textus>" => some .listaTextus
  | "valor" => some .valor
  | "bytes" => some .bytes
  | "lista-valor" => some .listaValor
  | "bulk-valor" => some .bulkValor
  | _ => none

def isTextusItem : ProviderContent → Bool
  | .item (.textus _) => true
  | _ => false

def isItem : ProviderContent → Bool
  | .item _ => true
  | _ => false

/-- The reply contents a contract lets through. -/
def accepts : ResultContract → List ProviderContent → Bool
  | .vacuum, contents => contents.isEmpty
  | .textus, [.item (.textus _)] => true
  | .numerus, [.item (.numerus _)] => true
  | .fractus, [.item (.fractus _)] => true
  | .bivalens, [.item (.bivalens _)] => true
  | .octeti, [.byte _] => true
  | .octeti, [.item (.octeti _)] => true
  | .bytes, [.byte _] => true
  | .bytes, [.item (.octeti _)] => true
  | .instansNs, [.item (.instans _)] => true
  | .listaTextus, contents => contents.all isTextusItem
  | .valor, [.item _] => true
  | .listaValor, contents => contents.all isItem
  | .bulkValor, [.bulk _] => true
  | _, _ => false

end ResultContract

structure RouteContract where
  opener : OpenerContract
  result : ResultContract
  deriving DecidableEq, Repr

def RouteContract.parse (call : ManifestCall) : Except HostError RouteContract :=
  match OpenerContract.parse call.opener with
  | none =>
    .error (.invalidArgs (s!"manifest route `{call.route}` declares unsupported opener contract " ++
      s!"`{call.opener}`"))
  | some opener =>
    match ResultContract.parse call.result with
    | none =>
      .error (.invalidArgs (s!"manifest route `{call.route}` declares unsupported result " ++
        s!"contract `{call.result}`"))
    | some result => .ok ⟨opener, result⟩

/-! ## Providers and the kernel -/

/-- A provider, with the constant answer of its `registration`.  Its `dispatch` may
    panic. -/
structure Provider where
  manifest : ProviderManifest
  dispatch : RequestFrame → DispatchContext → MayPanic (Except HostError ProviderReply)

structure Kernel where
  providers : BTreeMap String Provider
  routes : BTreeSet String
  routeContracts : BTreeMap String RouteContract

/-- `str::split_once(':')`. -/
def splitOnce (route : String) : Option (String × String) :=
  match route.toList.span (· ≠ ':') with
  | (_, []) => none
  | (before, _ :: after) => some (String.ofList before, String.ofList after)

def validPrefix (name : String) : Bool :=
  match name.toList with
  | [] => false
  | first :: rest =>
    first.isLower && rest.all (fun ch => ch.isLower || ch.isDigit || ch = '_' || ch = '-')

/-- One call of the manifest: the routes seen so far become those after it. -/
def checkCall (prefixes routes : BTreeSet String) (call : ManifestCall) :
    Except HostError (BTreeSet String) := do
  let _ ← RouteContract.parse call
  match splitOnce call.route with
  | none => .error (.invalidArgs s!"manifest route `{call.route}` has no prefix")
  | some (owner, verb) =>
    if verb = "" ∨ ':' ∈ verb.toList ∨ owner ∉ prefixes then
      .error (.invalidArgs s!"manifest route `{call.route}` does not match provider prefixes")
    else if call.route ∈ routes then
      .error (.internal s!"provider manifest repeats route `{call.route}`")
    else
      .ok (routes.insert call.route)

def checkPrefix (name : String) : Except HostError Unit :=
  if validPrefix name then .ok ()
  else .error (.invalidArgs s!"invalid provider prefix `{name}`")

def validateManifest (manifest : ProviderManifest) : Except HostError Unit :=
  if manifest.manifestVersion ≠ 1 then
    .error (.invalidArgs s!"unsupported provider manifest version {manifest.manifestVersion}")
  else if manifest.provider = "" ∨ manifest.prefixes = [] then
    .error (.invalidArgs "provider manifest requires provider and prefixes")
  else if manifest.calls = [] then
    .error (.invalidArgs "provider manifest requires at least one call")
  else if (setOf manifest.prefixes).size ≠ manifest.prefixes.length then
    .error (.invalidArgs "provider prefixes must be unique")
  else do
    tryEach checkPrefix manifest.prefixes
    let _ ← manifest.calls.foldlM (checkCall (setOf manifest.prefixes)) ∅
    .ok ()

def validateRequestContract (route : String) (request : RequestFrame) (opener : OpenerContract) :
    Except HostError Unit :=
  if opener.accepts request.opener then .ok ()
  else .error (.invalidArgs
    s!"request opener for route `{route}` does not match declared opener contract")

def validateReplyContract (route : String) (reply : ProviderReply) (result : ResultContract) :
    Except HostError Unit :=
  if result.accepts reply.contents then .ok ()
  else .error (.internal
    s!"provider reply for route `{route}` does not match declared result contract")

namespace Kernel

def new : Kernel := ⟨∅, ∅, ∅⟩

def supportsRoute (kernel : Kernel) (route : String) : Bool := kernel.routes.contains route

/-- The checks a registration passes before it changes anything, and the contracts
    it then records. -/
def registerChecks (kernel : Kernel) (manifest : ProviderManifest) :
    Except HostError (List (String × RouteContract)) := do
  validateManifest manifest
  if kernel.providers.toList.any (fun entry => entry.2.manifest.provider = manifest.provider) then
    .error (.internal s!"duplicate provider identity `{manifest.provider}`")
  else do
    tryEach (fun name =>
      if name ∈ kernel.providers then
        .error (.internal s!"duplicate provider prefix `{name}`")
      else .ok ()) manifest.prefixes
    tryEach (fun call =>
      if call.route ∈ kernel.routes then
        .error (.internal s!"duplicate provider route `{call.route}`")
      else .ok ()) manifest.calls
    manifest.calls.mapM (fun call => do
      let contract ← RouteContract.parse call
      .ok (call.route, contract))

/-- `register` through `&mut self`: the answer, and the kernel after it. -/
def register (kernel : Kernel) (provider : Provider) : Except HostError Unit × Kernel :=
  match kernel.registerChecks provider.manifest with
  | .error e => (.error e, kernel)
  | .ok contracts => (.ok (), {
      providers := provider.manifest.prefixes.foldl
        (fun map name => map.insert name provider) kernel.providers
      routes := provider.manifest.calls.foldl
        (fun set call => set.insert call.route) kernel.routes
      routeContracts := contracts.foldl
        (fun map entry => map.insert entry.1 entry.2) kernel.routeContracts })

/-- What a dispatch did: the provider it called, if it came to that, and its answer. -/
structure Dispatched where
  invoked : Option Provider
  answer : Except HostError ProviderReply

/-- The call of the provider and the check of its reply. -/
def invoke (provider : Provider) (contract : RouteContract) (request : RequestFrame)
    (context : DispatchContext) : Dispatched where
  invoked := some provider
  answer :=
    match provider.dispatch request context with
    | none => .error .providerPanic
    | some (.error e) => .error e
    | some (.ok reply) =>
      match validateReplyContract request.route reply contract.result with
      | .error e => .error e
      | .ok () => .ok reply

def dispatch (kernel : Kernel) (request : RequestFrame) (context : DispatchContext) :
    Dispatched :=
  match context.cancellation.tryIsCancelled with
  | .error e => ⟨none, .error e⟩
  | .ok true => ⟨none, .error .cancelled⟩
  | .ok false =>
    match splitOnce request.route with
    | none => ⟨none, .error (.noRoute s!"route `{request.route}` has no provider prefix")⟩
    | some (owner, _) =>
      match kernel.providers[owner]? with
      | none => ⟨none, .error (.noRoute s!"no provider registered for `{owner}`")⟩
      | some provider =>
        if request.route ∉ kernel.routes then
          ⟨none, .error (.noRoute s!"provider manifest does not export `{request.route}`")⟩
        else
          match kernel.routeContracts[request.route]? with
          | none => ⟨none, .error (.internal
              s!"provider manifest route `{request.route}` has no call contract")⟩
          | some contract =>
            match validateRequestContract request.route request contract.opener with
            | .error e => ⟨none, .error e⟩
            | .ok () => invoke provider contract request context

end Kernel

end FaberHosts.Kernel
