import FaberHosts.Coordinator.Discovery
import FaberHosts.Lib.Checks

/-!
# Device sets and topology

`device_set.rs`: selected membership of device identities, the selection request
that resolves to it, and the directed links measured over a snapshot.
-/

namespace FaberHosts.Coordinator
open FaberHosts.Lib

/-! ## Membership -/

/-- Selected membership of device identities. -/
structure DeviceSet where
  members : BTreeSet PhysicalDeviceId
  deriving DecidableEq

inductive MembershipError where
  | unknownDevice (id : PhysicalDeviceId)
  | staleEpoch (id : PhysicalDeviceId) (recorded current : DeviceHealthGeneration)
  deriving DecidableEq, Repr

def validateMember (discovery : DeviceDiscoverySnapshot) (current : DeviceHealthGeneration)
    (id : PhysicalDeviceId) : Except MembershipError Unit :=
  match discovery.findEntry id with
  | none => .error (.unknownDevice id)
  | some entry =>
    if current.isStale entry.healthGeneration then
      .error (.staleEpoch id entry.healthGeneration current)
    else .ok ()

namespace DeviceSet

def fromMembers (ids : List PhysicalDeviceId) : DeviceSet := ⟨setOf ids⟩

def contains (set : DeviceSet) (id : PhysicalDeviceId) : Bool := set.members.contains id

def len (set : DeviceSet) : Nat := set.members.size

/-- Every member must be recorded under the current health generation. -/
def validate (set : DeviceSet) (discovery : DeviceDiscoverySnapshot)
    (current : DeviceHealthGeneration) : Except MembershipError Unit :=
  tryEach (validateMember discovery current) set.members.toList

end DeviceSet

/-! ## Selection -/

structure DeviceSetConstraints where
  backend : Option DeviceBackend
  exclude : BTreeSet PhysicalDeviceId
  minCount : Nat
  maxCount : Option Nat
  deriving DecidableEq

inductive DeviceSetSelection where
  | explicit (ids : BTreeSet PhysicalDeviceId)
  | constraints (constraints : DeviceSetConstraints)
  deriving DecidableEq

inductive SelectionError where
  | membership (error : MembershipError)
  | belowMinimum (min actual : Nat)
  | aboveMaximum (max actual : Nat)
  deriving DecidableEq, Repr

/-- The constraint loop keeps this entry. -/
def DeviceSetConstraints.selects (constraints : DeviceSetConstraints)
    (current : DeviceHealthGeneration) (entry : DeviceDiscoveryEntry) : Bool :=
  !current.isStale entry.healthGeneration &&
    (match constraints.backend with
    | some backend => entry.identity.backend = backend
    | none => true) &&
    !constraints.exclude.contains entry.identity

def DeviceSetSelection.resolve (selection : DeviceSetSelection)
    (discovery : DeviceDiscoverySnapshot) (current : DeviceHealthGeneration) :
    Except SelectionError DeviceSet :=
  match selection with
  | .explicit ids =>
    let set : DeviceSet := ⟨ids⟩
    match set.validate discovery current with
    | .error e => .error (.membership e)
    | .ok () => .ok set
  | .constraints declared =>
    let selected := (discovery.entries.filter (declared.selects current)).map (·.identity)
    let set := DeviceSet.fromMembers selected
    if set.len < declared.minCount then .error (.belowMinimum declared.minCount set.len)
    else
      match declared.maxCount with
      | none => .ok set
      | some max => if max < set.len then .error (.aboveMaximum max set.len) else .ok set

/-! ## Topology -/

inductive LinkPathClass where
  | peer
  | hostStaged
  deriving DecidableEq, Repr

structure LinkFacts where
  bandwidthBytesPerSec : UInt64
  latencyNanos : UInt64
  deriving DecidableEq, Repr

inductive DeviceLinkState where
  | admitted (pathClass : LinkPathClass) (facts : LinkFacts)
  | notAttempted
  | rejected (reason : String)
  deriving DecidableEq, Repr

/-- A directed device pair.  The constructors of the source refuse a self pair. -/
structure DeviceLink where
  source : PhysicalDeviceId
  target : PhysicalDeviceId
  state : DeviceLinkState
  source_ne_target : source ≠ target
  deriving DecidableEq

inductive LinkGateError where
  | unknownEndpoint (endpoint : PhysicalDeviceId)
  | noLinkRecorded (source target : PhysicalDeviceId)
  | notAttempted (source target : PhysicalDeviceId)
  | rejected (source target : PhysicalDeviceId) (reason : String)
  deriving DecidableEq, Repr

/-- Topology facts of one probe: the discovery sample plus directed link rows. -/
structure DeviceTopologySnapshot where
  discovery : DeviceDiscoverySnapshot
  links : BTreeMap (PhysicalDeviceId × PhysicalDeviceId) DeviceLink
  deriving DecidableEq

namespace DeviceTopologySnapshot

/-- Both endpoints of a link are recorded in the snapshot. -/
def endpointsRecorded (discovery : DeviceDiscoverySnapshot) (link : DeviceLink) : Bool :=
  (discovery.findEntry link.source).isSome && (discovery.findEntry link.target).isSome

/-- Panics when a link names an endpoint the snapshot does not record. -/
def new (discovery : DeviceDiscoverySnapshot) (links : List DeviceLink) :
    MayPanic DeviceTopologySnapshot :=
  if links.all (endpointsRecorded discovery) then
    some {
      discovery := discovery
      links := links.foldl (fun byPair link => byPair.insert (link.source, link.target) link) ∅ }
  else none

/-- May a transfer traverse `source → target`? -/
def traversalAllowed (topology : DeviceTopologySnapshot) (source target : PhysicalDeviceId) :
    Except LinkGateError Unit :=
  if source = target then .ok ()
  else if (topology.discovery.findEntry source).isNone then .error (.unknownEndpoint source)
  else if (topology.discovery.findEntry target).isNone then .error (.unknownEndpoint target)
  else
    match topology.links[(source, target)]? with
    | none => .error (.noLinkRecorded source target)
    | some link =>
      match link.state with
      | .admitted _ _ => .ok ()
      | .notAttempted => .error (.notAttempted source target)
      | .rejected reason => .error (.rejected source target reason)

end DeviceTopologySnapshot

end FaberHosts.Coordinator

/-!
## What a resolved selection is good for

The set a selection resolves to against the membership check on the same snapshot.  The
constraints look at every entry of an identity, the check at the first one only.
-/

namespace FaberHosts.Coordinator
open FaberHosts.Lib

variable {discovery : DeviceDiscoverySnapshot} {current : DeviceHealthGeneration}
  {selection : DeviceSetSelection} {set : DeviceSet}

/-- The identities a selection excludes or whose backend it does not want are left out. -/
def DeviceSetSelection.Wants (id : PhysicalDeviceId) : DeviceSetSelection → Prop
  | .explicit ids => id ∈ ids
  | .constraints declared =>
    id ∉ declared.exclude ∧ ∀ backend, declared.backend = some backend → id.backend = backend

/-- The declared bounds on the number of members. -/
def DeviceSetSelection.Admits (count : Nat) : DeviceSetSelection → Prop
  | .explicit ids => count = ids.size
  | .constraints declared =>
    declared.minCount ≤ count ∧ ∀ max, declared.maxCount = some max → count ≤ max

/-- A set that stands up to the membership check, of wanted identities, within the bounds. -/
structure Sound (selection : DeviceSetSelection) (discovery : DeviceDiscoverySnapshot)
    (current : DeviceHealthGeneration) (set : DeviceSet) : Prop where
  valid : set.validate discovery current = .ok ()
  wanted : ∀ id ∈ set.members, selection.Wants id
  counted : selection.Admits set.len

/-- Of every identity that the constraints select, the entry at the lowest ordinal is
    current. -/
def FirstEntriesCurrent (discovery : DeviceDiscoverySnapshot) (current : DeviceHealthGeneration) :
    DeviceSetSelection → Prop
  | .explicit _ => True
  | .constraints declared => ∀ entry ∈ discovery.entries, declared.selects current entry = true →
      ∀ first, discovery.findEntry entry.identity = some first →
        first.healthGeneration = current

theorem validateMember_ok_iff {id : PhysicalDeviceId} :
    validateMember discovery current id = .ok () ↔
      ∃ entry, discovery.findEntry id = some entry ∧ entry.healthGeneration = current := by
  unfold validateMember
  cases hfound : discovery.findEntry id with
  | none => simp
  | some entry => simp [DeviceHealthGeneration.isStale]

theorem validate_ok_iff : set.validate discovery current = .ok () ↔
    ∀ id ∈ set.members, ∃ entry, discovery.findEntry id = some entry ∧
      entry.healthGeneration = current := by
  unfold DeviceSet.validate
  rw [tryEach_ok_iff]
  simp only [Std.ExtTreeSet.mem_toList, validateMember_ok_iff]

/-- The members of a set resolved from constraints are the identities of selected entries. -/
theorem resolve_constraints {declared : DeviceSetConstraints}
    (h : DeviceSetSelection.resolve (.constraints declared) discovery current = .ok set) :
    set = .fromMembers ((discovery.entries.filter (declared.selects current)).map (·.identity)) ∧
      DeviceSetSelection.Admits set.len (.constraints declared) := by
  simp only [DeviceSetSelection.resolve] at h
  split at h
  · cases h
  · rename_i hmin
    cases hmax : declared.maxCount with
    | none =>
      simp only [hmax, Except.ok.injEq] at h
      subst h
      exact ⟨rfl, by omega, by simp [hmax]⟩
    | some max =>
      simp only [hmax] at h
      split at h
      · cases h
      · rename_i habove
        simp only [Except.ok.injEq] at h
        subst h
        refine ⟨rfl, by omega, ?_⟩
        intro bound hbound
        obtain rfl : max = bound := by simpa [hmax] using hbound
        omega

theorem mem_resolve_constraints {declared : DeviceSetConstraints}
    (h : DeviceSetSelection.resolve (.constraints declared) discovery current = .ok set)
    (id : PhysicalDeviceId) : id ∈ set.members ↔
      ∃ entry ∈ discovery.entries, declared.selects current entry = true ∧ entry.identity = id := by
  obtain ⟨rfl, -⟩ := resolve_constraints h
  simp [DeviceSet.fromMembers, and_assoc]

theorem selects_wants {declared : DeviceSetConstraints} {entry : DeviceDiscoveryEntry}
    (h : declared.selects current entry = true) :
    DeviceSetSelection.Wants entry.identity (.constraints declared) := by
  simp only [DeviceSetConstraints.selects, Bool.and_eq_true, Bool.not_eq_true',
    contains_eq_false_iff] at h
  obtain ⟨⟨-, hbackend⟩, hexclude⟩ := h
  refine ⟨hexclude, ?_⟩
  intro backend hdeclared
  simpa [hdeclared] using hbackend

/-- A device recorded at an ordinal under a generation. -/
def recordedEntry (ordinal : UInt32) (generation : UInt64) : DeviceDiscoveryEntry where
  ordinal := ⟨ordinal⟩
  identity := ⟨.cuda ⟨"GPU-0", none⟩⟩
  deviceModel := none
  capabilities := ⟨⟨12, 0⟩, 48, .empty, 1024, 49152, 101376, 32, false⟩
  memory := ⟨none, 12343705600⟩
  health := .healthy
  healthGeneration := ⟨generation⟩
  probeProvenance := ⟨"synthetic", "synthetic"⟩

/-- The device at ordinals 0 and 1, each under its own generation. -/
def recordedDevices (first second : UInt64) : BTreeMap DeviceOrdinal DeviceDiscoveryEntry :=
  ((∅ : BTreeMap DeviceOrdinal DeviceDiscoveryEntry).insert ⟨0⟩ (recordedEntry 0 first)).insert
    ⟨1⟩ (recordedEntry 1 second)

/-- At least one device of any backend. -/
def anyDevice : DeviceSetSelection := .constraints ⟨none, ∅, 1, none⟩

end FaberHosts.Coordinator
