import FaberHosts.Macos.Translation
import FaberHosts.Transaction.MirrorBytes

/-!
# The bytes of a translated plan

`TranslatedDistributedPlan::canonical_bytes`: the operations one behind the other,
then the commit boundary, without a count of the operations.  The boundary starts
with the number of its barriers, and no operation starts like that: the names a
translation gives have a letter where the length of a barrier's name has a zero byte.
-/

namespace FaberHosts.Macos
open FaberHosts.Lib FaberHosts.Coordinator FaberHosts.Transaction
open FmirDistributedExecutionSection (oneLaunch)

def TranslatedPlan.canonicalBytes (plan : TranslatedPlan) : List UInt8 :=
  plan.operations.flatMap (·.canonicalBytes) ++ plan.commitBoundary.canonicalBytes

/-! ## The names of a translation -/

/-- A name of few bytes, the seventh of which is not zero. -/
structure Named (name : String) : Prop where
  short : (utf8Bytes name).length < 2 ^ 32
  seventh : ∃ byte : UInt8, byte ≠ 0 ∧ (utf8Bytes name)[6]? = some byte

theorem length_utf8Bytes_id (id : UInt32) : (utf8Bytes (toString id)).length < 2 ^ 8 := by
  have hdigits : (toString id).length ≤ 10 := by
    change id.toNat.repr.length ≤ 10
    rw [Nat.length_repr_le_iff (by omega)]
    have hlt := id.toNat_lt
    omega
  have hbytes := length_utf8Bytes_le (toString id)
  omega

theorem named_append {kind : String} (id : UInt32) (hlength : (utf8Bytes kind).length < 2 ^ 8)
    (hseventh : ∃ byte : UInt8, byte ≠ 0 ∧ (utf8Bytes kind)[6]? = some byte) :
    Named (kind ++ toString id) := by
  obtain ⟨byte, hbyte, hfound⟩ := hseventh
  have hid := length_utf8Bytes_id id
  refine ⟨?_, byte, hbyte, ?_⟩
  · rw [utf8Bytes_append, List.length_append]
    omega
  · rw [utf8Bytes_append, List.getElem?_append_left (List.getElem?_eq_some_iff.mp hfound).1]
    exact hfound

theorem named_logicalPartition (id : UInt32) : Named (logicalPartition id).id :=
  named_append id (by decide) ⟨105, by decide, by decide⟩

theorem named_barrierRef (id : UInt32) : Named (barrierRef id).reference :=
  named_append id (by decide) ⟨114, by decide, by decide⟩

theorem Named.toShort {name : String} (h : Named name) : Short name :=
  Nat.lt_trans h.short (by decide)

/-! ## Where the operations end -/

theorem length_leBytes (count v : Nat) : (leBytes count v).length = count := by
  induction count generalizing v with
  | zero => rfl
  | succ count ih => rw [leBytes, List.length_cons, ih]

theorem pushLen_of_small {n : Nat} (hn : n < 2 ^ 32) : pushLen n = leBytes 7 n ++ [0] := by
  have hdiv : n / 256 ^ 7 = 0 := Nat.div_eq_of_lt (by omega)
  rw [pushLen, pushU64, UInt64.toNat_ofNat_of_lt' (by have : UInt64.size = 2 ^ 64 := rfl; omega),
    show (8 : Nat) = 7 + 1 from rfl, leBytes_add, hdiv]
  rfl

theorem tag_pushLen (tag : UInt8) {n : Nat} (hn : n < 2 ^ 32) :
    tag :: pushLen n = leBytes 8 (tag.toNat + 256 * n) ++ [0] := by
  have htag := tag.toNat_lt
  have hlow : UInt8.ofNat (tag.toNat + 256 * n) = tag := by
    rw [← UInt8.toNat_inj, UInt8.toNat_ofNat']
    omega
  have hhigh : (tag.toNat + 256 * n) / 256 = n := by omega
  rw [pushLen_of_small hn, show leBytes 8 (tag.toNat + 256 * n) =
    UInt8.ofNat (tag.toNat + 256 * n) :: leBytes 7 ((tag.toNat + 256 * n) / 256) from rfl, hlow,
    hhigh, List.cons_append]

/-- The names of a boundary's barriers are short. -/
def ShortBarriers (boundary : TransactionCommitBoundary) : Prop :=
  ∀ barrier ∈ boundary.barriers.toList, (utf8Bytes barrier.reference).length < 2 ^ 32

/-- A boundary does not start like an operation, which has a tag and a name. -/
theorem boundary_ne_named {boundary : TransactionCommitBoundary} (hbarriers : ShortBarriers boundary)
    {tag : UInt8} {name : String} (hname : Named name) (rest : List UInt8) :
    boundary.canonicalBytes ≠ tag :: (pushStr name ++ rest) := by
  obtain ⟨byte, hbyte, hseventh⟩ := hname.seventh
  have hshort := hname.short
  have hlong : 6 < (utf8Bytes name).length := (List.getElem?_eq_some_iff.mp hseventh).1
  have htag := tag.toNat_lt
  intro heq
  rw [TransactionCommitBoundary.canonicalBytes, setBytes, pushStr, List.append_assoc,
    List.append_assoc, ← List.cons_append, tag_pushLen tag hshort, List.append_assoc, pushLen,
    pushU64, leBytes_append_inj (UInt64.toNat_lt _) (by omega)] at heq
  obtain ⟨hcount, hnames⟩ := heq
  -- the count is not zero, so a first barrier has the name's letters in its length
  cases hlist : boundary.barriers.toList with
  | nil =>
    have hsize : boundary.barriers.size = 0 := by
      rw [← Std.ExtTreeSet.length_toList, hlist]
      rfl
    rw [hsize] at hcount
    simp at hcount
    omega
  | cons barrier barriers =>
    have hbarrier := hbarriers barrier (by simp [hlist])
    rw [hlist, List.flatMap_cons, pushStr, pushLen_of_small hbarrier] at hnames
    have hplace := congrArg (·[7]?) hnames
    simp only [List.append_assoc] at hplace
    rw [List.getElem?_append_right (by rw [length_leBytes]), length_leBytes] at hplace
    simp only [List.cons_append, List.nil_append, Nat.sub_self, List.getElem?_cons_zero,
      List.getElem?_cons_succ] at hplace
    rw [List.getElem?_append_left hlong, hseventh] at hplace
    exact hbyte (Option.some.inj hplace).symm

/-! ## Translated operations -/

theorem shortSet_of_ids {K : Type} [Ord K] [Std.TransOrd K] [Std.LawfulEqOrd K] [DecidableEq K]
    {spelling : K → String} {named : UInt32 → K} (hnamed : ∀ id, Named (spelling (named id)))
    (ids : List UInt32) : ShortSet spelling (setOf (ids.map named)) := by
  constructor
  · rw [Std.ExtTreeSet.length_toList, size_setOf]
    have hsubset : (ids.map named).toFinset ⊆
        (Finset.range (2 ^ 32)).image (fun place => named (UInt32.ofNat place)) := by
      intro k hk
      obtain ⟨id, -, rfl⟩ := List.mem_map.mp (List.mem_toFinset.mp hk)
      exact Finset.mem_image.mpr ⟨id.toNat, Finset.mem_range.mpr id.toNat_lt,
        by rw [UInt32.ofNat_toNat]⟩
    have hcard := (Finset.card_le_card hsubset).trans Finset.card_image_le
    rw [Finset.card_range] at hcard
    omega
  · intro k hk
    rw [Std.ExtTreeSet.mem_toList, mem_setOf] at hk
    obtain ⟨id, -, rfl⟩ := List.mem_map.mp hk
    exact (hnamed id).toShort

theorem named_launchRef (id : UInt32) : Named (launchRef id).reference :=
  named_append id (by decide) ⟨45, by decide, by decide⟩

theorem translated_boundary_short (wire : WireExecutionCommitBoundary) :
    (translateCommitBoundary wire).Short :=
  ⟨shortSet_of_ids named_barrierRef wire.barriers, shortSet_of_ids named_launchRef wire.launches⟩

theorem translated_shortBarriers (wire : WireExecutionCommitBoundary) :
    ShortBarriers (translateCommitBoundary wire) := by
  intro barrier hbarrier
  rw [Std.ExtTreeSet.mem_toList] at hbarrier
  obtain ⟨id, -, rfl⟩ := List.mem_map.mp ((mem_setOf _ _).mp hbarrier)
  exact (named_barrierRef id).short

/-- The operation is a translation. -/
def Translated (operation : TransactionOperation) : Prop :=
  ∃ outputs wire, translateOperation outputs wire = .ok operation

theorem Translated.short {operation : TransactionOperation} (h : Translated operation) :
    operation.Short := by
  obtain ⟨outputs, wire, hop⟩ := h
  cases wire with
  | launch launch =>
    cases hop
    exact ⟨(named_logicalPartition _).toShort, (named_launchRef _).toShort⟩
  | transfer wire =>
    obtain ⟨dtype, -, hop⟩ := bind_ok_iff.mp hop
    cases hop
    have hid : Named s!"transfer-{wire.id}" :=
      named_append wire.id (by decide) ⟨101, by decide, by decide⟩
    exact ⟨hid.toShort, (named_logicalPartition _).toShort, (named_logicalPartition _).toShort,
      translated_boundary_short _⟩
  | collective collective =>
    cases hop
    have hid : Named s!"collective-{collective.id}" :=
      named_append collective.id (by decide) ⟨116, by decide, by decide⟩
    exact ⟨hid.toShort, (named_logicalPartition _).toShort,
      shortSet_of_ids named_logicalPartition _⟩
  | barrier barrier =>
    cases hop
    exact ⟨(named_barrierRef _).toShort, shortSet_of_ids named_logicalPartition _⟩

theorem Translated.starts {operation : TransactionOperation} (h : Translated operation) :
    ∃ tag name, Named name ∧ tag :: pushStr name <+: operation.canonicalBytes := by
  obtain ⟨outputs, wire, hop⟩ := h
  cases wire with
  | launch launch =>
    cases hop
    refine ⟨0, _, named_logicalPartition launch.partition, ?_⟩
    simp only [TransactionOperation.canonicalBytes, List.append_assoc]
    exact List.prefix_append (0 :: pushStr _) _
  | transfer wire =>
    obtain ⟨dtype, -, hop⟩ := bind_ok_iff.mp hop
    cases hop
    have hid : Named s!"transfer-{wire.id}" :=
      named_append wire.id (by decide) ⟨101, by decide, by decide⟩
    refine ⟨1, _, hid, ?_⟩
    simp only [TransactionOperation.canonicalBytes, TransferOperationMirror.canonicalBytes,
      List.append_assoc]
    exact List.prefix_append (1 :: pushStr _) _
  | collective collective =>
    cases hop
    have hid : Named s!"collective-{collective.id}" :=
      named_append collective.id (by decide) ⟨116, by decide, by decide⟩
    refine ⟨2, _, hid, ?_⟩
    simp only [TransactionOperation.canonicalBytes, CollectiveBroadcastMirror.canonicalBytes,
      List.append_assoc]
    exact List.prefix_append (2 :: pushStr _) _
  | barrier barrier =>
    cases hop
    refine ⟨3, _, named_barrierRef barrier.id, ?_⟩
    simp only [TransactionOperation.canonicalBytes, List.append_assoc]
    exact List.prefix_append (3 :: pushStr _) _

theorem stopsAt_translated_boundary (wire : WireExecutionCommitBoundary) :
    StopsAt Translated TransactionOperation.canonicalBytes
      (translateCommitBoundary wire).canonicalBytes := by
  intro operation hop rest heq
  obtain ⟨tag, name, hname, more, hbytes⟩ := hop.starts
  rw [← hbytes, List.append_assoc, List.cons_append] at heq
  exact boundary_ne_named (translated_shortBarriers wire) hname _ heq

/-! ## Plans -/

theorem translated_parts {wire : FmirDistributedExecutionSection} {plan : TranslatedPlan}
    (h : translateAdmittedSection wire = .ok plan) :
    (∀ operation ∈ plan.operations, Translated operation) ∧
      plan.commitBoundary = translateCommitBoundary wire.commitBoundary := by
  obtain ⟨operations, hoperations, hplan⟩ := bind_ok_iff.mp h
  cases hplan
  refine ⟨?_, rfl⟩
  intro operation hop
  obtain ⟨wired, -, htranslated⟩ := exists_left_of_forall₂ (forall₂_of_mapM_ok hoperations)
    operation hop
  exact ⟨_, wired, htranslated⟩

/-- Two translated plans have the same bytes exactly when they have the same
    operations and the same commit boundary. -/
theorem plan_bytes_eq_iff (wire wire' : FmirDistributedExecutionSection) (plan plan' : TranslatedPlan)
    (h : translateAdmittedSection wire = .ok plan)
    (h' : translateAdmittedSection wire' = .ok plan') :
    plan.canonicalBytes = plan'.canonicalBytes ↔
      plan.operations = plan'.operations ∧ plan.commitBoundary = plan'.commitBoundary := by
  obtain ⟨hoperations, hboundary⟩ := translated_parts h
  obtain ⟨hoperations', hboundary'⟩ := translated_parts h'
  have hdelimits : Delimits Translated id TransactionOperation.canonicalBytes :=
    canonicalBytes_delimits.mono (fun _ hop => hop.short)
  rw [TranslatedPlan.canonicalBytes, TranslatedPlan.canonicalBytes, hboundary, hboundary',
    hdelimits.flatMap_of_stopsAt hoperations hoperations' (stopsAt_translated_boundary _)
      (stopsAt_translated_boundary _), List.map_id, List.map_id,
    commitBoundary_delimits.code_eq_iff (translated_boundary_short _)
      (translated_boundary_short _)]
  rfl

/-- A plan without operations and the plan of one launch. -/
theorem empty_launch_bytes_ne : ∃ plan plan',
    translateAdmittedSection { oneLaunch [] with operations := [] } = .ok plan ∧
      translateAdmittedSection (oneLaunch []) = .ok plan' ∧
        (plan.canonicalBytes = plan'.canonicalBytes ↔
          plan.operations = plan'.operations ∧ plan.commitBoundary = plan'.commitBoundary) :=
  ⟨_, _, rfl, rfl,
    plan_bytes_eq_iff { oneLaunch [] with operations := [] } (oneLaunch []) _ _ rfl rfl⟩

end FaberHosts.Macos
