import FaberHosts.Policy.Evaluate

/-!
# What the two passes decide

The gate pass splits the candidate plans by their violations, the objective pass
orders those without any.  Neither result depends on a rejected plan, and the
first does not depend on the objectives.
-/

namespace FaberHosts.Policy
open FaberHosts.Lib FaberHosts.Coordinator

/-! ## The gate pass -/

/-- Every violation of the four gates against a plan: the selection-level one alone
    when the selection does not resolve. -/
def violationsOf (request : PolicyRequest) (plan : CandidatePlan) : List GateViolation :=
  match gateHealthEpochSelection request with
  | .ok set => planViolations request set plan
  | .error violation => [violation]

/-- No gate rejects the plan. -/
def passesGates (request : PolicyRequest) (plan : CandidatePlan) : Bool :=
  (violationsOf request plan).isEmpty

def passersOf (request : PolicyRequest) : List CandidatePlan :=
  request.plans.filter (passesGates request)

def rejectedPlansOf (request : PolicyRequest) : List CandidatePlan :=
  request.plans.filter (fun plan => !passesGates request plan)

/-- The receipt row of a rejected plan. -/
def rejectionOf (request : PolicyRequest) (plan : CandidatePlan) : PlanRejection :=
  ⟨plan.name, violationsOf request plan⟩

theorem passesGates_iff {request : PolicyRequest} {plan : CandidatePlan} :
    passesGates request plan = true ↔ violationsOf request plan = [] := by
  simp [passesGates]

/-- Under a resolved selection the violations of a plan are those of the four gates. -/
theorem violationsOf_of_resolved {request : PolicyRequest} {set : DeviceSet}
    (hset : gateHealthEpochSelection request = .ok set) (plan : CandidatePlan) :
    violationsOf request plan = planViolations request set plan := by
  simp only [violationsOf, hset]

/-- The gate loop over a list: each plan goes to the list it belongs to. -/
theorem foldl_gateStep {request : PolicyRequest} {set : DeviceSet}
    (hset : gateHealthEpochSelection request = .ok set) (plans : List CandidatePlan)
    (result : List CandidatePlan × List PlanRejection) :
    plans.foldl (gateStep request set) result =
      (result.1 ++ plans.filter (passesGates request),
        result.2 ++ (plans.filter (fun plan => !passesGates request plan)).map
          (rejectionOf request)) := by
  induction plans generalizing result with
  | nil => simp
  | cons plan rest ih =>
    have hviolations := violationsOf_of_resolved hset plan
    rw [List.foldl_cons, ih]
    cases hplan : passesGates request plan with
    | true =>
      have hstep : gateStep request set result plan = (result.1 ++ [plan], result.2) := by
        rw [gateStep, ← hviolations]
        exact if_pos hplan
      simp [hstep, hplan]
    | false =>
      have hstep : gateStep request set result plan =
          (result.1, result.2 ++ [rejectionOf request plan]) := by
        rw [gateStep, rejectionOf, hviolations]
        exact if_neg (by rw [← hviolations]; simpa [passesGates] using hplan)
      simp [hstep, hplan]

theorem gatePass_eq (request : PolicyRequest) :
    gatePass request =
      (passersOf request, (rejectedPlansOf request).map (rejectionOf request)) := by
  cases hset : gateHealthEpochSelection request with
  | ok set => simp only [gatePass, hset, foldl_gateStep hset, passersOf, rejectedPlansOf,
      List.nil_append]
  | error violation =>
    have hviolations : ∀ plan, violationsOf request plan = [violation] := by
      intro plan
      simp only [violationsOf, hset]
    simp [gatePass, hset, passersOf, rejectedPlansOf, passesGates, hviolations,
      funext (fun plan => show rejectionOf request plan = ⟨plan.name, [violation]⟩ by
        rw [rejectionOf, hviolations])]

theorem evaluate_some {request : PolicyRequest} {outcome : PolicyOutcome}
    (h : evaluate request = some outcome) :
    request.constraints.topology.discovery = request.discovery ∧
      outcome.rejected = (rejectedPlansOf request).map (rejectionOf request) ∧
      outcome.ranked = rankPlans (passersOf request) request.objectives request.constraints := by
  unfold evaluate at h
  split at h
  · cases h
  · rename_i hmeasured
    simp only [gatePass_eq] at h
    cases h
    exact ⟨not_not.mp hmeasured, rfl, rfl⟩

theorem evaluate_returns (request : PolicyRequest)
    (h : request.constraints.topology.discovery = request.discovery) :
    ∃ outcome, evaluate request = some outcome := by
  rw [evaluate, if_neg (not_not.mpr h)]
  exact ⟨_, rfl⟩

/-- The violations of a plan read neither the other plans nor the objectives. -/
theorem violationsOf_congr (request request' : PolicyRequest)
    (hdiscovery : request'.discovery = request.discovery)
    (hselection : request'.selection = request.selection)
    (hconstraints : request'.constraints = request.constraints) :
    violationsOf request' = violationsOf request := by
  funext plan
  simp only [violationsOf, gateHealthEpochSelection, planViolations, hdiscovery, hselection,
    hconstraints]

/-! ## The objective pass -/

section Order

variable (constraints : DeclaredConstraints)

/-- `a` beats `b` on one objective. -/
def Beats (objective : Objective) (a b : CandidatePlan) : Prop :=
  match objective.direction with
  | .minimize => objectiveValue a constraints objective < objectiveValue b constraints objective
  | .maximize => objectiveValue b constraints objective < objectiveValue a constraints objective

/-- Both plans score the same on an objective. -/
def TiesOn (objective : Objective) (a b : CandidatePlan) : Prop :=
  objectiveValue a constraints objective = objectiveValue b constraints objective

/-- The devices of a plan in stable identity order. -/
def devicesOf (plan : CandidatePlan) : List PhysicalDeviceId :=
  (setOf (plan.assignments.map (·.device))).toList

/-- The declared ranking order: `a` beats `b` on the first objective on which they
    differ, or they differ on none and the device set of `a` does not come later. -/
def NotWorse (objectives : List Objective) (a b : CandidatePlan) : Prop :=
  (∃ before objective after, objectives = before ++ objective :: after ∧
    (∀ earlier ∈ before, TiesOn constraints earlier a b) ∧ Beats constraints objective a b) ∨
  ((∀ objective ∈ objectives, TiesOn constraints objective a b) ∧
    (compare (devicesOf a) (devicesOf b)).isLE = true)

/-- One objective in its direction. -/
def compareOnObjective (objective : Objective) (a b : CandidatePlan) : Ordering :=
  match objective.direction with
  | .minimize =>
    compare (objectiveValue a constraints objective) (objectiveValue b constraints objective)
  | .maximize =>
    compare (objectiveValue b constraints objective) (objectiveValue a constraints objective)

/-- The comparator of the sort on the plans themselves. -/
def comparePlans : List Objective → CandidatePlan → CandidatePlan → Ordering
  | [] => compareOn devicesOf
  | objective :: rest => compareLex (compareOnObjective constraints objective) (comparePlans rest)

instance (objective : Objective) : Std.TransCmp (compareOnObjective constraints objective) := by
  cases hdirection : objective.direction with
  | minimize =>
    have heq : compareOnObjective constraints objective =
        compareOn (fun plan => objectiveValue plan constraints objective) := by
      funext a b
      simp only [compareOnObjective, hdirection, compareOn]
    rw [heq]
    infer_instance
  | maximize =>
    have heq : compareOnObjective constraints objective =
        fun a b => compareOn (fun plan => objectiveValue plan constraints objective) b a := by
      funext a b
      simp only [compareOnObjective, hdirection, compareOn]
    rw [heq]
    exact Std.TransCmp.opposite

instance comparePlans_trans (objectives : List Objective) :
    Std.TransCmp (comparePlans constraints objectives) := by
  induction objectives with
  | nil => exact inferInstanceAs (Std.TransCmp (compareOn devicesOf))
  | cons objective rest ih =>
    exact inferInstanceAs (Std.TransCmp
      (compareLex (compareOnObjective constraints objective) (comparePlans constraints rest)))

theorem compareScored_scorePlan (objectives : List Objective) (a b : CandidatePlan) :
    compareScored objectives (scorePlan objectives constraints a)
      (scorePlan objectives constraints b) = comparePlans constraints objectives a b := by
  unfold compareScored scorePlan
  induction objectives with
  | nil => rfl
  | cons objective rest ih =>
    simp only [List.map_cons, compareValues, Ordering.then_assoc] at ih ⊢
    rw [ih]
    rfl

theorem compareOnObjective_lt_iff {objective : Objective} {a b : CandidatePlan} :
    compareOnObjective constraints objective a b = .lt ↔ Beats constraints objective a b := by
  cases hdirection : objective.direction with
  | minimize => simp only [compareOnObjective, Beats, hdirection, Std.compare_eq_lt]
  | maximize => simp only [compareOnObjective, Beats, hdirection, Std.compare_eq_lt]

theorem compareOnObjective_eq_iff {objective : Objective} {a b : CandidatePlan} :
    compareOnObjective constraints objective a b = .eq ↔ TiesOn constraints objective a b := by
  cases hdirection : objective.direction with
  | minimize =>
    simp only [compareOnObjective, TiesOn, hdirection, Std.LawfulEqOrd.compare_eq_iff_eq]
  | maximize =>
    simp only [compareOnObjective, TiesOn, hdirection, Std.LawfulEqOrd.compare_eq_iff_eq]
    exact eq_comm

theorem comparePlans_isLE_iff {objectives : List Objective} {a b : CandidatePlan} :
    (comparePlans constraints objectives a b).isLE = true ↔
      NotWorse constraints objectives a b := by
  induction objectives with
  | nil => simp [comparePlans, NotWorse, compareOn]
  | cons objective rest ih =>
    cases hcompare : compareOnObjective constraints objective a b with
    | lt =>
      have hbeats := (compareOnObjective_lt_iff constraints).mp hcompare
      simp only [comparePlans, compareLex, hcompare, Ordering.then, Ordering.isLE_lt, true_iff]
      exact .inl ⟨[], objective, rest, rfl, by simp, hbeats⟩
    | eq =>
      have hties := (compareOnObjective_eq_iff constraints).mp hcompare
      have hnot : ¬ Beats constraints objective a b := by
        rw [← compareOnObjective_lt_iff, hcompare]
        simp
      simp only [comparePlans, compareLex, hcompare, Ordering.then, ih]
      constructor
      · rintro (⟨before, first, after, rfl, hbefore, hfirst⟩ | ⟨hall, hdevices⟩)
        · exact .inl ⟨objective :: before, first, after, rfl, by simpa using ⟨hties, hbefore⟩,
            hfirst⟩
        · exact .inr ⟨by simpa using ⟨hties, hall⟩, hdevices⟩
      · rintro (⟨before, first, after, hsplit, hbefore, hfirst⟩ | ⟨hall, hdevices⟩)
        · cases before with
          | nil =>
            cases hsplit
            exact (hnot hfirst).elim
          | cons head tail =>
            cases hsplit
            exact .inl ⟨tail, first, after, rfl, fun e he => hbefore e (by simp [he]), hfirst⟩
        · exact .inr ⟨fun e he => hall e (by simp [he]), hdevices⟩
    | gt =>
      have hnotBeats : ¬ Beats constraints objective a b := by
        rw [← compareOnObjective_lt_iff, hcompare]
        simp
      have hnotTies : ¬ TiesOn constraints objective a b := by
        rw [← compareOnObjective_eq_iff, hcompare]
        simp
      simp only [comparePlans, compareLex, hcompare, Ordering.then, Ordering.isLE_gt,
        Bool.false_eq_true, false_iff]
      rintro (⟨before, first, after, hsplit, hbefore, hfirst⟩ | ⟨hall, -⟩)
      · cases before with
        | nil =>
          cases hsplit
          exact hnotBeats hfirst
        | cons head tail =>
          cases hsplit
          exact hnotTies (hbefore objective (by simp))
      · exact hnotTies (hall objective (by simp))

/-- The gate-passing plans in ranked order. -/
def rankedOrder (objectives : List Objective) (passers : List CandidatePlan) :
    List CandidatePlan :=
  passers.mergeSort (fun a b => (comparePlans constraints objectives a b).isLE)

theorem rankedOrder_perm (objectives : List Objective) (passers : List CandidatePlan) :
    (rankedOrder constraints objectives passers).Perm passers :=
  List.mergeSort_perm _ _

theorem rankedOrder_pairwise (objectives : List Objective) (passers : List CandidatePlan) :
    (rankedOrder constraints objectives passers).Pairwise (NotWorse constraints objectives) := by
  have htotal : ∀ a b, ((comparePlans constraints objectives a b).isLE ||
      (comparePlans constraints objectives b a).isLE) = true := by
    intro a b
    have hswap : comparePlans constraints objectives b a =
        (comparePlans constraints objectives a b).swap := Std.OrientedCmp.eq_swap
    rw [hswap]
    cases comparePlans constraints objectives a b <;> rfl
  have htrans : ∀ a b c, (comparePlans constraints objectives a b).isLE = true →
      (comparePlans constraints objectives b c).isLE = true →
      (comparePlans constraints objectives a c).isLE = true :=
    fun _ _ _ hab hbc => Std.TransCmp.isLE_trans hab hbc
  have hsorted : (rankedOrder constraints objectives passers).Pairwise
      (fun a b => (comparePlans constraints objectives a b).isLE = true) :=
    List.pairwise_mergeSort htrans htotal passers
  exact hsorted.imp (fun h => (comparePlans_isLE_iff constraints).mp h)

/-- The row of the plan at position `position` of the ranked order. -/
def rowOf (objectives : List Objective) (position : Nat) (plan : CandidatePlan) : RankedPlan where
  rank := position + 1
  plan := plan.name
  devices := devicesOf plan
  scores := objectives.map (fun objective => ⟨objective, objectiveValue plan constraints objective⟩)

theorem rankPlans_eq (passers : List CandidatePlan) (objectives : List Objective) :
    rankPlans passers objectives constraints =
      (rankedOrder constraints objectives passers).mapIdx (rowOf constraints objectives) := by
  have hsort : sortScored passers objectives constraints =
      (rankedOrder constraints objectives passers).map (scorePlan objectives constraints) := by
    rw [sortScored, rankedOrder, List.map_mergeSort]
    intro a _ b _
    rw [compareScored_scorePlan]
  have hrow : ∀ (plan : CandidatePlan) (position : Nat),
      rankRow objectives (scorePlan objectives constraints plan) position =
        rowOf constraints objectives position plan := by
    intro plan position
    simp [rankRow, scorePlan, rowOf, devicesOf, ← List.map_prod_left_eq_zip]
  unfold rankPlans
  split
  · rename_i hempty
    simp [List.isEmpty_iff.mp hempty, rankedOrder]
  · simp [hsort, List.mapIdx_eq_zipIdx_map, List.zipIdx_map, hrow]

end Order

/-! ## The outcome -/

/-- What an outcome reports: `ranked` in ranked order and `rejected` in input order
    split the input plans by their violations. -/
structure Reports (request : PolicyRequest) (outcome : PolicyOutcome)
    (ranked rejected : List CandidatePlan) : Prop where
  every_plan_once : (ranked ++ rejected).Perm request.plans
  input_order : rejected.Sublist request.plans
  ranked_iff : ∀ plan ∈ request.plans, plan ∈ ranked ↔ violationsOf request plan = []
  rejected_iff : ∀ plan ∈ request.plans, plan ∈ rejected ↔ violationsOf request plan ≠ []
  rejections : outcome.rejected = rejected.map (rejectionOf request)
  rows : outcome.ranked = ranked.mapIdx (rowOf request.constraints request.objectives)
  ordered : ranked.Pairwise (NotWorse request.constraints request.objectives)

theorem reports_of_some {request : PolicyRequest} {outcome : PolicyOutcome}
    (h : evaluate request = some outcome) :
    Reports request outcome
      (rankedOrder request.constraints request.objectives (passersOf request))
      (rejectedPlansOf request) := by
  obtain ⟨-, hrejected, hranked⟩ := evaluate_some h
  have hperm := rankedOrder_perm request.constraints request.objectives (passersOf request)
  constructor
  · exact (hperm.append_right _).trans (List.filter_append_perm _ _)
  · exact List.filter_sublist
  · intro plan hplan
    rw [hperm.mem_iff, ← passesGates_iff]
    simp [passersOf, hplan]
  · intro plan hplan
    rw [Ne, ← passesGates_iff]
    simp [rejectedPlansOf, hplan]
  · exact hrejected
  · rw [hranked, rankPlans_eq]
  · exact rankedOrder_pairwise _ _ _

/-- The request without one of its plans. -/
def PolicyRequest.withPlans (request : PolicyRequest) (plans : List CandidatePlan) :
    PolicyRequest :=
  { request with plans := plans }

/-- The request under other objectives. -/
def PolicyRequest.withObjectives (request : PolicyRequest) (objectives : List Objective) :
    PolicyRequest :=
  { request with objectives := objectives }

section Congr

variable (request : PolicyRequest)

@[simp] theorem passesGates_withPlans (plans : List CandidatePlan) :
    passesGates (request.withPlans plans) = passesGates request := by
  unfold passesGates
  rw [violationsOf_congr request (request.withPlans plans) rfl rfl rfl]

@[simp] theorem rejectionOf_withPlans (plans : List CandidatePlan) :
    rejectionOf (request.withPlans plans) = rejectionOf request := by
  unfold rejectionOf
  rw [violationsOf_congr request (request.withPlans plans) rfl rfl rfl]

@[simp] theorem passersOf_withObjectives (objectives : List Objective) :
    passersOf (request.withObjectives objectives) = passersOf request := by
  unfold passersOf passesGates
  rw [violationsOf_congr request (request.withObjectives objectives) rfl rfl rfl]
  rfl

@[simp] theorem rejectedPlansOf_withObjectives (objectives : List Objective) :
    rejectedPlansOf (request.withObjectives objectives) = rejectedPlansOf request := by
  unfold rejectedPlansOf passesGates
  rw [violationsOf_congr request (request.withObjectives objectives) rfl rfl rfl]
  rfl

@[simp] theorem rejectionOf_withObjectives (objectives : List Objective) :
    rejectionOf (request.withObjectives objectives) = rejectionOf request := by
  unfold rejectionOf
  rw [violationsOf_congr request (request.withObjectives objectives) rfl rfl rfl]

end Congr

/-- Without one rejected plan the ranking is the same and only its own rejection is
    missing. -/
theorem evaluate_without_rejected {request : PolicyRequest} {outcome : PolicyOutcome}
    {before after : List CandidatePlan} {plan : CandidatePlan}
    (h : evaluate request = some outcome) (hplans : request.plans = before ++ plan :: after)
    (hplan : passesGates request plan = false) :
    ∃ outcome', evaluate (request.withPlans (before ++ after)) = some outcome' ∧
      outcome'.ranked = outcome.ranked ∧
      ∃ rejectedBefore rejectedAfter,
        outcome.rejected = rejectedBefore ++ rejectionOf request plan :: rejectedAfter ∧
        outcome'.rejected = rejectedBefore ++ rejectedAfter := by
  obtain ⟨hmeasured, hrejected, hranked⟩ := evaluate_some h
  obtain ⟨outcome', houtcome'⟩ :=
    evaluate_returns (request.withPlans (before ++ after)) hmeasured
  obtain ⟨-, hrejected', hranked'⟩ := evaluate_some houtcome'
  refine ⟨outcome', houtcome', ?_, ?_⟩
  · rw [hranked', hranked]
    simp [passersOf, PolicyRequest.withPlans, hplans, hplan,
      show passesGates { request with plans := before ++ after } = passesGates request from
        passesGates_withPlans request (before ++ after)]
  · let rejections := fun plans : List CandidatePlan =>
      (plans.filter (fun plan => !passesGates request plan)).map (rejectionOf request)
    refine ⟨rejections before, rejections after, ?_, ?_⟩
    · rw [hrejected]
      simp [rejectedPlansOf, hplans, hplan, rejections]
    · rw [hrejected', rejectedPlansOf, passesGates_withPlans, rejectionOf_withPlans]
      simp [PolicyRequest.withPlans, rejections]

/-- Under other objectives the rejections are the same, and so are the ranked plans
    up to order. -/
theorem evaluate_with_objectives {request : PolicyRequest} {outcome : PolicyOutcome}
    (h : evaluate request = some outcome) (objectives : List Objective) :
    ∃ outcome', evaluate (request.withObjectives objectives) = some outcome' ∧
      outcome'.rejected = outcome.rejected ∧
      ∃ ranked',
        ranked'.Perm (rankedOrder request.constraints request.objectives (passersOf request)) ∧
        Reports (request.withObjectives objectives) outcome' ranked'
          (rejectedPlansOf request) := by
  obtain ⟨hmeasured, hrejected, -⟩ := evaluate_some h
  obtain ⟨outcome', houtcome'⟩ :=
    evaluate_returns (request.withObjectives objectives) hmeasured
  obtain ⟨-, hrejected', -⟩ := evaluate_some houtcome'
  have hreports := reports_of_some houtcome'
  rw [passersOf_withObjectives, rejectedPlansOf_withObjectives] at hreports
  refine ⟨outcome', houtcome', ?_, _, ?_, hreports⟩
  · rw [hrejected', hrejected, rejectedPlansOf_withObjectives, rejectionOf_withObjectives]
  · exact (rankedOrder_perm _ _ _).trans (rankedOrder_perm _ _ _).symm

/-- Every plan is rejected, in input order, or ranked, in the declared order; the gates
    alone decide which.  Dropping a rejected plan leaves the ranking and the other
    rejections, and other objectives leave the rejections and the set of ranked plans. -/
theorem evaluate_gates_then_ranks (request : PolicyRequest) (outcome : PolicyOutcome)
    (h : evaluate request = some outcome) :
    ∃ ranked rejected, Reports request outcome ranked rejected ∧
      (∀ before plan after, request.plans = before ++ plan :: after → plan ∈ rejected →
        ∃ outcome', evaluate (request.withPlans (before ++ after)) = some outcome' ∧
          outcome'.ranked = outcome.ranked ∧
          ∃ rejectedBefore rejectedAfter,
            outcome.rejected = rejectedBefore ++ rejectionOf request plan :: rejectedAfter ∧
            outcome'.rejected = rejectedBefore ++ rejectedAfter) ∧
      (∀ objectives, ∃ outcome',
        evaluate (request.withObjectives objectives) = some outcome' ∧
          outcome'.rejected = outcome.rejected ∧
          ∃ ranked', ranked'.Perm ranked ∧
            Reports (request.withObjectives objectives) outcome' ranked' rejected) := by
  refine ⟨_, _, reports_of_some h, ?_, evaluate_with_objectives h⟩
  intro before plan after hplans hplan
  refine evaluate_without_rejected h hplans ?_
  simpa [rejectedPlansOf] using (List.mem_filter.mp hplan).2

/-! ## A request over one device -/

section Sample

def sampleDevice : PhysicalDeviceId := ⟨.cuda ⟨"GPU-0", none⟩⟩

def sampleGeneration : DeviceHealthGeneration := ⟨1⟩

def sampleEntry : DeviceDiscoveryEntry where
  ordinal := ⟨0⟩
  identity := sampleDevice
  deviceModel := none
  capabilities := ⟨⟨8, 0⟩, 108, .empty, 1024, 49152, 166912, 32, false⟩
  memory := ⟨none, 0⟩
  health := .healthy
  healthGeneration := sampleGeneration
  probeProvenance := ⟨"probe", "1"⟩

/-- One device at ordinal 0. -/
def sampleDiscovery : DeviceDiscoverySnapshot where
  id := .fromCanonicalBytes (DeviceDiscoverySnapshot.canonicalBytesOf 0
    ((∅ : BTreeMap DeviceOrdinal DeviceDiscoveryEntry).insert ⟨0⟩ sampleEntry) .notAttempted)
  probeUtcNanos := 0
  devices := (∅ : BTreeMap DeviceOrdinal DeviceDiscoveryEntry).insert ⟨0⟩ sampleEntry
  p2p := .notAttempted
  ordinals_match := by decide +kernel

/-- A limit of 100 bytes on the device. -/
def sampleConstraints : DeclaredConstraints where
  currentGeneration := sampleGeneration
  topology := ⟨sampleDiscovery, ∅⟩
  perDeviceBudget :=
    (∅ : BTreeMap PhysicalDeviceId SafePhysicalLimit).insert sampleDevice ⟨100⟩
  totalBudget := none

/-- An assignment of so many weight bytes to the device. -/
def sampleAssignment (weightBytes : UInt64) : DeviceAssignment where
  device := sampleDevice
  required := ⟨weightBytes, 0, 0, 0, 0, 0, 0⟩
  requiredCapabilities := .default

def samplePlan (name : String) (assignments : List DeviceAssignment) : CandidatePlan where
  name := name
  assignments := assignments
  transfers := []
  declaredTotalBytes := 0
  facts := ⟨none, none, none, none, none, none⟩

def sampleRequest (plans : List CandidatePlan) : PolicyRequest where
  discovery := sampleDiscovery
  selection := .explicit (setOf [sampleDevice])
  constraints := sampleConstraints
  objectives := [.capacityReserve]
  plans := plans

/-- One plan within the limit and one beyond it. -/
theorem sample_gates_then_ranks :
    ∃ outcome, evaluate (sampleRequest
        [samplePlan "within" [sampleAssignment 60], samplePlan "beyond" [sampleAssignment 200]]) =
      some outcome ∧ ∃ ranked rejected, Reports (sampleRequest
        [samplePlan "within" [sampleAssignment 60], samplePlan "beyond" [sampleAssignment 200]])
        outcome ranked rejected := by
  obtain ⟨outcome, houtcome⟩ := evaluate_returns (sampleRequest
    [samplePlan "within" [sampleAssignment 60], samplePlan "beyond" [sampleAssignment 200]]) rfl
  obtain ⟨ranked, rejected, hreports, -⟩ := evaluate_gates_then_ranks _ outcome houtcome
  exact ⟨outcome, houtcome, ranked, rejected, hreports⟩

end Sample

end FaberHosts.Policy
