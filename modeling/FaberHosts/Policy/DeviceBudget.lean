import FaberHosts.Policy.Ranking

/-!
# Device budgets of ranked plans

The memory gate compares each assignment with its device's budget.  A plan that
names a device twice passes as soon as each assignment fits alone.
-/

namespace FaberHosts.Policy
open FaberHosts.Lib FaberHosts.Coordinator

/-- The assignments of a plan to one device. -/
def assignmentsTo (plan : CandidatePlan) (device : PhysicalDeviceId) : List DeviceAssignment :=
  plan.assignments.filter (fun assignment => assignment.device = device)

/-- The exact bytes a plan requires on one device, over all of its assignments. -/
def requiredOn (plan : CandidatePlan) (device : PhysicalDeviceId) : Nat :=
  ((assignmentsTo plan device).map (fun assignment => assignment.required.exactTotal)).sum

/-- The device declares a budget that covers everything the plan requires on it. -/
def FitsDevice (constraints : DeclaredConstraints) (plan : CandidatePlan)
    (device : PhysicalDeviceId) : Prop :=
  ∃ limit, constraints.perDeviceBudget[device]? = some limit ∧
    requiredOn plan device ≤ limit.policyLimitBytes.toNat

/-- The plan respects the budget of each device it is assigned to. -/
def RespectsBudgets (constraints : DeclaredConstraints) (plan : CandidatePlan) : Prop :=
  ∀ assignment ∈ plan.assignments, FitsDevice constraints plan assignment.device

/-- Every plan the gates accept fits the devices it names in two assignments or more. -/
def SharedDevicesFit (request : PolicyRequest) : Prop :=
  ∀ plan ∈ request.plans, violationsOf request plan = [] →
    ∀ device, 2 ≤ (assignmentsTo plan device).length →
      FitsDevice request.constraints plan device

theorem assignmentMemory_eq_nil {constraints : DeclaredConstraints}
    {assignment : DeviceAssignment} (h : assignmentMemory constraints assignment = []) :
    ∃ limit, constraints.perDeviceBudget[assignment.device]? = some limit ∧
      assignment.required.exactTotal ≤ limit.policyLimitBytes.toNat := by
  unfold assignmentMemory at h
  cases hlimit : constraints.perDeviceBudget[assignment.device]? with
  | none => simp [hlimit] at h
  | some limit =>
    refine ⟨limit, rfl, ?_⟩
    cases htotal : assignment.required.totalBytes with
    | none => simp [hlimit, htotal] at h
    | some total =>
      simp only [hlimit, htotal, ite_eq_left_iff, List.cons_ne_self, imp_false, not_not] at h
      rw [← PartitionBudgetLedger.totalBytes_some htotal]
      exact UInt64.le_iff_toNat_le.mp h

/-- A plan without violations passed the memory gate, whatever the selection. -/
theorem gateMemory_of_accepted {request : PolicyRequest} {plan : CandidatePlan}
    (h : violationsOf request plan = []) : gateMemory plan request.constraints = [] := by
  cases hset : gateHealthEpochSelection request with
  | error violation => simp [violationsOf, hset] at h
  | ok set =>
    rw [violationsOf_of_resolved hset] at h
    simp only [planViolations, List.append_eq_nil_iff] at h
    exact h.1.2

theorem requiredOn_of_single {plan : CandidatePlan} {assignment : DeviceAssignment}
    (hmem : assignment ∈ plan.assignments)
    (hsingle : ¬ 2 ≤ (assignmentsTo plan assignment.device).length) :
    requiredOn plan assignment.device = assignment.required.exactTotal := by
  have hself : assignment ∈ assignmentsTo plan assignment.device :=
    List.mem_filter.mpr ⟨hmem, by simp⟩
  have hlength := List.length_pos_of_mem hself
  obtain ⟨only, honly⟩ :=
    List.length_eq_one_iff.mp (show (assignmentsTo plan assignment.device).length = 1 by omega)
  rw [honly, List.mem_singleton] at hself
  rw [requiredOn, honly, hself]
  simp

/-- An accepted plan respects every budget as soon as its shared devices fit. -/
theorem respectsBudgets_of_accepted {request : PolicyRequest} {plan : CandidatePlan}
    (haccepted : violationsOf request plan = [])
    (hshared : ∀ device, 2 ≤ (assignmentsTo plan device).length →
      FitsDevice request.constraints plan device) :
    RespectsBudgets request.constraints plan := by
  intro assignment hmem
  by_cases hcount : 2 ≤ (assignmentsTo plan assignment.device).length
  · exact hshared assignment.device hcount
  · have hgate := gateMemory_of_accepted haccepted
    rw [gateMemory, List.append_eq_nil_iff, List.flatMap_eq_nil_iff] at hgate
    obtain ⟨limit, hlimit, hfits⟩ := assignmentMemory_eq_nil (hgate.1 assignment hmem)
    exact ⟨limit, hlimit, by rw [requiredOn_of_single hmem hcount]; exact hfits⟩

/-- Two assignments of 60 bytes each to the one device. -/
def sharedPlan : CandidatePlan := samplePlan "shared" [sampleAssignment 60, sampleAssignment 60]

theorem sharedPlan_accepted : violationsOf (sampleRequest [sharedPlan]) sharedPlan = [] := by
  decide +kernel

end FaberHosts.Policy
