import NodeHealthcheckOperator.Apimachinery.Selector

/-!
The validating webhook of `NodeHealthCheck` (`api/v1alpha1/nodehealthcheck_webhook.go`)
and the part of the API types it reads: the spec's `selector` and `minHealthy`, the
status's `inFlightRemediations`, and the object's `resourceVersion`, which the API
server model reads. The webhook's texts are kept as the source has them.

Each check has one lemma saying exactly when it passes. The two gates of the
webhook read: an update is admitted when the new spec is valid and, while
remediations are in flight, keeps the selector; a delete is admitted when no
remediation is in flight.
-/

namespace V1alpha1

open Apimachinery

/-- `intstr.Type`. -/
inductive IntOrStringType
  | int | string
deriving DecidableEq, Repr

/-- `intstr.IntOrString`; its `IntVal` is an `int32`. -/
structure IntOrString where
  type : IntOrStringType
  intVal : BitVec 32
  strVal : String
deriving DecidableEq, Repr

/-- `intstr.FromInt`. -/
def IntOrString.fromInt (i : Int) : IntOrString := ⟨.int, BitVec.ofInt 32 i, ""⟩

/-- `intstr.FromString`. -/
def IntOrString.fromString (s : String) : IntOrString := ⟨.string, 0, s⟩

/-- `(*IntOrString).String()`, which `%v` prints. -/
def IntOrString.toString (m : IntOrString) : String :=
  match m.type with
  | .string => m.strVal
  | .int => ToString.toString m.intVal.toInt

/-- `metav1.Time`, to the second. -/
structure Time where
  seconds : Int
deriving DecidableEq, Repr

/-- The fields of `NodeHealthCheckSpec` the webhook reads. -/
structure NodeHealthCheckSpec where
  selector : LabelSelector
  minHealthy : Option IntOrString
deriving DecidableEq

/-- The field of `NodeHealthCheckStatus` the webhook reads: in-flight remediations
by node name, with the start of each. -/
structure NodeHealthCheckStatus where
  inFlightRemediations : GoMap Time
deriving DecidableEq

/-- The status an object is created with. -/
def NodeHealthCheckStatus.empty : NodeHealthCheckStatus := ⟨GoMap.empty⟩

/-- `NodeHealthCheck`, with the etcd revision the API server writes into its
`resourceVersion`. -/
structure NodeHealthCheck where
  spec : NodeHealthCheckSpec
  status : NodeHealthCheckStatus
  resourceVersion : Nat
deriving DecidableEq

/-- A spec `validate` accepts: `minHealthy` is set and not a negative integer, and
the selector converts. -/
def NodeHealthCheckSpec.Valid (spec : NodeHealthCheckSpec) : Prop :=
  (∃ m, spec.minHealthy = some m ∧ ¬(m.type = .int ∧ m.intVal.toInt < 0)) ∧
    spec.selector.Valid

def ongoingRemediationError : String := "prohibited due to running remediation"
def minHealthyError : String := "MinHealthy must not be negative"
def invalidSelectorError : String := "Invalid selector"

namespace NodeHealthCheck

def validateMinHealthy (r : NodeHealthCheck) : Option String :=
  match r.spec.minHealthy with
  | none => some "MinHealthy must not be empty"
  | some m =>
      if m.type = .int ∧ m.intVal.toInt < 0 then some (minHealthyError ++ ": " ++ m.toString)
      else none

def validateSelector (r : NodeHealthCheck) : Option String :=
  match labelSelectorAsSelector r.spec.selector with
  | .error err => some (invalidSelectorError ++ ": " ++ err)
  | .ok _ => none

def validate (r : NodeHealthCheck) : Option String :=
  newAggregate [r.validateMinHealthy, r.validateSelector]

/-- `reflect.DeepEqual` on two selectors is their equality: `LabelSelector` keeps
`nil` apart from empty and holds maps by sorted key. -/
def isRestrictedFieldUpdated (r old : NodeHealthCheck) : Bool :=
  !decide (r.spec.selector = old.spec.selector)

def isRemediating (r : NodeHealthCheck) : Bool :=
  r.status.inFlightRemediations.keys.length > 0

def validateCreate (r : NodeHealthCheck) : Option String := r.validate

def validateUpdate (r old : NodeHealthCheck) : Option String :=
  match r.validate with
  | some err => some err
  | none =>
      if r.isRemediating && r.isRestrictedFieldUpdated old then
        some ("selector update " ++ ongoingRemediationError)
      else none

def validateDelete (r : NodeHealthCheck) : Option String :=
  if r.isRemediating then some ("deletion " ++ ongoingRemediationError) else none

theorem validateMinHealthy_eq_none_iff (r : NodeHealthCheck) :
    r.validateMinHealthy = none ↔
      ∃ m, r.spec.minHealthy = some m ∧ ¬(m.type = .int ∧ m.intVal.toInt < 0) := by
  unfold validateMinHealthy
  split <;> simp_all

theorem validateSelector_eq_none_iff (r : NodeHealthCheck) :
    r.validateSelector = none ↔ r.spec.selector.Valid := by
  rw [← labelSelectorAsSelector_isOk_iff]
  unfold validateSelector
  split <;> simp_all

/-- The webhook's validation accepts exactly an object whose `minHealthy` is set
and not a negative integer, and whose selector converts. -/
theorem validate_eq_none_iff (r : NodeHealthCheck) :
    r.validate = none ↔
      (∃ m, r.spec.minHealthy = some m ∧ ¬(m.type = .int ∧ m.intVal.toInt < 0)) ∧
        r.spec.selector.Valid := by
  rw [← validateMinHealthy_eq_none_iff, ← validateSelector_eq_none_iff]
  simp [validate, newAggregate_eq_none_iff]

theorem isRemediating_eq_false_iff (r : NodeHealthCheck) :
    r.isRemediating = false ↔ r.status.inFlightRemediations.keys = [] := by
  simp [isRemediating]

/-- An update is admitted exactly when the new object is valid and, if
remediations are in flight, its selector is the stored one. -/
theorem validateUpdate_eq_none_iff (r old : NodeHealthCheck) :
    r.validateUpdate old = none ↔
      r.validate = none ∧ (r.isRemediating = true → r.spec.selector = old.spec.selector) := by
  unfold validateUpdate isRestrictedFieldUpdated
  split
  · simp_all
  · by_cases hrem : r.isRemediating <;> by_cases hsel : r.spec.selector = old.spec.selector <;>
      simp_all

/-- A delete is admitted exactly when no remediation is in flight. -/
theorem validateDelete_eq_none_iff (r : NodeHealthCheck) :
    r.validateDelete = none ↔ r.status.inFlightRemediations.keys = [] := by
  rw [← isRemediating_eq_false_iff]
  unfold validateDelete
  split <;> simp_all

end NodeHealthCheck

end V1alpha1
