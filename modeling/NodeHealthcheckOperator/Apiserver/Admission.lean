import NodeHealthcheckOperator.Api.Webhook

/-!
What the API server does with each request on a stored `NodeHealthCheck`: it runs
the validating webhook for the operations the webhook is registered for, keeps the
status out of main-resource writes (the CRD's status subresource), and applies a
status patch only when the `resourceVersion` it carries is the stored one.

The webhook's `+kubebuilder:webhook` marker registers `verbs=update;delete` on
`nodehealthchecks`, so neither a create nor a write to `nodehealthchecks/status`
is shown to it: `ValidateCreate` is never called, and a negative `minHealthy` is
rejected on update but not on create.

The requests here are the typed ones: the objects are those a client decodes, and
the CRD's schema, which the server checks before admission, has already accepted
them. `Apiserver.Server` models the requests on the stored JSON, where the schema
refuses and decoding fails, and shows that its runs are runs of this model. Leaving
the schema out here only adds runs, so what holds over every run of this model holds
on the wire; what the server can still do is stated in `Apiserver.Server`.
-/

namespace Apiserver

open Apimachinery V1alpha1

/-- The admission operations a webhook can be registered for. -/
inductive Operation
  | create | update | delete
deriving DecidableEq, Repr

/-- `verbs=update;delete` of the webhook's marker. -/
def webhookVerbs : List Operation := [.update, .delete]

/-- The webhook's verdict on a request. `object` is the object the request
carries (the stored one for a delete) and `old` the stored one. -/
def webhookVerdict (op : Operation) (object old : NodeHealthCheck) : Option String :=
  if op ∈ webhookVerbs then
    match op with
    | .create => object.validateCreate
    | .update => object.validateUpdate old
    | .delete => object.validateDelete
  else none

/-- Why the API server refuses a request. -/
inductive ApiError
  /-- the CRD's schema refused it with this message -/
  | invalid (message : String)
  /-- the validating webhook denied it with this message -/
  | denied (message : String)
  /-- its `resourceVersion` is not the stored one -/
  | conflict
deriving DecidableEq, Repr

/-- A create: the status sent is dropped, and the object gets `revision`. -/
def create (obj : NodeHealthCheck) (revision : Nat) : Except ApiError NodeHealthCheck :=
  let r := { obj with status := .empty, resourceVersion := revision }
  match webhookVerdict .create r r with
  | some err => .error (.denied err)
  | none => .ok r

/-- An update of the main resource: the stored status is carried into the new
object before the webhook sees it, and an admitted object gets `revision`. -/
def update (stored new : NodeHealthCheck) (revision : Nat) : Except ApiError NodeHealthCheck :=
  let r := { new with status := stored.status }
  match webhookVerdict .update r stored with
  | some err => .error (.denied err)
  | none => .ok { r with resourceVersion := revision }

/-- A delete of the stored object. -/
def delete (stored : NodeHealthCheck) : Except ApiError Unit :=
  match webhookVerdict .delete stored stored with
  | some err => .error (.denied err)
  | none => .ok ()

/-- A merge patch of the status subresource computed from a read at
`resourceVersion`. The webhook does not see it; the spec is left alone. -/
def patchStatus (stored : NodeHealthCheck) (resourceVersion : Nat)
    (patch : GoMap (Option Time)) (revision : Nat) : Except ApiError NodeHealthCheck :=
  if resourceVersion = stored.resourceVersion then
    .ok { stored with
      status := ⟨stored.status.inFlightRemediations.mergePatch patch⟩
      resourceVersion := revision }
  else .error .conflict

theorem create_eq_ok (obj : NodeHealthCheck) (revision : Nat) :
    create obj revision = .ok { obj with status := .empty, resourceVersion := revision } :=
  rfl

theorem update_eq_ok {stored new obj : NodeHealthCheck} {revision : Nat} :
    update stored new revision = .ok obj ↔
      ({ new with status := stored.status } : NodeHealthCheck).validateUpdate stored = none ∧
        obj = { new with status := stored.status, resourceVersion := revision } := by
  unfold update
  simp only [webhookVerdict, webhookVerbs, List.mem_cons, List.mem_singleton, true_or, if_true]
  cases ({ new with status := stored.status } : NodeHealthCheck).validateUpdate stored <;>
    simp [eq_comm]

theorem delete_eq_ok {stored : NodeHealthCheck} :
    delete stored = .ok () ↔ stored.validateDelete = none := by
  unfold delete
  simp only [webhookVerdict, webhookVerbs, List.mem_cons, List.mem_singleton, or_true, if_true]
  split <;> simp_all

theorem patchStatus_eq_ok {stored obj : NodeHealthCheck} {resourceVersion revision : Nat}
    {patch : GoMap (Option Time)} :
    patchStatus stored resourceVersion patch revision = .ok obj ↔
      resourceVersion = stored.resourceVersion ∧
        obj = { stored with
          status := ⟨stored.status.inFlightRemediations.mergePatch patch⟩
          resourceVersion := revision } := by
  unfold patchStatus
  split <;> simp_all [eq_comm]

end Apiserver
