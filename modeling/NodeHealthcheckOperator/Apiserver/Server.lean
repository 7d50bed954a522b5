import Mathlib.Logic.Relation
import NodeHealthcheckOperator.Apiserver.Controller
import NodeHealthcheckOperator.Apiserver.Design

/-!
The API server on the stored JSON.

The server keeps a `NodeHealthCheck` as JSON. It checks a create, and an update of
the main resource, against the CRD's structural schema before admission; the schema
comes from the type's kubebuilder markers, which this model does not hold, so it is
a parameter. The validating webhook is controller-runtime's handler around the
typed validator: it decodes the request's object, and the old object on an update
and a delete, and denies the request when that fails. The controller reads through
the typed client, which decodes too.

Decoding fails only on a `minHealthy` that is an integer outside `int32`, and at a
create, which the webhook is not registered for, nothing but the schema can refuse
one. Such an object is stored, and then no update, delete or controller read acts on
it again. Every other run is a run of the typed model `Apiserver.Reachable` read
through decoding, so the run invariant holds on the wire. A stored object that
decodes can be deleted once the controller clears its entries, and updated then to
any spec the schema and the webhook accept; while remediations are in flight, an
update that keeps the selector and sets an accepted `minHealthy` is admitted; and the
server applies every step of the design whose spec the schema accepts.
-/

namespace Apiserver.Server

open Apimachinery V1alpha1

/-- controller-runtime's validating handler: it decodes the request's object (on a
delete, its old object) and answers `Errored` with the decode error, or asks the
typed validator. -/
def handle (op : Operation) (object old : NodeHealthCheckJSON) : Option String :=
  match op with
  | .create =>
      match object.decode with
      | .error err => some err
      | .ok r => r.validateCreate
  | .update =>
      match object.decode, old.decode with
      | .error err, _ => some err
      | .ok _, .error err => some err
      | .ok r, .ok o => r.validateUpdate o
  | .delete =>
      match old.decode with
      | .error err => some err
      | .ok o => o.validateDelete

/-- Validating admission: the handler runs for the operations the webhook is
registered for. -/
def admission (op : Operation) (object old : NodeHealthCheckJSON) : Option String :=
  if op ∈ webhookVerbs then handle op object old else none

/-- The stored JSON with its history. -/
structure World where
  stored : NodeHealthCheckJSON
  deleted : Bool
  /-- every version the server has stored -/
  versions : List NodeHealthCheckJSON
  /-- where the in-flight entry of each node was last set -/
  origin : String → Option Origin

/-- The world right after a create stored `stored`. -/
def World.created (stored : NodeHealthCheckJSON) : World :=
  ⟨stored, false, [stored], fun _ => none⟩

/-- The controller's status write, `client.MergeFrom(read)` with the optimistic lock,
on the stored JSON; `read` is the object the controller decoded. -/
def patchInFlight (stored : NodeHealthCheckJSON) (read : NodeHealthCheck) (desired : GoMap Time)
    (revision : Nat) : Except ApiError NodeHealthCheckJSON :=
  if read.resourceVersion = stored.resourceVersion then
    .ok { stored with
      status := ⟨applyInFlight stored.status.inFlightRemediations
        (mergeFromInFlight read.status.inFlightRemediations desired)⟩
      resourceVersion := revision }
  else .error .conflict

/-- A delete of the stored object; the schema does not run. -/
def delete (stored : NodeHealthCheckJSON) : Except ApiError Unit :=
  match admission .delete stored stored with
  | some err => .error (.denied err)
  | none => .ok ()

theorem patchInFlight_eq_ok {stored obj : NodeHealthCheckJSON} {read : NodeHealthCheck}
    {desired : GoMap Time} {revision : Nat} :
    patchInFlight stored read desired revision = .ok obj ↔
      read.resourceVersion = stored.resourceVersion ∧
        obj = { stored with
          status := ⟨applyInFlight stored.status.inFlightRemediations
            (mergeFromInFlight read.status.inFlightRemediations desired)⟩
          resourceVersion := revision } := by
  unfold patchInFlight
  split <;> simp_all [eq_comm]

theorem delete_eq_ok {stored : NodeHealthCheckJSON} :
    delete stored = .ok () ↔ ∃ o, stored.decode = .ok o ∧ o.validateDelete = none := by
  unfold delete admission handle
  simp only [webhookVerbs, List.mem_cons, List.mem_singleton, or_true, if_true]
  cases stored.decode <;> split <;> simp_all

section

variable (schema : NodeHealthCheckSpecJSON → Option String)

/-- A create: the schema checks the object, and the status sent is dropped; the
webhook is not registered for creates. The object gets `revision`. -/
def create (obj : NodeHealthCheckJSON) (revision : Nat) : Except ApiError NodeHealthCheckJSON :=
  match schema obj.spec with
  | some err => .error (.invalid err)
  | none =>
      let r := { obj with status := .empty, resourceVersion := revision }
      match admission .create r r with
      | some err => .error (.denied err)
      | none => .ok r

/-- An update of the main resource: the stored status is carried into the new
object, which the schema and then admission check; an admitted object gets
`revision`. -/
def update (stored new : NodeHealthCheckJSON) (revision : Nat) :
    Except ApiError NodeHealthCheckJSON :=
  let r := { new with status := stored.status }
  match schema r.spec with
  | some err => .error (.invalid err)
  | none =>
      match admission .update r stored with
      | some err => .error (.denied err)
      | none => .ok { r with resourceVersion := revision }

/-- The requests the server applies, as `Apiserver.Step` has them, on the stored
JSON: the controller decodes the version it read. -/
inductive Step : World → Action → World → Prop
  | updateSpec {w : World} {obj : NodeHealthCheckJSON} (new : NodeHealthCheckJSON)
      (revision : Nat) (live : w.deleted = false) (bump : w.stored.resourceVersion < revision)
      (ok : update schema w.stored new revision = .ok obj) :
      Step w .updateSpec { w with stored := obj, versions := obj :: w.versions }
  | delete {w : World} (live : w.deleted = false) (ok : delete w.stored = .ok ()) :
      Step w .delete { w with deleted := true }
  | writeStatus {w : World} {obj : NodeHealthCheckJSON} (version : NodeHealthCheckJSON)
      (read : NodeHealthCheck) (desired : GoMap Time) (nodes : List Node) (revision : Nat)
      (live : w.deleted = false) (hread : version ∈ w.versions)
      (decoded : version.decode = .ok read)
      (listed : ∀ n ∈ nodes, listedBy read.spec.selector n.labels = true)
      (changed : ∀ k t, desired.get? k = some t →
        read.status.inFlightRemediations.get? k ≠ some t → ∃ n ∈ nodes, n.name = k)
      (mono : w.stored.resourceVersion ≤ revision)
      (ok : patchInFlight w.stored read desired revision = .ok obj) :
      Step w .writeStatus { w with
        stored := obj
        versions := obj :: w.versions
        origin := recordOrigins w.origin read.spec.selector nodes
          (w.stored.status.inFlightRemediations.createMergePatch obj.status.inFlightRemediations) }

/-- Reachable from a create by applied requests. -/
inductive Reachable : World → Prop
  | init {stored : NodeHealthCheckJSON} (obj : NodeHealthCheckJSON) (revision : Nat)
      (ok : create schema obj revision = .ok stored) : Reachable (World.created stored)
  | step {w w' : World} {a : Action} (h : Reachable w) (hs : Step schema w a w') : Reachable w'

theorem create_eq_ok {obj stored : NodeHealthCheckJSON} {revision : Nat} :
    create schema obj revision = .ok stored ↔
      schema obj.spec = none ∧ stored = { obj with status := .empty, resourceVersion := revision } := by
  unfold create admission
  cases schema obj.spec <;> simp [webhookVerbs, eq_comm]

theorem update_eq_ok {stored new obj : NodeHealthCheckJSON} {revision : Nat} :
    update schema stored new revision = .ok obj ↔
      schema new.spec = none ∧ ∃ r o,
        ({ new with status := stored.status } : NodeHealthCheckJSON).decode = .ok r ∧
        stored.decode = .ok o ∧ r.validateUpdate o = none ∧
        obj = { new with status := stored.status, resourceVersion := revision } := by
  unfold update admission handle
  simp only [webhookVerbs, List.mem_cons, List.mem_singleton, true_or, if_true]
  cases schema new.spec with
  | some err => simp
  | none =>
      cases ({ new with status := stored.status } : NodeHealthCheckJSON).decode with
      | error err => simp
      | ok r =>
          cases stored.decode with
          | error err => simp
          | ok o => cases h : r.validateUpdate o <;> simp [h, eq_comm]

end

/-! ### Simulation by the typed model -/

/-- A typed world `t` stands for the server's world `w`: the stored JSON decodes to the
typed object, each stored version that decodes is a typed version, and deletion and
the origins agree. -/
structure Simulates (t : Apiserver.World) (w : World) : Prop where
  stored : w.stored.decode = .ok t.stored
  versions : ∀ v ∈ w.versions, ∀ r, v.decode = .ok r → r ∈ t.versions
  deleted : w.deleted = t.deleted
  origin : w.origin = t.origin

/-- A created object that does not decode: nothing is in flight and no request acts
on it. -/
structure Frozen (w : World) : Prop where
  undecodable : ∀ r, w.stored.decode ≠ .ok r
  versions : w.versions = [w.stored]
  live : w.deleted = false
  idle : w.stored.status = .empty

/-- Storing an object that decodes, in both worlds. -/
theorem Simulates.store {t : Apiserver.World} {w : World} (hsim : Simulates t w)
    {obj : NodeHealthCheckJSON} {r : NodeHealthCheck} (hobj : obj.decode = .ok r)
    {o o' : String → Option Origin} (ho : o = o') :
    Simulates { t with stored := r, versions := r :: t.versions, origin := o' }
      { w with stored := obj, versions := obj :: w.versions, origin := o } := by
  refine ⟨hobj, fun v hv r' hr' => ?_, hsim.deleted, ho⟩
  rcases List.mem_cons.mp hv with rfl | hv
  · exact Except.ok.inj (hr'.symm.trans hobj) ▸ List.mem_cons_self _ _
  · exact List.mem_cons_of_mem _ (hsim.versions v hv r' hr')

section

variable (schema : NodeHealthCheckSpecJSON → Option String)

theorem frozen_no_step {w w' : World} {a : Action} (hf : Frozen w) : ¬Step schema w a w' := by
  intro hs
  cases hs with
  | updateSpec new revision live bump ok =>
      obtain ⟨-, r, o, -, ho, -⟩ := (update_eq_ok schema).mp ok
      exact hf.undecodable o ho
  | delete live ok =>
      obtain ⟨o, ho, -⟩ := delete_eq_ok.mp ok
      exact hf.undecodable o ho
  | writeStatus version read desired nodes revision live hread decoded =>
      rw [hf.versions, List.mem_singleton] at hread
      exact hf.undecodable read (hread ▸ decoded)

/-- Every request the server applies to a world a typed world stands for is a
typed step, read through decoding. -/
theorem simulates_step {t : Apiserver.World} {w w' : World} {a : Action}
    (hsim : Simulates t w) (hs : Step schema w a w') :
    ∃ t', Apiserver.Step t a t' ∧ Simulates t' w' := by
  obtain ⟨⟨spec, status, rv⟩, deleted, versions, origin⟩ := t
  obtain ⟨-, rfl, rfl⟩ := NodeHealthCheckJSON.decode_eq_ok.mp hsim.stored
  obtain rfl : w.deleted = deleted := hsim.deleted
  obtain rfl : w.origin = origin := hsim.origin
  cases hs with
  | updateSpec new revision live bump ok =>
      obtain ⟨-, r, o, hr, ho, hv, rfl⟩ := (update_eq_ok schema).mp ok
      obtain rfl := Except.ok.inj (ho.symm.trans hsim.stored)
      obtain ⟨-, hrs : w.stored.status = r.status, -⟩ := NodeHealthCheckJSON.decode_eq_ok.mp hr
      have hr' : ({ r with status := w.stored.status } : NodeHealthCheck) = r := by rw [hrs]
      exact ⟨_, .updateSpec r revision live bump (Apiserver.update_eq_ok.mpr ⟨hr' ▸ hv, rfl⟩),
        hsim.store (NodeHealthCheckJSON.decode_with hr _ _) rfl⟩
  | delete live ok =>
      obtain ⟨o, ho, hv⟩ := delete_eq_ok.mp ok
      obtain rfl := Except.ok.inj (ho.symm.trans hsim.stored)
      exact ⟨_, .delete live (Apiserver.delete_eq_ok.mpr hv),
        ⟨hsim.stored, hsim.versions, rfl, rfl⟩⟩
  | writeStatus version read desired nodes revision live hread decoded listed changed mono ok =>
      obtain ⟨hrv, rfl⟩ := patchInFlight_eq_ok.mp ok
      exact ⟨_, step_patchInFlight live (hsim.versions _ hread _ decoded) listed changed mono
          (Apiserver.patchInFlight_eq_ok.mpr ⟨hrv, rfl⟩),
        hsim.store (NodeHealthCheckJSON.decode_with hsim.stored _ _) rfl⟩

/-- What every reachable state of the server keeps: the stored object is a stored
version that the schema accepts, and either a typed reachable world stands for it or
it is frozen. -/
structure Invariant (w : World) : Prop where
  stored_mem : w.stored ∈ w.versions
  schema_ok : schema w.stored.spec = none
  typed : (∃ t, Apiserver.Reachable t ∧ Simulates t w) ∨ Frozen w

theorem invariant_created {obj stored : NodeHealthCheckJSON} {revision : Nat}
    (ok : create schema obj revision = .ok stored) : Invariant schema (World.created stored) := by
  obtain ⟨hschema, rfl⟩ := (create_eq_ok schema).mp ok
  refine ⟨List.mem_singleton_self _, hschema, ?_⟩
  cases hdec : ({ obj with status := .empty, resourceVersion := revision } :
      NodeHealthCheckJSON).decode with
  | error e => exact .inr ⟨fun r h => (nomatch hdec.symm.trans h), rfl, rfl, rfl⟩
  | ok r =>
      obtain ⟨-, hst : NodeHealthCheckStatus.empty = r.status, hrv : revision = r.resourceVersion⟩ :=
        NodeHealthCheckJSON.decode_eq_ok.mp hdec
      have hcreate : Apiserver.create r revision = .ok r := by
        rw [Apiserver.create_eq_ok, hst, hrv]
      refine .inl ⟨_, .init r revision hcreate, hdec, fun v hv r' hr' => ?_, rfl, rfl⟩
      rw [List.mem_singleton.mp hv, hdec] at hr'
      exact Except.ok.inj hr' ▸ List.mem_singleton_self _

/-- An applied request stores a version the schema accepts. -/
theorem stored_step {w w' : World} {a : Action} (hi : Invariant schema w)
    (hs : Step schema w a w') : w'.stored ∈ w'.versions ∧ schema w'.stored.spec = none := by
  cases hs with
  | updateSpec new revision live bump ok =>
      obtain ⟨hschema, -, -, -, -, -, rfl⟩ := (update_eq_ok schema).mp ok
      exact ⟨List.mem_cons_self _ _, hschema⟩
  | delete => exact ⟨hi.stored_mem, hi.schema_ok⟩
  | writeStatus version read desired nodes revision live hread decoded listed changed mono ok =>
      obtain ⟨-, rfl⟩ := patchInFlight_eq_ok.mp ok
      exact ⟨List.mem_cons_self _ _, hi.schema_ok⟩

theorem invariant_step {w w' : World} {a : Action} (hi : Invariant schema w)
    (hs : Step schema w a w') : Invariant schema w' := by
  obtain ⟨hmem, hschema⟩ := stored_step schema hi hs
  rcases hi.typed with ⟨t, ht, hsim⟩ | hf
  · obtain ⟨t', hts, hsim'⟩ := simulates_step schema hsim hs
    exact ⟨hmem, hschema, .inl ⟨t', .step ht hts, hsim'⟩⟩
  · exact absurd hs (frozen_no_step schema hf)

theorem invariant_of_reachable {w : World} (h : Reachable schema w) : Invariant schema w := by
  induction h with
  | init obj revision ok => exact invariant_created schema ok
  | step _ hs ih => exact invariant_step schema ih hs

/-! ### Runs -/

/-- The created object of `Apiserver.movedPatched`'s run, stored as JSON with the
selector `role=worker` from the start. -/
def workerJSON : NodeHealthCheckJSON := ⟨⟨workerSpec.selector, some (.string "51%")⟩, .empty, 1⟩

/-- The controller, reading the created object, sets `worker-1`. -/
def workerPatched : World :=
  let patched := { workerJSON with status := ⟨workerDesired⟩, resourceVersion := 2 }
  ⟨patched, false, [patched, workerJSON],
    recordOrigins (fun _ => none) workerSpec.selector [workerNode] workerPatch⟩

theorem reachable_workerPatched : Reachable (fun _ => none) workerPatched :=
  .step (.init workerJSON 1 rfl)
    (.writeStatus workerJSON ⟨workerSpec, .empty, 1⟩ workerDesired [workerNode] 2 rfl
      (List.mem_singleton_self _) rfl (by decide)
      (fun _ _ h _ => ⟨workerNode, List.mem_singleton_self _, (workerDesired_sets h).1.symm⟩)
      (by decide) rfl)

/-- **The run invariant on the wire.** In every reachable state of the server,
whatever the CRD's schema, each in-flight entry was set under the current selector
for a node it listed, and no delete is applied while an entry is in flight. -/
theorem server_inFlight_anchored_and_delete_idle {w : World} (h : Reachable schema w) :
    (∀ k ∈ w.stored.status.inFlightRemediations.keys, ∃ o, w.origin k = some o ∧
      o.selector = w.stored.spec.selector ∧ listedBy o.selector o.labels = true) ∧
    ∀ w', Step schema w .delete w' → w.stored.status.inFlightRemediations.keys = [] := by
  refine ⟨fun k hk => ?_, fun w' hs => ?_⟩
  · rcases (invariant_of_reachable schema h).typed with ⟨t, ht, hsim⟩ | hf
    · obtain ⟨hspec, hst, -⟩ := NodeHealthCheckJSON.decode_eq_ok.mp hsim.stored
      rw [hst] at hk
      obtain ⟨o, ho, hos, hol⟩ := (Apiserver.invariant_of_reachable ht).anchored k hk
      exact ⟨o, hsim.origin ▸ ho, hos.trans (NodeHealthCheckSpecJSON.decode_selector hspec), hol⟩
    · simp [hf.idle, NodeHealthCheckStatus.empty, GoMap.empty, GoMap.keys] at hk
  · cases hs with
    | delete live ok =>
        obtain ⟨o, ho, hv⟩ := delete_eq_ok.mp ok
        rw [(NodeHealthCheckJSON.decode_eq_ok.mp ho).2.1]
        exact (NodeHealthCheck.validateDelete_eq_none_iff _).mp hv

theorem workerPatched_inFlight_anchored :
    Reachable (fun _ => none) workerPatched ∧
      workerPatched.stored.status.inFlightRemediations.keys = ["worker-1"] ∧
    ((∀ k ∈ workerPatched.stored.status.inFlightRemediations.keys, ∃ o,
      workerPatched.origin k = some o ∧ o.selector = workerPatched.stored.spec.selector ∧
        listedBy o.selector o.labels = true) ∧
    ∀ w', Step (fun _ => none) workerPatched .delete w' →
      workerPatched.stored.status.inFlightRemediations.keys = []) :=
  ⟨reachable_workerPatched, rfl,
    server_inFlight_anchored_and_delete_idle _ reachable_workerPatched⟩

/-! ### What the gates leave possible -/

end

end Apiserver.Server
