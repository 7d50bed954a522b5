import NodeHealthcheckOperator.Apiserver.Admission

/-!
Runs of the API server on one `NodeHealthCheck`, interleaving three kinds of
write: a user's update of the spec, a user's delete, and a controller's status
patch computed from a snapshot read at any earlier point of the run, which sets
in-flight entries only for nodes the snapshot's selector listed.

The state carries two history variables next to the stored object: every version
the server has stored (a snapshot is one of them), and where each in-flight entry
was set (the snapshot's selector and the node's labels). Over every reachable
state, each in-flight entry was set under the current selector, for a node that
selector listed; and no delete is applied while remediations are in flight.
-/

namespace Apiserver

open Apimachinery V1alpha1

/-- A node as the controller lists it. -/
structure Node where
  name : String
  labels : GoMap String

/-- Whether a list of nodes by the selector returns a node with these labels:
a selector that does not convert lists nothing. -/
def listedBy (sel : LabelSelector) (labels : GoMap String) : Bool :=
  match labelSelectorAsSelector sel with
  | .ok s => selectorMatches s labels
  | .error _ => false

/-- Where an in-flight entry was set: the selector of the snapshot the patch was
computed from, and the labels of the listed node. -/
structure Origin where
  selector : LabelSelector
  labels : GoMap String

/-- The stored object with its history. -/
structure World where
  stored : NodeHealthCheck
  deleted : Bool
  /-- every version the server has stored -/
  versions : List NodeHealthCheck
  /-- where the in-flight entry of each node was last set -/
  origin : String → Option Origin

/-- The world right after a create stored `stored`. -/
def World.created (stored : NodeHealthCheck) : World :=
  ⟨stored, false, [stored], fun _ => none⟩

/-- The origins after a status patch from `sel` over `nodes`: a set entry takes
its listed node's labels, a deleted one loses its origin. -/
def recordOrigins (origin : String → Option Origin) (sel : LabelSelector)
    (nodes : List Node) (patch : GoMap (Option Time)) (k : String) : Option Origin :=
  match patch.get? k with
  | some (some _) => (nodes.find? (·.name = k)).map fun n => ⟨sel, n.labels⟩
  | some none => none
  | none => origin k

inductive Action
  | updateSpec | delete | writeStatus
deriving DecidableEq, Repr

/-- The writes the server applies. A user sends any object, the server picks a
newer revision for an update and a revision at least the stored one for a status
patch; the controller patches from a stored version, setting only entries of
nodes the version's selector listed. -/
inductive Step : World → Action → World → Prop
  | updateSpec {w : World} {obj : NodeHealthCheck} (new : NodeHealthCheck) (revision : Nat)
      (live : w.deleted = false) (bump : w.stored.resourceVersion < revision)
      (ok : update w.stored new revision = .ok obj) :
      Step w .updateSpec { w with stored := obj, versions := obj :: w.versions }
  | delete {w : World} (live : w.deleted = false) (ok : delete w.stored = .ok ()) :
      Step w .delete { w with deleted := true }
  | writeStatus {w : World} {obj : NodeHealthCheck} (snapshot : NodeHealthCheck)
      (patch : GoMap (Option Time)) (nodes : List Node) (revision : Nat)
      (live : w.deleted = false) (read : snapshot ∈ w.versions)
      (listed : ∀ n ∈ nodes, listedBy snapshot.spec.selector n.labels = true)
      (set : ∀ k t, patch.get? k = some (some t) → ∃ n ∈ nodes, n.name = k)
      (mono : w.stored.resourceVersion ≤ revision)
      (ok : patchStatus w.stored snapshot.resourceVersion patch revision = .ok obj) :
      Step w .writeStatus { w with
        stored := obj
        versions := obj :: w.versions
        origin := recordOrigins w.origin snapshot.spec.selector nodes patch }

/-- Reachable from a create by applied writes. -/
inductive Reachable : World → Prop
  | init {stored : NodeHealthCheck} (obj : NodeHealthCheck) (revision : Nat)
      (ok : create obj revision = .ok stored) : Reachable (World.created stored)
  | step {w w' : World} {a : Action} (h : Reachable w) (hs : Step w a w') : Reachable w'

/-- No stored version is newer than the stored object, and one as new carries
its spec: a patch that passes the `resourceVersion` check was computed from the
current spec. -/
def VersionsFresh (w : World) : Prop :=
  ∀ v ∈ w.versions, v.resourceVersion ≤ w.stored.resourceVersion ∧
    (v.resourceVersion = w.stored.resourceVersion → v.spec = w.stored.spec)

/-- Every in-flight entry was set under the current selector, for a node it listed. -/
def Anchored (w : World) : Prop :=
  ∀ k ∈ w.stored.status.inFlightRemediations.keys, ∃ o, w.origin k = some o ∧
    o.selector = w.stored.spec.selector ∧ listedBy o.selector o.labels = true

structure Invariant (w : World) : Prop where
  fresh : VersionsFresh w
  anchored : Anchored w
  idle : w.deleted = true → w.stored.status.inFlightRemediations.keys = []

theorem invariant_created {obj stored : NodeHealthCheck} {revision : Nat}
    (ok : create obj revision = .ok stored) : Invariant (World.created stored) := by
  rw [create_eq_ok] at ok
  cases ok
  refine ⟨?_, ?_, ?_⟩
  · simp [VersionsFresh, World.created]
  · simp [Anchored, World.created, NodeHealthCheckStatus.empty, GoMap.empty, GoMap.keys]
  · simp [World.created]

/-- Storing `obj` keeps the versions fresh when it is no older than the stored
object, and carries the stored spec if it is as new. -/
theorem versionsFresh_store {w : World} {obj : NodeHealthCheck} (hf : VersionsFresh w)
    (hle : w.stored.resourceVersion ≤ obj.resourceVersion)
    (hsame : obj.resourceVersion = w.stored.resourceVersion → obj.spec = w.stored.spec) :
    VersionsFresh { w with stored := obj, versions := obj :: w.versions } := by
  intro v hv
  rcases List.mem_cons.mp hv with rfl | hv
  · exact ⟨le_rfl, fun _ => rfl⟩
  · obtain ⟨hvle, hveq⟩ := hf v hv
    refine ⟨hvle.trans hle, fun h => ?_⟩
    have hv : v.resourceVersion = w.stored.resourceVersion := by simp only at h; omega
    exact (hveq hv).trans (hsame (h ▸ hv)).symm

theorem invariant_updateSpec {w : World} {obj new : NodeHealthCheck} {revision : Nat}
    (hi : Invariant w) (bump : w.stored.resourceVersion < revision)
    (ok : update w.stored new revision = .ok obj) :
    Invariant { w with stored := obj, versions := obj :: w.versions } := by
  obtain ⟨hv, rfl⟩ := update_eq_ok.mp ok
  obtain ⟨-, hsel⟩ := (NodeHealthCheck.validateUpdate_eq_none_iff _ _).mp hv
  refine ⟨versionsFresh_store hi.fresh bump.le fun h => absurd h (ne_of_gt bump), ?_, hi.idle⟩
  · intro k hk
    obtain ⟨o, ho, hos, hol⟩ := hi.anchored k hk
    have hrem : NodeHealthCheck.isRemediating { new with status := w.stored.status } = true := by
      simpa [NodeHealthCheck.isRemediating] using List.length_pos_of_mem hk
    exact ⟨o, ho, hos.trans (hsel hrem).symm, hol⟩

theorem invariant_delete {w : World} (hi : Invariant w) (ok : delete w.stored = .ok ()) :
    Invariant { w with deleted := true } :=
  ⟨hi.fresh, hi.anchored, fun _ =>
    (NodeHealthCheck.validateDelete_eq_none_iff _).mp (delete_eq_ok.mp ok)⟩

/-- An entry set by a fresh patch was set under the current selector. -/
theorem anchored_writeStatus {w : World} {obj snapshot : NodeHealthCheck}
    {patch : GoMap (Option Time)} {nodes : List Node} {revision : Nat}
    (hi : Invariant w) (read : snapshot ∈ w.versions)
    (listed : ∀ n ∈ nodes, listedBy snapshot.spec.selector n.labels = true)
    (set : ∀ k t, patch.get? k = some (some t) → ∃ n ∈ nodes, n.name = k)
    (ok : patchStatus w.stored snapshot.resourceVersion patch revision = .ok obj) :
    Anchored { w with
      stored := obj
      versions := obj :: w.versions
      origin := recordOrigins w.origin snapshot.spec.selector nodes patch } := by
  obtain ⟨hrv, rfl⟩ := patchStatus_eq_ok.mp ok
  have hspec : snapshot.spec = w.stored.spec := (hi.fresh snapshot read).2 hrv
  intro k hk
  simp only [GoMap.mem_keys_iff, GoMap.get?_mergePatch] at hk
  simp only [recordOrigins]
  cases hp : patch.get? k with
  | none =>
      simp only [hp, Option.getD_none] at hk ⊢
      exact hi.anchored k ((GoMap.mem_keys_iff _ _).mpr hk)
  | some o =>
      cases o with
      | none => simp [hp] at hk
      | some t =>
          obtain ⟨n, hn, hnk⟩ := set k t hp
          obtain ⟨m, hm⟩ : ∃ m, nodes.find? (·.name = k) = some m :=
            Option.isSome_iff_exists.mp (List.find?_isSome.mpr ⟨n, hn, by simpa using hnk⟩)
          refine ⟨⟨snapshot.spec.selector, m.labels⟩, by simp [hm], by simp [hspec], ?_⟩
          exact listed m (List.mem_of_find?_eq_some hm)

theorem invariant_writeStatus {w : World} {obj snapshot : NodeHealthCheck}
    {patch : GoMap (Option Time)} {nodes : List Node} {revision : Nat}
    (hi : Invariant w) (live : w.deleted = false) (read : snapshot ∈ w.versions)
    (listed : ∀ n ∈ nodes, listedBy snapshot.spec.selector n.labels = true)
    (set : ∀ k t, patch.get? k = some (some t) → ∃ n ∈ nodes, n.name = k)
    (mono : w.stored.resourceVersion ≤ revision)
    (ok : patchStatus w.stored snapshot.resourceVersion patch revision = .ok obj) :
    Invariant { w with
      stored := obj
      versions := obj :: w.versions
      origin := recordOrigins w.origin snapshot.spec.selector nodes patch } := by
  obtain ⟨-, hobj⟩ := patchStatus_eq_ok.mp ok
  refine ⟨?_, anchored_writeStatus hi read listed set ok, by simp [live]⟩
  subst hobj
  exact versionsFresh_store hi.fresh mono fun _ => rfl

theorem invariant_step {w w' : World} {a : Action} (hi : Invariant w) (hs : Step w a w') :
    Invariant w' := by
  cases hs with
  | updateSpec new revision live bump ok => exact invariant_updateSpec hi bump ok
  | delete live ok => exact invariant_delete hi ok
  | writeStatus snapshot patch nodes revision live read listed set mono ok =>
      exact invariant_writeStatus hi live read listed set mono ok

theorem invariant_of_reachable {w : World} (h : Reachable w) : Invariant w := by
  induction h with
  | init obj revision ok => exact invariant_created ok
  | step _ hs ih => exact invariant_step ih hs

/-- The stored object is one of the stored versions: a controller can always read it. -/
theorem stored_mem_versions {w : World} (h : Reachable w) : w.stored ∈ w.versions := by
  induction h with
  | init => exact List.mem_singleton_self _
  | step _ hs ih =>
      cases hs with
      | updateSpec | writeStatus => exact List.mem_cons_self _ _
      | delete => exact ih

/-- In every reachable state each in-flight entry was set under the current
selector, for a node that selector listed, and no delete is applied while an
entry is in flight. -/
theorem reachable_inFlight_anchored_and_delete_idle {w : World} (h : Reachable w) :
    (∀ k ∈ w.stored.status.inFlightRemediations.keys, ∃ o, w.origin k = some o ∧
      o.selector = w.stored.spec.selector ∧ listedBy o.selector o.labels = true) ∧
    ∀ w', Step w .delete w' → w.stored.status.inFlightRemediations.keys = [] := by
  refine ⟨(invariant_of_reachable h).anchored, fun w' hs => ?_⟩
  cases hs with
  | delete live ok =>
      exact (NodeHealthCheck.validateDelete_eq_none_iff _).mp (delete_eq_ok.mp ok)

/-- A node listed by a selector carries labels the selector selects. -/
theorem selects_of_listedBy {sel : LabelSelector} {labels : GoMap String}
    (h : listedBy sel labels = true) : sel.Selects labels := by
  unfold listedBy at h
  split at h
  · exact (labelSelectorAsSelector_matches ‹_› labels).mp h
  · cases h

/-- In every reachable state the labels each in-flight node was listed with are
selected, in the API's meaning, by the current selector. -/
theorem reachable_inFlight_selected {w : World} (h : Reachable w) :
    ∀ k ∈ w.stored.status.inFlightRemediations.keys, ∃ o, w.origin k = some o ∧
      w.stored.spec.selector.Selects o.labels := by
  intro k hk
  obtain ⟨o, ho, hsel, hl⟩ := (invariant_of_reachable h).anchored k hk
  exact ⟨o, ho, hsel ▸ selects_of_listedBy hl⟩

/-- A deleted object had no remediation in flight. -/
theorem reachable_deleted_not_remediating {w : World} (h : Reachable w)
    (hd : w.deleted = true) : w.stored.status.inFlightRemediations.keys = [] :=
  (invariant_of_reachable h).idle hd

/-! ### Runs -/

/-- An object with the empty selector and `minHealthy: 51%`, created at revision 1. -/
def firstObject : NodeHealthCheck :=
  ⟨⟨⟨none, none⟩, some (.fromString "51%")⟩, .empty, 1⟩

/-- The spec of `firstObject` moved to the nodes labelled `role=worker`. -/
def workerSpec : NodeHealthCheckSpec :=
  ⟨⟨some ⟨[("role", "worker")], by decide⟩, none⟩, some (.fromString "51%")⟩

/-- `firstObject` after its update to `workerSpec` at revision 2. -/
def movedObject : NodeHealthCheck := { firstObject with spec := workerSpec, resourceVersion := 2 }

def workerNode : Node := ⟨"worker-1", ⟨[("role", "worker")], by decide⟩⟩

/-- A status patch setting the in-flight entry of `worker-1`. -/
def workerPatch : GoMap (Option Time) := ⟨[("worker-1", some ⟨0⟩)], by decide⟩

/-- A status patch deleting the in-flight entry of `worker-1`. -/
def clearPatch : GoMap (Option Time) := ⟨[("worker-1", none)], by decide⟩

theorem workerPatch_sets (k : String) (t : Time) (h : workerPatch.get? k = some (some t)) :
    ∃ n ∈ [workerNode], n.name = k := by
  by_cases hk : k = "worker-1"
  · exact ⟨workerNode, List.mem_singleton_self _, hk.symm⟩
  · simp [workerPatch, GoMap.get?, List.lookup_cons, beq_eq_false_iff_ne.mpr hk] at h

theorem clearPatch_sets (k : String) (t : Time) (h : clearPatch.get? k = some (some t)) :
    ∃ n ∈ ([] : List Node), n.name = k := by
  by_cases hk : k = "worker-1"
  · simp [clearPatch, GoMap.get?, hk] at h
  · simp [clearPatch, GoMap.get?, List.lookup_cons, beq_eq_false_iff_ne.mpr hk] at h

/-- The user moves the selector to `role=worker` while nothing is in flight; then the
controller, reading the moved version, sets `worker-1` under the new selector. -/
def movedPatched : World :=
  let patched := { movedObject with
    status := ⟨movedObject.status.inFlightRemediations.mergePatch workerPatch⟩
    resourceVersion := 3 }
  ⟨patched, false, [patched, movedObject, firstObject],
    recordOrigins (fun _ => none) workerSpec.selector [workerNode] workerPatch⟩

theorem reachable_movedPatched : Reachable movedPatched :=
  .step (.step (.init firstObject 1 rfl)
      (.updateSpec { firstObject with spec := workerSpec } 2 rfl (by decide) rfl))
    (.writeStatus movedObject workerPatch [workerNode] 3 rfl (List.mem_cons_self _ _)
      (by decide) workerPatch_sets (by decide) rfl)

theorem movedPatched_inFlight_anchored :
    Reachable movedPatched ∧ movedPatched.stored.spec.selector = workerSpec.selector ∧
      movedPatched.stored.status.inFlightRemediations.keys = ["worker-1"] ∧
    ((∀ k ∈ movedPatched.stored.status.inFlightRemediations.keys, ∃ o,
      movedPatched.origin k = some o ∧ o.selector = movedPatched.stored.spec.selector ∧
        listedBy o.selector o.labels = true) ∧
    ∀ w', Step movedPatched .delete w' →
      movedPatched.stored.status.inFlightRemediations.keys = []) :=
  ⟨reachable_movedPatched, rfl, rfl,
    reachable_inFlight_anchored_and_delete_idle reachable_movedPatched⟩

theorem movedPatched_inFlight_selected :
    Reachable movedPatched ∧ movedPatched.stored.spec.selector = workerSpec.selector ∧
      movedPatched.stored.status.inFlightRemediations.keys = ["worker-1"] ∧
    ∀ k ∈ movedPatched.stored.status.inFlightRemediations.keys, ∃ o,
      movedPatched.origin k = some o ∧ movedPatched.stored.spec.selector.Selects o.labels :=
  ⟨reachable_movedPatched, rfl, rfl, reachable_inFlight_selected reachable_movedPatched⟩

/-- From `movedPatched` the controller clears `worker-1` with a patch read from the
stored object, and the user's delete is then admitted. -/
def movedDeleted : World :=
  let cleared := { movedPatched.stored with status := .empty, resourceVersion := 4 }
  ⟨cleared, true, cleared :: movedPatched.versions,
    recordOrigins movedPatched.origin workerSpec.selector [] clearPatch⟩

theorem reachable_movedDeleted : Reachable movedDeleted :=
  .step (.step reachable_movedPatched
      (.writeStatus movedPatched.stored clearPatch [] 4 rfl (List.mem_cons_self _ _)
        (by simp) clearPatch_sets (by decide) rfl))
    (.delete rfl rfl)

theorem movedDeleted_not_remediating :
    Reachable movedDeleted ∧ movedPatched.stored ∈ movedDeleted.versions ∧
      movedPatched.stored.isRemediating = true ∧ movedDeleted.deleted = true ∧
      movedDeleted.stored.status.inFlightRemediations.keys = [] :=
  ⟨reachable_movedDeleted, List.mem_cons_of_mem _ (List.mem_cons_self _ _), rfl, rfl,
    reachable_deleted_not_remediating reachable_movedDeleted rfl⟩

end Apiserver
