import NodeHealthcheckOperator.Api.Json
import NodeHealthcheckOperator.Apiserver.Run

/-!
The controller's status write as the client sends it.

The controller writes its status with `client.MergeFrom` of the object it read and
the optimistic lock: the JSON merge patch from the read status to the computed one,
carrying the read's `resourceVersion`. Whatever that patch does to the stored map,
every entry it sets there was set by the computed map and not by the read, so the
write is a status write of the server's runs as soon as every entry the controller
adds or changes is for a node it listed, its patch being the change it makes to the
stored map. The runs of a controller that writes this way are runs of the server.
-/

namespace Apiserver

open Apimachinery V1alpha1

/-- The controller's status write: `Status().Patch` with `client.MergeFrom(read)` and
the optimistic lock, after it set the in-flight map of `read` to `desired`. The server
merges the patch into the stored status when the read's `resourceVersion` is the
stored one. -/
def patchInFlight (stored read : NodeHealthCheck) (desired : GoMap Time) (revision : Nat) :
    Except ApiError NodeHealthCheck :=
  if read.resourceVersion = stored.resourceVersion then
    .ok { stored with
      status := ⟨applyInFlight stored.status.inFlightRemediations
        (mergeFromInFlight read.status.inFlightRemediations desired)⟩
      resourceVersion := revision }
  else .error .conflict

theorem patchInFlight_eq_ok {stored read obj : NodeHealthCheck} {desired : GoMap Time}
    {revision : Nat} :
    patchInFlight stored read desired revision = .ok obj ↔
      read.resourceVersion = stored.resourceVersion ∧
        obj = { stored with
          status := ⟨applyInFlight stored.status.inFlightRemediations
            (mergeFromInFlight read.status.inFlightRemediations desired)⟩
          resourceVersion := revision } := by
  unfold patchInFlight
  split <;> simp_all [eq_comm]

/-- A patch from `original` to `modified` sets only entries `modified` adds or changes. -/
theorem createMergePatch_sets {original modified : GoMap Time} {k : String} {t : Time}
    (h : (original.createMergePatch modified).get? k = some (some t)) :
    modified.get? k = some t ∧ original.get? k ≠ some t := by
  rw [GoMap.get?_createMergePatch] at h
  split_ifs at h with heq
  have hd : modified.get? k = some t := Option.some.inj h
  exact ⟨hd, hd ▸ heq⟩

/-- A controller write through `client.MergeFrom` of a version stored earlier in the
run is a status write of the run, its patch being the change it makes to the stored
map, when every entry it adds or changes is for a node it listed. -/
theorem step_patchInFlight {w : World} {read obj : NodeHealthCheck} {desired : GoMap Time}
    {nodes : List Node} {revision : Nat} (live : w.deleted = false) (hread : read ∈ w.versions)
    (listed : ∀ n ∈ nodes, listedBy read.spec.selector n.labels = true)
    (changed : ∀ k t, desired.get? k = some t → read.status.inFlightRemediations.get? k ≠ some t →
      ∃ n ∈ nodes, n.name = k)
    (mono : w.stored.resourceVersion ≤ revision)
    (ok : patchInFlight w.stored read desired revision = .ok obj) :
    Step w .writeStatus { w with
      stored := obj
      versions := obj :: w.versions
      origin := recordOrigins w.origin read.spec.selector nodes
        (w.stored.status.inFlightRemediations.createMergePatch obj.status.inFlightRemediations) } := by
  obtain ⟨hrv, rfl⟩ := patchInFlight_eq_ok.mp ok
  refine .writeStatus read _ nodes revision live hread listed (fun k t h => ?_) mono
    (patchStatus_eq_ok.mpr ⟨hrv, by rw [GoMap.mergePatch_createMergePatch]⟩)
  obtain ⟨hset, hne⟩ := createMergePatch_sets h
  obtain ⟨hd, hr⟩ := applyInFlight_mergeFromInFlight_set hset hne
  exact changed k t hd hr

/-- Reachable when the controller writes its status only as `client.MergeFrom` of a
version stored earlier in the run, adding or changing entries only for nodes it
listed by that version's selector. -/
inductive ClientReachable : World → Prop
  | init {stored : NodeHealthCheck} (obj : NodeHealthCheck) (revision : Nat)
      (ok : create obj revision = .ok stored) : ClientReachable (World.created stored)
  | user {w w' : World} {a : Action} (h : ClientReachable w) (hs : Step w a w')
      (ha : a ≠ .writeStatus) : ClientReachable w'
  | writeStatus {w : World} {read obj : NodeHealthCheck} {desired : GoMap Time}
      {nodes : List Node} {revision : Nat} (h : ClientReachable w)
      (live : w.deleted = false) (hread : read ∈ w.versions)
      (listed : ∀ n ∈ nodes, listedBy read.spec.selector n.labels = true)
      (changed : ∀ k t, desired.get? k = some t →
        read.status.inFlightRemediations.get? k ≠ some t → ∃ n ∈ nodes, n.name = k)
      (mono : w.stored.resourceVersion ≤ revision)
      (ok : patchInFlight w.stored read desired revision = .ok obj) :
      ClientReachable { w with
        stored := obj
        versions := obj :: w.versions
        origin := recordOrigins w.origin read.spec.selector nodes
          (w.stored.status.inFlightRemediations.createMergePatch obj.status.inFlightRemediations) }

/-- **Refinement.** A run whose status writes are the controller's `client.MergeFrom`
patches is a run of the server, so the run invariant holds over it. -/
theorem clientReachable_reachable {w : World} (h : ClientReachable w) : Reachable w := by
  induction h with
  | init obj revision ok => exact .init obj revision ok
  | user _ hs _ ih => exact .step ih hs
  | writeStatus _ live hread listed changed mono ok ih =>
      exact .step ih (step_patchInFlight live hread listed changed mono ok)

/-- The map holding `worker-1`, as the controller computes it after listing it. -/
def workerDesired : GoMap Time := ⟨[("worker-1", ⟨0⟩)], by decide⟩

theorem workerDesired_sets {k : String} {t : Time} (h : workerDesired.get? k = some t) :
    k = "worker-1" ∧ t = ⟨0⟩ := by
  by_cases hk : k = "worker-1"
  · subst hk
    exact ⟨rfl, (Option.some.inj h).symm⟩
  · simp [workerDesired, GoMap.get?, List.lookup_cons, beq_eq_false_iff_ne.mpr hk] at h

theorem movedPatched_clientReachable : ClientReachable movedPatched ∧ Reachable movedPatched :=
  have h : ClientReachable movedPatched :=
    @ClientReachable.writeStatus ⟨movedObject, false, [movedObject, firstObject], fun _ => none⟩
      movedObject _ workerDesired [workerNode] 3
      (.user (.init firstObject 1 rfl)
        (.updateSpec { firstObject with spec := workerSpec } 2 rfl (by decide) rfl) (by decide))
      rfl (List.mem_cons_self _ _) (by decide)
      (fun _ _ h _ => ⟨workerNode, List.mem_singleton_self _, (workerDesired_sets h).1.symm⟩)
      (by decide) rfl
  ⟨h, clientReachable_reachable h⟩

/-! ### Listing by a selector -/

/-- A selector some node was listed by converts. -/
theorem valid_of_listedBy {sel : LabelSelector} {labels : GoMap String}
    (h : listedBy sel labels = true) : sel.Valid := by
  unfold listedBy at h
  split at h
  · exact (labelSelectorAsSelector_isOk_iff _).mp ⟨_, ‹_›⟩
  · cases h

/-- A list by a selector returns exactly the nodes whose labels the selector selects,
and no node at all when the selector does not convert. -/
theorem listedBy_iff (sel : LabelSelector) (labels : GoMap String) :
    listedBy sel labels = true ↔ sel.Valid ∧ sel.Selects labels := by
  refine ⟨fun h => ⟨valid_of_listedBy h, selects_of_listedBy h⟩, fun ⟨hv, hsel⟩ => ?_⟩
  obtain ⟨s, hs⟩ := (labelSelectorAsSelector_isOk_iff sel).mpr hv
  simp only [listedBy, hs]
  exact (labelSelectorAsSelector_matches hs labels).mpr hsel

end Apiserver
