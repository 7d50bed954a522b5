import NodeHealthcheckOperator.Apiserver.Run

/-!
The design the webhook and the optimistic status patch implement, with every write
atomic: the spec is replaced by a valid one that keeps the selector while anything
is in flight, a delete happens only when nothing is in flight, and the controller
sets entries only for nodes the current selector lists.

Runs of the API server refine it. Read off the stored object, every applied write
is a step of the design, status patches computed from reads made at any earlier
point of the run included; so every reachable state of the server is reachable
in the design. `Apiserver.Server` shows the converse on the stored JSON: the server
applies each step the design allows that the CRD's schema accepts.
-/

namespace Apiserver

open Apimachinery V1alpha1

/-- One `NodeHealthCheck` as the design sees it. -/
structure Design where
  spec : NodeHealthCheckSpec
  inFlight : GoMap Time
  deleted : Bool

namespace Design

inductive Step : Design → Design → Prop
  | updateSpec {d : Design} (spec : NodeHealthCheckSpec) (live : d.deleted = false)
      (valid : spec.Valid) (keep : d.inFlight.keys ≠ [] → spec.selector = d.spec.selector) :
      Step d { d with spec := spec }
  | delete {d : Design} (live : d.deleted = false) (idle : d.inFlight.keys = []) :
      Step d { d with deleted := true }
  | writeStatus {d : Design} (patch : GoMap (Option Time)) (nodes : List Node)
      (live : d.deleted = false)
      (listed : ∀ n ∈ nodes, listedBy d.spec.selector n.labels = true)
      (set : ∀ k t, patch.get? k = some (some t) → ∃ n ∈ nodes, n.name = k) :
      Step d { d with inFlight := d.inFlight.mergePatch patch }

inductive Reachable : Design → Prop
  | init (spec : NodeHealthCheckSpec) : Reachable ⟨spec, GoMap.empty, false⟩
  | step {d d' : Design} (h : Reachable d) (hs : Step d d') : Reachable d'

end Design

/-- The design state a world stands for. -/
def World.design (w : World) : Design :=
  ⟨w.stored.spec, w.stored.status.inFlightRemediations, w.deleted⟩

/-- Every applied write from a state satisfying the run invariant is a step of
the design. -/
theorem design_step {w w' : World} {a : Action} (hi : Invariant w) (hs : Step w a w') :
    Design.Step w.design w'.design := by
  cases hs with
  | updateSpec new revision live bump ok =>
      obtain ⟨hv, rfl⟩ := update_eq_ok.mp ok
      obtain ⟨hval, hsel⟩ := (NodeHealthCheck.validateUpdate_eq_none_iff _ _).mp hv
      refine .updateSpec new.spec live ((NodeHealthCheck.validate_eq_none_iff _).mp hval)
        fun hk => hsel ?_
      simpa [NodeHealthCheck.isRemediating, List.length_pos] using hk
  | delete live ok =>
      exact .delete live ((NodeHealthCheck.validateDelete_eq_none_iff _).mp (delete_eq_ok.mp ok))
  | writeStatus snapshot patch nodes revision live read listed set mono ok =>
      obtain ⟨hrv, rfl⟩ := patchStatus_eq_ok.mp ok
      have hspec : snapshot.spec = w.stored.spec := (hi.fresh snapshot read).2 hrv
      have hlisted : ∀ n ∈ nodes, listedBy w.design.spec.selector n.labels = true := by
        rw [show w.design.spec = snapshot.spec from hspec.symm]
        exact listed
      exact .writeStatus patch nodes live hlisted set

/-- **Refinement.** Every reachable state of the server stands for a reachable
state of the design. -/
theorem reachable_design {w : World} (h : Reachable w) : Design.Reachable w.design := by
  induction h with
  | init obj revision ok =>
      rw [create_eq_ok] at ok
      cases ok
      exact .init obj.spec
  | step hw hs ih => exact .step ih (design_step (invariant_of_reachable hw) hs)

theorem movedPatched_design_reachable :
    Reachable movedPatched ∧ Design.Reachable movedPatched.design :=
  ⟨reachable_movedPatched, reachable_design reachable_movedPatched⟩

end Apiserver
