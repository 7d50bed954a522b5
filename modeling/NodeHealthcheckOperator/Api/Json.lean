import NodeHealthcheckOperator.Api.Webhook

/-!
The JSON the API server stores for a `NodeHealthCheck`, and the JSON of the status
patch the controller sends.

The server keeps a custom resource as JSON. `minHealthy` is an
`x-kubernetes-int-or-string` field, so it may hold an integer of any size, while a
client sees the object only through `json.Unmarshal` into the typed
`NodeHealthCheck`, whose `IntVal` is an `int32`: an integer out of that range does
not decode.

`metav1.Time` marshals the zero time as `null`, and `inFlightRemediations` is
`omitempty`, so the field is absent while the map is empty. `client.MergeFrom(read)`
sends `jsonpatch.CreateMergePatch` of the read status and the computed one: a field
only the computed status has is sent whole, a field only the read has is sent as
`null`, and two objects give the diff of their keys. The server's
`jsonpatch.MergePatch` deletes what is patched to `null` and merges an object into
the field. So the write acts on the stored map as the key-by-key patch from the read
to the computed map, a zero time being deleted rather than set, except when the
computed map is empty and the read is not: then the whole field goes, entries written
since the read included.
-/

namespace V1alpha1

open Apimachinery

/-! ### The stored object -/

/-- The JSON of `minHealthy` as the server stores it: a string, or an integer of any
size. -/
inductive IntOrStringJSON
  | int (i : Int)
  | string (s : String)
deriving DecidableEq, Repr

/-- `(*IntOrString).UnmarshalJSON`: a string is `FromString`; a number goes into the
`int32` `IntVal`, and one out of its range fails. -/
def IntOrStringJSON.unmarshal : IntOrStringJSON → Except String IntOrString
  | .string s => .ok (.fromString s)
  | .int i =>
      if -2147483648 ≤ i ∧ i < 2147483648 then .ok (.fromInt i)
      else .error ("json: cannot unmarshal number " ++ toString i ++
        " into Go struct field NodeHealthCheckSpec.spec.minHealthy of type int32")

/-- The spec as the server stores it. -/
structure NodeHealthCheckSpecJSON where
  selector : LabelSelector
  minHealthy : Option IntOrStringJSON
deriving DecidableEq

/-- A `NodeHealthCheck` as the server stores it. -/
structure NodeHealthCheckJSON where
  spec : NodeHealthCheckSpecJSON
  status : NodeHealthCheckStatus
  resourceVersion : Nat
deriving DecidableEq

/-- `json.Unmarshal` of the stored spec into `NodeHealthCheckSpec`; only `minHealthy`
can fail. -/
def NodeHealthCheckSpecJSON.decode (s : NodeHealthCheckSpecJSON) :
    Except String NodeHealthCheckSpec :=
  match s.minHealthy with
  | none => .ok ⟨s.selector, none⟩
  | some m => m.unmarshal.map fun m => ⟨s.selector, some m⟩

/-- `json.Unmarshal` of the stored object into `NodeHealthCheck`, as
controller-runtime's decoder and the typed client make it. -/
def NodeHealthCheckJSON.decode (j : NodeHealthCheckJSON) : Except String NodeHealthCheck :=
  j.spec.decode.map fun spec => ⟨spec, j.status, j.resourceVersion⟩

theorem NodeHealthCheckSpecJSON.decode_selector {s : NodeHealthCheckSpecJSON}
    {t : NodeHealthCheckSpec} (h : s.decode = .ok t) : t.selector = s.selector := by
  unfold decode at h
  rcases s with ⟨sel, _ | m⟩
  · cases h; rfl
  · cases hm : m.unmarshal <;> simp [hm, Except.map] at h
    cases h; rfl

theorem NodeHealthCheckJSON.decode_eq_ok {j : NodeHealthCheckJSON} {r : NodeHealthCheck} :
    j.decode = .ok r ↔ j.spec.decode = .ok r.spec ∧ j.status = r.status ∧
      j.resourceVersion = r.resourceVersion := by
  unfold decode
  cases h : j.spec.decode <;> simp [Except.map]
  constructor
  · rintro rfl; exact ⟨rfl, rfl, rfl⟩
  · rintro ⟨rfl, hs, hv⟩; rw [hs, hv]

/-- Decoding reads only the spec: the status and the `resourceVersion` pass through. -/
theorem NodeHealthCheckJSON.decode_with {j : NodeHealthCheckJSON} {r : NodeHealthCheck}
    (h : j.decode = .ok r) (status : NodeHealthCheckStatus) (resourceVersion : Nat) :
    ({ j with status := status, resourceVersion := resourceVersion } : NodeHealthCheckJSON).decode =
      .ok { r with status := status, resourceVersion := resourceVersion } :=
  decode_eq_ok.mpr ⟨(decode_eq_ok.mp h).1, rfl, rfl⟩

/-- `metav1.Time.IsZero`, taking `Time.seconds` as Unix seconds: the zero `time.Time`
is January 1 of year 1, 00:00:00 UTC. -/
def Time.isZero (t : Time) : Bool := decide (t.seconds = -62135596800)

/-- `metav1.Time.MarshalJSON`: `null` for the zero time, else its RFC 3339 text, which
gives the time to the second. -/
def Time.toJSON (t : Time) : Option Time := if t.isZero then none else some t

theorem Time.toJSON_eq_some {t t' : Time} : t.toJSON = some t' ↔ t' = t ∧ t.isZero = false := by
  unfold toJSON
  cases t.isZero <;> simp [eq_comm]

/-- Only one time marshals to `null`, so the JSON of a time determines it. -/
theorem Time.toJSON_inj {a b : Time} : a.toJSON = b.toJSON ↔ a = b := by
  refine ⟨fun h => ?_, congrArg _⟩
  obtain ⟨a⟩ := a
  obtain ⟨b⟩ := b
  unfold toJSON isZero at h
  split_ifs at h <;> simp_all

/-- What a JSON merge patch of the status says about `inFlightRemediations`. -/
inductive FieldPatch
  /-- the patch leaves the field out -/
  | absent
  /-- `null`: the field is deleted -/
  | null
  /-- an object merged into the field, a `null` value deleting its key -/
  | object (entries : GoMap (Option Time))

/-- The JSON of `inFlightRemediations` (`omitempty`): no field for an empty map, else
an object holding each time's JSON. -/
def inFlightJSON (m : GoMap Time) : Option (GoMap (Option Time)) :=
  if m.keys = [] then none else some (m.mapValues Time.toJSON)

/-- `jsonpatch.CreateMergePatch` of the read status and the computed one, on
`inFlightRemediations`, as `client.MergeFrom(read)` sends it: a field only the
computed status has is sent whole, a field only the read has is sent as `null`, and
two objects give their diff, left out when it is empty. -/
def mergeFromInFlight (read desired : GoMap Time) : FieldPatch :=
  match inFlightJSON read, inFlightJSON desired with
  | none, none => .absent
  | none, some b => .object b
  | some _, none => .null
  | some a, some b =>
      let d := (a.createMergePatch b).mapValues Option.join
      if d.keys = [] then .absent else .object d

/-- `jsonpatch.MergePatch` of the stored status with the patch, read back into the
map. Merging into a missing field drops the patch's `null`s, as merging into an empty
map does. -/
def applyInFlight (current : GoMap Time) : FieldPatch → GoMap Time
  | .absent => current
  | .null => GoMap.empty
  | .object p => current.mergePatch p

/-- The key-by-key patch from the read to the computed map, applied to the stored one,
with a zero time deleted. -/
theorem get?_mergePatch_diff (current read desired : GoMap Time) (k : String) :
    (current.mergePatch ((read.createMergePatch desired).mapValues (·.bind Time.toJSON))).get? k =
      if read.get? k = desired.get? k then current.get? k
      else (desired.get? k).bind Time.toJSON := by
  simp only [GoMap.get?_mergePatch, GoMap.get?_mapValues, GoMap.get?_createMergePatch]
  split_ifs <;> rfl

/-- The object diff of the two maps' JSON names exactly the keys where the maps
differ: only the zero time marshals to `null`, so marshalling loses nothing. -/
theorem get?_jsonDiff (read desired : GoMap Time) (k : String) :
    (((read.mapValues Time.toJSON).createMergePatch
      (desired.mapValues Time.toJSON)).mapValues Option.join).get? k =
      if read.get? k = desired.get? k then none
      else some ((desired.get? k).bind Time.toJSON) := by
  simp only [GoMap.get?_mapValues, GoMap.get?_createMergePatch,
    (Option.map_injective fun _ _ => Time.toJSON_inj.mp).eq_iff]
  split_ifs <;> simp [Option.join, Option.bind_map]

/-- Apart from emptying a non-empty map, which deletes the whole field, the client's
write acts on the stored map as the key-by-key patch from the read to the computed
map, with a zero time deleted rather than set. -/
theorem applyInFlight_mergeFromInFlight (current read desired : GoMap Time) :
    applyInFlight current (mergeFromInFlight read desired) =
      if read.keys ≠ [] ∧ desired.keys = [] then GoMap.empty
      else current.mergePatch ((read.createMergePatch desired).mapValues (·.bind Time.toJSON)) := by
  have hnone := @GoMap.keys_eq_nil_iff Time
  unfold mergeFromInFlight inFlightJSON
  by_cases hr : read.keys = [] <;> by_cases hd : desired.keys = [] <;>
    simp only [hr, hd, if_true, if_false, ne_eq, not_true_eq_false, not_false_eq_true,
      and_true, and_false, false_and]
  · -- neither status has the field: no patch
    refine GoMap.ext_iff_get?.mpr fun k => ?_
    simp [get?_mergePatch_diff, (hnone read).mp hr k, (hnone desired).mp hd k, applyInFlight]
  · -- only the computed status has it: the whole map is sent
    refine GoMap.ext_iff_get?.mpr fun k => ?_
    rw [get?_mergePatch_diff, (hnone read).mp hr k]
    cases h : desired.get? k <;> simp [applyInFlight, h]
  · -- only the read has it: `null`
    rfl
  · -- both have it: the object diff, left out when empty
    refine GoMap.ext_iff_get?.mpr fun k => ?_
    rw [get?_mergePatch_diff]
    split_ifs with hempty heq heq
    · rfl
    · have := (GoMap.keys_eq_nil_iff _).mp hempty k
      rw [get?_jsonDiff, if_neg heq] at this
      cases this
    all_goals simp only [applyInFlight, GoMap.get?_mergePatch, get?_jsonDiff, heq, if_true,
      if_false, Option.getD_none, Option.getD_some]

/-- A key the client's write gives a time the stored map did not hold was given that
time by the computed map, and the read did not hold it. -/
theorem applyInFlight_mergeFromInFlight_set {current read desired : GoMap Time} {k : String}
    {t : Time} (h : (applyInFlight current (mergeFromInFlight read desired)).get? k = some t)
    (hne : current.get? k ≠ some t) : desired.get? k = some t ∧ read.get? k ≠ some t := by
  rw [applyInFlight_mergeFromInFlight] at h
  split_ifs at h with hnull
  · simp at h
  · rw [get?_mergePatch_diff] at h
    split_ifs at h with heq
    · exact absurd h hne
    · obtain ⟨t', ht', hj⟩ := Option.bind_eq_some.mp h
      obtain ⟨rfl, -⟩ := Time.toJSON_eq_some.mp hj
      exact ⟨ht', ht' ▸ heq⟩

end V1alpha1
