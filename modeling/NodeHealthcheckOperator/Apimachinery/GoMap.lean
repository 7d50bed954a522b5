import Mathlib.Data.List.Sort
import Mathlib.Data.String.Basic

/-!
Go maps keyed by strings, as the API objects hold them (`map[string]string` for
labels, `map[string]metav1.Time` for in-flight remediations). A map is kept as its
entries sorted by key, so that two maps are equal exactly when they hold the same
pairs: Lean's equality is then the comparison `reflect.DeepEqual` makes on maps.
Whether a map is `nil` is not part of this type; a field where `reflect.DeepEqual`
can see it is an `Option`.

A JSON merge patch of a map, as the API server applies it to a status subresource,
is `mergePatch`: a `null` value deletes its key, any other value sets it.
-/

/-- A `map[string]V`: its entries in strictly increasing key order. -/
structure GoMap (V : Type) where
  entries : List (String × V)
  sorted : (entries.map Prod.fst).Sorted (· < ·)
deriving DecidableEq

namespace GoMap

variable {V : Type}

def keys (m : GoMap V) : List String := m.entries.map Prod.fst

/-- The value stored under `k`, `m[k]` with the comma-ok form. -/
def get? (m : GoMap V) (k : String) : Option V := m.entries.lookup k

def empty : GoMap V := ⟨[], List.sorted_nil⟩

/-- Set `k` to `v` in an entry list sorted by key, replacing the value under `k`. -/
def insertEntry (k : String) (v : V) : List (String × V) → List (String × V)
  | [] => [(k, v)]
  | (k', v') :: rest =>
      if k < k' then (k, v) :: (k', v') :: rest
      else if k = k' then (k, v) :: rest
      else (k', v') :: insertEntry k v rest

theorem mem_keys_insertEntry {k x : String} {v : V} {l : List (String × V)}
    (h : x ∈ (insertEntry k v l).map Prod.fst) : x = k ∨ x ∈ l.map Prod.fst := by
  induction l with
  | nil => simpa [insertEntry] using h
  | cons p rest ih =>
      simp only [insertEntry] at h
      split_ifs at h with hlt heq
      · simpa using h
      · simp only [List.map_cons, List.mem_cons] at h ⊢
        exact h.imp_right .inr
      · simp only [List.map_cons, List.mem_cons] at h ⊢
        rcases h with h | h
        · exact .inr (.inl h)
        · exact (ih h).imp_right .inr

theorem sorted_insertEntry (k : String) (v : V) (l : List (String × V))
    (hl : (l.map Prod.fst).Sorted (· < ·)) :
    ((insertEntry k v l).map Prod.fst).Sorted (· < ·) := by
  induction l with
  | nil => simp [insertEntry]
  | cons p rest ih =>
      obtain ⟨hp, hrest⟩ := List.sorted_cons.mp hl
      simp only [insertEntry]
      split_ifs with hlt heq
      · refine List.sorted_cons.mpr ⟨?_, hl⟩
        intro b hb
        rcases List.mem_cons.mp hb with rfl | hb
        · exact hlt
        · exact lt_trans hlt (hp b hb)
      · subst heq
        exact List.sorted_cons.mpr ⟨hp, hrest⟩
      · have hgt : p.1 < k := lt_of_le_of_ne (not_lt.mp hlt) (Ne.symm heq)
        refine List.sorted_cons.mpr ⟨?_, ih hrest⟩
        intro b hb
        rcases mem_keys_insertEntry hb with rfl | hb
        · exact hgt
        · exact hp b hb

private theorem lookup_cons_ite {α : Type} (k x : String) (a : α) (l : List (String × α)) :
    ((k, a) :: l).lookup x = if x = k then some a else l.lookup x := by
  simp only [List.lookup_cons]
  split <;> simp_all

theorem lookup_insertEntry (k x : String) (v : V) (l : List (String × V)) :
    (insertEntry k v l).lookup x = if x = k then some v else l.lookup x := by
  induction l with
  | nil => simp [insertEntry, lookup_cons_ite]
  | cons p rest ih =>
      obtain ⟨k', v'⟩ := p
      by_cases hlt : k < k'
      · simp only [insertEntry, hlt, if_true, lookup_cons_ite]
      · by_cases heq : k = k'
        · subst heq
          by_cases hx : x = k <;> simp [insertEntry, lookup_cons_ite, hx]
        · by_cases hx : x = k
          · subst hx
            simp [insertEntry, hlt, heq, lookup_cons_ite, ih, Ne.symm heq]
          · simp [insertEntry, hlt, heq, lookup_cons_ite, ih, hx]

/-- `m[k] = v`. -/
def insert (m : GoMap V) (k : String) (v : V) : GoMap V :=
  ⟨insertEntry k v m.entries, sorted_insertEntry k v m.entries m.sorted⟩

/-- `delete(m, k)`. -/
def erase (m : GoMap V) (k : String) : GoMap V :=
  ⟨m.entries.filter (·.1 ≠ k),
    m.sorted.sublist ((List.filter_sublist m.entries).map Prod.fst)⟩

@[simp] theorem get?_empty (k : String) : (empty : GoMap V).get? k = none := rfl

@[simp] theorem get?_insert (m : GoMap V) (k x : String) (v : V) :
    (m.insert k v).get? x = if x = k then some v else m.get? x :=
  lookup_insertEntry k x v m.entries

@[simp] theorem get?_erase (m : GoMap V) (k x : String) :
    (m.erase k).get? x = if x = k then none else m.get? x := by
  simp only [erase, get?]
  induction m.entries with
  | nil => simp
  | cons p rest ih =>
      obtain ⟨k', v'⟩ := p
      simp only [ne_eq, decide_not] at ih ⊢
      by_cases hx : x = k
      · subst hx
        by_cases hk : k' = x
        · simp [List.filter_cons, ih, hk]
        · simp [List.filter_cons, lookup_cons_ite, ih, hk, Ne.symm hk]
      · by_cases hk : k' = k <;> simp [List.filter_cons, lookup_cons_ite, ih, hx, hk]

theorem mem_keys_iff (m : GoMap V) (k : String) : k ∈ m.keys ↔ (m.get? k).isSome := by
  simp [keys, get?, List.lookup_isSome_iff]

theorem keys_eq_nil_iff (m : GoMap V) : m.keys = [] ↔ ∀ k, m.get? k = none := by
  refine ⟨fun h k => ?_, fun h => List.eq_nil_iff_forall_not_mem.mpr fun k hk => ?_⟩
  · simpa [h] using (mem_keys_iff m k).not
  · simpa [h k] using (mem_keys_iff m k).mp hk

/-- The map with `f` applied to each value. -/
def mapValues {W : Type} (f : V → W) (m : GoMap V) : GoMap W :=
  ⟨m.entries.map fun e => (e.1, f e.2), by simpa [List.map_map, Function.comp_def] using m.sorted⟩

@[simp] theorem get?_mapValues {W : Type} (f : V → W) (m : GoMap V) (k : String) :
    (m.mapValues f).get? k = (m.get? k).map f := by
  simp only [mapValues, get?]
  induction m.entries with
  | nil => rfl
  | cons p rest ih =>
      obtain ⟨k', v⟩ := p
      simp only [List.map_cons, lookup_cons_ite, ih]
      split_ifs <;> rfl

@[simp] theorem keys_mapValues {W : Type} (f : V → W) (m : GoMap V) :
    (m.mapValues f).keys = m.keys := by
  simp [mapValues, keys, Function.comp_def]

private theorem lookup_eq_none_of_lt {x : String} {l : List (String × V)}
    (hl : ∀ k ∈ l.map Prod.fst, x < k) : l.lookup x = none := by
  induction l with
  | nil => rfl
  | cons p rest ih =>
      simp only [List.map_cons, List.mem_cons, forall_eq_or_imp] at hl
      rw [lookup_cons_ite, if_neg (ne_of_lt hl.1), ih hl.2]

private theorem entries_eq_of_lookup {l l' : List (String × V)}
    (hl : (l.map Prod.fst).Sorted (· < ·)) (hl' : (l'.map Prod.fst).Sorted (· < ·))
    (h : ∀ x, l.lookup x = l'.lookup x) : l = l' := by
  induction l generalizing l' with
  | nil =>
      cases l' with
      | nil => rfl
      | cons q rest' =>
          obtain ⟨qk, qv⟩ := q
          simpa [lookup_cons_ite] using h qk
  | cons p rest ih =>
      obtain ⟨pk, pv⟩ := p
      cases l' with
      | nil => simpa [lookup_cons_ite] using h pk
      | cons q rest' =>
          obtain ⟨qk, qv⟩ := q
          obtain ⟨hp, hrest⟩ := List.sorted_cons.mp hl
          obtain ⟨hq, hrest'⟩ := List.sorted_cons.mp hl'
          have hkey : pk = qk := by
            rcases lt_trichotomy pk qk with hlt | heq | hgt
            · have hx := h pk
              rw [lookup_cons_ite, if_pos rfl, lookup_cons_ite, if_neg (ne_of_lt hlt),
                lookup_eq_none_of_lt fun k hk => lt_trans hlt (hq k hk)] at hx
              cases hx
            · exact heq
            · have hx := h qk
              rw [lookup_cons_ite, if_neg (ne_of_lt hgt), lookup_cons_ite, if_pos rfl,
                lookup_eq_none_of_lt fun k hk => lt_trans hgt (hp k hk)] at hx
              cases hx
          subst hkey
          have hval : pv = qv := by simpa [lookup_cons_ite] using h pk
          have hrest_eq : rest = rest' := ih hrest hrest' fun x => by
            by_cases hx : x = pk
            · subst hx
              rw [lookup_eq_none_of_lt hp, lookup_eq_none_of_lt hq]
            · simpa [lookup_cons_ite, hx] using h x
          rw [hval, hrest_eq]

/-- Two maps are equal exactly when they hold the same pairs: equality of `GoMap`s
is the comparison `reflect.DeepEqual` makes on maps. -/
theorem ext_iff_get? {m m' : GoMap V} : m = m' ↔ ∀ k, m.get? k = m'.get? k := by
  refine ⟨fun h _ => h ▸ rfl, fun h => ?_⟩
  obtain ⟨l, hl⟩ := m
  obtain ⟨l', hl'⟩ := m'
  obtain rfl := entries_eq_of_lookup hl hl' h
  rfl

/-- Apply the entries of a merge patch one after another. -/
def mergeEntries (m : GoMap V) : List (String × Option V) → GoMap V
  | [] => m
  | (k, none) :: rest => mergeEntries (m.erase k) rest
  | (k, some v) :: rest => mergeEntries (m.insert k v) rest

/-- Apply a JSON merge patch: `null` deletes its key, a value sets it, a key the
patch does not name keeps its value. -/
def mergePatch (m : GoMap V) (patch : GoMap (Option V)) : GoMap V :=
  mergeEntries m patch.entries

theorem get?_mergeEntries (m : GoMap V) (l : List (String × Option V)) (x : String)
    (hl : (l.map Prod.fst).Nodup) :
    (mergeEntries m l).get? x = (l.lookup x).getD (m.get? x) := by
  induction l generalizing m with
  | nil => rfl
  | cons p rest ih =>
      obtain ⟨k, o⟩ := p
      obtain ⟨hk, hrest⟩ := List.nodup_cons.mp hl
      have hfresh : rest.lookup k = none := by
        simp only [List.lookup_eq_none_iff, bne_iff_ne]
        rintro ⟨a, b⟩ hab rfl
        exact hk (List.mem_map.mpr ⟨_, hab, rfl⟩)
      cases o <;> by_cases hx : x = k <;>
        simp_all [mergeEntries, lookup_cons_ite]

/-- The merge-patched map reads the patch's value where the patch names the key,
and the old value elsewhere. -/
@[simp] theorem get?_mergePatch (m : GoMap V) (patch : GoMap (Option V)) (x : String) :
    (m.mergePatch patch).get? x = (patch.get? x).getD (m.get? x) :=
  get?_mergeEntries m patch.entries x patch.sorted.nodup

/-- The object diff of `jsonpatch.CreateMergePatch` on a flat JSON object: a key of
`modified` that is new or holds another value carries its value, then a key of
`original` that `modified` lacks carries `null`. -/
def createMergePatch [DecidableEq V] (original modified : GoMap V) : GoMap (Option V) :=
  let into := modified.entries.foldl (fun into e =>
    if original.get? e.1 = some e.2 then into else into.insert e.1 (some e.2)) empty
  original.keys.foldl (fun into k =>
    if modified.get? k = none then into.insert k none else into) into

private theorem get?_foldl_changed [DecidableEq V] (original : GoMap V)
    (l : List (String × V)) (hl : (l.map Prod.fst).Nodup) (into : GoMap (Option V)) (x : String) :
    (l.foldl (fun into e =>
      if original.get? e.1 = some e.2 then into else into.insert e.1 (some e.2)) into).get? x =
      match l.lookup x with
      | none => into.get? x
      | some v => if original.get? x = some v then into.get? x else some (some v) := by
  induction l generalizing into with
  | nil => rfl
  | cons p rest ih =>
      obtain ⟨k, v⟩ := p
      obtain ⟨hk, hrest⟩ := List.nodup_cons.mp hl
      rw [List.foldl_cons, ih hrest, lookup_cons_ite]
      by_cases hx : x = k
      · subst hx
        have hfresh : rest.lookup x = none := by
          simp only [List.lookup_eq_none_iff, bne_iff_ne]
          rintro ⟨a, b⟩ hab rfl
          exact hk (List.mem_map.mpr ⟨_, hab, rfl⟩)
        simp only [hfresh, if_true]
        split_ifs <;> simp_all
      · split_ifs <;> simp [hx]

private theorem get?_foldl_removed [DecidableEq V] (modified : GoMap V) (l : List String)
    (into : GoMap (Option V)) (x : String) :
    (l.foldl (fun into k => if modified.get? k = none then into.insert k none else into)
      into).get? x = if x ∈ l ∧ modified.get? x = none then some none else into.get? x := by
  induction l generalizing into with
  | nil => simp
  | cons k rest ih =>
      rw [List.foldl_cons, ih]
      by_cases hx : x = k <;> split_ifs <;> simp_all

/-- The patch leaves out a key both maps agree on, and otherwise carries the
modified map's value, `null` for a removed key. -/
@[simp] theorem get?_createMergePatch [DecidableEq V] (original modified : GoMap V) (x : String) :
    (original.createMergePatch modified).get? x =
      if original.get? x = modified.get? x then none else some (modified.get? x) := by
  rw [createMergePatch, get?_foldl_removed, get?_foldl_changed original _ modified.sorted.nodup]
  simp only [mem_keys_iff, get?_empty]
  unfold get?
  cases hm : modified.entries.lookup x <;> cases ho : original.entries.lookup x <;> simp [hm, ho]

/-- Applied to the map it was computed from, the diff gives the modified map. -/
theorem mergePatch_createMergePatch [DecidableEq V] (original modified : GoMap V) :
    original.mergePatch (original.createMergePatch modified) = modified :=
  ext_iff_get?.mpr fun x => by by_cases h : original.get? x = modified.get? x <;> simp [h]

end GoMap
