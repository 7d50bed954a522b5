import NodeHealthcheckOperator.Apimachinery.GoMap

/-!
Label selectors as the webhook and the controller use them: `metav1.LabelSelector`,
its conversion `metav1.LabelSelectorAsSelector` into a `labels.Selector`, the
label key and value syntax that conversion enforces, and `Selector.Matches`.
The error texts are those of apimachinery's `field.Error` and `utilerrors`
aggregates, which `validateSelector` embeds in its own message.

`labelSelectorAsSelector` refines `LabelSelector.Selects`, the meaning the API
documents for a selector: whenever the conversion succeeds, the converted selector
matches a label set exactly when every `matchLabels` pair is present and every
expression holds. It succeeds exactly on the `LabelSelector.Valid` selectors.
-/

namespace Apimachinery

/-- `utilerrors.NewAggregate` of the non-`nil` errors, as `Error()` prints it:
a repeated message is printed once, and more than one message is bracketed. -/
def newAggregate (errs : List (Option String)) : Option String :=
  match (errs.filterMap id).eraseDups with
  | [] => none
  | [msg] => some msg
  | msgs => some ("[" ++ ", ".intercalate msgs ++ "]")

private theorem eraseDups_loop_ne_nil {as bs : List String} (h : bs ≠ []) :
    List.eraseDups.loop as bs ≠ [] := by
  induction as generalizing bs with
  | nil => simpa [List.eraseDups.loop] using h
  | cons a as ih =>
      simp only [List.eraseDups.loop]
      split
      · exact ih h
      · exact ih (List.cons_ne_nil a bs)

private theorem eraseDups_eq_nil_iff (l : List String) : l.eraseDups = [] ↔ l = [] := by
  cases l with
  | nil => rfl
  | cons a as =>
      simp only [reduceCtorEq, iff_false]
      exact @eraseDups_loop_ne_nil as [a] (List.cons_ne_nil a [])

/-- An aggregate is `nil` exactly when every error in it is. -/
theorem newAggregate_eq_none_iff (errs : List (Option String)) :
    newAggregate errs = none ↔ ∀ e ∈ errs, e = none := by
  have h : newAggregate errs = none ↔ (errs.filterMap id).eraseDups = [] := by
    unfold newAggregate
    split <;> simp_all
  rw [h, eraseDups_eq_nil_iff, List.filterMap_eq_nil_iff]
  rfl

/-! ### `util/validation`: label keys and values -/

def qualifiedNameFmt : String := "([A-Za-z0-9][-A-Za-z0-9_.]*)?[A-Za-z0-9]"
def qualifiedNameErrMsg : String :=
  "must consist of alphanumeric characters, '-', '_' or '.', and must start and end with an alphanumeric character"
def qualifiedNameMaxLength : Nat := 63
def labelValueFmt : String := "(" ++ qualifiedNameFmt ++ ")?"
def labelValueErrMsg : String :=
  "a valid label must be an empty string or consist of alphanumeric characters, '-', '_' or '.', and must start and end with an alphanumeric character"
def labelValueMaxLength : Nat := 63
def dns1123LabelFmt : String := "[a-z0-9]([-a-z0-9]*[a-z0-9])?"
def dns1123SubdomainFmt : String := dns1123LabelFmt ++ "(\\." ++ dns1123LabelFmt ++ ")*"
def dns1123SubdomainErrorMsg : String :=
  "a lowercase RFC 1123 subdomain must consist of lower case alphanumeric characters, '-' or '.', and must start and end with an alphanumeric character"
def dns1123SubdomainMaxLength : Nat := 253

def emptyError : String := "must be non-empty"

def maxLenError (length : Nat) : String :=
  "must be no more than " ++ toString length ++ " characters"

def regexError (msg fmt : String) : List String → String
  | [] => msg ++ " (regex used for validation is '" ++ fmt ++ "')"
  | examples =>
      msg ++ " (e.g. " ++ " or ".intercalate (examples.map fun e => "'" ++ e ++ "', ") ++
        "regex used for validation is '" ++ fmt ++ "')"

/-- `len` of a Go string counts its UTF-8 bytes. -/
def byteLength (s : List Char) : Nat := (String.mk s).utf8ByteSize

def isQualifiedNameExtChar (c : Char) : Bool :=
  c.isAlphanum || c = '-' || c = '_' || c = '.'

/-- `qualifiedNameRegexp`, `^([A-Za-z0-9][-A-Za-z0-9_.]*)?[A-Za-z0-9]$`. -/
def matchesQualifiedName : List Char → Bool
  | [] => false
  | c :: rest =>
      c.isAlphanum && rest.all isQualifiedNameExtChar && rest.getLast?.all Char.isAlphanum

def isDNS1123Char (c : Char) : Bool := c.isLower || c.isDigit

/-- `^[a-z0-9]([-a-z0-9]*[a-z0-9])?$`. -/
def matchesDNS1123Label : List Char → Bool
  | [] => false
  | c :: rest =>
      isDNS1123Char c && rest.all (fun c => isDNS1123Char c || c = '-') &&
        rest.getLast?.all isDNS1123Char

/-- `dns1123SubdomainRegexp`: DNS labels joined by dots. -/
def matchesDNS1123Subdomain (s : List Char) : Bool :=
  (s.splitOn '.').all matchesDNS1123Label

/-- `validation.IsDNS1123Subdomain`. -/
def isDNS1123Subdomain (value : List Char) : List String :=
  (if byteLength value > dns1123SubdomainMaxLength
    then [maxLenError dns1123SubdomainMaxLength] else []) ++
  (if matchesDNS1123Subdomain value then []
    else [regexError dns1123SubdomainErrorMsg dns1123SubdomainFmt ["example.com"]])

/-- The checks `validation.IsQualifiedName` makes on the name part. -/
def qualifiedNamePartErrors (name : List Char) : List String :=
  (if name = [] then ["name part " ++ emptyError]
    else if byteLength name > qualifiedNameMaxLength
    then ["name part " ++ maxLenError qualifiedNameMaxLength] else []) ++
  (if matchesQualifiedName name then []
    else ["name part " ++
      regexError qualifiedNameErrMsg qualifiedNameFmt ["MyName", "my.name", "123-abc"]])

/-- `validation.IsQualifiedName`: an optional DNS subdomain and `/`, then a name. -/
def isQualifiedName (value : String) : List String :=
  match value.toList.splitOn '/' with
  | [name] => qualifiedNamePartErrors name
  | [domain, name] =>
      (if domain = [] then ["prefix part " ++ emptyError]
        else (isDNS1123Subdomain domain).map ("prefix part " ++ ·)) ++
      qualifiedNamePartErrors name
  | _ =>
      ["a qualified name " ++
        regexError qualifiedNameErrMsg qualifiedNameFmt ["MyName", "my.name", "123-abc"] ++
        " with an optional DNS subdomain prefix and '/' (e.g. 'example.com/MyName')"]

/-- `validation.IsValidLabelValue`. -/
def isValidLabelValue (value : String) : List String :=
  (if byteLength value.toList > labelValueMaxLength
    then [maxLenError labelValueMaxLength] else []) ++
  (if value.toList = [] || matchesQualifiedName value.toList then []
    else [regexError labelValueErrMsg labelValueFmt ["MyValue", "my_value", "12345"]])

/-! ### `labels`: requirements and selectors -/

/-- The `selection.Operator`s a converted `metav1.LabelSelector` can hold. -/
inductive Operator
  | equals | isIn | notIn | exists | doesNotExist
deriving DecidableEq, Repr

/-- `labels.Requirement`. -/
structure Requirement where
  key : String
  operator : Operator
  strValues : List String
deriving DecidableEq, Repr

/-- `%q` of a string of printable characters. -/
def quote (s : String) : String := "\"" ++ s ++ "\""

/-- `%#v` of a `[]string`; the slice `LabelSelectorAsSelector` passes is `nil`
when it is empty. -/
def goStringSlice : List String → String
  | [] => "[]string(nil)"
  | vals => "[]string\x7b" ++ ", ".intercalate (vals.map quote) ++ "\x7d"

/-- A `field.Invalid` error as `Error()` prints it. -/
def fieldInvalid (path badValue detail : String) : String :=
  path ++ ": Invalid value: " ++ badValue ++ ": " ++ detail

def validateLabelKey (k : String) : Option String :=
  match isQualifiedName k with
  | [] => none
  | errs => some (fieldInvalid "key" (quote k) ("; ".intercalate errs))

def validateLabelValue (k v : String) (i : Nat) : Option String :=
  match isValidLabelValue v with
  | [] => none
  | errs =>
      some (fieldInvalid ("values[" ++ toString i ++ "][" ++ k ++ "]") (quote v)
        ("; ".intercalate errs))

/-- The check `labels.NewRequirement` makes on the number of values. -/
def valuesError (op : Operator) (vals : List String) : Option String :=
  match op with
  | .isIn | .notIn =>
      if vals = [] then
        some (fieldInvalid "values" (goStringSlice vals)
          "for 'in', 'notin' operators, values set can't be empty")
      else none
  | .equals =>
      if vals.length = 1 then none
      else some (fieldInvalid "values" (goStringSlice vals)
        "exact-match compatibility requires one single value")
  | .exists | .doesNotExist =>
      if vals = [] then none
      else some (fieldInvalid "values" (goStringSlice vals)
        "values set must be empty for exists and does not exist")

/-- `labels.NewRequirement`: every error found, aggregated. -/
def newRequirement (key : String) (op : Operator) (vals : List String) :
    Except String Requirement :=
  match newAggregate (validateLabelKey key :: valuesError op vals ::
      vals.enum.map fun (i, v) => validateLabelValue key v i) with
  | none => .ok ⟨key, op, vals⟩
  | some err => .error err

/-- `(*Requirement).Matches` for the operators a converted selector holds. -/
def Requirement.matches (r : Requirement) (ls : GoMap String) : Bool :=
  match r.operator, ls.get? r.key with
  | .equals, some v | .isIn, some v => r.strValues.contains v
  | .equals, none | .isIn, none => false
  | .notIn, some v => !r.strValues.contains v
  | .notIn, none => true
  | .exists, l => l.isSome
  | .doesNotExist, l => l.isNone

/-- `internalSelector.Matches`: every requirement matches. Requirements are kept
in the order they were built; `Add` sorts them by key, which `Matches` does not see. -/
def selectorMatches (sel : List Requirement) (ls : GoMap String) : Bool :=
  sel.all (·.matches ls)

/-! ### `metav1.LabelSelector` -/

/-- `metav1.LabelSelectorRequirement`; `values` is `nil` apart from empty. -/
structure LabelSelectorRequirement where
  key : String
  operator : String
  values : Option (List String)
deriving DecidableEq, Repr

/-- `metav1.LabelSelector`. Both fields keep `nil` apart from empty, as
`reflect.DeepEqual` does. -/
structure LabelSelector where
  matchLabels : Option (GoMap String)
  matchExpressions : Option (List LabelSelectorRequirement)
deriving DecidableEq

/-- The pairs of `matchLabels`, by key; ranging over a `nil` map visits nothing. -/
def LabelSelector.labelPairs (ps : LabelSelector) : List (String × String) :=
  (ps.matchLabels.map GoMap.entries).getD []

def LabelSelector.expressions (ps : LabelSelector) : List LabelSelectorRequirement :=
  ps.matchExpressions.getD []

/-- The operator switch of `LabelSelectorAsSelector`. -/
def selectionOperator : String → Except String Operator
  | "In" => .ok .isIn
  | "NotIn" => .ok .notIn
  | "Exists" => .ok .exists
  | "DoesNotExist" => .ok .doesNotExist
  | op => .error (quote op ++ " is not a valid label selector operator")

/-- The loop of `LabelSelectorAsSelector` over `matchLabels`. Go visits a map in
no fixed order; the model visits it by key, which is one of those orders, and the
order decides only which error is reported first. -/
def requirementsOfLabels : List (String × String) → Except String (List Requirement)
  | [] => .ok []
  | (k, v) :: rest => do
      let r ← newRequirement k .equals [v]
      let rs ← requirementsOfLabels rest
      pure (r :: rs)

/-- The loop of `LabelSelectorAsSelector` over `matchExpressions`. -/
def requirementsOfExpressions :
    List LabelSelectorRequirement → Except String (List Requirement)
  | [] => .ok []
  | expr :: rest => do
      let op ← selectionOperator expr.operator
      let r ← newRequirement expr.key op (expr.values.getD [])
      let rs ← requirementsOfExpressions rest
      pure (r :: rs)

/-- `metav1.LabelSelectorAsSelector` of a non-`nil` selector; an empty selector is
`labels.Everything()`, the selector without requirements. -/
def labelSelectorAsSelector (ps : LabelSelector) : Except String (List Requirement) :=
  if ps.labelPairs.length + ps.expressions.length = 0 then .ok []
  else do
    let fromLabels ← requirementsOfLabels ps.labelPairs
    let fromExpressions ← requirementsOfExpressions ps.expressions
    pure (fromLabels ++ fromExpressions)

/-- `LabelSelectorAsSelector` when Go ranges over `matchLabels` in `order`. Go visits
a map in no fixed order: each order of its pairs is a possible run, and
`labelSelectorAsSelector` is the run that visits them by key. -/
def labelSelectorAsSelectorIn (ps : LabelSelector) (order : List (String × String)) :
    Except String (List Requirement) :=
  if ps.labelPairs.length + ps.expressions.length = 0 then .ok []
  else do
    let fromLabels ← requirementsOfLabels order
    let fromExpressions ← requirementsOfExpressions ps.expressions
    pure (fromLabels ++ fromExpressions)

/-! ### What a selector means, and the conversion's refinement of it -/

/-- What an expression asks of a label set, as the API documents it. An unknown
operator asks the impossible: the conversion rejects it. -/
def LabelSelectorRequirement.Holds (e : LabelSelectorRequirement) (ls : GoMap String) :
    Prop :=
  match e.operator with
  | "In" => ∃ v, ls.get? e.key = some v ∧ v ∈ e.values.getD []
  | "NotIn" => ∀ v, ls.get? e.key = some v → v ∉ e.values.getD []
  | "Exists" => ls.get? e.key ≠ none
  | "DoesNotExist" => ls.get? e.key = none
  | _ => False

/-- The label sets a selector selects: every `matchLabels` pair is present and
every expression holds. -/
def LabelSelector.Selects (ps : LabelSelector) (ls : GoMap String) : Prop :=
  (∀ p ∈ ps.labelPairs, ls.get? p.1 = some p.2) ∧ ∀ e ∈ ps.expressions, e.Holds ls

theorem bind_eq_ok {ε α β : Type} {x : Except ε α} {f : α → Except ε β} {b : β} :
    x >>= f = .ok b ↔ ∃ a, x = .ok a ∧ f a = .ok b := by
  cases x <;> simp [bind, Except.bind]

theorem pure_eq_ok {ε α : Type} {a b : α} : (pure a : Except ε α) = .ok b ↔ a = b := by
  simp [pure, Except.pure]

theorem newRequirement_eq_ok {key : String} {op : Operator} {vals : List String}
    {r : Requirement} (h : newRequirement key op vals = .ok r) : r = ⟨key, op, vals⟩ := by
  unfold newRequirement at h
  split at h
  · exact (Except.ok.inj h).symm
  · cases h

@[simp] theorem selectorMatches_nil (ls : GoMap String) : selectorMatches [] ls = true := rfl

@[simp] theorem selectorMatches_cons (r : Requirement) (rs : List Requirement)
    (ls : GoMap String) :
    selectorMatches (r :: rs) ls = (r.matches ls && selectorMatches rs ls) := rfl

@[simp] theorem selectorMatches_append (rs rs' : List Requirement) (ls : GoMap String) :
    selectorMatches (rs ++ rs') ls = (selectorMatches rs ls && selectorMatches rs' ls) := by
  simp [selectorMatches]

/-- Each `matchLabels` pair becomes the requirement that the label is present
with that value. -/
theorem requirementsOfLabels_matches {l : List (String × String)} {rs : List Requirement}
    (h : requirementsOfLabels l = .ok rs) (ls : GoMap String) :
    selectorMatches rs ls = true ↔ ∀ p ∈ l, ls.get? p.1 = some p.2 := by
  induction l generalizing rs with
  | nil =>
      cases h
      simp
  | cons p rest ih =>
      obtain ⟨k, v⟩ := p
      obtain ⟨r, hr, rs', hrs', rfl⟩ : ∃ r, newRequirement k .equals [v] = .ok r ∧
          ∃ rs', requirementsOfLabels rest = .ok rs' ∧ r :: rs' = rs := by
        simpa only [requirementsOfLabels, bind_eq_ok, pure_eq_ok] using h
      rw [newRequirement_eq_ok hr]
      simp only [selectorMatches_cons, Bool.and_eq_true, ih hrs', List.forall_mem_cons]
      cases hk : ls.get? k <;> simp [Requirement.matches, hk, eq_comm]

/-- The requirement built from an expression matches exactly when the expression
holds. -/
theorem matches_of_selectionOperator {e : LabelSelectorRequirement} {op : Operator}
    (h : selectionOperator e.operator = .ok op) (ls : GoMap String) :
    (Requirement.mk e.key op (e.values.getD [])).matches ls = true ↔ e.Holds ls := by
  obtain ⟨key, operator, values⟩ := e
  unfold selectionOperator at h
  split at h <;> cases h <;> cases hk : ls.get? key <;>
    simp_all [Requirement.matches, LabelSelectorRequirement.Holds]

theorem requirementsOfExpressions_matches {l : List LabelSelectorRequirement}
    {rs : List Requirement} (h : requirementsOfExpressions l = .ok rs) (ls : GoMap String) :
    selectorMatches rs ls = true ↔ ∀ e ∈ l, e.Holds ls := by
  induction l generalizing rs with
  | nil =>
      cases h
      simp
  | cons e rest ih =>
      obtain ⟨op, hop, r, hr, rs', hrs', rfl⟩ : ∃ op, selectionOperator e.operator = .ok op ∧
          ∃ r, newRequirement e.key op (e.values.getD []) = .ok r ∧
          ∃ rs', requirementsOfExpressions rest = .ok rs' ∧ r :: rs' = rs := by
        simpa only [requirementsOfExpressions, bind_eq_ok, pure_eq_ok] using h
      rw [newRequirement_eq_ok hr]
      simp only [selectorMatches_cons, Bool.and_eq_true, ih hrs', List.forall_mem_cons,
        matches_of_selectionOperator hop]

/-- **Refinement.** Whenever the conversion succeeds, in whatever order it ranged
over `matchLabels`, the selector it builds matches exactly the label sets the
`metav1.LabelSelector` selects. -/
theorem labelSelectorAsSelectorIn_matches {ps : LabelSelector} {order : List (String × String)}
    {sel : List Requirement} (horder : order.Perm ps.labelPairs)
    (h : labelSelectorAsSelectorIn ps order = .ok sel) (ls : GoMap String) :
    selectorMatches sel ls = true ↔ ps.Selects ls := by
  unfold labelSelectorAsSelectorIn at h
  split_ifs at h with hempty
  · cases h
    have hl : ps.labelPairs = [] := List.eq_nil_of_length_eq_zero (by omega)
    have he : ps.expressions = [] := List.eq_nil_of_length_eq_zero (by omega)
    simp [LabelSelector.Selects, hl, he]
  · obtain ⟨a, ha, b, hb, rfl⟩ : ∃ a, requirementsOfLabels order = .ok a ∧
        ∃ b, requirementsOfExpressions ps.expressions = .ok b ∧ a ++ b = sel := by
      simpa only [bind_eq_ok, pure_eq_ok] using h
    simp only [selectorMatches_append, Bool.and_eq_true, requirementsOfLabels_matches ha,
      requirementsOfExpressions_matches hb, LabelSelector.Selects, horder.mem_iff]

theorem labelSelectorAsSelector_matches {ps : LabelSelector} {sel : List Requirement}
    (h : labelSelectorAsSelector ps = .ok sel) (ls : GoMap String) :
    selectorMatches sel ls = true ↔ ps.Selects ls :=
  labelSelectorAsSelectorIn_matches (List.Perm.refl _) h ls

/-! ### Which selectors convert -/

/-- The syntax `LabelSelectorAsSelector` accepts in an expression: a qualified key,
valid values, and one of the four operators, with values exactly for `In` and
`NotIn`. -/
def LabelSelectorRequirement.Valid (e : LabelSelectorRequirement) : Prop :=
  isQualifiedName e.key = [] ∧ (∀ v ∈ e.values.getD [], isValidLabelValue v = []) ∧
    match e.operator with
    | "In" | "NotIn" => e.values.getD [] ≠ []
    | "Exists" | "DoesNotExist" => e.values.getD [] = []
    | _ => False

/-- The selectors `LabelSelectorAsSelector` accepts. -/
def LabelSelector.Valid (ps : LabelSelector) : Prop :=
  (∀ p ∈ ps.labelPairs, isQualifiedName p.1 = [] ∧ isValidLabelValue p.2 = []) ∧
    ∀ e ∈ ps.expressions, e.Valid

theorem validateLabelKey_eq_none_iff (k : String) :
    validateLabelKey k = none ↔ isQualifiedName k = [] := by
  unfold validateLabelKey
  split <;> simp_all

theorem validateLabelValue_eq_none_iff (k v : String) (i : Nat) :
    validateLabelValue k v i = none ↔ isValidLabelValue v = [] := by
  unfold validateLabelValue
  split <;> simp_all

theorem newRequirement_isOk_iff (key : String) (op : Operator) (vals : List String) :
    (∃ r, newRequirement key op vals = .ok r) ↔
      isQualifiedName key = [] ∧ valuesError op vals = none ∧
        ∀ v ∈ vals, isValidLabelValue v = [] := by
  have h : (∃ r, newRequirement key op vals = .ok r) ↔
      newAggregate (validateLabelKey key :: valuesError op vals ::
        vals.enum.map fun (i, v) => validateLabelValue key v i) = none := by
    unfold newRequirement
    split <;> simp_all
  rw [h, newAggregate_eq_none_iff]
  simp only [List.mem_cons, forall_eq_or_imp, validateLabelKey_eq_none_iff, List.mem_map,
    forall_exists_index, and_imp, Prod.forall, validateLabelValue_eq_none_iff]
  refine and_congr_right fun _ => and_congr_right fun _ => ⟨fun hv v hv' => ?_, ?_⟩
  · obtain ⟨⟨i, w⟩, hw, rfl⟩ := List.mem_map.mp ((List.enum_map_snd vals).symm ▸ hv')
    exact (validateLabelValue_eq_none_iff key w i).mp (hv _ _ _ hw rfl)
  · rintro hv _ i v hiv rfl
    exact (validateLabelValue_eq_none_iff key v i).mpr (hv v (List.snd_mem_of_mem_enum hiv))

/-- Two independent steps that both have to succeed, as each loop iteration of
the conversion is. -/
theorem bind_bind_pure_isOk {α β γ : Type} {x : Except String α} {y : Except String β}
    {f : α → β → γ} :
    (∃ c, (do let a ← x; let b ← y; pure (f a b)) = Except.ok c) ↔
      (∃ a, x = .ok a) ∧ ∃ b, y = .ok b := by
  cases x <;> cases y <;> simp [bind, Except.bind, pure, Except.pure]

theorem requirementsOfLabels_isOk_iff (l : List (String × String)) :
    (∃ rs, requirementsOfLabels l = .ok rs) ↔
      ∀ p ∈ l, isQualifiedName p.1 = [] ∧ isValidLabelValue p.2 = [] := by
  induction l with
  | nil => simp [requirementsOfLabels]
  | cons p rest ih =>
      simp only [requirementsOfLabels, bind_bind_pure_isOk, ih, List.forall_mem_cons,
        newRequirement_isOk_iff, valuesError, List.length_singleton, if_true,
        List.mem_singleton, forall_eq, true_and]

theorem expression_isOk_iff (e : LabelSelectorRequirement) :
    (∃ r, (do let op ← selectionOperator e.operator
              newRequirement e.key op (e.values.getD [])) = Except.ok r) ↔ e.Valid := by
  obtain ⟨key, operator, values⟩ := e
  simp only [bind_eq_ok, LabelSelectorRequirement.Valid]
  unfold selectionOperator
  split <;> simp_all [newRequirement_isOk_iff, valuesError] <;> tauto

theorem requirementsOfExpressions_isOk_iff (l : List LabelSelectorRequirement) :
    (∃ rs, requirementsOfExpressions l = .ok rs) ↔ ∀ e ∈ l, e.Valid := by
  induction l with
  | nil => simp [requirementsOfExpressions]
  | cons e rest ih =>
      rw [List.forall_mem_cons, ← expression_isOk_iff, ← ih]
      constructor
      · rintro ⟨_, h⟩
        obtain ⟨op, hop, r, hr, rs, hrs, -⟩ : ∃ op, selectionOperator e.operator = .ok op ∧
            ∃ r, newRequirement e.key op (e.values.getD []) = .ok r ∧
            ∃ rs, requirementsOfExpressions rest = .ok rs ∧ r :: rs = _ := by
          simpa only [requirementsOfExpressions, bind_eq_ok, pure_eq_ok] using h
        exact ⟨⟨r, bind_eq_ok.mpr ⟨op, hop, hr⟩⟩, rs, hrs⟩
      · rintro ⟨⟨r, h⟩, rs, hrs⟩
        obtain ⟨op, hop, hr⟩ := bind_eq_ok.mp h
        exact ⟨r :: rs, by
          simp only [requirementsOfExpressions, bind_eq_ok, pure_eq_ok]
          exact ⟨op, hop, r, hr, rs, hrs, rfl⟩⟩

/-- In whatever order the conversion ranges over `matchLabels`, it accepts exactly
the valid selectors. -/
theorem labelSelectorAsSelectorIn_isOk_iff {ps : LabelSelector} {order : List (String × String)}
    (horder : order.Perm ps.labelPairs) :
    (∃ sel, labelSelectorAsSelectorIn ps order = .ok sel) ↔ ps.Valid := by
  unfold labelSelectorAsSelectorIn LabelSelector.Valid
  split_ifs with hempty
  · have hl : ps.labelPairs = [] := List.eq_nil_of_length_eq_zero (by omega)
    have he : ps.expressions = [] := List.eq_nil_of_length_eq_zero (by omega)
    simp [hl, he]
  · rw [bind_bind_pure_isOk, requirementsOfLabels_isOk_iff, requirementsOfExpressions_isOk_iff]
    simp only [horder.mem_iff]

theorem labelSelectorAsSelector_isOk_iff (ps : LabelSelector) :
    (∃ sel, labelSelectorAsSelector ps = .ok sel) ↔ ps.Valid :=
  labelSelectorAsSelectorIn_isOk_iff (List.Perm.refl _)

/-- **Any iteration order.** In whatever order Go ranges over `matchLabels`, the
conversion accepts the same selectors as the by-key run the model makes, and what it
builds matches the same label sets: only the error it reports can depend on the
order. -/
theorem labelSelectorAsSelectorIn_agrees {ps : LabelSelector} {order : List (String × String)}
    (horder : order.Perm ps.labelPairs) :
    ((∃ sel, labelSelectorAsSelectorIn ps order = .ok sel) ↔
      ∃ sel, labelSelectorAsSelector ps = .ok sel) ∧
    ∀ sel sel', labelSelectorAsSelectorIn ps order = .ok sel →
      labelSelectorAsSelector ps = .ok sel' →
        ∀ ls, selectorMatches sel ls = selectorMatches sel' ls := by
  refine ⟨(labelSelectorAsSelectorIn_isOk_iff horder).trans
    (labelSelectorAsSelector_isOk_iff ps).symm, fun sel sel' h h' ls => ?_⟩
  rw [Bool.eq_iff_iff, labelSelectorAsSelectorIn_matches horder h,
    labelSelectorAsSelector_matches h']

/-- `a=1,b=2`, which Go may range over `b` first. -/
def twoLabels : LabelSelector :=
  ⟨some ⟨[("a", "1"), ("b", "2")], by simp [String.lt_iff_toList_lt]; decide⟩, none⟩

theorem twoLabels_reversed_agrees :
    [("b", "2"), ("a", "1")].Perm twoLabels.labelPairs ∧
    (((∃ sel, labelSelectorAsSelectorIn twoLabels [("b", "2"), ("a", "1")] = .ok sel) ↔
      ∃ sel, labelSelectorAsSelector twoLabels = .ok sel) ∧
    ∀ sel sel', labelSelectorAsSelectorIn twoLabels [("b", "2"), ("a", "1")] = .ok sel →
      labelSelectorAsSelector twoLabels = .ok sel' →
        ∀ ls, selectorMatches sel ls = selectorMatches sel' ls) :=
  have horder : [("b", "2"), ("a", "1")].Perm twoLabels.labelPairs := List.Perm.swap _ _ _
  ⟨horder, labelSelectorAsSelectorIn_agrees horder⟩

end Apimachinery
