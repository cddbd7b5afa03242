import RequestSchema.Proofs.Parameter.Conditional

/-!
# Parameters are well-formed

* `wellFormed_of_built`: every parameter of a rule set or of branches, confirmations
  included, has bounds of the kind that its type allows, and one that is required under a
  condition is not required always and tells its conditions.

The type of a field comes from a first pass over its rules and the bounds from a second
one, so what is proved of them is that the two agree (`Bounds.fits_of_boundsOf`). Which
bounds a field has is not claimed here.
-/
namespace RequestSchema

/-- Bounds that values of a type can have. -/
structure Bounds.Fit (type : FieldType) (b : Bounds) : Prop where
  lengths : b.minLength ≠ none ∨ b.maxLength ≠ none → type = .string
  values : b.minimum ≠ none ∨ b.maximum ≠ none ∨ b.exclusiveMinimum ≠ none ∨
    b.exclusiveMaximum ≠ none → type = .integer ∨ type = .number
  counts : b.minItems ≠ none ∨ b.maxItems ≠ none → type = .array

/-- What holds of every parameter that is published. -/
structure Parameter.WellFormed (p : Parameter) : Prop where
  bounds : p.bounds.Fit p.type
  /-- truth values and uploads have no bounds at all -/
  unbounded : p.type = .boolean ∨ p.type = .file → p.bounds = {}
  conditional : p.conditionallyRequired = true → p.required = false ∧ p.conditionalRules ≠ []

namespace Bounds

theorem fit_empty (type : FieldType) : ({} : Bounds).Fit type where
  lengths := by simp
  values := by simp
  counts := by simp

/-- Only texts, numbers and arrays have bounds. -/
theorem Fit.eq_empty {type : FieldType} {b : Bounds} (fit : b.Fit type)
    (notText : type ≠ .string) (notInteger : type ≠ .integer) (notNumber : type ≠ .number)
    (notArray : type ≠ .array) : b = {} := by
  have lengths := mt fit.lengths notText
  have values := mt fit.values (not_or.mpr ⟨notInteger, notNumber⟩)
  have counts := mt fit.counts notArray
  simp only [not_or, not_not] at lengths values counts
  obtain ⟨minLength, maxLength⟩ := lengths
  obtain ⟨minimum, maximum, exclusiveMinimum, exclusiveMaximum⟩ := values
  obtain ⟨minItems, maxItems⟩ := counts
  cases b
  simp_all only

theorem fit_of_ofTokens {type : FieldType} {tokens : List Token} {b : Bounds}
    (ends : Bounds.ofTokens type tokens = .ok b) : b.Fit type := by
  cases type with
  | string =>
    obtain ⟨limits, -, ends⟩ := exists_of_bind_ok ends
    cases ends
    exact ⟨fun _ => rfl, by simp, by simp⟩
  | array =>
    obtain ⟨limits, -, ends⟩ := exists_of_bind_ok ends
    cases ends
    exact ⟨by simp, by simp, fun _ => rfl⟩
  | integer =>
    cases ends
    exact ⟨by simp, fun _ => .inl rfl, by simp⟩
  | number =>
    cases ends
    exact ⟨by simp, fun _ => .inr rfl, by simp⟩
  | boolean | file | other name =>
    cases ends
    exact fit_empty _

/-- The lengths of a password count for texts only, so they do not spoil the bounds. -/
theorem fit_of_boundsOf {type : FieldType} {tokens : List Token} {b : Bounds}
    (ends : FieldRules.boundsOf type tokens = .ok b) : b.Fit type := by
  obtain ⟨own, stated, ends⟩ := exists_of_bind_ok ends
  have fit := fit_of_ofTokens stated
  split at ends
  · rename_i unstated
    have text : type = .string := by
      simp only [Bool.and_eq_true, decide_eq_true_eq] at unstated
      exact unstated.1.1
    obtain ⟨password, -, ends⟩ := exists_of_bind_ok ends
    cases password with
    | some p =>
      cases ends
      exact ⟨fun _ => text, fit.values, fit.counts⟩
    | none =>
      cases ends
      exact fit
  · cases ends
    exact fit

end Bounds

theorem Parameter.wellFormed_of_fit {p : Parameter} (fit : p.bounds.Fit p.type)
    (conditional : p.conditionallyRequired = true →
      p.required = false ∧ p.conditionalRules ≠ []) : p.WellFormed where
  bounds := fit
  unbounded := by
    intro bare
    apply fit.eq_empty <;> rcases bare with type | type <;> rw [type] <;> decide
  conditional := conditional

/-! ## From fields to parameters -/

theorem fit_of_parameter {field : FieldRules} {origin : Origin} {p : Parameter}
    (yields : (field.parameter origin).Yields p) : p.bounds.Fit p.type := by
  rcases parameter_cases yields with ⟨_, _, rfl⟩ | ⟨_, _, _, _, _, -, stated, -, -, rfl⟩
  · exact Bounds.fit_empty _
  · exact Bounds.fit_of_boundsOf stated

/-- A confirmation has the lengths of its field, and nothing that is conditional. -/
theorem Parameter.WellFormed.confirmation {p : Parameter} (well : p.WellFormed) :
    p.confirmation.WellFormed := by
  refine Parameter.wellFormed_of_fit ⟨well.bounds.lengths, ?_, ?_⟩ ?_
  · simp [Parameter.confirmation]
  · simp [Parameter.confirmation]
  · simp [Parameter.confirmation]

theorem Parameter.WellFormed.withConfirmation {p : Parameter} (well : p.WellFormed) :
    ∀ q ∈ p.withConfirmation, q.WellFormed := by
  intro q member
  unfold Parameter.withConfirmation at member
  split at member
  · rcases List.mem_cons.mp member with rfl | twin
    · exact well
    · rw [List.mem_singleton.mp twin]
      exact well.confirmation
  · rw [List.mem_singleton.mp member]
    exact well

/-- A field that tells its conditions where it is required under one of them. -/
def FieldRules.TellsConditions (field : FieldRules) : Prop :=
  field.conditionallyRequired = true → field.required = false ∧ field.conditionalRules ≠ []

theorem wellFormed_of_fields {fields : List FieldRules} {origin : Origin} {ps : List Parameter}
    (tell : ∀ field ∈ fields, field.TellsConditions)
    (yields : (Parameter.ofFields fields origin).Yields ps) : ∀ p ∈ ps, p.WellFormed := by
  obtain ⟨mains, rfl, each⟩ := mains_of_fields yields
  intro q member
  obtain ⟨p, main, own⟩ := List.mem_flatMap.mp member
  obtain ⟨field, there, built⟩ := exists_left_of_mem each p main
  have describes := describes_of_parameter built
  refine Parameter.WellFormed.withConfirmation ?_ q own
  refine Parameter.wellFormed_of_fit (fit_of_parameter built) fun conditional => ?_
  rw [describes.required, describes.conditionalRules]
  exact tell field there (describes.conditionallyRequired ▸ conditional)

/-- The rule that makes a field required under a condition is one of its conditional rules:
both are found by the same names. -/
theorem clauses_ne_nil {tokens : List Token}
    (conditional : Token.isConditionallyRequired tokens = true) : Token.clauses tokens ≠ [] := by
  rw [Token.isConditionallyRequired, List.any_eq_true] at conditional
  obtain ⟨t, member, names⟩ := conditional
  have effect := of_decide_eq_true names
  have clause : ConditionalClause.ofToken? t = some ⟨t.name, t.parameters, t.text⟩ := by
    rw [ConditionalClause.ofToken?, effect, Option.isSome_some, if_pos rfl]
  exact List.ne_nil_of_mem (List.mem_filterMap.mpr ⟨t, member, clause⟩)

theorem tellsConditions_of_entry {key : Key} {value : Value} {field : FieldRules}
    (found : FieldRules.flat? key value = some field) : field.TellsConditions := by
  obtain ⟨name, -, found⟩ := Option.bind_eq_some_iff.mp found
  unfold FieldRules.ofTokens? at found
  split at found
  · cases found
  · cases found
    intro conditional
    simp only at conditional ⊢
    obtain ⟨named, optional⟩ := Bool.and_eq_true_iff.mp conditional
    refine ⟨by simpa using optional, ?_⟩
    rw [if_pos conditional, ne_eq, List.map_eq_nil_iff]
    exact clauses_ne_nil named

theorem BuiltFrom.tellsConditions {branches : List Branch} {key : Key} {value : Value}
    {field : FieldRules} (built : BuiltFrom branches key value field) : field.TellsConditions := by
  intro conditional
  rw [built.conditionallyRequired, Bool.and_eq_true, Bool.not_eq_true'] at conditional
  refine ⟨conditional.1, ?_⟩
  rw [built.conditionalRules, ne_eq, List.map_eq_nil_iff]
  exact built.mentioned

/-- Whatever parameters are built from, a rule set or rule sets with a joint one, all of them are
well-formed. -/
theorem wellFormed_of_built {origin : Origin} {ps : List Parameter}
    (built : (∃ rules, (Parameter.ofRuleSet rules origin).Yields ps) ∨
      ∃ source, (Parameter.ofConditionalSource source origin).Yields ps) :
    ∀ p ∈ ps, p.WellFormed := by
  rcases built with ⟨rules, yields⟩ | ⟨source, yields⟩
  · refine wellFormed_of_fields (fun field member => ?_) (Parameter.fields_of_ofRuleSet yields)
    obtain ⟨entry, -, found⟩ := List.mem_filterMap.mp member
    exact tellsConditions_of_entry found
  · refine wellFormed_of_fields (fun field member => ?_)
      (Parameter.fields_of_ofConditionalSource yields)
    obtain ⟨entry, -, found⟩ := List.mem_filterMap.mp member
    exact (joint?_builtFrom found).tellsConditions

/-- A confirmed password whose lengths are those of a chain of calls, and a number that is
required under a condition. -/
def chainedPassword : RuleSet :=
  .ofList [(.text "password", .list [.source "Password::min(8)->max(64)", .text "confirmed"]),
    (.text "age", .text "required_with:password|integer|between:18,99")]

theorem chainedPassword_wellFormed :
    ∃ ps, ((Parameter.ofRuleSet chainedPassword {}).run false {}).result = .ok ps ∧
      ps.map (fun p => (p.name, p.bounds.minLength, p.bounds.minimum)) =
        [("password", some 8, none), ("password_confirmation", some 8, none),
          ("age", none, some (.int 18))] ∧
      ∀ p ∈ ps, p.WellFormed := by
  obtain ⟨ps, returned, bounds⟩ := exists_ok_of_any
    (show (((Parameter.ofRuleSet chainedPassword {}).run false {}).result.toOption.any fun ps =>
      ps.map (fun p => (p.name, p.bounds.minLength, p.bounds.minimum)) =
        [("password", some 8, none), ("password_confirmation", some 8, none),
          ("age", none, some (.int 18))]) = true by decide +kernel)
  exact ⟨ps, returned, of_decide_eq_true bounds,
    wellFormed_of_built (.inl ⟨_, false, {}, returned⟩)⟩

end RequestSchema
