import RequestSchema.Proofs.Branch.Merge
import RequestSchema.Proofs.Parameter.Conditional

/-!
# Excluded fields

Whether a field is excluded is asked of its joint tokens. So a single branch that excludes
it takes its parameter away, also from the paths on which other branches ask for it.

* `published_iff_kept`: the fields of branches that have parameters are those that some
  branch mentions and that none of them excludes;
* `partlyExcluded_unpublished`: a field that is excluded on one path and required on the
  other one has no parameter.
-/
namespace RequestSchema

namespace Branch

/-- The branch has rules for a field. -/
def Mentions (b : Branch) (field : String) : Prop :=
  ∃ value, b.rules.get? (.text field) = some value

/-- The branch excludes a field whatever else holds. -/
def Excludes (b : Branch) (field : String) : Prop :=
  ∃ value, b.rules.get? (.text field) = some value ∧
    ∃ tokens, value.tokens = .ok tokens ∧ ∃ t ∈ tokens, t.name = "exclude"

end Branch

/-- A field of a request that some branch has rules for and no branch excludes. -/
structure KeptField (branches : List Branch) (field : String) : Prop where
  filled : field ≠ ""
  plain : field.toList.head? ≠ some '_'
  mentioned : ∃ b ∈ branches, b.Mentions field
  kept : ∀ b ∈ branches, ¬ b.Excludes field

theorem isInput_iff {field : String} :
    FieldName.isInput field = true ↔ field ≠ "" ∧ field.toList.head? ≠ some '_' := by
  simp [FieldName.isInput]

theorem isExcluded_iff {tokens : List Token} :
    Token.isExcluded tokens = true ↔ ∃ t ∈ tokens, t.name = "exclude" := by
  simp [Token.isExcluded, Token.has]

/-- The joint tokens of a field are excluded exactly when some branch excludes it. -/
theorem excluded_of_joint {branches : List Branch} {field : String} {value : Value}
    (joint : (Branch.joint branches).get? (.text field) = some value) :
    Token.isExcluded value.tokenList = true ↔ ∃ b ∈ branches, b.Excludes field := by
  rw [isExcluded_iff, Value.tokenList_of_tokens (Branch.tokens_of_get?_joint joint)]
  constructor
  · rintro ⟨t, member, named⟩
    obtain ⟨b, there, own⟩ := List.mem_flatMap.mp member
    cases found : b.rules.get? (.text field) with
    | none =>
      rw [found] at own
      cases own
    | some value =>
      rw [found] at own
      obtain ⟨tokens, read, listed⟩ := Value.mem_tokenList.mp own
      exact ⟨b, there, value, found, tokens, read, t, listed, named⟩
  · rintro ⟨b, there, value, found, tokens, read, t, listed, named⟩
    refine ⟨t, List.mem_flatMap.mpr ⟨b, there, ?_⟩, named⟩
    rw [found]
    exact Value.mem_tokenList.mpr ⟨tokens, read, listed⟩

/-- A field has a joint value exactly when some branch mentions it. -/
theorem exists_joint_iff {branches : List Branch} {field : String} :
    (∃ value, (Branch.joint branches).get? (.text field) = some value) ↔
      ∃ b ∈ branches, b.Mentions field := by
  simp only [Branch.Mentions, ← Option.isSome_iff_exists]
  simp only [← OrderedMap.contains.eq_def, OrderedMap.contains_iff]
  exact Branch.mem_keys_joint branches (.text field)

theorem mentions_ne_nil {branches : List Branch} {key : Key}
    (mentioned : ∃ b ∈ branches, ∃ value, b.rules.get? key = some value) :
    Branch.mentions branches key ≠ [] := by
  obtain ⟨b, member, value, found⟩ := mentioned
  have mention : (b.conditions, value.tokenList) ∈ Branch.mentions branches key :=
    List.mem_filterMap.mpr ⟨b, member, by rw [found]; rfl⟩
  exact List.ne_nil_of_mem mention

theorem name_mem_iff {branches : List Branch} {field : String} :
    field ∈ (conditionalFields ⟨branches, Branch.joint branches⟩).map FieldRules.name ↔
      KeptField branches field := by
  constructor
  · intro member
    obtain ⟨rules, there, rfl⟩ := List.mem_map.mp member
    obtain ⟨value, joint, built⟩ := builtFrom_of_mem there
    obtain ⟨filled, plain⟩ := isInput_iff.mp built.input
    refine ⟨filled, plain, exists_joint_iff.mp ⟨value, joint⟩, fun b own excludes => ?_⟩
    have excluded := (excluded_of_joint joint).mpr ⟨b, own, excludes⟩
    rw [built.kept] at excluded
    cases excluded
  · rintro ⟨filled, plain, mentioned, kept⟩
    obtain ⟨value, joint⟩ := exists_joint_iff.mpr mentioned
    obtain ⟨b, there, own, found⟩ := mentioned
    have unexcluded : Token.isExcluded value.tokenList = false := by
      rw [Bool.eq_false_iff, Ne, excluded_of_joint joint]
      rintro ⟨b, there, excludes⟩
      exact kept b there excludes
    obtain ⟨built, made, rfl⟩ := exists_field_of_kept (isInput_iff.mpr ⟨filled, plain⟩)
      (mentions_ne_nil ⟨b, there, own, found⟩) unexcluded
    exact List.mem_map_of_mem
      (List.mem_filterMap.mpr ⟨(.text built.name, value), OrderedMap.mem_of_get? joint, made⟩)

/-- Where parameters are built from branches and the rule set that joins them, a field has
one exactly when it is a field of the request, some branch mentions it and none of the
branches that do excludes it. -/
theorem published_iff_kept {branches : List Branch} {found : ConditionalRules} {origin : Origin}
    {ps : List Parameter} (joined : ConditionalRules.ofBranches branches = .ok found)
    (yields : (Parameter.ofConditionalRules found origin).Yields ps) :
    ∃ mains : List Parameter, ps = mains.flatMap Parameter.withConfirmation ∧
      ∀ field, field ∈ mains.map Parameter.name ↔ KeptField branches field := by
  obtain ⟨-, rfl⟩ := Branch.eq_of_ofBranches joined
  obtain ⟨mains, published, related⟩ := fields_of_conditionalRules yields
  refine ⟨mains, published, fun field => ?_⟩
  rw [names_of_fields related]
  exact name_mem_iff

/-- A field that is excluded when something is posted, and required otherwise. -/
def partlyExcluded : List Branch :=
  [⟨[.httpMethod "post" "$this->isMethod('post')"],
      .ofList [(.text "a", .text "exclude"), (.text "b", .text "confirmed")]⟩,
    ⟨[], .ofList [(.text "a", .text "required"), (.text "b", .text "exclude_if:a,1")]⟩]

theorem partlyExcluded_published :
    ∃ found ps, ConditionalRules.ofBranches partlyExcluded = .ok found ∧
      ((Parameter.ofConditionalRules found {}).run false {}).result = .ok ps ∧
      ps.map Parameter.name = ["b", "b_confirmation"] ∧
      ∃ mains : List Parameter, ps = mains.flatMap Parameter.withConfirmation ∧
        ∀ field, field ∈ mains.map Parameter.name ↔ KeptField partlyExcluded field := by
  obtain ⟨found, joined, published⟩ := exists_ok_of_any
    (show ((ConditionalRules.ofBranches partlyExcluded).toOption.any fun found =>
      ((Parameter.ofConditionalRules found {}).run false {}).result.toOption.any fun ps =>
        ps.map Parameter.name = ["b", "b_confirmation"]) = true by decide +kernel)
  obtain ⟨ps, returned, published⟩ := exists_ok_of_any published
  exact ⟨found, ps, joined, returned, of_decide_eq_true published,
    published_iff_kept joined ⟨false, {}, returned⟩⟩

/-- A field that is excluded on one path has no parameter, though another path requires it
without excluding it. -/
theorem partlyExcluded_unpublished :
    ∃ found ps, ConditionalRules.ofBranches partlyExcluded = .ok found ∧
      ((Parameter.ofConditionalRules found {}).run false {}).result = .ok ps ∧
      (∃ b ∈ partlyExcluded, b.Mentions "a" ∧ ¬ b.Excludes "a") ∧
      "a" ∉ ps.map Parameter.name := by
  obtain ⟨found, joined, published⟩ := exists_ok_of_any
    (show ((ConditionalRules.ofBranches partlyExcluded).toOption.any fun found =>
      ((Parameter.ofConditionalRules found {}).run false {}).result.toOption.any fun ps =>
        ps.map Parameter.name = ["b", "b_confirmation"]) = true by decide +kernel)
  obtain ⟨ps, returned, published⟩ := exists_ok_of_any published
  refine ⟨found, ps, joined, returned, ⟨_, List.mem_cons_of_mem _ List.mem_cons_self,
    ⟨.text "required", rfl⟩, ?_⟩, ?_⟩
  · rintro ⟨value, found, tokens, read, t, member, named⟩
    cases found
    have own : (Value.text "required").tokens = .ok [.rule "required"] := rfl
    rw [own] at read
    cases read
    rw [List.mem_singleton] at member
    subst member
    exact absurd named (by decide)
  · rw [of_decide_eq_true published]
    decide

end RequestSchema
