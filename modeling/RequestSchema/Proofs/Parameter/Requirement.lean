import RequestSchema.Proofs.Parameter.Conditional

/-!
# Which conditional parameters are required

* `requirement_of_conditionalRules`: a field is required exactly when every well-formed
  rule set makes it so, and required under a condition exactly when it is not required
  and some rule set makes it so or its joint rules name a condition.

A rule set is well-formed when its rules are a mapping; nothing else about it counts,
and malformed ones do not count at all. The joint rules are taken as they are handed
over, whatever the single rule sets say.
-/
namespace RequestSchema

/-- The rules of an entry that is well-formed: a branch, an object with the rules of one, or a
mapping with rules. -/
def RuleSetEntry.rules? : RuleSetEntry → Option RuleSet
  | branch b => some b.rules
  | data (.branch _ rules _) => rules.entries?
  | data v => (v.field? "rules").bind Value.entries?

/-- The rules give a field a token named `required`. -/
def Requires (rules : RuleSet) (field : String) : Prop :=
  ∃ value, rules.get? (.text field) = some value ∧
    ∃ tokens, value.tokens = .ok tokens ∧ ∃ t ∈ tokens, t.name = "required"

def requiringConditions : List String :=
  ["required_if", "required_unless", "required_with", "required_without", "required_with_all",
    "required_without_all"]

/-- The requirement of a parameter is what the rule sets and the joint rules say. -/
structure RequiredAsStated (source : ConditionalSource) (p : Parameter) : Prop where
  required : p.required = true ↔
    ∀ entry ∈ source.ruleSets, ∀ rules, entry.rules? = some rules → Requires rules p.name
  conditionally : p.conditionallyRequired = true ↔
    p.required = false ∧
      ((∃ entry ∈ source.ruleSets, ∃ rules, entry.rules? = some rules ∧ Requires rules p.name) ∨
        ∃ value, source.merged.get? (.text p.name) = some value ∧
          ∃ tokens, value.tokens = .ok tokens ∧ ∃ t ∈ tokens, t.name ∈ requiringConditions)

namespace RuleSetEntry

theorem rules?_data (v : Value) : (data v).rules? = (Branch.parts? v).map Prod.snd := by
  cases v <;>
    simp only [RuleSetEntry.rules?, Branch.parts?, Option.map_map, Function.comp_def,
      Option.map_id']

/-- The rules of an entry that can be read are those of the branch that it stands for. -/
theorem rules?_eq_found? {entry : RuleSetEntry} (read : entry.branch?.isOk = true) :
    entry.rules? = entry.found?.map Branch.rules := by
  cases entry with
  | branch b => rfl
  | data v =>
    rw [rules?_data]
    unfold found?
    simp only [branch?, Branch.ofValue?] at read ⊢
    generalize Branch.parts? v = parts at read ⊢
    cases parts with
    | none => rfl
    | some parts =>
      obtain ⟨conditions, rules⟩ := parts
      simp only at read ⊢
      cases each : conditions.mapM Condition.ofValue? with
      | error fault =>
        rw [each] at read
        cases read
      | ok conditions => rfl

end RuleSetEntry

namespace ConditionalSource

variable {source : ConditionalSource}

theorem mem_branches_iff (written : source.Written) (rules : RuleSet) :
    (∃ b ∈ source.rules.branches, b.rules = rules) ↔
      ∃ entry ∈ source.ruleSets, entry.rules? = some rules := by
  simp only [ConditionalSource.rules, List.mem_filterMap]
  constructor
  · rintro ⟨b, ⟨entry, member, found⟩, same⟩
    refine ⟨entry, member, ?_⟩
    rw [RuleSetEntry.rules?_eq_found? (written.ruleSets entry member), found, ← same]
    rfl
  · rintro ⟨entry, member, found⟩
    rw [RuleSetEntry.rules?_eq_found? (written.ruleSets entry member)] at found
    obtain ⟨b, there, same⟩ := Option.map_eq_some_iff.mp found
    exact ⟨b, ⟨entry, member, there⟩, same⟩

/-- All branches are rule sets that are well-formed. -/
theorem forall_branches (written : source.Written) (P : RuleSet → Prop) :
    (∀ b ∈ source.rules.branches, P b.rules) ↔
      ∀ entry ∈ source.ruleSets, ∀ rules, entry.rules? = some rules → P rules := by
  constructor
  · intro every entry member rules found
    obtain ⟨b, there, rfl⟩ := (mem_branches_iff written rules).mpr ⟨entry, member, found⟩
    exact every b there
  · intro every b member
    obtain ⟨entry, there, found⟩ := (mem_branches_iff written b.rules).mp ⟨b, member, rfl⟩
    exact every entry there b.rules found

theorem exists_branches (written : source.Written) (P : RuleSet → Prop) :
    (∃ b ∈ source.rules.branches, P b.rules) ↔
      ∃ entry ∈ source.ruleSets, ∃ rules, entry.rules? = some rules ∧ P rules := by
  constructor
  · rintro ⟨b, member, holds⟩
    obtain ⟨entry, there, found⟩ := (mem_branches_iff written b.rules).mp ⟨b, member, rfl⟩
    exact ⟨entry, there, b.rules, found, holds⟩
  · rintro ⟨entry, member, rules, found, holds⟩
    obtain ⟨b, there, rfl⟩ := (mem_branches_iff written rules).mpr ⟨entry, member, found⟩
    exact ⟨b, there, holds⟩

end ConditionalSource

theorem isRequired_iff (tokens : List Token) :
    Token.isRequired tokens = true ↔ ∃ t ∈ tokens, t.name = "required" := by
  simp [Token.isRequired, Token.has]

theorem requires_iff (rules : RuleSet) (field : String) :
    Requires rules field ↔
      ∃ value, rules.get? (.text field) = some value ∧
        Token.isRequired value.tokenList = true := by
  simp only [Requires, isRequired_iff, Value.exists_mem_tokenList]

theorem ofRuleName?_required (name : String) :
    Effect.ofRuleName? name = some .required ↔ name ∈ requiringConditions := by
  have words : (conditionWords.any fun word => name = Effect.required.name ++ "_" ++ word) = true ↔
      name ∈ requiringConditions := by
    have spelled : requiringConditions =
        conditionWords.map fun word => Effect.required.name ++ "_" ++ word := rfl
    rw [spelled, List.mem_map, List.any_eq_true]
    exact exists_congr fun word => and_congr_right fun _ => decide_eq_true_iff.trans eq_comm
  rw [← words, Effect.ofRuleName?, Effect.all, List.find?_cons]
  split
  · rename_i holds
    exact iff_of_true rfl holds
  · rename_i fails
    refine iff_of_false (fun found => ?_) (by rw [fails]; exact Bool.false_ne_true)
    have later := List.mem_of_find?_eq_some found
    simp at later

theorem isConditionallyRequired_iff (tokens : List Token) :
    Token.isConditionallyRequired tokens = true ↔
      ∃ t ∈ tokens, t.name ∈ requiringConditions := by
  simp only [Token.isConditionallyRequired, List.any_eq_true, decide_eq_true_iff,
    ofRuleName?_required]

/-- Counting the branches that mention a field finds out whether all of them do. -/
theorem all_mentions_iff (branches : List Branch) (key : Key) (q : List Token → Bool) :
    ((Branch.mentions branches key).length = branches.length &&
        (Branch.mentions branches key).all fun mention => q mention.2) = true ↔
      ∀ b ∈ branches, ∃ value, b.rules.get? key = some value ∧ q value.tokenList = true := by
  rw [Bool.and_eq_true, decide_eq_true_iff, List.all_eq_true, Branch.mentions,
    List.filterMap_length_eq_length]
  constructor
  · rintro ⟨everywhere, all⟩ b member
    have mentioned := everywhere b member
    rw [Option.isSome_map] at mentioned
    obtain ⟨value, found⟩ := Option.isSome_iff_exists.mp mentioned
    refine ⟨value, found, all (b.conditions, value.tokenList) (List.mem_filterMap.mpr ?_)⟩
    exact ⟨b, member, by rw [found]; rfl⟩
  · intro every
    refine ⟨fun b member => ?_, fun mention member => ?_⟩
    · obtain ⟨value, found, -⟩ := every b member
      rw [found]
      rfl
    · obtain ⟨b, there, own⟩ := List.mem_filterMap.mp member
      obtain ⟨value, found, holds⟩ := every b there
      rw [found] at own
      cases own
      exact holds

theorem any_mentions_iff (branches : List Branch) (key : Key) (q : List Token → Bool) :
    ((Branch.mentions branches key).any fun mention => q mention.2) = true ↔
      ∃ b ∈ branches, ∃ value, b.rules.get? key = some value ∧ q value.tokenList = true := by
  rw [List.any_eq_true, Branch.mentions]
  constructor
  · rintro ⟨mention, member, holds⟩
    obtain ⟨b, there, own⟩ := List.mem_filterMap.mp member
    obtain ⟨value, found, rfl⟩ := Option.map_eq_some_iff.mp own
    exact ⟨b, there, value, found, holds⟩
  · rintro ⟨b, there, value, found, holds⟩
    exact ⟨(b.conditions, value.tokenList), List.mem_filterMap.mpr ⟨b, there, by rw [found]; rfl⟩,
      holds⟩

/-- Where parameters are built from rule sets at all, every one of them that is no
confirmation is required exactly as they state. -/
theorem requirement_of_conditionalRules {source : ConditionalSource} {origin : Origin}
    {ps : List Parameter} (yields : (Parameter.ofConditionalSource source origin).Yields ps) :
    ∃ mains : List Parameter, ps = mains.flatMap Parameter.withConfirmation ∧
      ∀ p ∈ mains, RequiredAsStated source p := by
  have written := Parameter.written_of_ofConditionalSource yields
  obtain ⟨mains, published, related⟩ := fields_of_conditionalSource yields
  refine ⟨mains, published, fun p member => ?_⟩
  obtain ⟨field, there, describes⟩ := exists_left_of_mem related p member
  obtain ⟨value, joint, built⟩ := builtFrom_of_mem there
  have joined : Token.isConditionallyRequired value.tokenList = true ↔
      ∃ value, source.merged.get? (.text field.name) = some value ∧
        ∃ tokens, value.tokens = .ok tokens ∧ ∃ t ∈ tokens, t.name ∈ requiringConditions := by
    simp only [isConditionallyRequired_iff, ← Value.exists_mem_tokenList]
    refine ⟨fun conditional => ⟨value, joint, conditional⟩, ?_⟩
    rintro ⟨value', found, conditional⟩
    cases joint.symm.trans found
    exact conditional
  constructor
  · rw [describes.required, built.required, all_mentions_iff, describes.name,
      ← ConditionalSource.forall_branches written]
    simp only [requires_iff]
  · rw [describes.conditionallyRequired, built.conditionallyRequired, describes.required,
      Bool.and_eq_true, Bool.not_eq_true', Bool.or_eq_true, any_mentions_iff, joined,
      describes.name, ← ConditionalSource.exists_branches written]
    simp only [requires_iff]

/-- Two rule sets and a malformed entry: one field is required by both rule sets, the other
one by the first of them only. -/
def halfRequired : ConditionalSource where
  ruleSets := [
    .branch ⟨[], .ofList [(.text "a", .text "required"), (.text "b", .text "required")]⟩,
    .data (.record [("rules", .record [("a", .text "required")])]),
    .data (.text "malformed")]
  merged := .ofList [(.text "a", .text "required"), (.text "b", .text "required")]

theorem halfRequired_as_stated :
    ∃ ps, ((Parameter.ofConditionalSource halfRequired {}).run false {}).result = .ok ps ∧
      ps.map (fun p => (p.name, p.required, p.conditionallyRequired)) =
        [("a", true, false), ("b", false, true)] ∧
      ∃ mains : List Parameter, ps = mains.flatMap Parameter.withConfirmation ∧
        ∀ p ∈ mains, RequiredAsStated halfRequired p := by
  obtain ⟨ps, returned, flags⟩ := exists_ok_of_any
    (show (((Parameter.ofConditionalSource halfRequired {}).run false {}).result.toOption.any
      fun ps => ps.map (fun p => (p.name, p.required, p.conditionallyRequired)) =
        [("a", true, false), ("b", false, true)]) = true by decide +kernel)
  exact ⟨ps, returned, of_decide_eq_true flags,
    requirement_of_conditionalRules ⟨false, {}, returned⟩⟩

end RequestSchema
