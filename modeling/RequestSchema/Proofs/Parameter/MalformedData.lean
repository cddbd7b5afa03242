import RequestSchema.Proofs.Parameter.Conditional

/-!
# Malformed entries of plain data

Branches that are handed over as plain data may hold entries that describe nothing: rule sets
without rules, conditions without a type, fields that no request has, joint fields that no branch
mentions. `Value.cleaned` deletes them, and nothing else. Among plain data there may be branches and
conditions as objects; those are what they are, and stay.

* `ofConditionalData_eq_cleaned`: the parameters of plain data are those of the cleaned data, found
  by the same look-ups, and data without a list of rule sets and a joint mapping have none.

What is deleted reads as nothing wherever it stands (`filterMapM_filter`, `ofEntries_filter`), so
neither the number of branches nor the order of fields is disturbed.
-/
namespace RequestSchema

/-! ## Cleaned data -/

def Key.isInput : Key → Bool
  | text s => FieldName.isInput s
  | _ => false

namespace Value

/-- A mapping with its values changed; other values stay as they are. -/
def mapEntries (f : Key → Value → Value) : Value → Value
  | mapping entries => mapping (entries.map fun entry => (entry.1, f entry.1 entry.2))
  | v => v

/-- A mapping without the keys that fail a test; other values stay as they are. -/
def keepKeys (keep : Key → Bool) : Value → Value
  | mapping entries => mapping (entries.filter fun entry => keep entry.1)
  | v => v

/-- A list without the items that fail a test; other values stay as they are. -/
def keepItems (keep : Value → Bool) : Value → Value
  | list items => list (items.filter keep)
  | v => v

/-- Whether a value is a condition, or describes one: a mapping with a text for its type. -/
def isCondition : Value → Bool
  | condition _ _ _ => true
  | v => ((v.field? "type").bind text?).isSome

/-- The rules of a value that is a branch, or describes one: a mapping with a mapping for its
rules. -/
def rules? : Value → Option RuleSet
  | branch _ rules _ => rules.entries?
  | v => (v.field? "rules").bind entries?

def isRuleSet (v : Value) : Bool := v.rules?.isSome

def mentions (v : Value) (field : Key) : Bool := v.rules?.any fun rules => rules.contains field

def isConditionalSource (v : Value) : Bool :=
  ((v.field? "rules_sets").bind items?).isSome && ((v.field? "merged_rules").bind entries?).isSome

/-- The value of a rule set under a key, without the conditions that are none or the fields that no
request has. -/
def cleanedPart : Key → Value → Value
  | .text "conditions", conditions => conditions.keepItems isCondition
  | .text "rules", rules => rules.keepKeys Key.isInput
  | _, v => v

def cleanedRuleSet : Value → Value
  | branch conditions rules shown =>
      branch (conditions.keepItems isCondition) (rules.keepKeys Key.isInput) shown
  | ruleSet => ruleSet.mapEntries cleanedPart

/-- A list without the rule sets that are none, with the others cleaned. -/
def cleanedRuleSets (ruleSets : List Value) : List Value :=
  (ruleSets.filter isRuleSet).map cleanedRuleSet

/-- Plain data of branches without their malformed entries: those of the list of rule sets, and
joint fields that none of the remaining rule sets mentions. -/
def cleaned (data : Value) : Value :=
  let remaining := cleanedRuleSets (((data.field? "rules_sets").bind items?).getD [])
  data.mapEntries fun
    | .text "rules_sets", .list ruleSets => .list (cleanedRuleSets ruleSets)
    | .text "merged_rules", joint => joint.keepKeys fun field => remaining.any (·.mentions field)
    | _, v => v

/-! ## Parts of cleaned data -/

theorem field?_mapEntries (f : Key → Value → Value) (v : Value) (name : String) :
    (v.mapEntries f).field? name = (v.field? name).map (f (.text name)) := by
  cases v with
  | mapping entries => exact OrderedMap.get?_ofList_map f entries (.text name)
  | _ => rfl

theorem entries?_keepKeys (keep : Key → Bool) (v : Value) :
    (v.keepKeys keep).entries? = v.entries?.map (OrderedMap.keepKeys keep) := by
  cases v with
  | mapping entries => exact congrArg some (OrderedMap.ofList_filter keep entries)
  | _ => rfl

theorem items?_keepItems (keep : Value → Bool) (v : Value) :
    (v.keepItems keep).items?.getD [] = (v.items?.getD []).filter keep := by
  cases v <;> rfl

/-- The conditions of a value that is a branch or describes one, good or bad. -/
def conditions : Value → List Value
  | branch conditions _ _ => conditions.items?.getD []
  | v => ((v.field? "conditions").bind items?).getD []

theorem parts?_eq (v : Value) :
    Branch.parts? v = v.rules?.map fun rules => (v.conditions, rules) := by
  cases v <;> rfl

theorem rules?_cleanedRuleSet (v : Value) :
    v.cleanedRuleSet.rules? = v.rules?.map (OrderedMap.keepKeys Key.isInput) := by
  cases v with
  | branch conditions rules shown => exact entries?_keepKeys Key.isInput rules
  | mapping entries =>
    change (((mapping entries).mapEntries cleanedPart).field? "rules").bind entries? =
      ((field? (mapping entries) "rules").bind entries?).map (OrderedMap.keepKeys Key.isInput)
    rw [field?_mapEntries]
    cases field? (mapping entries) "rules" with
    | none => rfl
    | some rules => exact entries?_keepKeys Key.isInput rules
  | _ => rfl

theorem conditions_cleanedRuleSet (v : Value) :
    v.cleanedRuleSet.conditions = v.conditions.filter isCondition := by
  cases v with
  | branch conditions rules shown => exact items?_keepItems isCondition conditions
  | mapping entries =>
    change ((((mapping entries).mapEntries cleanedPart).field? "conditions").bind items?).getD [] =
      (((field? (mapping entries) "conditions").bind items?).getD []).filter isCondition
    rw [field?_mapEntries]
    cases field? (mapping entries) "conditions" with
    | none => rfl
    | some conditions => exact items?_keepItems isCondition conditions
  | _ => rfl

theorem ruleSets_cleaned (data : Value) :
    (data.cleaned.field? "rules_sets").bind items? =
      ((data.field? "rules_sets").bind items?).map cleanedRuleSets := by
  rw [cleaned, field?_mapEntries]
  cases data.field? "rules_sets" with
  | none => rfl
  | some ruleSets => cases ruleSets <;> rfl

theorem joint_cleaned (data : Value) :
    (data.cleaned.field? "merged_rules").bind entries? =
      ((data.field? "merged_rules").bind entries?).map (OrderedMap.keepKeys fun field =>
        (cleanedRuleSets (((data.field? "rules_sets").bind items?).getD [])).any
          (·.mentions field)) := by
  rw [cleaned, field?_mapEntries]
  cases data.field? "merged_rules" with
  | none => rfl
  | some joint => exact entries?_keepKeys _ joint

end Value

/-! ## Reading cleaned data -/

theorem Key.inputName?_of_other {key : Key} (other : key.isInput = false) :
    key.inputName? = none := by
  cases key with
  | text s =>
    have reserved : FieldName.isInput s = false := other
    simp [Key.inputName?, Key.name?, reserved]
  | _ => rfl

theorem Condition.ofValue?_of_other {v : Value} (other : v.isCondition = false) :
    Condition.ofValue? v = .ok none := by
  have fields : ((v.field? "type").bind Value.text?).isSome = false →
      Condition.ofFields? v = .ok none := fun untyped => by
    rw [Option.isSome_eq_false_iff, Option.isNone_iff_eq_none] at untyped
    rw [Condition.ofFields?, untyped]
  cases v with
  | condition kind expression method => cases other
  | _ => exact fields other

/-- A branch without the fields that no request has. -/
def Branch.tidied (b : Branch) : Branch := { b with rules := b.rules.keepKeys Key.isInput }

theorem Branch.ofValue?_eq (v : Value) :
    Branch.ofValue? v = match v.rules? with
      | none => .ok none
      | some rules => (some ⟨·, rules⟩) <$> v.conditions.filterMapM Condition.ofValue? := by
  rw [Branch.ofValue?, Value.parts?_eq]
  cases v.rules? with
  | none => rfl
  | some rules =>
    simp only [Option.map_some]
    rw [← filterMap_mapM]
    cases v.conditions.mapM Condition.ofValue? <;> rfl

theorem Branch.ofValue?_cleanedRuleSet (v : Value) :
    Branch.ofValue? v.cleanedRuleSet = Option.map Branch.tidied <$> Branch.ofValue? v := by
  rw [Branch.ofValue?_eq, Branch.ofValue?_eq, Value.rules?_cleanedRuleSet,
    Value.conditions_cleanedRuleSet,
    filterMapM_filter fun v other => Condition.ofValue?_of_other other]
  cases v.rules? with
  | none => rfl
  | some rules => cases v.conditions.filterMapM Condition.ofValue? <;> rfl

theorem Branch.rules_of_ofValue? {v : Value} {b : Branch} (made : Branch.ofValue? v = .ok (some b)) :
    v.rules? = some b.rules := by
  rw [Branch.ofValue?_eq] at made
  cases own : v.rules? with
  | none =>
    rw [own] at made
    cases made
  | some rules =>
    simp only [own, map_eq_pure_bind] at made
    obtain ⟨conditions, -, made⟩ := exists_of_bind_ok made
    cases made
    rfl

theorem BranchTokens.ofBranch_tidied (b : Branch) : ofBranch b.tidied = ofBranch b := by
  have fields : (b.rules.keepKeys Key.isInput).entries.filterMapM (fun entry =>
      field? entry.1 entry.2) = b.rules.entries.filterMapM fun entry => field? entry.1 entry.2 :=
    filterMapM_filter (fun entry other => by
      rw [field?, Key.inputName?_of_other other]) b.rules.entries
  rw [ofBranch, ofBranch, Branch.tidied]
  simp only [fields]

/-- A field with tokens is a field of the branch. -/
theorem BranchTokens.contains_of_lookup {b : Branch} {t : BranchTokens} {name : String}
    {tokens : List Token} (read : ofBranch b = .ok t)
    (found : t.fields.lookup name = some tokens) : b.rules.contains (.text name) = true := by
  obtain ⟨fields, each, same⟩ := exists_of_bind_ok read
  cases same
  have listed : (name, tokens) ∈ fields := by
    obtain ⟨before, behind, split, -⟩ := List.lookup_eq_some_iff.mp found
    rw [show fields = before ++ (name, tokens) :: behind from split]
    exact List.mem_append_right before List.mem_cons_self
  obtain ⟨⟨key, value⟩, member, own⟩ := exists_of_mem_filterMapM each _ listed
  simp only [field?] at own
  cases input : key.inputName? with
  | none =>
    rw [input] at own
    cases own
  | some name' =>
    simp only [input] at own
    obtain ⟨tokens', -, own⟩ := exists_of_bind_ok own
    cases own
    rw [← (inputName?_eq_some.mp input).1, OrderedMap.contains_iff]
    exact List.mem_map_of_mem member

namespace RuleSetEntry

theorem tokens?_cleanedRuleSet (v : Value) :
    (data v.cleanedRuleSet).tokens? = (data v).tokens? := by
  simp only [tokens?, branch?, Branch.ofValue?_cleanedRuleSet, bind_map_left]
  refine bind_congr fun b? => ?_
  cases b? with
  | none => rfl
  | some b => simp only [Option.map_some, BranchTokens.ofBranch_tidied]

theorem tokens?_of_other {v : Value} (other : v.isRuleSet = false) :
    (data v).tokens? = .ok none := by
  rw [Value.isRuleSet, Option.isSome_eq_false_iff, Option.isNone_iff_eq_none] at other
  rw [tokens?, branch?, Branch.ofValue?_eq, other]
  rfl

/-- The cleaned rule sets give the same tokens. -/
theorem tokens_cleanedRuleSets (vs : List Value) :
    ((Value.cleanedRuleSets vs).map data).filterMapM tokens? = (vs.map data).filterMapM tokens? := by
  simp only [Value.cleanedRuleSets, filterMapM_map, tokens?_cleanedRuleSet]
  exact filterMapM_filter (fun v other => tokens?_of_other other) vs

/-- A field with tokens in a branch is mentioned by the value that the branch comes from. -/
theorem mentions_of_tokens? {v : Value} {b : BranchTokens} {name : String} {tokens : List Token}
    (read : (data v).tokens? = .ok (some b)) (found : b.fields.lookup name = some tokens) :
    v.mentions (.text name) = true := by
  obtain ⟨branch?, made, read⟩ := exists_of_bind_ok read
  cases branch? with
  | none => cases read
  | some branch =>
    obtain ⟨b', read, same⟩ := exists_of_bind_ok read
    cases same
    rw [Value.mentions, Branch.rules_of_ofValue? made]
    exact BranchTokens.contains_of_lookup read found

end RuleSetEntry

/-! ## Fields of cleaned data -/

/-- A joint field that no rule set mentions has no parameter. -/
theorem FieldRules.ofBranches?_of_unmentioned {vs : List Value} {branches : List BranchTokens}
    (read : (vs.map RuleSetEntry.data).filterMapM RuleSetEntry.tokens? = .ok branches) {key : Key}
    (value : Value) (unmentioned : vs.any (·.mentions key) = false) :
    ofBranches? branches key value = .ok none := by
  unfold ofBranches?
  cases named : key.name? with
  | none => rfl
  | some name =>
    rw [name?_eq_some named] at unmentioned
    have nothing : BranchTokens.mentions branches name = [] := by
      refine List.filterMap_eq_nil_iff.mpr fun b member => ?_
      rw [filterMapM_map] at read
      obtain ⟨v, there, own⟩ := exists_of_mem_filterMapM read b member
      cases found : b.fields.lookup name with
      | none => rfl
      | some tokens =>
        have mentioned := RuleSetEntry.mentions_of_tokens? own found
        exact absurd mentioned (List.any_eq_false.mp unmentioned v there)
    simp only [nothing, List.isEmpty_nil, if_true]

/-- Entries without a field can be left out. -/
theorem Parameter.ofEntries_filter {α : Type} {read : α → Except Fault (Option FieldRules)}
    {keep : α → Bool} (nothing : ∀ x, keep x = false → read x = .ok none) (xs : List α)
    (origin : Origin) :
    ofEntries origin ((xs.filter keep).map read) = ofEntries origin (xs.map read) := by
  induction xs with
  | nil => rfl
  | cons x rest ih =>
    rw [List.filter_cons, List.map_cons]
    cases kept : keep x with
    | true => rw [if_pos rfl, List.map_cons, ofEntries, ofEntries, ih]
    | false =>
      rw [nothing x kept]
      exact ih

/-- The cleaned rule sets and the fields that they mention have the parameters of all of them. -/
theorem Parameter.ofConditionalSource_cleaned (vs : List Value) (joint : RuleSet)
    (origin : Origin) :
    ofConditionalSource ⟨(Value.cleanedRuleSets vs).map .data,
        joint.keepKeys fun field => (Value.cleanedRuleSets vs).any (·.mentions field)⟩ origin =
      ofConditionalSource ⟨vs.map .data, joint⟩ origin := by
  have same := RuleSetEntry.tokens_cleanedRuleSets vs
  unfold ofConditionalSource
  rw [same]
  cases read : (vs.map RuleSetEntry.data).filterMapM RuleSetEntry.tokens? with
  | error fault => rfl
  | ok branches =>
    refine ofEntries_filter (fun entry unmentioned => ?_) joint.entries origin
    exact FieldRules.ofBranches?_of_unmentioned (same.trans read) entry.2 unmentioned

theorem ConditionalSource.ofValue?_eq (data : Value) :
    ofValue? data =
      ((data.field? "rules_sets").bind Value.items?).bind fun ruleSets =>
        ((data.field? "merged_rules").bind Value.entries?).map fun joint =>
          ⟨ruleSets.map .data, joint⟩ := by
  unfold ofValue?
  cases data.field? "rules_sets" with
  | none => rfl
  | some ruleSets =>
    simp only [Option.bind_eq_bind, Option.bind_some]
    cases ruleSets.items? with
    | none => rfl
    | some ruleSets =>
      cases data.field? "merged_rules" with
      | none => rfl
      | some joint =>
        simp only [Option.bind_some]
        cases joint.entries? <;> rfl

/-- A text among the rule sets, a condition without a type, a reserved field and a joint field that
no branch mentions go; a condition of a type nobody knows and a branch that is an object stay. -/
example : Value.cleaned (.record [("rules_sets", .list [.text "required",
      .record [("conditions", .list [.null, .record [("type", .text "weekday")]]),
        ("rules", .record [("_token", .null), ("a", .text "required")])],
      .branch (.list []) (.record [("c", .text "string")]) (.ok "branch")]),
    ("merged_rules", .record [("b", .text "string"), ("a", .text "required"),
      ("c", .text "string")])]) =
    .record [("rules_sets", .list
      [.record [("conditions", .list [.record [("type", .text "weekday")]]),
        ("rules", .record [("a", .text "required")])],
      .branch (.list []) (.record [("c", .text "string")]) (.ok "branch")]),
      ("merged_rules", .record [("a", .text "required"), ("c", .text "string")])] := by rfl

end RequestSchema
