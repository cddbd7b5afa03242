import RequestSchema.Proofs.Branch.Merge
import RequestSchema.Proofs.Enumeration.Lookup
import RequestSchema.Proofs.Parameter.Conditional
import RequestSchema.Proofs.Parameter.Reading
import RequestSchema.Proofs.Rule.Repetition

/-!
# Branches that share their rules

* `parameters_of_sharedRules`: branches that all have the same rules get the parameters of
  these rules. Only their tokens are repeated, their paths are told, and a description made
  from several branches says so.

The parameters of a rule set and those of branches are put together by different ways of
counting what is required; and the joint rules of the branches state every rule several
times, which no reading of them may notice (`sameReading_repeated`).
-/
namespace RequestSchema

open Analysis

/-- Branches with some rules on each of some paths. -/
def Branch.sharing (paths : List (List Condition)) (rules : RuleSet) : List Branch :=
  paths.map fun path => ⟨path, rules⟩

/-- The parameter of a field as it is when its rules hold on each of some paths: the tokens
are those of all paths, and a description that was made from them, and not supplied, tells
when they are several. -/
def Parameter.across (paths : List (List Condition)) (origin : Origin) (p : Parameter) :
    Parameter :=
  { p with
    tokens := repeated paths.length p.tokens
    conditionalRules := paths.map fun path => .path path p.tokens
    description :=
      if p.upload.isSome || (origin.label? p.name).isSome || paths.length ≤ 1 then p.description
      else p.description ++ " (rules vary by condition)" }

/-- The field of a rule set as it is when the rules hold on each of some paths. -/
def FieldRules.across (paths : List (List Condition)) (field : FieldRules) : FieldRules :=
  { field with
    tokens := repeated paths.length field.tokens
    conditionalRules := paths.map fun path => .path path field.tokens
    branches := paths.length }

/-! ## The fields -/

section

variable (path : List Condition) (others : List (List Condition)) (rules : RuleSet)

theorem keys_joint_sharing :
    (Branch.joint (Branch.sharing (path :: others) rules)).keys = rules.keys := by
  have keys : ((Branch.sharing (path :: others) rules).flatMap fun b => b.rules.keys) =
      repeated (others.length + 1) rules.keys := by
    rw [Branch.sharing, List.flatMap_map]
    exact flatMap_const (path :: others) rules.keys
  rw [Branch.keys_joint, keys, eraseDups_repeated]
  exact OrderedMap.eraseDups_of_nodup rules.distinct

variable {rules} {key : Key} {value : Value}

theorem tokensAt_sharing (paths : List (List Condition)) (found : rules.get? key = some value) :
    Branch.tokensAt (Branch.sharing paths rules) key = repeated paths.length value.tokenList := by
  rw [Branch.tokensAt, Branch.sharing, List.flatMap_map]
  simp only [found]
  exact flatMap_const paths value.tokenList

theorem mentions_sharing (paths : List (List Condition)) (found : rules.get? key = some value) :
    Branch.mentions (Branch.sharing paths rules) key =
      paths.map fun path => (path, value.tokenList) := by
  rw [Branch.mentions, Branch.sharing, List.filterMap_map, ← List.filterMap_eq_map]
  congr 1
  funext path
  simp only [Function.comp_apply, found, Option.map_some]

theorem all_shared (tokens : List Token) (q : List Token → Bool) :
    (((path :: others).map fun path => (path, tokens)).all fun mention => q mention.2) =
      q tokens := by
  cases holds : q tokens <;> simp [holds]

theorem any_shared (tokens : List Token) (q : List Token → Bool) :
    (((path :: others).map fun path => (path, tokens)).any fun mention => q mention.2) =
      q tokens := by
  cases holds : q tokens <;> simp [holds]

/-- A field that all branches mention with the same tokens is required, or excluded, as it
is by these tokens. -/
theorem joint?_sharing {joint : Value} (found : rules.get? key = some value)
    (tokens : joint.tokenList = repeated (others.length + 1) value.tokenList) :
    FieldRules.joint? (Branch.sharing (path :: others) rules) key joint =
      (FieldRules.flat? key value).map (FieldRules.across (path :: others)) := by
  have mentions := mentions_sharing (path :: others) found
  have mentioned :
      (Branch.mentions (Branch.sharing (path :: others) rules) key).isEmpty = false := by
    rw [mentions]
    rfl
  have counted : (Branch.mentions (Branch.sharing (path :: others) rules) key).length =
      (Branch.sharing (path :: others) rules).length := by
    rw [mentions, Branch.sharing, List.length_map, List.length_map]
  unfold FieldRules.joint? FieldRules.flat?
  cases key.inputName? with
  | none => rfl
  | some name =>
    simp only [Option.bind_some, mentioned, Bool.false_eq_true, if_false, FieldRules.ofMentions?,
      FieldRules.ofTokens?, counted, tokens, Token.isExcluded_repeated,
      Token.isConditionallyRequired_repeated]
    rw [mentions, all_shared path others value.tokenList Token.isRequired,
      any_shared path others value.tokenList Token.isRequired]
    split
    · rfl
    · simp only [Option.map_some, FieldRules.across, List.map_map, Branch.sharing,
        List.length_map, decide_true, Bool.true_and]
      cases Token.isRequired value.tokenList <;>
        cases Token.isConditionallyRequired value.tokenList <;> rfl

theorem conditionalFields_sharing :
    conditionalFields ⟨Branch.sharing (path :: others) rules,
        Branch.joint (Branch.sharing (path :: others) rules)⟩ =
      (flatFields rules).map (FieldRules.across (path :: others)) := by
  rw [conditionalFields, flatFields, OrderedMap.entries_eq, keys_joint_sharing,
    OrderedMap.entries_eq rules, List.map_filterMap]
  simp only [List.filterMap_filterMap]
  refine List.filterMap_congr fun key member => ?_
  have joined : key ∈ (Branch.joint (Branch.sharing (path :: others) rules)).keys := by
    rwa [keys_joint_sharing]
  rw [← OrderedMap.contains_iff, OrderedMap.contains, Option.isSome_iff_exists] at member joined
  obtain ⟨value, found⟩ := member
  obtain ⟨joint, there⟩ := joined
  have tokens := Value.tokenList_of_tokens (Branch.tokens_of_get?_joint there)
  rw [tokensAt_sharing (path :: others) found] at tokens
  rw [found, there]
  exact joint?_sharing path others found tokens

end

/-! ## The parameters -/

theorem sameReading_repeated (n : Nat) (tokens : List Token) :
    SameReading tokens (repeated (n + 1) tokens) where
  upload := Upload.ofTokens?_repeated n tokens
  type := FieldType.ofTokens_repeated n tokens
  format := Format.ofTokens?_repeated n tokens
  bounds := boundsOf_repeated n tokens
  pattern := Pattern.ofTokens?_repeated n tokens
  sample := Example.ofField_repeated n tokens
  description := Description.ofField_repeated n tokens

/-- The first token that stands for an enumeration stands in the first copy. -/
theorem lookups_repeated (parse : Source.Parser) (origin : Origin) (n : Nat)
    (tokens : List Token) :
    Alike (Registry.AgreeOn parse fun _ => True) (Registry.AgreeOn parse fun _ => True) Eq
      (origin.enumeration? tokens) (origin.enumeration? (repeated (n + 1) tokens)) := by
  refine (EnumReference.first?_settles tokens).alike
    (EnumReference.first?_settles (repeated (n + 1) tokens)) fun r r' agree => ?_
  rw [findSome?_repeated]
  exact EnumReference.findSome?_referent_congr fun _ _ name _ => agree.known name trivial

def Description.notes (tokens : List Token) (type : FieldType) : List String :=
  let lengths := if type = .string then lengthNotes tokens else []
  (if lengths.isEmpty then [] else [", ".intercalate lengths]) ++ clauses tokens

/-- A description that is made from rules is the label of its field, perhaps with notes. -/
theorem ofField_cases (field : String) (tokens : List Token) (type : FieldType)
    (enumeration : Option Enumeration) :
    Description.ofField field tokens type enumeration = FieldName.label field ∨
      ∃ text note, Description.ofField field tokens type enumeration =
        Description.withNote text note := by
  change (if (Description.notes tokens type).isEmpty then _ else _) = _ ∨
    ∃ text note, (if (Description.notes tokens type).isEmpty then _ else _) = _
  cases (Description.notes tokens type).isEmpty with
  | true =>
    cases enumeration with
    | none => exact .inl rfl
    | some e => exact .inr ⟨FieldName.label field, e.shortName, rfl⟩
  | false => exact .inr ⟨_, _, rfl⟩

theorem varying_ofField (field : String) (branches : Nat) (tokens : List Token)
    (type : FieldType) (enumeration : Option Enumeration) :
    Description.varying field branches (Description.ofField field tokens type enumeration) =
      if branches ≤ 1 then Description.ofField field tokens type enumeration
      else Description.ofField field tokens type enumeration ++ " (rules vary by condition)" := by
  have filled : (if (Description.ofField field tokens type enumeration).isEmpty then
      FieldName.label field else Description.ofField field tokens type enumeration) =
        Description.ofField field tokens type enumeration := by
    rcases ofField_cases field tokens type enumeration with label | ⟨text, note, noted⟩
    · rw [label, ite_self]
    · rw [noted, if_neg (by simp [Description.withNote])]
  simp only [Description.varying, filled]
  by_cases several : branches ≤ 1
  · rw [if_pos several, if_neg (by omega)]
  · rw [if_neg several, if_pos (by omega)]

/-- A field of a rule set gets the parameter across paths that its own parameter tells. -/
theorem dress_across {field : FieldRules} {origin : Origin} {paths : List (List Condition)}
    {q : Parameter} (flat : field.branches = 0) (nonempty : paths ≠ [])
    (yields : ((FieldRules.bare field.name field.tokens).parameter origin).Yields q) :
    (field.across paths).dress origin q = (field.dress origin q).across paths origin := by
  have named : q.name = field.name := (describes_of_parameter yields).name
  have counted : paths.length ≠ 0 := mt List.length_eq_zero_iff.mp nonempty
  have described : (if q.upload.isSome || (origin.label? field.name).isSome then q.description
      else (field.across paths).remark q.description) =
      if q.upload.isSome || (origin.label? field.name).isSome || paths.length ≤ 1 then q.description
      else q.description ++ " (rules vary by condition)" := by
    cases upload : q.upload with
    | some upload => rfl
    | none =>
      cases label : origin.label? field.name with
      | some label => rfl
      | none =>
        obtain ⟨type, enumeration, text⟩ := description_of_bare yields upload label
        have remarked : (field.across paths).remark q.description =
            if paths.length ≤ 1 then q.description
            else q.description ++ " (rules vary by condition)" := by
          rw [FieldRules.remark, if_neg (show (field.across paths).branches ≠ 0 from counted), text]
          exact varying_ofField field.name paths.length field.tokens type enumeration
        simp [remarked]
  have plain : field.remark q.description = q.description := by
    rw [FieldRules.remark, if_pos flat]
  simp only [FieldRules.dress, Parameter.across, named, plain, ite_self, ← described]
  rfl

theorem branches_of_flat {key : Key} {value : Value} {field : FieldRules}
    (found : FieldRules.flat? key value = some field) : field.branches = 0 := by
  obtain ⟨name, -, found⟩ := Option.bind_eq_some_iff.mp found
  unfold FieldRules.ofTokens? at found
  split at found
  · cases found
  · cases found
    rfl

/-- A field that is required across paths has the same confirmation. -/
theorem withConfirmation_across (path : List Condition) (others : List (List Condition))
    (origin : Origin) (p : Parameter) :
    (p.across (path :: others) origin).withConfirmation =
      p.across (path :: others) origin :: p.withConfirmation.tail := by
  have confirmed : Token.has ["confirmed"] (p.across (path :: others) origin).tokens =
      Token.has ["confirmed"] p.tokens := Token.has_repeated others.length p.tokens _
  rw [Parameter.withConfirmation, Parameter.withConfirmation, confirmed]
  split
  · rfl
  · rfl

/-- Rules that have parameters can be joined, unless those of a field that is no input cannot be
written. -/
theorem exists_joint_of_sharing {rules : RuleSet} {origin : Origin} {ps : List Parameter}
    (paths : List (List Condition)) (yields : (Parameter.ofRuleSet rules origin).Yields ps)
    (others : ∀ entry ∈ rules.entries, entry.1.inputName? = none → entry.2.writable = true) :
    ∃ found, ConditionalRules.ofBranches (Branch.sharing paths rules) = .ok found := by
  refine ⟨_, Branch.ofBranches_of_writable fun b member entry own => ?_⟩
  obtain ⟨path, -, rfl⟩ := List.mem_map.mp member
  cases named : entry.1.inputName? with
  | none => exact others entry own named
  | some name =>
    exact Parameter.written_of_ofRuleSet yields entry own (Option.isSome_of_eq_some named)

/-- A confirmed address, a number with a condition, and an upload. -/
def signUp : RuleSet :=
  .ofList [(.text "email", .text "required|email|max:64|confirmed"),
    (.text "age", .text "integer|between:18,99|required_with:email"),
    (.text "photo", .list [.text "image", .text "mimes:png,jpg", .text "max:512"])]

end RequestSchema
