import RequestSchema.Branch
import RequestSchema.Enumeration.Reference
import RequestSchema.Field.Description
import RequestSchema.Field.Example
import RequestSchema.Parameter
import RequestSchema.Rule.Pattern

/-!
Building parameters from the rules of fields. A rule set gives one parameter for each of its fields;
branches give one for each field that they mention, which is required only where every branch
requires it. A confirmed field is followed by its confirmation.
-/
namespace RequestSchema

/-- Where rules were written: what is needed to find the classes that they name, the labels of
fields, and how many characters of an example the memory holds. -/
structure Origin where
  space : Option String := none
  aliases : OrderedMap String String := .empty
  labels : OrderedMap Key Value := .empty
  room : Int := Example.longestText

namespace Origin

def label? (origin : Origin) (field : String) : Option String :=
  (origin.labels.get? (.text field)).bind Value.text?

def enumeration? (origin : Origin) (tokens : List Token) : Analysis (Option Enumeration) :=
  EnumReference.first? origin.space origin.aliases tokens

end Origin

/-- What is known of a field before its parameter is built. `branches` counts the branches that
mention it, where there are any. -/
structure FieldRules where
  name : String
  tokens : List Token
  required : Bool
  conditionallyRequired : Bool
  conditionalRules : List ConditionalRule
  branches : Nat := 0

namespace FieldRules

def uploadParameter (field : FieldRules) (origin : Origin) (upload : Upload) :
    Except Fault Parameter := do
  return { name := field.name
           type := .file
           format := some .binary
           required := field.required
           conditionallyRequired := field.conditionallyRequired
           conditionalRules := field.conditionalRules
           tokens := field.tokens
           description :=
             ← Description.ofUpload field.name upload (origin.label? field.name)
           upload := some upload }

def typeOf (tokens : List Token) (enumeration : Option Enumeration) : FieldType :=
  .ofTokens tokens ((enumeration.map Enumeration.fieldType).getD .string)

/-- The bounds of a field that is no upload. Where the rules of a text state no length, those of a
password apply. -/
def boundsOf (type : FieldType) (tokens : List Token) : Except Fault Bounds := do
  let bounds ← Bounds.ofTokens type tokens
  if type = .string && bounds.minLength.isNone && bounds.maxLength.isNone then
    match ← PasswordRequirements.ofTokens? tokens with
    | some p => return { bounds with minLength := p.minLength, maxLength := p.maxLength }
    | none => return bounds
  else return bounds

/-- The description of a field that is no upload: its label, or one made from its rules. -/
def describe (field : FieldRules) (origin : Origin) (type : FieldType) : Analysis String := do
  match origin.label? field.name with
  | some label => return label
  | none =>
      let enumeration ← origin.enumeration? field.tokens
      let text := Description.ofField field.name field.tokens type enumeration
      return if field.branches = 0 then text
        else Description.varying field.name field.branches text

def parameter (field : FieldRules) (origin : Origin) : Analysis Parameter := do
  let enumeration ← origin.enumeration? field.tokens
  match ← (Upload.ofTokens? field.name field.tokens : Except Fault (Option Upload)) with
  | some upload => (field.uploadParameter origin upload : Except Fault Parameter)
  | none =>
      let type := typeOf field.tokens enumeration
      let format := Format.ofTokens? field.tokens
      let bounds ← (boundsOf type field.tokens : Except Fault Bounds)
      let description ← field.describe origin type
      let sample ←
        (Example.ofField origin.room field.name field.tokens type format enumeration :
          Except Fault Value)
      return { name := field.name
               type
               format
               required := field.required
               conditionallyRequired := field.conditionallyRequired
               conditionalRules := field.conditionalRules
               tokens := field.tokens
               description
               example? := sample
               pattern := Pattern.ofTokens? field.tokens
               bounds
               enumeration }

end FieldRules

namespace Parameter

/-- The parameter that repeats a field for confirmation. -/
def confirmation (p : Parameter) : Parameter :=
  let name := p.name ++ "_confirmation"
  { name
    type := p.type
    required := p.required
    tokens := (if p.required then [.rule "required"] else []) ++ [.rule ("same:" ++ p.name)]
    description := FieldName.label name
    bounds := { minLength := p.bounds.minLength, maxLength := p.bounds.maxLength } }

def withConfirmation (p : Parameter) : List Parameter :=
  if Token.has ["confirmed"] p.tokens then [p, p.confirmation] else [p]

/-- The parameters of the fields that some entries give, each of them read when it is its turn. -/
def ofEntries (origin : Origin) :
    List (Except Fault (Option FieldRules)) → Analysis (List Parameter)
  | [] => return []
  | entry :: rest => do
      match ← entry with
      | none => ofEntries origin rest
      | some field =>
          let p ← field.parameter origin
          return p.withConfirmation ++ (← ofEntries origin rest)

end Parameter

def Key.inputName? (key : Key) : Option String := key.name?.filter FieldName.isInput

namespace FieldRules

/-- The field with some tokens; none when they exclude it. -/
def ofTokens? (name : String) (tokens : List Token) : Option FieldRules :=
  if Token.isExcluded tokens then none
  else
    let required := Token.isRequired tokens
    let conditionallyRequired := Token.isConditionallyRequired tokens && !required
    let clauses := if conditionallyRequired then Token.clauses tokens else []
    some { name, tokens, required, conditionallyRequired, conditionalRules := clauses.map .clause }

/-- The field of a rule set under a key; none when the key names no input or its rules exclude it.
-/
def ofPair? (key : Key) (value : Value) : Except Fault (Option FieldRules) :=
  match key.inputName? with
  | none => .ok none
  | some name => do return ofTokens? name (← value.tokens)

end FieldRules

def Parameter.ofRuleSet (rules : RuleSet) (origin : Origin) : Analysis (List Parameter) :=
  ofEntries origin (rules.entries.map fun (key, value) => FieldRules.ofPair? key value)

/-- A branch with the tokens that it gives the fields of the request. -/
structure BranchTokens where
  conditions : List Condition
  fields : List (String × List Token)

namespace BranchTokens

/-- The field of a branch under a key, with its tokens; none when the key names no input. -/
def field? (key : Key) (value : Value) : Except Fault (Option (String × List Token)) :=
  match key.inputName? with
  | none => .ok none
  | some name => do return some (name, ← value.tokens)

def ofBranch (b : Branch) : Except Fault BranchTokens := do
  return ⟨b.conditions, ← b.rules.entries.filterMapM fun (key, value) => field? key value⟩

/-- The branches that mention a field, each with the tokens that it gives the field. -/
def mentions (branches : List BranchTokens) (name : String) :
    List (List Condition × List Token) :=
  branches.filterMap fun b => (b.fields.lookup name).map fun tokens => (b.conditions, tokens)

end BranchTokens

namespace FieldRules

/-- The field with some joint tokens that branches mention; none when the joint tokens exclude it.
-/
def ofMentions? (name : String) (branches : Nat) (mentions : List (List Condition × List Token))
    (tokens : List Token) : Option FieldRules :=
  if Token.isExcluded tokens then none
  else
    let required := mentions.length = branches &&
      mentions.all fun mention => Token.isRequired mention.2
    let somewhere := mentions.any fun mention => Token.isRequired mention.2
    some { name
           tokens
           required
           conditionallyRequired :=
             !required && (somewhere || Token.isConditionallyRequired tokens)
           conditionalRules := mentions.map fun mention => .path mention.1 mention.2
           branches := mentions.length }

/-- The field of a joint rule set under a key; none when the key is no text, no branch mentions it
or its joint rules exclude it. -/
def ofBranches? (branches : List BranchTokens) (key : Key) (value : Value) :
    Except Fault (Option FieldRules) :=
  match key.name? with
  | none => .ok none
  | some name =>
      let mentions := BranchTokens.mentions branches name
      if mentions.isEmpty then .ok none
      else do return ofMentions? name branches.length mentions (← value.tokens)

end FieldRules

namespace Branch

/-- The conditions and the rules that a value has: an object with both, or a mapping with rules. -/
def parts? : Value → Option (List Value × RuleSet)
  | .branch conditions rules _ =>
      rules.entries?.map fun rules => (conditions.items?.getD [], rules)
  | data => ((data.field? "rules").bind Value.entries?).map fun rules =>
      (((data.field? "conditions").bind Value.items?).getD [], rules)

/-- The branch that a value is, or that it describes. Conditions that are none are skipped. -/
def ofValue? (data : Value) : Except Fault (Option Branch) :=
  match parts? data with
  | none => .ok none
  | some (conditions, rules) => do
      return some ⟨(← conditions.mapM Condition.ofValue?).filterMap id, rules⟩

end Branch

/-- An entry of a list of rule sets: a branch, or plain data that may describe one. -/
inductive RuleSetEntry where
  | branch (b : Branch)
  | data (v : Value)

/-- The branch that an entry stands for. Data that describes none is malformed. -/
def RuleSetEntry.branch? : RuleSetEntry → Except Fault (Option Branch)
  | branch b => .ok (some b)
  | data v => Branch.ofValue? v

def RuleSetEntry.tokens? (entry : RuleSetEntry) : Except Fault (Option BranchTokens) := do
  match ← entry.branch? with
  | none => return none
  | some b => return some (← BranchTokens.ofBranch b)

/-- Rule sets with the rule set that joins them, as they are handed over. -/
structure ConditionalSource where
  ruleSets : List RuleSetEntry
  merged : RuleSet

namespace ConditionalSource

def ofRules (rules : ConditionalRules) : ConditionalSource :=
  ⟨rules.branches.map .branch, rules.merged⟩

/-- The source that plain data describes: a list of rule sets and a joint one. -/
def ofValue? (data : Value) : Option ConditionalSource := do
  let ruleSets ← (← data.field? "rules_sets").items?
  let merged ← (← data.field? "merged_rules").entries?
  return ⟨ruleSets.map .data, merged⟩

end ConditionalSource

namespace Parameter

/-- The parameters of rule sets and their joint rule set. All rule sets are read before the first
parameter is built. -/
def ofConditionalSource (source : ConditionalSource) (origin : Origin) :
    Analysis (List Parameter) := do
  let branches ← (source.ruleSets.filterMapM RuleSetEntry.tokens? : Except Fault _)
  ofEntries origin (source.merged.entries.map fun (key, value) =>
    FieldRules.ofBranches? branches key value)

def ofConditionalRules (rules : ConditionalRules) (origin : Origin) : Analysis (List Parameter) :=
  ofConditionalSource (.ofRules rules) origin

/-- The parameters of the rules in plain data; data that are no mapping have none. -/
def ofRuleData (data : Value) (origin : Origin) : Analysis (List Parameter) :=
  match data.entries? with
  | some rules => ofRuleSet rules origin
  | none => return []

/-- The parameters of the branches in plain data; data that lack the rule sets or the joint one have
none. -/
def ofConditionalData (data : Value) (origin : Origin) : Analysis (List Parameter) :=
  match ConditionalSource.ofValue? data with
  | some source => ofConditionalSource source origin
  | none => return []

end Parameter

end RequestSchema
