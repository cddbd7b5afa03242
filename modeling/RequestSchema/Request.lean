import RequestSchema.Anonymous.Resolution
import RequestSchema.Parameter.Build

/-!
Analysing the requests of a source: the rules of a class, their branches, and the parameters that
they describe.
-/
namespace RequestSchema

open RequestSchema.Source RequestSchema.Extraction

/-- A source with what its caller knows about it. -/
structure SourceUnit where
  text : String
  label : String := Source.noLabel
  space : Option String := none
  aliases : OrderedMap String String := .empty

/-- A class that has been found in a source, with the names that its code uses. -/
structure Located where
  body : ClassBody
  space : Option String
  aliases : OrderedMap String String

namespace SourceUnit

def context : String := "FormRequestAnalyzer"

/-- The class with a name. The enumerations of its source become known. -/
def locate (u : SourceUnit) (name : String) : Analysis (Option Located) := do
  match ← Analysis.parse u.text (some u.label) with
  | none => return none
  | some tree =>
      match tree.class? name with
      | none =>
          .warn context ("Class " ++ name ++ " not found")
            [("error_type", .text "class_node_not_found"), ("class_name", .text name),
              ("file_path", .text u.label)]
          return none
      | some body =>
          let _ ← Analysis.registerTree tree
          return some ⟨body, (u.space.filter (!·.isEmpty)).or tree.namespace?,
            tree.aliases.update u.aliases⟩

/-- The rules of a class; a class that is not found, or has none, has no fields. -/
def rules (settings : Settings) (u : SourceUnit) (name : String) : Analysis RuleSet := do
  match ← u.locate name with
  | none => return .empty
  | some found =>
      match found.body.method? settings.rulesMethod with
      | none => return .empty
      | some m => (methodRules u.label found.body settings.helperDepth m : Logged RuleSet)

def branches (settings : Settings) (u : SourceUnit) (name : String) :
    Analysis ConditionalRules := do
  match ← u.locate name with
  | none => return {}
  | some found =>
      match found.body.method? settings.rulesMethod with
      | none => return {}
      | some m =>
          (methodBranches u.label found.body settings.helperDepth settings.predicateWords m :
            Logged ConditionalRules)

def parameters (settings : Settings) (u : SourceUnit) (name : String) (conditional : Bool) :
    Analysis (List Parameter) := do
  match ← u.locate name with
  | none => return []
  | some found =>
      match found.body.method? settings.rulesMethod with
      | none => return []
      | some m =>
          let origin : Origin :=
            { space := found.space
              aliases := found.aliases
              labels := Anonymous.textsOf found.body "attributes"
              room := settings.room }
          if conditional then
            let branches ←
              (methodBranches u.label found.body settings.helperDepth settings.predicateWords m :
                Logged ConditionalRules)
            Parameter.ofConditionalRules branches origin
          else
            let rules ← (methodRules u.label found.body settings.helperDepth m : Logged RuleSet)
            Parameter.ofRuleSet rules origin

end SourceUnit

namespace Anonymous

/-- The parameters of an anonymous class, from its rules or from their branches. -/
def parameters (settings : Settings) (factory : RequestFactory) (h : Handle)
    (conditional : Bool) : Analysis (List Parameter) := do
  let resolution ← resolve settings factory h conditional
  let (space, aliases) ← sourceNames h
  let origin : Origin := { space, aliases, labels := resolution.labels, room := settings.room }
  if conditional then
    Parameter.ofConditionalRules (← (resolution.branches : Except Fault ConditionalRules)) origin
  else Parameter.ofRuleSet resolution.rules origin

end Anonymous

end RequestSchema
