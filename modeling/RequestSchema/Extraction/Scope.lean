import RequestSchema.Diagnostic
import RequestSchema.Extraction.RuleValue

/-!
Rule sets of expressions: arrays from fields to rules, put together by variables, unions, merging
calls and helper methods. A scope holds the rule sets of the variables that have been assigned.
-/
namespace RequestSchema.Extraction

open RequestSchema.Text RequestSchema.Source

abbrev Scope := OrderedMap String RuleSet

/-- The rule sets that helper methods return, by name; a method that is not followed has none. -/
abbrev Helpers := String → Logged (Option RuleSet)

def variableName (text : String) : String := String.ofList (text.toList.dropWhile (· == '$'))

def mergingFunctions : List String := ["array_merge", "array_replace"]

/-- The left operand with the fields of the right one that it lacks; none when neither is a rule
set. -/
def unionOf (left right : Option RuleSet) : Option RuleSet :=
  match left, right with
  | none, none => none
  | left, right => some ((left.getD .empty).union (right.getD .empty))

mutual

def ruleSet? (helpers : Helpers) (scope : Scope) : Expr → Logged (Option RuleSet)
  | .parens _ inner => ruleSet? helpers scope inner
  | .var text => return scope.get? (variableName text)
  | .array _ entries => some <$> entryRules helpers scope entries .empty
  | .call _ callee arguments =>
      if mergingFunctions.contains (lower (trimChar '\\' callee)) then
        some <$> mergedRules helpers scope arguments .empty
      else return none
  | .method _ receiver name _ =>
      if receiver.text = "$this" && !name.isEmpty then helpers name else return none
  | .select _ results => some <$> firstRules helpers scope results
  | .ternary _ => return some .empty
  | .binary _ operator left right =>
      if operator = "+" then do
        let a ← ruleSet? helpers scope left
        let b ← ruleSet? helpers scope right
        return unionOf a b
      else return none
  | _ => return none

/-- A rule set to which the entries of an array are written in order. -/
def entryRules (helpers : Helpers) (scope : Scope) : List Entry → RuleSet → Logged RuleSet
  | [], rules => return rules
  | .item _ :: rest, rules => entryRules helpers scope rest rules
  | .spread value :: rest, rules => do
      let spread ← ruleSet? helpers scope value
      entryRules helpers scope rest (rules.update (spread.getD .empty))
  | .pair key value :: rest, rules => do
      match (← (fieldName? key : Except Fault (Option String))).filter (!·.isEmpty) with
      | none => entryRules helpers scope rest rules
      | some field =>
          match ← (ruleValue? value : Except Fault (Option Value)) with
          | none => entryRules helpers scope rest rules
          | some v => entryRules helpers scope rest (rules.insert (.text field) v)

/-- A rule set to which the rule sets of some expressions are written in order. -/
def mergedRules (helpers : Helpers) (scope : Scope) : List Expr → RuleSet → Logged RuleSet
  | [], rules => return rules
  | e :: rest, rules => do
      let more ← ruleSet? helpers scope e
      mergedRules helpers scope rest (rules.update (more.getD .empty))

def firstRules (helpers : Helpers) (scope : Scope) : List Expr → Logged RuleSet
  | [] => return .empty
  | e :: _ => do return (← ruleSet? helpers scope e).getD .empty

end

/-- The scope after an expression has been evaluated as a statement. An assignment of something that
is no rule set removes the variable. -/
def assign (helpers : Helpers) (e : Expr) (scope : Scope) : Logged Scope :=
  match e with
  | .assign _ (.var text) value => do
      let name := variableName text
      match ← ruleSet? helpers scope value with
      | some rules => return scope.insert name rules
      | none => return scope.erase name
  | .assign _ (.index _ (.var text) (some key)) value => do
      match ← (fieldName? key : Except Fault (Option String)) with
      | none => return scope
      | some field =>
          match ← (ruleValue? value : Except Fault (Option Value)) with
          | none => return scope
          | some v =>
              return scope.modifyAt (variableName text) .empty fun rules =>
                rules.insert (.text field) v
  | .augment _ operator (.var text) value =>
      if operator = "+=" then do
        match ← ruleSet? helpers scope value with
        | none => return scope
        | some added =>
            return scope.modifyAt (variableName text) .empty fun rules => rules.union added
      else return scope
  | _ => return scope

def rulesContext : String := "RulesExtractor"

/-- The rule set that a method returns with an expression; one that cannot be read is reported and
counts as empty. -/
def returnedRules (label : String) (helpers : Helpers) (line : Nat) (value : Option Expr)
    (scope : Scope) : Logged RuleSet :=
  match value with
  | none => return .empty
  | some e => do
      let e := e.unwrap
      let report (message kind : String) : Logged Unit :=
        .warn rulesContext message [("error_type", .text kind), ("file_path", .text label),
          ("line", .int line),
          ("expression", .text (String.ofList (e.compactText.toList.take 200)))]
      let rules ← ruleSet? helpers scope e
      match e, rules with
      | .ternary _, _ => report "Ternary rule returns are not evaluated" "unsupported_ternary_rules"
      | _, none => report "Unsupported rules() return expression" "unsupported_rules_expression"
      | _, _ => pure ()
      return rules.getD .empty

end RequestSchema.Extraction
