import RequestSchema.Extraction.Scope
import RequestSchema.Source.Outline

/-!
Rules of a method, read as if every block were entered: the statements are followed in order, and
the first return outside of all blocks ends the method. Helper methods are followed up to a depth,
and never into themselves.
-/
namespace RequestSchema.Extraction

open RequestSchema.Text RequestSchema.Source

/-- A statement that is no block, and whether it stands in one. -/
structure Step where
  statement : Stmt
  nested : Bool

mutual

def stepsOf (nested : Bool) : Stmt → List Step
  | .choice arms => armSteps arms
  | .block body => allSteps true body
  | .loop body rest => allSteps true body ++ allSteps true rest
  | .attempt body handlers => allSteps true body ++ allSteps true handlers
  | s => [⟨s, nested⟩]

def allSteps (nested : Bool) : List Stmt → List Step
  | [] => []
  | s :: rest => stepsOf nested s ++ allSteps nested rest

def armSteps : List Arm → List Step
  | [] => []
  | .arm _ body :: rest => allSteps true body ++ armSteps rest

end

/-- The rules after some steps: those of the last return that is reached. -/
def followSteps (label : String) (helpers : Helpers) :
    List Step → Scope → RuleSet → Logged RuleSet
  | [], _, rules => return rules
  | ⟨.expression e, _⟩ :: rest, scope, rules => do
      followSteps label helpers rest (← assign helpers e scope) rules
  | ⟨.result line value, nested⟩ :: rest, scope, _ => do
      let rules ← returnedRules label helpers line value scope
      if nested then followSteps label helpers rest scope rules else return rules
  | _ :: rest, scope, rules => followSteps label helpers rest scope rules

def bodyRules (label : String) (helpers : Helpers) (body : List Stmt) : Logged RuleSet :=
  followSteps label helpers (allSteps false body) .empty .empty

/-- The rules of the helper methods of a class, followed `depth` calls deep. A method that is being
followed is not entered again. -/
def helpersOf (label : String) (c : ClassBody) : Nat → List String → Helpers
  | 0, _, _ => return none
  | depth + 1, entered, name =>
      if entered.contains (lower name) then return none
      else match c.method? name with
        | none => return none
        | some m =>
            some <$> match m.body with
              | none => return .empty
              | some body => bodyRules label (helpersOf label c depth (lower name :: entered)) body

def helpersFor (label : String) (c : ClassBody) (depth : Int) (m : Method) : Helpers :=
  helpersOf label c depth.toNat [lower m.name]

def methodRules (label : String) (c : ClassBody) (depth : Int) (m : Method) : Logged RuleSet :=
  match m.body with
  | none => return .empty
  | some body => bodyRules label (helpersFor label c depth m) body

/-- The texts of the array that a method returns: of the first return with a value. -/
def methodTexts (m : Method) : OrderedMap String String :=
  let value? := (allSteps false (m.body.getD [])).findSome? fun step => match step.statement with
    | .result _ value => value
    | _ => none
  match value? with
  | none => .empty
  | some e => .ofList <| e.keyedValues.entries.filterMap fun (key, value) => match value with
      | .text s => some (key, s)
      | _ => none

end RequestSchema.Extraction
