import RequestSchema.Condition
import RequestSchema.Rule.Token

/-!
Branches: the rule sets that a method can return, each with the conditions of its path, and the rule
set that joins them.
-/
namespace RequestSchema

/-- A path through a method: the conditions on it, outermost first, and the rules that it returns.
-/
structure Branch where
  conditions : List Condition
  rules : RuleSet

namespace Branch

/-- The chance of a path when each of its conditions holds as often as not. The power of two must
not exceed the finite floating point numbers. -/
def chance (conditions : Nat) : Except Fault Binary64 :=
  if conditions < 1024 then .ok (.round false 1 (2 ^ conditions)) else .error .integerTooLarge

/-- The chance of a branch; the number of its conditions is checked when it is made. -/
def probability (b : Branch) : Binary64 := .round false 1 (2 ^ b.conditions.length)

def make (conditions : List Condition) (rules : RuleSet) : Except Fault Branch := do
  let _ ← chance conditions.length
  return ⟨conditions, rules⟩

def isDefault (b : Branch) : Bool := b.conditions.isEmpty

def toValue (b : Branch) : Value :=
  .record [("conditions", .list (b.conditions.map Condition.toValue)),
    ("rules", RuleSet.plain b.rules), ("probability", .number (.float b.probability))]

/-- A merged rule set with the tokens of one more field value at its end. -/
def addTokens (merged : RuleSet) (field : Key) (tokens : List Token) : RuleSet :=
  merged.modifyAt field (.list []) fun value =>
    .list (value.items?.getD [] ++ tokens.map Token.toValue)

/-- The rule set that lists, for every field, the tokens of all branches in order. -/
def merge (branches : List Branch) : Except Fault RuleSet :=
  branches.foldlM (fun merged branch => branch.rules.entries.foldlM
    (fun merged entry => do return addTokens merged entry.1 (← entry.2.tokens)) merged) .empty

end Branch

/-- The branches of a method and their joint rule set. -/
structure ConditionalRules where
  branches : List Branch := []
  merged : RuleSet := .empty

namespace ConditionalRules

/-- The branches with the rule set that joins them. -/
def ofBranches (branches : List Branch) : Except Fault ConditionalRules := do
  return ⟨branches, ← Branch.merge branches⟩

def hasConditions (c : ConditionalRules) : Bool := c.branches.any fun b => !b.conditions.isEmpty

def toValue (c : ConditionalRules) : Value :=
  .record [("rules_sets", .list (c.branches.map Branch.toValue)),
    ("merged_rules", RuleSet.plain c.merged), ("has_conditions", .bool c.hasConditions)]

end ConditionalRules

end RequestSchema
