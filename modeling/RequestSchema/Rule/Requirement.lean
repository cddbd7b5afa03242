import RequestSchema.Rule.Token

/-!
Requirement: whether the rules of a field make it required, require it under a condition, or exclude
it from the request.
-/
namespace RequestSchema

open RequestSchema.Text

/-- What a conditional rule does to its field when its condition holds. -/
inductive Effect where
  | required
  | prohibited
  | exclude
  deriving DecidableEq, Repr

namespace Effect

def name : Effect → String
  | required => "required"
  | prohibited => "prohibited"
  | exclude => "exclude"

def all : List Effect := [required, prohibited, exclude]

end Effect

def conditionWords : List String :=
  ["if", "unless", "with", "without", "with_all", "without_all"]

def Effect.ofRuleName? (name : String) : Option Effect :=
  Effect.all.find? fun effect =>
    conditionWords.any fun word => name = effect.name ++ "_" ++ word

/-- A conditional rule of a field. -/
structure ConditionalClause where
  name : String
  parameters : String
  text : String
  deriving DecidableEq, Repr

namespace ConditionalClause

def ofToken? (token : Token) : Option ConditionalClause :=
  if (Effect.ofRuleName? token.name).isSome then
    some ⟨token.name, token.parameters, token.text⟩
  else none

def parameterList (clause : ConditionalClause) : List String :=
  if clause.parameters.isEmpty then [] else (split ',' clause.parameters).map trim

def hasEffect (effect : Effect) (clause : ConditionalClause) : Bool :=
  (afterStart? (effect.name ++ "_") clause.name).isSome

def toValue (clause : ConditionalClause) : Value :=
  .record [("type", .text clause.name), ("parameters", .text clause.parameters),
    ("full_rule", .text clause.text)]

end ConditionalClause

namespace Token

/-- Whether a token makes its field required in every case. -/
def isRequired (tokens : List Token) : Bool := has ["required"] tokens

/-- Whether a token makes its field required under a condition. -/
def isConditionallyRequired (tokens : List Token) : Bool :=
  tokens.any fun token => Effect.ofRuleName? token.name = some .required

/-- Whether a token excludes its field in every case. -/
def isExcluded (tokens : List Token) : Bool := has ["exclude"] tokens

def clauses (tokens : List Token) : List ConditionalClause :=
  tokens.filterMap ConditionalClause.ofToken?

end Token

end RequestSchema
