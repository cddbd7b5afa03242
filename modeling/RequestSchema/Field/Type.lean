import RequestSchema.Rule.Token

/-!
Types of request fields.
-/
namespace RequestSchema

/-- The type of a field. Callers may name further types, about which nothing is known. -/
inductive FieldType where
  | string
  | integer
  | number
  | boolean
  | array
  | file
  | other (name : String)
  deriving DecidableEq, Repr

namespace FieldType

def name : FieldType → String
  | string => "string"
  | integer => "integer"
  | number => "number"
  | boolean => "boolean"
  | array => "array"
  | file => "file"
  | other name => name

def ofName : String → FieldType
  | "string" => string
  | "integer" => integer
  | "number" => number
  | "boolean" => boolean
  | "array" => array
  | "file" => file
  | name => other name

/-- The type that the rules of a field ask for, when neither an upload nor an enumeration decides
it; `fallback` is the type of a field without such a rule. -/
def ofTokens (tokens : List Token) (fallback : FieldType) : FieldType :=
  if Token.has Token.integerNames tokens then integer
  else if Token.has Token.numberNames tokens then number
  else if Token.has Token.booleanNames tokens then boolean
  else if Token.has ["array"] tokens then array
  else fallback

end FieldType

end RequestSchema
