import RequestSchema.Condition
import RequestSchema.Enumeration
import RequestSchema.Rule.Bounds
import RequestSchema.Rule.Format
import RequestSchema.Rule.Requirement
import RequestSchema.Rule.Upload

/-!
Parameters: the published description of a field of a request.
-/
namespace RequestSchema

/-- What a parameter tells about the conditions of its rules: a conditional rule, or the rules on
one path through the method. -/
inductive ConditionalRule where
  | clause (c : ConditionalClause)
  | path (conditions : List Condition) (tokens : List Token)

/-- A parameter of a request. A null example stands for no example. -/
structure Parameter where
  name : String
  type : FieldType := .string
  format : Option Format := none
  required : Bool := false
  conditionallyRequired : Bool := false
  conditionalRules : List ConditionalRule := []
  tokens : List Token := []
  description : String := ""
  example? : Value := .null
  pattern : Option String := none
  bounds : Bounds := {}
  enumeration : Option Enumeration := none
  upload : Option Upload := none

def Token.plain (token : Token) : Value := token.toValue.plainLeaf

def ConditionalRule.toValue : ConditionalRule → Value
  | clause c => c.toValue
  | path conditions tokens => .record [("conditions", .list (conditions.map Condition.toValue)),
      ("rules", .list (tokens.map Token.plain))]

namespace Bounds

/-- The bounds that are set, each under its name. -/
def entries (b : Bounds) : List (String × Value) :=
  let count (name : String) (bound : Option Int) := (bound.map fun n => (name, Value.int n)).toList
  let value (name : String) (bound : Option Number) :=
    (bound.map fun n => (name, Value.number n)).toList
  count "min_length" b.minLength ++ count "max_length" b.maxLength ++
    value "minimum" b.minimum ++ value "maximum" b.maximum ++
    value "exclusive_minimum" b.exclusiveMinimum ++
    value "exclusive_maximum" b.exclusiveMaximum ++
    count "min_items" b.minItems ++ count "max_items" b.maxItems

def publishedName : String → String
  | "min_length" => "minLength"
  | "max_length" => "maxLength"
  | "exclusive_minimum" => "exclusiveMinimum"
  | "exclusive_maximum" => "exclusiveMaximum"
  | "min_items" => "minItems"
  | "max_items" => "maxItems"
  | name => name

end Bounds

namespace Parameter

def isUpload (p : Parameter) : Bool := p.type = .file && p.upload.isSome

/-- The plain data of a parameter: what is not known is left out. -/
def toValue (p : Parameter) : Value :=
  .record ([("name", .text p.name), ("in", .text "body"), ("type", .text p.type.name),
      ("required", .bool p.required), ("conditionalRequired", .bool p.conditionallyRequired),
      ("description", .text p.description), ("validation", .list (p.tokens.map Token.plain))] ++
    (p.format.map fun f => ("format", Value.text f.name)).toList ++
    (match p.example? with
      | .null => []
      | v => [("example", v)]) ++
    (p.pattern.map fun s => ("pattern", Value.text s)).toList ++
    (p.bounds.entries.map fun (name, v) => (Bounds.publishedName name, v)) ++
    (p.enumeration.map fun e => ("enum", e.toValue)).toList ++
    (p.upload.map fun u => ("fileInfo", u.toValue)).toList ++
    (if p.conditionalRules.isEmpty then []
      else [("conditionalRules", .list (p.conditionalRules.map ConditionalRule.toValue))]))

end Parameter

end RequestSchema
