import RequestSchema.Field.Type

/-!
Bounds: the limits that rules put on the length of a text, the value of a number or the count of the
items of an array. A later rule replaces the limits of an earlier one.
-/
namespace RequestSchema

/-- Limits of one quantity, inclusive (`lower`, `upper`) and exclusive (`above`, `below`). -/
structure Limits (α : Type) where
  lower : Option α := none
  upper : Option α := none
  above : Option α := none
  below : Option α := none
  deriving DecidableEq, Repr

/-- The published limits of a field. Lengths and counts are integers; limits of a value keep the
kind of number in which they are written. -/
structure Bounds where
  minLength : Option Int := none
  maxLength : Option Int := none
  minItems : Option Int := none
  maxItems : Option Int := none
  minimum : Option Number := none
  maximum : Option Number := none
  exclusiveMinimum : Option Number := none
  exclusiveMaximum : Option Number := none
  deriving DecidableEq, Repr

def Token.boundNames : List String :=
  ["min", "max", "size", "between", "gt", "gte", "lt", "lte"]

namespace Limits

variable {α : Type}

/-- The limits after a rule with parameters. Only a numeric quantity knows `gte`, `lte`, `gt` and
`lt`; `between` needs two parameters. -/
def restrict (numeric : Bool) (name : String) (values : List α) (limits : Limits α) : Limits α :=
  match values with
  | [] => limits
  | v :: rest =>
      if name = "min" || (numeric && name = "gte") then { limits with lower := some v }
      else if name = "max" || (numeric && name = "lte") then { limits with upper := some v }
      else if name = "size" then { limits with lower := some v, upper := some v }
      else if name = "between" then
        match rest with
        | w :: _ => { limits with lower := some v, upper := some w }
        | [] => limits
      else if numeric && name = "gt" then { limits with above := some v }
      else if numeric && name = "lt" then { limits with below := some v }
      else limits

/-- The parameters of a rule that states a limit and whose parameters are all numbers. -/
def parameters? (token : Token) : Option (List Number) :=
  if Token.boundNames.contains token.name then token.numbers? else none

/-- The limits of a numeric value. -/
def ofValues (tokens : List Token) : Limits Number :=
  tokens.foldl (fun limits token => match parameters? token with
    | some values => limits.restrict true token.name values
    | none => limits) {}

/-- The limits of a count. The parameters of every rule that states a limit must have an integer
part, also where the rule says nothing about a count. -/
def ofCounts (tokens : List Token) : Except Fault (Limits Int) :=
  tokens.foldlM (fun limits token => match parameters? token with
    | some values => do
        let counts ← values.mapM Number.truncate
        return limits.restrict false token.name counts
    | none => .ok limits) {}

end Limits

namespace Bounds

/-- The bounds that the rules of a field put on values of a type. -/
def ofTokens (type : FieldType) (tokens : List Token) : Except Fault Bounds :=
  match type with
  | .string => do
      let limits ← Limits.ofCounts tokens
      return { minLength := limits.lower, maxLength := limits.upper }
  | .array => do
      let limits ← Limits.ofCounts tokens
      return { minItems := limits.lower, maxItems := limits.upper }
  | .integer | .number =>
      let limits := Limits.ofValues tokens
      .ok { minimum := limits.lower, maximum := limits.upper,
            exclusiveMinimum := limits.above, exclusiveMaximum := limits.below }
  | _ => .ok {}

end Bounds

end RequestSchema
