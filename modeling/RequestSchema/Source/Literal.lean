import RequestSchema.Source.Quotation
import RequestSchema.Source.Tree
import RequestSchema.Value

/-!
Literals: expressions whose value can be read off the source.
-/
namespace RequestSchema.Source

open RequestSchema.Text

def digitsIn (base : Nat) (digits : List Char) : Int :=
  Decimal.ofDigits base (digits.map Quotation.hexValue)

/-- The value of an integer literal. A zero in front marks base eight, with a letter behind it base
sixteen, two or eight. -/
def integerLiteral? (text : String) : Option Int :=
  match (lower text).toList.filter (· != '_') with
  | '0' :: 'x' :: digits => some (digitsIn 16 digits)
  | '0' :: 'b' :: digits => some (digitsIn 2 digits)
  | '0' :: 'o' :: digits => some (digitsIn 8 digits)
  | '0' :: digit :: digits => some (digitsIn 8 (digit :: digits))
  | digits => Decimal.int? (String.ofList digits)

def floatLiteral? (text : String) : Option Binary64 :=
  Decimal.float? (String.ofList (text.toList.filter (· != '_')))

def truthConstant? (name : String) : Option Bool :=
  let word := lower (trimChar '\\' name)
  if word = "true" then some true else if word = "false" then some false else none

/-- The opposite of a number; other values have none. -/
def negated? : Value → Option Value
  | .number n => some (.number n.neg)
  | _ => none

mutual

/-- The value of a literal: a truth value, a number, a text, or the list of the values in an array.
Null and everything else has none. -/
def Expr.value? : Expr → Option Value
  | .string text => some (.text (Quotation.decodeText text))
  | .heredoc text => (Quotation.innerLines? text).map .text
  | .integer text => (integerLiteral? text).map .int
  | .float text => (floatLiteral? text).map fun x => .number (.float x)
  | .constant text => (truthConstant? text).map .bool
  | .parens _ inner => inner.value?
  | .array _ entries => some (.list (entryValues entries))
  | .unary text operand =>
      if text.toList.head? = some '-' then operand.value?.bind negated? else none
  | _ => none

/-- The values of the entries of an array, without keys, spreads and entries that have none. -/
def entryValues : List Entry → List Value
  | [] => []
  | .item value :: rest => value.value?.toList ++ entryValues rest
  | .pair _ value :: rest => value.value?.toList ++ entryValues rest
  | .spread _ :: rest => entryValues rest

end

namespace Expr

def stringValue? (e : Expr) : Option String :=
  match e.value? with
  | some (.text s) => some s
  | _ => none

def intValue? (e : Expr) : Option Int :=
  match e.value? with
  | some (.number (.int n)) => some n
  | _ => none

def numberValue? (e : Expr) : Option Number :=
  match e.value? with
  | some (.number n) => some n
  | _ => none

/-- The entries of an array whose keys are texts; a value that is no literal is null. -/
def keyedValues (e : Expr) : OrderedMap String Value :=
  match e.unwrap with
  | .array _ entries => .ofList <| entries.filterMap fun
      | .pair key value => key.stringValue?.map fun s => (s, value.value?.getD .null)
      | _ => none
  | _ => .empty

end Expr

end RequestSchema.Source
