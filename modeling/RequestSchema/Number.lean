import RequestSchema.Fault
import RequestSchema.Number.Decimal
import RequestSchema.Number.Shortest

/-!
Numbers of rule parameters: integers without bound and binary floating point numbers. They compare
by their exact values, whatever their kinds.
-/
namespace RequestSchema

/-- An integer or a floating point number. -/
inductive Number where
  | int (n : Int)
  | float (x : Binary64)
  deriving DecidableEq, Repr

def Binary64.truncate (x : Binary64) : Except Fault Int :=
  match x with
  | .nan => .error .undefinedInteger
  | x => match x.truncate? with
    | some n => .ok n
    | none => .error .infiniteInteger

namespace Number

/-- The numeral of a number, however long it is. -/
def numeral : Number → String
  | int n => toString n
  | float x => x.text

/-- Whether a number can be written: no integer is that has more digits than are read. -/
def isWritable : Number → Bool
  | int n => (Nat.toDigits 10 n.natAbs).length ≤ Decimal.digitLimit
  | float _ => true

def text (n : Number) : Except Fault String :=
  if n.isWritable then .ok n.numeral else .error .numeralTooLong

def neg : Number → Number
  | int n => int (-n)
  | float x => float x.neg

def isNonzero : Number → Bool
  | int n => n != 0
  | float (.finite _ m _) => m != 0
  | float _ => true

def lt : Number → Number → Bool
  | int a, int b => a < b
  | int a, float b => Binary64.intLt a b
  | float a, int b => Binary64.ltInt a b
  | float a, float b => Binary64.lt a b

/-- The nearest floating point number. -/
def toFloat : Number → Except Fault Binary64
  | int n => match Binary64.ofInt n with
    | .infinite _ => .error .integerTooLarge
    | x => .ok x
  | float x => .ok x

def truncate : Number → Except Fault Int
  | int n => .ok n
  | float x => x.truncate

def ceil : Number → Except Fault Int
  | int n => .ok n
  | float .nan => .error .undefinedInteger
  | float x => match x.ceil? with
    | some n => .ok n
    | none => .error .infiniteInteger

def floor : Number → Except Fault Int
  | int n => .ok n
  | float .nan => .error .undefinedInteger
  | float x => match x.floor? with
    | some n => .ok n
    | none => .error .infiniteInteger

/-- The number that a rule parameter denotes: an integer unless a point or the letter `e` makes it a
floating point number. -/
def parse? (s : String) : Option Number :=
  let s := Text.trim s
  if s.isEmpty then none
  else if s.toList.contains '.' || (Text.lower s).toList.contains 'e' then
    (Decimal.float? s).map float
  else (Decimal.int? s).map int

end Number

end RequestSchema
