import RequestSchema.Enumeration
import RequestSchema.Field.Name
import RequestSchema.Rule.Format

/-!
Examples: a value that a client could send for a field, chosen from its enumeration, its type, its
rules and its name.
-/
namespace RequestSchema.Example

open RequestSchema.Text

/-- What the letters of a date pattern stand for on the first of January 2024 at half past two. -/
def dateParts : List (Char × String) :=
  [('d', "01"), ('D', "Mon"), ('j', "1"), ('l', "Monday"), ('N', "1"), ('S', "st"), ('w', "1"),
    ('z', "0"), ('W', "01"), ('F', "January"), ('m', "01"), ('M', "Jan"), ('n', "1"), ('t', "31"),
    ('L', "1"), ('o', "2024"), ('Y', "2024"), ('y', "24"), ('a', "pm"), ('A', "PM"), ('B', "645"),
    ('g', "2"), ('G', "14"), ('h', "02"), ('H', "14"), ('i', "30"), ('s', "00"), ('u', "000000"),
    ('v', "000"), ('e', "UTC"), ('I', "0"), ('O', "+0000"), ('P', "+00:00"), ('p', "Z"),
    ('T', "UTC"), ('Z', "0"), ('c', "2024-01-01T14:30:00+00:00"),
    ('r', "Mon, 01 Jan 2024 14:30:00 +0000"), ('U', "1704119400")]

/-- The sample moment in a date pattern. A backslash makes the character after it literal. -/
def renderDate : List Char → String
  | [] => ""
  | '\\' :: [] => ""
  | '\\' :: c :: rest => c.toString ++ renderDate rest
  | c :: rest => ((dateParts.lookup c).getD c.toString) ++ renderDate rest

/-- Examples for fields whose name holds a word; the first entry that applies decides. -/
def byWord : List (String × Value) :=
  let amount : Value := .number (.float (.ofDecimal false 9999 (-2)))
  [("name", .text "John Doe"), ("email", .text "user@example.com"), ("phone", .text "+1234567890"),
    ("address", .text "123 Main Street"), ("password", .text "password123"), ("age", .int 25),
    ("price", amount), ("amount", amount), ("cost", amount), ("timezone", .text "UTC"),
    ("date", .text "2024-01-01"), ("time", .text "2024-01-01")]

/-- An interval of numbers, open where a bound is missing. -/
structure Interval where
  minimum : Option Number := none
  maximum : Option Number := none
  deriving DecidableEq, Repr

/-- The rounded sum of a number and a step, which is one for integers and a hundredth otherwise. -/
def stepUp (integer : Bool) (n : Number) : Except Fault Number :=
  match n, integer with
  | .int n, true => .ok (.int (n + 1))
  | .float x, true => .ok (.float (x.add (.ofInt 1)))
  | n, false => do return .float ((← n.toFloat).add (.ofDecimal false 1 (-2)))

/-- The rounded difference of a number and the step of `stepUp`. -/
def stepDown (integer : Bool) (n : Number) : Except Fault Number :=
  match n, integer with
  | .int n, true => .ok (.int (n - 1))
  | .float x, true => .ok (.float (x.sub (.ofInt 1)))
  | n, false => do return .float ((← n.toFloat).sub (.ofDecimal false 1 (-2)))

namespace Interval

/-- The interval after one more rule with parameters. Exclusive bounds are moved by one step. -/
def restrict (integer : Bool) (name : String) (values : List Number) (i : Interval) :
    Except Fault Interval :=
  match values with
  | [] => .ok i
  | v :: rest =>
      if name = "between" then
        match rest with
        | w :: _ => .ok { minimum := some v, maximum := some w }
        | [] => .ok i
      else if name = "min" || name = "gte" then .ok { i with minimum := some v }
      else if name = "max" || name = "lte" then .ok { i with maximum := some v }
      else if name = "gt" then do return { i with minimum := some (← stepUp integer v) }
      else if name = "lt" then do return { i with maximum := some (← stepDown integer v) }
      else .ok i

def toIntegers (i : Interval) : Except Fault Interval := do
  let minimum ← i.minimum.mapM Number.ceil
  let maximum ← i.maximum.mapM Number.floor
  return { minimum := minimum.map .int, maximum := maximum.map .int }

def ofTokens (integer : Bool) (tokens : List Token) : Except Fault Interval := do
  let i ← tokens.foldlM (fun i token => match token.numbers? with
    | some values => restrict integer token.name values i
    | none => .ok i) ({} : Interval)
  if integer then i.toIntegers else .ok i

/-- The number moved into the interval; the upper bound is applied last. -/
def clamp (i : Interval) (n : Number) : Number :=
  let n := match i.minimum with
    | some low => if n.lt low then low else n
    | none => n
  match i.maximum with
  | some high => if high.lt n then high else n
  | none => n

end Interval

def integer (field : String) (tokens : List Token) : Except Fault Value := do
  let i ← Interval.ofTokens true tokens
  let words := FieldName.words field
  let first : Number :=
    if words.contains "id" then .int 1
    else if words.contains "age" then .int 25
    else if ["count", "quantity", "qty"].any words.contains then .int 10
    else match i.minimum with
      | some (.int n) => .int (n + 1)
      | _ => .int 2
  return .int (← (i.clamp first).truncate)

def longestText : Int := 2 ^ 63 - 1

/-- A number just below twenty with the given count of nines after the point, which is read from a
text: the memory has room for some nines. More than twenty of them make it twenty. -/
def nines (room places : Int) : Except Fault Binary64 :=
  if places ≤ 0 then .ok (.ofInt 19)
  else if longestText < places then .error .textTooLong
  else if room < places then .error .outOfMemory
  else
    let n := min places.toNat 20
    .ok (.ofDecimal false (20 * 10 ^ n - 1) (-n))

/-- The count of decimal places that a `decimal` rule permits at most. -/
def decimalPlaces? (tokens : List Token) : Except Fault (Option Int) :=
  match Token.find? ["decimal"] tokens with
  | none => .ok none
  | some token => do
      let places ← (token.parameterList.filterMap Number.parse?).mapM Number.truncate
      return places.max?

def number (room : Int) (tokens : List Token) : Except Fault Value := do
  let first ← match ← decimalPlaces? tokens with
    | some places => nines room places
    | none => .ok (.ofDecimal false 1999 (-2))
  let i ← Interval.ofTokens false tokens
  return .number (.float (← (i.clamp (.float first)).toFloat))

def text (field : String) (tokens : List Token) (format : Option Format) : Value :=
  match Token.find? ["date_format"] tokens with
  | some token => .text (renderDate token.parameters.toList)
  | none => match format.bind Format.example? with
    | some sample => .text sample
    | none =>
        if Token.has ["timezone"] tokens then .text "Asia/Tokyo"
        else if Token.has ["json"] tokens then .record [("key", .text "value")]
        else match (Token.find? ["in"] tokens).bind fun token => token.parameterList.head? with
          | some choice => .text choice
          | none =>
              let words := FieldName.words field
              let known := byWord.find? fun entry => words.contains entry.1
              (known.map Prod.snd).getD (.text "string")

/-- The example for a field; null stands for no example. -/
def ofField (room : Int) (field : String) (tokens : List Token) (type : FieldType)
    (format : Option Format) (enumeration : Option Enumeration) : Except Fault Value :=
  match enumeration.bind fun e => e.values.head? with
  | some value => .ok value
  | none =>
      if Token.has ["accepted", "accepted_if"] tokens then .ok (.bool true)
      else if Token.has ["declined", "declined_if"] tokens then .ok (.bool false)
      else match type with
        | .file => .ok .null
        | .integer => integer field tokens
        | .number => number room tokens
        | .boolean => .ok (.bool true)
        | .array => .ok (.list [])
        | _ => .ok (text field tokens format)

end RequestSchema.Example
