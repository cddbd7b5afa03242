import RequestSchema.Number.Binary64
import RequestSchema.Text.Case
import RequestSchema.Text.Split

/-!
Reading numerals. White space around a numeral is ignored, decimal digits of any script count as
digits, and single low lines may stand between digits.
-/
namespace RequestSchema.Decimal

open RequestSchema.Text

/-- A numeral with more digits than this is not read as an integer. -/
def digitLimit : Nat := 4300

/-- The values of the digits at the head of a text and what follows them. Low lines between two
digits are skipped. -/
def digitRun : List Char → List Nat × List Char
  | [] => ([], [])
  | [c] => match digitValue? c with
    | some d => ([d], [])
    | none => ([], [c])
  | c :: next :: cs => match digitValue? c with
    | none => ([], c :: next :: cs)
    | some d =>
        let (ds, rest) := digitRun (next :: cs)
        if ds.isEmpty && next = '_' then
          let (ds', rest') := digitRun cs
          if ds'.isEmpty then ([d], next :: cs) else (d :: ds', rest')
        else (d :: ds, rest)

/-- The number with the given digits, the most significant first. -/
def ofDigits (base : Nat) (digits : List Nat) : Nat := digits.foldl (fun n d => n * base + d) 0

/-- The sign at the head of a text, true for a minus, and what follows it. -/
def sign : List Char → Bool × List Char
  | '-' :: cs => (true, cs)
  | '+' :: cs => (false, cs)
  | cs => (false, cs)

def int? (s : String) : Option Int :=
  let (negative, cs) := sign (trimBy isBlank s.toList)
  match digitRun cs with
  | ([], _) => none
  | (_, _ :: _) => none
  | (ds, []) =>
      if digitLimit < ds.length then none
      else
        let n : Int := ofDigits 10 ds
        some (if negative then -n else n)

/-- The exponent at the head of a text after the letter `e`; none when the text is not one. -/
def exponent? (cs : List Char) : Option Int :=
  let (negative, cs) := sign cs
  match digitRun cs with
  | ([], _) => none
  | (_, _ :: _) => none
  | (ds, []) =>
      let n : Int := ofDigits 10 ds
      some (if negative then -n else n)

def magnitude? (negative : Bool) (cs : List Char) : Option Binary64 :=
  let (whole, rest) := digitRun cs
  let (part, rest) := match rest with
    | '.' :: rest => digitRun rest
    | rest => ([], rest)
  if whole.isEmpty && part.isEmpty then none
  else
    let digits := ofDigits 10 (whole ++ part)
    let places : Int := part.length
    match rest with
    | [] => some (.ofDecimal negative digits (-places))
    | e :: rest =>
        if e = 'e' || e = 'E' then
          (exponent? rest).map fun power => .ofDecimal negative digits (power - places)
        else none

/-- The floating point number that a numeral denotes. Infinity and the undefined number have names,
in any case. -/
def float? (s : String) : Option Binary64 :=
  let (negative, cs) := sign (trimBy isBlank s.toList)
  let name := cs.map fun c => if isAsciiUpper c then Char.ofNat (c.toNat + 32) else c
  if name = "inf".toList || name = "infinity".toList then some (.infinite negative)
  else if name = "nan".toList then some .nan
  else magnitude? negative cs

end RequestSchema.Decimal
