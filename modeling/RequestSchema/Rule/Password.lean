import RequestSchema.Fault
import RequestSchema.Number.Decimal
import RequestSchema.Rule.Token

/-!
Password rules: calls such as `Password::min(8)->numbers()`, kept as source text, and the
requirements that they chain.
-/
namespace RequestSchema

open RequestSchema.Text

/-- What a password must fulfil. -/
structure PasswordRequirements where
  minLength : Option Int := none
  maxLength : Option Int := none
  mixedCase : Bool := false
  numbers : Bool := false
  symbols : Bool := false
  letters : Bool := false
  uncompromised : Bool := false
  deriving DecidableEq, Repr

namespace PasswordRequirements

/-- What follows the names, each with a backslash behind it, at the head of a text. -/
def dropSegments : Nat → List Char → List Char
  | 0, cs => cs
  | fuel + 1, cs => match cs with
    | [] => []
    | c :: rest =>
        if isAsciiLetter c || c = '_' then
          match rest.dropWhile isWord with
          | '\\' :: after => dropSegments fuel after
          | _ => cs
        else cs

/-- What follows the word `new` and the white space behind it, if a text begins so. -/
def dropNew (cs : List Char) : List Char :=
  match dropStart? "new".toList cs with
  | some rest => if rest.head?.any isBlank then rest.dropWhile isBlank else cs
  | none => cs

/-- Whether a text begins as a password rule: with the class name, perhaps qualified and after
`new`, and then a call. -/
def isPassword (s : String) : Bool :=
  let cs := dropNew (trimBy isBlank s.toList)
  let cs := match cs with
    | '\\' :: rest => rest
    | cs => cs
  match dropStart? "Password".toList (dropSegments cs.length cs) with
  | some ('(' :: _) => true
  | some (':' :: ':' :: _) => true
  | _ => false

def argumentAfter? (start : String) (cs : List Char) : Option String :=
  (dropStart? start.toList cs).bind fun rest =>
    let digits := rest.takeWhile isDecimalDigit
    if digits.isEmpty || (rest.drop digits.length).head? != some ')' then none
    else some (String.ofList digits)

/-- The digits of the least length in the text of a password rule without white space. -/
def leastDigits? (cs : List Char) : Option String :=
  (argumentAfter? "min(" cs).or <|
    (firstMatch (fun cs =>
      (argumentAfter? "::min(" cs).or (argumentAfter? "->min(" cs)) cs).or <|
    firstMatch (argumentAfter? "Password(") cs

/-- The digits of the greatest length in the text of a password rule without white space. -/
def greatestDigits? (cs : List Char) : Option String := firstMatch (argumentAfter? "->max(") cs

/-- The length that some digits denote, unless there are more of them than are read. -/
def lengthOf (digits : String) : Except Fault Int :=
  match Decimal.int? digits with
  | some n => .ok n
  | none => .error (.tooManyDigits digits.length)

def ofText (s : String) : Except Fault PasswordRequirements := do
  let text := withoutBlanks s
  let calls (method : String) : Bool := contains ("->" ++ method ++ "(") text
  let minLength ← (leastDigits? text.toList).mapM lengthOf
  let maxLength ← (greatestDigits? text.toList).mapM lengthOf
  return { minLength
           maxLength
           mixedCase := calls "mixedCase"
           numbers := calls "numbers"
           symbols := calls "symbols"
           letters := calls "letters"
           uncompromised := calls "uncompromised" }

def isPasswordToken (token : Token) : Bool := token.text?.any isPassword

/-- The requirements of the first password rule of a field. -/
def ofTokens? (tokens : List Token) : Except Fault (Option PasswordRequirements) :=
  (tokens.find? isPasswordToken).mapM fun token => ofText token.text

def labels (p : PasswordRequirements) : List String :=
  [(p.letters, "letters"), (p.mixedCase, "mixed case"), (p.numbers, "numbers"),
    (p.symbols, "symbols"), (p.uncompromised, "uncompromised")].filterMap
    fun entry => if entry.1 then some entry.2 else none

end PasswordRequirements

end RequestSchema
