import RequestSchema.Source.Literal

/-!
Concatenations: texts that are put together from literals and other expressions with points.
-/
namespace RequestSchema.Source.Expr

open RequestSchema.Text

def scalarText? (e : Expr) : Except Fault (Option String) :=
  match e.value? with
  | some (.text s) => .ok (some s)
  | some (.number n) => do return some (← n.text)
  | _ => .ok none

/-- The text that a concatenation of literals denotes; none when a part is no literal. All parts are
looked at, also behind one that is none. -/
def foldedText? : Expr → Except Fault (Option String)
  | .parens _ inner => inner.foldedText?
  | .binary _ operator left right =>
      if operator = "." then do
        match ← left.foldedText?, ← right.foldedText? with
        | some a, some b => return some (a ++ b)
        | _, _ => return none
      else .ok none
  | .string text => (Expr.string text).scalarText?
  | .integer text => (Expr.integer text).scalarText?
  | .float text => (Expr.float text).scalarText?
  | _ => .ok none

/-- The text of a concatenation: literals stand for what they denote, other parts for their source
text. -/
def concatenatedText : Expr → Except Fault String
  | .parens _ inner => inner.concatenatedText
  | .binary text operator left right =>
      if operator = "." then do
        return (← left.concatenatedText) ++ (← right.concatenatedText)
      else .ok (compact text)
  | e => do return (← e.foldedText?).getD (compact e.text)

def compactText (e : Expr) : String := compact e.text

end RequestSchema.Source.Expr
