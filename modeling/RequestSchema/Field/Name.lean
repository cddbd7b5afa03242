import RequestSchema.Text.Case
import RequestSchema.Text.Split

/-!
Field names: how a name is shown to a reader, and the words that it is made of.
-/
namespace RequestSchema.FieldName

open RequestSchema.Text

/-- The name as a title: low lines and hyphens become blanks, words are capitalised. -/
def label (name : String) : String :=
  title (name.map fun c => if c = '_' || c = '-' then ' ' else c)

/-- The text with a blank before each capital that follows a lower case letter or a digit. -/
def spaceCapitals : List Char → List Char
  | [] => []
  | [c] => [c]
  | c :: d :: rest =>
      if (isAsciiLower c || isAsciiDigit c) && isAsciiUpper d then
        c :: ' ' :: spaceCapitals (d :: rest)
      else c :: spaceCapitals (d :: rest)

/-- The words of a name in lower case: its runs of letters and numerals, where a capital begins a
new word. -/
def words (name : String) : List String :=
  let spaced := lower (String.ofList (spaceCapitals name.toList))
  (runsOutside (!isAlphanumeric ·) spaced.toList).map String.ofList

/-- Whether a name belongs to a field of the request: it is not empty and has no low line in
front. -/
def isInput (name : String) : Bool := !name.isEmpty && name.toList.head? != some '_'

end RequestSchema.FieldName
