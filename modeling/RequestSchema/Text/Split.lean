import RequestSchema.Text.Char

/-!
Cutting texts at characters and joining the pieces again. The list versions carry the recursion;
the string versions only change the representation.
-/
namespace RequestSchema.Text

def trimBy (p : Char → Bool) (cs : List Char) : List Char :=
  ((cs.dropWhile p).reverse.dropWhile p).reverse

def trimEndBy (p : Char → Bool) (cs : List Char) : List Char := (cs.reverse.dropWhile p).reverse

def trim (s : String) : String := String.ofList (trimBy isBlank s.toList)

def trimChar (c : Char) (s : String) : String := String.ofList (trimBy (· == c) s.toList)

/-- The pieces between the occurrences of a separator; there is always one. -/
def splitChars (sep : Char) : List Char → List (List Char)
  | [] => [[]]
  | c :: cs =>
      if c = sep then [] :: splitChars sep cs
      else match splitChars sep cs with
        | [] => [[c]]
        | piece :: pieces => (c :: piece) :: pieces

def split (sep : Char) (s : String) : List String := (splitChars sep s.toList).map String.ofList

/-- The parts before and after the first occurrence of a separator. -/
def cutChars (sep : Char) : List Char → Option (List Char × List Char)
  | [] => none
  | c :: cs =>
      if c = sep then some ([], cs)
      else (cutChars sep cs).map fun (before, after) => (c :: before, after)

/-- The parts of a text before and after the first occurrence of a separator. -/
def cut? (sep : Char) (s : String) : Option (String × String) :=
  (cutChars sep s.toList).map fun (before, after) => (String.ofList before, String.ofList after)

/-- The parts of a text before and after the last occurrence of a separator. -/
def cutLast? (sep : Char) (s : String) : Option (String × String) :=
  (cutChars sep s.toList.reverse).map fun (after, before) =>
    (String.ofList before.reverse, String.ofList after.reverse)

/-- What follows the last occurrence of a separator, or the whole text. -/
def afterLast (sep : Char) (s : String) : String := ((cutLast? sep s).map Prod.snd).getD s

/-- The maximal runs of characters outside a class. -/
def runsOutside (p : Char → Bool) : List Char → List (List Char)
  | [] => []
  | [c] => if p c then [] else [[c]]
  | c :: d :: cs =>
      if p c then runsOutside p (d :: cs)
      else if p d then [c] :: runsOutside p (d :: cs)
      else match runsOutside p (d :: cs) with
        | [] => [[c]]
        | run :: runs => (c :: run) :: runs

def words (s : String) : List String := (runsOutside isBlank s.toList).map String.ofList

/-- The text with each run of white space made one blank, and none at its ends. -/
def compact (s : String) : String := " ".intercalate (words s)

def withoutBlanks (s : String) : String := String.ofList (s.toList.filter (!isBlank ·))

def dropStart? : List Char → List Char → Option (List Char)
  | [], cs => some cs
  | _ :: _, [] => none
  | a :: start, c :: cs => if a = c then dropStart? start cs else none

def afterStart? (start s : String) : Option String :=
  (dropStart? start.toList s.toList).map String.ofList

def beforeEnd? (ending s : String) : Option String :=
  (dropStart? ending.toList.reverse s.toList.reverse).map fun cs => String.ofList cs.reverse

/-- The first answer of a recogniser over the ends of a text, the whole text first. -/
def firstMatch {α : Type} (recognise : List Char → Option α) : List Char → Option α
  | [] => recognise []
  | c :: cs => match recognise (c :: cs) with
    | some answer => some answer
    | none => firstMatch recognise cs

def contains (part s : String) : Bool := (firstMatch (dropStart? part.toList) s.toList).isSome

end RequestSchema.Text
