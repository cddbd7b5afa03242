import RequestSchema.Text.Char
import RequestSchema.Text.Unicode.CaseMap

/-!
Lower, upper and title case of texts in any script. A capital sigma at the end of a word has a lower
case form of its own, so lower case looks at the neighbours of a character; upper case does not.
-/
namespace RequestSchema.Text

def ofCodePoints (codePoints : List Nat) : List Char := codePoints.map Char.ofNat

/-- The lower case form of a character away from any other. -/
def lowerChar (c : Char) : List Char :=
  if c.toNat < 128 then [if isAsciiUpper c then Char.ofNat (c.toNat + 32) else c]
  else match Unicode.image? c.toNat Unicode.lowerRuns with
    | some n => [Char.ofNat n]
    | none => ((Unicode.lowerSequences.lookup c.toNat).map ofCodePoints).getD [c]

def upperChar (c : Char) : List Char :=
  if c.toNat < 128 then [if isAsciiLower c then Char.ofNat (c.toNat - 32) else c]
  else match Unicode.image? c.toNat Unicode.upperRuns with
    | some n => [Char.ofNat n]
    | none => ((Unicode.upperSequences.lookup c.toNat).map ofCodePoints).getD [c]

def titleChar (c : Char) : List Char :=
  if c.toNat < 128 then upperChar c
  else match Unicode.image? c.toNat Unicode.titleRuns with
    | some n => [Char.ofNat n]
    | none => ((Unicode.titleSequences.lookup c.toNat).map ofCodePoints).getD (upperChar c)

/-- Whether the nearest character that is not case-ignorable is cased. -/
def nextIsCased (neighbours : List Char) : Bool :=
  (neighbours.dropWhile isCaseIgnorable).head?.any isCased

/-- The lower case form of a character between the characters before it, nearest first, and those
after it. A capital sigma that ends a word becomes a final sigma. -/
def lowerBetween (before : List Char) (c : Char) (after : List Char) : List Char :=
  if c = 'Σ' then [if nextIsCased before && !nextIsCased after then 'ς' else 'σ']
  else lowerChar c

def lowerFrom (before : List Char) : List Char → List Char
  | [] => []
  | c :: rest => lowerBetween before c rest ++ lowerFrom (c :: before) rest

/-- Title case of a text whose preceding characters are given nearest first: a character after a
cased one is lowered, any other takes its form at the start of a word. -/
def titleFrom (before : List Char) : List Char → List Char
  | [] => []
  | c :: rest =>
      (if before.head?.any isCased then lowerBetween before c rest else titleChar c) ++
        titleFrom (c :: before) rest

def lower (s : String) : String := String.ofList (lowerFrom [] s.toList)

def upper (s : String) : String := String.ofList (s.toList.flatMap upperChar)

def title (s : String) : String := String.ofList (titleFrom [] s.toList)

/-- Whether a character is a letter `a` to `z` or `A` to `Z` when case is ignored, which adds the
dotted and dotless i, the long s and the kelvin sign. -/
def foldsToLetter (c : Char) : Bool :=
  isAsciiLetter c || c = 'İ' || c = 'ı' || c = 'ſ' || c = '\u212A'

def foldsTo (letter c : Char) : Bool :=
  lowerChar c = [letter] || (letter = 'i' && (c = 'İ' || c = 'ı')) || (letter = 's' && c = 'ſ')

/-- What follows a lower case word at the head of a text, case ignored. -/
def dropFolded : List Char → List Char → Option (List Char)
  | [], cs => some cs
  | _ :: _, [] => none
  | letter :: word, c :: cs => if foldsTo letter c then dropFolded word cs else none

end RequestSchema.Text
