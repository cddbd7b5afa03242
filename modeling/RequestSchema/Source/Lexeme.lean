import RequestSchema.Text.Char

/-!
Lexemes: the words and signs of a source text in the PHP language. Every lexeme keeps the white
space and the comments in front of it, so the text of a stretch of lexemes is the text of the
source.
-/
namespace RequestSchema.Source

open RequestSchema.Text

/-- What a lexeme is. -/
inductive LexemeKind where
  /-- a word, perhaps qualified by a namespace -/
  | name
  | var
  | integer
  | float
  /-- a quoted text without interpolated expressions -/
  | string
  /-- a quoted text with interpolated expressions, or a shell command -/
  | template
  /-- a text between two lines with a marker -/
  | heredoc
  | symbol
  /-- the text of the page between two stretches of code -/
  | page
  /-- a sign that begins no lexeme -/
  | bad
  /-- the end of the source -/
  | done
  deriving DecidableEq, Repr

/-- A word or sign with the text in front of it and the number of its line. -/
structure Lexeme where
  kind : LexemeKind
  lead : List Char
  text : List Char
  line : Nat
  deriving DecidableEq, Repr

namespace Lexeme

def trailing (ls : List Lexeme) : List Char := ls.flatMap fun l => l.lead ++ l.text

/-- The text of a stretch of lexemes, without what stands in front of the first one. -/
def render : List Lexeme → List Char
  | [] => []
  | l :: ls => l.text ++ trailing ls

def isSymbol (sign : String) (l : Lexeme) : Bool := l.kind = .symbol && l.text = sign.toList

end Lexeme

/-- The characters with which a name can begin. Every character outside ASCII counts as a letter,
except those that are skipped as white space. -/
def isNameStart (c : Char) : Bool :=
  if c.toNat < 128 then c = '_' || isAsciiLetter c
  else !(c = '\u00A0' || c = '\u200B' || c = '\u2060' || c = '\uFEFF')

def isNamePart (c : Char) : Bool := isNameStart c || isAsciiDigit c

def isSpace (c : Char) : Bool :=
  c = ' ' || (9 ≤ c.toNat && c.toNat ≤ 13) || c = '\u00A0' || c = '\u200B' || c = '\u2060' ||
    c = '\uFEFF'

def lineFeeds (cs : List Char) : Nat := cs.count '\n'

end RequestSchema.Source
