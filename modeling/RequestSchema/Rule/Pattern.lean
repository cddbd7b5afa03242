import RequestSchema.Rule.Token

/-!
Patterns: the regular expression that a `regex` or `pattern` rule states, without the delimiters
around it and the flags behind it.
-/
namespace RequestSchema.Pattern

open RequestSchema.Text

/-- The delimiter that closes a pattern: the matching bracket, or the opening delimiter again. -/
def closing : Char → Char
  | '(' => ')'
  | '\x7b' => '\x7d'
  | '[' => ']'
  | '<' => '>'
  | c => c

/-- Whether a character may open a delimited pattern. -/
def isDelimiter (c : Char) : Bool := !(isAlphanumeric c || c = '\\' || c = ' ')

/-- The pattern between its delimiters; a text without them is kept. -/
def stripDelimiters (s : String) : String :=
  let s := trim s
  match s.toList with
  | opening :: rest =>
      if isDelimiter opening then
        ((cutLast? (closing opening) (String.ofList rest)).map Prod.fst).getD s
      else s
  | [] => s

def ofTokens? (tokens : List Token) : Option String :=
  (Token.find? ["regex", "pattern"] tokens).map fun token => stripDelimiters token.parameters

end RequestSchema.Pattern
