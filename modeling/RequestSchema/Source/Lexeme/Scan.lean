import RequestSchema.Source.Lexeme.Span

/-!
Scanning a source into its lexemes. The text of the page before the first opening tag stands in
front of the first lexeme, and the last lexeme marks the end of the source.
-/
namespace RequestSchema.Source

open RequestSchema.Text

def openingWords : List String :=
  ["return", "echo", "print", "case", "and", "or", "xor", "else", "do", "yield", "throw", "clone",
    "new", "include", "include_once", "require", "require_once", "instanceof"]

/-- Whether a lexeme ends an operand. -/
def Lexeme.endsOperand (l : Lexeme) : Bool :=
  match l.kind with
  | .name => !openingWords.contains (lower (String.ofList l.text))
  | .var | .integer | .float | .string | .template | .heredoc => true
  | .symbol => l.text = [')'] || l.text = [']'] || l.text = ['\x7d']
  | _ => false

/-- The lexemes of a text that begins on a line. `lead` is what stands in front of it, `operand`
says whether the lexeme before it ends an operand. Every lexeme but the last has a character, so a
text needs no more steps than characters. -/
def scanFrom (steps line : Nat) (operand : Bool) (lead cs : List Char) : List Lexeme :=
  match steps with
  | 0 => [⟨.done, lead ++ cs, [], line⟩]
  | steps + 1 => match gapLength .blank cs with
    | none => [⟨.bad, lead, cs, line⟩, ⟨.done, [], [], line + lineFeeds cs⟩]
    | some gap =>
        let lead := lead ++ cs.take gap
        let cs := cs.drop gap
        let line := line + lineFeeds lead
        let (kind, length) := lexemeLength operand cs
        let lexeme : Lexeme := ⟨kind, lead, cs.take length, line⟩
        if kind = .done then [lexeme]
        else lexeme ::
          scanFrom steps (line + lineFeeds lexeme.text) lexeme.endsOperand [] (cs.drop length)

def scan (source : String) : List Lexeme :=
  let cs := source.toList
  let start := pageLength cs
  scanFrom (cs.length + 1) 1 false (cs.take start) (cs.drop start)

end RequestSchema.Source
