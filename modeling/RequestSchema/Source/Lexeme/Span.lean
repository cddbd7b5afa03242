import RequestSchema.Source.Lexeme
import RequestSchema.Text.Case
import RequestSchema.Text.Split

/-!
Spans: how far the lexeme or the comment at the head of a text reaches. Each function counts
characters; a span that is never closed has no length.
-/
namespace RequestSchema.Source

open RequestSchema.Text

/-- Where a scan of white space and comments stands. -/
inductive Gap where
  | blank
  | lineComment
  | blockComment

/-- The length of the white space and the comments at the head of a text. A comment to the end of
the line also ends before a closing tag. -/
def gapLength : Gap → List Char → Option Nat
  | .blank, c :: cs =>
      if isSpace c then (gapLength .blank cs).map (· + 1)
      else if c = '#' && cs.head? != some '[' then (gapLength .lineComment cs).map (· + 1)
      else if c = '/' && cs.head? = some '/' then (gapLength .lineComment cs).map (· + 1)
      else if c = '/' && cs.head? = some '*' then
        match cs with
        | _ :: cs => (gapLength .blockComment cs).map (· + 2)
        | [] => some 0
      else some 0
  | .lineComment, c :: cs =>
      if c = '\n' || c = '\r' then (gapLength .blank cs).map (· + 1)
      else if c = '?' && cs.head? = some '>' then some 0
      else (gapLength .lineComment cs).map (· + 1)
  | .blockComment, c :: cs =>
      match c, cs with
      | '*', '/' :: cs => (gapLength .blank cs).map (· + 2)
      | _, cs => (gapLength .blockComment cs).map (· + 1)
  | .blockComment, [] => none
  | _, [] => some 0

/-- The length of an opening tag at the head of a text: `<?` with `php` or an equality sign, or
alone. -/
def tagLength : List Char → Option Nat
  | '<' :: '?' :: rest =>
      if (dropFolded "php".toList rest).isSome then some 5
      else if rest.head? = some '=' then some 3
      else some 2
  | _ => none

/-- The length of the page text at the head of a text, with the opening tag that ends it. -/
def pageLength : List Char → Nat
  | [] => 0
  | c :: cs => match tagLength (c :: cs) with
    | some n => n
    | none => pageLength cs + 1

/-- The length of a name behind its first letter; segments are joined by backslashes. -/
def nameTailLength : List Char → Nat
  | [] => 0
  | [c] => if isNamePart c then 1 else 0
  | c :: d :: cs =>
      if isNamePart c then nameTailLength (d :: cs) + 1
      else if c = '\\' && isNameStart d then nameTailLength cs + 2
      else 0

def wordTailLength (cs : List Char) : Nat := (cs.takeWhile isNamePart).length

/-- The length of a run of digits behind its first digit; single low lines may separate digits. -/
def digitTailLength (p : Char → Bool) : List Char → Nat
  | [] => 0
  | [c] => if p c then 1 else 0
  | c :: d :: cs =>
      if p c then digitTailLength p (d :: cs) + 1
      else if c = '_' && p d then digitTailLength p cs + 2
      else 0

def digitLength (p : Char → Bool) : List Char → Nat
  | [] => 0
  | c :: cs => if p c then digitTailLength p cs + 1 else 0

def exponentSignLength : List Char → Nat
  | '+' :: _ => 1
  | '-' :: _ => 1
  | _ => 0

def exponentLength : List Char → Nat
  | e :: cs =>
      if e = 'e' || e = 'E' then
        let sign := exponentSignLength cs
        let n := digitLength isAsciiDigit (cs.drop sign)
        if n = 0 then 0 else 1 + sign + n
      else 0
  | [] => 0

def fractionLength : List Char → Nat
  | '.' :: cs => 1 + digitTailLength isAsciiDigit cs
  | _ => 0

/-- The kind and the length of a number in a base marked by a letter behind a zero. -/
def markedLength (digit : Char → Bool) (cs : List Char) : LexemeKind × Nat :=
  let n := digitLength digit (cs.drop 2)
  (.integer, if n = 0 then 1 else 2 + n)

/-- The kind and the length of the number at the head of a text that begins with a digit. -/
def numberLength (cs : List Char) : LexemeKind × Nat :=
  let mark := (cs.drop 1).head?
  let zero := cs.head? = some '0'
  if zero && (mark = some 'x' || mark = some 'X') then markedLength isHexDigit cs
  else if zero && (mark = some 'b' || mark = some 'B') then
    markedLength (fun c => c = '0' || c = '1') cs
  else if zero && (mark = some 'o' || mark = some 'O') then markedLength isOctalDigit cs
  else
    let whole := digitLength isAsciiDigit cs
    let part := fractionLength (cs.drop whole)
    let power := exponentLength (cs.drop (whole + part))
    if 0 < part + power then (.float, whole + part + power)
    else if zero then (.integer, digitLength isOctalDigit cs)
    else (.integer, whole)

def plainLength : List Char → Option Nat
  | [] => none
  | [c] => if c = '\'' then some 1 else none
  | c :: d :: cs =>
      if c = '\'' then some 1
      else if c = '\\' then (plainLength cs).map (· + 2)
      else (plainLength (d :: cs)).map (· + 1)

/-- What an inner part of an interpolated text is closed by. -/
inductive Closer where
  /-- a quotation mark, before which expressions in braces may stand -/
  | quote (mark : Char)
  /-- a single quote -/
  | plain
  /-- the brace that ends an expression -/
  | brace
  deriving DecidableEq

/-- The length of the rest of an interpolated text; the parts that are open are listed from the
innermost outward. -/
def templateLength : List Closer → List Char → Option Nat
  | [], _ => some 0
  | _, [] => none
  | .quote mark :: outer, c :: cs =>
      if c = '\\' then
        match cs with
        | _ :: cs => (templateLength (.quote mark :: outer) cs).map (· + 2)
        | [] => none
      else if c = mark then (templateLength outer cs).map (· + 1)
      else if (c = '\x7b' && cs.head? = some '$') || (c = '$' && cs.head? = some '\x7b') then
        match cs with
        | _ :: cs => (templateLength (.brace :: .quote mark :: outer) cs).map (· + 2)
        | [] => none
      else (templateLength (.quote mark :: outer) cs).map (· + 1)
  | .plain :: outer, c :: cs =>
      if c = '\\' then
        match cs with
        | _ :: cs => (templateLength (.plain :: outer) cs).map (· + 2)
        | [] => none
      else if c = '\'' then (templateLength outer cs).map (· + 1)
      else (templateLength (.plain :: outer) cs).map (· + 1)
  | .brace :: outer, c :: cs =>
      if c = '\x7d' then (templateLength outer cs).map (· + 1)
      else if c = '\x7b' then (templateLength (.brace :: .brace :: outer) cs).map (· + 1)
      else if c = '\'' then (templateLength (.plain :: .brace :: outer) cs).map (· + 1)
      else if c = '"' || c = '\x60' then
        (templateLength (.quote c :: .brace :: outer) cs).map (· + 1)
      else (templateLength (.brace :: outer) cs).map (· + 1)

/-- Whether a text between double quotes holds a variable or an expression in braces. -/
def interpolates : List Char → Bool
  | [] => false
  | [_] => false
  | c :: d :: cs =>
      if c = '\\' then interpolates cs
      else if c = '$' && (isNameStart d || d = '\x7b') then true
      else if c = '\x7b' && d = '$' then true
      else interpolates (d :: cs)

/-- The length of the closing marker of a heredoc at the beginning of a line, with its
indentation. -/
def closingMarkerLength (marker cs : List Char) : Option Nat :=
  let indent := (cs.takeWhile fun c => c = ' ' || c = '\t').length
  match dropStart? marker (cs.drop indent) with
  | some rest => if rest.head?.any isNamePart then none else some (indent + marker.length)
  | none => none

/-- The length of the lines of a heredoc, from the end of its first line to its closing marker. -/
def heredocBodyLength (marker : List Char) : List Char → Option Nat
  | [] => none
  | c :: cs =>
      if c = '\n' then
        match closingMarkerLength marker cs with
        | some n => some (n + 1)
        | none => (heredocBodyLength marker cs).map (· + 1)
      else (heredocBodyLength marker cs).map (· + 1)

def markerQuote : List Char → List Char
  | '\'' :: _ => ['\'']
  | '"' :: _ => ['"']
  | _ => []

/-- What stands in front of the line feed at the head of a text, if a line ends there: a carriage
return or nothing. -/
def beforeLineFeed? : List Char → Option Nat
  | '\r' :: '\n' :: _ => some 1
  | '\n' :: _ => some 0
  | _ => none

/-- The length of a heredoc behind its three signs. The marker may be quoted, and nothing else
stands on its first line. -/
def heredocLength (cs : List Char) : Option Nat :=
  let blanks := (cs.takeWhile fun c => c = ' ' || c = '\t').length
  let rest := cs.drop blanks
  let quote := markerQuote rest
  let rest := rest.drop quote.length
  let marker := rest.takeWhile isNamePart
  if rest.head?.any isNameStart then
    match dropStart? quote (rest.drop marker.length) with
    | none => none
    | some body =>
        (beforeLineFeed? body).bind fun n =>
          (heredocBodyLength marker (body.drop n)).map fun length =>
            blanks + 2 * quote.length + marker.length + n + length
  else none

/-- The signs of the language, the longer ones first. -/
def signs : List String :=
  ["===", "!==", "<=>", "**=", "...", "<<=", ">>=", "??=", "?->",
    "==", "!=", "<>", "<=", ">=", "&&", "||", "??", "->", "=>", "::", "++", "--", "+=", "-=", "*=",
    "/=", ".=", "%=", "&=", "|=", "^=", "<<", ">>", "**", "#[",
    "+", "-", "*", "/", "%", "=", "<", ">", "!", ".", ",", ";", ":", "?", "(", ")", "[", "]",
    "\x7b", "\x7d", "&", "|", "^", "~", "@", "$", "\\"]

def signLength? (cs : List Char) : Option Nat :=
  (signs.find? fun sign => (dropStart? sign.toList cs).isSome).map String.length

/-- The kind and the length of the text in double quotes at the head of a text; `prefixed` counts
the letter in front of the quote. -/
def quotedLength (prefixed : Nat) (cs : List Char) : LexemeKind × Nat :=
  match templateLength [.quote '"'] (cs.drop (prefixed + 1)) with
  | none => (.bad, 1)
  | some n =>
      let inner := (cs.drop (prefixed + 1)).take (n - 1)
      (if interpolates inner then .template else .string, prefixed + 1 + n)

/-- A span of a kind behind some characters. One that is never closed is a sign that begins no
lexeme. -/
def spanOrBad (kind : LexemeKind) (before : Nat) : Option Nat → LexemeKind × Nat
  | some n => (kind, n + before)
  | none => (.bad, 1)

/-- The kind and the length of the lexeme at the head of a text without a gap in front. Behind an
operand a point is an operator and not the beginning of a number. -/
def lexemeLength (operand : Bool) : List Char → LexemeKind × Nat
  | [] => (.done, 0)
  | c :: cs =>
      let letterB := c = 'b' || c = 'B'
      if c = '?' && cs.head? = some '>' then (.page, 2 + pageLength (cs.drop 1))
      else if letterB && cs.head? = some '\'' then spanOrBad .string 2 (plainLength (cs.drop 1))
      else if letterB && cs.head? = some '"' then quotedLength 1 (c :: cs)
      else if isNameStart c then (.name, nameTailLength cs + 1)
      else if c = '\\' && cs.head?.any isNameStart then (.name, nameTailLength (cs.drop 1) + 2)
      else if c = '$' && cs.head?.any isNameStart then (.var, wordTailLength cs + 1)
      else if isAsciiDigit c then numberLength (c :: cs)
      else if c = '.' && !operand && cs.head?.any isAsciiDigit then
        let part := fractionLength (c :: cs)
        (.float, part + exponentLength ((c :: cs).drop part))
      else if c = '\'' then spanOrBad .string 1 (plainLength cs)
      else if c = '"' then quotedLength 0 (c :: cs)
      else if c = '\x60' then spanOrBad .template 1 (templateLength [.quote c] cs)
      else match dropStart? "<<<".toList (c :: cs) with
        | some rest => spanOrBad .heredoc 3 (heredocLength rest)
        | none => spanOrBad .symbol 0 (signLength? (c :: cs))

end RequestSchema.Source
