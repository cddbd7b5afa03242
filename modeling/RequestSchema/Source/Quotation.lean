import RequestSchema.Number.Decimal

/-!
Quotations: quoted texts of a source, and the texts that they denote.
-/
namespace RequestSchema.Source.Quotation

open RequestSchema.Text

def hexValue (c : Char) : Nat :=
  if isAsciiDigit c then c.toNat - 48
  else if isAsciiLower c then c.toNat - 87
  else c.toNat - 55

/-- The character that a single letter behind a backslash stands for between double quotes. -/
def letterEscape? : Char → Option Char
  | 'n' => some '\n'
  | 'r' => some '\r'
  | 't' => some '\t'
  | 'v' => some '\x0b'
  | 'e' => some '\x1b'
  | 'f' => some '\x0c'
  | '\\' => some '\\'
  | '$' => some '$'
  | '"' => some '"'
  | _ => none

/-- The longest beginning of a text, of at most `limit` characters, that lies in a class. -/
def digitsUpTo (p : Char → Bool) (limit : Nat) (cs : List Char) : List Char :=
  (cs.take limit).takeWhile p

/-- The character that stands behind a backslash between double quotes, and how many characters it
takes: up to two hexadecimal digits behind an `x`, up to three octal digits, or a single letter. -/
def escape? : List Char → Option (Char × Nat)
  | [] => none
  | c :: cs =>
      let hex := digitsUpTo isHexDigit 2 cs
      let octal := digitsUpTo isOctalDigit 3 (c :: cs)
      if c = 'x' && !hex.isEmpty then
        some (.ofNat (Decimal.ofDigits 16 (hex.map hexValue)), 1 + hex.length)
      else if !octal.isEmpty then
        some (.ofNat (Decimal.ofDigits 8 (octal.map hexValue) % 256), octal.length)
      else (letterEscape? c).map fun d => (d, 1)

/-- The text that stands between double quotes; characters of an escape that has been decoded are
skipped. A backslash that begins no escape stands for itself. -/
def unescapeFrom : Nat → List Char → List Char
  | _, [] => []
  | skip + 1, _ :: cs => unescapeFrom skip cs
  | 0, c :: cs =>
      if c = '\\' then
        match escape? cs with
        | some (d, length) => d :: unescapeFrom length cs
        | none => c :: unescapeFrom 0 cs
      else c :: unescapeFrom 0 cs

def unescape (cs : List Char) : List Char := unescapeFrom 0 cs

/-- The text that stands between single quotes, where only a backslash and the quote are escaped. -/
def unescapePlain : List Char → List Char
  | [] => []
  | [c] => [c]
  | c :: d :: cs =>
      if c = '\\' && (d = '\\' || d = '\'') then d :: unescapePlain cs
      else c :: unescapePlain (d :: cs)

/-- A text without the letter that marks it as a sequence of bytes. -/
def dropMark : List Char → List Char
  | c :: q :: cs =>
      if (c = 'b' || c = 'B') && (q = '\'' || q = '"') then q :: cs else c :: q :: cs
  | cs => cs

/-- The text that a quotation denotes. A quotation without its closing quote is read to its end, and
a text without quotes denotes itself. -/
def decode (cs : List Char) : List Char :=
  match dropMark cs with
  | quote :: second :: rest =>
      let body := second :: rest
      let inner := if body.getLast? = some quote then body.dropLast else body
      if quote = '\'' then unescapePlain inner
      else if quote = '"' then unescape inner
      else quote :: body
  | short => short

def decodeText (s : String) : String := String.ofList (decode s.toList)

/-- The lines between the first and the last line of a text, without the indentation of the last
line; none when there are fewer than three lines. -/
def innerLines? (s : String) : Option String :=
  let lines := split '\n' s
  match lines.drop 1, lines.getLast? with
  | _ :: _ :: _, some last =>
      let indent := (last.toList.takeWhile isBlank).length
      let body := (lines.drop 1).dropLast
      some ("\n".intercalate (body.map fun line => String.ofList (line.toList.drop indent)))
  | _, _ => none

end RequestSchema.Source.Quotation
