import RequestSchema.Text.Unicode.Alphanumeric
import RequestSchema.Text.Unicode.CaseClass
import RequestSchema.Text.Unicode.DecimalDigit
import RequestSchema.Text.Unicode.Lookup
import RequestSchema.Text.Unicode.Printable

/-!
Character classes. Each class decides ASCII directly and looks other code points up in a table.
-/
namespace RequestSchema.Text

/-- White space of any script: the separators and the control characters that end a word. -/
def isBlank (c : Char) : Bool :=
  let n := c.toNat
  (9 ≤ n && n ≤ 13) || (28 ≤ n && n ≤ 32) || n = 0x85 || n = 0xA0 || n = 0x1680 ||
    (0x2000 ≤ n && n ≤ 0x200A) || n = 0x2028 || n = 0x2029 || n = 0x202F || n = 0x205F ||
    n = 0x3000

/-- The characters after which a new line begins. -/
def isLineEnd (c : Char) : Bool :=
  let n := c.toNat
  (10 ≤ n && n ≤ 13) || (28 ≤ n && n ≤ 30) || n = 0x85 || n = 0x2028 || n = 0x2029

def isAsciiLower (c : Char) : Bool := 'a' ≤ c && c ≤ 'z'

def isAsciiUpper (c : Char) : Bool := 'A' ≤ c && c ≤ 'Z'

/-- The letters of the Latin alphabet without diacritics. -/
def isAsciiLetter (c : Char) : Bool := isAsciiLower c || isAsciiUpper c

def isAsciiDigit (c : Char) : Bool := '0' ≤ c && c ≤ '9'

def isHexDigit (c : Char) : Bool := isAsciiDigit c || ('a' ≤ c && c ≤ 'f') || ('A' ≤ c && c ≤ 'F')

def isOctalDigit (c : Char) : Bool := '0' ≤ c && c ≤ '7'

def isAlphanumeric (c : Char) : Bool :=
  if c.toNat < 128 then isAsciiLetter c || isAsciiDigit c
  else Unicode.inRanges c.toNat Unicode.alphanumericRanges

def isWord (c : Char) : Bool := c = '_' || isAlphanumeric c

def digitValue? (c : Char) : Option Nat :=
  if c.toNat < 128 then if isAsciiDigit c then some (c.toNat - 48) else none
  else (Unicode.decimalZeros.find? fun z => z ≤ c.toNat && c.toNat ≤ z + 9).map
    (c.toNat - ·)

def isDecimalDigit (c : Char) : Bool := (digitValue? c).isSome

def isUppercase (c : Char) : Bool :=
  if c.toNat < 128 then isAsciiUpper c else Unicode.inRuns c.toNat Unicode.uppercaseRuns

def isCased (c : Char) : Bool :=
  if c.toNat < 128 then isAsciiLetter c else Unicode.inRanges c.toNat Unicode.casedRanges

def isCaseIgnorable (c : Char) : Bool :=
  if c.toNat < 128 then c = '\'' || c = '.' || c = ':' || c = '^' || c = '\x60'
  else Unicode.inRanges c.toNat Unicode.caseIgnorableRanges

def isPrintable (c : Char) : Bool :=
  if c.toNat < 128 then 32 ≤ c.toNat && c.toNat ≤ 126
  else Unicode.inRanges c.toNat Unicode.printableRanges

end RequestSchema.Text
