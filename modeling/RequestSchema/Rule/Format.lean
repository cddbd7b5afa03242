import RequestSchema.Rule.Password

/-!
Formats of text fields, read off the rules of a field.
-/
namespace RequestSchema

open RequestSchema.Text

/-- The format of a text. -/
inductive Format where
  | email
  | uri
  | uuid
  | ulid
  | ipv4
  | ipv6
  | mac
  | date
  | dateTime
  | password
  | binary
  deriving DecidableEq, Repr

namespace Format

def name : Format → String
  | email => "email"
  | uri => "uri"
  | uuid => "uuid"
  | ulid => "ulid"
  | ipv4 => "ipv4"
  | ipv6 => "ipv6"
  | mac => "mac"
  | date => "date"
  | dateTime => "date-time"
  | password => "password"
  | binary => "binary"

def all : List Format :=
  [email, uri, uuid, ulid, ipv4, ipv6, mac, date, dateTime, password, binary]

def ofName? (s : String) : Option Format := all.find? fun format => format.name = s

/-- A text in the format; a binary content has none. -/
def example? : Format → Option String
  | email => some "user@example.com"
  | uri => some "https://example.com"
  | uuid => some "550e8400-e29b-41d4-a716-446655440000"
  | ulid => some "01ARZ3NDEKTSV4RRFFQ69G5FAV"
  | ipv4 => some "192.168.1.1"
  | ipv6 => some "2001:0db8:85a3:0000:0000:8a2e:0370:7334"
  | mac => some "00:11:22:33:44:55"
  | date => some "2024-01-01"
  | dateTime => some "2024-01-01T00:00:00Z"
  | password => some "password123"
  | binary => none

/-- Formats named by a rule without parameters. Of several such rules the one listed first decides.
-/
def byRule : List (String × Format) :=
  [("email", email), ("url", uri), ("uuid", uuid), ("ulid", ulid), ("ip", ipv4), ("ipv4", ipv4),
    ("ipv6", ipv6), ("mac_address", mac)]

def timeLetters : List Char := "HisGghAauvTcU".toList

/-- Whether a date pattern shows a time of day. A backslash makes the letter after it literal, and a
literal `T` counts as the separator before a time. -/
def showsTime : List Char → Bool
  | [] => false
  | '\\' :: [] => false
  | '\\' :: c :: rest => c = 'T' || showsTime rest
  | c :: rest => timeLetters.contains c || showsTime rest

def ofDateToken? (token : Token) : Option Format :=
  if token.name = "date" then some date
  else if token.name = "datetime" then some dateTime
  else if token.name = "date_format" then
    some (if showsTime token.parameters.toList then dateTime else date)
  else none

/-- The date format of a field: the first rule that asks for one decides. -/
def ofDateTokens? (tokens : List Token) : Option Format := tokens.findSome? ofDateToken?

/-- The format of a field. Password rules come first, then the rules in `byRule`, then dates. -/
def ofTokens? (tokens : List Token) : Option Format :=
  if tokens.any PasswordRequirements.isPasswordToken then some password
  else match byRule.find? fun entry => Token.has [entry.1] tokens with
    | some entry => some entry.2
    | none => ofDateTokens? tokens

end Format

end RequestSchema
