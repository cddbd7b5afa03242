import RequestSchema.Number
import RequestSchema.OrderedMap
import RequestSchema.Text.Quoted

/-!
Values: what a rule set maps its fields to, and the plain data into which results are turned.
Besides the usual data there are source text that could not be evaluated, references to
enumerations, the limits of uploads, and objects.
-/
namespace RequestSchema

open RequestSchema.Text

/-- A key of a mapping. -/
inductive Key where
  | text (s : String)
  | number (n : Number)
  | bool (b : Bool)
  | null
  deriving DecidableEq, Repr

def Key.name? : Key → Option String
  | text s => some s
  | _ => none

/-- The limits that an upload rule states: the permitted file name extensions, sizes in kilobytes,
and whether only images are accepted. -/
structure UploadRule where
  extensions : List String := []
  minKb : Option Int := none
  maxKb : Option Int := none
  image : Bool := false
  deriving DecidableEq, Repr

/-- Dynamic data. Besides the usual kinds there are the three kinds of structured rule and objects:
conditions, whatever has conditions and rules of its own, and anything else. -/
inductive Value where
  | null
  | bool (b : Bool)
  | number (n : Number)
  | text (s : String)
  | source (s : String)
  | enumClass (name : String)
  | upload (rule : UploadRule)
  | list (items : List Value)
  | mapping (entries : List (Key × Value))
  | condition (kind expression : String) (method : Value)
  /-- an object with conditions and rules, and what comes of showing it -/
  | branch (conditions rules : Value) (shown : Except Fault String)
  /-- an object without them: whether it counts as true, and what comes of showing it -/
  | object (truth : Bool) (shown : Except Fault String)
  deriving Inhabited

namespace Value

def int (n : Int) : Value := number (.int n)

def text? : Value → Option String
  | text s => some s
  | source s => some s
  | _ => none

def entries? : Value → Option (OrderedMap Key Value)
  | mapping entries => some (.ofList entries)
  | _ => none

def items? : Value → Option (List Value)
  | list items => some items
  | _ => none

def ofEntries (entries : List (Key × Value)) : Value :=
  mapping (OrderedMap.ofList entries).entries

def record (entries : List (String × Value)) : Value :=
  mapping (entries.map fun entry => (Key.text entry.1, entry.2))

def field? (v : Value) (name : String) : Option Value :=
  v.entries?.bind fun entries => entries.get? (.text name)

/-- Whether a value counts as true: it is not null, false, zero or empty. -/
def truthy : Value → Bool
  | null => false
  | bool b => b
  | number n => n.isNonzero
  | text s => !s.isEmpty
  | source s => !s.isEmpty
  | enumClass _ => true
  | upload _ => true
  | list items => !items.isEmpty
  | mapping entries => !entries.isEmpty
  | condition _ _ _ => true
  | branch _ _ _ => true
  | object truth _ => truth

end Value

def shownBool (b : Bool) : String := if b then "True" else "False"

def Key.shown : Key → Except Fault String
  | text s => .ok (quoted s)
  | number n => n.text
  | bool b => .ok (shownBool b)
  | null => .ok "None"

def shownSize : Option Int → Except Fault String
  | some n => (Number.int n).text
  | none => .ok "None"

def shownTuple : List String → String
  | [item] => "(" ++ item ++ ",)"
  | items => "(" ++ ", ".intercalate items ++ ")"

def UploadRule.shown (rule : UploadRule) : Except Fault String := do
  return "FileRuleToken(extensions=" ++ shownTuple (rule.extensions.map quoted) ++
    ", min_kb=" ++ (← shownSize rule.minKb) ++ ", max_kb=" ++ (← shownSize rule.maxKb) ++
    ", image=" ++ shownBool rule.image ++ ")"

namespace Value

mutual

/-- The text that stands for a value inside a list or a mapping, where texts are quoted. -/
def shown : Value → Except Fault String
  | null => .ok "None"
  | bool b => .ok (shownBool b)
  | number n => n.text
  | text s => .ok (quoted s)
  | source s => .ok (quoted s)
  | enumClass name => .ok ("EnumToken(enum_class=" ++ quoted name ++ ")")
  | upload rule => rule.shown
  | list items => do return "[" ++ ", ".intercalate (← shownItems items) ++ "]"
  | mapping entries => do return "\x7b" ++ ", ".intercalate (← shownEntries entries) ++ "\x7d"
  | condition kind expression method => do
      return "Condition(type=" ++ quoted kind ++ ", expression=" ++ quoted expression ++
        ", method=" ++ (← shown method) ++ ")"
  | branch _ _ shown => shown
  | object _ shown => shown

def shownItems : List Value → Except Fault (List String)
  | [] => .ok []
  | v :: rest => do return (← shown v) :: (← shownItems rest)

def shownEntries : List (Key × Value) → Except Fault (List String)
  | [] => .ok []
  | (k, v) :: rest => do
      return ((← k.shown) ++ ": " ++ (← shown v)) :: (← shownEntries rest)

end

/-- The text of a value: a text stands for itself, anything else is shown. -/
def display : Value → Except Fault String
  | text s => .ok s
  | source s => .ok s
  | v => v.shown

def ofInt? : Option Int → Value
  | some n => int n
  | none => null

/-- The plain data of a leaf. Lists and mappings are left as they are. -/
def plainLeaf : Value → Value
  | source s => text s
  | enumClass name => record [("type", text "enum"), ("class", text name)]
  | upload rule => record [("type", text "file"), ("image", bool rule.image),
      ("extensions", list (rule.extensions.map text)), ("min_kb", ofInt? rule.minKb),
      ("max_kb", ofInt? rule.maxKb)]
  | v => v

/-- The plain data of a rule value: of each item of a list, or of the value itself. -/
def plain : Value → Value
  | list items => list (items.map plainLeaf)
  | v => v.plainLeaf

end Value

/-- The rules of a request: what each field maps to, in order. -/
abbrev RuleSet := OrderedMap Key Value

def RuleSet.plain (rules : RuleSet) : Value := .mapping (rules.mapValues Value.plain).entries

end RequestSchema
