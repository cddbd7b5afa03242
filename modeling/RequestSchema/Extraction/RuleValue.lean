import RequestSchema.Extraction.Concatenation

/-!
Rule values: what an expression says about a field. Quoted texts and concatenations become rule
texts, calls of the rule builders become rule texts or structured rules, and everything else is kept
as source text.
-/
namespace RequestSchema.Extraction

open RequestSchema.Text RequestSchema.Source

/-- A call in a chain behind a builder. -/
structure Link where
  name : String
  arguments : List Expr

/-- The call of a builder: the last segment of its class name, the method, its arguments, and the
calls chained behind it. -/
structure BuilderCall where
  facade : String
  method : String
  arguments : List Expr
  chain : List Link

def lastSegment (name : String) : String := afterLast '\\' (trimChar '\\' name)

def builderCall? : Expr → Option BuilderCall
  | .static _ scope method arguments => some ⟨lastSegment scope, method, arguments, []⟩
  | .method _ receiver name arguments => (builderCall? receiver).map fun call =>
      { call with chain := call.chain ++ [⟨name, arguments⟩] }
  | _ => none

/-- The class that an expression names, with `::class` behind it or as a text. -/
def classReference? (e : Expr) : Option String :=
  match e.unwrap with
  | .classConstant text => (beforeEnd? "::class" text).map trim
  | e => e.stringValue?

/-- The text of a listed value; truth values are words. -/
def listedText : Value → Except Fault String
  | .bool b => .ok (if b then "true" else "false")
  | v => v.display

def isList : Value → Bool
  | .list _ => true
  | _ => false

/-- The texts of the values that a rule lists, in one array or one by one. -/
def listedTexts? (arguments : List Expr) : Except Fault (Option (List String)) :=
  match arguments.map Expr.value? with
  | [some (.list items)] => some <$> (items.filter (!isList ·)).mapM listedText
  | values =>
      if values.isEmpty || values.any (fun v => v.all isList) then .ok none
      else some <$> (values.filterMap id).mapM listedText

/-- The file name extensions that arguments list: the texts of arrays, and texts with commas. -/
def extensionsOf (arguments : List Expr) : List String :=
  arguments.flatMap fun e => match e.value? with
    | some (.list items) => items.filterMap fun | .text s => some s | _ => none
    | some (.text s) => ((split ',' s).map trim).filter (!·.isEmpty)
    | _ => []

def product? : Expr → Except Fault (Option Int)
  | .parens _ inner => product? inner
  | .binary text operator left right =>
      if operator = "*" then do
        match ← product? left, ← product? right with
        | some a, some b => return some (a * b)
        | _, _ => return none
      else ((Expr.binary text operator left right).numberValue?).mapM Number.truncate
  | e => e.numberValue?.mapM Number.truncate

/-- Units of sizes, each with the power of two of its kilobytes. -/
def sizeUnits : List (String × Int) := [("kb", 0), ("mb", 10), ("gb", 20), ("tb", 30)]

/-- The power of two of the unit at the head of a text, if nothing but white space follows. -/
def unitPower? (cs : List Char) : Option Int :=
  if cs.all isBlank then some 0
  else sizeUnits.findSome? fun (unit, power) => do
    let rest ← dropFolded unit.toList cs
    if rest.all isBlank then some power else none

/-- The size in kilobytes that a text such as `2.5 MB` denotes, before it is made an integer. -/
def sizeOfText? (s : String) : Option Binary64 := do
  let cs := s.toList.dropWhile isBlank
  let whole := cs.takeWhile isDecimalDigit
  let rest := cs.drop whole.length
  let part := match rest with
    | '.' :: after =>
        let digits := after.takeWhile isDecimalDigit
        if digits.isEmpty then [] else '.' :: digits
    | _ => []
  if whole.isEmpty then none
  else
    let power ← unitPower? ((rest.drop part.length).dropWhile isBlank)
    let size ← Decimal.float? (String.ofList (whole ++ part))
    return size.scale power

/-- The size in kilobytes that an argument denotes: a product of numbers, or a text with a unit. -/
def kilobytesOf (e : Expr) : Except Fault (Option Int) := do
  match ← product? e with
  | some n => return some n
  | none => (e.stringValue?.bind sizeOfText?).mapM Binary64.truncate

def limitUpload (limits : UploadRule) (link : Link) : Except Fault UploadRule :=
  match lower link.name, link.arguments with
  | "types", arguments | "extensions", arguments =>
      .ok { limits with extensions := limits.extensions ++ extensionsOf arguments }
  | "min", e :: _ => do return { limits with minKb := ← kilobytesOf e }
  | "max", e :: _ => do return { limits with maxKb := ← kilobytesOf e }
  | "between", low :: high :: _ => do
      return { limits with minKb := ← kilobytesOf low, maxKb := ← kilobytesOf high }
  | _, _ => .ok limits

/-- The upload rule of a builder: the method says whether it starts with images or with a list of
types. -/
def uploadRule (method : String) (arguments : List Expr) (chain : List Link) :
    Except Fault Value := do
  let start : UploadRule :=
    { image := lower method = "image"
      extensions := if lower method = "types" then extensionsOf arguments else [] }
  let limits ← chain.foldlM limitUpload start
  return .upload { limits with extensions := limits.extensions.map lower }

def dimensionKey? : String → Option String
  | "width" => some "width"
  | "height" => some "height"
  | "minwidth" => some "min_width"
  | "minheight" => some "min_height"
  | "maxwidth" => some "max_width"
  | "maxheight" => some "max_height"
  | "ratio" => some "ratio"
  | _ => none

/-- The text of what an expression denotes, or of the expression where it is no literal. -/
def boundText (e : Expr) : Except Fault String :=
  match e.value? with
  | some v => v.display
  | none => .ok e.compactText

def dimensionBounds (arguments : List Expr) (chain : List Link) :
    Except Fault (OrderedMap String String) := do
  let given := ((arguments.head?.map Expr.keyedValues).getD .empty).entries
  let stated ← given.filterMapM fun (key, value) => match value with
    | .null => return none
    | v => return some (key, ← v.display)
  chain.foldlM (fun bounds link => match dimensionKey? (lower link.name), link.arguments with
    | some key, e :: _ => do return bounds.insert key (← boundText e)
    | _, _ => return bounds) (.ofList stated)

def dimensionRule (arguments : List Expr) (chain : List Link) : Except Fault String := do
  let bounds ← dimensionBounds arguments chain
  return if bounds.entries.isEmpty then "dimensions"
    else "dimensions:" ++ ",".intercalate (bounds.entries.map fun (k, v) => k ++ "=" ++ v)

def tableRule? (name : String) (arguments : List Expr) : Option String :=
  match arguments with
  | [] => some name
  | e :: rest =>
      let column := (rest.head?.bind Expr.stringValue?).filter (!·.isEmpty)
      ((e.stringValue?.filter (!·.isEmpty)).or (classReference? e)).map fun table =>
        match column with
        | some column => name ++ ":" ++ table ++ ":" ++ column
        | none => name ++ ":" ++ table

def conditionRule (name : String) (arguments : List Expr) : Except Fault String := do
  let parts := (← arguments.mapM Expr.scalarText?).filterMap id
  return if parts.isEmpty then name else name ++ ":" ++ ":".intercalate parts

/-- The rule text about a date: the first format that is chained, if there is one. -/
def dateRule (chain : List Link) : String :=
  let format? := chain.findSome? fun link =>
    if lower link.name = "format" then
      (link.arguments.head?.bind Expr.stringValue?).filter (!·.isEmpty)
    else none
  match format? with
  | some format => "date_format:" ++ format
  | none => "date"

/-- The rule of a builder method, or nothing when the method makes no rule that can be read. -/
def builtRule? (method : String) (arguments : List Expr) (chain : List Link) :
    Except Fault (Option Value) :=
  let listed (name : String) : Except Fault (Option Value) := do
    return (← listedTexts? arguments).map fun texts => .text (name ++ ":" ++ ",".intercalate texts)
  let conditional (name : String) : Except Fault (Option Value) := do
    return some (.text (← conditionRule name arguments))
  match lower method with
  | "in" => listed "in"
  | "notin" => listed "not_in"
  | "unique" => .ok ((tableRule? "unique" arguments).map .text)
  | "exists" => .ok ((tableRule? "exists" arguments).map .text)
  | "requiredif" => conditional "required_if"
  | "prohibitedif" => conditional "prohibited_if"
  | "excludeif" => conditional "exclude_if"
  | "when" => .ok (some (.text "sometimes"))
  | "enum" => .ok ((arguments.head?.bind classReference?).map .enumClass)
  | "dimensions" => do return some (.text (← dimensionRule arguments chain))
  | "file" => some <$> uploadRule "default" arguments chain
  | "imagefile" => some <$> uploadRule "image" arguments chain
  | "date" => .ok (some (.text (dateRule chain)))
  | _ => .ok none

def sourceValue (e : Expr) : Value := .source e.compactText

def builderValue (e : Expr) : Except Fault Value :=
  match builderCall? e with
  | none => .ok (sourceValue e)
  | some call => match call.facade with
    | "Rule" => do
        return (← builtRule? call.method call.arguments call.chain).getD (sourceValue e)
    | "File" => uploadRule call.method call.arguments call.chain
    | "Password" => .ok (.source (withoutBlanks e.text))
    | _ => .ok (sourceValue e)

/-- The classes of rules that can be made with `new` like by a builder method. -/
def ruleClasses : List String := ["Enum", "In", "NotIn", "Unique", "Exists", "Dimensions"]

def objectValue (e : Expr) (name : Option String) (arguments : List Expr) : Except Fault Value :=
  match name.map lastSegment with
  | none => .ok (sourceValue e)
  | some name => do
      if ruleClasses.contains name then
        return (← builtRule? name arguments []).getD (sourceValue e)
      else if name = "Password" then return .source (withoutBlanks e.text)
      else return sourceValue e

/-- The rule that an expression is; null is none. -/
def singleRule? : Expr → Except Fault (Option Value)
  | .parens _ inner => singleRule? inner
  | .string text => .ok (some (.text (Quotation.decodeText text)))
  | .template text => .ok (some (.source text))
  | .null _ => .ok none
  | .binary text operator left right =>
      let e := Expr.binary text operator left right
      if operator = "." then do return some (.text (← e.concatenatedText))
      else .ok (some (sourceValue e))
  | .static text scope name arguments => some <$> builderValue (.static text scope name arguments)
  | .method text receiver name arguments =>
      some <$> builderValue (.method text receiver name arguments)
  | .construct text name arguments =>
      some <$> objectValue (.construct text name arguments) name arguments
  | e => .ok (some (sourceValue e))

/-- The rule that an entry of an array is; spread entries are none. -/
def entryRule? : Entry → Except Fault (Option Value)
  | .item value => singleRule? value
  | .pair _ value => singleRule? value
  | .spread _ => .ok none

/-- The value that an expression gives a field: the list of the rules of an array, or one rule. -/
def ruleValue? (e : Expr) : Except Fault (Option Value) :=
  match e.unwrap with
  | .array _ entries => do
      return some (.list ((← entries.mapM entryRule?).filterMap id))
  | e => singleRule? e

/-- The name of the field that an expression in the place of a key stands for. A variable and a
property stand for none; other expressions that are no literals stand for their source text. -/
def fieldName? (e : Expr) : Except Fault (Option String) :=
  match e.value? with
  | some (.text s) => .ok (some s)
  | some (.number (.int n)) => do return some (← (Number.int n).text)
  | _ => do
      match ← e.foldedText?, e with
      | some s, _ => return some s
      | none, .var _ => return none
      | none, .member _ => return none
      | none, e => return if e.compactText.isEmpty then none else some e.compactText

end RequestSchema.Extraction
