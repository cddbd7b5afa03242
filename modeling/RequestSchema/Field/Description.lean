import RequestSchema.Enumeration
import RequestSchema.Field.Name
import RequestSchema.Rule.Upload

/-!
Descriptions: a sentence fragment about a field, made of its name and notes on its rules.
-/
namespace RequestSchema.Description

open RequestSchema.Text

def valueClause? (name field value : String) : Option String :=
  match name with
  | "required_if" => some ("required when " ++ field ++ " is " ++ value)
  | "required_unless" => some ("required unless " ++ field ++ " is " ++ value)
  | "prohibited_if" => some ("prohibited when " ++ field ++ " is " ++ value)
  | "prohibited_unless" => some ("prohibited unless " ++ field ++ " is " ++ value)
  | _ => none

def opening? : String → Option String
  | "required_with" => some "required when any of these fields are present: "
  | "required_with_all" => some "required when all of these fields are present: "
  | "required_without" => some "required when any of these fields are not present: "
  | "required_without_all" => some "required when none of these fields are present: "
  | "after" => some "date must be after "
  | "after_or_equal" => some "date must be after or equal to "
  | "before" => some "date must be before "
  | "before_or_equal" => some "date must be before or equal to "
  | "date_equals" => some "date must be equal to "
  | "date_format" => some "format: "
  | _ => none

/-- A field and the values compared with it: parameters are cut at the first comma, or at the first
colon when there is no comma. -/
def fieldAndValue? (parameters : String) : Option (String × String) :=
  (cut? ',' parameters).or (cut? ':' parameters)

def clause? : Token → Option String
  | .rule s =>
      let token := Token.rule s
      match fieldAndValue? token.parameters with
      | some (field, value) =>
          (valueClause? token.name field value).or (clauseOfParameters token)
      | none => clauseOfParameters token
  | _ => none
where
  /-- The clause about a token whose parameters are not cut. -/
  clauseOfParameters (token : Token) : Option String :=
    if token.name = "timezone" then some "must be a valid timezone"
    else if token.parameters.isEmpty then none
    else (opening? token.name).map (· ++ token.parameters)

/-- The clauses about the rules of a field, each once. -/
def clauses (tokens : List Token) : List String := Upload.distinct (tokens.filterMap clause?)

/-- The first token of each of some names. -/
def firstNamed : List String → List Token → List Token
  | _, [] => []
  | names, token :: rest =>
      if names.contains token.name then token :: firstNamed (names.erase token.name) rest
      else firstNamed names rest

def lengthNotes (tokens : List Token) : List String :=
  (firstNamed ["min", "max"] tokens).map fun token =>
    token.name ++ " " ++ token.parameters ++ " characters"

def withNote (text note : String) : String := text ++ " (" ++ note ++ ")"

def ofField (field : String) (tokens : List Token) (type : FieldType)
    (enumeration : Option Enumeration) : String :=
  let label := FieldName.label field
  let label := match enumeration with
    | some e => withNote label e.shortName
    | none => label
  let lengths := if type = .string then lengthNotes tokens else []
  let notes := (if lengths.isEmpty then [] else [", ".intercalate lengths]) ++ clauses tokens
  if notes.isEmpty then label else withNote label ("; ".intercalate notes)

/-- A description, or the label of the field when it is empty, with a remark when the field has
different rules in several branches. -/
def varying (field : String) (branches : Int) (base : String) : String :=
  let text := if base.isEmpty then FieldName.label field else base
  if 1 < branches then text ++ " (rules vary by condition)" else text

/-- The first unit in which a size is below 1024, or the last unit. -/
def scaleSize (unit : String) : List String → Binary64 → Binary64 × String
  | [], size => (size, unit)
  | next :: units, size =>
      if size.ltInt 1024 then (size, unit) else scaleSize next units (size.scale (-10))

/-- A count of bytes in the largest fitting unit: an integer, or one digit after the point. -/
def fileSize (bytes : Number) : Except Fault String := do
  let (size, unit) := scaleSize "B" ["KB", "MB", "GB"] (← bytes.toFloat)
  let whole ← size.truncate
  return (if size = .ofInt whole then toString whole else size.oneDecimal) ++ " " ++ unit

def dimensionNotes (d : Dimensions) : List String :=
  let pair (label : String) : Option Int → Option Int → List String
    | some width, some height => [label ++ toString width ++ "x" ++ toString height]
    | _, _ => []
  pair "Min dimensions: " d.minWidth d.minHeight ++
    pair "Max dimensions: " d.maxWidth d.maxHeight ++
    ((d.ratio.filter (!·.isEmpty)).map ("Aspect ratio: " ++ ·)).toList

/-- The description of an upload field. A label supplied by the caller replaces that of the name. -/
def ofUpload (field : String) (upload : Upload) (label : Option String) : Except Fault String := do
  let text := (label.filter (!·.isEmpty)).getD (FieldName.label field)
  let types :=
    if upload.extensions.isEmpty then []
    else ["Allowed types: " ++ ", ".intercalate upload.extensions]
  let greatest ← upload.maxSize.mapM fun n => do
    return "Max size: " ++ (← fileSize (.int n))
  let least ← upload.minSize.mapM fun n => do
    return "Min size: " ++ (← fileSize (.int n))
  let notes := types ++ greatest.toList ++ least.toList ++
    (upload.dimensions.map dimensionNotes).getD []
  return if notes.isEmpty then text else withNote text (". ".intercalate notes)

end RequestSchema.Description
