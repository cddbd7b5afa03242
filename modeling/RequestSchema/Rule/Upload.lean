import RequestSchema.Number.Decimal
import RequestSchema.Rule.Token

/-!
Uploads: which rules make a field an upload, and the constraints that they put on the files. Sizes
are stated in kilobytes and published in bytes.
-/
namespace RequestSchema

open RequestSchema.Text

/-- Bounds on the size of an image in pixels. -/
structure Dimensions where
  width : Option Int := none
  height : Option Int := none
  minWidth : Option Int := none
  minHeight : Option Int := none
  maxWidth : Option Int := none
  maxHeight : Option Int := none
  ratio : Option String := none
  deriving DecidableEq, Repr

/-- The constraints on the files of an upload field. -/
structure Upload where
  isImage : Bool := false
  extensions : List String := []
  mediaTypes : List String := []
  minSize : Option Int := none
  maxSize : Option Int := none
  dimensions : Option Dimensions := none
  multiple : Bool := false
  deriving DecidableEq, Repr

/-- The integer part of the number that a text denotes; none when it denotes no number or an
undefined one. -/
def integerPart? (s : String) : Except Fault (Option Int) :=
  match Decimal.float? s with
  | none => .ok none
  | some .nan => .ok none
  | some x => x.truncate.map some

namespace Dimensions

def isEmpty (d : Dimensions) : Bool := d == {}

/-- The bounds with one of them set. Unknown names and unreadable numbers set nothing. -/
def set (d : Dimensions) (key value : String) : Except Fault Dimensions :=
  let pixels (put : Int → Dimensions) : Except Fault Dimensions := do
    return ((← integerPart? value).map put).getD d
  match key with
  | "ratio" => .ok { d with ratio := some value }
  | "width" => pixels fun n => { d with width := some n }
  | "height" => pixels fun n => { d with height := some n }
  | "min_width" => pixels fun n => { d with minWidth := some n }
  | "min_height" => pixels fun n => { d with minHeight := some n }
  | "max_width" => pixels fun n => { d with maxWidth := some n }
  | "max_height" => pixels fun n => { d with maxHeight := some n }
  | _ => .ok d

/-- The bounds that a list such as `min_width=100,ratio=3/2` states, if it states any. -/
def ofText? (s : String) : Except Fault (Option Dimensions) := do
  let d ← (split ',' s).foldlM (fun d pair => match cut? '=' pair with
    | some (key, value) => d.set (trim key) (trim value)
    | none => .ok d) ({} : Dimensions)
  return if d.isEmpty then none else some d

def toValue (d : Dimensions) : Value :=
  let entry (name : String) (bound : Option Int) : List (String × Value) :=
    (bound.map fun n => (name, Value.int n)).toList
  .record (entry "width" d.width ++ entry "height" d.height ++ entry "min_width" d.minWidth ++
    entry "min_height" d.minHeight ++ entry "max_width" d.maxWidth ++
    entry "max_height" d.maxHeight ++ (d.ratio.map fun s => ("ratio", Value.text s)).toList)

end Dimensions

namespace Upload

/-- Media types of images, for uploads that name no type of their own. -/
def imageTypes : List String :=
  ["image/jpeg", "image/png", "image/gif", "image/bmp", "image/svg+xml", "image/webp"]

def typeTable : List (String × String) :=
  [("jpg", "image/jpeg"), ("jpeg", "image/jpeg"), ("png", "image/png"), ("gif", "image/gif"),
    ("bmp", "image/bmp"), ("svg", "image/svg+xml"), ("webp", "image/webp"),
    ("pdf", "application/pdf"), ("doc", "application/msword"),
    ("docx", "application/vnd.openxmlformats-officedocument.wordprocessingml.document"),
    ("xls", "application/vnd.ms-excel"),
    ("xlsx", "application/vnd.openxmlformats-officedocument.spreadsheetml.sheet"),
    ("ppt", "application/vnd.ms-powerpoint"),
    ("pptx", "application/vnd.openxmlformats-officedocument.presentationml.presentation"),
    ("csv", "text/csv"), ("txt", "text/plain"), ("zip", "application/zip"),
    ("rar", "application/x-rar-compressed"), ("mp4", "video/mp4"), ("avi", "video/x-msvideo"),
    ("mp3", "audio/mpeg"), ("wav", "audio/wav"), ("json", "application/json"),
    ("xml", "application/xml")]

def mediaType (extension : String) : String :=
  (typeTable.lookup (lower extension)).getD "application/octet-stream"

def isUpload (tokens : List Token) : Bool := Token.has Token.uploadNames tokens

/-- Whether a field path stands for many files: one of its segments is a star. -/
def isMultiple (field : String) : Bool := (split '.' field).contains "*"

/-- The list with the first occurrence of each member. -/
def distinct (texts : List String) : List String :=
  texts.foldl (fun seen text => if seen.contains text then seen else seen ++ [text]) []

/-- What has been read from the tokens of an upload field. -/
structure Reading where
  isImage : Bool := false
  extensions : List String := []
  mediaTypes : List String := []
  minKb : Option Int := none
  maxKb : Option Int := none
  dimensions : Option Dimensions := none
  deriving DecidableEq, Repr

/-- A size in kilobytes; an unreadable text leaves the current one in force. -/
def kilobytes (s : String) (current : Option Int) : Except Fault (Option Int) := do
  return (← integerPart? s).or current

/-- The reading after one more token. -/
def Reading.add (r : Reading) : Token → Except Fault Reading
  | .upload limits =>
      .ok { r with isImage := r.isImage || limits.image
                   extensions := r.extensions ++ limits.extensions
                   minKb := limits.minKb.or r.minKb
                   maxKb := limits.maxKb.or r.maxKb }
  | token => match token.name with
    | "image" => .ok { r with isImage := true }
    | "mimes" =>
        let named := token.parameterList.filter (!·.isEmpty)
        .ok { r with extensions := r.extensions ++ named.map lower }
    | "mimetypes" =>
        .ok { r with mediaTypes := r.mediaTypes ++ token.parameterList.filter (!·.isEmpty) }
    | "max" => do return { r with maxKb := ← kilobytes token.parameters r.maxKb }
    | "min" => do return { r with minKb := ← kilobytes token.parameters r.minKb }
    | "size" | "between" => match token.parameterList with
      | [] => .error .missingParameter
      | first :: rest => do
          let minKb ← kilobytes first r.minKb
          let maxKb ← kilobytes (rest.getLast?.getD first) r.maxKb
          return { r with minKb, maxKb }
    | "dimensions" => do
        return { r with dimensions := ← Dimensions.ofText? token.parameters }
    | _ => .ok r

/-- The constraints that a reading amounts to. -/
def ofReading (field : String) (r : Reading) : Upload :=
  let extensions := distinct r.extensions
  let mediaTypes := distinct (r.mediaTypes ++ extensions.map mediaType)
  { isImage := r.isImage
    extensions
    mediaTypes := if r.isImage && mediaTypes.isEmpty then imageTypes else mediaTypes
    minSize := r.minKb.map (· * 1024)
    maxSize := r.maxKb.map (· * 1024)
    dimensions := r.dimensions
    multiple := isMultiple field }

/-- The constraints of an upload field; none when the tokens do not make it one. -/
def ofTokens? (field : String) (tokens : List Token) : Except Fault (Option Upload) :=
  if isUpload tokens then do
    let reading ← tokens.foldlM Reading.add ({} : Reading)
    return some (ofReading field reading)
  else .ok none

def ofRuleSet (rules : RuleSet) : Except Fault (OrderedMap Key Upload) := do
  let found ← rules.entries.filterMapM fun (key, value) => do
    return (← ofTokens? (key.name?.getD "") (← value.tokens)).map fun upload => (key, upload)
  return .ofList found

def toValue (u : Upload) : Value :=
  .record ([("is_image", .bool u.isImage), ("mimes", .list (u.extensions.map .text)),
    ("mime_types", .list (u.mediaTypes.map .text)), ("multiple", .bool u.multiple)] ++
    (u.minSize.map fun n => ("min_size", Value.int n)).toList ++
    (u.maxSize.map fun n => ("max_size", Value.int n)).toList ++
    (u.dimensions.map fun d => ("dimensions", d.toValue)).toList)

end Upload

end RequestSchema
