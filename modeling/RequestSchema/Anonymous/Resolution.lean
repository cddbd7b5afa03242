import RequestSchema.Anonymous.Fragment
import RequestSchema.Anonymous.Handle
import RequestSchema.Enumeration.Reference
import RequestSchema.Extraction.Paths
import RequestSchema.Settings

/-!
Resolving an anonymous class: its rules, labels and messages are read from the lines where it was
written, or, when these cannot be used, asked of an object of the class.
-/
namespace RequestSchema.Anonymous

open RequestSchema.Source RequestSchema.Extraction

/-- How the rules of a class were found. -/
inductive Strategy where
  | source
  | reflection
  | none
  deriving DecidableEq, Repr

def Strategy.name : Strategy → String
  | source => "ast"
  | reflection => "reflection"
  | none => "none"

/-- What was found out about a class. -/
structure Resolution where
  strategy : Strategy
  rules : RuleSet := .empty
  labels : OrderedMap Key Value := .empty
  messages : OrderedMap Key Value := .empty
  /-- the branches, when they were asked for and read from the source -/
  conditional : Option ConditionalRules := none

/-- The branches of a class. Rules that were asked of an object are one branch that is always
taken. -/
def Resolution.branches (r : Resolution) : Except Fault ConditionalRules :=
  match r.conditional, r.strategy with
  | some c, _ => .ok c
  | Option.none, .none => .ok {}
  | Option.none, _ => ConditionalRules.ofBranches [⟨[], r.rules⟩]

abbrev RequestFactory := Except Raised Value

def anonymousContext : String := "AnonymousRequestResolver"

abbrev Metadata := List (String × Value)

def warnOf (kind message : String) (metadata : Metadata) : Analysis Unit :=
  .warn anonymousContext message (metadata ++ [("error_type", .text kind)])

def errorOf (kind message : String) (metadata : Metadata) : Analysis Unit :=
  .error anonymousContext message (metadata ++ [("error_type", .text kind)])

/-- Why a file cannot be read. -/
def readFailure (path : Path) : Found → Raised
  | .directory => { kind := "IsADirectoryError"
                    text := "[Errno 21] Is a directory: " ++ Text.quoted path.text }
  | .obstructed => { kind := "NotADirectoryError"
                     text := "[Errno 20] Not a directory: " ++ Text.quoted path.text }
  | .tooLong => { kind := "OSError", text := (Fault.pathTooLong path.text).message }
  | _ => { kind := "FileNotFoundError"
           text := "[Errno 2] No such file or directory: " ++ Text.quoted path.text }

/-- Go on after an exception if it is an ordinary one. -/
def Raised.caught {α : Type} (e : Raised) (rest : Analysis α) : Analysis α :=
  if e.ordinary then rest else .fault (.raised e.kind e.text)

def locateIn (text : String) (first last : Int) (metadata : Metadata) :
    Analysis (Option ClassBody) := do
  match (← Analysis.registry).parse (fragment (Text.unifyLineEnds text) first last) with
  | .error problem =>
      errorOf "anonymous_ast_parse_error"
        ("Failed to parse anonymous class source: " ++ problem.message) metadata
      return none
  | .ok tree =>
      if tree.isEmpty then
        warnOf "anonymous_ast_null_result" "Anonymous class source parsed to an empty tree" metadata
        return none
      match tree.anonymousClass? with
      | some c => return some c
      | none =>
          warnOf "anonymous_class_node_not_found"
            "Anonymous class node not found in source range" metadata
          return none

/-- The label of the source of a class, and the class in its lines. What prevents it from being read
is reported. -/
def locate (h : Handle) : Analysis (Option (String × ClassBody)) := do
  let metadata : Metadata := [("class_name", .text h.name)]
  match h.file.filter (!·.isEmpty) with
  | none =>
      warnOf "anonymous_line_info_unavailable" "No source file available for anonymous class"
        metadata
      return none
  | some file =>
      let metadata := metadata ++ [("file_path", .text file)]
      let first := h.startLine.getD 0
      let last := h.endLine.getD 0
      if first = 0 || last = 0 || last < first then
        warnOf "anonymous_line_info_unavailable" "Line range of anonymous class is unavailable"
          metadata
        return none
      let path := Path.ofText file
      match (← Analysis.registry).files.find path with
      | .file text => return (← locateIn text first last metadata).map fun c => (file, c)
      | found =>
          if file.toList.contains '\x00' then .fault .unusablePath
          let failure := readFailure path found
          warnOf "file_not_found" ("Source file could not be read: " ++ failure.text)
            (metadata ++ [("exception_class", .text failure.kind)])
          return none

def textValues (texts : OrderedMap String String) : OrderedMap Key Value :=
  .ofList (texts.entries.map fun (key, text) => (.text key, .text text))

def textsOf (c : ClassBody) (name : String) : OrderedMap Key Value :=
  ((c.method? name).map fun m => textValues (methodTexts m)).getD .empty

def fromSource (settings : Settings) (h : Handle) (conditional : Bool) :
    Analysis (Option Resolution) := do
  match ← locate h with
  | none => return none
  | some (label, c) =>
      let texts : Resolution :=
        { strategy := .source, labels := textsOf c "attributes", messages := textsOf c "messages" }
      match c.method? settings.rulesMethod with
      | none => return some texts
      | some m =>
          if conditional then
            let branches ←
              (methodBranches label c settings.helperDepth settings.predicateWords m :
                Logged ConditionalRules)
            return some { texts with rules := branches.merged, conditional := some branches }
          else
            let rules ← (methodRules label c settings.helperDepth m : Logged RuleSet)
            return some { texts with rules }

def failureOf (name : String) (e : Raised) : Metadata :=
  [("method", .text name), ("exception_class", .text e.kind)]

/-- The entries that a method returns; a failure is a warning, and then there are none. -/
def optionalEntries (h : Handle) (before : History) (name : String) (metadata : Metadata) :
    Analysis Entries :=
  match h.invoke before name with
  | .ok returned => (returned.copy : Except Fault Entries)
  | .error e => e.caught do
      warnOf "anonymous_non_critical_method_failure" (name ++ "() raised: " ++ e.text)
        (metadata ++ failureOf name e)
      return []

/-- Put a request into an object of a class with a property for it. A failure is a warning. The
result is what has been asked of the object then. -/
def populate (h : Handle) (factory : RequestFactory) (metadata : Metadata) : Analysis History := do
  let made : History := [.create]
  if !h.behaviour.hasRequest made then return made
  let failed (e : Raised) (calls : History) : Analysis History := e.caught do
    warnOf "anonymous_request_property_error" ("Could not populate request property: " ++ e.text)
      (metadata ++ [("exception_class", .text e.kind)])
    return calls
  match factory with
  | .error e => failed e made
  | .ok request =>
      let filled := made ++ [.populate request]
      match h.behaviour.populate request with
      | .error e => failed e filled
      | .ok _ => return filled

/-- What an object of a class says. When its rules fail, nothing else is asked. -/
def byReflection (settings : Settings) (factory : RequestFactory) (h : Handle) :
    Analysis (Option Resolution) := do
  let file := (h.file.filter (!·.isEmpty)).getD "unknown"
  let metadata : Metadata := [("class_name", .text h.name), ("file_path", .text file)]
  match h.behaviour.create with
  | .error e => e.caught do
      errorOf "anonymous_instantiation_error" ("Failed to create instance: " ++ e.text)
        (metadata ++ [("exception_class", .text e.kind)])
      return none
  | .ok _ =>
      let filled ← populate h factory metadata
      match h.invoke filled settings.rulesMethod with
      | .error e => e.caught do
          errorOf "anonymous_method_invocation_error"
            (settings.rulesMethod ++ "() raised: " ++ e.text)
            (metadata ++ failureOf settings.rulesMethod e)
          return some { strategy := .reflection }
      | .ok returned =>
          let rules ← (returned.copy : Except Fault Entries)
          let ruled := h.behind filled settings.rulesMethod
          let labels ← optionalEntries h ruled "attributes" metadata
          let labelled := h.behind ruled "attributes"
          let messages ← optionalEntries h labelled "messages" metadata
          let calls := h.behind labelled "messages"
          return some { strategy := .reflection
                        rules := rules.valuesAt calls
                        labels := labels.valuesAt calls
                        messages := messages.valuesAt calls }

/-- What can be found out about a class: from its source, else from an object of it. -/
def resolve (settings : Settings) (factory : RequestFactory) (h : Handle) (conditional : Bool) :
    Analysis Resolution := do
  match ← fromSource settings h conditional with
  | some r => return r
  | none =>
      match ← byReflection settings factory h with
      | some r => return r
      | none => return { strategy := .none }

def sourceNames (h : Handle) : Analysis (Option String × OrderedMap String String) := do
  let space := if h.space.isEmpty then none else some h.space
  match h.file.filter (!·.isEmpty) with
  | none => return (space, .empty)
  | some file =>
      let path := Path.ofText file
      match (← Analysis.registry).files.find path with
      | .file text =>
          match ← Analysis.parse text (some path.text) with
          | some tree => return (space.or tree.namespace?, tree.aliases)
          | none => return (space, .empty)
      | .tooLong => .fault (.pathTooLong path.text)
      | _ => return (space, .empty)

end RequestSchema.Anonymous
