import RequestSchema.OrderedMap
import RequestSchema.Text.Case
import RequestSchema.Text.Split

/-!
Imports: the short names under which a source uses the classes of other namespaces, read from the
text of an import.
-/
namespace RequestSchema.Source.Imports

open RequestSchema.Text

/-- The text behind a word and the white space after it, if a text begins so. -/
def afterWord? (word : String) (cs : List Char) : Option (List Char) :=
  (dropStart? word.toList cs).bind fun rest =>
    if rest.head?.any isBlank then some (rest.dropWhile isBlank) else none

def isPathPart (c : Char) : Bool := isWord c || c = '\\'

def isNameHead (c : Char) : Bool := c = '_' || foldsToLetter c

/-- The alias behind a qualified name: nothing, or the word `as` in any case and a name. -/
def aliasOf? (cs : List Char) : Option (Option String) :=
  if cs.isEmpty then some none
  else if cs.head?.any isBlank then
    match dropFolded "as".toList (cs.dropWhile isBlank) with
    | some rest =>
        let name := rest.dropWhile isBlank
        if rest.head?.any isBlank && name.head?.any isNameHead && name.all isWord then
          some (some (String.ofList name))
        else none
    | none => none
  else none

/-- A qualified name, without a backslash in front, and its alias; none when an item has another
form. -/
def item? (item : String) : Option (String × Option String) :=
  let cs := match trimBy isBlank item.toList with
    | '\\' :: rest => rest
    | cs => cs
  let name := cs.takeWhile isPathPart
  if name.head?.any isNameHead then
    (aliasOf? (cs.drop name.length)).map fun short => (String.ofList name, short)
  else none

/-- The items of an import and what stands in front of all of them, when they are grouped in
braces. -/
def itemsOf (body : String) : String × List String :=
  match cut? '\x7b' body with
  | some (space, rest) =>
      let inside := ((cutLast? '\x7d' rest).map Prod.fst).getD rest
      (trimChar '\\' (trim space), split ',' inside)
  | none => ("", split ',' body)

def bodyOf (text : String) : String :=
  let cs := text.toList
  let cs := (afterWord? "use" (cs.dropWhile isBlank)).getD cs
  let cs := trimBy isBlank (trimEndBy (· == ';') (trimEndBy isBlank cs))
  String.ofList (((afterWord? "function" cs).or (afterWord? "const" cs)).getD cs)

/-- The names that an import introduces, each an alias and the qualified name that it stands for. -/
def ofText (text : String) : List (String × String) :=
  let (space, items) := itemsOf (bodyOf text)
  items.filterMap fun item => (item? item).map fun (name, short) =>
    let full := if space.isEmpty then name else space ++ "\\" ++ name
    (short.getD (afterLast '\\' full), full)

end RequestSchema.Source.Imports
