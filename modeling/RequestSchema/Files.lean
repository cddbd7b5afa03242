import RequestSchema.Text.Split

/-!
Files that an analysis can read: texts under relative paths. Every directory on the way to a file
exists, and nothing else does.
-/
namespace RequestSchema

open RequestSchema.Text

/-- A path: whether it begins at the root, and its segments, without those that are empty or a
point. -/
structure Path where
  absolute : Bool
  segments : List String
  deriving DecidableEq, Repr

namespace Path

def ofText (s : String) : Path :=
  ⟨s.toList.head? = some '/', (split '/' s).filter fun p => !p.isEmpty && p != "."⟩

def text (p : Path) : String :=
  let inner := "/".intercalate p.segments
  if p.absolute then "/" ++ inner else if inner.isEmpty then "." else inner

/-- A path behind a directory; a path that begins at the root stays as it is. -/
def under (directory p : Path) : Path :=
  if p.absolute then p else ⟨directory.absolute, directory.segments ++ p.segments⟩

end Path

/-- Texts under relative paths, in a system that takes names and paths of some lengths, in bytes. -/
structure Files where
  entries : List (List String × String) := []
  longestName : Nat := 255
  longestPath : Nat := 4095
  deriving DecidableEq, Repr

/-- What is found under a path. -/
inductive Found where
  | file (text : String)
  | directory
  | missing
  /-- the path leads through a file -/
  | obstructed
  /-- the path, or a name on it, is longer than the system takes -/
  | tooLong
  deriving DecidableEq, Repr

namespace Files

def ofList (entries : List (String × String)) : Files :=
  { entries := entries.map fun (path, text) => ((Path.ofText path).segments, text) }

/-- Whether a directory holds a file, perhaps in further directories. -/
def hasDirectory (files : Files) (directory : List String) : Bool :=
  directory.isEmpty || files.entries.any fun (path, _) =>
    directory.length < path.length && path.take directory.length = directory

/-- What is found behind a directory. Two points lead back to the directory above. -/
def findFrom (files : Files) (directory : List String) : List String → Found
  | [] => .directory
  | segment :: rest =>
      if segment = ".." then
        if directory.isEmpty then (if rest.isEmpty then .directory else .missing)
        else findFrom files directory.dropLast rest
      else if files.longestName < segment.utf8ByteSize then .tooLong
      else
        let next := directory ++ [segment]
        match files.entries.find? fun entry => entry.1 = next with
        | some entry => if rest.isEmpty then .file entry.2 else .obstructed
        | none => if files.hasDirectory next then findFrom files next rest else .missing

/-- What is found under a path. There is nothing under one with a null character. -/
def find (files : Files) (path : Path) : Found :=
  if path.text.toList.contains '\x00' then .missing
  else if files.longestPath < path.text.utf8ByteSize then .tooLong
  else if path.absolute then
    match path.segments with
    | [] => .directory
    | segment :: _ => if files.longestName < segment.utf8ByteSize then .tooLong else .missing
  else findFrom files [] path.segments

end Files

end RequestSchema
