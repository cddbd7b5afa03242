import RequestSchema.Text.Lines
import RequestSchema.Text.Split

/-!
Fragments: the lines of an anonymous class, made a source of their own.
-/
namespace RequestSchema.Anonymous

open RequestSchema.Text

/-- The items from one position up to another, which is excluded. A negative position counts from
the end. -/
def slice {α : Type} (start stop : Int) (items : List α) : List α :=
  let place (i : Int) : Nat := if i < 0 then (i + items.length).toNat else i.toNat
  (items.take (place stop)).drop (place start)

def beginsClass (cs : List Char) : Bool :=
  match dropStart? "new".toList cs with
  | none => false
  | some rest =>
      rest.head?.any isBlank &&
        match dropStart? "class".toList (rest.dropWhile isBlank) with
        | none => false
        | some after => !after.head?.any isWord

def fromClass? (cs : List Char) : Option (List Char) :=
  firstMatch (fun rest => if beginsClass rest then some rest else none) cs

/-- The beginning of a text up to its last closing brace, which is included. -/
def throughBrace? (cs : List Char) : Option (List Char) :=
  (cutChars '\x7d' cs.reverse).map fun (_, before) => ('\x7d' :: before).reverse

/-- The class expression in some lines: from where a class begins on the first one up to the last
closing brace on the last one. On a single line the brace may come first, and then nothing is
left. -/
def classExpression? (lines : List (List Char)) : Option (List Char) := do
  let first ← lines.head?
  let last ← lines.getLast?
  let opening ← fromClass? first
  let closing ← throughBrace? last
  if lines.length = 1 then
    return closing.drop (first.length - opening.length)
  else
    return opening ++ (lines.drop 1).dropLast.flatten ++ closing

/-- The source made of the lines from `first` to `last`, counted from one. A class expression among
them is returned by the source; lines without one are taken as they are. -/
def fragmentOf (lines : List (List Char)) (first last : Int) : List Char :=
  let selected := slice (first - 1) last lines
  match classExpression? selected with
  | some e => "<?php\nreturn ".toList ++ e ++ ";\n".toList
  | none => "<?php\n".toList ++ selected.flatten

def fragment (text : String) (first last : Int) : String :=
  String.ofList (fragmentOf (splitLines text.toList) first last)

end RequestSchema.Anonymous
