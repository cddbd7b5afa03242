import RequestSchema.Text.Char

/-!
Lines of a text, each with the line end that closes it, so that joining them gives the text back.
-/
namespace RequestSchema.Text

/-- The lines of a text with their line ends; a carriage return and the line feed after it are one
line end. -/
def splitLines : List Char → List (List Char)
  | [] => []
  | [c] => [[c]]
  | c :: d :: cs =>
      if c = '\r' && d = '\n' then
        match splitLines (d :: cs) with
        | [] => [['\r', '\n']]
        | line :: lines => (c :: line) :: lines
      else if isLineEnd c then [c] :: splitLines (d :: cs)
      else match splitLines (d :: cs) with
        | [] => [[c]]
        | line :: lines => (c :: line) :: lines

def lines (s : String) : List String := (splitLines s.toList).map String.ofList

/-- A text in which every carriage return, and the line feed after it, is a line feed. -/
def unixLines : List Char → List Char
  | [] => []
  | [c] => [if c = '\r' then '\n' else c]
  | c :: d :: cs =>
      if c = '\r' then if d = '\n' then unixLines (d :: cs) else '\n' :: unixLines (d :: cs)
      else c :: unixLines (d :: cs)

def unifyLineEnds (s : String) : String := String.ofList (unixLines s.toList)

/-- Joining the lines gives the text back. -/
theorem flatten_splitLines (cs : List Char) : (splitLines cs).flatten = cs := by
  fun_induction splitLines cs with
  | case1 => rfl
  | case2 => rfl
  | case3 c d cs h hs ih => simp_all
  | case4 c d cs h line lines hs ih => simp_all
  | case5 c d cs h h' ih => simp [ih]
  | case6 c d cs h h' hs ih => simp_all
  | case7 c d cs h h' line lines hs ih => simp_all

end RequestSchema.Text
