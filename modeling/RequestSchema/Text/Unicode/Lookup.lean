
/-!
Look-ups in tables of code points. Ranges and runs ascend, so a look-up stops at the first one
that begins after the code point.
-/
namespace RequestSchema.Text.Unicode

def inRanges (n : Nat) : List (Nat × Nat) → Bool
  | [] => false
  | (first, last) :: rest => if n < first then false else n ≤ last || inRanges n rest

/-- Whether a code point is a member of one of the runs `(first, last, step)`. -/
def inRuns (n : Nat) : List (Nat × Nat × Nat) → Bool
  | [] => false
  | (first, last, step) :: rest =>
      if n < first then false
      else (n ≤ last && (n - first) % step = 0) || inRuns n rest

/-- The image of a code point under the runs `(first, last, step, image)`. -/
def image? (n : Nat) : List (Nat × Nat × Nat × Nat) → Option Nat
  | [] => none
  | (first, last, step, image) :: rest =>
      if n < first then none
      else if n ≤ last && (n - first) % step = 0 then some (image + (n - first))
      else image? n rest

end RequestSchema.Text.Unicode
