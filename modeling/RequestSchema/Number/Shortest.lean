import RequestSchema.Number.Binary64

/-!
Decimal texts of binary floating point numbers. `shortest` finds the fewest digits that read back to
the same number, and among those the nearest to it; `Binary64.text` lays them out, positionally from
`1e-4` up to `1e16` and with an exponent outside.
-/
namespace RequestSchema.Binary64

/-- The size of one quarter of `2 ^ e` on a grid where the power of ten `10 ^ i` has the size
`gridStep e i`; both are natural numbers. -/
def quarterUnit (e i : Int) : Nat := 2 ^ (e - 2).toNat * 10 ^ (-i).toNat

/-- The size of `10 ^ i` on the grid of `quarterUnit e i`. -/
def gridStep (e i : Int) : Nat := 10 ^ i.toNat * 2 ^ (2 - e).toNat

/-- Whether `c * 10 ^ i` is rounded to `m * 2 ^ e`: it lies between the midpoints to the neighbours,
which belong to the interval when the mantissa is even. -/
def readsBack (m : Nat) (e : Int) (c : Nat) (i : Int) : Bool :=
  let low := (if m = 2 ^ 52 ∧ leastExponent < e then 4 * m - 1 else 4 * m - 2) * quarterUnit e i
  let high := (4 * m + 2) * quarterUnit e i
  let x := c * gridStep e i
  if m % 2 = 0 then low ≤ x && x ≤ high else low < x && x < high

/-- The multiple of `10 ^ i` that reads back to `m * 2 ^ e`, if there is one: of the two neighbours
of the number, the nearer that does. -/
def candidate? (m : Nat) (e i : Int) : Option Nat :=
  let x := 4 * m * quarterUnit e i
  let step := gridStep e i
  let c := x / step
  let below := readsBack m e c i
  let above := readsBack m e (c + 1) i
  if below && above then
    let r := 2 * (x % step)
    some (if r < step || (r = step && c % 2 = 0) then c else c + 1)
  else if below then some c
  else if above then some (c + 1)
  else none

/-- The count of decimal digits before the point of `num / den`, negative when zeros follow the
point. The search ends after `fuel` digits. -/
def pointPosition (fuel num den : Nat) : Int :=
  match fuel with
  | 0 => 0
  | fuel + 1 =>
      if den ≤ num then pointPosition fuel num (10 * den) + 1
      else if num = 0 ∨ den ≤ 10 * num then 0
      else pointPosition fuel (10 * num) den - 1

/-- The digits and the power of ten of the shortest decimal that reads back to `m * 2 ^ e`, with at
least `n` and at most `n + fuel` digits. -/
def shortestFrom (m : Nat) (e point : Int) : Nat → Nat → Nat × Int
  | 0, n => (4 * m * quarterUnit e (point - n) / gridStep e (point - n), point - n)
  | fuel + 1, n => match candidate? m e (point - n) with
    | some c => (c, point - n)
    | none => shortestFrom m e point fuel (n + 1)

/-- The digits and the power of ten of the shortest decimal that reads back to `m * 2 ^ e`. -/
def shortest (m : Nat) (e : Int) : Nat × Int :=
  shortestFrom m e (pointPosition 700 (m * 2 ^ e.toNat) (2 ^ (-e).toNat)) 17 1

def decimalDigits (n : Nat) : List Char := Nat.toDigits 10 n

/-- Digits that stand for `0.digits * 10 ^ point`, laid out. -/
def layout (digits : List Char) (point : Int) : List Char :=
  let exponent := point - 1
  if -4 ≤ exponent ∧ exponent < 16 then
    if point ≤ 0 then '0' :: '.' :: List.replicate (-point).toNat '0' ++ digits
    else
      let whole := digits.take point.toNat
      let part := digits.drop point.toNat
      whole ++ List.replicate (point.toNat - whole.length) '0' ++
        '.' :: (if part.isEmpty then ['0'] else part)
  else
    let power := decimalDigits exponent.natAbs
    digits.take 1 ++ (if digits.length ≤ 1 then [] else '.' :: digits.drop 1) ++
      'e' :: (if exponent < 0 then '-' else '+') ::
        (if power.length < 2 then '0' :: power else power)

/-- The decimal text of a number: the fewest digits that read back to it. -/
def text : Binary64 → String
  | nan => "nan"
  | infinite s => if s then "-inf" else "inf"
  | finite s m e =>
      let sign := if s then ['-'] else []
      if m = 0 then String.ofList (sign ++ ['0', '.', '0'])
      else
        let (c, i) := shortest m e
        let all := decimalDigits c
        let digits := (all.reverse.dropWhile (· == '0')).reverse
        String.ofList (sign ++ layout digits (all.length + i))

/-- The decimal text of a finite number with one digit after the point, a half to the even digit. -/
def oneDecimal : Binary64 → String
  | finite s m e =>
      let tenths := nearestQuotient (10 * m * 2 ^ e.toNat) (2 ^ (-e).toNat)
      let sign := if s then "-" else ""
      sign ++ toString (tenths / 10) ++ "." ++ toString (tenths % 10)
  | x => x.text

end RequestSchema.Binary64
