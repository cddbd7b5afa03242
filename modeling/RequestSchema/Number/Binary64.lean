
/-!
Binary floating point numbers of 64 bits as exact data. A finite number is a sign, a mantissa below
`2 ^ 53` and a power of two; every operation computes its exact result and rounds it once, to the
nearest representable number and to the even mantissa on a tie.
-/
namespace RequestSchema

-- Powers are those of `Nat` and `Int` themselves, whatever algebra a later module imports.
attribute [instance (high), default_instance high] instPowNat

/-- A binary floating point number. `finite negative m e` stands for `± m * 2 ^ e`; results of
`Binary64.round` have `m < 2 ^ 53`, `-1074 ≤ e ≤ 971` and, above the smallest exponent,
`2 ^ 52 ≤ m`, so that each number has one form. -/
inductive Binary64 where
  | finite (negative : Bool) (mantissa : Nat) (exponent : Int)
  | infinite (negative : Bool)
  | nan
  deriving DecidableEq, Repr

namespace Binary64

def leastExponent : Int := -1074

def greatestExponent : Int := 971

def zero (negative : Bool) : Binary64 := .finite negative 0 leastExponent

/-- The quotient rounded to the nearest integer, a half to the even one. -/
def nearestQuotient (num den : Nat) : Nat :=
  let q := num / den
  let r := num % den
  if 2 * r < den then q else if 2 * r = den then q + q % 2 else q + 1

/-- The parts of `num / den / 2 ^ e` as a quotient of natural numbers. -/
def scaledQuotient (num den : Nat) (e : Int) : Nat × Nat :=
  if e < 0 then (num * 2 ^ e.natAbs, den) else (num, den * 2 ^ e.natAbs)

/-- The exponent at which `num / den` has a mantissa of 53 bits, unless that lies below the least
exponent. -/
def exponentOf (num den : Nat) : Int :=
  let guess : Int := (num.log2 : Int) - den.log2 - 52
  let (n, d) := scaledQuotient num den guess
  max leastExponent (if n / d < 2 ^ 52 then guess - 1 else guess)

/-- The number nearest to `± num / den`. -/
def round (negative : Bool) (num den : Nat) : Binary64 :=
  if num = 0 then zero negative
  else
    let e := exponentOf num den
    let (n, d) := scaledQuotient num den e
    let m := nearestQuotient n d
    let (m, e) := if m = 2 ^ 53 then (2 ^ 52, e + 1) else (m, e)
    if greatestExponent < e then .infinite negative else .finite negative m e

/-- The number nearest to `± digits * 10 ^ power`. Far outside the range of finite numbers the
power of ten is not computed. -/
def ofDecimal (negative : Bool) (digits : Nat) (power : Int) : Binary64 :=
  if digits = 0 then zero negative
  else if 400 < power then .infinite negative
  else if power < -400 - (digits.log2 : Int) then zero negative
  else if power < 0 then round negative digits (10 ^ power.natAbs)
  else round negative (digits * 10 ^ power.natAbs) 1

def ofInt (n : Int) : Binary64 := round (n < 0) n.natAbs 1

/-- Whether the number is neither infinite nor undefined. -/
def isFinite : Binary64 → Bool
  | finite .. => true
  | _ => false

def neg : Binary64 → Binary64
  | finite s m e => finite (!s) m e
  | infinite s => infinite (!s)
  | nan => nan

/-- A signed mantissa and a power of two as an integer multiple of `2 ^ base`, for a base not above
the exponent. -/
def unitsAt (base : Int) (negative : Bool) (mantissa : Nat) (exponent : Int) : Int :=
  let n : Int := mantissa * 2 ^ (exponent - base).toNat
  if negative then -n else n

/-- The number nearest to `units * 2 ^ base`; a zero takes the given sign. -/
def ofUnits (zeroNegative : Bool) (units : Int) (base : Int) : Binary64 :=
  let negative := if units = 0 then zeroNegative else units < 0
  if base < 0 then round negative units.natAbs (2 ^ base.natAbs)
  else round negative (units.natAbs * 2 ^ base.natAbs) 1

def add : Binary64 → Binary64 → Binary64
  | nan, _ => nan
  | _, nan => nan
  | infinite s, infinite t => if s = t then infinite s else nan
  | infinite s, _ => infinite s
  | _, infinite s => infinite s
  | finite s m e, finite t n f =>
      let base := min e f
      ofUnits (s && t) (unitsAt base s m e + unitsAt base t n f) base

def sub (x y : Binary64) : Binary64 := add x y.neg

def scale (power : Int) : Binary64 → Binary64
  | finite s m e => ofUnits s (if s then -(m : Int) else m) (e + power)
  | x => x

def lt : Binary64 → Binary64 → Bool
  | nan, _ => false
  | _, nan => false
  | infinite s, infinite t => s && !t
  | infinite s, _ => s
  | _, infinite s => !s
  | finite s m e, finite t n f =>
      let base := min e f
      unitsAt base s m e < unitsAt base t n f

/-- The truth of `x < n` for an integer `n`, which need not be representable. -/
def ltInt (x : Binary64) (n : Int) : Bool :=
  match x with
  | nan => false
  | infinite s => s
  | finite s m e => let base := min e 0; unitsAt base s m e < n * 2 ^ (-base).toNat

/-- The truth of `n < x` for an integer `n`, which need not be representable. -/
def intLt (n : Int) (x : Binary64) : Bool :=
  match x with
  | nan => false
  | infinite s => !s
  | finite s m e => let base := min e 0; n * 2 ^ (-base).toNat < unitsAt base s m e

def fraction? : Binary64 → Option (Int × Nat)
  | finite s m e => some (unitsAt (min e 0) s m e, 2 ^ (-(min e 0)).toNat)
  | _ => none

def truncate? (x : Binary64) : Option Int := x.fraction?.map fun (n, d) => n.tdiv d

def ceil? (x : Binary64) : Option Int := x.fraction?.map fun (n, d) => -((-n).fdiv d)

def floor? (x : Binary64) : Option Int := x.fraction?.map fun (n, d) => n.fdiv d

end Binary64

end RequestSchema
