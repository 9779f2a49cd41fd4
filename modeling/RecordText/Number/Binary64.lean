/-
Binary floating-point numbers of 53 bits, in exact integer arithmetic.

A finite number is a sign and `m · 2 ^ e` with `m < 2 ^ 53` and `-1074 ≤ e ≤ 971`, where `m` has
all 53 bits unless `e` is least. `round` takes a ratio to the nearest such number, a tie to the
even one, and to an infinity from the middle above the largest finite number on. Sums and products
are exact ratios that are rounded once.
-/
import RecordText.Number.Exact

namespace RecordText.Number

/-- A binary floating-point number of 53 bits. -/
inductive Binary64
  | nan
  | infinite (negative : Bool)
  | finite (negative : Bool) (m : Nat) (e : Int)
  deriving DecidableEq, Repr, Inhabited

namespace Binary64

/-- The exponent of the least positive number. -/
def leastExponent : Int := -1074

/-- The largest exponent of a finite number. -/
def greatestExponent : Int := 971

/-- `a / b` to the nearest integer, a tie to the even one. -/
def roundDiv (a b : Nat) : Nat :=
  let q := a / b
  let r := a % b
  if 2 * r < b then q
  else if b < 2 * r then q + 1
  else if q % 2 = 0 then q else q + 1

/-- The ratio `a / b` measured in units of `2 ^ e`. -/
def inUnits (a b : Nat) (e : Int) : Nat × Nat :=
  if e < 0 then (a * Nat.pow 2 e.natAbs, b) else (a, b * Nat.pow 2 e.natAbs)

/-- The unit in which the ratio `a / b` has 53 bits before the point, or the least unit. -/
def unitOf (a b : Nat) : Int :=
  let guess : Int := (a.log2 : Int) - (b.log2 : Int) - 52
  let u := inUnits a b guess
  max leastExponent (if u.1 / u.2 < Nat.pow 2 52 then guess - 1 else guess)

/-- The nearest number to `± a / b`, for positive `b`. -/
def round (negative : Bool) (a b : Nat) : Binary64 :=
  if a = 0 then .finite negative 0 leastExponent
  else
    let e := unitOf a b
    let u := inUnits a b e
    let m := roundDiv u.1 u.2
    let (m, e) := if m = Nat.pow 2 53 then (Nat.pow 2 52, e + 1) else (m, e)
    if greatestExponent < e then .infinite negative else .finite negative m e

/-- The number nearest to a ratio, the infinities and the missing number being themselves. -/
def ofExact : Exact → Binary64
  | .nan => .nan
  | .infinite n => .infinite n
  | .ratio a b => round (decide (a < 0)) a.natAbs b

/-- The number that a decimal text denotes; the sign of a zero is kept. -/
def ofText (text : String) : Binary64 :=
  match Exact.ofText text with
  | .ratio 0 _ => round (signed text.toList).1 0 1
  | x => ofExact x

/-- The number nearest to an integer. -/
def ofInt (i : Int) : Binary64 := ofExact (.ofInt i)

/-- What the number denotes. -/
def exact : Binary64 → Exact
  | .nan => .nan
  | .infinite n => .infinite n
  | .finite n m e =>
    let sign : Int := if n then -1 else 1
    if e < 0 then .ratio (sign * m) (Nat.pow 2 e.natAbs)
    else .ratio (sign * (m * Nat.pow 2 e.natAbs)) 1

/-- Whether the number carries a minus sign, also when it is a zero. -/
def negative : Binary64 → Bool
  | .nan => false
  | .infinite n | .finite n _ _ => n

/-- Zero, of either sign. -/
def isZero (x : Binary64) : Bool := x.exact.isZero

/-- The number without its sign. -/
def abs : Binary64 → Binary64
  | .nan => .nan
  | .infinite _ => .infinite false
  | .finite _ m e => .finite false m e

/-- The rounded sum. A sum of two negative zeros is a negative zero, any other zero is positive. -/
def add (x y : Binary64) : Binary64 :=
  match x.exact, y.exact with
  | .nan, _ | _, .nan => .nan
  | .infinite n, .infinite m => if n == m then .infinite n else .nan
  | .infinite n, _ | _, .infinite n => .infinite n
  | .ratio a b, .ratio c d =>
    let sum := a * d + c * b
    if sum = 0 then round (x.negative && y.negative) 0 1 else ofExact (.ratio sum (b * d))

/-- The rounded product; its sign is that of the factors also when it is a zero. -/
def mul (x y : Binary64) : Binary64 :=
  let sign := x.negative != y.negative
  match x.exact, y.exact with
  | .nan, _ | _, .nan => .nan
  | .infinite _, .infinite _ => .infinite sign
  | .infinite _, .ratio a _ | .ratio a _, .infinite _ => if a = 0 then .nan else .infinite sign
  | .ratio a b, .ratio c d => round sign (a * c).natAbs (b * d)

end Binary64

end RecordText.Number
