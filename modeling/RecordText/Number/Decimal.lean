/-
Decimals: numbers with a power of ten of their own.

A decimal is a sign, an integer of digits and a power of ten, so `1.5` and `1.50` are two decimals
of one value. Sums and products are exact and then cut to 28 digits (`Decimal.cut`), a tie going to
the even digit; the sum has the smaller power of its terms, the product the sum of the powers.
-/
import RecordText.Number.Shortest

namespace RecordText.Number

/-- A decimal: `± digits · 10 ^ power`, an infinity, or no number. -/
inductive Decimal
  | nan
  | infinite (negative : Bool)
  | finite (negative : Bool) (digits : Nat) (power : Int)
  deriving DecidableEq, Repr, Inhabited

namespace Decimal

/-- The decimal that a text denotes. -/
def ofText (text : String) : Decimal :=
  let (negative, body) := signed text.toList
  match decimal? body with
  | some (n, e) => .finite negative n e
  | none =>
    match Exact.ofText text with
    | .infinite n => .infinite n
    | _ => .nan

/-- An integer as a decimal. -/
def ofInt (i : Int) : Decimal := .finite (decide (i < 0)) i.natAbs 0

/-- How many digits a result keeps. -/
def precision : Nat := 28

/-- A decimal with no more digits than a result keeps. -/
def cut (negative : Bool) (n : Nat) (e : Int) : Decimal :=
  let extra := (Nat.toDigits 10 n).length - precision
  let m := Binary64.roundDiv n (Nat.pow 10 extra)
  if m = Nat.pow 10 precision then .finite negative (m / 10) (e + extra + 1)
  else .finite negative m (e + extra)

/-- Sign and digits as an integer, for a power that is not larger. -/
def scaledTo (e : Int) (negative : Bool) (n : Nat) (p : Int) : Int :=
  let m : Int := n * Int.pow 10 (p - e).toNat
  if negative then -m else m

/-- The sum; opposite infinities have none. A zero is negative when both terms are. -/
def add : Decimal → Decimal → Option Decimal
  | .nan, _ | _, .nan => some .nan
  | .infinite n, .infinite m => if n == m then some (.infinite n) else none
  | .infinite n, _ | _, .infinite n => some (.infinite n)
  | .finite n a p, .finite m b q =>
    let e := min p q
    let sum := scaledTo e n a p + scaledTo e m b q
    some (cut (if sum = 0 then n && m else decide (sum < 0)) sum.natAbs e)

/-- The product; an infinity times zero has none. -/
def mul : Decimal → Decimal → Option Decimal
  | .nan, _ | _, .nan => some .nan
  | .infinite n, .infinite m => some (.infinite (n != m))
  | .infinite n, .finite m a _ | .finite m a _, .infinite n =>
    if a = 0 then none else some (.infinite (n != m))
  | .finite n a p, .finite m b q => some (cut (n != m) (a * b) (p + q))

/-- A decimal is written with an exponent when its power is positive or its first digit stands
behind the sixth place after the point. -/
def text : Decimal → String
  | .nan => "NaN"
  | .infinite n => if n then "-Infinity" else "Infinity"
  | .finite n a p =>
    let ds := Nat.toDigits 10 a
    let lead := p + ds.length - 1
    let sign := if n then ['-'] else []
    let body :=
      if p ≤ 0 ∧ -6 ≤ lead then
        let places := p.natAbs
        let padded := List.replicate (places + 1 - ds.length) '0' ++ ds
        let whole := padded.take (padded.length - places)
        if places = 0 then whole else whole ++ '.' :: padded.drop (padded.length - places)
      else
        let point := if ds.length = 1 then ds else ds.take 1 ++ '.' :: ds.drop 1
        point ++ 'E' :: (if lead < 0 then '-' else '+') :: Nat.toDigits 10 lead.natAbs
    String.ofList (sign ++ body)

end Decimal

end RecordText.Number
