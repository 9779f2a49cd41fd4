/-
The shortest decimal text of a binary floating-point number.

For one digit, two digits and so on, the two neighbours of the number on that decimal grid are
tested: the first grid with a neighbour that rounds to the number wins, and of two such neighbours
the nearer one. `Binary64.text` writes the digits with a point when the first digit stands between
the fourth place after the point and the sixteenth before it, and with an exponent otherwise.
-/
import RecordText.Number.Binary64

namespace RecordText.Number

namespace Binary64

/-- The exponent of the leading decimal digit of the positive ratio `a / b`. -/
def leadingPower (a b : Nat) : Int :=
  if b ≤ a then ((Nat.toDigits 10 (a / b)).length : Int) - 1
  else
    let d := (Nat.toDigits 10 (b / a)).length
    if b ≤ a * Nat.pow 10 (d - 1) then -((d : Int) - 1) else -(d : Int)

/-- Whether `c · 10 ^ p` rounds to the positive number `m · 2 ^ e`. All is measured in quarters of
the unit `2 ^ e`: the upper end of the interval is two quarters away, the lower end two, or one
where the unit below is half as large. The ends belong to even numbers. -/
def roundsTo (m : Nat) (e : Int) (c : Nat) (p : Int) : Bool :=
  let r := scaled c p
  let x := inUnits (4 * r.1) r.2 e
  let low := if m = Nat.pow 2 52 ∧ leastExponent < e then 4 * m - 1 else 4 * m - 2
  let high := 4 * m + 2
  if m % 2 = 0 then low * x.2 ≤ x.1 && x.1 ≤ high * x.2
  else low * x.2 < x.1 && x.1 < high * x.2

/-- The neighbours of `a / b` on the grid of `10 ^ p`, the nearer one first. -/
def neighbours (a b : Nat) (p : Int) : List Nat :=
  let x := if p < 0 then (a * Nat.pow 10 p.natAbs, b) else (a, b * Nat.pow 10 p.natAbs)
  let q := x.1 / x.2
  let r := x.1 % x.2
  if 2 * r < x.2 ∨ (2 * r = x.2 ∧ q % 2 = 0) then [q, q + 1] else [q + 1, q]

/-- The shortest digits `c` and their power `p` with `c · 10 ^ p` rounding to `m · 2 ^ e`;
seventeen digits always suffice. -/
def shortest (m : Nat) (e : Int) : Nat × Int :=
  let v := if e < 0 then (m, Nat.pow 2 e.natAbs) else (m * Nat.pow 2 e.natAbs, 1)
  let lead := leadingPower v.1 v.2
  let tries := (List.range 17).filterMap fun (n : Nat) =>
    let p : Int := lead - n
    ((neighbours v.1 v.2 p).find? fun c => roundsTo m e c p).map fun c => (c, p)
  tries.headD (0, 0)

/-- The digits without trailing zeros, and the exponent of the leading one. -/
def significant (c : Nat) (p : Int) : List Char × Int :=
  let ds := Nat.toDigits 10 c
  let kept := (ds.reverse.dropWhile (· == '0')).reverse
  (kept, p + ds.length - 1)

/-- Digits with a leading digit of exponent `lead`, written with a point. -/
def positional (ds : List Char) (lead : Int) : List Char :=
  if lead < 0 then '0' :: '.' :: (List.replicate (lead.natAbs - 1) '0' ++ ds)
  else
    let n := lead.natAbs + 1
    let whole := ds.take n ++ List.replicate (n - ds.length) '0'
    let part := ds.drop n
    whole ++ '.' :: (if part.isEmpty then ['0'] else part)

/-- Digits with a leading digit of exponent `lead`, written with an exponent of two digits or
more. -/
def scientific (ds : List Char) (lead : Int) : List Char :=
  let mark := if lead < 0 then '-' else '+'
  let power := Nat.toDigits 10 lead.natAbs
  let power := if power.length < 2 then '0' :: power else power
  let body := match ds with
    | [] => ['0']
    | [d] => [d]
    | d :: r => d :: '.' :: r
  body ++ 'e' :: mark :: power

/-- The shortest text that reads back as the number. -/
def text : Binary64 → String
  | .nan => "nan"
  | .infinite n => if n then "-inf" else "inf"
  | .finite n m e =>
    let sign := if n then ['-'] else []
    if m = 0 then String.ofList (sign ++ ['0', '.', '0'])
    else
      let (c, p) := shortest m e
      let (ds, lead) := significant c p
      let body := if -4 ≤ lead ∧ lead < 16 then positional ds lead else scientific ds lead
      String.ofList (sign ++ body)

end Binary64

end RecordText.Number
