/-
Exact numbers: the values on which numbers of different kinds are compared.

An integer, a binary floating-point number and a decimal text all denote a ratio of integers, an
infinity, or no number at all; `Exact.lt` and `Exact.same` compare these values without rounding.
What is no number is neither smaller than nor equal to anything, itself included.
-/
namespace RecordText.Number

/-- What a number denotes: a ratio of integers, an infinity, or no number. -/
inductive Exact
  | nan
  | infinite (negative : Bool)
  | ratio (num : Int) (den : Nat)
  deriving DecidableEq, Repr, Inhabited

namespace Exact

/-- An integer as a ratio. -/
def ofInt (i : Int) : Exact := .ratio i 1

/-- `a < b`, by cross multiplication; denominators are positive. -/
def lt : Exact → Exact → Bool
  | .nan, _ | _, .nan => false
  | .infinite n, .infinite m => n && !m
  | .infinite n, .ratio _ _ => n
  | .ratio _ _, .infinite m => !m
  | .ratio a b, .ratio c d => decide (a * d < c * b)

/-- `a = b` as numbers. -/
def same : Exact → Exact → Bool
  | .infinite n, .infinite m => n == m
  | .ratio a b, .ratio c d => decide (a * d = c * b)
  | _, _ => false

/-- The ratio in lowest terms: equal numbers have one reduced form. -/
def reduced : Exact → Exact
  | .ratio a b => let g := Nat.gcd a.natAbs b; .ratio (a / g) (b / g)
  | x => x

/-- Zero, of either sign. -/
def isZero : Exact → Bool
  | .ratio a _ => a == 0
  | _ => false

/-- The sum of two ratios; nothing else has one. -/
def add : Exact → Exact → Exact
  | .ratio a b, .ratio c d => .ratio (a * d + c * b) (b * d)
  | _, _ => .nan

/-- The product of two ratios; nothing else has one. -/
def mul : Exact → Exact → Exact
  | .ratio a b, .ratio c d => .ratio (a * c) (b * d)
  | _, _ => .nan

/-- A ratio in lowest terms, without a denominator of one. -/
def text (x : Exact) : String :=
  match x.reduced with
  | .ratio a b => if b = 1 then toString a else toString a ++ "/" ++ toString b
  | .infinite _ | .nan => ""

end Exact

/-- The value of a run of decimal digits, if it is one. -/
def digits? (s : List Char) : Option Nat :=
  if s.isEmpty || !s.all Char.isDigit then none
  else some (s.foldl (fun n c => 10 * n + (c.toNat - '0'.toNat)) 0)

/-- The value of a run of hexadecimal digits in lower case. Other characters have no value. -/
def hexadecimal (s : List Char) : Nat :=
  s.foldl (fun n c => if c.isDigit then 16 * n + (c.toNat - '0'.toNat)
    else if 'a' ≤ c && c ≤ 'f' then 16 * n + (c.toNat - 'a'.toNat + 10) else n) 0

/-- Splits off a leading sign. -/
def signed : List Char → Bool × List Char
  | '-' :: s => (true, s)
  | '+' :: s => (false, s)
  | s => (false, s)

/-- An integer with an optional sign. -/
def integer? (s : List Char) : Option Int :=
  let (negative, body) := signed s
  (digits? body).map fun n => if negative then -(n : Int) else n

/-- The digits and the decimal exponent of an unsigned decimal: `digits · 10 ^ exponent`. -/
def decimal? (s : List Char) : Option (Nat × Int) :=
  let isMark := fun c => c == 'e' || c == 'E'
  let mantissa := s.takeWhile fun c => !isMark c
  let whole := mantissa.takeWhile fun c => c != '.'
  let part := (mantissa.dropWhile fun c => c != '.').drop 1
  let power := match s.dropWhile fun c => !isMark c with
    | [] => some 0
    | _ :: e => integer? e
  match digits? (whole ++ part), power with
  | some n, some e => some (n, e - part.length)
  | _, _ => none

/-- `n · 10 ^ e` as a ratio. -/
def scaled (n : Nat) (e : Int) : Nat × Nat :=
  if e < 0 then (n, Nat.pow 10 e.natAbs) else (n * Nat.pow 10 e.natAbs, 1)

/-- The number that a text denotes: a decimal, a fraction of integers, an infinity, or none. -/
def Exact.ofText (text : String) : Exact :=
  let (negative, body) := signed text.toList
  let sign : Int := if negative then -1 else 1
  let lower := body.map Char.toLower
  if lower = "inf".toList ∨ lower = "infinity".toList then .infinite negative
  else match decimal? body with
    | some (n, e) => let r := scaled n e; .ratio (sign * r.1) r.2
    | none =>
      let top := body.takeWhile fun c => c != '/'
      let bottom := (body.dropWhile fun c => c != '/').drop 1
      match digits? top, digits? bottom with
      | some n, some (d + 1) => .ratio (sign * n) (d + 1)
      | _, _ => .nan

end RecordText.Number
