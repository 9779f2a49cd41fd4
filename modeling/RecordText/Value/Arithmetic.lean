/-
Sums and products of values.

Integers stay integers. A decimal goes together with decimals and integers, a fraction with
fractions and integers, and every other sum or product of numbers is one of floating-point numbers.
Sequences are put one after the other by a sum and repeated by a product.
-/
import RecordText.Number.Decimal
import RecordText.Value.Content

namespace RecordText

open Number (Binary64 Decimal Exact)

/-- An operation on numbers of every kind. -/
structure Arithmetic where
  integers : Int → Int → Int
  fractions : Exact → Exact → Exact
  decimals : Decimal → Decimal → Option Decimal
  floats : Binary64 → Binary64 → Binary64

namespace Arithmetic

/-- The sum. -/
def sum : Arithmetic := ⟨(· + ·), Exact.add, Decimal.add, Binary64.add⟩

/-- The product. -/
def product : Arithmetic := ⟨(· * ·), Exact.mul, Decimal.mul, Binary64.mul⟩

end Arithmetic

namespace Value

/-- A decimal or an integer as a decimal. -/
def decimal? (v : Value) : Option Decimal :=
  match v.plain with
  | .scalar .decimal s => some (Decimal.ofText s)
  | v => v.int?.map Decimal.ofInt

/-- A fraction or an integer as an exact number. -/
def fraction? (v : Value) : Option Exact :=
  match v.plain with
  | .scalar .fraction s => some (Exact.ofText s)
  | v => v.int?.map Exact.ofInt

/-- A fraction as a value. -/
def ofFraction (x : Exact) : Value := .scalar .fraction x.text

/-- A number among floating-point numbers. One that is too large for them is a fault. -/
def toFloat (v : Value) : Except Fault Binary64 :=
  match v.plain, v.fraction? with
  | .float x, _ => pure x
  | _, some x =>
    match Binary64.ofExact x with
    | .infinite _ => throw .overflow
    | x => pure x
  | _, none => throw .wrongType

/-- The floating-point number in a value, which may also be written in a text. -/
def toBinary64 (v : Value) : Except Fault Binary64 :=
  match v.plain with
  | .text s =>
    match parseFloat s with
    | some x => pure x
    | none => throw .badValue
  | .scalar .npBool s => pure (Binary64.ofInt (if s = "True" then 1 else 0))
  | .scalar .fraction _ => v.toFloat
  | .scalar k s => if isNumberKind k then pure (Binary64.ofText s) else throw .wrongType
  | _ => v.toFloat

/-- An operation on two numbers. -/
def arithmetic (op : Arithmetic) (v w : Value) : Except Fault Value :=
  match v.int?, w.int? with
  | some i, some j => pure (.int (op.integers i j))
  | _, _ =>
    if v.isScalar .decimal || w.isScalar .decimal then
      match v.decimal?, w.decimal? with
      | some x, some y =>
        match op.decimals x y with
        | some z => pure (.scalar .decimal z.text)
        | none => throw .noNumber
      | _, _ => throw .wrongType
    else
      match v.fraction?, w.fraction? with
      | some x, some y => pure (ofFraction (op.fractions x y))
      | _, _ => do return .float (op.floats (← v.toFloat) (← w.toFloat))

/-- The bound of lengths: a sequence cannot be repeated so many times. -/
def lengthBound : Nat := Nat.pow 2 63

/-- `n` copies of a list, one after the other; no copies when `n` is negative. -/
def copies {α : Type} (xs : List α) (n : Int) : List α :=
  (List.replicate n.toNat xs).flatten

/-- How many copies a value asks for. -/
def count (v : Value) : Except Fault Int :=
  match v.int? with
  | some n => if n < -lengthBound || lengthBound ≤ n then throw .overflow else pure n
  | none => throw .wrongType

/-- The sum of two numbers, or two sequences one after the other. -/
def add (v w : Value) : Except Fault Value :=
  match v.plain, w.plain with
  | .text s, .text t => pure (.text (s ++ t))
  | .list xs, .list ys => pure (.list (xs ++ ys))
  | .tuple xs, .tuple ys => pure (.tuple (xs ++ ys))
  | v, w => arithmetic .sum v w

/-- The product of two numbers, or several copies of a sequence. -/
def mul (v w : Value) : Except Fault Value :=
  match v.plain, w.plain with
  | .text s, w | w, .text s => do
    return .text (String.ofList (copies s.toList (← w.count)))
  | .list xs, w | w, .list xs => do return .list (copies xs (← w.count))
  | .tuple xs, w | w, .tuple xs => do return .tuple (copies xs (← w.count))
  | v, w => arithmetic .product v w

end Value

end RecordText
