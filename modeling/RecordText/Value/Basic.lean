/-
Values: what the members of a record may hold.

Most values are data: texts, numbers, containers, markers of missing data, scalars of known classes,
members of enumerations, types. A *record* is an instance of a class: it may wrap an underlying
value, when its class is derived from a built-in one, and it has attributes. The attributes are
either part of the value or kept in a store under an address, where they can change.

`Value.plain` looks through records and enumeration members to the data behind them; what it gives
decides whether a value counts as a text or as a number.
-/
import RecordText.Ty.Print
import RecordText.Number.Shortest

namespace RecordText

open Number (Binary64 Exact)

/-- The markers of missing data. -/
inductive Missing
  | na
  | nat
  deriving DecidableEq, Repr, Inhabited

/-- A value. -/
inductive Value
  | absent
  | missing (m : Missing)
  | bool (b : Bool)
  | int (i : Int)
  | float (x : Binary64)
  | text (s : String)
  | list (xs : List Value)
  | tuple (xs : List Value)
  | dict (entries : List (Value × Value))
  /-- A scalar of a known class, known by its text. -/
  | scalar (kind : KnownClass) (text : String)
  | member (m : EnumMember)
  /-- An instance with its attributes. -/
  | record (cls : ClassRef) (base : Option Value) (attrs : List (String × Value))
  /-- An instance whose attributes are kept in the store. -/
  | stored (address : Nat) (cls : ClassRef) (base : Option Value)
  | type (t : Ty)
  /-- A method taken from an instance. -/
  | routine (name : String)
  deriving Repr, Inhabited

namespace Value

/-- Whether the value stands for missing data. -/
def isAbsent : Value → Bool
  | .absent | .missing _ => true
  | _ => false

/-- A literal value as a value. -/
def ofLiteral : Literal → Value
  | .absent => .absent
  | .bool b => .bool b
  | .int i => .int i
  | .text s => .text s
  | .member m => .member m
  | .scalar .float p => .float (Binary64.ofText p)
  | .scalar k p => .scalar k p

/-- The data behind a value. -/
def plain : Value → Value
  | .record _ (some b) _ => b.plain
  | .stored _ _ (some b) => b.plain
  | .member m => if m.owner = .color then .member m else ofLiteral m.content
  | .scalar .npStr s => .text s
  | v => v

/-- The value that an instance wraps. -/
def wrapped? : Value → Option Value
  | .record _ b _ | .stored _ _ b => b
  | _ => none

/-- The text behind a value that counts as a text. -/
def text? (v : Value) : Option String :=
  match v.plain with
  | .text s => some s
  | _ => none

/-- Known classes whose scalars are numbers. -/
def isNumberKind (k : KnownClass) : Bool := k.below .number || k == .npBool

/-- The number behind a value that counts as a number. -/
def number? (v : Value) : Option Exact :=
  match v.plain with
  | .bool b => some (.ofInt (if b then 1 else 0))
  | .int i => some (.ofInt i)
  | .float x => some x.exact
  | .scalar .npBool s => some (.ofInt (if s = "True" then 1 else 0))
  | .scalar k s => if isNumberKind k then some (Exact.ofText s) else none
  | _ => none

/-- The integer behind a value that counts as one. -/
def int? (v : Value) : Option Int :=
  match v.plain with
  | .bool b => some (if b then 1 else 0)
  | .int i => some i
  | _ => none

/-- The class that a value is an instance of. -/
def classOf : Value → ClassRef
  | .absent => .known .noneType
  | .missing .na => .known .object
  | .missing .nat => .known .datetime
  | .bool _ => .known .bool
  | .int _ => .known .int
  | .float _ => .known .float
  | .text _ => .known .str
  | .list _ => .known .list
  | .tuple _ => .known .tuple
  | .dict _ => .known .dict
  | .scalar k _ => .known k
  | .member m => .known m.owner
  | .record c _ _ | .stored _ c _ => c
  | .type _ => .known .type
  | .routine _ => .known .object

end Value

end RecordText
