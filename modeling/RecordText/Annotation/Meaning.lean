/-
Meanings: what a text in the place of a type denotes.

A text may denote a type, a value that is no type, or the mark that hides a member (`Meaning`);
`Meaning.asTy` is the declared type that any of them makes.  Which meaning a text has is up to a
`Language`, which is told what names stand for (`Namespace`).  A `Scope` is a namespace together
with a language.

Annotations can be any expressions, so the language is a parameter.  `Language.phrases` reads the
phrases of the grammar in `RecordText.Ty.Phrase` (`Namespace.meaning`).
-/
import RecordText.Ty.Form
import RecordText.Ty.Named
import RecordText.Ty.Phrase
import RecordText.Value.Arithmetic

namespace RecordText

/-- What a phrase denotes. -/
inductive Meaning
  | type (t : Ty)
  | value (v : Value)
  /-- The mark that hides a member. -/
  | mark
  deriving Repr, Inhabited

namespace Meaning

/-- The printed form of a value; instances are known by their class. -/
def printedValue (v : Value) : String :=
  match v.printedWith (ε := Unit) own with
  | .ok s => s
  | .error () => ""
where
  /-- The printed form of an instance. -/
  own (v : Value) : Except Unit String := pure ("<repr " ++ v.classOf.title ++ ">")

/-- The meaning of a value: types denote themselves. -/
def ofValue : Value → Meaning
  | .absent => .type .absent
  | .type t => .type t
  | v => .value v

/-- The meaning of a declared type: a text denotes the text. -/
def ofTy : Ty → Meaning
  | .text s => .value (.text s)
  | t => .type t

/-- The declared type that a meaning makes. -/
def asTy : Meaning → Ty
  | .type t => t
  | .value (.text s) => .text s
  | .value v => .constant (printedValue v)
  | .mark => .constant Remark.ignored.printed

/-- The remark that a meaning makes. -/
def asRemark : Meaning → Remark
  | .type .absent => .absent
  | .type t => .other t.printed
  | .value (.bool b) => .bool b
  | .value (.int i) => .int i
  | .value (.text s) => .text s
  | .value v => .other (printedValue v)
  | .mark => .ignored

/-- The literal values that a meaning makes: a literal type gives its own. -/
def asLiterals : Meaning → List Literal
  | .type .absent => [.absent]
  | .type (.literal vs) => vs
  | .type t => [.scalar .type t.inside]
  | .value (.bool b) => [.bool b]
  | .value (.int i) => [.int i]
  | .value (.text s) => [.text s]
  | .value (.member m) => [.member m]
  | .value v => [.scalar .object (printedValue v)]
  | .mark => [.scalar .object Remark.ignored.printed]

end Meaning

/-- What names stand for. -/
structure Namespace where
  name? : String → Option Meaning
  /-- The attribute of a class. -/
  member? : ClassRef → String → Option Meaning
  brackets : ClassRef → Ty.Brackets

/-- How annotations that are texts are read. -/
structure Language where
  /-- Whether a text can be read at all, whatever its names stand for. -/
  check : TextCheck
  /-- What a text denotes. -/
  denote : Namespace → String → Except Fault Meaning
  /-- How many references may lead to each other. -/
  depth : Nat

/-- Where annotations are read. -/
structure Scope extends Namespace where
  language : Language

/-- What a text denotes. -/
def Scope.denote (S : Scope) (s : String) : Except Fault Meaning :=
  S.language.denote S.toNamespace s

/-! ### Phrases -/

namespace Phrase

/-- Whether a text is a phrase. -/
def check (s : String) : Except Fault Unit := do
  let _ ← read s

end Phrase

namespace Namespace

/-- Names before a dot that hold known classes. -/
def modules : List String := ["np", "pd", "abc", "numbers"]

/-- The meaning of a dotted name. Nothing is known about attributes of anything but classes. -/
def member (N : Namespace) (m : Meaning) (name : String) : Except Fault Meaning :=
  match m with
  | .type (.cls c) =>
    match N.member? c name with
    | some m => pure m
    | none => throw .noAttribute
  | .type .absent => throw .noAttribute
  | _ => throw Phrase.beyond

/-- The meaning of brackets. -/
def subscript (N : Namespace) (m : Meaning) (args : List Meaning) : Except Fault Meaning := do
  match m, args with
  | .type (.form "Optional"), [a] => return .type (← Ty.optional Phrase.check a.asTy)
  | .type (.form "Optional"), _ => throw .wrongType
  | .type (.form "Union"), args =>
    return .type (← Ty.unionOf Phrase.check (args.map Meaning.asTy))
  | .type (.form "Literal"), args => return .type (Ty.literalOf (args.flatMap Meaning.asLiterals))
  | .type (.form "Annotated"), a :: rs =>
    return .type (← Ty.annotate Phrase.check a.asTy (rs.map Meaning.asRemark))
  | .type t, args =>
    return .type (← Ty.subscript Phrase.check N.brackets t (args.map Meaning.asTy))
  | .value v, _ => throw (if v.number?.isSome then .wrongType else Phrase.beyond)
  | _, _ => throw .wrongType

/-- The meaning of a bar: truth values are joined as such, numbers bit by bit, and all else is a
union. -/
def either (m n : Meaning) : Except Fault Meaning := do
  match m, n with
  | .value (.bool a), .value (.bool b) => return .value (.bool (a || b))
  | .value v, .value w =>
    match v.int?, w.int? with
    | some i, some j =>
      if i < 0 || j < 0 then throw Phrase.beyond else return .value (.int (i.toNat ||| j.toNat))
    | _, _ => throw .wrongType
  | m, n => return .type (← Ty.either Phrase.check m.asTy n.asTy)

/-- The meaning of a sign before an operand, which must be a number. -/
def signed (sign : Int) (m : Meaning) : Except Fault Meaning := do
  match m with
  | .value v =>
    if v.number?.isSome then return .value (← (Value.int sign).mul v) else throw .wrongType
  | _ => throw .wrongType

/-- The meaning of an operator between two operands, which must be values. -/
def computed (f : Value → Value → Except Fault Value) (m n : Meaning) : Except Fault Meaning := do
  match m, n with
  | .value v, .value w => return .value (← f v w)
  | _, _ => throw .wrongType

/-- The quotient of two integers. -/
def quotient (v w : Value) : Except Fault Value :=
  match v.int?, w.int? with
  | some i, some j =>
    if j = 0 then throw (.raised "ZeroDivisionError")
    else pure (.float (.ofExact (.ratio (i * j.sign) j.natAbs)))
  | _, _ => throw Phrase.beyond

mutual

/-- The meaning of a phrase. -/
def meaning (N : Namespace) : Phrase → Except Fault Meaning
  | .name s =>
    match N.name? s with
    | some m => pure m
    | none => throw .unknownName
  | .number n => pure (.value (.int n))
  | .text s => pure (.value (.text s))
  | .ellipsis => pure (.type .ellipsis)
  | .attribute (.name p) s =>
    match N.name? p with
    | some m => N.member m s
    | none =>
      if modules.contains p then
        match Ty.named? (p ++ "." ++ s) with
        | some t => pure (.type t)
        | none => throw .noAttribute
      else throw .unknownName
  | .attribute p s => do N.member (← meaning N p) s
  | .subscript p args => do
    let m ← meaning N p
    N.subscript m (← meanings N args)
  | .either p q => do
    let m ← meaning N p
    either m (← meaning N q)
  | .plus p q => do
    let m ← meaning N p
    computed Value.add m (← meaning N q)
  | .minus p q => do
    let m ← meaning N p
    computed Value.add m (← signed (-1) (← meaning N q))
  | .times p q => do
    let m ← meaning N p
    computed Value.mul m (← meaning N q)
  | .over p q => do
    let m ← meaning N p
    computed quotient m (← meaning N q)
  | .positive p => do signed 1 (← meaning N p)
  | .negative p => do signed (-1) (← meaning N p)
termination_by structural p => p

/-- The meanings of several phrases, in order. -/
def meanings (N : Namespace) : List Phrase → Except Fault (List Meaning)
  | [] => pure []
  | p :: ps => do
    let m ← meaning N p
    return m :: (← meanings N ps)
termination_by structural ps => ps

end

end Namespace

/-- The language of phrases. -/
def Language.phrases : Language where
  check := Phrase.check
  denote N s := do N.meaning (← Phrase.read s)
  depth := 100

end RecordText
