/-
Building declared types.

Unions are flattened, equal members are dropped and a single member stands for itself
(`Ty.joined`); a type that becomes an argument of another one is converted first (`Ty.argument`):
the absent value becomes its class and a text becomes a reference, if it can be read. Whether it can
is told by a `TextCheck`, which all that builds types takes first. The bar between two types gives
a union with bars when both are classes, the absent value, plain generic forms or such unions, and
a union form when one of them is any other form.
-/
import RecordText.Ty.Print
import RecordText.Fault

namespace RecordText

/-- Says of a text in the place of a type whether it can be read. -/
abbrev TextCheck := String → Except Fault Unit

namespace Ty

/-! ### References -/

/-- What is read when a text refers to a type from inside another type: a text with a star before
it stands for the elements of a sequence, of which the first one is taken. -/
def referenceSource (s : String) : String :=
  match s.toList with
  | '*' :: _ => "(" ++ s ++ ",)[0]"
  | _ => s

/-- A text that refers to a type from inside another type must not be empty and must be
readable. -/
def checkReference (check : TextCheck) (s : String) : Except Fault Unit :=
  if s.isEmpty then throw .emptyText else check (referenceSource s)

/-! ### Unions and arguments -/

/-- Drops every type that equals an earlier one. -/
def dropCopies (ts : List Ty) : List Ty :=
  ts.foldl (fun kept t => if kept.any fun k => k.same t then kept else kept ++ [t]) []

/-- The members of a union, or the type alone. -/
def members : Ty → List Ty
  | .union _ ts => ts
  | t => [t]

/-- The union of several types. -/
def joined (spelling : UnionSpelling) (ts : List Ty) : Ty :=
  match dropCopies (ts.flatMap members) with
  | [t] => t
  | us => .union spelling us

/-- Class variables, the generic base and forms that lack their arguments cannot be arguments. -/
def isArgument : Ty → Bool
  | .classVarForm | .classVar _ | .annotated .classVarForm _ | .cls (.known .generic)
  | .generic (.named "Generic") _ _ | .form "Optional" | .form "Union" | .form "Literal" => false
  | _ => true

/-- A type that is put inside another one without a check. -/
def converted (check : TextCheck) : Ty → Except Fault Ty
  | .absent => pure noneType
  | .text s => do checkReference check s; pure (.forward s)
  | t => pure t

/-- Class variables may be let through on request. -/
def isClassVarArgument : Ty → Bool
  | .annotated .classVarForm _ => true
  | t => t.isClassVar

/-- A type that is put inside another one. Class variables are let through on request. -/
def argument (check : TextCheck) (allowClassVar : Bool) (t : Ty) : Except Fault Ty :=
  if t.isArgument || (allowClassVar && t.isClassVarArgument) then t.converted check
  else throw .wrongType

/-- The union form of several types. -/
def unionOf (check : TextCheck) (ts : List Ty) : Except Fault Ty := do
  if ts.isEmpty then throw .wrongType
  return joined .form (← ts.mapM (argument check false))

/-- The type or the absent value. -/
def optional (check : TextCheck) (t : Ty) : Except Fault Ty := unionOf check [t, .absent]

/-- What may stand on both sides of a bar in a union with bars. -/
def isPlain : Ty → Bool
  | .absent | .cls _ | .generic .plain _ _ | .union .bars _ => true
  | _ => false

/-- Forms that turn a bar into a union form. -/
def isForm : Ty → Bool
  | .generic .plain _ _ => false
  | .bare _ _ | .generic _ _ _ | .union .form _ | .annotated _ _ | .literal _ | .classVarForm
  | .classVar _ | .newType _ _ _ | .typeVar _ _ _ | .forward _ | .form _ => true
  | _ => false

/-- Two types with a bar between them. -/
def either (check : TextCheck) (t u : Ty) : Except Fault Ty :=
  match t, u with
  | .absent, .absent => throw .wrongType
  | t, u =>
    if t.isPlain && u.isPlain then do
      return joined .bars [← argument check false t, ← argument check false u]
    else if t.isForm || u.isForm then unionOf check [t, u]
    else throw .wrongType

/-- Several types with bars between them, joined from the left. -/
def eitherOf (check : TextCheck) : List Ty → Except Fault Ty
  | [] => throw .wrongType
  | t :: ts => ts.foldlM (either check) t

/-- What remarks can be attached to: numbers and other plain data cannot carry them. -/
def takesRemarks : Ty → Bool
  | .ellipsis => false
  | .constant p => p.startsWith "<" || p == Remark.ignored.printed
  | _ => true

/-- A type with remarks attached, which come after those that it has already. -/
def withRemarks (t : Ty) (rs : List Remark) : Except Fault Ty :=
  match t with
  | .annotated u qs => pure (.annotated u (qs ++ rs))
  | u => if u.takesRemarks then pure (.annotated u rs) else throw .noAttribute

/-- An annotated type; there must be some remark. -/
def annotate (check : TextCheck) (t : Ty) (rs : List Remark) : Except Fault Ty := do
  if rs.isEmpty then throw .wrongType
  withRemarks (← argument check true t) rs

/-- Drops every literal value that equals an earlier one. -/
def literalOf (vs : List Literal) : Ty :=
  .literal (vs.foldl (fun kept v => if kept.contains v then kept else kept ++ [v]) [])

/-- A class variable of a type. -/
def classVarOf (check : TextCheck) (t : Ty) : Except Fault Ty :=
  return .classVar (← argument check false t)

/-- Takes the absent value out of a union. What remains is joined again; a union of nothing but
the absent value leaves its class. -/
def stripOptional : Ty → Ty × Bool
  | .union s ts =>
    let kept := ts.filter fun t => !t.isNoneType
    if kept.length = ts.length then (.union s ts, false)
    else match kept with
      | [] => (noneType, true)
      | [t] => (t, true)
      | us => (joined .form us, true)
  | t => (t, false)

/-! ### Subscripts -/

/-- How many arguments a named generic form takes; `none` stands for any number. -/
def arity : String → Option Nat
  | "Tuple" => none
  | "Dict" | "DefaultDict" | "OrderedDict" | "ChainMap" | "Mapping" | "MutableMapping" => some 2
  | "Generator" => some 3
  | "Sized" | "Hashable" => some 0
  | _ => some 1

/-- What brackets after a class mean. -/
inductive Brackets
  /-- The class takes no arguments. -/
  | refused
  /-- Any arguments are kept as they are. -/
  | plain
  /-- So many type variables are given values. -/
  | parameters (count : Nat)
  deriving DecidableEq, Repr

/-- Brackets after a known class. -/
def knownBrackets : KnownClass → Brackets
  | .list | .dict | .set | .frozenset | .tuple | .type | .deque | .abcSequence
  | .abcMutableSequence | .abcMapping | .abcMutableMapping | .abcSet | .abcMutableSet
  | .abcIterable | .abcIterator | .abcCollection | .abcContainer | .abcReversible | .abcGenerator
  | .abcCallable | .abcKeysView => .plain
  | _ => .refused

/-- The arguments of a callable class: its parameters must be left open, and one result given. -/
def isCallableArguments : List Ty → Bool
  | [.ellipsis, _] => true
  | _ => false

/-- The arguments of the callable form: one parameter, or parameters left open, and a result. -/
def callableArguments (check : TextCheck) : List Ty → Except Fault (List Ty)
  | [p, r] => do
    let r ← argument check false r
    return [← p.converted check, r]
  | _ => throw .wrongType

/-- A type variable. -/
def isTypeVar : Ty → Bool
  | .typeVar _ _ _ => true
  | _ => false

/-- Brackets after a type. -/
def subscript (check : TextCheck) (brackets : ClassRef → Brackets) (t : Ty) (ts : List Ty) :
    Except Fault Ty :=
  match t with
  | .cls (.known .generic) =>
    if ts.isEmpty || !ts.all isTypeVar || (dropCopies ts).length != ts.length
    then throw .wrongType
    else return .generic (.named "Generic") (.known .generic) ts
  | .cls c =>
    match brackets c with
    | .refused => throw .wrongType
    | .plain =>
      if c = .known .abcCallable && !isCallableArguments ts then throw .wrongType
      else return .generic .plain c ts
    | .parameters n => do
      if n = 0 || ts.length != n then throw .wrongType
      return .generic .ofDefined c (← ts.mapM (converted check))
  | .bare "Callable" origin => do
    return .generic (.named "Callable") (.known origin) (← callableArguments check ts)
  | .bare name origin => do
    if (arity name).any fun n => n = 0 || ts.length != n then throw .wrongType
    return .generic (.named name) (.known origin) (← ts.mapM (argument check false))
  | .classVarForm =>
    match ts with
    | [u] => classVarOf check u
    | _ => throw .wrongType
  | _ => throw .wrongType

end Ty

end RecordText
