/-
Declared types: what an annotation may hold.

A declared type is a class, a generic form with or without arguments, a union in one of two
spellings, a type with remarks attached, a set of literal values, a class variable, a type under a
new name, a type variable, a reference by text, or one of a few other forms. Two declared types are
*the same* (`Ty.same`) when they are built alike, up to the order of union members and of literal
values and up to the spelling of a union.

* `Literal`, `Remark` — what stands in a literal type and beside an annotated type;
* `Ty` — the declared types, with `Ty.any`, `Ty.object`, `Ty.noneType`, `Ty.char`;
* `Ty.same` — equality of declared types;
* `Ty.stripAnnotated`, `Ty.originClass?`, `Ty.isUnion`, … — the questions that everything else
  asks.
-/
import RecordText.Class.Basic

namespace RecordText

/-- A value inside a literal type. A `scalar` is known by its class and its printed form. -/
inductive Literal
  | absent
  | bool (b : Bool)
  | int (i : Int)
  | text (s : String)
  | member (m : EnumMember)
  | scalar (kind : KnownClass) (printed : String)
  deriving DecidableEq, Repr, Inhabited

/-- The value behind a member of a fixed enumeration. -/
def EnumMember.content : EnumMember → Literal
  | .red => .text "red"
  | .blue => .text "blue"
  | .low => .int 1
  | .high => .int 10
  | .letterA => .text "a"
  | .quote => .text "q\"q"
  | .readable => .int 4
  | .writable => .int 2
  | .half => .scalar .float "0.5"

/-- The class of a literal value. -/
def Literal.kind : Literal → KnownClass
  | .absent => .noneType
  | .bool _ => .bool
  | .int _ => .int
  | .text _ => .str
  | .member m => m.owner
  | .scalar k _ => k

/-- A remark attached to a type. `ignored` and `ignoredClass` are the two ways to write the mark
that hides a member; an `other` remark is known by its printed form. -/
inductive Remark
  | absent
  | bool (b : Bool)
  | int (i : Int)
  | text (s : String)
  | ignored
  | ignoredClass
  | other (printed : String)
  deriving DecidableEq, Repr, Inhabited

namespace Remark

/-- Whether the remark hides the member it is attached to. -/
def hides : Remark → Bool
  | .ignored | .ignoredClass => true
  | _ => false

/-- Remarks are compared as values: a truth value counts as zero or one. -/
def number? : Remark → Option Int
  | .bool b => some (if b then 1 else 0)
  | .int i => some i
  | _ => none

/-- Equality of remarks. -/
def same (a b : Remark) : Bool :=
  match a.number?, b.number? with
  | some i, some j => i == j
  | _, _ => a == b

end Remark

/-- How a generic form with arguments is written. Named forms have a name of their own; plain ones
are brackets after a class that takes any arguments; the others belong to a class that was defined
with type variables. -/
inductive GenericHead
  | named (name : String)
  | plain
  | ofDefined
  deriving DecidableEq, Repr, Inhabited

/-- The two spellings of a union: as a generic form, or with bars. -/
inductive UnionSpelling
  | form
  | bars
  deriving DecidableEq, Repr, Inhabited

/-- A declared type. -/
inductive Ty
  /-- The absent value used as a type. -/
  | absent
  | cls (c : ClassRef)
  /-- A named generic form without arguments. -/
  | bare (name : String) (origin : KnownClass)
  /-- A generic form with arguments. -/
  | generic (head : GenericHead) (origin : ClassRef) (args : List Ty)
  | union (spelling : UnionSpelling) (members : List Ty)
  | annotated (base : Ty) (remarks : List Remark)
  | literal (values : List Literal)
  /-- The class-variable form without an argument. -/
  | classVarForm
  | classVar (arg : Ty)
  | initVar (arg : Ty)
  /-- A type under a new name, which lives in the module `home`. -/
  | newType (id : Ident) (home : String) (base : Ty)
  | typeVar (id : Ident) (bound : Option Ty) (constraints : List Ty)
  /-- A reference by text inside another type. -/
  | forward (text : String)
  /-- A text in the place of a type. -/
  | text (s : String)
  | ellipsis
  /-- Any other form, known by its name. -/
  | form (name : String)
  /-- An annotation that denotes no type, known by its printed form. -/
  | constant (printed : String)
  deriving Repr, Inhabited

namespace Ty

/-- The universal type. -/
def any : Ty := .cls (.known .any)

/-- The class above every class. -/
def object : Ty := .cls (.known .object)

/-- The class of the absent value. -/
def noneType : Ty := .cls (.known .noneType)

/-- The type of texts. -/
def str : Ty := .cls (.known .str)

/-- The number of the single-character type. -/
def charIdent : Ident := ⟨0, "Char"⟩

/-- The type of single characters, a new name for texts. -/
def char : Ty := .newType charIdent "tostring.primitives.types" str

/-- Whether the type is the class of the absent value. -/
def isNoneType : Ty → Bool
  | .cls (.known .noneType) => true
  | _ => false

/-- The type of single characters. -/
def isChar : Ty → Bool
  | .newType id _ _ => id == charIdent
  | _ => false

/-- The type of texts. -/
def isStr : Ty → Bool
  | .cls (.known .str) => true
  | _ => false

/-- The universal type or the class above all classes. -/
def isAny : Ty → Bool
  | .cls (.known .any) | .cls (.known .object) => true
  | _ => false

/-- A union in either spelling. -/
def isUnion : Ty → Bool
  | .union _ _ => true
  | _ => false

/-- A type under a new name. -/
def isNewType : Ty → Bool
  | .newType _ _ _ => true
  | _ => false

/-- A class variable, with or without an argument. -/
def isClassVar : Ty → Bool
  | .classVarForm | .classVar _ => true
  | _ => false

/-- A class that is no generic form. -/
def class? : Ty → Option ClassRef
  | .cls c => some c
  | _ => none

/-- The class that a class or a generic form stands for. -/
def originClass? : Ty → Option ClassRef
  | .cls c => some c
  | .bare _ c => some (.known c)
  | .generic _ c _ => some c
  | _ => none

/-- Takes all annotations off and collects their remarks, outermost first. -/
def stripAnnotated : Ty → Ty × List Remark
  | .annotated t rs => let p := t.stripAnnotated; (p.1, rs ++ p.2)
  | t => (t, [])

/-- The type without annotations around it. -/
def core (t : Ty) : Ty := t.stripAnnotated.1

/-- Equality of lists of literal values as sets. -/
def sameLiterals (vs ws : List Literal) : Bool :=
  vs.all ws.contains && ws.all vs.contains

/-- Equality of lists of remarks, one by one. -/
def sameRemarks : List Remark → List Remark → Bool
  | [], [] => true
  | r :: rs, s :: ss => r.same s && sameRemarks rs ss
  | _, _ => false

mutual

/-- Equality of declared types. -/
def same : Ty → Ty → Bool
  | .absent, .absent => true
  | .cls c, .cls d => c == d
  | .bare n c, .bare m d => n == m && c == d
  | .generic g c ts, .generic h d us => g == h && c == d && samePairwise ts us
  | .union _ ts, .union _ us => eachIn ts us && us.all fun x => someSame ts x
  | .annotated t rs, .annotated x ss => same t x && sameRemarks rs ss
  | .literal vs, .literal ws => sameLiterals vs ws
  | .classVarForm, .classVarForm => true
  | .classVar t, .classVar x => same t x
  | .initVar t, .initVar x => same t x
  | .newType i h t, .newType j k x => i == j && h == k && same t x
  | .typeVar i b ts, .typeVar j c us => i == j && sameBound b c && samePairwise ts us
  | .forward s, .forward r => s == r
  | .text s, .text r => s == r
  | .ellipsis, .ellipsis => true
  | .form n, .form m => n == m
  | .constant s, .constant r => s == r
  | _, _ => false
termination_by structural t => t

/-- Equality of argument lists, one by one. -/
def samePairwise : List Ty → List Ty → Bool
  | [], [] => true
  | t :: ts, x :: us => same t x && samePairwise ts us
  | _, _ => false
termination_by structural ts => ts

/-- Equality of optional bounds. -/
def sameBound : Option Ty → Option Ty → Bool
  | none, none => true
  | some t, some x => same t x
  | _, _ => false
termination_by structural b => b

/-- Every type of the first list has an equal one in the second. -/
def eachIn : List Ty → List Ty → Bool
  | [], _ => true
  | t :: ts, us => us.any (fun x => same t x) && eachIn ts us
termination_by structural ts => ts

/-- Some type of the list equals `x`. -/
def someSame : List Ty → Ty → Bool
  | [], _ => false
  | t :: ts, x => same t x || someSame ts x
termination_by structural ts => ts

end

/-- Declared types are compared by `same`. -/
instance : BEq Ty := ⟨same⟩

end Ty

end RecordText
