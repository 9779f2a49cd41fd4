/-
Hints: the declared types that annotations stand for.

Annotations may be types, texts, or types that refer to others by text. There are two ways to
resolve them. On the first one (`Scope.hintsTogether`, `Scope.classHintsTogether`) all annotations
are resolved in full, references inside of types too, and the first one that cannot be resolved
stops everything. On the second one (`Scope.hintsApart`, `Scope.classHintsApart`) only texts are
resolved, each by itself, and those that cannot be resolved count as the universal type. The second
way is taken when the first one fails (`Scope.hints`, `Scope.classHints`).  Only some faults count
as failures of this kind (`Fault.isUnresolved`); all others end both ways.

On the first way a name is looked up among the known names and then among the attributes of the
class that is annotated; on the second way the attributes come first.
-/
import RecordText.Annotation.Meaning
import RecordText.Class.Defined
import RecordText.Table

namespace RecordText

/-- Faults of annotations that cannot be resolved. -/
def Fault.isUnresolved : Fault → Bool
  | .unknownName | .noAttribute | .wrongType | .badText => true
  | _ => false

/-- The meaning of an attribute of a class. -/
def Attribute.meaning (name : String) : Attribute → Meaning
  | .value v => .ofValue v
  | .property _ | .method _ | .builtin => .value (.routine name)

namespace Ty

/-- Checks all texts in a list of types as references. -/
def checkTexts (check : TextCheck) : List Ty → Except Fault Unit
  | [] => pure ()
  | .text s :: ts => do
    checkReference check s
    checkTexts check ts
  | _ :: ts => checkTexts check ts

mutual

/-- Resolves every reference inside a type. Unions are joined again when a member has changed. The
texts among the arguments of a plain generic form are references, and all of them are checked before
any of them is resolved. -/
def expand (check : TextCheck) (onText : String → Except Fault Ty) : Ty → Except Fault Ty
  | .forward s => onText s
  | .generic .plain c ts => do
    checkTexts check ts
    return .generic .plain c (← expandPlain check onText ts)
  | .generic h c ts => return .generic h c (← expandAll check onText ts)
  | .union .form ts => do
    let us ← expandAll check onText ts
    if samePairwise us ts then return .union .form ts else unionOf check us
  | .union .bars ts => do
    let us ← expandAll check onText ts
    if samePairwise us ts then return .union .bars ts else eitherOf check us
  | .annotated t rs => do withRemarks (← expand check onText t) rs
  | .classVar t => return .classVar (← expand check onText t)
  | t => pure t
termination_by structural t => t

/-- Resolves every reference in a list of types. -/
def expandAll (check : TextCheck) (onText : String → Except Fault Ty) :
    List Ty → Except Fault (List Ty)
  | [] => pure []
  | t :: ts => do
    let u ← expand check onText t
    return u :: (← expandAll check onText ts)
termination_by structural ts => ts

/-- Resolves the arguments of a plain generic form, where texts are references. -/
def expandPlain (check : TextCheck) (onText : String → Except Fault Ty) :
    List Ty → Except Fault (List Ty)
  | [] => pure []
  | .text s :: ts => do
    let u ← onText s
    return u :: (← expandPlain check onText ts)
  | t :: ts => do
    let u ← expand check onText t
    return u :: (← expandPlain check onText ts)
termination_by structural ts => ts

end

end Ty

namespace Scope

/-- The type that a meaning makes in the place of a type. -/
def accept (check : TextCheck) (allowClassVar : Bool) : Meaning → Except Fault Ty
  | .value (.tuple _) => throw .wrongType
  | m => Ty.argument check allowClassVar m.asTy

/-- The type that a text refers to, with no more than so many references to others. A text that is
being resolved already is left as it is. -/
def reference (S : Scope) : Nat → List String → Bool → String → Except Fault Ty
  | 0, _, _, _ => throw .tooDeep
  | n + 1, open_, allowClassVar, s => do
    Ty.checkReference S.language.check s
    if open_.contains s then return .forward s
    let t ← accept S.language.check allowClassVar (← S.denote (Ty.referenceSource s))
    t.expand S.language.check (S.reference n (s :: open_) false)

/-- The type that a reference stands for, of those that the language lets lead to each other. -/
def referenced (S : Scope) : Bool → String → Except Fault Ty := S.reference S.language.depth []

/-- The type that an annotation stands for, resolved in full. -/
def resolve (S : Scope) (allowClassVar : Bool) : Ty → Except Fault Ty
  | .absent => pure Ty.noneType
  | .text s => S.referenced allowClassVar s
  | t => t.expand S.language.check (S.referenced false)

/-- The type that an annotation stands for by itself: texts that cannot be resolved count as the
universal type. -/
def resolveApart (S : Scope) : Ty → Except Fault Ty
  | .text s =>
    match S.resolve true (.text s) with
    | .ok t => pure t
    | .error f => if f.isUnresolved then pure Ty.any else throw f
  | t => pure t

/-- Applies the second way of resolution when the first one fails. -/
def orApart {α : Type} (together apart : Except Fault α) : Except Fault α :=
  match together with
  | .ok a => .ok a
  | .error f => if f.isUnresolved then apart else .error f

/-- The hints of some annotations, added to those that are there. -/
def addHints (resolve : Ty → Except Fault Ty) (hints : List (String × Ty))
    (annotations : List (String × Ty)) : Except Fault (List (String × Ty)) :=
  annotations.foldlM (fun hs e => do return Table.put e.1 (← resolve e.2) hs) hints

/-! ### Functions -/

/-- The annotations of a function, all resolved in full. -/
def hintsTogether (S : Scope) (annotations : List (String × Ty)) :
    Except Fault (List (String × Ty)) := addHints (S.resolve false) [] annotations

/-- The annotations of a function, resolved one by one. -/
def hintsApart (S : Scope) (annotations : List (String × Ty)) :
    Except Fault (List (String × Ty)) := addHints S.resolveApart [] annotations

/-- The declared types in the annotations of a function. -/
def hints (S : Scope) (annotations : List (String × Ty)) : Except Fault (List (String × Ty)) :=
  orApart (S.hintsTogether annotations) (S.hintsApart annotations)

/-! ### Classes -/

/-- Names of the scope first, then the attributes of a class. -/
def before (S : Scope) (l : Layer) : Scope :=
  { S with name? := fun n => S.name? n <|> (l.attributes.lookup n).map (Attribute.meaning n) }

/-- The attributes of a class first, then the names of the scope. -/
def after (S : Scope) (l : Layer) : Scope :=
  { S with name? := fun n => (l.attributes.lookup n).map (Attribute.meaning n) <|> S.name? n }

/-- The annotations along a lineage, all resolved in full. Those of the classes above come first,
and a name that is annotated again keeps its place. -/
def classHintsTogether (S : Scope) (layers : List Layer) : Except Fault (List (String × Ty)) :=
  layers.reverse.foldlM (fun hs l => addHints ((S.before l).resolve true) hs l.annotations) []

/-- The annotations along a lineage, resolved one by one. -/
def classHintsApart (S : Scope) (layers : List Layer) : Except Fault (List (String × Ty)) :=
  layers.reverse.foldlM (fun hs l => addHints (S.after l).resolveApart hs l.annotations) []

/-- The declared types in the annotations along a lineage. -/
def classHints (S : Scope) (layers : List Layer) : Except Fault (List (String × Ty)) :=
  orApart (S.classHintsTogether layers) (S.classHintsApart layers)

end Scope

end RecordText
