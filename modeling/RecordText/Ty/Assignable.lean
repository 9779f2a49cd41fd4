/-
Assignability: whether a value declared as one type may be passed where another is asked for.

`Hierarchy.assignable` takes annotations off both types and then decides by the first rule that
fits: a universal target accepts all and a universal source fits nothing else; a type variable
stands for its bound or its constraints; every member of a source union must fit, and some member
of a target union must be fit; a new name as a target is reached only by itself and by new names
over what reaches it; a new name as a source stands for what it renames; literal values are
checked one by one against the class that the target stands for; classes are compared by the
hierarchy; all else fits only what it equals. Arguments of generic forms are not looked at.

The one class that refuses comparison makes the check of literal values fail, and it is a class
that no other class fits.
-/
import RecordText.Ty.Form

namespace RecordText.Hierarchy

open Ty

/-- Whether all literal values are instances of a class. -/
def acceptsAll (H : Hierarchy) (c : ClassRef) : List Literal → Except Fault Bool
  | [] => pure true
  | v :: vs =>
    match H.subclass? (.known v.kind) c with
    | none => throw .wrongType
    | some true => H.acceptsAll c vs
    | some false => pure false

/-- The last rules, for a source and a target that are no unions and no new names. -/
def assignableLeaf (H : Hierarchy) (s t : Ty) : Except Fault Bool :=
  match s with
  | .literal vs =>
    match t.originClass? with
    | some c => H.acceptsAll c vs
    | none => pure (s.same t)
  | _ =>
    match s.originClass?, t.originClass? with
    | some a, some b => pure ((H.subclass? a b).getD false)
    | _, _ => pure (s.same t)

/-- The absent value stands for its class. -/
def asClass : Ty → Ty
  | .absent => noneType
  | t => t

mutual

/-- Whether a value declared as `s` may be passed where `t` is asked for. -/
def assignable (H : Hierarchy) (s t : Ty) : Except Fault Bool :=
  match s, t with
  | .annotated s _, t => H.assignable s t
  | s, .annotated t _ => H.assignable s t
  | s, t =>
    if t.isAny then pure true
    else match s, t with
      | .cls (.known .any), _ => pure false
      | s, .typeVar _ bound [] =>
        match bound with
        | none => pure true
        | some b => H.assignable s b
      | s, .typeVar _ _ (c :: cs) => H.assignableAny s (c :: cs)
      | .union _ ss, t => H.assignableAll ss t
      | s, .union _ ts => H.assignableAny s ts
      | .newType i h b, .newType j k c =>
        if (Ty.newType i h b).same (.newType j k c) then pure true
        else H.assignable b (.newType j k c)
      | _, .newType _ _ _ => pure false
      | .newType _ _ b, t => H.assignable b t
      | s, t => H.assignableLeaf (asClass s) (asClass t)
termination_by sizeOf s + sizeOf t

/-- Whether every type of a list may be passed where `t` is asked for. -/
def assignableAll (H : Hierarchy) (ss : List Ty) (t : Ty) : Except Fault Bool :=
  match ss with
  | [] => pure true
  | s :: ss => do if ← H.assignable s t then H.assignableAll ss t else pure false
termination_by sizeOf ss + sizeOf t

/-- Whether `s` may be passed where one type of a list is asked for. -/
def assignableAny (H : Hierarchy) (s : Ty) (ts : List Ty) : Except Fault Bool :=
  match ts with
  | [] => pure false
  | t :: ts => do if ← H.assignable s t then pure true else H.assignableAny s ts
termination_by sizeOf s + sizeOf ts

end

end RecordText.Hierarchy
