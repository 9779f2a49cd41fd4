/-
What descriptions mean in a world.

`World.typeOf`, `World.valueOf` and `World.functionOf` give described types, values and functions
their meaning. A name that stands for nothing cannot be read.
-/
import RecordText.World
import RecordText.Ty.Form

namespace RecordText

/-- A type as a value: the absent value and texts stand for themselves. -/
def Value.ofTy : Ty → Value
  | .absent => .absent
  | .text s => .text s
  | t => .type t

namespace World

/-- The type of a name. -/
def lookup (W : World) (name : String) : Except Failure Ty :=
  match W.named? name with
  | some t => pure t
  | none => throw (.unreadable name)

mutual

/-- The type that a description describes. -/
def typeOf (W : World) : TypeExpr → Except Failure Ty
  | .name s => W.lookup s
  | .subscript head ts => do
    let t ← W.lookup head
    let us ← typesOf W ts
    Fault.lift (Ty.subscript W.language.check W.brackets t us)
  | .optional t => do Fault.lift (Ty.optional W.language.check (← typeOf W t))
  | .union ts => do Fault.lift (Ty.unionOf W.language.check (← typesOf W ts))
  | .bars ts => do Fault.lift (Ty.eitherOf W.language.check (← typesOf W ts))
  | .annotated t rs => do Fault.lift (Ty.annotate W.language.check (← typeOf W t) rs)
  | .literal vs => pure (Ty.literalOf vs)
  | .classVar t => do Fault.lift (Ty.classVarOf W.language.check (← typeOf W t))
  | .initVar t => do return .initVar (← typeOf W t)
  | .text s => pure (.text s)

/-- The types that several descriptions describe, in order. -/
def typesOf (W : World) : List TypeExpr → Except Failure (List Ty)
  | [] => pure []
  | t :: ts => do
    let x ← typeOf W t
    return x :: (← typesOf W ts)

end

/-- The type of an optional description. -/
def typeOf? (W : World) : Option TypeExpr → Except Failure (Option Ty)
  | none => pure none
  | some t => do return some (← W.typeOf t)

/-- The type of an optional description; the absent value counts as no type. -/
def inputOf? (W : World) (t : Option TypeExpr) : Except Failure (Option Ty) := do
  match ← W.typeOf? t with
  | some .absent => return none
  | t => return t

/-! ### Values -/

/-- The fields that a model fills in when they are not given. -/
def modelDefaults (fields : List ModelField) (given : List (String × Value)) :
    List (String × Value) :=
  fields.filterMap fun f =>
    match given.lookup f.name with
    | some v => some (f.name, v)
    | none => f.default.map fun v => (f.name, v)

/-- The attributes that a new instance starts with. A model keeps its declared fields alone. -/
def startingAttrs (W : World) (c : ClassRef) (given : List (String × Value)) :
    List (String × Value) :=
  match (W.definition? c).bind Class.modelFields with
  | some fields => modelDefaults fields given
  | none => given.reverse.foldl
      (fun kept e => if kept.any fun k => k.1 == e.1 then kept else e :: kept) []

/-- The known class of a lineage whose instances wrap a value, with the value that is wrapped when
none is given. -/
def emptyBase (line : List ClassRef) : Option Value :=
  line.findSome? fun
    | .known .str => some (.text "")
    | .known .int => some (.int 0)
    | .known .float => some (.float (Number.Binary64.ofInt 0))
    | .known .list => some (.list [])
    | .known .dict => some (.dict [])
    | .known .tuple => some (.tuple [])
    | _ => none

/-- A new instance. An instance of a class that is not defined is the value that it wraps. -/
def newInstance (W : World) (c : ClassRef) (attrs : List (String × Value)) (base : Option Value) :
    Value :=
  let wrapped := base <|> emptyBase (W.lineage c)
  match c, wrapped with
  | .known _, some v => v
  | c, wrapped => .record c wrapped (W.startingAttrs c attrs)

mutual

/-- The value that a description describes. -/
def valueOf (W : World) : ValueExpr → Except Failure Value
  | .plain v => pure v
  | .list vs => do return .list (← valuesOf W vs)
  | .tuple vs => do return .tuple (← valuesOf W vs)
  | .dict es => do return .dict (← entriesOf W es)
  | .reference id =>
    match W.instances.lookup id with
    | some v => pure v
    | none => throw (.unreadable id)
  | .type t => do return Value.ofTy (← W.typeOf t)
  | .instance t as b => do
    let t ← W.typeOf t
    match t.class? with
    | none => throw (Failure.fault .wrongType)
    | some c =>
      let base ← match b with
        | none => pure none
        | some b => do let v ← valueOf W b; pure (some v)
      return W.newInstance c (← attrsOf W as) base
  | .unreadable tag => throw (.unreadable tag)

/-- The values that several descriptions describe, in order. -/
def valuesOf (W : World) : List ValueExpr → Except Failure (List Value)
  | [] => pure []
  | e :: es => do
    let v ← valueOf W e
    return v :: (← valuesOf W es)

/-- The entries of a described dictionary. A later entry replaces the value of an earlier one. -/
def entriesOf (W : World) : List (ValueExpr × ValueExpr) → Except Failure (List (Value × Value))
  | [] => pure []
  | (k, v) :: es => do
    let k ← valueOf W k
    let v ← valueOf W v
    if (k.key? W.isMutable).isNone then throw (Failure.fault .wrongType)
    let rest ← entriesOf W es
    return (k, ((rest.find? fun e => k.equal e.1).map Prod.snd).getD v)
      :: rest.filter fun e => !k.equal e.1

/-- Described attributes. -/
def attrsOf (W : World) : List (String × ValueExpr) → Except Failure (List (String × Value))
  | [] => pure []
  | (n, e) :: es => do
    let v ← valueOf W e
    return (n, v) :: (← attrsOf W es)

end

/-! ### Functions -/

/-- The parameters of a described function. -/
def paramOf (W : World) (p : Param TypeExpr) : Except Failure (Param Ty) := do
  return ⟨p.name, p.kind, ← W.typeOf? p.type, p.hasDefault⟩

/-- Whether a value can be called. -/
def isCallable (W : World) : Value → Bool
  | .type (.forward _) | .type (.typeVar _ _ _) | .type (.union .bars _) | .type .ellipsis
  | .type (.constant _) | .type (.initVar _) => false
  | .type _ | .routine _ => true
  | .record c _ _ | .stored _ c _ => W.provides (W.lineage c) "__call__"
  | _ => false

/-- Whether a function can be called. -/
def isCallableFunction (W : World) : Function → Bool
  | .value v => W.isCallable v
  | _ => true

/-- The function that a description describes. -/
def functionOf (W : World) : FunctionExpr → Except Failure Function
  | .defined s b => do
    return .defined ⟨← s.params.mapM W.paramOf, ← W.typeOf? s.returns⟩ b
  | .builtin b => pure (.builtin b)
  | .type t => do return .value (Value.ofTy (← W.typeOf t))
  | .value v => do return .value (← W.valueOf v)
  | .wrapped f => do
    let f ← W.functionOf f
    if W.isCallableFunction f then return f else throw (Failure.fault .wrongType)

end World

end RecordText
