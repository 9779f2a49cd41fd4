/-
Sessions: a list of actions on builders, renderers, instances and classes.

Every action gives an answer. One that fails changes nothing: a builder keeps its configuration, and
a renderer that was stored before stays. Only an action that cannot be read stops the session.
-/
import RecordText.Report

namespace RecordText

/-- How a class is decorated with a renderer. -/
structure Decoration where
  useFields : Bool
  useProperties : Bool
  includePrinted : Bool
  ignore : ValueExpr
  substitutes : List (ValueExpr × FunctionExpr)
  settings : Option (List (String × ValueExpr))
  deriving Repr, Inhabited

namespace Decoration

/-- The fields alone, nothing ignored, the usual tokens. -/
def usual : Decoration := ⟨true, false, false, .tuple [], [], none⟩

end Decoration

/-- An action. Builders, renderers and instances are known by their names. -/
inductive Action
  | define (d : Definition)
  | builder (id : String) (target : ValueExpr) (settings : Option (List (String × ValueExpr)))
  | useFields (b : String)
  | useProperties (b : String)
  | config (b : String)
  | ignore (b : String) (names : List ValueExpr)
  | ignoreAll (b : String) (names : ValueExpr)
  | substitute (b : String) (name : ValueExpr) (f : FunctionExpr) (input : Option TypeExpr)
  | build (b renderer : String)
  | decorate (cls : TypeExpr) (d : Decoration)
  | new (id : String) (v : ValueExpr)
  | assign (id attr : String) (v : ValueExpr)
  | delete (id attr : String)
  | render (renderer : String) (v : ValueExpr)
  | text (v : ValueExpr)
  | printed (v : ValueExpr)
  deriving Repr, Inhabited

/-- What an action gives. -/
inductive Answer
  | done
  | target (title : String) (c : Config)
  | config (c : Config)
  | built (notes : List Note)
  | decorated (title : String) (printed : Bool) (notes : List Note)
  | text (s : String)
  | failed (f : Failure)
  | noBuilder
  | noRenderer
  deriving Inhabited

/-- What is known between two actions. -/
structure Session where
  world : World
  builders : List (String × Builder)
  renderers : List (String × Renderer)
  deriving Inhabited

namespace World

/-! ### Instances -/

/-- Keeps a new instance in the store, where its attributes can change. -/
def keep (W : World) (id : String) (v : Value) : World :=
  match v with
  | .record c b as =>
    let (n, W) := W.freshId
    { W with store := (n, as) :: W.store, instances := (id, .stored n c b) :: W.instances }
  | v => { W with instances := (id, v) :: W.instances }

/-- The instance of a name. -/
def instance? (W : World) (id : String) : Except Failure Value :=
  match W.instances.lookup id with
  | some v => pure v
  | none => throw (.unreadable id)

/-- Whether an attribute of an instance may be changed: not when it is a property without a setter,
and in a model only when it is declared. The answer is whether anything changes. -/
def checkAssign (W : World) (c : ClassRef) (attr : String) : Except Fault Bool :=
  match Layer.find? (W.layers c) attr, (W.definition? c).bind Class.modelFields with
  | some (.property none), _ => pure false
  | some (.property (some _)), _ => throw .noAttribute
  | _, some fields =>
    if isPrivate attr || fields.any fun f => f.name == attr then pure true else throw .badValue
  | _, none => pure true

/-- Gives an attribute of an instance a value. -/
def assign (W : World) (v : Value) (attr : String) (w : Value) : Except Fault World :=
  match v with
  | .stored n c _ => do
    if ← W.checkAssign c attr then
      return { W with store := (n, Table.put attr w ((W.store.lookup n).getD [])) :: W.store }
    else return W
  | _ => throw .noAttribute

/-- Takes an attribute of an instance away. -/
def delete (W : World) (v : Value) (attr : String) : Except Fault World :=
  match v with
  | .stored n c _ =>
    let attrs := (W.store.lookup n).getD []
    let isProperty := ((Layer.find? (W.layers c) attr).map Attribute.isProperty).getD false
    if isProperty || (attrs.lookup attr).isNone then throw .noAttribute
    else pure { W with store := (n, Table.erase attr attrs) :: W.store }
  | _ => throw .noAttribute

/-! ### Decoration -/

/-- Whether the text of a class can be replaced. -/
def isWritable : ClassRef → Bool
  | .defined _ => true
  | .known c => c.isEnumeration || c == .model || c == .proto || c == .any

/-- Writes the instances of a class by a renderer, and prints them by it if asked to. -/
def install (W : World) (c : ClassRef) (r : Renderer) (printedToo : Bool) : World :=
  { W with classes := W.classes.map fun d =>
      if d.ref == c then
        { d with text := .rendered r, printed := if printedToo then .rendered r else d.printed }
      else d }

/-- The configuration of a decoration. -/
def decorationConfig (W : World) (d : Decoration) (ignored : Value)
    (substitutes : List (Name × Function)) : Except Failure Config := do
  let c : Config := { Config.empty with useFields := d.useFields, useProperties := d.useProperties }
  let c ← W.ignoreAll c ignored
  substitutes.foldlM (fun c s => W.substitute c s.1.value s.2 none) c

/-- One substitute of a decoration. -/
def decorationSubstitute (W : World) (s : ValueExpr × FunctionExpr) :
    Except Failure (Name × Function) := do
  let name ← Fault.lift (W.nameOf (← W.valueOf s.1))
  return (name, ← W.functionOf s.2)

/-- Decorates a class with a renderer. -/
def decorate (W : World) (t : TypeExpr) (d : Decoration) :
    Except Failure (World × ClassRef × List Note) := do
  let t ← W.typeOf t
  let ignored ← W.valueOf d.ignore
  let substitutes ← d.substitutes.mapM W.decorationSubstitute
  let settings ← W.settingsOf d.settings
  let b ← W.builder (Value.ofTy t) settings
  let config ← W.decorationConfig d ignored (Table.ofList substitutes)
  let (r, notes) ← W.build { b with config := config }
  if !isWritable b.target then throw (Failure.fault .wrongType)
  return (W.install b.target r d.includePrinted, b.target, notes)

end World

namespace Session

/-- The session after some definitions. -/
def start (W : World) : Session := ⟨W, [], []⟩

/-- Changes the configuration of a builder. -/
def configure (s : Session) (id : String)
    (change : World → Config → Except Failure Config) : Except Failure (Session × Answer) :=
  match s.builders.lookup id with
  | none => pure (s, .noBuilder)
  | some b => do
    let c ← change s.world b.config
    return ({ s with builders := (id, { b with config := c }) :: s.builders }, .config c)

/-- A session with another world. -/
def withWorld (s : Session) (W : World) : Session := { s with world := W }

/-- Runs an action. -/
def act (s : Session) : Action → Except Failure (Session × Answer)
  | .define d => do return (s.withWorld (← s.world.define d), .done)
  | .builder id target settings => do
    let target ← s.world.valueOf target
    let settings ← s.world.settingsOf settings
    let b ← s.world.builder target settings
    return ({ s with builders := (id, b) :: s.builders }, .target b.target.title b.config)
  | .useFields b => s.configure b fun _ c => pure c.withFields
  | .useProperties b => s.configure b fun _ c => pure c.withProperties
  | .config b => s.configure b fun _ c => pure c
  | .ignore b names => s.configure b fun W c => do W.ignore c (← W.valuesOf names)
  | .ignoreAll b names => s.configure b fun W c => do W.ignoreAll c (← W.valueOf names)
  | .substitute b name f input => s.configure b fun W c => do
    let name ← W.valueOf name
    let f ← W.functionOf f
    W.substitute c name f (← W.inputOf? input)
  | .build id as =>
    match s.builders.lookup id with
    | none => pure (s, .noBuilder)
    | some b => do
      let (r, notes) ← s.world.build b
      return ({ s with renderers := (as, r) :: s.renderers }, .built notes)
  | .decorate t d => do
    let (W, c, notes) ← s.world.decorate t d
    return (s.withWorld W, .decorated c.title d.includePrinted notes)
  | .new id e => do return (s.withWorld (s.world.keep id (← s.world.valueOf e)), .done)
  | .assign id attr e => do
    let v ← s.world.instance? id
    let w ← s.world.valueOf e
    return (s.withWorld (← Fault.lift (s.world.assign v attr w)), .done)
  | .delete id attr => do
    let v ← s.world.instance? id
    return (s.withWorld (← Fault.lift (s.world.delete v attr)), .done)
  | .render id e =>
    match s.renderers.lookup id with
    | none => pure (s, .noRenderer)
    | some r => do
      let v ← s.world.valueOf e
      return (s, .text (← r.render s.world.behaviour v))
  | .text e => do return (s, .text (← s.world.behaviour.text (← s.world.valueOf e)))
  | .printed e => do return (s, .text (← s.world.behaviour.printed (← s.world.valueOf e)))

/-- Runs an action whose failure is its answer, unless it cannot be read. -/
def step (s : Session) (a : Action) : Except Failure (Session × Answer) :=
  match settle (s.act a) with
  | .ok (.ok r) => pure r
  | .ok (.error f) => pure (s, .failed f)
  | .error f => throw f

/-- Runs actions one after the other. -/
def run (s : Session) : List Action → Except Failure (List Answer)
  | [] => pure []
  | a :: as => do
    let (s, answer) ← s.step a
    return answer :: (← s.run as)

end Session

end RecordText
