/-
Definitions: how a world grows by new names and classes.

A class is made from its bases and its items. The bases are classes and generic forms; a generic
form stands for its class and brings the generic base along (`World.baseClasses`). The items become
attributes and annotations (`Draft`). A data class then declares a field for each of its own
annotations that is no class variable; a model declares a field for every annotation in its lineage,
and gives up the attributes of the same names (`World.modelFieldsOf`).
-/
import RecordText.World.Behave

namespace RecordText

/-! ### Type variables -/

namespace Ty

mutual

/-- The type variables in a type, in order, each one as often as it stands there. -/
def typeVars : Ty → List Ty
  | .typeVar id b cs => [.typeVar id b cs]
  | .generic _ _ ts => typeVarsOfAll ts
  | .union _ ts => typeVarsOfAll ts
  | .annotated t _ => typeVars t
  | .classVar t => typeVars t
  | _ => []

/-- The type variables in several types. -/
def typeVarsOfAll : List Ty → List Ty
  | [] => []
  | t :: ts => typeVars t ++ typeVarsOfAll ts

end

/-- Whether the type is the generic base with its type variables. -/
def isGenericBase : Ty → Bool
  | .generic (.named "Generic") _ _ => true
  | _ => false

/-- Whether a base is a named generic form, or one of a defined class. -/
def isGenericForm : Ty → Bool
  | .bare _ _ | .generic (.named _) _ _ | .generic .ofDefined _ _ => true
  | _ => false

/-- Whether a class has to be made anew from this base: it is no class itself. -/
def isReplacedBase : Ty → Bool
  | .cls _ => false
  | _ => true

end Ty

namespace World

/-! ### Bases -/

/-- Whether a base comes with the generic base already. -/
def bringsGeneric (W : World) (t : Ty) : Except Fault Bool :=
  if t.isGenericForm then pure true
  else match t with
    | .cls c | .generic .plain c _ => pure ((W.lineage c).contains (.known .generic))
    | _ => throw .wrongType

/-- Whether any of several bases comes with the generic base; the first one that does decides. -/
def anyBringsGeneric (W : World) : List Ty → Except Fault Bool
  | [] => pure false
  | t :: ts => do if ← W.bringsGeneric t then pure true else W.anyBringsGeneric ts

/-- The classes that a named generic form stands for among the bases of a class. -/
def formClasses (W : World) (origin : ClassRef) (all later : List Ty) :
    Except Fault (List ClassRef) := do
  let own := if all.any (fun t => t.same (.cls origin)) then [] else [origin]
  if ← W.anyBringsGeneric later then return own else return own ++ [.known .generic]

/-- The classes that bases stand for; `all` is the list of all bases. -/
def baseClasses (W : World) (all : List Ty) : List Ty → Except Fault (List ClassRef)
  | [] => pure []
  | t :: later => do
    let own ← match t with
      | .cls c => pure [c]
      | .bare _ c => W.formClasses (.known c) all later
      | .generic (.named "Generic") _ _ =>
        pure (if later.any Ty.isGenericForm then [] else [ClassRef.known .generic])
      | .generic (.named _) c _ => W.formClasses c all later
      | .generic _ c _ => pure [c]
      | _ => throw .wrongType
    return own ++ (← W.baseClasses all later)

/-- Whether every class stands once in a list. -/
def isDistinct : List ClassRef → Bool
  | [] => true
  | c :: cs => !cs.contains c && isDistinct cs

/-- The class that the layout of a class comes from. -/
def layoutOwner? (W : World) (c : ClassRef) : Option ClassRef :=
  let line := W.lineage c
  let isUser := fun (k : KnownClass) (d : ClassRef) =>
    (W.definition? d).isSome && (W.lineage d).contains (.known k)
  (line.findSome? ClassRef.laidOut?).map fun k =>
    if k.isVariable then (line.reverse.find? (isUser k)).getD (.known k) else .known k

/-- Classes of different layouts cannot be joined. -/
def layoutsFit (W : World) (bases : List ClassRef) : Bool :=
  let owners := bases.filterMap W.layoutOwner?
  owners.all fun c => owners.all fun d =>
    (W.lineage c).contains d || (W.lineage d).contains c

/-- Classes whose kinds of classes do not go together: the universal type and interfaces, the
interface that refuses comparison and models. -/
def kindsFit (line : List ClassRef) : Bool :=
  let isInterface := fun
    | ClassRef.known c => c.home == "collections.abc" || c.home == "numbers" || c == .fraction
      || c == .model || c == .proto
    | .defined _ => false
  !(line.contains (.known .any) && line.any isInterface)
    && !(line.contains (.known .proto) && line.contains (.known .model))

/-- Whether a class may be derived from another one. -/
def isOpen : ClassRef → Bool
  | .known c => !c.isFinal
  | .defined _ => true

/-- The type variables that a class with these bases takes. -/
def parametersOf (bases : List Ty) : Except Fault (List Ty) := do
  if bases.any fun t => t.same (.cls (.known .generic)) then throw .wrongType
  let found := if bases.any Ty.isReplacedBase then
    Ty.dropCopies (Ty.typeVarsOfAll (bases.filter Ty.isReplacedBase)) else []
  match bases.filter Ty.isGenericBase with
  | [] => return found
  | [g] =>
    let declared := Ty.dropCopies g.typeVars
    if found.all fun t => declared.any fun u => u.same t then return declared else throw .wrongType
  | _ => throw .wrongType

/-! ### Items -/

/-- A class in the making. -/
structure Draft where
  attributes : List (String × Attribute)
  annotations : List (String × Ty)
  text : TextRule
  printed : TextRule
  /-- Whether a property that belongs to the fields has no declared type. -/
  lacksType : Bool
  deriving Inhabited

/-- Adds an item to a class in the making. -/
def addItem (W : World) (d : Draft) : Item → Except Failure Draft
  | .field name t default => do
    let t ← W.typeOf t
    let d := { d with annotations := Table.put name t d.annotations }
    match default with
    | none => return d
    | some e => return { d with attributes := Table.put name (.value (← W.valueOf e)) d.attributes }
  | .property name p => do
    let selfType ← W.typeOf? p.selfType
    let returns ← W.typeOf? p.returns
    let annotations := (selfType.map fun t => ("self", t)).toList
      ++ (returns.map fun t => ("return", t)).toList
    return { d with
      attributes := Table.put name (.property (some ⟨p.body, annotations, p.hidden⟩)) d.attributes
      lacksType := d.lacksType || (p.computed && returns.isNone) }
  | .writeOnly name => return { d with attributes := Table.put name (.property none) d.attributes }
  | .attribute name e => do
    return { d with attributes := Table.put name (.value (← W.valueOf e)) d.attributes }
  | .method name b => return { d with attributes := Table.put name (.method b) d.attributes }
  | .text b => return { d with text := .computed b }
  | .inherit .text => return { d with text := .inherited }
  | .inherit .printed => return { d with printed := .inherited }

/-! ### Data classes -/

/-- Whether a text announces a class variable by its first word. -/
def announcesClassVar (W : World) (s : String) : Bool :=
  let rest := s.toList.dropWhile Value.isSpace
  let word := rest.takeWhile Phrase.isNameChar
  let after := (rest.dropWhile Phrase.isNameChar).dropWhile Value.isSpace
  after.head? != some '.' && ((W.named? (String.ofList word)).map Ty.isClassVar).getD false

/-- Whether an annotation of a data class belongs to the class alone. -/
def isDataVar (W : World) : Ty → Bool
  | .text s => W.announcesClassVar s
  | t => t.isClassVar

/-- Whether an annotation of a data class makes a field. -/
def isDataField (W : World) : Ty → Bool
  | .initVar _ => false
  | t => !W.isDataVar t

/-- The declared fields that a class has, its own or those of the next data class above it. -/
def dataFields? (W : World) (c : ClassRef) : Option (List (String × Bool)) :=
  (W.lineage c).findSome? fun d => (W.definition? d).bind Class.dataFields

/-- The declared fields of a data class: those of the classes above it, and its own. -/
def dataFieldsOf (W : World) (above : List ClassRef) (annotations : List (String × Ty)) :
    List (String × Bool) :=
  let inherited := above.reverse.foldl
    (fun fs c => ((W.dataFields? c).getD []).foldl (fun fs f => Table.put f.1 f.2 fs) fs) []
  annotations.foldl (fun fs e => Table.put e.1 (W.isDataField e.2) fs) inherited

/-- The parameters for the fields that a class has, its own or those of the next data class above
it. -/
def dataParams? (W : World) (c : ClassRef) : Option (List (String × Option (Param Ty))) :=
  (W.lineage c).findSome? fun d =>
    (W.definition? d).bind fun e => e.dataFields.map fun _ => e.dataParams

/-- The parameter for an own annotation of a data class. A name with an attribute has a default. -/
def dataParam (W : World) (layers : List Layer) (e : String × Ty) : Option (Param Ty) :=
  if W.isDataVar e.2 then none
  else some ⟨e.1, .positional, some e.2, (Layer.find? layers e.1).isSome⟩

/-- The parameters for the fields of a data class: those of the classes above it, and its own. -/
def dataParamsOf (W : World) (above : List ClassRef) (layers : List Layer)
    (annotations : List (String × Ty)) : List (String × Option (Param Ty)) :=
  let inherited := above.reverse.foldl
    (fun ps c => ((W.dataParams? c).getD []).foldl (fun ps p => Table.put p.1 p.2 ps) ps) []
  annotations.foldl (fun ps e => Table.put e.1 (W.dataParam layers e) ps) inherited

/-- Whether no parameter with a default comes before one without. -/
def defaultsComeLast (ps : List (Param Ty)) : Bool :=
  (ps.dropWhile fun p => !p.hasDefault).all Param.hasDefault

/-- Whether a default is shared by mistake: it has no key, so it may change. -/
def isShared (W : World) : Attribute → Bool
  | .value (.list _) | .value (.dict _) => true
  | .value (.record c _ _) | .value (.stored _ c _) => W.isMutable c
  | _ => false

/-- The defaults of the own fields of a data class must not be shared by mistake. -/
def checkDefaults (W : World) (layers : List Layer) (annotations : List (String × Ty)) :
    Except Fault Unit :=
  if annotations.any fun e =>
      W.isDataField e.2 && ((Layer.find? layers e.1).map W.isShared).getD false
  then throw .badValue else pure ()

/-! ### Models -/

/-- Whether a text that is not resolved announces a class variable with an argument. -/
def announcesModelVar (s : String) : Bool :=
  s.startsWith "ClassVar[" || s.startsWith "Annotated[ClassVar["

/-- Whether an annotation of a model belongs to the class alone. -/
def isModelVar : Ty → Bool
  | .forward s | .text s => announcesModelVar s
  | .annotated t _ => t.isClassVar
  | t => t.isClassVar

/-- The type of a model field: what cannot be resolved yet is kept as it is. -/
def modelType (S : Scope) (t : Ty) : Except Fault Ty :=
  match S.resolve true t with
  | .ok u => pure u
  | .error .unknownName =>
    match t with
    | .text s => pure (.forward s)
    | t => pure t
  | .error f => throw f

/-- Splits the outermost remarks off a model field. -/
def modelField (name : String) (t : Ty) (default : Option Value) : ModelField :=
  match t with
  | .annotated u rs => ⟨name, u, rs, default⟩
  | t => ⟨name, t, [], default⟩

/-- The default that an attribute gives to a field. -/
def attributeDefault (name : String) : Attribute → Value
  | .value v => v
  | _ => .routine name

/-- One field of a model: made anew when it is annotated or given a value here, taken over from a
base otherwise. -/
def modelFieldOf (layers : List Layer) (own : List (String × Ty)) (inherited : List ModelField)
    (name : String) (t : Ty) : ModelField :=
  match Layer.find? layers name with
  | some a => modelField name t (some (attributeDefault name a))
  | none =>
    match (own.lookup name), inherited.find? fun f => f.name == name with
    | none, some f => f
    | _, _ => modelField name t none

/-- Resolves the fields that could not be resolved before, if all of them can be now. -/
def completed (S : Scope) (fields : List ModelField) : List ModelField :=
  match fields.mapM resolved with
  | .ok fs => fs
  | .error _ => fields
where
  /-- A field whose type is resolved in full; new remarks come before the old ones. -/
  resolved (f : ModelField) : Except Fault ModelField := do
    match ← S.resolve true f.declared with
    | .annotated t rs => return { f with declared := t, remarks := rs ++ f.remarks }
    | t => return { f with declared := t }

/-- The fields of a model with the given layers, its own first. -/
def modelFieldsOf (S : Scope) (layers : List Layer) (inherited : List ModelField) :
    Except Fault (List ModelField) := do
  let own := (layers.head?.map Layer.annotations).getD []
  let hints ← layers.reverse.foldlM (fun hs l => Scope.addHints (modelType S)
    hs (l.annotations.filter fun e => !isPrivate e.1)) []
  let fields := (hints.filter fun e => !isModelVar e.2).map fun e =>
    modelFieldOf layers own inherited e.1 e.2
  return completed S fields

/-- Whether a public attribute of a model lacks its annotation. -/
def isUnannotated (annotations : List (String × Ty)) (e : String × Attribute) : Bool :=
  match e.2 with
  | .value _ => !isPrivate e.1 && (annotations.lookup e.1).isNone
  | _ => false

/-! ### Classes -/

/-- The fields that the bases of a model have; those of earlier bases win. -/
def inheritedFields (W : World) (bases : List ClassRef) : List ModelField :=
  bases.flatMap fun c =>
    ((W.lineage c).findSome? fun d => (W.definition? d).bind Class.modelFields).getD []

/-- Makes a model of a class. -/
def finishModel (W : World) (bases : List ClassRef) (d : Draft) (c : Class) :
    Except Fault Class := do
  if d.attributes.any (isUnannotated d.annotations) || d.lacksType then throw .badModel
  let above := (c.lineage.drop 1).map W.layerOf
  let S := { W.scope with
    name? := fun n => if n == c.ident.name then some (.type (.cls c.ref)) else W.scope.name? n }
  let fields ← modelFieldsOf S (c.layer :: above) (W.inheritedFields bases)
  let kept := d.attributes.filter fun e => !fields.any fun f => f.name == e.1
  return { c with modelFields := some fields, layer := ⟨kept, d.annotations⟩ }

/-- Makes a data class of a class. -/
def finishData (W : World) (style : DataStyle) (d : Draft) (c : Class) : Except Fault Class := do
  let layers := c.layer :: (c.lineage.drop 1).map W.layerOf
  W.checkDefaults layers d.annotations
  let params := W.dataParamsOf (c.lineage.drop 1) layers d.annotations
  if style.constructs && !defaultsComeLast (params.filterMap Prod.snd) then throw .wrongType
  return { c with
    dataFields := some (W.dataFieldsOf (c.lineage.drop 1) d.annotations)
    dataStyle := some style
    dataParams := params }

/-- The bases of a class: a model has a model among them. -/
def allBases (W : World) (style : Style) (bases : List Ty) : List Ty :=
  let isModelBase := fun t => match Ty.originClass? t with
    | some c => W.isModel c
    | none => false
  if style == .model && !bases.any isModelBase then bases ++ [.cls (.known .model)] else bases

/-- Finishes a class: as a model if a model stands above it, and in its style otherwise. -/
def finish (W : World) (style : Style) (bases : List ClassRef) (d : Draft) (c : Class) :
    Except Fault Class :=
  if c.lineage.contains (.known .model) then W.finishModel bases d c
  else match style with
    | .data s => W.finishData s d c
    | _ => pure c

/-- A class with its bases and items. -/
def makeClass (W : World) (ident : Ident) (style : Style) (bases : List Ty) (d : Draft) :
    Except Fault Class := do
  let classes ← W.baseClasses bases bases
  if !isDistinct classes || !classes.all isOpen then throw .wrongType
  match Lineage.ofBases (.defined ident) classes W.lineage with
  | none => throw .wrongType
  | some line =>
    if !W.layoutsFit classes || !kindsFit line then throw .wrongType
    let parameters ← if line.contains (.known .generic)
      then do let ps ← parametersOf bases; pure (some ps) else pure none
    let c : Class :=
      { ident := ident, lineage := line, layer := ⟨d.attributes, d.annotations⟩
        dataFields := none, modelFields := none, parameters := parameters
        text := d.text, printed := d.printed }
    W.finish style classes d c

/-- The world after a definition. -/
def define (W : World) : Definition → Except Failure World
  | .newType name t => do
    let t ← W.typeOf t
    let (n, W) := W.freshId
    return W.bind name (.newType ⟨n, name⟩ ClassRef.definedHome t)
  | .typeVar name bound constraints => do
    let bound ← W.typeOf? bound
    let constraints ← W.typesOf constraints
    let bound ← match bound with
      | none | some .absent => pure none
      | some b => do let b ← Fault.lift (Ty.argument W.language.check false b); pure (some b)
    if constraints.length = 1 || (bound.isSome && !constraints.isEmpty) then
      throw (Failure.fault .wrongType)
    let constraints ← Fault.lift (constraints.mapM (Ty.argument W.language.check false))
    let (n, W) := W.freshId
    return W.bind name (.typeVar ⟨n, name⟩ bound constraints)
  | .alias name t => do return W.bind name (← W.typeOf t)
  | .cls name style bases items => do
    let bases ← W.typesOf bases
    let d ← items.foldlM W.addItem ⟨[], [], .titled, .titled, false⟩
    let (n, W) := W.freshId
    let c ← Fault.lift (W.makeClass ⟨n, name⟩ style (W.allBases style bases) d)
    return { W with classes := c :: W.classes }.bind name (.cls c.ref)

end World

end RecordText
