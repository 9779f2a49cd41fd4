/-
Catalogs: the members of a class that a renderer may use.

Fields come before properties, and in both groups the members of the classes above come first.

* A plain class has a field for every public annotation that is no class variable, a data class for
  every declared field. A field whose name is a property of the class is left to the properties.
* A model has the fields that it declared.
* The properties are found by walking the lineage from its end to the class itself (`ownProperties`,
  `propertiesOf`): a property that is defined again keeps its place, and anything else that takes
  its name removes it.

Members that a mark hides stay in the catalog as candidates and are left out of its members.
-/
import RecordText.World.Define
import RecordText.Member

namespace RecordText

/-- What is noted while a catalog is made. -/
inductive Note
  /-- A field is left to the property of its name. -/
  | shadowed (target member : String)
  /-- A mark hides a member. -/
  | skipped (target member : String)
  /-- A renderer is about to be made. -/
  | building (target : String) (members substituted ignored : Nat)
  /-- A plan with members has been compiled. -/
  | compiled (target : String) (entries : List (String × Strategy))
  deriving DecidableEq, Repr, Inhabited

/-- The wording of a note. -/
def Note.message : Note → String
  | .shadowed target m => target ++ "." ++ m ++ ": field shadowed by property"
  | .skipped target m => target ++ "." ++ m ++ ": skipped (ignore marker)"
  | .building target n k i =>
    "Building ToStringMethod for " ++ target ++ ": " ++ toString n ++ " members, " ++ toString k
      ++ " substituted, " ++ toString i ++ " ignored"
  | .compiled target es =>
    "Compiled renderer for " ++ target ++ ": "
      ++ commaSeparated (es.map fun e => e.1 ++ ":" ++ e.2.title)

/-- The candidates for the members of a class. -/
structure Catalog where
  candidates : List Member
  deriving Repr, Inhabited

namespace Catalog

/-- The names of all candidates. -/
def names (c : Catalog) : List String := c.candidates.map Member.name

/-- The candidates that no mark hides. -/
def members (c : Catalog) : List Member := c.candidates.filter fun m => !m.ignored

/-! ### Fields -/

/-- Whether the attribute that a lineage gives to a name is a property. -/
def isShadowed (layers : List Layer) (name : String) : Bool :=
  ((Layer.find? layers name).map Attribute.isProperty).getD false

/-- A member with its declared type; remarks may hide it. -/
def memberOf (kind : MemberKind) (name : String) (declared : Ty) (hidden : Bool) : Member :=
  let (t, remarks) := declared.stripAnnotated
  ⟨name, t, kind, hidden || remarks.any Remark.hides⟩

/-- The names of the fields of a class that is no model. -/
def fieldNames (declared : Option (List (String × Bool))) (hints : List (String × Ty)) :
    List String :=
  match declared with
  | some fields => (fields.filter Prod.snd).map Prod.fst
  | none => (hints.filter fun h => !h.2.isClassVar).map Prod.fst

/-- The fields of a class that is no model. -/
def fieldsOf (layers : List Layer) (declared : Option (List (String × Bool)))
    (hints : List (String × Ty)) : List Member :=
  ((fieldNames declared hints).filter fun n => !isPrivate n && !isShadowed layers n).map fun n =>
    memberOf .field n ((hints.lookup n).getD Ty.any) false

/-- The fields that are left to properties. -/
def shadowedNames (layers : List Layer) (declared : Option (List (String × Bool)))
    (hints : List (String × Ty)) : List String :=
  (fieldNames declared hints).filter fun n => !isPrivate n && isShadowed layers n

/-- The fields of a model. -/
def modelFieldsOf (fields : List ModelField) : List Member :=
  (fields.filter fun f => !isPrivate f.name).map fun f =>
    memberOf .field f.name f.declared (f.remarks.any Remark.hides)

/-! ### Properties -/

/-- The properties so far, after the attributes of one more class. -/
def ownProperties (found : List (String × Option Getter)) (l : Layer) :
    List (String × Option Getter) :=
  l.attributes.foldl (fun fs e =>
    match e.2 with
    | .property g => Table.put e.1 g fs
    | _ => Table.erase e.1 fs) found

/-- The properties of a lineage, in order. -/
def propertiesOf (layers : List Layer) : List (String × Option Getter) :=
  layers.reverse.foldl ownProperties []

/-- The member for a property, if it can be read and is public. -/
def propertyMember? (S : Scope) (e : String × Option Getter) : Except Fault (Option Member) :=
  match e.2 with
  | none => pure none
  | some g =>
    if isPrivate e.1 then pure none
    else do
      let hints ← S.hints g.annotations
      return some (memberOf .property e.1 ((hints.lookup "return").getD Ty.any) g.hidden)

/-- The properties of a lineage as members. -/
def propertyMembers (S : Scope) (layers : List Layer) : Except Fault (List Member) := do
  return (← (propertiesOf layers).mapM (propertyMember? S)).filterMap id

/-! ### Catalogs -/

/-- The notes about candidates that a mark hides. -/
def skippedNotes (target : String) (candidates : List Member) : List Note :=
  (candidates.filter Member.ignored).map fun m => .skipped target m.name

end Catalog

namespace World

/-- The fields of a class, and the notes about those that are left to properties. -/
def fields (W : World) (c : ClassRef) : Except Fault (List Member × List Note) :=
  match (W.definition? c).bind Class.modelFields with
  | some fs => pure (Catalog.modelFieldsOf fs, [])
  | none =>
    if W.isModel c then pure ([], [])
    else do
      let layers := W.layers c
      let hints ← W.scope.classHints layers
      let declared := W.dataFields? c
      return (Catalog.fieldsOf layers declared hints,
        (Catalog.shadowedNames layers declared hints).map (Note.shadowed c.title))

/-- The properties of a class. -/
def properties (W : World) (c : ClassRef) : Except Fault (List Member) :=
  Catalog.propertyMembers W.scope (W.layers c)

/-- The candidates of the chosen modes. -/
def catalog (W : World) (c : ClassRef) (useFields useProperties : Bool) :
    Except Fault (Catalog × List Note) := do
  let (fields, notes) ← if useFields then W.fields c else pure ([], [])
  let properties ← if useProperties then W.properties c else pure []
  let candidates := fields ++ properties
  return (⟨candidates⟩, notes ++ Catalog.skippedNotes c.title candidates)

end World

end RecordText
