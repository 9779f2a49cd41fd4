/-
Defined classes.

A class that has been defined consists of its lineage, of the attributes and annotations that it
brings itself (its `Layer`), of the fields that it declares as a data class or as a model, and of
the rules by which its instances are written.
-/
import RecordText.Class.Lineage
import RecordText.Renderer

namespace RecordText

/-- Whether a member of this name belongs to its class alone and is never shown. -/
def isPrivate (name : String) : Bool := name.startsWith "_"

/-- What a readable property runs, and how it is annotated. -/
structure Getter where
  body : GetterBody
  /-- The annotations in order; the one for the result is called `return`. -/
  annotations : List (String × Ty)
  /-- Whether the getter itself is marked as ignored. -/
  hidden : Bool
  deriving Repr, Inhabited

/-- An attribute of a class. -/
inductive Attribute
  /-- A property; one that can only be written has no getter. -/
  | property (getter : Option Getter)
  | value (v : Value)
  | method (b : Body)
  /-- An attribute that comes with a known class and is no property. What it does is a matter of the
  values themselves. -/
  | builtin
  deriving Repr, Inhabited

/-- Whether the attribute is a property, readable or not. -/
def Attribute.isProperty : Attribute → Bool
  | .property _ => true
  | _ => false

/-- What one class of a lineage brings itself. -/
structure Layer where
  attributes : List (String × Attribute)
  annotations : List (String × Ty)
  deriving Repr, Inhabited

namespace Layer

/-- A class that brings nothing. -/
def empty : Layer := ⟨[], []⟩

/-- No name stands twice among the attributes of a class. -/
def Distinct (l : Layer) : Prop := (l.attributes.map Prod.fst).Nodup

/-- No name is annotated twice in the class. -/
def AnnotatesOnce (l : Layer) : Prop := (l.annotations.map Prod.fst).Nodup

/-- The attribute that a lineage gives to a name: that of the first layer which has one. -/
def find? (layers : List Layer) (name : String) : Option Attribute :=
  layers.findSome? fun l => l.attributes.lookup name

end Layer

/-- A field of a model. -/
structure ModelField where
  name : String
  declared : Ty
  remarks : List Remark
  default : Option Value
  deriving Repr, Inhabited

/-- Whether a known class brings one of the written forms for its instances. -/
def KnownClass.brings (c : KnownClass) : Form → Bool
  | .text => c.bringsText
  | .printed => c.bringsPrinted

/-- How the instances of a class are written. -/
inductive TextRule
  /-- The name of the class in angle brackets. -/
  | titled
  | computed (b : Body)
  | rendered (r : Renderer)
  /-- As the classes above it say. -/
  | inherited
  deriving Repr, Inhabited

/-- Whether a class with this rule leaves it to those above it how its instances are written. -/
def TextRule.isInherited : TextRule → Bool
  | .inherited => true
  | _ => false

/-- A class that has been defined. -/
structure Class where
  ident : Ident
  /-- The class itself and those above it, in the order in which they are searched. -/
  lineage : List ClassRef
  layer : Layer
  /-- The declared fields of a data class; a field that belongs to the class alone is `false`. -/
  dataFields : Option (List (String × Bool))
  /-- The fields of a model. -/
  modelFields : Option (List ModelField)
  /-- The type variables of a generic class. -/
  parameters : Option (List Ty)
  text : TextRule
  printed : TextRule
  /-- What a data class is given besides its fields. -/
  dataStyle : Option DataStyle := none
  /-- The parameters that stand for the fields of a data class; a name that belongs to the class
  alone has none. -/
  dataParams : List (String × Option (Param Ty)) := []
  deriving Repr, Inhabited

namespace Class

/-- The class as a reference. -/
def ref (c : Class) : ClassRef := .defined c.ident

/-- The name of the class. -/
def title (c : Class) : String := c.ident.name

/-- How an instance of a data class is made from the values of its fields, if it is. -/
def constructor? (c : Class) : Option (Signature Ty) :=
  if c.dataStyle.any DataStyle.constructs then some ⟨c.dataParams.filterMap Prod.snd, some .absent⟩
  else none

/-- Whether instances of a data class are compared by their fields. -/
def comparesFields (c : Class) : Bool := c.dataStyle.any DataStyle.compares

/-- The rule of the class for one of the written forms. -/
def rule (f : Form) (c : Class) : TextRule :=
  match f with
  | .text => c.text
  | .printed => c.printed

end Class

end RecordText
