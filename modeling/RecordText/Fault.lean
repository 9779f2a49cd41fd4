/-
Faults: what goes wrong in the record, its class or its functions rather than in the configuration
of a renderer.
-/
namespace RecordText

/-- A fault, by its cause. -/
inductive Fault
  /-- An operation was asked of a value or a class that does not have it. -/
  | wrongType
  /-- A member or a dotted name does not exist. -/
  | noAttribute
  /-- A value of the right type is not an acceptable one. -/
  | badValue
  /-- A text in the place of a type cannot be read. -/
  | badText
  /-- A name in such a text means nothing. -/
  | unknownName
  /-- A text in the place of a type is empty. -/
  | emptyText
  /-- Members and texts call each other without end. -/
  | tooDeep
  /-- An integer is too large for a floating-point number. -/
  | overflow
  /-- A number that is none was compared. -/
  | noNumber
  /-- The definition of a model breaks the rules for models. -/
  | badModel
  /-- Anything else that a text in the place of a type raises when it is read, by its name. -/
  | raised (title : String)
  deriving DecidableEq, Repr, Inhabited

end RecordText
