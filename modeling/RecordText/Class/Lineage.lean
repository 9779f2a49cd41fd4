/-
Lineages: the order in which a class and the classes above it are searched.

The lineage of a defined class starts with the class itself and merges the lineages of its bases:
the next class is the first head that stands in no tail (`merge`). There is none when the bases
contradict each other. `KnownClass.ancestors` gives the lineages of the known classes; it leaves
out the interfaces that a class meets without being derived from them.
-/
import RecordText.Class.Basic

namespace RecordText

/-- The known classes that a known class is derived from, nearest first, without `object`. -/
def KnownClass.ancestors : KnownClass → List KnownClass
  | .bool => [.int]
  | .level | .perm => [.int]
  | .tag => [.str]
  | .ratio => [.float]
  | .abcSequence => [.abcReversible, .abcCollection, .abcSized, .abcIterable, .abcContainer]
  | .abcMutableSequence =>
    [.abcSequence, .abcReversible, .abcCollection, .abcSized, .abcIterable, .abcContainer]
  | .abcMapping | .abcSet => [.abcCollection, .abcSized, .abcIterable, .abcContainer]
  | .abcMutableMapping =>
    [.abcMapping, .abcCollection, .abcSized, .abcIterable, .abcContainer]
  | .abcMutableSet | .abcKeysView =>
    [.abcSet, .abcCollection, .abcSized, .abcIterable, .abcContainer]
  | .abcIterator | .abcReversible => [.abcIterable]
  | .abcGenerator => [.abcIterator, .abcIterable]
  | .abcCollection => [.abcSized, .abcIterable, .abcContainer]
  | .datetime => [.date]
  | .fraction | .integral => [.number]
  | .npBool | .npNumber | .npDatetime64 => [.npGeneric]
  | .npInteger | .npFloating => [.npNumber, .npGeneric]
  | .npInt8 | .npInt32 | .npInt64 | .npUint8 | .npUint64 => [.npInteger, .npNumber, .npGeneric]
  | .npFloat16 | .npFloat32 => [.npFloating, .npNumber, .npGeneric]
  | .npFloat64 => [.npFloating, .npNumber, .npGeneric, .float]
  | .npComplex128 => [.npNumber, .npGeneric, .complex]
  | .npStr => [.str, .npGeneric]
  | .npBytes => [.bytes, .npGeneric]
  | .pdTimestamp => [.datetime, .date]
  | .pdTimedelta => [.timedelta]
  | .defaultDict | .orderedDict | .counter => [.dict]
  | .chainMap =>
    [.abcMutableMapping, .abcMapping, .abcCollection, .abcSized, .abcIterable, .abcContainer]
  | _ => []

namespace Lineage

/-- The lineage of a known class. -/
def ofKnown (c : KnownClass) : List ClassRef :=
  if c = .object then [.known .object]
  else (c :: c.ancestors ++ [KnownClass.object]).map ClassRef.known

/-- The head of a list that stands in no tail, if there is one. -/
def nextHead? (lists : List (List ClassRef)) : Option ClassRef :=
  (lists.filterMap List.head?).find? fun c => lists.all fun l => !l.tail.contains c

/-- Takes a class away from the front of every list. -/
def dropHead (c : ClassRef) (lists : List (List ClassRef)) : List (List ClassRef) :=
  (lists.map fun l => if l.head? = some c then l.tail else l).filter fun l => !l.isEmpty

/-- Merges lists of classes, at most `fuel` classes long; every class costs one unit. -/
def mergeWithin : Nat → List (List ClassRef) → Option (List ClassRef)
  | 0, lists => if lists.isEmpty then some [] else none
  | n + 1, lists =>
    if lists.isEmpty then some []
    else (nextHead? lists).bind fun c => (mergeWithin n (dropHead c lists)).map (c :: ·)

/-- Merges lists of classes. The result is no longer than all lists together. -/
def merge (lists : List (List ClassRef)) : Option (List ClassRef) :=
  let lists := lists.filter fun l => !l.isEmpty
  mergeWithin lists.flatten.length lists

/-- The lineage of a class with the given bases. -/
def ofBases (self : ClassRef) (bases : List ClassRef) (lineageOf : ClassRef → List ClassRef) :
    Option (List ClassRef) :=
  let bases := if bases.isEmpty then [.known .object] else bases
  (merge (bases.map lineageOf ++ [bases])).map (self :: ·)

end Lineage

end RecordText
