/-
The names that every description of types may use: known classes, generic forms without arguments,
and a handful of other forms.
-/
import RecordText.Ty.Basic

namespace RecordText

/-- The known classes by the names that descriptions use for them. -/
def KnownClass.named : List (String × KnownClass) := [
  ("int", .int), ("bool", .bool), ("float", .float), ("complex", .complex), ("str", .str),
  ("bytes", .bytes), ("bytearray", .bytearray), ("list", .list), ("dict", .dict), ("set", .set),
  ("frozenset", .frozenset), ("tuple", .tuple), ("range", .range), ("type", .type),
  ("object", .object), ("NoneType", .noneType), ("Any", .any), ("BaseModel", .model),
  ("deque", .deque), ("abc.Sequence", .abcSequence), ("abc.MutableSequence", .abcMutableSequence),
  ("abc.Mapping", .abcMapping), ("abc.MutableMapping", .abcMutableMapping), ("abc.Set", .abcSet),
  ("abc.MutableSet", .abcMutableSet), ("abc.Iterable", .abcIterable),
  ("abc.Iterator", .abcIterator), ("abc.Collection", .abcCollection),
  ("abc.Container", .abcContainer), ("abc.Reversible", .abcReversible),
  ("abc.Generator", .abcGenerator), ("abc.Sized", .abcSized), ("abc.Hashable", .abcHashable),
  ("abc.Callable", .abcCallable), ("abc.KeysView", .abcKeysView), ("date", .date),
  ("datetime", .datetime), ("time", .time), ("timedelta", .timedelta), ("Decimal", .decimal),
  ("Fraction", .fraction), ("UUID", .uuid), ("PurePosixPath", .path), ("numbers.Number", .number),
  ("numbers.Integral", .integral), ("np.bool_", .npBool), ("np.number", .npNumber),
  ("np.integer", .npInteger), ("np.floating", .npFloating), ("np.int8", .npInt8),
  ("np.int32", .npInt32), ("np.int64", .npInt64), ("np.uint8", .npUint8),
  ("np.uint64", .npUint64), ("np.float16", .npFloat16), ("np.float32", .npFloat32),
  ("np.float64", .npFloat64), ("np.complex128", .npComplex128), ("np.generic", .npGeneric),
  ("np.str_", .npStr), ("np.bytes_", .npBytes), ("np.datetime64", .npDatetime64),
  ("np.ndarray", .npArray), ("pd.Series", .pdSeries), ("pd.DataFrame", .pdDataFrame),
  ("pd.Index", .pdIndex), ("pd.Timestamp", .pdTimestamp), ("pd.Timedelta", .pdTimedelta),
  ("Proto", .proto), ("Color", .color), ("Level", .level), ("Tag", .tag), ("Perm", .perm),
  ("Ratio", .ratio), ("Text", .str)]

/-- The generic forms without arguments, with the classes they stand for. -/
def Ty.bareForms : List (String × KnownClass) := [
  ("List", .list), ("Dict", .dict), ("Set", .set), ("FrozenSet", .frozenset), ("Tuple", .tuple),
  ("Type", .type), ("Deque", .deque), ("DefaultDict", .defaultDict),
  ("OrderedDict", .orderedDict), ("Counter", .counter), ("ChainMap", .chainMap),
  ("Sequence", .abcSequence), ("MutableSequence", .abcMutableSequence), ("Mapping", .abcMapping),
  ("MutableMapping", .abcMutableMapping), ("AbstractSet", .abcSet),
  ("MutableSet", .abcMutableSet), ("Iterable", .abcIterable), ("Iterator", .abcIterator),
  ("Collection", .abcCollection), ("Container", .abcContainer), ("Reversible", .abcReversible),
  ("Generator", .abcGenerator), ("Sized", .abcSized), ("Hashable", .abcHashable),
  ("Callable", .abcCallable), ("KeysView", .abcKeysView)]

/-- The type variable over byte strings and texts. -/
def Ty.anyStr : Ty :=
  .typeVar ⟨0, "AnyStr"⟩ none [.cls (.known .bytes), .str]

/-- The type that a name stands for without any definition. -/
def Ty.named? (name : String) : Option Ty :=
  match KnownClass.named.lookup name with
  | some c => some (.cls (.known c))
  | none =>
    match Ty.bareForms.lookup name with
    | some c => some (.bare name c)
    | none =>
      match name with
      | "None" => some .absent
      | "..." => some .ellipsis
      | "Char" => some .char
      | "ClassVar" => some .classVarForm
      | "AnyStr" => some .anyStr
      | "LiteralString" | "Never" => some (.form name)
      | "Generic" => some (.cls (.known .generic))
      | _ => none

end RecordText
