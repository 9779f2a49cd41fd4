/-
The classes that every catalogue of classes knows: numbers, texts, containers, abstract interfaces,
dates, array scalars, tables, and the fixed enumerations `Color`, `Level`, `Tag`, `Perm`, `Ratio`.

A known class has a title, a home (the dotted path of the module that holds it, empty for the
built-in ones), and the list of all known classes above it. `object` is above every class and is
left out of the lists. `proto` is an interface that refuses to be compared with: asking whether
something is a subclass or an instance of it is an error.
-/
namespace RecordText

/-- A class that needs no definition. -/
inductive KnownClass
  | int | bool | float | complex | str | bytes | bytearray | list | dict | set | frozenset | tuple
  | range | type | object | noneType | any | model | deque | abcSequence | abcMutableSequence
  | abcMapping | abcMutableMapping | abcSet | abcMutableSet | abcIterable | abcIterator
  | abcCollection | abcContainer | abcReversible | abcGenerator | abcSized | abcHashable
  | abcCallable | abcKeysView | date | datetime | time | timedelta | decimal | fraction | uuid
  | path | number | integral | npBool | npNumber | npInteger | npFloating | npInt8 | npInt32
  | npInt64 | npUint8 | npUint64 | npFloat16 | npFloat32 | npFloat64 | npComplex128 | npGeneric
  | npStr | npBytes | npDatetime64 | npArray | pdSeries | pdDataFrame | pdIndex | pdTimestamp
  | pdTimedelta | proto | color | level | tag | perm | ratio | defaultDict | orderedDict | counter
  | chainMap | generic
  deriving DecidableEq, Repr, Inhabited

namespace KnownClass

/-- Every known class above this one, `object` and the class itself excepted. -/
def supers : KnownClass → List KnownClass
  | .int => [.abcHashable, .number, .integral]
  | .bool | .level => [.int, .abcHashable, .number, .integral]
  | .float | .complex | .decimal | .fraction => [.abcHashable, .number]
  | .str | .bytes | .tuple | .range | .abcMutableSequence =>
    [.abcSequence, .abcIterable, .abcCollection, .abcContainer, .abcReversible, .abcSized,
     .abcHashable]
  | .bytearray | .list | .deque =>
    [.abcSequence, .abcMutableSequence, .abcIterable, .abcCollection, .abcContainer,
     .abcReversible, .abcSized]
  | .dict =>
    [.abcMapping, .abcMutableMapping, .abcIterable, .abcCollection, .abcContainer, .abcReversible,
     .abcSized]
  | .set => [.abcSet, .abcMutableSet, .abcIterable, .abcCollection, .abcContainer, .abcSized]
  | .frozenset => [.abcSet, .abcIterable, .abcCollection, .abcContainer, .abcSized, .abcHashable]
  | .type => [.abcHashable, .abcCallable]
  | .object | .noneType | .any | .abcIterable | .abcContainer | .abcSized | .abcCallable | .date
  | .time | .timedelta | .uuid | .path | .proto | .color | .generic => [.abcHashable]
  | .model => [.abcIterable]
  | .abcSequence =>
    [.abcIterable, .abcCollection, .abcContainer, .abcReversible, .abcSized, .abcHashable]
  | .abcMapping | .abcSet | .npArray | .pdSeries | .pdDataFrame | .pdIndex =>
    [.abcIterable, .abcCollection, .abcContainer, .abcSized]
  | .abcMutableMapping => [.abcMapping, .abcIterable, .abcCollection, .abcContainer, .abcSized]
  | .abcMutableSet | .abcKeysView =>
    [.abcSet, .abcIterable, .abcCollection, .abcContainer, .abcSized]
  | .abcIterator | .abcReversible => [.abcIterable, .abcHashable]
  | .abcCollection => [.abcIterable, .abcContainer, .abcSized, .abcHashable]
  | .abcGenerator => [.abcIterable, .abcIterator, .abcHashable]
  | .abcHashable | .number | .npGeneric => []
  | .datetime => [.abcHashable, .date]
  | .integral => [.number]
  | .npBool | .npDatetime64 => [.abcHashable, .npGeneric]
  | .npNumber => [.number, .npGeneric]
  | .npInteger => [.number, .integral, .npNumber, .npGeneric]
  | .npFloating => [.number, .npNumber, .npGeneric]
  | .npInt8 | .npInt32 | .npInt64 | .npUint8 | .npUint64 =>
    [.abcHashable, .number, .integral, .npNumber, .npInteger, .npGeneric]
  | .npFloat16 | .npFloat32 => [.abcHashable, .number, .npNumber, .npFloating, .npGeneric]
  | .npFloat64 => [.float, .abcHashable, .number, .npNumber, .npFloating, .npGeneric]
  | .npComplex128 => [.complex, .abcHashable, .number, .npNumber, .npGeneric]
  | .npStr =>
    [.str, .abcSequence, .abcIterable, .abcCollection, .abcContainer, .abcReversible, .abcSized,
     .abcHashable, .npGeneric]
  | .npBytes =>
    [.bytes, .abcSequence, .abcIterable, .abcCollection, .abcContainer, .abcReversible, .abcSized,
     .abcHashable, .npGeneric]
  | .pdTimestamp => [.abcHashable, .date, .datetime]
  | .pdTimedelta => [.abcHashable, .timedelta]
  | .tag =>
    [.str, .abcSequence, .abcIterable, .abcCollection, .abcContainer, .abcReversible, .abcSized,
     .abcHashable]
  | .perm =>
    [.int, .abcIterable, .abcCollection, .abcContainer, .abcSized, .abcHashable, .number, .integral]
  | .ratio => [.float, .abcHashable, .number]
  | .defaultDict | .orderedDict | .counter =>
    [.dict, .abcMapping, .abcMutableMapping, .abcIterable, .abcCollection, .abcContainer,
     .abcReversible, .abcSized]
  | .chainMap =>
    [.abcMapping, .abcMutableMapping, .abcIterable, .abcCollection, .abcContainer, .abcSized]

/-- The name of the class. -/
def title : KnownClass → String
  | .int => "int"
  | .bool => "bool"
  | .float => "float"
  | .complex => "complex"
  | .str => "str"
  | .bytes => "bytes"
  | .bytearray => "bytearray"
  | .list => "list"
  | .dict => "dict"
  | .set => "set"
  | .frozenset => "frozenset"
  | .tuple => "tuple"
  | .range => "range"
  | .type => "type"
  | .object => "object"
  | .noneType => "NoneType"
  | .any => "Any"
  | .model => "BaseModel"
  | .deque => "deque"
  | .abcSequence => "Sequence"
  | .abcMutableSequence => "MutableSequence"
  | .abcMapping => "Mapping"
  | .abcMutableMapping => "MutableMapping"
  | .abcSet => "Set"
  | .abcMutableSet => "MutableSet"
  | .abcIterable => "Iterable"
  | .abcIterator => "Iterator"
  | .abcCollection => "Collection"
  | .abcContainer => "Container"
  | .abcReversible => "Reversible"
  | .abcGenerator => "Generator"
  | .abcSized => "Sized"
  | .abcHashable => "Hashable"
  | .abcCallable => "Callable"
  | .abcKeysView => "KeysView"
  | .date => "date"
  | .datetime => "datetime"
  | .time => "time"
  | .timedelta => "timedelta"
  | .decimal => "Decimal"
  | .fraction => "Fraction"
  | .uuid => "UUID"
  | .path => "PurePosixPath"
  | .number => "Number"
  | .integral => "Integral"
  | .npBool => "bool"
  | .npNumber => "number"
  | .npInteger => "integer"
  | .npFloating => "floating"
  | .npInt8 => "int8"
  | .npInt32 => "int32"
  | .npInt64 => "int64"
  | .npUint8 => "uint8"
  | .npUint64 => "uint64"
  | .npFloat16 => "float16"
  | .npFloat32 => "float32"
  | .npFloat64 => "float64"
  | .npComplex128 => "complex128"
  | .npGeneric => "generic"
  | .npStr => "str_"
  | .npBytes => "bytes_"
  | .npDatetime64 => "datetime64"
  | .npArray => "ndarray"
  | .pdSeries => "Series"
  | .pdDataFrame => "DataFrame"
  | .pdIndex => "Index"
  | .pdTimestamp => "Timestamp"
  | .pdTimedelta => "Timedelta"
  | .proto => "Proto"
  | .color => "Color"
  | .level => "Level"
  | .tag => "Tag"
  | .perm => "Perm"
  | .ratio => "Ratio"
  | .defaultDict => "defaultdict"
  | .orderedDict => "OrderedDict"
  | .counter => "Counter"
  | .chainMap => "ChainMap"
  | .generic => "Generic"

/-- The dotted path of the module that holds the class; empty for the built-in classes. -/
def home : KnownClass → String
  | .any | .generic => "typing"
  | .model => "pydantic.main"
  | .deque | .defaultDict | .orderedDict | .counter | .chainMap => "collections"
  | .abcSequence | .abcMutableSequence | .abcMapping | .abcMutableMapping | .abcSet
  | .abcMutableSet | .abcIterable | .abcIterator | .abcCollection | .abcContainer | .abcReversible
  | .abcGenerator | .abcSized | .abcHashable | .abcCallable | .abcKeysView => "collections.abc"
  | .date | .datetime | .time | .timedelta => "datetime"
  | .decimal => "decimal"
  | .fraction => "fractions"
  | .uuid => "uuid"
  | .path => "pathlib"
  | .number | .integral => "numbers"
  | .npBool | .npNumber | .npInteger | .npFloating | .npInt8 | .npInt32 | .npInt64 | .npUint8
  | .npUint64 | .npFloat16 | .npFloat32 | .npFloat64 | .npComplex128 | .npGeneric | .npStr
  | .npBytes | .npDatetime64 | .npArray => "numpy"
  | .pdSeries | .pdDataFrame | .pdIndex | .pdTimestamp | .pdTimedelta => "pandas"
  | .proto | .color | .level | .tag | .perm | .ratio => "m"
  | _ => ""

/-- Whether every instance of `c` is one of `d`, by the lists. -/
def below (c d : KnownClass) : Bool :=
  c == d || d == .object || c.supers.contains d

/-- The fixed enumerations. -/
def isEnumeration : KnownClass → Bool
  | .color | .level | .tag | .perm | .ratio => true
  | _ => false

/-- Classes that no class may be derived from. -/
def isFinal : KnownClass → Bool
  | .bool | .noneType | .range | .npBool => true
  | c => c.isEnumeration

/-- Built-in classes with a layout of their own: a class may be derived from one of them only,
or from several that lie below each other. -/
def hasLayout : KnownClass → Bool
  | .int | .float | .complex | .str | .bytes | .bytearray | .list | .dict | .set | .frozenset
  | .tuple | .type | .deque | .date | .time | .timedelta | .decimal | .fraction | .uuid | .path
  | .npArray | .model => true
  | _ => false

/-- Classes whose instances differ in size: every class derived from one of them directly has a
layout of its own. -/
def isVariable : KnownClass → Bool
  | .int | .bytes | .tuple | .type => true
  | _ => false

/-- Classes that bring a text for their instances. The text of `object` is the printed form. -/
def bringsText : KnownClass → Bool
  | .str | .bytes | .bytearray | .model | .date | .datetime | .time | .timedelta | .decimal
  | .fraction | .uuid | .path | .npArray | .pdTimedelta => true
  | c => c.isEnumeration || c.below .npGeneric

/-- Classes that bring a printed form for their instances. The one of `object`, which tells nothing
about an instance, is left out. -/
def bringsPrinted : KnownClass → Bool
  | .object | .any | .proto | .generic => false
  | .abcKeysView => true
  | c => c.home != "collections.abc" && c.home != "numbers"

end KnownClass

end RecordText
