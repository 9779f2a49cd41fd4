/-
What the known classes bring.

A `Library` says of every known class which attributes and annotations it brings to a lineage, and
how it is called, if it has a signature.  It is a parameter of everything that looks classes up.

`Library.standard` lists the public attributes of the built-in classes, of containers and
interfaces, of dates and of the other plain data.  It lists none for array scalars, tables and
enumerations.
-/
import RecordText.Class.Defined

namespace RecordText

namespace KnownClass

/-- The properties of a known class. -/
def properties : KnownClass → List String
  | .fraction | .integral =>
    ["real", "imag", "numerator", "denominator"]
  | .uuid =>
    ["bytes", "bytes_le", "fields", "time_low", "time_mid", "time_hi_version",
     "clock_seq_hi_variant", "clock_seq_low", "time", "clock_seq", "node", "hex", "urn", "variant",
     "version"]
  | .path =>
    ["drive", "root", "anchor", "name", "suffix", "suffixes", "stem", "parts", "parent", "parents"]
  | .chainMap =>
    ["parents"]
  | _ => []

/-- The other public attributes of a known class. -/
def members : KnownClass → List String
  | .int =>
    ["conjugate", "bit_length", "bit_count", "to_bytes", "from_bytes", "as_integer_ratio", "real",
     "imag", "numerator", "denominator"]
  | .float =>
    ["conjugate", "as_integer_ratio", "fromhex", "hex", "is_integer", "real", "imag"]
  | .complex =>
    ["conjugate", "real", "imag"]
  | .str =>
    ["encode", "replace", "split", "rsplit", "join", "capitalize", "casefold", "title", "center",
     "count", "expandtabs", "find", "partition", "index", "ljust", "lower", "lstrip", "rfind",
     "rindex", "rjust", "rstrip", "rpartition", "splitlines", "strip", "swapcase", "translate",
     "upper", "startswith", "endswith", "removeprefix", "removesuffix", "isascii", "islower",
     "isupper", "istitle", "isspace", "isdecimal", "isdigit", "isnumeric", "isalpha", "isalnum",
     "isidentifier", "isprintable", "zfill", "format", "format_map", "maketrans"]
  | .bytes =>
    ["capitalize", "center", "count", "decode", "endswith", "expandtabs", "find", "fromhex", "hex",
     "index", "isalnum", "isalpha", "isascii", "isdigit", "islower", "isspace", "istitle",
     "isupper", "join", "ljust", "lower", "lstrip", "maketrans", "partition", "replace",
     "removeprefix", "removesuffix", "rfind", "rindex", "rjust", "rpartition", "rsplit", "rstrip",
     "split", "splitlines", "startswith", "strip", "swapcase", "title", "translate", "upper",
     "zfill"]
  | .bytearray =>
    ["append", "capitalize", "center", "clear", "copy", "count", "decode", "endswith",
     "expandtabs", "extend", "find", "fromhex", "hex", "index", "insert", "isalnum", "isalpha",
     "isascii", "isdigit", "islower", "isspace", "istitle", "isupper", "join", "ljust", "lower",
     "lstrip", "maketrans", "partition", "pop", "remove", "replace", "removeprefix",
     "removesuffix", "reverse", "rfind", "rindex", "rjust", "rpartition", "rsplit", "rstrip",
     "split", "splitlines", "startswith", "strip", "swapcase", "title", "translate", "upper",
     "zfill"]
  | .list =>
    ["clear", "copy", "append", "insert", "extend", "pop", "remove", "index", "count", "reverse",
     "sort"]
  | .dict =>
    ["get", "setdefault", "pop", "popitem", "keys", "items", "values", "update", "fromkeys",
     "clear", "copy"]
  | .set =>
    ["add", "clear", "copy", "discard", "difference", "difference_update", "intersection",
     "intersection_update", "isdisjoint", "issubset", "issuperset", "pop", "remove",
     "symmetric_difference", "symmetric_difference_update", "union", "update"]
  | .frozenset =>
    ["copy", "difference", "intersection", "isdisjoint", "issubset", "issuperset",
     "symmetric_difference", "union"]
  | .tuple | .abcSequence =>
    ["index", "count"]
  | .range =>
    ["count", "index", "start", "stop", "step"]
  | .type =>
    ["mro"]
  | .deque =>
    ["append", "appendleft", "clear", "copy", "count", "extend", "extendleft", "index", "insert",
     "pop", "popleft", "remove", "reverse", "rotate", "maxlen"]
  | .abcMutableSequence =>
    ["insert", "append", "clear", "reverse", "extend", "pop", "remove"]
  | .abcMapping =>
    ["get", "keys", "items", "values"]
  | .abcMutableMapping =>
    ["pop", "popitem", "clear", "update", "setdefault"]
  | .abcSet =>
    ["isdisjoint"]
  | .abcMutableSet =>
    ["add", "discard", "remove", "pop", "clear"]
  | .abcGenerator =>
    ["send", "throw", "close"]
  | .date =>
    ["fromtimestamp", "fromordinal", "fromisoformat", "fromisocalendar", "today", "ctime",
     "strftime", "timetuple", "isocalendar", "isoformat", "isoweekday", "toordinal", "weekday",
     "replace", "year", "month", "day", "min", "max", "resolution"]
  | .datetime =>
    ["now", "utcnow", "fromtimestamp", "utcfromtimestamp", "strptime", "combine", "fromisoformat",
     "date", "time", "timetz", "ctime", "timetuple", "timestamp", "utctimetuple", "isoformat",
     "utcoffset", "tzname", "dst", "replace", "astimezone", "hour", "minute", "second",
     "microsecond", "tzinfo", "fold", "min", "max", "resolution"]
  | .time =>
    ["isoformat", "strftime", "utcoffset", "tzname", "dst", "replace", "fromisoformat", "hour",
     "minute", "second", "microsecond", "tzinfo", "fold", "min", "max", "resolution"]
  | .timedelta =>
    ["total_seconds", "days", "seconds", "microseconds", "resolution", "min", "max"]
  | .decimal =>
    ["exp", "ln", "log10", "next_minus", "next_plus", "normalize", "to_integral",
     "to_integral_exact", "to_integral_value", "sqrt", "compare", "compare_signal", "max",
     "max_mag", "min", "min_mag", "next_toward", "quantize", "remainder_near", "fma",
     "is_canonical", "is_finite", "is_infinite", "is_nan", "is_qnan", "is_snan", "is_signed",
     "is_zero", "is_normal", "is_subnormal", "adjusted", "canonical", "conjugate", "radix",
     "copy_abs", "copy_negate", "logb", "logical_invert", "number_class", "to_eng_string",
     "compare_total", "compare_total_mag", "copy_sign", "same_quantum", "logical_and",
     "logical_or", "logical_xor", "rotate", "scaleb", "shift", "from_float", "as_tuple",
     "as_integer_ratio", "real", "imag"]
  | .fraction =>
    ["conjugate", "from_float", "from_decimal", "as_integer_ratio", "limit_denominator"]
  | .uuid =>
    ["int", "is_safe"]
  | .path =>
    ["as_posix", "as_uri", "with_name", "with_stem", "with_suffix", "relative_to",
     "is_relative_to", "joinpath", "is_absolute", "is_reserved", "match"]
  | .integral =>
    ["conjugate"]
  | .defaultDict =>
    ["copy", "default_factory"]
  | .orderedDict =>
    ["fromkeys", "setdefault", "pop", "popitem", "keys", "values", "items", "update", "clear",
     "copy", "move_to_end"]
  | .counter =>
    ["total", "most_common", "elements", "fromkeys", "update", "subtract", "copy"]
  | .chainMap =>
    ["get", "fromkeys", "copy", "new_child", "popitem", "pop", "clear"]
  | _ => []

/-- A property of a known class is not annotated, and what it reads is not known. -/
def getterOf (name : String) : Getter := ⟨.computed (.value (.unreadable name)), [], false⟩

/-- The public attributes of a known class. -/
def layer (c : KnownClass) : Layer :=
  ⟨c.properties.map (fun n => (n, .property (some (getterOf n)))) ++
    c.members.map fun n => (n, .builtin), []⟩

/-- Known classes that say how they are called. -/
def hasConstructor : KnownClass → Bool
  | .any | .proto | .fraction | .uuid | .path | .counter | .chainMap => true
  | _ => false

theorem names_layer (c : KnownClass) :
    c.layer.attributes.map Prod.fst = c.properties ++ c.members := by
  simp [layer, Function.comp_def]

theorem nodup_names (c : KnownClass) : (c.properties ++ c.members).Nodup := by
  cases c <;> decide +kernel

end KnownClass

/-- What the known classes bring. -/
structure Library where
  /-- The attributes and annotations of a class. -/
  layer : KnownClass → Layer
  /-- How a class is called, if anything is known about its parameters. -/
  constructor? : KnownClass → Option (Signature Ty)
  distinct : ∀ c, (layer c).Distinct
  annotatesOnce : ∀ c, (layer c).AnnotatesOnce

namespace Library

/-- What a known class brings to a lineage. The classes above all classes and above all models are
passed over. -/
def brings (L : Library) : KnownClass → Layer
  | .object | .model => .empty
  | k => L.layer k

theorem distinct_brings (L : Library) (k : KnownClass) : (L.brings k).Distinct := by
  unfold brings
  split
  · exact List.nodup_nil
  · exact List.nodup_nil
  · exact L.distinct k

theorem annotatesOnce_brings (L : Library) (k : KnownClass) : (L.brings k).AnnotatesOnce := by
  unfold brings
  split
  · exact List.nodup_nil
  · exact List.nodup_nil
  · exact L.annotatesOnce k

/-- No class brings anything. -/
def empty : Library := ⟨fun _ => .empty, fun _ => none, fun _ => List.nodup_nil,
  fun _ => List.nodup_nil⟩

instance : Inhabited Library := ⟨empty⟩

/-- The public attributes of the known classes. None of these classes has annotated parameters. -/
def standard : Library where
  layer := KnownClass.layer
  constructor? c := if c.hasConstructor then some ⟨[], none⟩ else none
  distinct c := by
    rw [Layer.Distinct, c.names_layer]
    exact c.nodup_names
  annotatesOnce _ := List.nodup_nil

end Library

end RecordText
