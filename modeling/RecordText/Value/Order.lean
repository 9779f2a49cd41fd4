/-
Comparing values.

Numbers of all kinds are compared exactly, texts character by character, lists and tuples from the
front; scalars of other classes are compared by their texts within one class. What cannot be
ordered is an error. `Value.Key` is what makes two values count as one name: equal numbers, equal
texts and equal tuples have equal keys, and every record is its own.
-/
import RecordText.Value.Print
import RecordText.Fault

namespace RecordText

open Number (Binary64 Exact)

namespace Value

/-- What a value is told apart by, where values are names or members of a set. -/
inductive Key
  | text (s : String)
  | number (x : Exact)
  | tuple (ks : List Key)
  | absent
  | missing (m : Missing)
  | scalar (kind : KnownClass) (text : String)
  | member (m : EnumMember)
  | type (t : Ty)
  | routine (name : String)
  /-- A stored instance. -/
  | address (a : Nat)
  /-- An instance that is like no other. -/
  | fresh
  deriving Repr, Inhabited

mutual

/-- Equality of keys. A number that is none and a fresh instance differ from themselves. -/
def Key.same : Key → Key → Bool
  | .text s, .text t => s == t
  | .number x, .number y => x.same y
  | .tuple ks, .tuple ls => Key.samePairwise ks ls
  | .absent, .absent => true
  | .missing m, .missing n => m == n
  | .scalar k s, .scalar l t => k == l && s == t
  | .member m, .member n => m == n
  | .type t, .type u => t.same u
  | .routine m, .routine n => m == n
  | .address a, .address b => a == b
  | _, _ => false

/-- Equality of lists of keys, one by one. -/
def Key.samePairwise : List Key → List Key → Bool
  | [], [] => true
  | k :: ks, l :: ls => k.same l && Key.samePairwise ks ls
  | _, _ => false

end

instance : BEq Key := ⟨Key.same⟩

/-- The key of a value that is no container and no instance. -/
def atomKey (v : Value) : Key :=
  match v.text?, v.number? with
  | some s, _ => .text s
  | _, some x => .number x
  | _, _ =>
    match v with
    | .missing m => .missing m
    | .scalar k s => .scalar k s
    | .member m => .member m
    | .type t => .type t
    | .routine n => .routine n
    | _ => .absent

mutual

/-- The key of a value. Lists, dictionaries and the instances of the classes that `mutable` names
have none. -/
def key? (mutable : ClassRef → Bool) : Value → Option Key
  | .list _ | .dict _ => none
  | .tuple xs => (keys? mutable xs).map .tuple
  | .record c b _ =>
    if mutable c then none
    else match b with
      | some b => b.key? mutable
      | none => some .fresh
  | .stored a c b =>
    if mutable c then none
    else match b with
      | some b => b.key? mutable
      | none => some (.address a)
  | v => some (atomKey v)

/-- The keys of several values. -/
def keys? (mutable : ClassRef → Bool) : List Value → Option (List Key)
  | [] => some []
  | v :: vs =>
    match v.key? mutable, keys? mutable vs with
    | some k, some ks => some (k :: ks)
    | _, _ => none

end

/-! ### Equality -/

/-- Equality of values that are no containers. -/
def sameAtom (v w : Value) : Bool :=
  match v.plain, w.plain with
  | .absent, .absent => true
  | .text s, .text t => s == t
  | .type t, .type u => t.same u
  | .member m, .member n => m == n
  | .stored a _ _, .stored b _ _ => a == b
  | .scalar k s, .scalar l t =>
    if isNumberKind k && isNumberKind l then (Exact.ofText s).same (Exact.ofText t)
    else s == t && (k.below l || l.below k)
  | v, w =>
    match v.number?, w.number? with
    | some x, some y => x.same y
    | _, _ => false

mutual

/-- Equality of values. -/
def equal : Value → Value → Bool
  | .list xs, w =>
    match w.plain with
    | .list ys => equalPairwise xs ys
    | _ => false
  | .tuple xs, w =>
    match w.plain with
    | .tuple ys => equalPairwise xs ys
    | _ => false
  | .dict es, w =>
    match w.plain with
    | .dict fs => es.length == fs.length && equalEntries es fs
    | _ => false
  | .record c (some b) as, w =>
    match b with
    | .list _ | .tuple _ | .dict _ | .record _ _ _ | .stored _ _ _ => equal b w
    | b => sameAtom (.record c (some b) as) w
  | .record c none as, w =>
    match w with
    | .record d none bs => c == d && equalAttrs as bs
    | _ => false
  | .stored a c (some b), w =>
    match b with
    | .list _ | .tuple _ | .dict _ | .record _ _ _ | .stored _ _ _ => equal b w
    | b => sameAtom (.stored a c (some b)) w
  | v, w => sameAtom v w
termination_by structural v => v

/-- Equality of lists of values, one by one. -/
def equalPairwise : List Value → List Value → Bool
  | [], [] => true
  | v :: vs, w :: ws => equal v w && equalPairwise vs ws
  | _, _ => false
termination_by structural vs => vs

/-- Every entry has an equal one in the other dictionary. -/
def equalEntries : List (Value × Value) → List (Value × Value) → Bool
  | [], _ => true
  | (k, v) :: es, fs => (fs.any fun f => equal k f.1 && equal v f.2) && equalEntries es fs
termination_by structural es => es

/-- Equality of attributes, one by one. -/
def equalAttrs : List (String × Value) → List (String × Value) → Bool
  | [], [] => true
  | (n, v) :: es, (m, w) :: fs => n == m && equal v w && equalAttrs es fs
  | _, _ => false
termination_by structural es => es

end

/-! ### Order -/

/-- Whether the value is a scalar of the given class. -/
def isScalar (k : KnownClass) (v : Value) : Bool :=
  match v.plain with
  | .scalar l _ => k == l
  | _ => false

/-- The first of two lists of characters, by code points. -/
def lessText (s t : String) : Bool := decide (s < t)

/-- Order of values that are no containers. A decimal refuses to be compared where one side is no
number. -/
def lessAtom (v w : Value) : Except Fault Bool :=
  match v.plain, w.plain with
  | .text s, .text t => pure (lessText s t)
  | v, w =>
    match v.number?, w.number?, v, w with
    | some x, some y, v, w =>
      if (v.isScalar .decimal || w.isScalar .decimal) && (x == .nan || y == .nan)
      then throw .noNumber
      else pure (x.lt y)
    | _, _, .scalar k s, .scalar l t => if k == l then pure (lessText s t) else throw .wrongType
    | _, _, _, _ => throw .wrongType

mutual

/-- Whether `v < w`. -/
def less : Value → Value → Except Fault Bool
  | .list xs, w =>
    match w.plain with
    | .list ys => lessPairwise xs ys
    | _ => throw .wrongType
  | .tuple xs, w =>
    match w.plain with
    | .tuple ys => lessPairwise xs ys
    | _ => throw .wrongType
  | .record _ (some b) _, w | .stored _ _ (some b), w => less b w
  | v, w => lessAtom v w

/-- The order of lists: the first difference decides, and a list is above its beginnings. -/
def lessPairwise : List Value → List Value → Except Fault Bool
  | _, [] => pure false
  | [], _ :: _ => pure true
  | v :: vs, w :: ws => if equal v w then lessPairwise vs ws else less v w

end

end Value

end RecordText
