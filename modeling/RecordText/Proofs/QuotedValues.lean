/-
Values that are quoted as texts.

A value of a quoted member is asked for its replacement of characters, or for its elements.  Texts
answer as texts do.  An instance of a class above the texts wraps one and answers as it does, unless
its class says otherwise, and then anything can stand between the quotes:

* `Behaviour.QuotesAs` — a value counts as a text and answers as that text does;
* `Behaviour.quotesAs_of_ownText` — plain texts do so under every behaviour;
* `World.quotesAs_of_inherited` — **so do the instances whose classes define neither operation**;
* `Fragment.ofString_of_quotesAs`, `Fragment.ofChar_of_quotesAs` — such a value is quoted as its
  text, in both styles.
-/
import RecordText.Proofs.Quoting
import RecordText.Proofs.Rendering
import RecordText.World.Behave

namespace RecordText

/-! ### Plain texts -/

namespace Value

variable {v : Value} {s : String}

/-- What counts as a text is there. -/
theorem isAbsent_of_text (hs : v.text? = some s) : v.isAbsent = false := by
  cases v with
  | absent => cases hs
  | missing _ => cases hs
  | _ => rfl

/-- A plain text counts as the text that it is. -/
theorem text_of_ownText (hs : v.ownText? = some s) : v.text? = some s := by
  cases v with
  | record _ _ _ => cases hs
  | stored _ _ _ => cases hs
  | _ => exact hs

end Value

namespace Behaviour

variable {B : Behaviour} {v : Value} {s : String}

/-- A value counts as a text, and unless it is a plain one it answers as that text does when it is
asked for its replacement of characters or for its elements. -/
structure QuotesAs (B : Behaviour) (v : Value) (s : String) : Prop where
  text : v.text? = some s
  replace : v.ownText? = none → ∀ c r,
    B.replace v c r = .ok (.text (String.ofList (Text.replaceEach c r s.toList)))
  elements : v.ownText? = none → B.elements v = .ok (s.toList.map fun c => .text c.toString)

theorem quotesAs_of_ownText (hs : v.ownText? = some s) : B.QuotesAs v s := by
  refine ⟨Value.text_of_ownText hs, fun hn => ?_, fun hn => ?_⟩
  all_goals cases hn.symm.trans hs

/-- A value is quoted as one text at most. -/
theorem QuotesAs.ownText (h : B.QuotesAs v s) {t : String} (ht : v.ownText? = some t) : t = s :=
  Option.some.inj ((Value.text_of_ownText ht).symm.trans h.text)

end Behaviour

/-! ### Fragments -/

namespace Fragment

variable {B : Behaviour} {v : Value} {s : String}

/-- One pass over a value that is quoted as a text leaves a plain text. -/
theorem escaped_of_quotesAs (h : B.QuotesAs v s) (c : Char) :
    escaped B c v =
      .ok (.text (String.ofList (Text.replaceEach c [Text.backslash, c] s.toList))) := by
  unfold escaped
  cases ht : v.ownText? with
  | some t => rw [h.ownText ht]; rfl
  | none => exact h.replace ht c _

/-- A character between single quotes is a piece by itself. -/
theorem toList_piece (c : Char) :
    (piece c.toString).toList =
      if c = Text.singleQuote ∨ c = Text.backslash then [Text.backslash, c] else [c] := by
  have hc : c.toString.toList = [c] := String.toList_singleton c
  rw [piece, hc]
  simp only [List.cons.injEq, and_true]
  split_ifs
  · exact String.toList_ofList
  · exact hc

/-- The characters of a text, piece by piece, are the text. -/
theorem quotedPieces_characters (s : String) :
    quotedPieces (s.toList.map fun c => .text c.toString) =
      .ok (Text.quoted Text.singleQuote s) := by
  have hbody : ∀ cs : List Char, ("".intercalate (cs.map fun c => piece c.toString)).toList =
      Text.escape Text.singleQuote cs := by
    intro cs
    induction cs with
    | nil => rfl
    | cons c cs ih =>
      rw [List.map_cons, Plan.join_cons, String.toList_append, ih, toList_piece, Text.escape_cons]
  have hpieces : (s.toList.map fun c => Value.text c.toString).map quotedPieces.escaped =
      (s.toList.map fun c => piece c.toString).map Value.text := by
    rw [List.map_map, List.map_map]
    rfl
  rw [quotedPieces, hpieces, Plan.joined_texts, ok_bind]
  refine congrArg Except.ok (String.toList_inj.mp ?_)
  rw [String.toList_append, String.toList_append, hbody, Text.quoted, String.toList_ofList]
  rfl

/-- The char style: every character once, from left to right. -/
theorem ofChar_of_quotesAs (h : B.QuotesAs v s) :
    ofChar B v = .ok (Text.quoted Text.singleQuote s) := by
  unfold ofChar
  cases ht : v.ownText? with
  | some t => rw [h.ownText ht]; rfl
  | none =>
    dsimp only
    rw [h.elements ht, ok_bind, quotedPieces_characters]
    rfl

/-- The string style: two passes over the whole text. -/
theorem ofString_of_quotesAs (h : B.QuotesAs v s) :
    ofString B v = .ok (Text.quotedTwice Text.doubleQuote s) := by
  -- what comes out of the first pass is a plain text
  have hplain : ∀ t, B.QuotesAs (.text t) t := fun t => Behaviour.quotesAs_of_ownText rfl
  rw [ofString, escaped_of_quotesAs h, ok_bind, escaped_of_quotesAs (hplain _), ok_bind, spelled]
  refine congrArg Except.ok (String.toList_inj.mp ?_)
  simp [Text.quotedTwice, Text.escapeTwice]

end Fragment

/-! ### Instances -/

namespace World

variable {W : World} {v : Value} {s : String}

/-- The classes of a value leave an attribute to the data behind it: they have none of that name, or
the one that comes with a known class. -/
def Inherits (W : World) (v : Value) (name : String) : Prop :=
  Layer.find? (W.layers v.classOf) name = none ∨
    Layer.find? (W.layers v.classOf) name = some .builtin

/-- **An instance that wraps a text is quoted as that text, where neither its classes nor the
instance define a replacement of characters, nor its classes any elements.** -/
theorem quotesAs_of_inherited {c : ClassRef} {base : Option Value}
    (hv : (∃ as, v = .record c base as) ∨ ∃ a, v = .stored a c base)
    (hs : v.text? = some s) (hbelow : W.hierarchy.below c (.known .str) = true)
    (hmodel : W.isModel c = false) (hreplace : W.Inherits v "replace")
    (hown : (W.ownAttrs v).lookup "replace" = none) (hiter : W.Inherits v "__iter__") (n : Nat) :
    (W.behaviourWithin (n + 1)).QuotesAs v s := by
  have hplain : v.plain = .text s := by
    unfold Value.text? at hs
    split at hs
    · next t ht => rw [ht, Option.some.inj hs]
    · cases hs
  have hparts : W.replacesParts v = true := by
    obtain ⟨as, rfl⟩ | ⟨a, rfl⟩ := hv <;>
      simp [replacesParts, Value.classOf, Hierarchy.belowAny, hbelow]
  refine ⟨hs, fun _ ch r => ?_, fun _ => ?_⟩
  · have hread : W.read (W.behaviourWithin n) v "replace" = .ok (.routine "replace") := by
      have hdata : W.dataAttribute v "replace" = .ok (.routine "replace") := by
        obtain ⟨as, rfl⟩ | ⟨a, rfl⟩ := hv <;> simp [dataAttribute, replacement, hparts]
      unfold read
      rcases hreplace with h | h <;> simp [h, hown, hdata]
    show W.replace (W.behaviourWithin n) v ch r = _
    unfold replace
    rw [hread, ok_bind, Value.replaceEach, hplain]
    rcases hreplace with h | h <;> rw [h] <;> rfl
  · have helements : v.elements = .ok (s.toList.map fun c => .text c.toString) := by
      obtain ⟨as, rfl⟩ | ⟨a, rfl⟩ := hv <;> rw [Value.elements, hplain] <;> first | rfl | simp
    have hmethod : W.runMethod? (W.behaviourWithin n) v "__iter__" = none := by
      unfold runMethod?
      rcases hiter with h | h <;> rw [h]
    show W.elements (W.behaviourWithin n) v = _
    unfold elements
    rw [hmethod]
    obtain ⟨as, rfl⟩ | ⟨a, rfl⟩ := hv <;>
      simp [hmodel, helements, Fault.lift]

end World

end RecordText
