/-
What values can answer with.

Settings and plans are checked as records, and a record that does not fit its declaration is a
complaint of its own (`Failure.invalid`).  A value that is asked for anything runs getters, methods
and substitutes and writes other values, at any depth, but makes neither settings nor plans:

* `Uncomplaining` — a computation that does not end in a complaint about a record;
* `Behaviour.Uncomplaining` — no question is answered by one;
* `World.uncomplaining_behaviour` — **no question to a value is answered by a complaint about a
  record**, by induction on the depth.
-/
import RecordText.World.Behave
import RecordText.Proofs.Faults

namespace RecordText

/-- A computation does not end in a complaint about a record. -/
abbrev Uncomplaining {α : Type} (r : Except Failure α) : Prop :=
  FailsWith (fun f => ∀ issues, f ≠ .invalid issues) r

theorem uncomplaining_lift {α : Type} (r : Except Fault α) : Uncomplaining (Fault.lift r) := by
  cases r <;> simp [Fault.lift]

/-! ### Written values -/

namespace Value

variable {own ownPrinted : Value → Except Failure String}

mutual

theorem uncomplaining_printedWith (h : ∀ v, Uncomplaining (own v)) (v : Value) :
    Uncomplaining (v.printedWith own) := by
  cases v with
  | list xs => exact (uncomplaining_printedAll h xs).bind fun _ => .pure _
  | tuple xs =>
    refine (uncomplaining_printedAll h xs).bind fun ps => ?_
    split <;> exact .pure _
  | dict es => exact (uncomplaining_printedEntries h es).bind fun _ => .pure _
  | record c b as => exact h _
  | stored a c b => exact h _
  | _ => exact .pure _
termination_by structural v

theorem uncomplaining_printedAll (h : ∀ v, Uncomplaining (own v)) (vs : List Value) :
    Uncomplaining (printedAll own vs) := by
  cases vs with
  | nil => exact .pure _
  | cons v vs =>
    exact (uncomplaining_printedWith h v).bind fun _ =>
      (uncomplaining_printedAll h vs).bind fun _ => .pure _
termination_by structural vs

theorem uncomplaining_printedEntries (h : ∀ v, Uncomplaining (own v))
    (es : List (Value × Value)) : Uncomplaining (printedEntries own es) := by
  cases es with
  | nil => exact .pure _
  | cons e es =>
    cases e with
    | mk k v =>
      exact (uncomplaining_printedWith h k).bind fun _ =>
        (uncomplaining_printedWith h v).bind fun _ =>
          (uncomplaining_printedEntries h es).bind fun _ => .pure _
termination_by structural es

end

theorem uncomplaining_textWith (h : ∀ v, Uncomplaining (own v))
    (h' : ∀ v, Uncomplaining (ownPrinted v)) (v : Value) :
    Uncomplaining (v.textWith own ownPrinted) := by
  unfold textWith
  split
  · exact .pure _
  · exact .pure _
  · exact .pure _
  · exact h _
  · exact h _
  · exact uncomplaining_printedWith h' _

end Value

/-! ### Bodies and functions -/

/-- No question is answered by a complaint about a record. -/
structure Behaviour.Uncomplaining (B : Behaviour) : Prop where
  make : ∀ e, RecordText.Uncomplaining (B.make e)
  read : ∀ v name, RecordText.Uncomplaining (B.read v name)
  text : ∀ v, RecordText.Uncomplaining (B.text v)
  printed : ∀ v, RecordText.Uncomplaining (B.printed v)
  truth : ∀ v, RecordText.Uncomplaining (B.truth v)
  length : ∀ v, RecordText.Uncomplaining (B.length v)
  elements : ∀ v, RecordText.Uncomplaining (B.elements v)
  replace : ∀ v c r, RecordText.Uncomplaining (B.replace v c r)
  construct : ∀ t v, RecordText.Uncomplaining (B.construct t v)

variable {B : Behaviour}

namespace Body

mutual

theorem uncomplaining_eval (hB : B.Uncomplaining) (arg : Value) (b : Body) :
    Uncomplaining (b.eval B arg) := by
  cases b with
  | argument => exact .pure _
  | value e => exact hB.make e
  | «attribute» b name => exact (uncomplaining_eval hB arg b).bind fun v => hB.read v name
  | text b =>
    exact (uncomplaining_eval hB arg b).bind fun v => (hB.text v).bind fun _ => .pure _
  | concat bs => exact (uncomplaining_evalTexts hB arg bs).bind fun _ => .pure _
  | upper b => exact (uncomplaining_eval hB arg b).bind fun _ => uncomplaining_lift _
  | length b =>
    exact (uncomplaining_eval hB arg b).bind fun v => (hB.length v).bind fun _ => .pure _
  | add b c =>
    exact (uncomplaining_eval hB arg b).bind fun _ =>
      (uncomplaining_eval hB arg c).bind fun _ => uncomplaining_lift _
  | mul b c =>
    exact (uncomplaining_eval hB arg b).bind fun _ =>
      (uncomplaining_eval hB arg c).bind fun _ => uncomplaining_lift _
  | equal b c =>
    exact (uncomplaining_eval hB arg b).bind fun _ =>
      (uncomplaining_eval hB arg c).bind fun _ => .pure _
  | cond b c d =>
    refine (uncomplaining_eval hB arg b).bind fun v => (hB.truth v).bind fun t => ?_
    split
    · exact uncomplaining_eval hB arg c
    · exact uncomplaining_eval hB arg d
  | join separator b =>
    exact (uncomplaining_eval hB arg b).bind fun v => (hB.elements v).bind fun _ =>
      (uncomplaining_lift _).bind fun _ => .pure _
  -- what a user's own function raises is a failure of its own
  | raise kind message => simp [eval]
termination_by structural b

theorem uncomplaining_evalTexts (hB : B.Uncomplaining) (arg : Value) (bs : List Body) :
    Uncomplaining (evalTexts B arg bs) := by
  cases bs with
  | nil => exact .pure _
  | cons b bs =>
    exact (uncomplaining_eval hB arg b).bind fun v => (hB.text v).bind fun _ =>
      (uncomplaining_evalTexts hB arg bs).bind fun _ => .pure _
termination_by structural bs

end

end Body

theorem Behaviour.uncomplaining_readPath (hB : B.Uncomplaining) (v : Value) (path : String) :
    RecordText.Uncomplaining (B.readPath v path) :=
  FailsWith.foldlM hB.read v _

namespace Function

theorem uncomplaining_applyBuiltin (hB : B.Uncomplaining) (v : Value) (b : Builtin) :
    Uncomplaining (applyBuiltin B v b) := by
  cases b with
  | text => exact (hB.text v).bind fun _ => .pure _
  | length => exact (hB.length v).bind fun _ => .pure _
  | printed => exact (hB.printed v).bind fun _ => .pure _
  | int => exact (uncomplaining_lift _).bind fun _ => .pure _
  | abs => exact uncomplaining_lift _
  | upper => exact uncomplaining_lift _
  | title => exact uncomplaining_lift _

theorem uncomplaining_apply (hB : B.Uncomplaining) (f : Function) (v : Value) :
    Uncomplaining (f.apply B v) := by
  cases f with
  | defined s b =>
    rw [apply]
    split_ifs
    · exact b.uncomplaining_eval hB v
    · simp
  | builtin b => exact uncomplaining_applyBuiltin hB v b
  | value w =>
    unfold apply
    split
    · contradiction
    · contradiction
    · unfold applyType
      split
      · exact .pure _
      · exact hB.construct _ v
    · simp

end Function

/-! ### Renderers -/

theorem Part.uncomplaining_read (hB : B.Uncomplaining) (p : Part) (x : Value) :
    Uncomplaining (p.readWith B (Demand.answer B x)) := by
  cases p with
  | base m => exact B.uncomplaining_readPath hB x m.name
  | substituted m f t =>
    refine (B.uncomplaining_readPath hB x m.name).bind fun v => ?_
    refine (f.uncomplaining_apply hB v).bind fun w => FailsWith.bind ?_ fun _ => .pure _
    show Uncomplaining (substituteText B w)
    unfold substituteText
    split
    · exact .pure _
    · split
      · exact .pure _
      · exact hB.text _

theorem Writer.uncomplaining_write (hB : B.Uncomplaining) (w : Writer) (v : Value) :
    Uncomplaining (w.write B v) := by
  have hchar : Uncomplaining (Fragment.ofChar B v) := by
    unfold Fragment.ofChar
    split
    · exact .pure _
    · exact (hB.elements v).bind fun _ => uncomplaining_lift _
  have hescaped : ∀ c w, Uncomplaining (Fragment.escaped B c w) := by
    intro c w
    unfold Fragment.escaped
    split
    · exact .pure _
    · exact hB.replace w c _
  have hspelled : ∀ w, Uncomplaining (Fragment.spelled B w) := by
    intro w
    unfold Fragment.spelled
    split
    · exact .pure _
    · exact hB.text w
  have hstring : Uncomplaining (Fragment.ofString B v) :=
    (hescaped _ v).bind fun w => (hescaped _ w).bind fun u => (hspelled u).bind fun _ => .pure _
  unfold write
  split
  · exact .pure _
  · split
    · exact (hB.text v).bind fun _ => .pure _
    · exact .pure _
    -- absent values leave an empty fragment, whatever their strategy
    · split
      · exact .pure _
      · exact hchar.bind fun _ => .pure _
    · split
      · exact .pure _
      · exact hstring.bind fun _ => .pure _
    · split
      · exact .pure _
      · exact (hB.text v).bind fun _ => .pure _
    · simp

namespace Renderer

theorem uncomplaining_partsWith (hB : B.Uncomplaining) (x : Value) (ss : List Step) :
    Uncomplaining (partsWith B (Demand.answer B x) ss) := by
  induction ss with
  | nil => exact .pure _
  | cons s ss ih =>
    have hs : Uncomplaining (s.fragmentWith B (Demand.answer B x)) :=
      (s.part.uncomplaining_read hB x).bind fun v => s.writer.uncomplaining_write hB v
    exact hs.bind fun _ => ih.bind fun _ => .pure _

theorem uncomplaining_render (hB : B.Uncomplaining) (r : Renderer) (x : Value) :
    Uncomplaining (r.render B x) := by
  cases r with
  | constant t => exact .pure _
  | steps ss closing =>
    exact (uncomplaining_partsWith hB x ss).bind fun _ => uncomplaining_lift _

end Renderer

/-! ### Worlds -/

namespace World

variable (W : World)

theorem uncomplaining_lookup (name : String) : Uncomplaining (W.lookup name) := by
  unfold lookup
  split <;> simp

mutual

theorem uncomplaining_typeOf (t : TypeExpr) : Uncomplaining (W.typeOf t) := by
  cases t with
  | name s => exact W.uncomplaining_lookup s
  | subscript head ts =>
    exact (W.uncomplaining_lookup head).bind fun _ => (uncomplaining_typesOf ts).bind fun _ =>
      uncomplaining_lift _
  | optional t => exact (uncomplaining_typeOf t).bind fun _ => uncomplaining_lift _
  | union ts => exact (uncomplaining_typesOf ts).bind fun _ => uncomplaining_lift _
  | bars ts => exact (uncomplaining_typesOf ts).bind fun _ => uncomplaining_lift _
  | annotated t rs => exact (uncomplaining_typeOf t).bind fun _ => uncomplaining_lift _
  | literal vs => exact .pure _
  | classVar t => exact (uncomplaining_typeOf t).bind fun _ => uncomplaining_lift _
  | initVar t => exact (uncomplaining_typeOf t).bind fun _ => .pure _
  | text s => exact .pure _
termination_by structural t

theorem uncomplaining_typesOf (ts : List TypeExpr) : Uncomplaining (W.typesOf ts) := by
  cases ts with
  | nil => exact .pure _
  | cons t ts =>
    exact (uncomplaining_typeOf t).bind fun _ => (uncomplaining_typesOf ts).bind fun _ => .pure _
termination_by structural ts

end

mutual

theorem uncomplaining_valueOf (e : ValueExpr) : Uncomplaining (W.valueOf e) := by
  cases e with
  | plain v => exact .pure _
  | list vs => exact (uncomplaining_valuesOf vs).bind fun _ => .pure _
  | tuple vs => exact (uncomplaining_valuesOf vs).bind fun _ => .pure _
  | dict es => exact (uncomplaining_entriesOf es).bind fun _ => .pure _
  | reference id =>
    rw [valueOf]
    split <;> simp
  | type t => exact (W.uncomplaining_typeOf t).bind fun _ => .pure _
  | «instance» t as b =>
    rw [valueOf]
    refine (W.uncomplaining_typeOf t).bind fun u => ?_
    split
    · simp
    · cases b with
      | none => exact (uncomplaining_attrsOf as).bind fun _ => .pure _
      | some e =>
        exact (uncomplaining_valueOf e).bind fun _ =>
          (uncomplaining_attrsOf as).bind fun _ => .pure _
  | unreadable tag => simp [valueOf]
termination_by structural e

theorem uncomplaining_valuesOf (es : List ValueExpr) : Uncomplaining (W.valuesOf es) := by
  cases es with
  | nil => exact .pure _
  | cons e es =>
    exact (uncomplaining_valueOf e).bind fun _ => (uncomplaining_valuesOf es).bind fun _ => .pure _
termination_by structural es

theorem uncomplaining_entriesOf (es : List (ValueExpr × ValueExpr)) :
    Uncomplaining (W.entriesOf es) := by
  cases es with
  | nil => exact .pure _
  | cons e es =>
    cases e with
    | mk k v =>
      refine (uncomplaining_valueOf k).bind fun k => (uncomplaining_valueOf v).bind fun v => ?_
      split
      · simp
      · exact (uncomplaining_entriesOf es).bind fun _ => .pure _
termination_by structural es

theorem uncomplaining_attrsOf (as : List (String × ValueExpr)) : Uncomplaining (W.attrsOf as) := by
  cases as with
  | nil => exact .pure _
  | cons a as =>
    cases a with
    | mk n e =>
      exact (uncomplaining_valueOf e).bind fun _ =>
        (uncomplaining_attrsOf as).bind fun _ => .pure _
termination_by structural as

end

theorem uncomplaining_runGetter (hB : B.Uncomplaining) (v : Value) (g : Getter) :
    Uncomplaining (runGetter B v g) := by
  unfold runGetter
  split
  · exact Body.uncomplaining_eval hB v _
  · exact B.uncomplaining_readPath hB v _

theorem uncomplaining_replacement (v : Value) (name : String) :
    Uncomplaining (W.replacement v name) := by
  unfold replacement
  split_ifs <;> simp

theorem uncomplaining_dataAttribute (v : Value) (name : String) :
    Uncomplaining (W.dataAttribute v name) := by
  unfold dataAttribute
  split
  · exact .pure _
  · exact .pure _
  · exact .pure _
  · split <;> simp
  · split
    · exact .pure _
    · exact .pure _
    · exact W.uncomplaining_replacement _ _
  · exact W.uncomplaining_replacement _ _

theorem uncomplaining_plainAttribute (v : Value) (name : String) :
    Uncomplaining (W.plainAttribute v name) := by
  unfold plainAttribute
  split <;> simp

theorem uncomplaining_read (hB : B.Uncomplaining) (v : Value) (name : String) :
    Uncomplaining (W.read B v name) := by
  unfold read
  split
  · exact uncomplaining_runGetter hB v _
  · simp
  -- an attribute that comes with a known class is a matter of data, as one that there is not
  iterate 2
    split_ifs
    · exact W.uncomplaining_plainAttribute v name
    · exact W.uncomplaining_dataAttribute v name
  iterate 2
    exact W.uncomplaining_plainAttribute v name

theorem uncomplaining_textResult (v : Value) : Uncomplaining (textResult v) := by
  unfold textResult
  split <;> simp

theorem uncomplaining_writtenAs (hB : B.Uncomplaining) (f : Form) (v : Value) (c : ClassRef) :
    Uncomplaining (W.writtenAs B f v c) := by
  unfold writtenAs
  split
  · exact (Body.uncomplaining_eval hB v _).bind uncomplaining_textResult
  · exact Renderer.uncomplaining_render hB _ v
  · next w _ _ =>
    cases f with
    | text => exact hB.text w
    | printed => exact hB.printed w
  · exact .pure _

theorem uncomplaining_instancePrinted (hB : B.Uncomplaining) (v : Value) :
    Uncomplaining (W.instancePrinted B v) := by
  unfold instancePrinted
  split
  · exact W.uncomplaining_writtenAs hB _ v _
  · exact .pure _

theorem uncomplaining_instanceText (hB : B.Uncomplaining) (v : Value) :
    Uncomplaining (W.instanceText B v) := by
  unfold instanceText
  split
  · exact W.uncomplaining_writtenAs hB _ v _
  · exact W.uncomplaining_instancePrinted hB v

theorem uncomplaining_runMethod (hB : B.Uncomplaining) {v : Value} {name : String}
    {r : Except Failure Value} (h : W.runMethod? B v name = some r) : Uncomplaining r := by
  unfold runMethod? at h
  split at h
  · obtain rfl := Option.some.inj h
    exact Body.uncomplaining_eval hB v _
  · obtain rfl := Option.some.inj h
    simp
  · obtain rfl := Option.some.inj h
    simp
  · cases h
  · cases h

theorem uncomplaining_length (hB : B.Uncomplaining) (v : Value) :
    Uncomplaining (W.length B v) := by
  unfold length
  split
  · next r hr =>
    refine (W.uncomplaining_runMethod hB hr).bind fun w => ?_
    split
    · split_ifs <;> simp
    · simp
  · unfold dataLength
    split
    all_goals first | exact (uncomplaining_lift _).bind fun _ => .pure _ | simp

theorem uncomplaining_truth (hB : B.Uncomplaining) (v : Value) : Uncomplaining (W.truth B v) := by
  unfold truth
  split
  · next r _ hr =>
    refine (W.uncomplaining_runMethod hB hr).bind fun w => ?_
    split <;> simp
  · exact (W.uncomplaining_length hB v).bind fun _ => .pure _
  · exact uncomplaining_lift _

theorem uncomplaining_elements (hB : B.Uncomplaining) (v : Value) :
    Uncomplaining (W.elements B v) := by
  unfold elements
  split
  · next r hr => exact (W.uncomplaining_runMethod hB hr).bind fun _ => by simp
  · split
    · split_ifs
      · exact .pure _
      · exact uncomplaining_lift _
    · split_ifs
      · exact .pure _
      · exact uncomplaining_lift _
    · exact uncomplaining_lift _

theorem uncomplaining_replace (hB : B.Uncomplaining) (v : Value) (c : Char) (r : List Char) :
    Uncomplaining (W.replace B v c r) := by
  refine (W.uncomplaining_read hB v _).bind fun w => ?_
  split
  · simp
  · exact Body.uncomplaining_eval hB v _
  · exact uncomplaining_lift _
  · simp

theorem uncomplaining_makeMember (v : Value) (k : KnownClass) :
    Uncomplaining (makeMember v k) := by
  refine (uncomplaining_lift _).bind fun m => ?_
  split <;> simp

theorem uncomplaining_makeKnown (hB : B.Uncomplaining) (v : Value) (k : KnownClass) :
    Uncomplaining (makeKnown B v k) := by
  unfold makeKnown
  split
  · exact (uncomplaining_lift _).bind fun _ => .pure _
  · exact (uncomplaining_lift _).bind fun _ => .pure _
  · exact (hB.truth v).bind fun _ => .pure _
  · exact (hB.text v).bind fun _ => .pure _
  · exact (hB.elements v).bind fun _ => .pure _
  · exact (hB.elements v).bind fun _ => .pure _
  · exact .pure _
  -- the enumerations, and the classes that make nothing of a value
  case h_21 => split_ifs <;> simp
  all_goals first
    | simp
    | exact uncomplaining_makeMember v _

theorem uncomplaining_makeBase (hB : B.Uncomplaining) (v : Value) (line : List ClassRef) :
    Uncomplaining (makeBase B v line) := by
  unfold makeBase
  split
  · exact (uncomplaining_makeKnown hB v _).map _
  · exact .pure _

theorem uncomplaining_makeInstance (c : ClassRef) (v : Value) (base : Option Value)
    (s : Option (Signature Ty)) : Uncomplaining (makeInstance c v base s) := by
  unfold makeInstance
  split
  · split
    · simp
    · split_ifs <;> simp
  · split_ifs <;> simp

theorem uncomplaining_makeDefined (hB : B.Uncomplaining) (v : Value) (c : ClassRef) :
    Uncomplaining (W.makeDefined B v c) := by
  unfold makeDefined
  split_ifs
  · simp
  · exact (uncomplaining_makeBase hB v _).bind fun base => uncomplaining_makeInstance c v base _

theorem uncomplaining_construct (hB : B.Uncomplaining) (t : Ty) (v : Value) :
    Uncomplaining (W.construct B t v) := by
  unfold construct
  split
  · exact .pure _
  · exact uncomplaining_makeKnown hB v _
  · exact uncomplaining_makeKnown hB v _
  · exact W.uncomplaining_makeDefined hB v _
  · exact W.uncomplaining_makeDefined hB v _
  · simp

theorem uncomplaining_tooDeep : tooDeep.Uncomplaining := by
  constructor <;> intros <;> simp [tooDeep]

/-- What calls may ask for does not complain, so neither do the calls that are one level above. -/
theorem uncomplaining_behaviourWithin (n : Nat) : (W.behaviourWithin n).Uncomplaining := by
  induction n with
  | zero => exact uncomplaining_tooDeep
  | succ n ih =>
    exact {
      make := W.uncomplaining_valueOf
      read := W.uncomplaining_read ih
      text := Value.uncomplaining_textWith (W.uncomplaining_instanceText ih)
        (W.uncomplaining_instancePrinted ih)
      printed := Value.uncomplaining_printedWith (W.uncomplaining_instancePrinted ih)
      truth := W.uncomplaining_truth ih
      length := W.uncomplaining_length ih
      elements := W.uncomplaining_elements ih
      replace := W.uncomplaining_replace ih
      construct := W.uncomplaining_construct ih }

/-- **No question to a value is answered by a complaint about a record.** -/
theorem uncomplaining_behaviour : W.behaviour.Uncomplaining := W.uncomplaining_behaviourWithin _

end World

end RecordText
