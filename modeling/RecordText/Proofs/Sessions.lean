/-
What every world of a session keeps.

Classes are only made by definitions, and afterwards only the rules by which their instances are
written can change.  So what a definition sees to holds in every world that a session reaches:

* `Class.Consistent` — a class comes first in its lineage, no attribute and no field stands twice,
  models and nothing else have the fields of models, and a model has no attribute under the name of
  a field;
* `Session.changes_step` — a step of a session changes its world by at most one definition, new
  text rule, kept instance or changed attribute;
* `World.Changes.classes` — every class after a change has been made by it, or is one from before,
  up to the rules by which its instances are written;
* `Session.Reached.forall_classes` — **so what holds of every class when it is made holds of all
  classes of a session**, and all of them are consistent (`Session.Reached.consistent`).
-/
import RecordText.Session
import RecordText.Proofs.Hints
import RecordText.Proofs.Lineages

namespace RecordText

/-- What every defined class keeps. -/
structure Class.Consistent (c : Class) : Prop where
  /-- The class comes first in its own lineage. -/
  lineage : c.lineage.head? = some c.ref
  /-- No attribute stands twice. -/
  attributes : c.layer.Distinct
  /-- No field of a data class stands twice. -/
  dataFields : ∀ fs, c.dataFields = some fs → (fs.map Prod.fst).Nodup
  /-- Models and nothing else have the fields of models. -/
  isModel : c.modelFields.isSome = c.lineage.contains (.known .model)
  /-- No field of a model stands twice. -/
  modelFields : ∀ fs, c.modelFields = some fs → (fs.map ModelField.name).Nodup
  /-- A model has no attribute of its own under the name of a field. -/
  released : ∀ fs, c.modelFields = some fs →
    ∀ f ∈ fs, c.layer.attributes.lookup f.name = none

/-- All classes of a world are consistent. -/
def World.Consistent (W : World) : Prop := ∀ c ∈ W.classes, c.Consistent

namespace World

variable {W W' : World}

/-! ### Items -/

theorem distinct_addItem {d d' : Draft} {i : Item} (h : W.addItem d i = .ok d')
    (hd : (d.attributes.map Prod.fst).Nodup) : (d'.attributes.map Prod.fst).Nodup := by
  cases i with
  | field name t default =>
    obtain ⟨t, -, h⟩ := bind_eq_ok_iff.mp h
    cases default with
    | none =>
      obtain rfl := Except.ok.inj h
      exact hd
    | some e =>
      obtain ⟨v, -, h⟩ := bind_eq_ok_iff.mp h
      obtain rfl := Except.ok.inj h
      exact Table.nodup_put _ _ hd
  | property name p =>
    obtain ⟨t, -, h⟩ := bind_eq_ok_iff.mp h
    obtain ⟨u, -, h⟩ := bind_eq_ok_iff.mp h
    obtain rfl := Except.ok.inj h
    exact Table.nodup_put _ _ hd
  | writeOnly name =>
    obtain rfl := Except.ok.inj h
    exact Table.nodup_put _ _ hd
  | «attribute» name e =>
    obtain ⟨v, -, h⟩ := bind_eq_ok_iff.mp h
    obtain rfl := Except.ok.inj h
    exact Table.nodup_put _ _ hd
  | method name b =>
    obtain rfl := Except.ok.inj h
    exact Table.nodup_put _ _ hd
  | text b =>
    obtain rfl := Except.ok.inj h
    exact hd
  | inherit f =>
    cases f with
    | text | printed =>
      obtain rfl := Except.ok.inj h
      exact hd

theorem distinct_items {d d' : Draft} {items : List Item}
    (h : items.foldlM W.addItem d = .ok d') (hd : (d.attributes.map Prod.fst).Nodup) :
    (d'.attributes.map Prod.fst).Nodup :=
  foldlM_invariant (p := fun e : Draft => (e.attributes.map Prod.fst).Nodup)
    (fun _ _ _ he hd => distinct_addItem he hd) h hd

/-! ### Fields -/

theorem nodup_dataFieldsOf (W : World) (above : List ClassRef) (annotations : List (String × Ty)) :
    ((W.dataFieldsOf above annotations).map Prod.fst).Nodup := by
  refine Table.nodup_foldl_put Prod.fst (fun e => W.isDataField e.2) annotations ?_
  refine Table.nodup_foldl (fun fs c hfs => ?_) above.reverse List.nodup_nil
  exact Table.nodup_foldl_put Prod.fst Prod.snd _ hfs

theorem name_modelField (name : String) (t : Ty) (default : Option Value) :
    (modelField name t default).name = name := by
  unfold modelField
  split <;> rfl

theorem name_modelFieldOf (layers : List Layer) (own : List (String × Ty))
    (inherited : List ModelField) (name : String) (t : Ty) :
    (modelFieldOf layers own inherited name t).name = name := by
  unfold modelFieldOf
  split
  · exact name_modelField _ _ _
  · split
    -- a field that is taken over was found by its name
    · next f hf => simpa using List.find?_some hf
    · exact name_modelField _ _ _

theorem names_completed (S : Scope) (fields : List ModelField) :
    (completed S fields).map ModelField.name = fields.map ModelField.name := by
  have hname : ∀ f g, completed.resolved S f = .ok g → g.name = f.name := by
    intro f g h
    obtain ⟨t, -, h⟩ := bind_eq_ok_iff.mp h
    split at h
    · obtain rfl := Except.ok.inj h
      rfl
    · obtain rfl := Except.ok.inj h
      rfl
  unfold completed
  split
  · next fs hfs =>
    replace hfs := mapM_eq_ok_iff.mp hfs
    induction hfs with
    | nil => rfl
    | cons h _ ih => rw [List.map_cons, List.map_cons, ih, hname _ _ h]
  · rfl

theorem nodup_modelFieldsOf {S : Scope} {layers : List Layer} {inherited fs : List ModelField}
    (h : modelFieldsOf S layers inherited = .ok fs) : (fs.map ModelField.name).Nodup := by
  obtain ⟨hints, hh, h⟩ := bind_eq_ok_iff.mp h
  obtain rfl := Except.ok.inj h
  have hn : (hints.map Prod.fst).Nodup :=
    foldlM_invariant (p := fun hs => (hs.map Prod.fst).Nodup)
      (fun _ _ _ hl hs => Scope.nodup_gather hl hs) hh List.nodup_nil
  rw [names_completed, List.map_map]
  have hname : ModelField.name ∘ (fun e : String × Ty =>
      modelFieldOf layers ((layers.head?.map Layer.annotations).getD []) inherited e.1 e.2) =
        Prod.fst := funext fun e => name_modelFieldOf _ _ _ _ _
  rw [hname]
  exact hn.sublist (List.filter_sublist.map _)

/-! ### Definitions -/

theorem consistent_finishModel {bases : List ClassRef} {d : Draft} {c c' : Class}
    (h : W.finishModel bases d c = .ok c') (hd : (d.attributes.map Prod.fst).Nodup)
    (hline : c.lineage.head? = some c.ref) (hc : c.lineage.contains (.known .model) = true)
    (hdata : c.dataFields = none) :
    c'.Consistent := by
  unfold finishModel at h
  split_ifs at h
  · cases h
  obtain ⟨fields, hf, h⟩ := bind_eq_ok_iff.mp h
  obtain rfl := Except.ok.inj h
  refine ⟨hline, hd.sublist (List.filter_sublist.map _), fun fs hfs => ?_, hc.symm,
    fun fs hfs => ?_, fun fs hfs f hmem => ?_⟩
  · rw [hdata] at hfs
    cases hfs
  · obtain rfl := Option.some.inj hfs
    exact nodup_modelFieldsOf hf
  · obtain rfl := Option.some.inj hfs
    -- the attributes that are kept have other names
    refine Table.lookup_eq_none_iff.mpr fun hm => ?_
    obtain ⟨e, he, hname⟩ := List.mem_map.mp hm
    have hkept := (List.mem_filter.mp he).2
    rw [Bool.not_eq_true', List.any_eq_false] at hkept
    exact hkept f hmem (by simp [hname])

theorem consistent_finishData {style : DataStyle} {d : Draft} {c c' : Class}
    (h : W.finishData style d c = .ok c') (hl : c.layer.Distinct)
    (hline : c.lineage.head? = some c.ref) (hc : c.lineage.contains (.known .model) = false)
    (hmodel : c.modelFields = none) :
    c'.Consistent := by
  obtain ⟨-, -, h⟩ := bind_eq_ok_iff.mp h
  dsimp only at h
  split_ifs at h
  · cases h
  obtain rfl := Except.ok.inj h
  refine ⟨hline, hl, fun fs hfs => ?_, by rw [hmodel, hc]; rfl, fun fs hfs => ?_,
    fun fs hfs => ?_⟩
  · obtain rfl := Option.some.inj hfs
    exact nodup_dataFieldsOf _ _ _
  · cases hmodel.symm.trans hfs
  · cases hmodel.symm.trans hfs

/-- The class that a draft makes, before it is made a data class or a model. -/
def classOf (ident : Ident) (line : List ClassRef) (parameters : Option (List Ty)) (d : Draft) :
    Class :=
  ⟨ident, line, ⟨d.attributes, d.annotations⟩, none, none, parameters, d.text, d.printed, none, []⟩

/-- What a new class can be. -/
theorem makeClass_eq_ok {ident : Ident} {style : Style} {bases : List Ty} {d : Draft} {c : Class}
    (h : W.makeClass ident style bases d = .ok c) :
    ∃ (classes line : List ClassRef) (parameters : Option (List Ty)),
      line.head? = some (.defined ident) ∧
        W.finish style classes d (classOf ident line parameters d) = .ok c := by
  obtain ⟨classes, -, h⟩ := bind_eq_ok_iff.mp h
  by_cases hd : (!isDistinct classes || !classes.all isOpen) = true
  · rw [if_pos hd] at h
    cases h
  rw [if_neg hd] at h
  cases hline : Lineage.ofBases (.defined ident) classes W.lineage with
  | none => simp [hline] at h
  | some line =>
    obtain ⟨merged, -, hcons⟩ := Option.map_eq_some_iff.mp hline
    have hhead : line.head? = some (.defined ident) := by rw [← hcons]; rfl
    simp only [hline] at h
    by_cases hfit : (!W.layoutsFit classes || !kindsFit line) = true
    · rw [if_pos hfit] at h
      cases h
    rw [if_neg hfit] at h
    by_cases hg : line.contains (.known .generic) = true
    · rw [if_pos hg] at h
      simp only [bind_eq_ok_iff] at h
      obtain ⟨ps, -, parameters, -, h⟩ := h
      exact ⟨classes, line, parameters, hhead, h⟩
    · rw [if_neg hg] at h
      exact ⟨classes, line, none, hhead, h⟩

/-- A class is finished as a model, as a data class, or not at all. -/
theorem finish_cases {style : Style} {classes : List ClassRef} {d : Draft} {c c' : Class}
    (h : W.finish style classes d c = .ok c') :
    c.lineage.contains (.known .model) = true ∧ W.finishModel classes d c = .ok c' ∨
      c.lineage.contains (.known .model) = false ∧
        ((∃ s, W.finishData s d c = .ok c') ∨ c' = c) := by
  unfold finish at h
  cases hm : c.lineage.contains (.known .model) with
  | true =>
    rw [if_pos hm] at h
    exact .inl ⟨rfl, h⟩
  | false =>
    rw [hm, if_neg Bool.false_ne_true] at h
    refine .inr ⟨rfl, ?_⟩
    cases style with
    | data s => exact .inl ⟨s, h⟩
    | plain | model => exact .inr (Except.ok.inj h).symm

theorem consistent_makeClass {ident : Ident} {style : Style} {bases : List Ty} {d : Draft}
    {c : Class} (h : W.makeClass ident style bases d = .ok c)
    (hd : (d.attributes.map Prod.fst).Nodup) : c.Consistent := by
  obtain ⟨classes, line, parameters, hline, h⟩ := makeClass_eq_ok h
  obtain ⟨hm, h⟩ | ⟨hm, ⟨s, h⟩ | rfl⟩ := finish_cases h
  · exact consistent_finishModel h hd hline hm rfl
  · exact consistent_finishData h hd hline hm rfl
  · exact ⟨hline, hd, fun _ hfs => absurd hfs (by simp [classOf]), hm.symm,
      fun _ hfs => absurd hfs (by simp [classOf]), fun _ hfs => absurd hfs (by simp [classOf])⟩

end World

/-- A class that has been made from items. -/
def Class.Made (c : Class) : Prop :=
  ∃ (W V : World) (ident : Ident) (style : Style) (bases : List Ty) (items : List Item)
    (d : World.Draft), items.foldlM W.addItem ⟨[], [], .titled, .titled, false⟩ = .ok d ∧
      V.makeClass ident style bases d = .ok c

theorem Class.Made.consistent {c : Class} (h : c.Made) : c.Consistent := by
  obtain ⟨W, V, ident, style, bases, items, d, hd, hc⟩ := h
  exact World.consistent_makeClass hc (World.distinct_items hd List.nodup_nil)

/-- Another way to write instances changes nothing else about a class. -/
theorem Class.Consistent.withRules {c : Class} (h : c.Consistent) (text printed : TextRule) :
    { c with text := text, printed := printed }.Consistent :=
  ⟨h.lineage, h.attributes, h.dataFields, h.isModel, h.modelFields, h.released⟩

namespace World

variable {W W' : World}

/-- Whatever is said about a type variable, it is bound to its name, and nothing else happens. -/
theorem define_typeVar {name : String} {bound : Option TypeExpr} {constraints : List TypeExpr}
    (h : W.define (.typeVar name bound constraints) = .ok W') :
    ∃ b cs, W' = W.freshId.2.bind name (.typeVar ⟨W.fresh, name⟩ b cs) := by
  obtain ⟨bound, -, h⟩ := bind_eq_ok_iff.mp h
  obtain ⟨constraints, -, h⟩ := bind_eq_ok_iff.mp h
  dsimp only at h
  have hrest : ∀ {p : Prop} [Decidable p] {cs : Except Failure (List Ty)} {t : List Ty → Ty},
      (if p then do
        let _ : Unit ← throw (Failure.fault .wrongType)
        let cs ← cs
        pure (W.freshId.2.bind name (t cs))
      else do
        let cs ← cs
        pure (W.freshId.2.bind name (t cs))) = .ok W' →
          ∃ cs, W' = W.freshId.2.bind name (t cs) := by
    intro p _ cs t h
    split_ifs at h
    · cases h
    · obtain ⟨cs, -, h⟩ := bind_eq_ok_iff.mp h
      exact ⟨cs, (Except.ok.inj h).symm⟩
  -- the bound is absent or a type, and the rest is the same
  split at h
  · exact ⟨_, hrest h⟩
  · exact ⟨_, hrest h⟩
  · obtain ⟨b, -, h⟩ := bind_eq_ok_iff.mp h
    exact ⟨_, hrest h⟩

/-- A definition adds one class at most. -/
theorem classes_define {d : Definition} (h : W.define d = .ok W') :
    W'.classes = W.classes ∨ ∃ c : Class, c.Made ∧ W'.classes = c :: W.classes := by
  cases d with
  | newType name t =>
    obtain ⟨t, -, h⟩ := bind_eq_ok_iff.mp h
    obtain rfl := Except.ok.inj h
    exact .inl rfl
  | typeVar name bound constraints =>
    obtain ⟨b, cs, rfl⟩ := define_typeVar h
    exact .inl rfl
  | «alias» name t =>
    obtain ⟨t, -, h⟩ := bind_eq_ok_iff.mp h
    obtain rfl := Except.ok.inj h
    exact .inl rfl
  | cls name style bases items =>
    obtain ⟨bases, -, h⟩ := bind_eq_ok_iff.mp h
    obtain ⟨d, hd, h⟩ := bind_eq_ok_iff.mp h
    obtain ⟨c, hc, h⟩ := bind_eq_ok_iff.mp h
    obtain rfl := Except.ok.inj h
    exact .inr ⟨c, ⟨W, _, _, _, _, items, d, hd, lift_eq_ok_iff.mp hc⟩, rfl⟩

/-! ### Other changes -/

theorem classes_keep (W : World) (id : String) (v : Value) : (W.keep id v).classes = W.classes := by
  cases v <;> rfl

/-- A changed attribute is a matter of the store. -/
theorem exists_store_of_assign {v w : Value} {attr : String} (h : W.assign v attr w = .ok W') :
    ∃ st, W' = { W with store := st } := by
  cases v with
  | stored n c base =>
    obtain ⟨b, -, h⟩ := bind_eq_ok_iff.mp h
    split_ifs at h
    · exact ⟨_, (Except.ok.inj h).symm⟩
    · exact ⟨W.store, (Except.ok.inj h).symm⟩
  | _ => cases h

theorem exists_store_of_delete {v : Value} {attr : String} (h : W.delete v attr = .ok W') :
    ∃ st, W' = { W with store := st } := by
  cases v with
  | stored n c base =>
    simp only [delete] at h
    split_ifs at h
    exact ⟨_, (Except.ok.inj h).symm⟩
  | _ => cases h

theorem install_of_decorate {t : TypeExpr} {d : Decoration} {c : ClassRef} {notes : List Note}
    (h : W.decorate t d = .ok (W', c, notes)) :
    ∃ r, W' = W.install c r d.includePrinted := by
  obtain ⟨t, -, h⟩ := bind_eq_ok_iff.mp h
  obtain ⟨ignored, -, h⟩ := bind_eq_ok_iff.mp h
  obtain ⟨substitutes, -, h⟩ := bind_eq_ok_iff.mp h
  obtain ⟨settings, -, h⟩ := bind_eq_ok_iff.mp h
  obtain ⟨b, -, h⟩ := bind_eq_ok_iff.mp h
  obtain ⟨config, -, h⟩ := bind_eq_ok_iff.mp h
  obtain ⟨⟨r, ns⟩, -, h⟩ := bind_eq_ok_iff.mp h
  dsimp only at h
  split_ifs at h
  · cases h
  · cases h
    exact ⟨r, rfl⟩

/-- What an action may do to a world. -/
inductive Changes : World → World → Prop
  | none (W : World) : Changes W W
  | define {W W' : World} {d : Definition} : W.define d = .ok W' → Changes W W'
  | install (W : World) (c : ClassRef) (r : Renderer) (printedToo : Bool) :
      Changes W (W.install c r printedToo)
  | keep (W : World) (id : String) (v : Value) : Changes W (W.keep id v)
  | assign {W W' : World} {v w : Value} {attr : String} :
      W.assign v attr w = .ok W' → Changes W W'
  | delete {W W' : World} {v : Value} {attr : String} : W.delete v attr = .ok W' → Changes W W'

/-- Every class after a change has been made by it, or is one from before whose instances may be
written by other rules. -/
theorem Changes.classes (h : W.Changes W') {c : Class} (hc : c ∈ W'.classes) :
    c.Made ∨ ∃ e ∈ W.classes, ∃ text printed, c = { e with text := text, printed := printed } := by
  have hsame : W'.classes = W.classes →
      ∃ e ∈ W.classes, ∃ text printed, c = { e with text := text, printed := printed } :=
    fun hW => ⟨c, hW ▸ hc, c.text, c.printed, rfl⟩
  cases h with
  | none => exact .inr (hsame rfl)
  | define h =>
    rcases classes_define h with h | ⟨d, hd, h⟩
    · exact .inr (hsame h)
    · rw [h] at hc
      rcases List.mem_cons.mp hc with rfl | hc
      · exact .inl hd
      · exact .inr ⟨c, hc, c.text, c.printed, rfl⟩
  | install d r printedToo =>
    obtain ⟨e, he, rfl⟩ := List.mem_map.mp hc
    refine .inr ⟨e, he, ?_⟩
    split_ifs
    · exact ⟨_, _, rfl⟩
    · exact ⟨_, _, rfl⟩
    · exact ⟨e.text, e.printed, rfl⟩
  | keep id v => exact .inr (hsame (classes_keep W id v))
  | assign h =>
    obtain ⟨st, rfl⟩ := exists_store_of_assign h
    exact .inr (hsame rfl)
  | delete h =>
    obtain ⟨st, rfl⟩ := exists_store_of_delete h
    exact .inr (hsame rfl)

/-! ### Looking up classes -/

namespace Consistent

variable {c : ClassRef}

theorem definition (hW : W.Consistent) {d : Class} (h : W.definition? c = some d) :
    d.Consistent := by
  cases c with
  | known k => cases h
  | defined id => exact hW d (List.mem_of_find?_eq_some h)

/-- What a class brings itself is what comes first in its lineage. -/
theorem layers_eq (hW : W.Consistent) {d : Class} (h : W.definition? c = some d) :
    W.layers c = d.layer :: (W.lineage c).tail.map W.layerOf := by
  cases c with
  | known k => cases h
  | defined id =>
    have hd : W.class? id = some d := h
    have hid : d.ident = id := by simpa using List.find?_some hd
    have hline := (hW.definition h).lineage
    have hl : W.lineage (.defined id) = d.lineage := by rw [lineage, hd]; rfl
    obtain ⟨ds, hds⟩ := List.head?_eq_some_iff.mp hline
    rw [layers, hl, hds, List.map_cons, List.tail_cons, Class.ref, hid, layerOf, hd]
    rfl

theorem distinct (hW : W.Consistent) (c : ClassRef) : ∀ l ∈ W.layers c, l.Distinct := by
  intro l hl
  obtain ⟨d, -, rfl⟩ := List.mem_map.mp hl
  cases d with
  | known k => exact W.library.distinct_brings k
  | defined id =>
    rw [layerOf]
    cases h : W.class? id with
    | none => exact List.nodup_nil
    | some e => exact (hW e (List.mem_of_find?_eq_some h)).attributes

/-- A class is a model when it has the fields of one. -/
theorem isModel_iff (hW : W.Consistent) {d : Class} (h : W.definition? c = some d) :
    W.isModel c = d.modelFields.isSome := by
  rw [(hW.definition h).isModel]
  cases c with
  | known k => cases h
  | defined id =>
    have hd : W.class? id = some d := h
    rw [World.isModel, lineage, hd]
    rfl

theorem modelFields_eq_none (hW : W.Consistent) (h : W.isModel c = false) :
    (W.definition? c).bind Class.modelFields = none := by
  cases hd : W.definition? c with
  | none => rfl
  | some d =>
    rw [hW.isModel_iff hd] at h
    simpa using h

theorem nodup_dataFields (hW : W.Consistent) {fs : List (String × Bool)}
    (h : W.dataFields? c = some fs) : (fs.map Prod.fst).Nodup := by
  obtain ⟨d, -, hd⟩ := List.exists_of_findSome?_eq_some h
  obtain ⟨e, he, hfs⟩ := Option.bind_eq_some_iff.mp hd
  exact (hW.definition he).dataFields fs hfs

end Consistent

end World

/-! ### Sessions -/

namespace Session

variable {s s' : Session} {a : Action} {answer : Answer}

theorem world_configure {id : String} {change : World → Config → Except Failure Config}
    (h : s.configure id change = .ok (s', answer)) : s'.world = s.world := by
  unfold configure at h
  split at h
  · obtain ⟨rfl, -⟩ := Prod.mk.inj (Except.ok.inj h)
    rfl
  · obtain ⟨c, -, h⟩ := bind_eq_ok_iff.mp h
    obtain ⟨rfl, -⟩ := Prod.mk.inj (Except.ok.inj h)
    rfl

theorem changes_configure {id : String} {change : World → Config → Except Failure Config}
    (h : s.configure id change = .ok (s', answer)) : s.world.Changes s'.world := by
  rw [world_configure h]
  exact .none _

theorem changes_act (h : s.act a = .ok (s', answer)) : s.world.Changes s'.world := by
  cases a with simp only [act] at h
  | define d =>
    obtain ⟨W, hW, h⟩ := bind_eq_ok_iff.mp h
    obtain ⟨rfl, -⟩ := Prod.mk.inj (Except.ok.inj h)
    exact .define hW
  | builder id target settings =>
    obtain ⟨v, -, h⟩ := bind_eq_ok_iff.mp h
    obtain ⟨settings, -, h⟩ := bind_eq_ok_iff.mp h
    obtain ⟨b, -, h⟩ := bind_eq_ok_iff.mp h
    obtain ⟨rfl, -⟩ := Prod.mk.inj (Except.ok.inj h)
    exact .none _
  -- builders are configured apart from the world
  | useFields b => exact changes_configure h
  | useProperties b => exact changes_configure h
  | config b => exact changes_configure h
  | ignore b names => exact changes_configure h
  | ignoreAll b names => exact changes_configure h
  | substitute b name f input => exact changes_configure h
  | build b r =>
    split at h
    · obtain ⟨rfl, -⟩ := Prod.mk.inj (Except.ok.inj h)
      exact .none _
    · obtain ⟨y, -, h⟩ := bind_eq_ok_iff.mp h
      obtain ⟨rfl, -⟩ := Prod.mk.inj (Except.ok.inj h)
      exact .none _
  | decorate t d =>
    obtain ⟨⟨W, c, notes⟩, hW, h⟩ := bind_eq_ok_iff.mp h
    obtain ⟨rfl, -⟩ := Prod.mk.inj (Except.ok.inj h)
    obtain ⟨r, rfl⟩ := World.install_of_decorate hW
    exact .install _ c r _
  | new id e =>
    obtain ⟨v, -, h⟩ := bind_eq_ok_iff.mp h
    obtain ⟨rfl, -⟩ := Prod.mk.inj (Except.ok.inj h)
    exact .keep _ id v
  | assign id attr e =>
    obtain ⟨v, -, h⟩ := bind_eq_ok_iff.mp h
    obtain ⟨w, -, h⟩ := bind_eq_ok_iff.mp h
    obtain ⟨W, hW, h⟩ := bind_eq_ok_iff.mp h
    obtain ⟨rfl, -⟩ := Prod.mk.inj (Except.ok.inj h)
    exact .assign (lift_eq_ok_iff.mp hW)
  | delete id attr =>
    obtain ⟨v, -, h⟩ := bind_eq_ok_iff.mp h
    obtain ⟨W, hW, h⟩ := bind_eq_ok_iff.mp h
    obtain ⟨rfl, -⟩ := Prod.mk.inj (Except.ok.inj h)
    exact .delete (lift_eq_ok_iff.mp hW)
  | render r e =>
    split at h
    · obtain ⟨rfl, -⟩ := Prod.mk.inj (Except.ok.inj h)
      exact .none _
    · obtain ⟨v, -, h⟩ := bind_eq_ok_iff.mp h
      obtain ⟨t, -, h⟩ := bind_eq_ok_iff.mp h
      obtain ⟨rfl, -⟩ := Prod.mk.inj (Except.ok.inj h)
      exact .none _
  | text e =>
    obtain ⟨v, -, h⟩ := bind_eq_ok_iff.mp h
    obtain ⟨t, -, h⟩ := bind_eq_ok_iff.mp h
    obtain ⟨rfl, -⟩ := Prod.mk.inj (Except.ok.inj h)
    exact .none _
  | printed e =>
    obtain ⟨v, -, h⟩ := bind_eq_ok_iff.mp h
    obtain ⟨t, -, h⟩ := bind_eq_ok_iff.mp h
    obtain ⟨rfl, -⟩ := Prod.mk.inj (Except.ok.inj h)
    exact .none _

theorem settle_eq_ok {α : Type} {x : Except Failure α} {y : α} (h : settle x = .ok (.ok y)) :
    x = .ok y := by
  unfold settle at h
  split at h
  · cases h
  · exact Except.ok.inj h

/-- A step changes the world by at most one action. -/
theorem changes_step (h : s.step a = .ok (s', answer)) : s.world.Changes s'.world := by
  unfold step at h
  split at h
  · next hr =>
    obtain rfl := Except.ok.inj h
    exact changes_act (settle_eq_ok hr)
  -- an action that fails changes nothing
  · obtain ⟨rfl, -⟩ := Prod.mk.inj (Except.ok.inj h)
    exact .none _
  · cases h

/-- The sessions that are reached by actions, starting with nothing defined, with any language and
any library. -/
inductive Reached : Session → Prop
  | start (language : Language) (library : Library) : Reached (start (.blank language library))
  | step {s s' : Session} {a : Action} {answer : Answer} :
      Reached s → s.step a = .ok (s', answer) → Reached s'

/-- **What holds of every class when it is made, however its instances are written, holds of all
classes of a session.** -/
theorem Reached.forall_classes {p : Class → Prop} (hmade : ∀ c : Class, c.Made → p c)
    (hrules : ∀ (c : Class) text printed, p c → p { c with text := text, printed := printed })
    (h : s.Reached) : ∀ c ∈ s.world.classes, p c := by
  induction h with
  | start => exact fun c hc => absurd hc List.not_mem_nil
  | step _ hstep ih =>
    intro c hc
    rcases (changes_step hstep).classes hc with hc | ⟨e, he, text, printed, rfl⟩
    · exact hmade c hc
    · exact hrules e text printed (ih e he)

/-- **All classes of a session are consistent.** -/
theorem Reached.consistent (h : s.Reached) : s.world.Consistent :=
  h.forall_classes (fun _ hc => hc.consistent) fun _ text printed hc => hc.withRules text printed

/-- Definitions are actions, so what they make is reached. -/
theorem reached_of_definitions {ds : List Definition} {W : World}
    (h : World.ofDefinitions ds = .ok W) : (start W).Reached := by
  refine foldlM_invariant (p := fun W => (start W).Reached) (fun W d W' hd hW => ?_) h
    (.start _ _)
  have hstep : (start W).step (.define d) = .ok (start W', .done) := by
    rw [step, act, start, hd]
    rfl
  exact .step hW hstep

end Session

end RecordText
