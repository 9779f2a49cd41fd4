/-
Classes that are decorated one after the other.

A decoration gives a class the renderer that a builder builds when it is made for the class and gets
the same calls (`World.chain`).  From then on the renderer is the rule by which the class writes its
instances, until another decoration gives it a new one.  Nothing else about any class changes.

* `World.decorate_eq` — **a decoration is a chain of calls**, with the failure of the chain;
* `World.rule?_installed` — the rule of a class after several decorations is that of the last one;
* `World.written_of_decides` — an instance is written by the first class of its lineage that was
  decorated or has a rule of its own;
* `decorated_as_built` — what follows for every sequence of decorations.
-/
import RecordText.Proofs.Recording
import RecordText.Proofs.Fragments
import RecordText.Proofs.Substitution

namespace RecordText

/-! ### Chains of calls -/

/-- The calls that a decoration makes when its arguments are known. -/
def Decoration.calls (d : Decoration) (ignored : Value) (substitutes : List (Name × Function)) :
    List Call :=
  (if d.useFields then [.useFields] else []) ++ (if d.useProperties then [.useProperties] else [])
    ++ .ignoreAll ignored :: substitutes.map fun s => .substitute s.1.value s.2 none

/-- Whether a decoration sets the rule for a form. -/
def Form.isSet (printedToo : Bool) : Form → Bool
  | .text => true
  | .printed => printedToo

namespace World

variable {W W' : World} {t : TypeExpr} {d : Decoration} {c : ClassRef} {r : Renderer}
  {printedToo : Bool} {f : Form}

/-- A builder for a class that got the calls of a decoration, and what it builds. -/
def chain (W : World) (t : TypeExpr) (d : Decoration) :
    Except Failure (Builder × Renderer × List Note) := do
  let t ← W.typeOf t
  let ignored ← W.valueOf d.ignore
  let substitutes ← d.substitutes.mapM W.decorationSubstitute
  let settings ← W.settingsOf d.settings
  let b ← W.builder (Value.ofTy t) settings
  let config ← (d.calls ignored (Table.ofList substitutes)).foldlM W.call b.config
  let b := { b with config := config }
  let (r, notes) ← W.build b
  return (b, r, notes)

/-- A description that stands for a class that was defined. -/
def DenotesDefined (W : World) (t : TypeExpr) : Prop :=
  ∃ id, W.typeOf t = .ok (.cls (.defined id)) ∧ (W.class? id).isSome = true

theorem decorationConfig_eq (W : World) (d : Decoration) (ignored : Value)
    (substitutes : List (Name × Function)) :
    W.decorationConfig d ignored substitutes =
      (d.calls ignored substitutes).foldlM W.call .empty := by
  have hmodes : ((if d.useFields then [Call.useFields] else []) ++
      (if d.useProperties then [Call.useProperties] else [])).foldlM W.call .empty =
        .ok { Config.empty with useFields := d.useFields, useProperties := d.useProperties } := by
    cases d.useFields <;> cases d.useProperties <;> rfl
  rw [decorationConfig, Decoration.calls, List.foldlM_append, hmodes, ok_bind, List.foldlM_cons]
  refine bind_congr fun c => ?_
  rw [List.foldlM_map]
  rfl

/-- A builder that is made for a class has that class for its target. -/
theorem target_builder {settings : Settings} {b : Builder}
    (h : W.builder (.type (.cls c)) settings = .ok b) : b.target = c := by
  obtain ⟨printed, -, h⟩ := bind_eq_ok_iff.mp h
  obtain rfl := Except.ok.inj h
  rfl

/-- A chain that succeeds has made a builder and configured it, and the builder builds the
renderer. -/
theorem chain_eq_ok {b : Builder} {notes : List Note} (h : W.chain t d = .ok (b, r, notes)) :
    ∃ u settings b₀ config, W.typeOf t = .ok u ∧ W.builder (Value.ofTy u) settings = .ok b₀ ∧
      b = { b₀ with config := config } ∧ W.build b = .ok (r, notes) := by
  obtain ⟨u, hu, h⟩ := bind_eq_ok_iff.mp h
  obtain ⟨ignored, -, h⟩ := bind_eq_ok_iff.mp h
  obtain ⟨substitutes, -, h⟩ := bind_eq_ok_iff.mp h
  obtain ⟨settings, -, h⟩ := bind_eq_ok_iff.mp h
  obtain ⟨b₀, hb₀, h⟩ := bind_eq_ok_iff.mp h
  obtain ⟨config, -, h⟩ := bind_eq_ok_iff.mp h
  obtain ⟨⟨r', notes'⟩, hbuild, h⟩ := bind_eq_ok_iff.mp h
  cases h
  exact ⟨u, settings, b₀, config, hu, hb₀, rfl, hbuild⟩

/-- **A decoration of a defined class is a chain of calls.** It fails as the chain fails; otherwise
the class is given the renderer. -/
theorem decorate_eq (ht : W.DenotesDefined t) (d : Decoration) :
    W.decorate t d = W.chain t d >>= fun x =>
      .ok (W.install x.1.target x.2.1 d.includePrinted, x.1.target, x.2.2) := by
  obtain ⟨id, ht, -⟩ := ht
  rw [decorate, chain, ht]
  simp only [ok_bind, bind_assoc, Value.ofTy]
  refine bind_congr fun ignored => bind_congr fun substitutes => bind_congr fun settings => ?_
  cases hb : W.builder (.type (.cls (.defined id))) settings with
  | error g => rfl
  | ok b =>
    rw [ok_bind, ok_bind, decorationConfig_eq, config_builder hb]
    refine bind_congr fun config => bind_congr fun y => ?_
    -- the instances of a defined class can always be given a new text
    have hwritable : isWritable b.target = true := by rw [target_builder hb]; rfl
    simp [hwritable]

/-! ### What a decoration leaves alone -/

theorem class?_install (W : World) (c : ClassRef) (r : Renderer) (printedToo : Bool) (id : Ident) :
    (W.install c r printedToo).class? id = (W.class? id).map fun d =>
      if d.ref == c then
        { d with text := .rendered r, printed := if printedToo then .rendered r else d.printed }
      else d := by
  rw [class?, install, List.find?_map, class?]
  refine congrArg (Option.map _) (congrArg (List.find? · W.classes) (funext fun d => ?_))
  rw [Function.comp_apply]
  split <;> rfl

/-- A decoration leaves everything about a class but its rules. -/
theorem map_class?_install {α : Type} {g : Class → α}
    (hg : ∀ d text printed, g { d with text := text, printed := printed } = g d) (id : Ident) :
    ((W.install c r printedToo).class? id).map g = (W.class? id).map g := by
  rw [class?_install, Option.map_map]
  refine congrArg (Option.map · _) (funext fun d => ?_)
  rw [Function.comp_apply]
  split
  · exact hg _ _ _
  · rfl

theorem isSome_class?_install (id : Ident) :
    ((W.install c r printedToo).class? id).isSome = (W.class? id).isSome := by
  rw [class?_install, Option.isSome_map]

@[simp] theorem lineage_install : (W.install c r printedToo).lineage = W.lineage := by
  funext d
  cases d with
  | known k => rfl
  | defined id => rw [lineage, lineage, map_class?_install fun _ _ _ => rfl]

@[simp] theorem brackets_install : (W.install c r printedToo).brackets = W.brackets := by
  have hcount : (W.install c r printedToo).parameterCount = W.parameterCount := by
    funext d
    cases d with
    | known k => rfl
    | defined id =>
      rw [parameterCount, parameterCount, definition?, definition?, class?_install]
      cases W.class? id with
      | none => rfl
      | some e =>
        rw [Option.map_some, Option.bind_some, Option.bind_some]
        split <;> rfl
  funext d
  rw [brackets, brackets, lineage_install, hcount]

mutual

/-- What a description describes depends on the language, on the names and on the meaning of
brackets alone. -/
theorem typeOf_congr (hL : W'.language = W.language) (hl : W'.lookup = W.lookup)
    (hb : W'.brackets = W.brackets) : (t : TypeExpr) → W'.typeOf t = W.typeOf t
  | .name s => by rw [typeOf, typeOf, hl]
  | .subscript head ts => by rw [typeOf, typeOf, hL, hl, hb, typesOf_congr hL hl hb ts]
  | .optional t => by rw [typeOf, typeOf, hL, typeOf_congr hL hl hb t]
  | .union ts => by rw [typeOf, typeOf, hL, typesOf_congr hL hl hb ts]
  | .bars ts => by rw [typeOf, typeOf, hL, typesOf_congr hL hl hb ts]
  | .annotated t rs => by rw [typeOf, typeOf, hL, typeOf_congr hL hl hb t]
  | .literal vs => by rw [typeOf, typeOf]
  | .classVar t => by rw [typeOf, typeOf, hL, typeOf_congr hL hl hb t]
  | .initVar t => by rw [typeOf, typeOf, typeOf_congr hL hl hb t]
  | .text s => by rw [typeOf, typeOf]
termination_by structural t => t

theorem typesOf_congr (hL : W'.language = W.language) (hl : W'.lookup = W.lookup)
    (hb : W'.brackets = W.brackets) : (ts : List TypeExpr) → W'.typesOf ts = W.typesOf ts
  | [] => by rw [typesOf, typesOf]
  | t :: ts => by
    rw [typesOf, typesOf, typeOf_congr hL hl hb t, typesOf_congr hL hl hb ts]
termination_by structural ts => ts

end

/-- A description stands for a class that was defined after a decoration as it did before. -/
theorem DenotesDefined.install (h : W.DenotesDefined t) :
    (W.install c r printedToo).DenotesDefined t := by
  obtain ⟨id, ht, hid⟩ := h
  have hlanguage : (W.install c r printedToo).language = W.language := rfl
  have hlookup : (W.install c r printedToo).lookup = W.lookup := rfl
  refine ⟨id, ?_, ?_⟩
  · rw [typeOf_congr hlanguage hlookup brackets_install, ht]
  · rw [isSome_class?_install, hid]

/-! ### Rules -/

/-- The rule of a class for one of the forms, if it was defined. -/
def rule? (W : World) (f : Form) (c : ClassRef) : Option TextRule :=
  (W.definition? c).map (Class.rule f)

theorem rule?_install (W : World) (c : ClassRef) (r : Renderer) (printedToo : Bool) (f : Form)
    (e : ClassRef) : (W.install c r printedToo).rule? f e = (W.rule? f e).map fun rule =>
      if e = c ∧ f.isSet printedToo = true then .rendered r else rule := by
  cases e with
  | known k => rfl
  | defined id =>
    rw [rule?, rule?, definition?, definition?, class?_install]
    cases hd : W.class? id with
    | none => rfl
    | some d =>
      have hid : d.ref = .defined id := by
        have hident : d.ident = id := by simpa using List.find?_some hd
        rw [Class.ref, hident]
      rw [Option.map_some, Option.map_some, Option.map_some, Option.map_some, hid]
      by_cases hc : ClassRef.defined id = c
      · cases f <;> cases printedToo <;> simp [hc, Class.rule, Form.isSet]
      · simp [hc]

end World

/-! ### Runs -/

/-- A decoration that succeeded. -/
structure Installed where
  /-- The world in which the renderer was built. -/
  world : World
  builder : Builder
  renderer : Renderer
  printedToo : Bool

namespace Installed

/-- Whether the decoration sets the rule of a class for a form. -/
def sets (f : Form) (c : ClassRef) (i : Installed) : Bool :=
  i.builder.target == c && f.isSet i.printedToo

/-- The renderer that was set last for a form of a class. -/
def last? (f : Form) (c : ClassRef) (is : List Installed) : Option Renderer :=
  (is.reverse.find? (sets f c)).map renderer

/-- The world after the decoration. -/
def after (W : World) (i : Installed) : World := W.install i.builder.target i.renderer i.printedToo

theorem last?_concat (f : Form) (c : ClassRef) (is : List Installed) (i : Installed) :
    last? f c (is ++ [i]) = if sets f c i then some i.renderer else last? f c is := by
  rw [last?, List.reverse_append, List.reverse_singleton, List.singleton_append, List.find?_cons]
  cases sets f c i <;> rfl

/-- The renderer that was set last comes from a decoration of the class. -/
theorem exists_of_last? {f : Form} {c : ClassRef} {is : List Installed} {r : Renderer}
    (h : last? f c is = some r) :
    ∃ i ∈ is, i.builder.target = c ∧ f.isSet i.printedToo = true ∧ i.renderer = r := by
  obtain ⟨i, hi, hr⟩ := Option.map_eq_some_iff.mp h
  have hmem := List.mem_reverse.mp (List.mem_of_find?_eq_some hi)
  have hsets := List.find?_some hi
  rw [sets, Bool.and_eq_true, beq_iff_eq] at hsets
  exact ⟨i, hmem, hsets.1, hsets.2, hr⟩

end Installed

namespace World

variable {W W' : World} {ds : List (TypeExpr × Decoration)} {is : List Installed} {c : ClassRef}
  {f : Form}

/-- The decorations among several that succeed, one after the other. -/
def installed (W : World) : List (TypeExpr × Decoration) → List Installed
  | [] => []
  | (t, d) :: ds =>
    match W.chain t d with
    | .ok (b, r, _) =>
      ⟨W, b, r, d.includePrinted⟩ :: (W.install b.target r d.includePrinted).installed ds
    | .error _ => W.installed ds

theorem build_of_mem_installed {i : Installed} (hi : i ∈ W.installed ds) :
    ∃ notes, i.world.build i.builder = .ok (i.renderer, notes) := by
  induction ds generalizing W with
  | nil => cases hi
  | cons e ds ih =>
    obtain ⟨t, d⟩ := e
    rw [installed] at hi
    split at hi
    · next b r notes hchain =>
      rcases List.mem_cons.mp hi with rfl | hi
      · obtain ⟨-, -, -, -, -, -, -, hbuild⟩ := chain_eq_ok hchain
        exact ⟨notes, hbuild⟩
      · exact ih hi
    · exact ih hi

/-- **The rule of a class after several decorations is that of the last one.** -/
theorem rule?_installed (W : World) (is : List Installed) (f : Form) (c : ClassRef) :
    (is.foldl Installed.after W).rule? f c =
      (W.rule? f c).map fun rule => ((Installed.last? f c is).map .rendered).getD rule := by
  induction is using List.reverseRecOn with
  | nil =>
    show W.rule? f c = (W.rule? f c).map id
    rw [Option.map_id_fun, id]
  | append_singleton is i ih =>
    rw [List.foldl_append, List.foldl_cons, List.foldl_nil, Installed.after, rule?_install, ih,
      Option.map_map, Installed.last?_concat]
    refine congrArg (Option.map · _) (funext fun rule => ?_)
    by_cases h : c = i.builder.target ∧ f.isSet i.printedToo = true
    · have hsets : Installed.sets f c i = true := by simp [Installed.sets, h]
      rw [Function.comp_apply, if_pos h, hsets]
      rfl
    · have hsets : Installed.sets f c i = false := by
        rw [Installed.sets, Bool.and_eq_false_iff, beq_eq_false_iff_ne]
        by_cases hc : i.builder.target = c
        · exact .inr (Bool.eq_false_iff.mpr fun hf => h ⟨hc.symm, hf⟩)
        · exact .inl hc
      rw [Function.comp_apply, if_neg h, hsets]
      rfl

theorem lineage_installed (W : World) (is : List Installed) :
    (is.foldl Installed.after W).lineage = W.lineage := by
  induction is generalizing W with
  | nil => rfl
  | cons i is ih => rw [List.foldl_cons, ih, Installed.after, lineage_install]

theorem denotesDefined_installed {t : TypeExpr} (h : W.DenotesDefined t) :
    (is.foldl Installed.after W).DenotesDefined t := by
  induction is generalizing W with
  | nil => exact h
  | cons i is ih => exact ih h.install

/-! ### Targets -/

/-- A chain for a class that was defined has that class for its target. -/
theorem target_of_chain {t : TypeExpr} {d : Decoration} {b : Builder} {r : Renderer}
    {notes : List Note} (ht : W.DenotesDefined t) (h : W.chain t d = .ok (b, r, notes)) :
    ∃ id, b.target = .defined id ∧ (W.class? id).isSome = true := by
  obtain ⟨id, ht, hid⟩ := ht
  obtain ⟨u, settings, b₀, config, hu, hb₀, rfl, -⟩ := chain_eq_ok h
  obtain rfl : .cls (.defined id) = u := Except.ok.inj (ht.symm.trans hu)
  have htarget : b₀.target = .defined id := target_builder hb₀
  exact ⟨id, htarget, hid⟩

theorem target_of_mem_installed (hds : ∀ e ∈ ds, W.DenotesDefined e.1) {i : Installed}
    (hi : i ∈ W.installed ds) :
    ∃ id, i.builder.target = .defined id ∧ (W.class? id).isSome = true := by
  induction ds generalizing W with
  | nil => cases hi
  | cons e ds ih =>
    obtain ⟨t, d⟩ := e
    obtain ⟨ht, hds⟩ := List.forall_mem_cons.mp hds
    rw [installed] at hi
    split at hi
    · next b r notes hchain =>
      rcases List.mem_cons.mp hi with rfl | hi
      · exact target_of_chain ht hchain
      · obtain ⟨id, htarget, hid⟩ := ih (fun e he => (hds e he).install) hi
        rw [isSome_class?_install] at hid
        exact ⟨id, htarget, hid⟩
    · exact ih hds hi

/-- Only classes that were defined are decorated. -/
theorem exists_class_of_last? (hds : ∀ e ∈ ds, W.DenotesDefined e.1) {r : Renderer}
    (h : Installed.last? f c (W.installed ds) = some r) :
    ∃ id, c = .defined id ∧ (W.class? id).isSome = true := by
  obtain ⟨i, hi, rfl, -⟩ := Installed.exists_of_last? h
  exact target_of_mem_installed hds hi

/-! ### Instances -/

/-- The class that decides how the instances of a class are written after some decorations: the
first one of its lineage that was decorated or has a rule of its own. -/
def DecidesAfter (W : World) (is : List Installed) (f : Form) (c e : ClassRef) : Prop :=
  First (fun e => (Installed.last? f e is).isSome = true ∨ W.decides f e = true) (W.lineage c) e

theorem decides_installed (hds : ∀ e ∈ ds, W.DenotesDefined e.1) (f : Form) (c : ClassRef) :
    ((W.installed ds).foldl Installed.after W).decides f c =
      ((Installed.last? f c (W.installed ds)).isSome || W.decides f c) := by
  cases c with
  | known k =>
    cases hlast : Installed.last? f (.known k) (W.installed ds) with
    | none => rfl
    | some r =>
      obtain ⟨id, hid, -⟩ := exists_class_of_last? hds hlast
      cases hid
  | defined id =>
    show (!(((W.installed ds).foldl Installed.after W).rule? f (.defined id)).any _) =
      (_ || !(W.rule? f (.defined id)).any _)
    rw [rule?_installed]
    cases Installed.last? f (.defined id) (W.installed ds) with
    | none => cases W.rule? f (.defined id) <;> rfl
    | some r => cases W.rule? f (.defined id) <;> rfl

theorem decider?_installed (hds : ∀ e ∈ ds, W.DenotesDefined e.1) {e : ClassRef}
    (h : W.DecidesAfter (W.installed ds) f c e) :
    ((W.installed ds).foldl Installed.after W).decider? f c = some e := by
  obtain ⟨above, below, hline, he, habove⟩ := h
  rw [decider?, lineage_installed, List.find?_eq_some_iff_append]
  refine ⟨?_, above, below, hline, fun a ha => ?_⟩
  · rw [decides_installed hds, Bool.or_eq_true]
    exact he
  · rw [decides_installed hds, Bool.not_eq_true', Bool.eq_false_iff, Ne, Bool.or_eq_true]
    exact habove a ha

theorem decider?_installed_eq_none (hds : ∀ e ∈ ds, W.DenotesDefined e.1)
    (h : ∀ e, ¬W.DecidesAfter (W.installed ds) f c e) :
    ((W.installed ds).foldl Installed.after W).decider? f c = none := by
  rw [decider?, lineage_installed, List.find?_eq_none]
  intro e he hdecides
  rw [decides_installed hds, Bool.or_eq_true] at hdecides
  obtain ⟨e', he'⟩ : ∃ e', W.DecidesAfter (W.installed ds) f c e' :=
    First.exists_iff.mpr ⟨e, he, hdecides⟩
  exact h e' he'

/-- A class that was decorated writes by the renderer that it got last; the others write as they
did before. -/
theorem writtenAs_installed (hds : ∀ e ∈ ds, W.DenotesDefined e.1) (B : Behaviour) (f : Form)
    (v : Value) (c : ClassRef) :
    ((W.installed ds).foldl Installed.after W).writtenAs B f v c =
      match Installed.last? f c (W.installed ds) with
      | some r => r.render B v
      | none => W.writtenAs B f v c := by
  have hrule := rule?_installed W (W.installed ds) f c
  cases hlast : Installed.last? f c (W.installed ds) with
  | none =>
    rw [hlast] at hrule
    have hsame : ((W.installed ds).foldl Installed.after W).rule? f c = W.rule? f c := by
      rw [hrule]
      exact congrFun Option.map_id_fun _
    rw [rule?, rule?] at hsame
    rw [writtenAs, writtenAs, hsame]
  | some r =>
    obtain ⟨id, rfl, hid⟩ := exists_class_of_last? hds hlast
    obtain ⟨d, hd⟩ := Option.isSome_iff_exists.mp hid
    have hold : W.rule? f (.defined id) = some (d.rule f) := by
      rw [rule?, definition?, hd, Option.map_some]
    rw [hlast, hold, rule?] at hrule
    rw [writtenAs, hrule]
    rfl

end World

/-- An instance of a class, with attributes of its own. -/
def Value.IsInstance : Value → Prop
  | .record _ _ _ | .stored _ _ _ => True
  | _ => False

namespace World

variable {W : World} {ds : List (TypeExpr × Decoration)} {c : ClassRef} {f : Form} {v : Value}

theorem printed_instance (hv : v.IsInstance) (n : Nat) :
    (W.behaviourWithin (n + 1)).printed v = W.instancePrinted (W.behaviourWithin n) v := by
  cases v with
  | record _ _ _ | stored _ _ _ => rfl
  | _ => cases hv

theorem text_instance (hv : v.IsInstance) (n : Nat) :
    (W.behaviourWithin (n + 1)).text v = W.instanceText (W.behaviourWithin n) v := by
  cases v with
  | record _ _ _ | stored _ _ _ => rfl
  | _ => cases hv

/-- An instance is written by the rule of the class that decides. -/
theorem written_of_decider? (hv : v.IsInstance) (h : W.decider? f v.classOf = some c) (n : Nat) :
    (W.behaviourWithin (n + 1)).written f v = W.writtenAs (W.behaviourWithin n) f v c := by
  cases f with
  | text =>
    rw [Behaviour.written, text_instance hv, instanceText, h]
  | printed =>
    rw [Behaviour.written, printed_instance hv, instancePrinted, h]

/-- An instance has its printed form for a text when no class decides about texts. -/
theorem text_eq_printed (hv : v.IsInstance) (h : W.decider? .text v.classOf = none) (n : Nat) :
    (W.behaviourWithin (n + 1)).text v = (W.behaviourWithin (n + 1)).printed v := by
  rw [text_instance hv, printed_instance hv, instanceText, h]

/-- **An instance is written by the first class of its lineage that was decorated or has a rule of
its own.** -/
theorem written_of_decides (hds : ∀ e ∈ ds, W.DenotesDefined e.1) (hv : v.IsInstance)
    (h : W.DecidesAfter (W.installed ds) f v.classOf c) (n : Nat) :
    let W' := (W.installed ds).foldl Installed.after W
    (W'.behaviourWithin (n + 1)).written f v =
      match Installed.last? f c (W.installed ds) with
      | some r => r.render (W'.behaviourWithin n) v
      | none => W.writtenAs (W'.behaviourWithin n) f v c := by
  intro W'
  rw [written_of_decider? hv (decider?_installed hds h), writtenAs_installed hds]

end World

/-- The renderer of a decoration writes the members of the decorated class. A present value is
written as its text, if its member has no substitute and the strategy for objects. -/
def Installed.WritesMembers (i : Installed) : Prop :=
  ∃ catalog notes, i.world.catalog i.builder.target i.builder.config.useFields
      i.builder.config.useProperties = .ok (catalog, notes) ∧
    ∀ (B : Behaviour) (x : Value),
      i.renderer.render B x = (do
        let ps ← i.world.pairs i.builder.config B x (World.survivors i.builder.config catalog)
        .ok (Plan.written i.builder.settings ps)) ∧
      ∀ (m : Member) (w : Value), i.builder.config.substitute? m.name = none →
        i.world.hierarchy.strategy m.declared = .object → m.read B x = .ok w →
        w.isAbsent = false → i.world.fragment i.builder.config B x m = B.text w

theorem World.writesMembers_of_mem_installed {W : World} {ds : List (TypeExpr × Decoration)}
    {i : Installed} (hi : i ∈ W.installed ds) : i.WritesMembers := by
  obtain ⟨notes, hb⟩ := build_of_mem_installed hi
  obtain ⟨catalog, notes', hc⟩ := catalog_of_build hb
  refine ⟨catalog, notes', hc, fun B x => ⟨render_eq hb hc B x, ?_⟩⟩
  intro m w hs hobject hread hpresent
  rw [fragment_of_no_substitute hs, hread, ok_bind, hobject, hpresent]
  rfl

/-! ### Sessions -/

namespace Session

variable {s s' : Session} {ds : List (TypeExpr × Decoration)}

/-- A decoration keeps the renderer that a chain of calls builds. It fails as the chain fails, and
then it changes nothing. -/
structure DecoratesAsBuilt (s : Session) (t : TypeExpr) (d : Decoration) : Prop where
  act : s.act (.decorate t d) = s.world.chain t d >>= fun x =>
    .ok (s.withWorld (s.world.install x.1.target x.2.1 d.includePrinted),
      .decorated x.1.target.title d.includePrinted x.2.2)
  failed : ∀ f, s.world.chain t d = .error f → ∀ s' answer,
    s.step (.decorate t d) = .ok (s', answer) → s' = s ∧ answer = .failed f

theorem decoratesAsBuilt {t : TypeExpr} (ht : s.world.DenotesDefined t) (d : Decoration) :
    s.DecoratesAsBuilt t d := by
  have hact : s.act (.decorate t d) = s.world.chain t d >>= fun x =>
      .ok (s.withWorld (s.world.install x.1.target x.2.1 d.includePrinted),
        .decorated x.1.target.title d.includePrinted x.2.2) := by
    rw [act, World.decorate_eq ht, bind_assoc]
    rfl
  refine ⟨hact, fun f hf s' answer hstep => step_of_error ?_ hstep⟩
  rw [hact, hf, error_bind]

/-- A run of decorations makes those that succeed, one after the other. -/
theorem world_after (hds : ∀ e ∈ ds, s.world.DenotesDefined e.1)
    (h : s.after (ds.map fun e => .decorate e.1 e.2) = .ok s') :
    s'.world = (s.world.installed ds).foldl Installed.after s.world := by
  induction ds generalizing s with
  | nil =>
    obtain rfl := Except.ok.inj h
    rfl
  | cons e ds ih =>
    obtain ⟨t, d⟩ := e
    obtain ⟨ht, hds⟩ := List.forall_mem_cons.mp hds
    rw [List.map_cons, after] at h
    obtain ⟨⟨s₁, answer⟩, hstep, hrest⟩ := bind_eq_ok_iff.mp h
    have hbuilt := decoratesAsBuilt ht d
    rw [World.installed]
    cases hchain : s.world.chain t d with
    | error f =>
      obtain ⟨rfl, -⟩ := hbuilt.failed f hchain s₁ answer hstep
      exact ih hds hrest
    | ok x =>
      obtain ⟨b, r, notes⟩ := x
      have hact := hbuilt.act
      rw [hchain] at hact
      obtain ⟨rfl, -⟩ := Prod.mk.inj (step_of_ok hact hstep)
      exact ih (fun e he => (hds e he).install) hrest

end Session

/-- **Decorations do what builders do.**  Several classes are decorated one after the other, and any
decoration may fail.

* Whatever is decorated next, the decoration does what a chain of calls does.
* The rules of a class are as before, except that its last decoration sets the one for texts, and
  its last decoration that was told to sets the one for printed forms.
* An instance is written by the first class of its lineage that was decorated or has a rule of its
  own, and if there is none its text is its printed form.
* The renderer of a decoration writes the members of the decorated class, and what they hold is
  written as its text. -/
theorem decorated_as_built {s s' : Session} {ds : List (TypeExpr × Decoration)}
    (hds : ∀ e ∈ ds, s.world.DenotesDefined e.1)
    (h : s.after (ds.map fun e => .decorate e.1 e.2) = .ok s') :
    (∀ t d, s.world.DenotesDefined t → s'.DecoratesAsBuilt t d) ∧
    (∀ f c, s'.world.rule? f c = (s.world.rule? f c).map fun rule =>
      ((Installed.last? f c (s.world.installed ds)).map .rendered).getD rule) ∧
    (∀ f v c, v.IsInstance → s.world.DecidesAfter (s.world.installed ds) f v.classOf c → ∀ n,
      (s'.world.behaviourWithin (n + 1)).written f v =
        match Installed.last? f c (s.world.installed ds) with
        | some r => r.render (s'.world.behaviourWithin n) v
        | none => s.world.writtenAs (s'.world.behaviourWithin n) f v c) ∧
    (∀ v, v.IsInstance →
      (∀ c, ¬s.world.DecidesAfter (s.world.installed ds) .text v.classOf c) → ∀ n,
        (s'.world.behaviourWithin (n + 1)).text v = (s'.world.behaviourWithin (n + 1)).printed v) ∧
    ∀ f c r, Installed.last? f c (s.world.installed ds) = some r →
      ∃ i ∈ s.world.installed ds, i.builder.target = c ∧ f.isSet i.printedToo = true ∧
        i.renderer = r ∧ i.WritesMembers := by
  have hW := Session.world_after hds h
  refine ⟨fun t d ht => ?_, fun f c => ?_, fun f v c hv hc n => ?_, fun v hv hc n => ?_,
    fun f c r hr => ?_⟩
  · refine Session.decoratesAsBuilt ?_ d
    rw [hW]
    exact World.denotesDefined_installed ht
  · rw [hW, World.rule?_installed]
  · rw [hW]
    exact World.written_of_decides hds hv hc n
  · rw [hW]
    exact World.text_eq_printed hv (World.decider?_installed_eq_none hds hc) n
  · obtain ⟨i, hi, htarget, hset, hrenderer⟩ := Installed.exists_of_last? hr
    exact ⟨i, hi, htarget, hset, hrenderer, World.writesMembers_of_mem_installed hi⟩

/-- A class with a member of another class, and a class below it without rules of its own. -/
def garageDefinitions : List Definition :=
  [.cls "Engine" .plain [] [.field "power" (.name "int") none],
    .cls "Car" .plain [] [.field "engine" (.name "Engine") none],
    .cls "Taxi" .plain [.name "Car"]
      [.field "fare" (.name "int") none, .inherit .text, .inherit .printed]]

def engineClass : ClassRef := .defined ⟨1, "Engine"⟩

def carClass : ClassRef := .defined ⟨2, "Car"⟩

def taxiClass : ClassRef := .defined ⟨3, "Taxi"⟩

/-- The world of these classes. -/
def garage : World where
  language := .phrases
  library := .standard
  names := [("Taxi", .cls taxiClass), ("Car", .cls carClass), ("Engine", .cls engineClass)]
  classes := [
    { ident := ⟨3, "Taxi"⟩, lineage := [taxiClass, carClass, .known .object]
      layer := ⟨[], [("fare", .cls (.known .int))]⟩, dataFields := none, modelFields := none
      parameters := none, text := .inherited, printed := .inherited },
    { ident := ⟨2, "Car"⟩, lineage := [carClass, .known .object]
      layer := ⟨[], [("engine", .cls engineClass)]⟩, dataFields := none, modelFields := none
      parameters := none, text := .titled, printed := .titled },
    { ident := ⟨1, "Engine"⟩, lineage := [engineClass, .known .object]
      layer := ⟨[], [("power", .cls (.known .int))]⟩, dataFields := none, modelFields := none
      parameters := none, text := .titled, printed := .titled }]
  instances := []
  store := []
  fresh := 4

def engineRenderer : Renderer :=
  .steps [⟨"\x7bpower=", .base ⟨"power", .cls (.known .int), .field, false⟩, ⟨.primitive, false⟩⟩]
    "\x7d"

def carRenderer : Renderer :=
  .steps [⟨"\x7bengine=", .base ⟨"engine", .cls engineClass, .field, false⟩, ⟨.object, false⟩⟩]
    "\x7d"

/-- The world after the first decoration. -/
def tuned : World := garage.install engineClass engineRenderer false

/-- A builder for the fields of a class. -/
def fieldsBuilder (c : ClassRef) : Builder := ⟨c, .usual, ⟨true, false, [], []⟩⟩

/-- The second decoration fails, since it includes nothing. -/
def garageDecorations : List (TypeExpr × Decoration) :=
  [(.name "Engine", .usual),
    (.name "Car", { Decoration.usual with useFields := false }),
    (.name "Car", { Decoration.usual with includePrinted := true })]

def enginePart : Value := .record engineClass none [("power", .int 5)]

def taxi : Value := .record taxiClass none [("engine", enginePart), ("fare", .int 7)]

theorem chain_engine : garage.chain (.name "Engine") .usual =
    .ok (fieldsBuilder engineClass, engineRenderer,
      [.building "Engine" 1 0 0, .compiled "Engine" [("power", .primitive)]]) := by
  have hb : garage.build (fieldsBuilder engineClass) = .ok (engineRenderer,
      [.building "Engine" 1 0 0, .compiled "Engine" [("power", .primitive)]]) := by
    with_unfolding_all rfl
  show (garage.build (fieldsBuilder engineClass) >>= _) = _
  rw [hb]
  rfl

theorem chain_nothing : tuned.chain (.name "Car") { Decoration.usual with useFields := false } =
    .error (.rejected (.noMode "Car")) := rfl

theorem chain_car : tuned.chain (.name "Car") { Decoration.usual with includePrinted := true } =
    .ok (fieldsBuilder carClass, carRenderer,
      [.building "Car" 1 0 0, .compiled "Car" [("engine", .object)]]) := by
  have hb : tuned.build (fieldsBuilder carClass) = .ok (carRenderer,
      [.building "Car" 1 0 0, .compiled "Car" [("engine", .object)]]) := by with_unfolding_all rfl
  show (tuned.build (fieldsBuilder carClass) >>= _) = _
  rw [hb]
  rfl

theorem installed_garage : garage.installed garageDecorations =
    [⟨garage, fieldsBuilder engineClass, engineRenderer, false⟩,
      ⟨tuned, fieldsBuilder carClass, carRenderer, true⟩] := by
  rw [garageDecorations, World.installed, chain_engine]
  show _ :: tuned.installed _ = _
  rw [World.installed, chain_nothing]
  show _ :: tuned.installed _ = _
  rw [World.installed, chain_car]
  rfl

theorem denotesDefined_garage : ∀ e ∈ garageDecorations, garage.DenotesDefined e.1 := by
  have hengine : garage.DenotesDefined (.name "Engine") := ⟨⟨1, "Engine"⟩, rfl, rfl⟩
  have hcar : garage.DenotesDefined (.name "Car") := ⟨⟨2, "Car"⟩, rfl, rfl⟩
  intro e he
  rcases List.mem_cons.mp he with rfl | he
  · exact hengine
  rcases List.mem_pair.mp he with rfl | rfl
  · exact hcar
  · exact hcar

theorem after_garage :
    (Session.start garage).after (garageDecorations.map fun e => .decorate e.1 e.2) =
      .ok (.start (tuned.install carClass carRenderer true)) := by
  have hcar : tuned.DenotesDefined (.name "Car") := ⟨⟨2, "Car"⟩, rfl, rfl⟩
  have hfirst : (Session.start garage).act (.decorate (.name "Engine") .usual) = .ok
      (.start tuned, .decorated "Engine" false
        [.building "Engine" 1 0 0, .compiled "Engine" [("power", .primitive)]]) := by
    rw [(Session.decoratesAsBuilt (denotesDefined_garage _ (.head _)) _).act]
    show (garage.chain _ _ >>= _) = _
    rw [chain_engine]
    rfl
  have hsecond : (Session.start tuned).act (.decorate (.name "Car")
      { Decoration.usual with useFields := false }) = .error (.rejected (.noMode "Car")) := by
    rw [(Session.decoratesAsBuilt hcar _).act]
    rfl
  have hthird : (Session.start tuned).act (.decorate (.name "Car")
      { Decoration.usual with includePrinted := true }) = .ok
      (.start (tuned.install carClass carRenderer true), .decorated "Car" true
        [.building "Car" 1 0 0, .compiled "Car" [("engine", .object)]]) := by
    rw [(Session.decoratesAsBuilt hcar _).act]
    show (tuned.chain _ _ >>= _) = _
    rw [chain_car]
    rfl
  rw [garageDecorations, List.map_cons, Session.after, Session.step, hfirst]
  show Session.after (.start tuned) _ = _
  rw [List.map_cons, Session.after, Session.step, hsecond]
  show Session.after (.start tuned) _ = _
  rw [List.map_cons, Session.after, Session.step, hthird]
  rfl

/-- A class without rules writes the members of the decorated class above it, and what they hold by
the rules of other classes. The printed form changes only where it was asked for. -/
theorem decorated_as_built_garage : World.ofDefinitions garageDefinitions = .ok garage ∧
    ∃ s', (Session.start garage).after (garageDecorations.map fun e => .decorate e.1 e.2) = .ok s' ∧
      s'.world.rule? .printed engineClass = some .titled ∧ ∀ n,
        (s'.world.behaviourWithin (n + 3)).text taxi = .ok "\x7bengine=\x7bpower=5\x7d\x7d" ∧
        (s'.world.behaviourWithin (n + 3)).printed taxi = .ok "\x7bengine=\x7bpower=5\x7d\x7d" := by
  obtain ⟨-, hrules, hwritten, -, -⟩ := decorated_as_built denotesDefined_garage after_garage
  have hinstalled : (Session.start garage).world.installed garageDecorations = _ :=
    installed_garage
  rw [hinstalled] at hrules hwritten
  have htaxi : ∀ f n, ((tuned.install carClass carRenderer true).behaviourWithin (n + 3)).written f
      taxi = .ok "\x7bengine=\x7bpower=5\x7d\x7d" := by
    intro f n
    cases f with
    | text | printed =>
      refine (hwritten _ taxi carClass trivial ?_ (n + 2)).trans rfl
      exact ⟨[taxiClass], [.known .object], rfl, .inl rfl, by decide⟩
  exact ⟨rfl, _, after_garage, hrules .printed engineClass,
    fun n => ⟨htaxi .text n, htaxi .printed n⟩⟩

end RecordText
