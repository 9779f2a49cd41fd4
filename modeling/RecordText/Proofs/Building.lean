/-
Stages of a build.

Once the candidates of a class are known, a build depends on six conditions (`Condition`), which are
checked one after the other.  Each condition is stated on the candidates and the configuration
alone (`Condition.Holds`), and so is the failure of a build that stops there (`Condition.Fails`).

* `build_eq_error_iff` — **a build stops with the failure of the first condition that does not
  hold**, and with no other failure;
* `build_eq_ok_iff` — otherwise the renderer is that of the plan of all surviving members;
* `build_of_catalog_error` — a class whose candidates cannot be told stops every build.
-/
import RecordText.Builder
import RecordText.Proofs.Composition

namespace RecordText

namespace World

variable {W : World} {c : Config} {target : String} {f : Failure}

/-! ### Names -/

/-- How a name is refused: with its text, or with the failure of asking for it. -/
def RefusesName (W : World) (refusal : String → Rejection) (n : Name) (f : Failure) : Prop :=
  (∃ t, W.behaviour.text n.value = .ok t ∧ f = .rejected (refusal t)) ∨
    W.behaviour.text n.value = .error f

theorem exists_refusesName (W : World) (refusal : String → Rejection) (n : Name) :
    ∃ f, W.RefusesName refusal n f := by
  cases h : W.behaviour.text n.value with
  | ok t => exact ⟨_, .inl ⟨t, h, rfl⟩⟩
  | error f => exact ⟨f, .inr h⟩

theorem checkNames_eq_ok_iff {known : Name → Bool} {refusal : String → Rejection}
    {names : List Name} (u : Unit) :
    W.checkNames known refusal names = .ok u ↔ (∀ n ∈ names, known n = true) ∧ u = () := by
  induction names with
  | nil => simp [checkNames]
  | cons n ns ih =>
    rw [checkNames]
    by_cases hn : known n = true
    · simp [hn, ih]
    · simp only [hn, List.mem_cons, forall_eq_or_imp]
      cases W.behaviour.text n.value <;> simp

theorem checkNames_eq_error_iff {known : Name → Bool} {refusal : String → Rejection}
    {names : List Name} :
    W.checkNames known refusal names = .error f ↔
      ∃ n, First (fun n => ¬known n = true) names n ∧ W.RefusesName refusal n f := by
  induction names with
  | nil => simp [checkNames]
  | cons n ns ih =>
    rw [checkNames]
    by_cases hn : known n = true
    · simp [hn, ih, First.cons_iff]
    -- the first name is unknown, so the others do not matter
    · have hfirst : (∃ m, First (fun n => ¬known n = true) (n :: ns) m ∧
          W.RefusesName refusal m f) ↔ W.RefusesName refusal n f := by
        simp [First.cons_iff, hn]
      rw [if_neg hn, hfirst, RefusesName]
      cases W.behaviour.text n.value with
      | error g => simp
      | ok t =>
        simp only [ok_bind, throw_eq_error, Except.error.injEq, Except.ok.injEq, exists_eq_left',
          reduceCtorEq, or_false]
        exact eq_comm

/-! ### Parts -/

/-- If a member has a substitute, the substitute accepts its declared type. -/
def Accepts (W : World) (c : Config) (m : Member) : Prop :=
  ∀ s, c.substitute? m.name = some s → ∃ t, W.acceptedType s = .ok t ∧
    W.hierarchy.assignable m.declared t = .ok true

/-- How a member is refused by its substitute: the accepted type cannot be told, it cannot be
compared, or the declared type does not fit. -/
def RefusesMember (W : World) (c : Config) (target : String) (m : Member) (f : Failure) : Prop :=
  ∃ s, c.substitute? m.name = some s ∧
    ((∃ g, W.acceptedType s = .error g ∧ f = .fault g) ∨ ∃ t, W.acceptedType s = .ok t ∧
      ((∃ g, W.hierarchy.assignable m.declared t = .error g ∧ f = .fault g) ∨
        W.hierarchy.assignable m.declared t = .ok false ∧
          f = .rejected (.notConvertible m.name target m.declared t)))

/-- The part that a member gives when its substitute accepts it. -/
def partFor (W : World) (c : Config) (m : Member) : Part :=
  match c.substitute? m.name with
  | none => .base m
  | some s => .substituted m s.function ((W.acceptedType s).toOption.getD .any)

@[simp] theorem member_partFor (W : World) (c : Config) (m : Member) :
    (W.partFor c m).member = m := by
  unfold partFor
  cases c.substitute? m.name <;> rfl

@[simp] theorem name_partFor (W : World) (c : Config) (m : Member) :
    (W.partFor c m).name = m.name := by
  rw [Part.name, member_partFor]

@[simp] theorem declared_partFor (W : World) (c : Config) (m : Member) :
    (W.partFor c m).declared = m.declared := by
  rw [Part.declared, member_partFor]

theorem strategy_partFor (W : World) (c : Config) (m : Member) :
    (W.partFor c m).strategy W.hierarchy = .unsupported ↔
      c.substitute? m.name = none ∧ W.hierarchy.strategy m.declared = .unsupported := by
  unfold partFor
  cases c.substitute? m.name <;> simp [Part.strategy]

theorem partOf_eq_ok_iff {m : Member} {p : Part} :
    W.partOf c target m = .ok p ↔ W.Accepts c m ∧ p = W.partFor c m := by
  unfold partOf Accepts partFor
  cases c.substitute? m.name with
  | none => simp [eq_comm]
  | some s =>
    simp only [substitutePart, bind_eq_ok_iff, lift_eq_ok_iff, Option.some.injEq,
      forall_eq']
    constructor
    · rintro ⟨t, ht, b, hb, h⟩
      cases b with
      | false => cases h
      | true =>
        cases h
        refine ⟨⟨t, ht, hb⟩, ?_⟩
        rw [ht]
        rfl
    · rintro ⟨⟨t, ht, hb⟩, rfl⟩
      refine ⟨t, ht, true, hb, ?_⟩
      rw [ht]
      rfl

theorem partOf_eq_error_iff {m : Member} :
    W.partOf c target m = .error f ↔ W.RefusesMember c target m f := by
  unfold partOf RefusesMember
  cases c.substitute? m.name with
  | none => simp
  | some s =>
    simp only [substitutePart, bind_eq_error_iff, lift_eq_ok_iff, lift_eq_error_iff,
      Option.some.injEq, exists_eq_left']
    refine or_congr Iff.rfl (exists_congr fun t => and_congr Iff.rfl (or_congr Iff.rfl ?_))
    simp [eq_comm]

/-- A member that its substitute accepts gets it. -/
theorem partOf_of_accepted {m : Member} {s : Substitute} {t : Ty}
    (hs : c.substitute? m.name = some s) (ht : W.acceptedType s = .ok t)
    (h : W.hierarchy.assignable m.declared t = .ok true) (target : String) :
    W.partOf c target m = .ok (.substituted m s.function t) := by
  have haccepts : W.Accepts c m := by
    intro s' hs'
    obtain rfl : s = s' := Option.some.inj (hs.symm.trans hs')
    exact ⟨t, ht, h⟩
  have hpart : W.partFor c m = .substituted m s.function t := by
    simp [partFor, hs, ht, Except.toOption]
  exact partOf_eq_ok_iff.mpr ⟨haccepts, hpart.symm⟩

/-- A member that its substitute does not accept is refused. -/
theorem partOf_of_refused {m : Member} {s : Substitute} {t : Ty}
    (hs : c.substitute? m.name = some s) (ht : W.acceptedType s = .ok t)
    (h : W.hierarchy.assignable m.declared t = .ok false) (target : String) :
    W.partOf c target m = .error (.rejected (.notConvertible m.name target m.declared t)) :=
  partOf_eq_error_iff.mpr ⟨s, hs, .inr ⟨t, ht, .inr ⟨h, rfl⟩⟩⟩

end World

/-! ### Conditions -/

/-- The conditions of a build, in the order in which they are checked. -/
inductive Condition
  | mode
  | ignored
  | substituted
  | accepted
  | supported
  | distinct
  deriving DecidableEq, Repr

namespace Condition

/-- The conditions that are checked before this one. -/
def earlier : Condition → List Condition
  | mode => []
  | ignored => [mode]
  | substituted => [mode, ignored]
  | accepted => [mode, ignored, substituted]
  | supported => [mode, ignored, substituted, accepted]
  | distinct => [mode, ignored, substituted, accepted, supported]

/-- The condition holds for a builder and the candidates of its class. -/
def Holds (W : World) (b : Builder) (catalog : Catalog) : Condition → Prop
  | mode => b.config.useFields = true ∨ b.config.useProperties = true
  | ignored => ∀ n ∈ b.config.ignored, ∃ m ∈ catalog.candidates, n.matches m.name = true
  | substituted => ∀ n ∈ b.config.substitutes.map Prod.fst,
      ∃ m ∈ World.survivors b.config catalog, n.matches m.name = true
  | accepted => ∀ m ∈ World.survivors b.config catalog, W.Accepts b.config m
  | supported => ∀ m ∈ World.survivors b.config catalog, b.config.substitute? m.name = none →
      W.hierarchy.strategy m.declared ≠ .unsupported
  | distinct => ((World.survivors b.config catalog).map Member.name).Nodup

/-- A build that stops at the condition fails with `f`. -/
def Fails (W : World) (b : Builder) (catalog : Catalog) (f : Failure) : Condition → Prop
  | mode => ¬(b.config.useFields = true ∨ b.config.useProperties = true) ∧
      f = .rejected (.noMode b.target.title)
  | ignored => ∃ n, First (fun n => ¬∃ m ∈ catalog.candidates, n.matches m.name = true)
      b.config.ignored n ∧ W.RefusesName (.unknownIgnored · b.target.title) n f
  | substituted => ∃ n, First (fun n => ¬∃ m ∈ World.survivors b.config catalog,
      n.matches m.name = true) (b.config.substitutes.map Prod.fst) n ∧
        W.RefusesName (.unknownSubstituted · b.target.title) n f
  | accepted => ∃ m, First (fun m => ¬W.Accepts b.config m)
      (World.survivors b.config catalog) m ∧ W.RefusesMember b.config b.target.title m f
  | supported => ∃ m, First (fun m => b.config.substitute? m.name = none ∧
      W.hierarchy.strategy m.declared = .unsupported) (World.survivors b.config catalog) m ∧
        f = .rejected (.unsupported m.name b.target.title m.declared)
  | distinct => ¬((World.survivors b.config catalog).map Member.name).Nodup ∧
      f = .invalid [.duplicateLabels (Plan.duplicates
        ((World.survivors b.config catalog).map Member.name))]

end Condition

/-- The plan of all surviving members. -/
def World.planFor (W : World) (b : Builder) (catalog : Catalog) : Plan :=
  ⟨b.target.title, ((World.survivors b.config catalog).map (W.partFor b.config)).map
    (Entry.ofPart W.hierarchy), b.settings⟩

/-- The notes of a build that succeeds, after those about the candidates. -/
def World.notesFor (W : World) (b : Builder) (catalog : Catalog) : List Note :=
  .building b.target.title (World.survivors b.config catalog).length b.config.substitutes.length
    b.config.ignored.length :: (W.planFor b catalog).compiledNotes

namespace World

variable {W : World} {b : Builder} {catalog : Catalog} {f : Failure}

theorem checkIgnored_eq_ok_iff (u : Unit) :
    W.checkIgnored b.target.title catalog b.config.ignored = .ok u ↔
      Condition.ignored.Holds W b catalog ∧ u = () := by
  simp [checkIgnored, checkNames_eq_ok_iff, Condition.Holds, Catalog.names]

theorem checkIgnored_eq_error_iff :
    W.checkIgnored b.target.title catalog b.config.ignored = .error f ↔
      Condition.ignored.Fails W b catalog f := by
  simp [checkIgnored, checkNames_eq_error_iff, Condition.Fails, Catalog.names]

theorem checkSubstituted_eq_ok_iff (u : Unit) :
    W.checkSubstituted b.target.title (survivors b.config catalog)
      (b.config.substitutes.map Prod.fst) = .ok u ↔
        Condition.substituted.Holds W b catalog ∧ u = () := by
  simp [checkSubstituted, checkNames_eq_ok_iff, Condition.Holds]

theorem checkSubstituted_eq_error_iff :
    W.checkSubstituted b.target.title (survivors b.config catalog)
      (b.config.substitutes.map Prod.fst) = .error f ↔
        Condition.substituted.Fails W b catalog f := by
  simp [checkSubstituted, checkNames_eq_error_iff, Condition.Fails]

theorem mapM_partOf_eq_ok_iff (parts : List Part) :
    (survivors b.config catalog).mapM (W.partOf b.config b.target.title) = .ok parts ↔
      Condition.accepted.Holds W b catalog ∧
        parts = (survivors b.config catalog).map (W.partFor b.config) :=
  mapM_eq_ok_iff_map fun _ _ => partOf_eq_ok_iff

theorem accepts_or_refuses (W : World) (c : Config) (target : String) (m : Member) :
    ¬W.Accepts c m ↔ ∃ f, W.RefusesMember c target m f := by
  simp only [← partOf_eq_error_iff]
  cases h : W.partOf c target m with
  | ok p => simp [(partOf_eq_ok_iff.mp h).1]
  | error f =>
    -- a member that is accepted has its part, so it is not refused as well
    refine iff_of_true (fun ha => ?_) ⟨f, rfl⟩
    have hok : W.partOf c target m = .ok (W.partFor c m) := partOf_eq_ok_iff.mpr ⟨ha, rfl⟩
    rw [h] at hok
    cases hok

theorem mapM_partOf_eq_error_iff :
    (survivors b.config catalog).mapM (W.partOf b.config b.target.title) = .error f ↔
      Condition.accepted.Fails W b catalog f := by
  simp only [mapM_eq_error_iff, partOf_eq_error_iff, ← accepts_or_refuses]
  rfl

theorem compose_eq_ok_iff (p : Plan) :
    Plan.compose W.hierarchy ((survivors b.config catalog).map (W.partFor b.config))
      b.target.title b.settings = .ok p ↔
        (Condition.supported.Holds W b catalog ∧ Condition.distinct.Holds W b catalog) ∧
          p = W.planFor b catalog := by
  simp [Plan.compose_eq_ok_iff, strategy_partFor, Condition.Holds, Function.comp_def, planFor,
    and_assoc]

theorem compose_eq_error_iff :
    Plan.compose W.hierarchy ((survivors b.config catalog).map (W.partFor b.config))
      b.target.title b.settings = .error f ↔ Condition.supported.Fails W b catalog f ∨
        Condition.supported.Holds W b catalog ∧ Condition.distinct.Fails W b catalog f := by
  rw [Plan.compose_eq_error_iff]
  refine or_congr ?_ (and_congr ?_ ?_)
  · simp only [First.map_iff, strategy_partFor]
    constructor
    · rintro ⟨p, ⟨m, hm, rfl⟩, rfl⟩
      rw [name_partFor, declared_partFor]
      exact ⟨m, hm, rfl⟩
    · rintro ⟨m, hm, rfl⟩
      refine ⟨_, ⟨m, hm, rfl⟩, ?_⟩
      rw [name_partFor, declared_partFor]
  · simp [strategy_partFor, Condition.Holds]
  · rw [List.map_map, show Part.name ∘ W.partFor b.config = Member.name from
      funext (name_partFor W b.config)]
    rfl

/-! ### Builds -/

/-- A class whose candidates cannot be told stops every build. -/
theorem build_of_catalog_error {g : Fault}
    (hc : W.catalog b.target b.config.useFields b.config.useProperties = .error g) :
    W.build b = .error (.fault g) := by
  have hm : (b.config.useFields || b.config.useProperties) = true := by
    -- without a mode there is nothing to look up
    cases hf : b.config.useFields with
    | true => rfl
    | false =>
      cases hp : b.config.useProperties with
      | true => rfl
      | false =>
        rw [hf, hp] at hc
        cases hc
  simp only [build, hm, hc]
  rfl

variable {notes : List Note}

/-- The stages of a build, once the candidates are known. -/
theorem build_eq
    (hc : W.catalog b.target b.config.useFields b.config.useProperties = .ok (catalog, notes)) :
    W.build b =
      if b.config.useFields = true ∨ b.config.useProperties = true then do
        W.checkIgnored b.target.title catalog b.config.ignored
        W.checkSubstituted b.target.title (survivors b.config catalog)
          (b.config.substitutes.map Prod.fst)
        let parts ← (survivors b.config catalog).mapM (W.partOf b.config b.target.title)
        let plan ← Plan.compose W.hierarchy parts b.target.title b.settings
        .ok (plan.renderer, notes ++ .building b.target.title parts.length
          b.config.substitutes.length b.config.ignored.length :: plan.compiledNotes)
      else .error (.rejected (.noMode b.target.title)) := by
  have hm : (!(b.config.useFields || b.config.useProperties)) = true ↔
      ¬(b.config.useFields = true ∨ b.config.useProperties = true) := by
    simp
  -- compiling what was composed never fails, so it is not a stage
  simp only [build, hc, Fault.lift, ok_bind, partsOf, bind_assoc, Plan.compose_compile, hm,
    ite_not, throw_eq_error, error_bind, pure_eq_ok]

/-- **When all conditions hold, the renderer is that of the plan of all surviving members.** -/
theorem build_eq_ok_iff {x : Renderer × List Note}
    (hc : W.catalog b.target b.config.useFields b.config.useProperties = .ok (catalog, notes)) :
    W.build b = .ok x ↔ (∀ k : Condition, k.Holds W b catalog) ∧
      x = ((W.planFor b catalog).renderer, notes ++ W.notesFor b catalog) := by
  rw [build_eq hc, ite_eq_iff, bind_eq_ok_iff_of_ok checkIgnored_eq_ok_iff,
    bind_eq_ok_iff_of_ok checkSubstituted_eq_ok_iff,
    bind_eq_ok_iff_of_ok mapM_partOf_eq_ok_iff, bind_eq_ok_iff_of_ok compose_eq_ok_iff,
    List.length_map]
  constructor
  · rintro (⟨h₁, h₂, h₃, h₄, ⟨h₅, h₆⟩, h⟩ | ⟨-, h⟩)
    · refine ⟨fun k => ?_, (Except.ok.inj h).symm⟩
      cases k <;> assumption
    · cases h
  · rintro ⟨h, rfl⟩
    exact .inl ⟨h .mode, h .ignored, h .substituted, h .accepted,
      ⟨h .supported, h .distinct⟩, rfl⟩

/-- When the substitutes accept their members, the other five conditions decide whether a build
succeeds. -/
theorem build_of_accepted
    (hc : W.catalog b.target b.config.useFields b.config.useProperties = .ok (catalog, notes))
    (h : Condition.accepted.Holds W b catalog) :
    (∃ x, W.build b = .ok x) ↔ ∀ k : Condition, k ≠ .accepted → k.Holds W b catalog := by
  constructor
  · rintro ⟨x, hx⟩ k -
    exact ((build_eq_ok_iff hc).mp hx).1 k
  · intro hk
    refine ⟨_, (build_eq_ok_iff hc).mpr ⟨fun k => ?_, rfl⟩⟩
    by_cases hka : k = .accepted
    · exact hka ▸ h
    · exact hk k hka

/-- **The first condition that does not hold decides how a build fails.** -/
theorem build_eq_error_iff
    (hc : W.catalog b.target b.config.useFields b.config.useProperties = .ok (catalog, notes)) :
    W.build b = .error f ↔
      ∃ k : Condition, (∀ j ∈ k.earlier, j.Holds W b catalog) ∧ k.Fails W b catalog f := by
  rw [build_eq hc, ite_eq_iff, bind_eq_error_iff_of_ok checkIgnored_eq_ok_iff,
    bind_eq_error_iff_of_ok checkSubstituted_eq_ok_iff,
    bind_eq_error_iff_of_ok mapM_partOf_eq_ok_iff, bind_eq_error_iff_of_ok compose_eq_ok_iff,
    checkIgnored_eq_error_iff, checkSubstituted_eq_error_iff, mapM_partOf_eq_error_iff,
    compose_eq_error_iff]
  change Condition.mode.Holds W b catalog ∧ _ ∨ ¬Condition.mode.Holds W b catalog ∧ _ ↔ _
  constructor
  · rintro (⟨h₁, h | ⟨h₂, h | ⟨h₃, h | ⟨h₄, (h | ⟨h₅, h⟩) | ⟨-, h⟩⟩⟩⟩⟩ | ⟨h₁, h⟩)
    · exact ⟨.ignored, by simpa [Condition.earlier] using h₁, h⟩
    · exact ⟨.substituted, by simpa [Condition.earlier] using ⟨h₁, h₂⟩, h⟩
    · exact ⟨.accepted, by simpa [Condition.earlier] using ⟨h₁, h₂, h₃⟩, h⟩
    · exact ⟨.supported, by simpa [Condition.earlier] using ⟨h₁, h₂, h₃, h₄⟩, h⟩
    · exact ⟨.distinct, by simpa [Condition.earlier] using ⟨h₁, h₂, h₃, h₄, h₅⟩, h⟩
    · cases h
    · exact ⟨.mode, by simp [Condition.earlier], h₁, (Except.error.inj h).symm⟩
  · rintro ⟨k, hk, h⟩
    cases k with simp only [Condition.earlier, List.forall_mem_cons] at hk
    | mode => exact .inr ⟨h.1, congrArg Except.error h.2.symm⟩
    -- each stage is reached because the conditions before it hold
    | ignored =>
      obtain ⟨h₁, -⟩ := hk
      exact .inl ⟨h₁, .inl h⟩
    | substituted =>
      obtain ⟨h₁, h₂, -⟩ := hk
      exact .inl ⟨h₁, .inr ⟨h₂, .inl h⟩⟩
    | accepted =>
      obtain ⟨h₁, h₂, h₃, -⟩ := hk
      exact .inl ⟨h₁, .inr ⟨h₂, .inr ⟨h₃, .inl h⟩⟩⟩
    | supported =>
      obtain ⟨h₁, h₂, h₃, h₄, -⟩ := hk
      exact .inl ⟨h₁, .inr ⟨h₂, .inr ⟨h₃, .inr ⟨h₄, .inl (.inl h)⟩⟩⟩⟩
    | distinct =>
      obtain ⟨h₁, h₂, h₃, h₄, h₅, -⟩ := hk
      exact .inl ⟨h₁, .inr ⟨h₂, .inr ⟨h₃, .inr ⟨h₄, .inl (.inr ⟨h₅, h⟩)⟩⟩⟩⟩

end World

/-! ### A single model -/

/-- The name of the model in `World.ofModel`. -/
def modelIdent : Ident := ⟨1, "Model"⟩

/-- A world with a single model and nothing else. -/
def World.ofModel (fields : List (String × Ty)) : World where
  language := .phrases
  library := .standard
  names := [(modelIdent.name, .cls (.defined modelIdent))]
  classes := [{
    ident := modelIdent
    lineage := [.defined modelIdent, .known .model, .known .object]
    layer := .empty
    dataFields := none
    modelFields := some (fields.map fun e => ⟨e.1, e.2, [], none⟩)
    parameters := none
    text := .titled
    printed := .titled }]
  instances := []
  store := []
  fresh := 2

/-- A builder for its fields, with some substitutes. -/
def Builder.ofModel (substitutes : List (String × Substitute)) : Builder where
  target := .defined modelIdent
  settings := .usual
  config := ⟨true, false, [], substitutes.map fun e => (⟨.text e.1, .text e.1⟩, e.2)⟩

theorem World.catalog_ofModel (fields : List (String × Ty))
    (h : ∀ e ∈ fields, isPrivate e.1 = false) :
    ∃ notes, (ofModel fields).catalog (.defined modelIdent) true false =
      .ok (⟨fields.map fun e => Catalog.memberOf .field e.1 e.2 false⟩, notes) := by
  have hp : ∀ f ∈ fields.map fun e => (⟨e.1, e.2, [], none⟩ : ModelField),
      (!isPrivate f.name) = true := by
    intro f hf
    obtain ⟨e, he, rfl⟩ := List.mem_map.mp hf
    exact congrArg not (h e he)
  have hf : (ofModel fields).fields (.defined modelIdent) = .ok
      (fields.map fun e => Catalog.memberOf .field e.1 e.2 false, []) := by
    show Except.ok (Catalog.modelFieldsOf _, []) = _
    rw [Catalog.modelFieldsOf, List.filter_eq_self.mpr hp, List.map_map]
    rfl
  have hc : (ofModel fields).catalog (.defined modelIdent) true false =
      (ofModel fields).fields (.defined modelIdent) >>= fun p =>
        .ok (⟨p.1 ++ []⟩, p.2 ++ Catalog.skippedNotes "Model" (p.1 ++ [])) := rfl
  rw [hf, ok_bind, List.append_nil] at hc
  exact ⟨_, hc⟩

/-- A substitute for the only field leaves one condition open: that it accepts the field. -/
theorem Condition.holds_ofModel (name : String) (t : Ty) (s : Substitute)
    (ht : t.stripAnnotated.2.any Remark.hides = false) (k : Condition) (hk : k ≠ .accepted) :
    k.Holds (.ofModel [(name, t)]) (.ofModel [(name, s)])
      ⟨[Catalog.memberOf .field name t false]⟩ := by
  have hname : (⟨.text name, .text name⟩ : Name).matches name = true := beq_self_eq_true name
  have hsub : (Builder.ofModel [(name, s)]).config.substitute? name = some s := by
    simp [Builder.ofModel, Config.substitute?, hname]
  have hsurvivors : World.survivors (Builder.ofModel [(name, s)]).config
      ⟨[Catalog.memberOf .field name t false]⟩ = [Catalog.memberOf .field name t false] := by
    simp [World.survivors, Catalog.members, Catalog.memberOf, Builder.ofModel, Config.ignores, ht]
  cases k with
  | mode => exact .inl rfl
  | ignored => exact fun n hn => absurd hn List.not_mem_nil
  | substituted =>
    intro n hn
    obtain rfl := List.mem_singleton.mp hn
    exact ⟨_, hsurvivors ▸ List.mem_singleton.mpr rfl, hname⟩
  | accepted => exact absurd rfl hk
  | supported =>
    intro m hm hnone
    rw [hsurvivors] at hm
    obtain rfl := List.mem_singleton.mp hm
    rw [show (Catalog.memberOf .field name t false).name = name from rfl, hsub] at hnone
    cases hnone
  | distinct =>
    show ((World.survivors _ _).map Member.name).Nodup
    rw [hsurvivors]
    exact List.nodup_singleton _

end RecordText
