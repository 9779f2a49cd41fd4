/-
Nothing depends on how a type is spelled.

Equal types have the same strategy, they allow for the absent value alike, and they fit alike.  So
when the members of a class and the substitutes of a builder are declared with types that are equal
to the ones they had, the class is built as before, and its instances are written as before.

* `Hierarchy.strategy_of_same` — equal types are written alike;
* `Hierarchy.Agree` — two types that are equal for every question that is asked about them;
* `World.Respelling` — the same build with its types spelled anew;
* `spelling_immaterial` — **equal types agree, and a build with its types spelled anew writes what
  it wrote**, as long as no literal value meets a class that refuses comparison.
-/
import RecordText.Proofs.Interchange
import RecordText.Proofs.Wrappers
import RecordText.Proofs.Fragments

namespace RecordText

/-! ### Strategies of equal types -/

namespace Ty

variable {t u x : Ty} {ts us : List Ty}

theorem isNoneType_of_same (h : t.same u = true) : t.isNoneType = u.isNoneType :=
  congr_of_same _ (fun t => by cases t <;> rfl) h

theorem isAnnotated_of_same (h : t.same u = true) : t.isAnnotated = u.isAnnotated :=
  congr_of_same _ (fun t => by cases t <;> rfl) h

theorem isUnion_of_same (h : t.same u = true) : t.isUnion = u.isUnion :=
  congr_of_same _ (fun t => by cases t <;> rfl) h

theorem SameMembers.symm (h : SameMembers ts us) : SameMembers us ts := by
  refine ⟨fun u hu => ?_, fun t ht => ?_⟩
  · obtain ⟨t, ht, hsame⟩ := h.2 u hu
    exact ⟨t, ht, same_symm t u hsame⟩
  · obtain ⟨u, hu, hsame⟩ := h.1 t ht
    exact ⟨u, hu, same_symm t u hsame⟩

theorem mem_present : t ∈ present ts ↔ t ∈ ts ∧ t.isNoneType = false := by
  simp [present]

/-- Distinct types that all equal the same one are a single type. -/
theorem eq_singleton_of_distinct (hne : us ≠ []) (hd : Distinct us)
    (hall : ∀ y ∈ us, x.same y = true) : ∃ y, us = [y] ∧ x.same y = true := by
  match us, hne, hd, hall with
  | [y], _, _, hall => exact ⟨y, rfl, hall y List.mem_cons_self⟩
  | y :: z :: _, _, hd, hall =>
    have hyz := same_trans _ _ _ (same_symm _ _ (hall y (by simp))) (hall z (by simp))
    rw [List.rel_of_pairwise_cons hd List.mem_cons_self] at hyz
    cases hyz

/-- A single type beside the absent value has its equal where the members are equal. -/
theorem present_of_sameMembers (h : SameMembers ts us) (hus : IsJoined us)
    (hts : present ts = [x]) : ∃ y, present us = [y] ∧ x.same y = true := by
  refine eq_singleton_of_distinct (Hierarchy.present_ne_nil hus)
    (hus.distinct.sublist List.filter_sublist) fun y hy => ?_
  obtain ⟨hy, hnone⟩ := mem_present.mp hy
  obtain ⟨t, ht, hsame⟩ := h.2 y hy
  have hmem : t ∈ present ts := mem_present.mpr ⟨ht, isNoneType_of_same hsame ▸ hnone⟩
  rw [hts, List.mem_singleton] at hmem
  exact hmem ▸ hsame

theorem optionOf_of_sameMembers (h : SameMembers ts us) (hus : IsJoined us)
    (hx : optionOf ts = some x) : ∃ y, optionOf us = some y ∧ x.same y = true := by
  obtain ⟨hts, hann⟩ := present_of_optionOf hx
  obtain ⟨y, hy, hsame⟩ := present_of_sameMembers h hus hts
  exact ⟨y, optionOf_eq_some hy (isAnnotated_of_same hsame ▸ hann), hsame⟩

end Ty

namespace Hierarchy

variable {H : Hierarchy} {t u : Ty} {ts us : List Ty}

theorem isIterable_of_not_newType (H : Hierarchy) (ht : t.isNewType = false) :
    H.isIterable t = match t.originClass? with
      | none => false
      | some c => !H.belowAny c [.str, .model] &&
          (H.belowAny c arrayClasses || H.belowAny c [.abcIterable]) := by
  cases t with
  | newType => cases ht
  | _ => rfl

theorem isIterable_of_same (H : Hierarchy) (t u : Ty) (h : t.same u = true) :
    H.isIterable t = H.isIterable u := by
  cases t with
  | newType i g b =>
    cases u with
    | newType j k c =>
      rw [isIterable, isIterable]
      exact H.isIterable_of_same b c (Bool.and_eq_true_iff.mp h).2
    | _ => cases h
  | _ =>
    have hu : u.isNewType = false := (Ty.isNewType_of_same h).symm
    rw [H.isIterable_of_not_newType hu, H.isIterable_of_not_newType rfl,
      Ty.originClass?_of_same h]
termination_by structural t

theorem strategyOfBare_of_same (H : Hierarchy) (h : t.same u = true) :
    H.strategyOfBare t = H.strategyOfBare u := by
  have hprimitive : H.isPrimitive t = H.isPrimitive u :=
    Ty.congr_of_same _ (fun t => by cases t <;> rfl) h
  have hchar : t.isChar = u.isChar := Ty.congr_of_same _ (fun t => by cases t <;> rfl) h
  have hstr : t.isStr = u.isStr := Ty.congr_of_same _ (fun t => by cases t <;> rfl) h
  rw [strategyOfBare, strategyOfBare, hprimitive, hchar, hstr, Ty.isAny_of_same h,
    H.isIterable_of_same t u h]

theorem strategy_option_of_sameMembers (H : Hierarchy) (h : Ty.SameMembers ts us)
    (hts : Ty.IsJoined ts) (hus : Ty.IsJoined us) :
    (Ty.optionOf ts).map H.strategyOfBare = (Ty.optionOf us).map H.strategyOfBare := by
  cases hx : Ty.optionOf ts with
  | some x =>
    obtain ⟨y, hy, hsame⟩ := Ty.optionOf_of_sameMembers h hus hx
    rw [hy, Option.map_some, Option.map_some, H.strategyOfBare_of_same hsame]
  | none =>
    cases hy : Ty.optionOf us with
    | none => rfl
    | some y =>
      obtain ⟨x, hx', -⟩ := Ty.optionOf_of_sameMembers h.symm hts hy
      rw [hx] at hx'
      cases hx'

/-- The strategy of a union by its members. -/
theorem strategy_of_members {s : UnionSpelling} (ht : t.core = .union s ts) (h : Ty.IsJoined ts) :
    H.strategy t = ((Ty.optionOf ts).map H.strategyOfBare).getD .object := by
  rw [strategy_of_isJoined ht h, Ty.option?, ht]

/-- **Equal types have the same strategy.** -/
theorem strategy_of_same (H : Hierarchy) (h : t.same u = true) (ht : t.Proper) (hu : u.Proper) :
    H.strategy t = H.strategy u := by
  have hcore := Ty.core_same t u h
  cases hc : t.core.isUnion with
  | false =>
    rw [strategy_of_not_union hc, strategy_of_not_union (Ty.isUnion_of_same hcore ▸ hc),
      H.strategyOfBare_of_same hcore]
  | true =>
    generalize hct : t.core = a at hcore hc
    generalize hcu : u.core = b at hcore
    cases a with
    | union s ts =>
      cases b with
      | union r us =>
        have hts := ht s ts hct
        have hus := hu r us hcu
        have hoption := H.strategy_option_of_sameMembers (Ty.same_union_iff.mp hcore) hts hus
        rw [strategy_of_members hct hts, strategy_of_members hcu hus, hoption]
      | _ => cases hcore
    | _ => cases hc

end Hierarchy

/-- A union allows for the absent value if that is one of its members. -/
theorem Ty.stripOptional_snd (s : UnionSpelling) (ts : List Ty) :
    (Ty.union s ts).stripOptional.2 = ts.any Ty.isNoneType := by
  have hlength : (ts.filter fun t => !t.isNoneType).length = ts.length ↔
      ts.any Ty.isNoneType = false := by
    simp [List.length_filter_eq_length_iff]
  unfold stripOptional
  dsimp only
  split
  · next h => exact (hlength.mp h).symm
  · next h =>
    rw [(Bool.not_eq_false _).mp (mt hlength.mpr h)]
    split <;> rfl

/-- **Equal types allow for the absent value alike.** -/
theorem Writer.allowsAbsent_of_same {t u : Ty} (h : t.same u = true) :
    allowsAbsent t = allowsAbsent u := by
  have hcore := Ty.core_same t u h
  unfold allowsAbsent
  generalize t.core = a at hcore
  generalize u.core = b at hcore
  cases a with
  | union s ts =>
    cases b with
    | union r us =>
      obtain ⟨hts, hus⟩ := Ty.same_union_iff.mp hcore
      rw [Ty.stripOptional_snd, Ty.stripOptional_snd, Bool.eq_iff_iff, List.any_eq_true,
        List.any_eq_true]
      constructor
      · rintro ⟨t, ht, hnone⟩
        obtain ⟨u, hu, hsame⟩ := hts t ht
        exact ⟨u, hu, Ty.isNoneType_of_same hsame ▸ hnone⟩
      · rintro ⟨u, hu, hnone⟩
        obtain ⟨t, ht, hsame⟩ := hus u hu
        exact ⟨t, ht, Ty.isNoneType_of_same hsame ▸ hnone⟩
    | _ => cases hcore
  | _ =>
    cases b with
    | union => cases Ty.isUnion_of_same hcore
    | _ => rfl

/-! ### Lists, member by member -/

section

variable {α β : Type} {R : α → β → Prop} {p : α → Prop} {q : β → Prop} {xs : List α} {ys : List β}

theorem forall_mem_congr₂ (h : List.Forall₂ R xs ys) (hpq : ∀ x y, R x y → (p x ↔ q y)) :
    (∀ x ∈ xs, p x) ↔ ∀ y ∈ ys, q y := by
  induction h with
  | nil => simp
  | cons hxy _ ih => rw [List.forall_mem_cons, List.forall_mem_cons, hpq _ _ hxy, ih]

theorem exists_mem_congr₂ (h : List.Forall₂ R xs ys) (hpq : ∀ x y, R x y → (p x ↔ q y)) :
    (∃ x ∈ xs, p x) ↔ ∃ y ∈ ys, q y := by
  induction h with
  | nil => simp
  | cons hxy _ ih => rw [List.exists_mem_cons_iff, List.exists_mem_cons_iff, hpq _ _ hxy, ih]

theorem map_congr₂ {γ : Type} {f : α → γ} {g : β → γ} (h : List.Forall₂ R xs ys)
    (hfg : ∀ x y, R x y → f x = g y) : xs.map f = ys.map g := by
  induction h with
  | nil => rfl
  | cons hxy _ ih => rw [List.map_cons, List.map_cons, hfg _ _ hxy, ih]

theorem mapM_congr₂ {ε γ : Type} {f : α → Except ε γ} {g : β → Except ε γ}
    (h : List.Forall₂ R xs ys) (hfg : ∀ x y, R x y → f x = g y) : xs.mapM f = ys.mapM g := by
  induction h with
  | nil => rfl
  | cons hxy _ ih => rw [List.mapM_cons, List.mapM_cons, hfg _ _ hxy, ih]

end

/-! ### The same build in other words -/

/-- The same member, declared with an equal type. Both types are some that can be made. -/
structure Member.Respells (m m' : Member) : Prop where
  name : m.name = m'.name
  ignored : m.ignored = m'.ignored
  declared : m.declared.same m'.declared = true
  proper : m.declared.Proper
  proper' : m'.declared.Proper

/-- The same substitute, which accepts an equal type. -/
structure Substitute.Respells (W W' : World) (s s' : Substitute) : Prop where
  applied : ∀ B v, s.function.apply B v = s'.function.apply B v
  accepted : ∃ t t', W.acceptedType s = .ok t ∧ W'.acceptedType s' = .ok t' ∧ t.same t' = true

/-- The same names with the same substitutes, which accept equal types. -/
structure Config.Respells (W W' : World) (c c' : Config) : Prop where
  useFields : c.useFields = c'.useFields
  useProperties : c.useProperties = c'.useProperties
  ignored : c.ignored = c'.ignored
  substitutes : List.Forall₂ (fun e e' => e.1 = e'.1 ∧ e.2.Respells W W' e'.2) c.substitutes
    c'.substitutes

/-- Two builds that differ in the spelling of types alone: those of the candidates, and those that
the substitutes accept. -/
structure World.Respelling (W W' : World) (b b' : Builder) (catalog catalog' : Catalog) : Prop where
  hierarchy : W.hierarchy = W'.hierarchy
  settings : b.settings = b'.settings
  config : b.config.Respells W W' b'.config
  candidates : List.Forall₂ Member.Respells catalog.candidates catalog'.candidates

/-- Every surviving member can meet the type that its substitute accepts. -/
def World.Meets (W : World) (b : Builder) (catalog : Catalog) : Prop :=
  ∀ m ∈ survivors b.config catalog, ∀ s, b.config.substitute? m.name = some s →
    ∀ t, W.acceptedType s = .ok t → m.declared.CanMeet t

namespace Config.Respells

variable {W W' : World} {c c' : Config} {name : String} {s : Substitute}

/-- A name has a substitute in both configurations, and it is the same one, or it has none. -/
theorem substitute? (h : c.Respells W W' c') (name : String) :
    Option.Rel (Substitute.Respells W W') (c.substitute? name) (c'.substitute? name) := by
  have hrel := h.substitutes
  simp only [Config.substitute?]
  generalize c.substitutes = es at hrel
  generalize c'.substitutes = es' at hrel
  induction hrel with
  | nil => exact .none
  | @cons e e' _ _ he _ ih =>
    rw [List.find?_cons, List.find?_cons, ← he.1]
    cases e.1.matches name with
    | true => exact .some he.2
    | false => exact ih

theorem substitute?_eq_none_iff (h : c.Respells W W' c') :
    c.substitute? name = none ↔ c'.substitute? name = none := by
  have hrel := h.substitute? name
  generalize c.substitute? name = o at hrel
  generalize c'.substitute? name = o' at hrel
  cases hrel <;> simp

theorem exists_substitute (h : c.Respells W W' c') (hs : c.substitute? name = some s) :
    ∃ s', c'.substitute? name = some s' ∧ s.Respells W W' s' := by
  have hrel := h.substitute? name
  rw [hs] at hrel
  generalize c'.substitute? name = o' at hrel
  cases hrel with
  | some hsub => exact ⟨_, rfl, hsub⟩

end Config.Respells

namespace World

variable {W W' : World} {b b' : Builder} {c c' : Config} {catalog catalog' : Catalog}
  {m m' : Member} {notes notes' : List Note}

theorem Respelling.survivors (h : Respelling W W' b b' catalog catalog') :
    List.Forall₂ Member.Respells (survivors b.config catalog) (survivors b'.config catalog') := by
  have hmembers : List.Forall₂ Member.Respells catalog.members catalog'.members :=
    List.rel_filter (fun m m' hm => by simp [hm.ignored]) h.candidates
  refine List.rel_filter (fun m m' hm => ?_) hmembers
  simp [Config.ignores, h.config.ignored, hm.name]

theorem accepts_of_respells (hH : W.hierarchy = W'.hierarchy) (hc : c.Respells W W' c')
    (hm : m.Respells m')
    (hmeets : ∀ s, c.substitute? m.name = some s → ∀ t, W.acceptedType s = .ok t →
      m.declared.CanMeet t) : W.Accepts c m ↔ W'.Accepts c' m' := by
  unfold Accepts
  rw [← hm.name]
  cases hs : c.substitute? m.name with
  | none => simp [hc.substitute?_eq_none_iff.mp hs]
  | some s =>
    obtain ⟨s', hs', hsub⟩ := hc.exists_substitute hs
    obtain ⟨t, t', ht, ht', hsame⟩ := hsub.accepted
    have heq := W.hierarchy.assignable_of_same (hmeets s hs t ht) hm.declared hsame
    rw [hH] at heq
    simp [hs', ht, ht', hH, heq]

/-- What is asked of the members and of the substitutes has the same answers. -/
theorem Respelling.holds_iff (h : Respelling W W' b b' catalog catalog')
    (hmeets : W.Meets b catalog) (k : Condition) :
    k.Holds W b catalog ↔ k.Holds W' b' catalog' := by
  have hnames : b.config.substitutes.map Prod.fst = b'.config.substitutes.map Prod.fst :=
    map_congr₂ h.config.substitutes fun e e' he => he.1
  cases k with
  | mode =>
    show _ = true ∨ _ = true ↔ _ = true ∨ _ = true
    rw [h.config.useFields, h.config.useProperties]
  | ignored =>
    show (∀ n ∈ b.config.ignored, _) ↔ ∀ n ∈ b'.config.ignored, _
    rw [h.config.ignored]
    exact forall₂_congr fun n _ => exists_mem_congr₂ h.candidates fun m m' hm => by rw [hm.name]
  | substituted =>
    show (∀ n ∈ b.config.substitutes.map Prod.fst, _) ↔
      ∀ n ∈ b'.config.substitutes.map Prod.fst, _
    rw [hnames]
    exact forall₂_congr fun n _ => exists_mem_congr₂ h.survivors fun m m' hm => by rw [hm.name]
  | accepted =>
    have hall := (List.forall₂_and_left _ _).mpr ⟨hmeets, h.survivors⟩
    exact forall_mem_congr₂ hall fun m m' hm =>
      accepts_of_respells h.hierarchy h.config hm.2 hm.1
  | supported =>
    refine forall_mem_congr₂ h.survivors fun m m' hm => ?_
    rw [h.config.substitute?_eq_none_iff, hm.name, h.hierarchy,
      W'.hierarchy.strategy_of_same hm.declared hm.proper hm.proper']
  | distinct =>
    have hmap := map_congr₂ h.survivors fun m m' hm => hm.name
    show List.Nodup _ ↔ List.Nodup _
    rw [hmap]

/-- A member that is declared with an equal type has the same fragment. -/
theorem fragment_of_respells (hH : W.hierarchy = W'.hierarchy) (hc : c.Respells W W' c')
    (hm : m.Respells m') (B : Behaviour) (x : Value) :
    W.fragment c B x m = W'.fragment c' B x m' := by
  have hread : m.read B x = m'.read B x := by rw [Member.read, Member.read, hm.name]
  cases hs : c.substitute? m.name with
  | none =>
    have hs' : c'.substitute? m'.name = none := hm.name ▸ hc.substitute?_eq_none_iff.mp hs
    have hleaves (k : Strategy) : k.leavesOut m.declared = k.leavesOut m'.declared := by
      cases k with
      | primitive => exact Writer.allowsAbsent_of_same hm.declared
      | _ => rfl
    rw [fragment_of_no_substitute hs, fragment_of_no_substitute hs', hread, hH, hleaves,
      W'.hierarchy.strategy_of_same hm.declared hm.proper hm.proper']
  | some s =>
    obtain ⟨s', hs', hsub⟩ := hc.exists_substitute hs
    rw [hm.name] at hs'
    rw [fragment_of_substitute hs, fragment_of_substitute hs', hread]
    simp only [hsub.applied]

/-- The order between classes depends on what the classes are below, on what they bring and on
whether they compare their instances. -/
theorem hierarchy_congr (hlineage : W.lineage = W'.lineage) (hlayer : W.layerOf = W'.layerOf)
    (hcompares : W.compares = W'.compares) : W.hierarchy = W'.hierarchy := by
  have hopinion : W.opinion? = W'.opinion? := by
    funext method c
    cases c with
    | known => rfl
    | defined => rw [opinion?, opinion?, hlayer]
  have hkey : W.keyOpinion? = W'.keyOpinion? := by
    funext c
    cases c with
    | known => rfl
    | defined => rw [keyOpinion?, keyOpinion?, hlayer, hcompares]
  unfold hierarchy belowKnown provides isHashable
  rw [hlineage, hopinion, hkey]

/-- **A build with its types spelled anew succeeds when it did, and writes what it wrote.** -/
theorem Respelling.build (h : Respelling W W' b b' catalog catalog')
    (hc : W.catalog b.target b.config.useFields b.config.useProperties = .ok (catalog, notes))
    (hc' : W'.catalog b'.target b'.config.useFields b'.config.useProperties =
      .ok (catalog', notes')) (hmeets : W.Meets b catalog) :
    ((∃ r, W.build b = .ok r) ↔ ∃ r', W'.build b' = .ok r') ∧
      ∀ r ns r' ns', W.build b = .ok (r, ns) → W'.build b' = .ok (r', ns') →
        ∀ B x, r.render B x = r'.render B x := by
  constructor
  · simp only [build_eq_ok_iff hc, build_eq_ok_iff hc', h.holds_iff hmeets]
    simp
  · intro r ns r' ns' hb hb' B x
    have hpairs : W.pairs b.config B x (World.survivors b.config catalog) =
        W'.pairs b'.config B x (World.survivors b'.config catalog') :=
      mapM_congr₂ h.survivors fun m m' hm => by
        rw [hm.name, fragment_of_respells h.hierarchy h.config hm]
    rw [render_eq hb hc, render_eq hb' hc', hpairs, h.settings]

end World

/-! ### The main statement -/

/-- Two types that are equal for every question that is asked about them. Where a literal value
meets a class that refuses comparison, there may be no answer for one of them. -/
structure Hierarchy.Agree (H : Hierarchy) (t u : Ty) : Prop where
  strategy : H.strategy t = H.strategy u
  absent : Writer.allowsAbsent t = Writer.allowsAbsent u
  fits : ∀ x, Compatible (H.assignable t x) (H.assignable u x)
  fits_of_canMeet : ∀ x, t.CanMeet x → H.assignable t x = H.assignable u x
  fitted : ∀ x, Compatible (H.assignable x t) (H.assignable x u)
  fitted_of_canMeet : ∀ x, x.CanMeet t → H.assignable x t = H.assignable x u

/-- **Equal types agree.** -/
theorem Hierarchy.agree_of_same (H : Hierarchy) {t u : Ty} (h : t.same u = true) (ht : t.Proper)
    (hu : u.Proper) : H.Agree t u where
  strategy := H.strategy_of_same h ht hu
  absent := Writer.allowsAbsent_of_same h
  fits x := H.assignable_compatible h x.same_self
  fits_of_canMeet x hx := H.assignable_of_same hx h x.same_self
  fitted x := H.assignable_compatible x.same_self h
  fitted_of_canMeet x hx := H.assignable_of_same hx x.same_self h

/-- **Nothing depends on how a type is spelled.**  Equal types are written alike and fit alike, and
a build whose types are spelled anew succeeds when it did and writes what it wrote.  The only
exception are literal values that meet a class that refuses comparison: there the order in which
the members of a union are tried decides whether there is an answer. -/
theorem spelling_immaterial (W : World) :
    (∀ t u : Ty, t.same u = true → t.Proper → u.Proper → W.hierarchy.Agree t u) ∧
    ∀ (W' : World) (b b' : Builder) (catalog catalog' : Catalog) (notes notes' : List Note),
      W.catalog b.target b.config.useFields b.config.useProperties = .ok (catalog, notes) →
      W'.catalog b'.target b'.config.useFields b'.config.useProperties = .ok (catalog', notes') →
      World.Respelling W W' b b' catalog catalog' → W.Meets b catalog →
      ((∃ r, W.build b = .ok r) ↔ ∃ r', W'.build b' = .ok r') ∧
        ∀ r ns r' ns', W.build b = .ok (r, ns) → W'.build b' = .ok (r', ns') →
          ∀ B x, r.render B x = r'.render B x := by
  constructor
  · intro t u h ht hu
    exact W.hierarchy.agree_of_same h ht hu
  · intro W' b b' catalog catalog' notes notes' hc hc' h hmeets
    exact h.build hc hc' hmeets

/-! ### A flag and a note -/

/-- A number or a text, in two spellings. -/
def numberOrText : Ty := .union .form [.cls (.known .int), Ty.str]

@[inherit_doc numberOrText] def textOrNumber : Ty := .union .bars [Ty.str, .cls (.known .int)]

/-- An optional text with bars. -/
def barredText : Ty := .union .bars [Ty.noneType, Ty.str]

/-- The fields of a model with a flag and a note. -/
def flagAndNote (note : Ty) : List (String × Ty) := [("flag", .cls (.known .bool)), ("note", note)]

/-- A world with this model. -/
def noteWorld (note : Ty) : World := .ofModel (flagAndNote note)

/-- The candidates of the model. -/
def noteCatalog (note : Ty) : Catalog :=
  ⟨(flagAndNote note).map fun e => Catalog.memberOf .field e.1 e.2 false⟩

/-- A builder for the model, with a substitute for the flag. -/
def noteBuilder (input : Ty) : Builder := .ofModel [("flag", ⟨.builtin .text, some input⟩)]

theorem exists_catalog_note (note input : Ty) : ∃ notes,
    (noteWorld note).catalog (noteBuilder input).target (noteBuilder input).config.useFields
      (noteBuilder input).config.useProperties = .ok (noteCatalog note, notes) :=
  World.catalog_ofModel (flagAndNote note) (by simp [flagAndNote, isPrivate])

theorem proper_optionalText : optionalText.Proper := by
  intro s ts h
  cases h
  exact ⟨by decide, by decide, by decide⟩

theorem proper_barredText : barredText.Proper := by
  intro s ts h
  cases h
  exact ⟨by decide, by decide, by decide⟩

/-- A truth value is a number, so it fits. -/
theorem assignable_bool_numberOrText (H : Hierarchy) (hle : H.below (.known .bool) (.known .int)) :
    H.assignable (.cls (.known .bool)) numberOrText = .ok true := by
  have hint : H.assignable (.cls (.known .bool)) (.cls (.known .int)) = .ok true := by
    rw [H.assignable_basic rfl rfl (by simp [Ty.any]) rfl]
    simp [Hierarchy.asClass, Hierarchy.assignableLeaf, Ty.originClass?, Hierarchy.subclass?,
      Hierarchy.refuses, hle]
  rw [numberOrText, H.assignable_union_target rfl (by simp [Ty.any]), Hierarchy.assignableAny, hint]
  rfl

/-- The order between classes is the same for all models of this kind. -/
theorem hierarchy_ofModel (fields fields' : List (String × Ty)) :
    (World.ofModel fields).hierarchy = (World.ofModel fields').hierarchy := by
  have hclass (id : Ident) : ((World.ofModel fields).class? id).map Class.lineage =
        ((World.ofModel fields').class? id).map Class.lineage ∧
      ((World.ofModel fields).class? id).map Class.layer =
        ((World.ofModel fields').class? id).map Class.layer ∧
      ((World.ofModel fields).class? id).map Class.comparesFields =
        ((World.ofModel fields').class? id).map Class.comparesFields := by
    simp only [World.class?, World.ofModel, List.find?_cons]
    cases modelIdent == id <;> exact ⟨rfl, rfl, rfl⟩
  have hlayer : (World.ofModel fields).layerOf = (World.ofModel fields').layerOf := by
    funext c
    cases c with
    | known => rfl
    | defined id => exact congrArg (Option.getD · _) (hclass id).2.1
  refine World.hierarchy_congr (funext fun c => ?_) hlayer (funext fun id => ?_)
  · cases c with
    | known => rfl
    | defined id => exact congrArg (Option.getD · _) (hclass id).1
  · rw [World.compares, World.compares, hlayer, (hclass id).2.2]

/-- The model with the flag and the note, and the same one in other words. -/
theorem respelling_note : World.Respelling (noteWorld optionalText) (noteWorld barredText)
    (noteBuilder numberOrText) (noteBuilder textOrNumber) (noteCatalog optionalText)
    (noteCatalog barredText) where
  hierarchy := hierarchy_ofModel _ _
  settings := rfl
  config := ⟨rfl, rfl, rfl, .cons ⟨rfl, ⟨fun _ _ => rfl, _, _, rfl, rfl, by decide⟩⟩ .nil⟩
  candidates := by
    refine .cons ⟨rfl, rfl, by decide, ?_, ?_⟩
      (.cons ⟨rfl, rfl, by decide, proper_optionalText, proper_barredText⟩ .nil) <;>
    exact fun s ts h => by cases h

theorem holds_note (k : Condition) :
    k.Holds (noteWorld optionalText) (noteBuilder numberOrText) (noteCatalog optionalText) := by
  cases k with
  | mode => exact .inl rfl
  | ignored => exact fun n hn => absurd hn List.not_mem_nil
  | substituted =>
    intro n hn
    obtain rfl := List.mem_singleton.mp hn
    exact ⟨_, List.mem_cons_self, by decide⟩
  | accepted =>
    refine List.forall_mem_cons.mpr ⟨fun s hs => ?_, fun m hm s hs => ?_⟩
    · cases hs
      exact ⟨_, rfl, assignable_bool_numberOrText _ rfl⟩
    · obtain rfl := List.mem_singleton.mp hm
      cases hs
  | supported =>
    refine List.forall_mem_cons.mpr ⟨fun hs => ?_, fun m hm _ => ?_⟩
    · cases hs
    · obtain rfl := List.mem_singleton.mp hm
      decide
  | distinct => exact (by decide : ["flag", "note"].Nodup)

/-- No member of the model holds literal values. -/
theorem meets_note :
    (noteWorld optionalText).Meets (noteBuilder numberOrText) (noteCatalog optionalText) := by
  refine List.forall_mem_cons.mpr ⟨fun _ _ _ _ => .inl rfl, fun m hm _ _ _ _ => ?_⟩
  obtain rfl := List.mem_singleton.mp hm
  exact .inl rfl

theorem spelling_immaterial_note :
    (noteWorld optionalText).hierarchy.Agree optionalText barredText ∧ ∃ r ns r' ns',
      (noteWorld optionalText).build (noteBuilder numberOrText) = .ok (r, ns) ∧
      (noteWorld barredText).build (noteBuilder textOrNumber) = .ok (r', ns') ∧
      ∀ B x, r.render B x = r'.render B x := by
  obtain ⟨notes, hc⟩ := exists_catalog_note optionalText numberOrText
  obtain ⟨notes', hc'⟩ := exists_catalog_note barredText textOrNumber
  obtain ⟨hagree, hspelled⟩ := spelling_immaterial (noteWorld optionalText)
  obtain ⟨hbuild, hrender⟩ := hspelled _ _ _ _ _ _ _ hc hc' respelling_note meets_note
  have hb := (World.build_eq_ok_iff hc).mpr ⟨holds_note, rfl⟩
  obtain ⟨⟨r', ns'⟩, hb'⟩ := hbuild.mp ⟨_, hb⟩
  exact ⟨hagree _ _ (by decide) proper_optionalText proper_barredText,
    _, _, r', ns', hb, hb', hrender _ _ _ _ hb hb'⟩

end RecordText
