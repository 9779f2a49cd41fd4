/-
One annotation that cannot be resolved.

The first annotation that cannot be resolved makes all others be resolved once more, on the second
way.  There a text is resolved by itself, with the attributes of its class before all other names,
and a type is reported as it was written.  So an annotation is reported as before when both ways
agree on it (`Placed.Steady`): a text that leads to nothing which the class takes differently, or a
type that holds no references.  A type that does hold some keeps them.

* `Site` — a class of a lineage or a getter, with a place for one more annotation;
* `Site.Unaffected` — what such an annotation leaves as it was;
* `unresolved_alone` — **an annotation that cannot be resolved changes no annotation on which both
  ways agree.**
-/
import RecordText.Catalog
import RecordText.Proofs.Faults
import RecordText.Proofs.Hints
import RecordText.Proofs.References

namespace RecordText

/-- What an annotation that cannot be resolved is reported as: a text as the universal type, and
any other type as it was written. -/
def Ty.unresolved : Ty → Ty
  | .text _ => any
  | t => t

/-! ### Annotations -/

namespace Scope

variable (S : Scope) {t u : Ty}

theorem resolveApart_of_ne_text (h : ∀ s, t ≠ .text s) : S.resolveApart t = .ok t := by
  unfold resolveApart
  split
  · exact absurd rfl (h _)
  · rfl

/-- A type without references is resolved to itself, or the absent value to its class. -/
theorem resolve_of_isClosed (h : ∀ s, t ≠ .text s) (hc : t.isClosed = true) {b : Bool}
    (hu : S.resolve b t = .ok u) : Hierarchy.asClass t = Hierarchy.asClass u := by
  unfold resolve at hu
  split at hu
  · obtain rfl := Except.ok.inj hu
    rfl
  · exact absurd rfl (h _)
  · rw [Ty.expand_of_isClosed _ _ t hc] at hu
    obtain rfl := Except.ok.inj hu
    rfl

end Scope

namespace Placed

variable {S : Scope} {p : Placed} {allow : Bool} {t : Ty}

/-- An annotation that is resolved on neither way. On the second way only texts are resolved. -/
structure Unresolvable (S : Scope) (allow : Bool) (p : Placed) : Prop where
  before : ∃ f, p.resolve S allow = .error f ∧ f.isUnresolved = true
  after : ∀ s, p.type = .text s →
    ∃ f, (p.after S).resolve true (.text s) = .error f ∧ f.isUnresolved = true

/-- An annotation on which both ways agree: a text leads to no text that denotes something else with
the attributes of the class before all other names, and a type that is no text holds no
references. -/
structure Steady (S : Scope) (p : Placed) : Prop where
  text : ∀ s, p.type = .text s → ∀ u, (p.before S).Reaches s u →
    (p.before S).denote (Ty.referenceSource u) = (p.after S).denote (Ty.referenceSource u)
  closed : (∀ s, p.type ≠ .text s) → p.type.isClosed = true

/-- On both ways texts are read in the language of the scope. -/
theorem language_before (S : Scope) (p : Placed) :
    (p.before S).language = (p.after S).language := rfl

/-- Both ways agree on a steady annotation, up to the absent value and its class. -/
theorem Steady.resolveApart (h : p.Steady S) (ht : p.resolve S allow = .ok t) :
    ∃ u, p.resolveApart S = .ok u ∧ Hierarchy.asClass u = Hierarchy.asClass t := by
  obtain ⟨attributes, name, type⟩ := p
  by_cases htext : ∃ s, type = .text s
  · obtain ⟨s, rfl⟩ := htext
    have hafter : (Placed.after S ⟨attributes, name, .text s⟩).resolve allow (.text s) = .ok t := by
      rw [← ht, Placed.resolve]
      exact (Scope.resolve_text_congr (language_before S _) (h.text s rfl) allow).symm
    refine ⟨t, ?_, rfl⟩
    rw [Placed.resolveApart, Scope.resolveApart]
    cases allow with
    | true => rw [hafter]; rfl
    | false => rw [Scope.resolve_text_allow hafter]; rfl
  · have htext : ∀ s, type ≠ .text s := fun s hs => htext ⟨s, hs⟩
    exact ⟨type, Scope.resolveApart_of_ne_text _ htext,
      Scope.resolve_of_isClosed _ htext (h.closed htext) ht⟩

theorem Unresolvable.resolveApart (h : p.Unresolvable S allow) :
    p.resolveApart S = .ok p.type.unresolved := by
  obtain ⟨attributes, name, type⟩ := p
  cases type with
  | text s =>
    obtain ⟨f, hf, hu⟩ := h.after s rfl
    rw [Placed.resolveApart, Scope.resolveApart, hf]
    exact if_pos hu
  | _ => rfl

end Placed

/-! ### Hints -/

namespace Scope

variable {S : Scope} {allow : Bool} {ps qs : List Placed} {e : Placed} {hs : List (String × Ty)}

/-- With an annotation that cannot be resolved, the second way is taken. -/
theorem hintsOf_append_cons (h : S.hintsOf allow (ps ++ qs) = .ok hs)
    (he : e.Unresolvable S allow) :
    S.hintsOf allow (ps ++ e :: qs) =
      gather Placed.name (Placed.resolveApart S) [] (ps ++ e :: qs) := by
  obtain ⟨f, hf, hu⟩ := he.before
  have hfirst : ∃ g, gather Placed.name (Placed.resolve S allow) [] (ps ++ e :: qs) = .error g ∧
      g.isUnresolved = true := by
    rw [gather_append]
    cases hps : gather Placed.name (Placed.resolve S allow) [] ps with
    | ok hs' => exact ⟨f, gather_cons_of_error hf hs', hu⟩
    -- an annotation before it could not be resolved either
    | error g =>
      refine ⟨g, rfl, ?_⟩
      have hg : gather Placed.name (Placed.resolve S allow) [] (ps ++ qs) = .error g := by
        rw [gather_append, hps]
        rfl
      rcases hintsOf_eq_ok h with hr | ⟨⟨g', hg', hu'⟩, -⟩
      · cases hg.symm.trans hr
      · obtain rfl := Except.error.inj (hg.symm.trans hg')
        exact hu'
  obtain ⟨g, hg, hu⟩ := hfirst
  rw [hintsOf, hg]
  exact if_pos hu

/-- Whether the type of a name is the same on both ways, or the second one is taken anyway. -/
def SteadyName (S : Scope) (allow : Bool) (ps : List Placed) (x : String) : Prop :=
  (∃ p ∈ ps, ∃ f, p.resolve S allow = .error f) ∨
    ∀ p, latest? Placed.name x ps = some p → p.Steady S

variable {hs' : List (String × Ty)}

theorem lookup_of_steadyName (h : S.hintsOf allow (ps ++ qs) = .ok hs)
    (h' : gather Placed.name (Placed.resolveApart S) [] (ps ++ e :: qs) = .ok hs') {x : String}
    (hx : x ≠ e.name) (hsteady : S.SteadyName allow (ps ++ qs) x) :
    (hs'.lookup x).map Hierarchy.asClass = (hs.lookup x).map Hierarchy.asClass := by
  have hlatest := latest?_append_cons (Ne.symm hx) ps qs
  cases hl : latest? Placed.name x (ps ++ qs) with
  | none =>
    rw [lookup_gather_of_none h' (hlatest.trans hl)]
    rcases hintsOf_eq_ok h with hr | ⟨-, hr⟩
    · rw [lookup_gather_of_none hr hl]
    · rw [lookup_gather_of_none hr hl]
  | some p =>
    obtain ⟨u, hu, hlookup'⟩ := lookup_gather h' (hlatest.trans hl)
    rcases hintsOf_eq_ok h with hr | ⟨-, hr⟩
    · obtain ⟨t, ht, hlookup⟩ := lookup_gather hr hl
      -- every annotation was resolved, so it is this one that has to be steady
      have hp : p.Steady S := by
        rcases hsteady with ⟨q, hq, f, hf⟩ | hp
        · obtain ⟨v, hv⟩ := exists_of_gather hr q hq
          cases hf.symm.trans hv
        · exact hp p hl
      obtain ⟨v, hv, hvt⟩ := hp.resolveApart ht
      obtain rfl := Except.ok.inj (hu.symm.trans hv)
      rw [hlookup, hlookup', Option.map_some, Option.map_some, hvt]
    · obtain ⟨t, ht, hlookup⟩ := lookup_gather hr hl
      obtain rfl := Except.ok.inj (hu.symm.trans ht)
      rw [hlookup, hlookup']

/-- The second way fails with the fault of an annotation that is not steady, and never with one that
counts as unresolved. -/
theorem unsteady_of_error (h : S.hintsOf allow (ps ++ qs) = .ok hs)
    (he : e.Unresolvable S allow) {f : Fault}
    (hf : gather Placed.name (Placed.resolveApart S) [] (ps ++ e :: qs) = .error f) :
    f.isUnresolved = false ∧ ∃ p ∈ ps ++ qs, ¬p.Steady S ∧ p.resolveApart S = .error f := by
  obtain ⟨p, hp, hpf⟩ := exists_of_gather_error hf
  obtain ⟨-, -, -, hu⟩ := resolveApart_eq_error_iff.mp hpf
  refine ⟨hu, ?_⟩
  have hmem : p = e ∨ p ∈ ps ++ qs := by
    simpa [or_left_comm] using hp
  rcases hmem with rfl | hmem
  · cases hpf.symm.trans he.resolveApart
  · refine ⟨p, hmem, fun hsteady => ?_, hpf⟩
    rcases hintsOf_eq_ok h with hr | ⟨-, hr⟩
    · obtain ⟨t, ht⟩ := exists_of_gather hr p hmem
      obtain ⟨u, hu, -⟩ := hsteady.resolveApart ht
      cases hpf.symm.trans hu
    · obtain ⟨t, ht⟩ := exists_of_gather hr p hmem
      cases hpf.symm.trans ht

/-- The other names keep their order. -/
theorem keys_of_hintsOf (h : S.hintsOf allow (ps ++ qs) = .ok hs)
    (h' : gather Placed.name (Placed.resolveApart S) [] (ps ++ e :: qs) = .ok hs')
    {p : String → Bool} (hp : p e.name = false) :
    (hs'.map Prod.fst).filter p = (hs.map Prod.fst).filter p := by
  have hkeys : hs.map Prod.fst = ((ps ++ qs).map Placed.name).foldl addKey [] := by
    rcases hintsOf_eq_ok h with hr | ⟨-, hr⟩
    · exact keys_gather hr
    · exact keys_gather hr
  have hkeys' : hs'.map Prod.fst = ((ps ++ e :: qs).map Placed.name).foldl addKey [] :=
    keys_gather h'
  rw [hkeys, hkeys', filter_foldl_addKey, filter_foldl_addKey]
  simp [hp]

end Scope

/-! ### Members -/

/-- Members of the same name, kind and mark whose declared types are the same, up to the absent
value and its class, and are written by the same strategy. -/
structure Member.Alike (H : Hierarchy) (m m' : Member) : Prop where
  name : m'.name = m.name
  kind : m'.kind = m.kind
  ignored : m'.ignored = m.ignored
  declared : Hierarchy.asClass m'.declared = Hierarchy.asClass m.declared
  strategy : H.strategy m'.declared = H.strategy m.declared

theorem Hierarchy.eq_of_asClass {t u : Ty} (h : asClass t = asClass u) :
    t = u ∨ (t = .absent ∧ u = Ty.noneType) ∨ (t = Ty.noneType ∧ u = .absent) := by
  unfold asClass at h
  split at h
  · split at h
    · exact .inl rfl
    · exact .inr (.inl ⟨rfl, h.symm⟩)
  · split at h
    · exact .inr (.inr ⟨h, rfl⟩)
    · exact .inl h

theorem Ty.isClassVar_of_asClass {t u : Ty} (h : Hierarchy.asClass t = Hierarchy.asClass u) :
    t.isClassVar = u.isClassVar := by
  rcases Hierarchy.eq_of_asClass h with rfl | ⟨rfl, rfl⟩ | ⟨rfl, rfl⟩
  · rfl
  · rfl
  · rfl

namespace Catalog

theorem memberOf_alike (W : World) {t u : Ty}
    (h : Hierarchy.asClass u = Hierarchy.asClass t) (kind : MemberKind) (name : String)
    (hidden : Bool) :
    (memberOf kind name t hidden).Alike W.hierarchy (memberOf kind name u hidden) := by
  rcases Hierarchy.eq_of_asClass h with rfl | ⟨rfl, rfl⟩ | ⟨rfl, rfl⟩
  · exact ⟨rfl, rfl, rfl, rfl, rfl⟩
  -- both are objects with a text of their own
  · exact ⟨rfl, rfl, rfl, rfl, rfl⟩
  · exact ⟨rfl, rfl, rfl, rfl, rfl⟩

/-- The names of the fields among the hints. -/
theorem fieldNames_none {hints : List (String × Ty)} (h : (hints.map Prod.fst).Nodup) :
    fieldNames none hints = (hints.map Prod.fst).filter fun x =>
      !((hints.lookup x).getD Ty.any).isClassVar := by
  rw [fieldNames, List.filter_map]
  refine congrArg (List.map Prod.fst) (List.filter_congr fun e he => ?_)
  have hlookup : hints.lookup e.1 = some e.2 := (Table.lookup_eq_some_iff h).mpr he
  rw [Function.comp_apply, hlookup]
  rfl

section

variable {p : String → Bool} {declared declared' : Option (List (String × Bool))}
  {hints hints' : List (String × Ty)}

theorem lookup_getD_alike {x : String}
    (h : (hints'.lookup x).map Hierarchy.asClass = (hints.lookup x).map Hierarchy.asClass) :
    Hierarchy.asClass ((hints'.lookup x).getD Ty.any) =
      Hierarchy.asClass ((hints.lookup x).getD Ty.any) := by
  have hgetD := congrArg (fun o => o.getD (Hierarchy.asClass Ty.any)) h
  simpa only [Option.getD_map] using hgetD

theorem filter_fieldNames (hn : (hints.map Prod.fst).Nodup) (hn' : (hints'.map Prod.fst).Nodup)
    (hdeclared : declared'.map (List.filter fun e => p e.1) =
      declared.map (List.filter fun e => p e.1))
    (hkeys : (hints'.map Prod.fst).filter p = (hints.map Prod.fst).filter p)
    (htypes : ∀ x, p x = true →
      (hints'.lookup x).map Hierarchy.asClass = (hints.lookup x).map Hierarchy.asClass) :
    (fieldNames declared' hints').filter p = (fieldNames declared hints).filter p := by
  cases declared with
  | none =>
    obtain rfl : declared' = none := Option.map_eq_none_iff.mp hdeclared
    rw [fieldNames_none hn, fieldNames_none hn', List.filter_comm, hkeys, List.filter_comm p]
    refine List.filter_congr fun x hx => congrArg not ?_
    have hx := (List.mem_filter.mp hx).2
    exact Ty.isClassVar_of_asClass (lookup_getD_alike (htypes x hx))
  | some fs =>
    obtain ⟨fs', rfl, hfs⟩ := Option.map_eq_some_iff.mp hdeclared
    rw [fieldNames, fieldNames, List.filter_map, List.filter_map, List.filter_comm,
      List.filter_comm (p ∘ Prod.fst)]
    exact congrArg (fun fs => (List.filter Prod.snd fs).map Prod.fst) hfs

/-- Fields are alike where their names and types are. -/
theorem fieldsOf_alike (W : World) {layers layers' : List Layer}
    (hlayers : ∀ x, isShadowed layers' x = isShadowed layers x)
    (hnames : (fieldNames declared' hints').filter p = (fieldNames declared hints).filter p)
    (htypes : ∀ x, p x = true →
      (hints'.lookup x).map Hierarchy.asClass = (hints.lookup x).map Hierarchy.asClass) :
    List.Forall₂ (Member.Alike W.hierarchy)
      ((fieldsOf layers declared hints).filter fun m => p m.name)
      ((fieldsOf layers' declared' hints').filter fun m => p m.name) := by
  have hfields (ls : List Layer) (d : Option (List (String × Bool))) (hs : List (String × Ty)) :
      (fieldsOf ls d hs).filter (fun m => p m.name) =
        (((fieldNames d hs).filter p).filter fun n => !isPrivate n && !isShadowed ls n).map
          fun n => memberOf .field n ((hs.lookup n).getD Ty.any) false := by
    rw [fieldsOf, List.filter_map, List.filter_comm]
    rfl
  rw [hfields, hfields, hnames]
  simp only [hlayers]
  rw [List.forall₂_map_left_iff, List.forall₂_map_right_iff, List.forall₂_same]
  intro n hn
  have hn := (List.mem_filter.mp (List.mem_filter.mp hn).1).2
  exact memberOf_alike W (lookup_getD_alike (htypes n hn)) .field n false

end

end Catalog

/-! ### Sites -/

/-- A place for one more annotation: in a class of a lineage, between its other annotations and
with classes below and above it, or in a getter. -/
inductive Site
  | inClass (below : List Layer) (attributes : List (String × Attribute))
      (annotations later : List (String × Ty)) (above : List Layer)
  | inGetter (annotations later : List (String × Ty))

namespace Site

/-- The classes of the lineage, with the additional annotation if there is one. -/
def layers (extra : Option (String × Ty)) : Site → List Layer
  | inClass below attributes as bs above =>
    below ++ ⟨attributes, as ++ extra.toList ++ bs⟩ :: above
  | inGetter _ _ => []

/-- The types that are reported, with the additional annotation if there is one. -/
def hints (S : Scope) (extra : Option (String × Ty)) (s : Site) :
    Except Fault (List (String × Ty)) :=
  match s with
  | inClass _ _ _ _ _ => S.classHints (s.layers extra)
  | inGetter as bs => S.hints (as ++ extra.toList ++ bs)

/-- Class variables are let through in classes. -/
def allowsClassVar : Site → Bool
  | inClass _ _ _ _ _ => true
  | inGetter _ _ => false

/-- The additional annotation in its place. -/
def place (name : String) (type : Ty) : Site → Placed
  | inClass _ attributes _ _ _ => ⟨attributes, name, type⟩
  | inGetter _ _ => ⟨[], name, type⟩

/-- The annotations that are resolved before the additional one. -/
def earlier : Site → List Placed
  | inClass _ attributes as _ above => Placed.ofLayers above ++ Placed.ofLayers [⟨attributes, as⟩]
  | inGetter as _ => Placed.ofFunction as

/-- The annotations that are resolved after the additional one. -/
def later : Site → List Placed
  | inClass below attributes _ bs _ => Placed.ofLayers [⟨attributes, bs⟩] ++ Placed.ofLayers below
  | inGetter _ bs => Placed.ofFunction bs

variable (S : Scope) (s : Site) (name : String) (type : Ty)

theorem hints_eq (extra : Option (String × Ty)) : s.hints S extra =
    S.hintsOf s.allowsClassVar
      (s.earlier ++ (extra.toList.map (fun e => s.place e.1 e.2) ++ s.later)) := by
  cases s with
  | inClass below attributes as bs above =>
    rw [hints, Scope.classHints_eq]
    simp [layers, earlier, later, place, allowsClassVar, Placed.ofLayers]
  | inGetter as bs =>
    rw [hints, Scope.hints_eq]
    simp [earlier, later, place, allowsClassVar, Placed.ofFunction]

@[simp] theorem name_place : (s.place name type).name = name := by
  cases s <;> rfl

@[simp] theorem type_place : (s.place name type).type = type := by
  cases s <;> rfl

/-- An annotation hides no attribute. -/
theorem isShadowed_layers (extra : Option (String × Ty)) (x : String) :
    Catalog.isShadowed (s.layers extra) x = Catalog.isShadowed (s.layers none) x := by
  cases s with
  | inClass below attributes as bs above =>
    simp [layers, Catalog.isShadowed, Layer.find?, List.findSome?_append, List.findSome?_cons]
  | inGetter as bs => rfl

/-- The type of a name is the same on both ways, or the second one is taken anyway. -/
def Steady (S : Scope) (s : Site) (x : String) : Prop :=
  S.SteadyName s.allowsClassVar (s.earlier ++ s.later) x

/-- What an additional annotation leaves as it was, with `hints` for the types that were reported
without it and `hints'` for those that are reported with it. -/
structure Unaffected (W : World) (s : Site) (name : String) (type : Ty)
    (hints hints' : List (String × Ty)) : Prop where
  /-- The other names keep their order. -/
  order : ∀ p : String → Bool, p name = false →
    (hints'.map Prod.fst).filter p = (hints.map Prod.fst).filter p
  /-- Steady names keep their types. -/
  types : ∀ x ≠ name, s.Steady W.scope x →
    (hints'.lookup x).map Hierarchy.asClass = (hints.lookup x).map Hierarchy.asClass
  /-- So they keep their declared types, their strategies and their marks as members. -/
  members : ∀ x ≠ name, s.Steady W.scope x → ∀ kind hidden,
    (Catalog.memberOf kind x ((hints.lookup x).getD Ty.any) hidden).Alike W.hierarchy
      (Catalog.memberOf kind x ((hints'.lookup x).getD Ty.any) hidden)
  /-- The fields of steady names stay where they are, provided that the declared fields of a data
  class do. -/
  fields : ∀ p : String → Bool, (∀ x, p x = true → x ≠ name ∧ s.Steady W.scope x) →
    ∀ declared declared' : Option (List (String × Bool)),
      declared'.map (List.filter fun e => p e.1) = declared.map (List.filter fun e => p e.1) →
        List.Forall₂ (Member.Alike W.hierarchy)
          ((Catalog.fieldsOf (s.layers none) declared hints).filter fun m => p m.name)
          ((Catalog.fieldsOf (s.layers (some (name, type))) declared' hints').filter
            fun m => p m.name)
  /-- Every name is reported as its last annotation is resolved on the second way. -/
  apart : ∀ x p, Scope.latest? Placed.name x (s.earlier ++ s.place name type :: s.later) = some p →
    ∃ t, p.resolveApart W.scope = .ok t ∧ hints'.lookup x = some t
  /-- The additional name is reported as unresolved, unless another annotation of it comes
  later. -/
  added : Scope.latest? Placed.name name (s.later) = none →
    hints'.lookup name = some type.unresolved

section

variable {W : World} {s : Site} {name : String} {type : Ty} {hints hints' : List (String × Ty)}
  (h : W.scope.hintsOf s.allowsClassVar (s.earlier ++ s.later) = .ok hints)
  (h' : Scope.gather Placed.name (Placed.resolveApart W.scope) []
    (s.earlier ++ s.place name type :: s.later) = .ok hints')

include h h'

theorem keys_eq {p : String → Bool} (hp : p name = false) :
    (hints'.map Prod.fst).filter p = (hints.map Prod.fst).filter p :=
  Scope.keys_of_hintsOf h h' (by rwa [name_place])

theorem lookup_eq {x : String} (hx : x ≠ name) (hs : s.Steady W.scope x) :
    (hints'.lookup x).map Hierarchy.asClass = (hints.lookup x).map Hierarchy.asClass :=
  Scope.lookup_of_steadyName h h' (by rwa [name_place]) hs

theorem fields_alike {p : String → Bool}
    (hp : ∀ x, p x = true → x ≠ name ∧ s.Steady W.scope x)
    {declared declared' : Option (List (String × Bool))}
    (hdeclared : declared'.map (List.filter fun e => p e.1) =
      declared.map (List.filter fun e => p e.1)) :
    List.Forall₂ (Member.Alike W.hierarchy)
      ((Catalog.fieldsOf (s.layers none) declared hints).filter fun m => p m.name)
      ((Catalog.fieldsOf (s.layers (some (name, type))) declared' hints').filter
        fun m => p m.name) := by
  have htypes : ∀ x, p x = true →
      (hints'.lookup x).map Hierarchy.asClass = (hints.lookup x).map Hierarchy.asClass :=
    fun x hx => lookup_eq h h' (hp x hx).1 (hp x hx).2
  have hname : p name = false := by
    by_contra hn
    exact (hp name (by simpa using hn)).1 rfl
  have hnodup' : (hints'.map Prod.fst).Nodup := Scope.nodup_gather h' List.nodup_nil
  have hnames := Catalog.filter_fieldNames (Scope.nodup_hintsOf h) hnodup' hdeclared
    (keys_eq h h' hname) htypes
  exact Catalog.fieldsOf_alike W (s.isShadowed_layers _) hnames htypes

omit h

theorem lookup_added (ht : (s.place name type).Unresolvable W.scope s.allowsClassVar)
    (hlatest : Scope.latest? Placed.name name s.later = none) :
    hints'.lookup name = some type.unresolved := by
  have hlast : Scope.latest? Placed.name name (s.earlier ++ s.place name type :: s.later) =
      some (s.place name type) := by
    rw [Scope.latest?_append, Scope.latest?_cons, hlatest, Option.none_or,
      if_pos (s.name_place name type), Option.some_or]
  obtain ⟨t, ht', hlookup⟩ := Scope.lookup_gather h' hlast
  rw [ht.resolveApart, type_place] at ht'
  obtain rfl := Except.ok.inj ht'
  exact hlookup

end

end Site

/-- **An annotation that cannot be resolved changes no annotation on which both ways agree.**  When
another one is not steady, the second way may end with a fault of it that is not caught. -/
theorem unresolved_alone {W : World} {s : Site} {name : String} {type : Ty}
    {hints : List (String × Ty)}
    (ht : (s.place name type).Unresolvable W.scope s.allowsClassVar)
    (h : s.hints W.scope none = .ok hints) :
    (∃ f, f.isUnresolved = false ∧ s.hints W.scope (some (name, type)) = .error f ∧
      ∃ p ∈ s.earlier ++ s.later, ¬p.Steady W.scope ∧ p.resolveApart W.scope = .error f) ∨
    ∃ hints', s.hints W.scope (some (name, type)) = .ok hints' ∧
      s.Unaffected W name type hints hints' := by
  have h : W.scope.hintsOf s.allowsClassVar (s.earlier ++ s.later) = .ok hints :=
    (s.hints_eq W.scope none).symm.trans h
  have hwith : s.hints W.scope (some (name, type)) =
      Scope.gather Placed.name (Placed.resolveApart W.scope) []
        (s.earlier ++ s.place name type :: s.later) :=
    (s.hints_eq W.scope _).trans (Scope.hintsOf_append_cons h ht)
  rw [hwith]
  cases h' : Scope.gather Placed.name (Placed.resolveApart W.scope) []
      (s.earlier ++ s.place name type :: s.later) with
  | error f =>
    obtain ⟨hu, hp⟩ := Scope.unsteady_of_error h ht h'
    exact .inl ⟨f, hu, rfl, hp⟩
  | ok hints' =>
    refine .inr ⟨hints', rfl, fun p => Site.keys_eq h h', fun x => Site.lookup_eq h h',
      fun x hx hs kind hidden => ?_, fun p hp declared declared' => Site.fields_alike h h' hp,
      fun x p => Scope.lookup_gather h', Site.lookup_added h' ht⟩
    have htype := Catalog.lookup_getD_alike (Site.lookup_eq h h' hx hs)
    exact Catalog.memberOf_alike W htype kind x hidden

/-- A class with a flag that has a default and with a size that is annotated by a text. -/
def paintSite : Site :=
  .inClass [] [("flag", .value (.bool true))]
    [("flag", .cls (.known .bool)), ("size", .text "int")] [] []

/-- A text that denotes a class leads to nothing else. -/
theorem reaches_of_class {S : Scope} {s u : String} {c : ClassRef}
    (hs : S.denote (Ty.referenceSource s) = .ok (.type (.cls c))) (h : S.Reaches s u) : u = s := by
  cases h with
  | self => rfl
  | reference hm ht hr _ =>
    obtain rfl := Except.ok.inj (hs.symm.trans hm)
    -- the class is accepted as it is, and it has no references
    have ht : Ty.argument S.language.check _ (.cls c) = .ok _ := ht
    unfold Ty.argument at ht
    split_ifs at ht
    obtain rfl := Except.ok.inj ht
    exact absurd hr List.not_mem_nil

/-- The flag and the size are reported as before, and an amount whose annotation cannot be read is
reported as the universal type. -/
theorem unresolved_alone_paint : ∃ hints',
    paintSite.hints World.empty.scope (some ("amount", .text "int[")) = .ok hints' ∧
      (hints'.lookup "flag").map Hierarchy.asClass = some (.cls (.known .bool)) ∧
      (hints'.lookup "size").map Hierarchy.asClass = some (.cls (.known .int)) ∧
      hints'.lookup "amount" = some Ty.any := by
  have ht : (paintSite.place "amount" (.text "int[")).Unresolvable World.empty.scope
      paintSite.allowsClassVar :=
    ⟨⟨.badText, rfl, rfl⟩, fun s hs => ⟨.badText, by cases hs; rfl, rfl⟩⟩
  have hsteady : ∀ p ∈ paintSite.earlier ++ paintSite.later, p.Steady World.empty.scope := by
    intro p hp
    rcases List.mem_pair.mp hp with rfl | rfl
    · exact ⟨fun _ hs => (nomatch hs), fun _ => rfl⟩
    · refine ⟨fun s hs u hu => ?_, fun hs => absurd rfl (hs "int")⟩
      obtain rfl := Ty.text.inj hs
      obtain rfl := reaches_of_class (c := .known .int) rfl hu
      rfl
  have hname (x : String) : paintSite.Steady World.empty.scope x :=
    .inr fun p hp => hsteady p (Scope.mem_of_latest? hp).1
  rcases unresolved_alone ht rfl with ⟨-, -, -, p, hp, hns, -⟩ | ⟨hints', h', hu⟩
  · exact absurd (hsteady p hp) hns
  · exact ⟨hints', h', hu.types "flag" (by decide) (hname _),
      hu.types "size" (by decide) (hname _), hu.added rfl⟩

/-- A class with a size that may be absent, whose type is a reference inside of a union. -/
def optionalSite : Site :=
  .inClass [] [] [("size", .union .form [.forward "int", Ty.noneType])] [] []

/-- The reference is resolved unless there is an annotation that cannot be resolved beside it. -/
theorem reference_kept_beside_unresolved :
    optionalSite.hints World.empty.scope none =
        .ok [("size", .union .form [.cls (.known .int), Ty.noneType])] ∧
      optionalSite.hints World.empty.scope (some ("amount", .text "int[")) =
        .ok [("size", .union .form [.forward "int", Ty.noneType]), ("amount", Ty.any)] :=
  ⟨rfl, rfl⟩

end RecordText
