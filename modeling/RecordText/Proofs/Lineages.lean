/-
What a lineage gives to a name.

Properties are collected class by class from the end of a lineage, while an attribute is looked up
from its front.  Both agree:

* `lookup_propertiesOf` — **a name is collected as a property exactly when the first class that
  defines it defines it as one**, and with the getter that stands there;
* `mem_fieldsOf_iff`, `propertyMember?_eq_some_iff` — what fields and properties make of it;
* `read_property`, `read_of_not_property` — reading a property runs its getter, and reading anything
  else runs nothing.
-/
import RecordText.Catalog
import RecordText.Proofs.Outcome
import RecordText.Proofs.Tables

namespace RecordText

/-- The getter of a property, if it has one; nothing for other attributes. -/
def Attribute.getter? : Attribute → Option (Option Getter)
  | .property g => some g
  | _ => none

theorem Attribute.getter?_eq_some_iff {a : Attribute} {g : Option Getter} :
    a.getter? = some g ↔ a = .property g := by
  cases a <;> simp [getter?]

namespace Catalog

/-! ### Properties of one class and of a lineage -/

theorem lookup_ownProperties {l : Layer} (h : l.Distinct) (found : List (String × Option Getter))
    (n : String) :
    (ownProperties found l).lookup n =
      match l.attributes.lookup n with
      | some a => a.getter?
      | none => found.lookup n := by
  obtain ⟨attributes, annotations⟩ := l
  rw [Layer.Distinct] at h
  simp only [ownProperties] at h ⊢
  -- the names that are collected so far change with every attribute
  induction attributes generalizing found with
  | nil => rfl
  | cons e es ih =>
    obtain ⟨m, a⟩ := e
    rw [List.map_cons, List.nodup_cons, ← Table.lookup_eq_none_iff] at h
    rw [List.foldl_cons, ih _ h.2, Table.lookup_cons]
    by_cases hn : n = m
    · subst hn
      rw [h.1, if_pos rfl]
      cases a with
      | property g => exact (Table.lookup_put ..).trans (if_pos rfl)
      | value _ | method _ | builtin => exact (Table.lookup_erase ..).trans (if_pos rfl)
    · rw [if_neg hn]
      cases es.lookup n with
      | some b => rfl
      | none =>
        cases a with
        | property g => exact (Table.lookup_put ..).trans (if_neg hn)
        | value _ | method _ | builtin => exact (Table.lookup_erase ..).trans (if_neg hn)

theorem propertiesOf_cons (l : Layer) (ls : List Layer) :
    propertiesOf (l :: ls) = ownProperties (propertiesOf ls) l := by
  rw [propertiesOf, List.reverse_cons, List.foldl_append]
  rfl

theorem find?_cons (l : Layer) (ls : List Layer) (n : String) :
    Layer.find? (l :: ls) n =
      match l.attributes.lookup n with
      | some a => some a
      | none => Layer.find? ls n := by
  rw [Layer.find?, List.findSome?_cons]
  cases l.attributes.lookup n <;> rfl

/-- **The properties that are collected are those that are looked up.** -/
theorem lookup_propertiesOf {layers : List Layer} (h : ∀ l ∈ layers, l.Distinct) (n : String) :
    (propertiesOf layers).lookup n = (Layer.find? layers n).bind Attribute.getter? := by
  induction layers with
  | nil => rfl
  | cons l ls ih =>
    rw [propertiesOf_cons, lookup_ownProperties (h l (by simp)), find?_cons,
      ih fun m hm => h m (by simp [hm])]
    cases l.attributes.lookup n <;> rfl

theorem nodup_propertiesOf (layers : List Layer) : ((propertiesOf layers).map Prod.fst).Nodup := by
  refine Table.nodup_foldl (fun found l hf => ?_) _ List.nodup_nil
  refine Table.nodup_foldl (fun fs e hfs => ?_) _ hf
  cases e.2 with
  | property g => exact Table.nodup_put _ _ hfs
  | value _ | method _ | builtin => exact Table.nodup_erase _ hfs

/-! ### Members -/

section

variable (kind : MemberKind) (name : String) (declared : Ty) (hidden : Bool)

@[simp] theorem name_memberOf : (memberOf kind name declared hidden).name = name := rfl

@[simp] theorem kind_memberOf : (memberOf kind name declared hidden).kind = kind := rfl

end

theorem isShadowed_iff {layers : List Layer} {n : String} :
    isShadowed layers n = true ↔ ∃ g, Layer.find? layers n = some (.property g) := by
  rw [isShadowed]
  cases Layer.find? layers n with
  | none => simp
  | some a => cases a <;> simp [Attribute.isProperty]

theorem mem_fieldsOf_iff {layers : List Layer} {declared : Option (List (String × Bool))}
    {hints : List (String × Ty)} {m : Member} :
    m ∈ fieldsOf layers declared hints ↔
      m.name ∈ fieldNames declared hints ∧ isPrivate m.name = false ∧
        (∀ g, Layer.find? layers m.name ≠ some (.property g)) ∧
        m = memberOf .field m.name ((hints.lookup m.name).getD Ty.any) false := by
  rw [fieldsOf, List.mem_map]
  constructor
  · rintro ⟨n, hn, rfl⟩
    rw [List.mem_filter, Bool.and_eq_true, Bool.not_eq_true', Bool.not_eq_true'] at hn
    obtain ⟨hn, hp, hs⟩ := hn
    refine ⟨hn, hp, fun g hg => ?_, rfl⟩
    exact absurd (isShadowed_iff.mpr ⟨g, hg⟩) (by simpa using hs)
  · rintro ⟨hn, hp, hs, hm⟩
    refine ⟨m.name, ?_, hm.symm⟩
    have hs : isShadowed layers m.name = false := by
      rw [Bool.eq_false_iff, Ne, isShadowed_iff]
      rintro ⟨g, hg⟩
      exact hs g hg
    simp [hn, hp, hs]

theorem names_fieldsOf (layers : List Layer) (declared : Option (List (String × Bool)))
    (hints : List (String × Ty)) :
    (fieldsOf layers declared hints).map Member.name =
      (fieldNames declared hints).filter fun n => !isPrivate n && !isShadowed layers n := by
  rw [fieldsOf, List.map_map]
  exact List.map_id _

theorem propertyMember?_eq_some_iff {S : Scope} {e : String × Option Getter} {m : Member} :
    propertyMember? S e = .ok (some m) ↔
      isPrivate e.1 = false ∧ ∃ g hints, e.2 = some g ∧ S.hints g.annotations = .ok hints ∧
        m = memberOf .property e.1 ((hints.lookup "return").getD Ty.any) g.hidden := by
  obtain ⟨n, g⟩ := e
  rw [propertyMember?]
  cases g with
  | none => simp
  | some g =>
    cases hp : isPrivate n with
    | true => simp
    | false =>
      simp only [Bool.false_eq_true, if_false, bind_eq_ok_iff, pure_eq_ok, Except.ok.injEq,
        Option.some.injEq, true_and, exists_and_left, exists_eq_left']
      exact exists_congr fun hints => and_congr Iff.rfl eq_comm

/-- A property becomes a member of its name. -/
theorem name_of_propertyMember? {S : Scope} {e : String × Option Getter} {m : Member}
    (h : propertyMember? S e = .ok (some m)) : m.name = e.1 := by
  obtain ⟨-, g, hints, -, -, rfl⟩ := propertyMember?_eq_some_iff.mp h
  rfl

section

variable {S : Scope} {layers : List Layer} {ms : List Member}

theorem mem_propertyMembers_iff (h : propertyMembers S layers = .ok ms) {m : Member} :
    m ∈ ms ↔ ∃ e ∈ propertiesOf layers, propertyMember? S e = .ok (some m) := by
  obtain ⟨os, hos, hms⟩ := bind_eq_ok_iff.mp h
  obtain rfl := Except.ok.inj hms
  replace hos := mapM_eq_ok_iff.mp hos
  clear hms h
  generalize propertiesOf layers = es at hos
  induction hos with
  | nil => simp
  | @cons e o es os he _ ih =>
    simp only [List.mem_cons, exists_eq_or_imp, he, ← ih]
    cases o with
    | none => simp
    | some m' => simp [eq_comm]

/-- The properties that become members keep their order. -/
theorem names_propertyMembers (h : propertyMembers S layers = .ok ms) :
    (ms.map Member.name).Sublist ((propertiesOf layers).map Prod.fst) := by
  obtain ⟨os, hos, hms⟩ := bind_eq_ok_iff.mp h
  obtain rfl := Except.ok.inj hms
  replace hos := mapM_eq_ok_iff.mp hos
  clear hms h
  generalize propertiesOf layers = es at hos
  induction hos with
  | nil => exact List.Sublist.slnil
  | @cons e o es os he _ ih =>
    cases o with
    | none => exact ih.cons _
    | some m =>
      have hn := name_of_propertyMember? he
      simpa [hn] using ih

theorem mem_propertiesOf_iff (hl : ∀ l ∈ layers, l.Distinct) {n : String} {o : Option Getter} :
    (n, o) ∈ propertiesOf layers ↔ Layer.find? layers n = some (.property o) := by
  rw [← Table.lookup_eq_some_iff (nodup_propertiesOf layers), lookup_propertiesOf hl]
  simp [Option.bind_eq_some_iff, Attribute.getter?_eq_some_iff]

/-- **A public name becomes a member exactly when the first class that defines it defines it as a
property with a getter, and the getter says what the member is.** -/
theorem mem_propertyMembers_iff_find? (hl : ∀ l ∈ layers, l.Distinct)
    (h : propertyMembers S layers = .ok ms) {m : Member} :
    m ∈ ms ↔ isPrivate m.name = false ∧ ∃ g hints,
      Layer.find? layers m.name = some (.property (some g)) ∧
        S.hints g.annotations = .ok hints ∧
        m = memberOf .property m.name ((hints.lookup "return").getD Ty.any) g.hidden := by
  rw [mem_propertyMembers_iff h]
  constructor
  · rintro ⟨⟨n, o⟩, he, hm⟩
    obtain ⟨hp, g, hints, rfl, hh, rfl⟩ := propertyMember?_eq_some_iff.mp hm
    exact ⟨hp, g, hints, (mem_propertiesOf_iff hl).mp he, hh, rfl⟩
  · rintro ⟨hp, g, hints, hg, hh, hm⟩
    exact ⟨(m.name, some g), (mem_propertiesOf_iff hl).mpr hg,
      propertyMember?_eq_some_iff.mpr ⟨hp, g, hints, rfl, hh, hm⟩⟩

/-- When the members are told, so are the annotations of every public getter. -/
theorem exists_hints_of_propertyMembers (hl : ∀ l ∈ layers, l.Distinct)
    (h : propertyMembers S layers = .ok ms) {n : String} {g : Getter}
    (hp : isPrivate n = false) (hg : Layer.find? layers n = some (.property (some g))) :
    ∃ hints, S.hints g.annotations = .ok hints := by
  obtain ⟨os, hos, -⟩ := bind_eq_ok_iff.mp h
  obtain ⟨o, ho⟩ := exists_of_forall₂ (mapM_eq_ok_iff.mp hos) _ ((mem_propertiesOf_iff hl).mpr hg)
  simp only [propertyMember?, hp, Bool.false_eq_true, if_false] at ho
  obtain ⟨hints, hh, -⟩ := bind_eq_ok_iff.mp ho
  exact ⟨hints, hh⟩

end

end Catalog

/-! ### Reading -/

namespace World

variable {W : World} {x : Value} {m : Member}

/-- Reading a property runs its getter. -/
theorem read_property {g : Getter} (hd : '.' ∉ m.name.toList)
    (h : Layer.find? (W.layers x.classOf) m.name = some (.property (some g))) (n : Nat) :
    m.read (W.behaviourWithin (n + 1)) x = runGetter (W.behaviourWithin n) x g := by
  rw [Member.read, Behaviour.readPath_of_not_mem hd]
  show W.read (W.behaviourWithin n) x m.name = _
  rw [read, h]

/-- Reading anything else runs nothing. -/
theorem read_of_not_property (hd : '.' ∉ m.name.toList)
    (h : ∀ g, Layer.find? (W.layers x.classOf) m.name ≠ some (.property g)) (n : Nat)
    (B : Behaviour) : m.read (W.behaviourWithin (n + 1)) x = W.read B x m.name := by
  rw [Member.read, Behaviour.readPath_of_not_mem hd]
  show W.read (W.behaviourWithin n) x m.name = _
  rw [read, read]
  -- of the rules for reading, only the one for a getter asks for a behaviour
  split
  · next g hg => exact absurd hg (h _)
  · next hg => exact absurd hg (h _)
  all_goals rfl

end World

end RecordText
