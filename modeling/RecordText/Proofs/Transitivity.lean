/-
What fits a type fits whatever that type fits.

Three types are opened at once: the target first as far as it is a type variable, then the unions of
the source, of the type in the middle and of the target, and then the new names of all three.  What
is left are classes, literal values and forms that are compared by equality.

The type in the middle must not be one that takes everything: whatever fits `object` need not fit
what `object` fits, and the same holds of type variables (`Ty.Definite`).  The order between the
classes that occur in the types has to be transitive (`Hierarchy.TransitiveOn`).

* `Hierarchy.assignableLeaf_trans` — the last rules, by which classes and literal values are
  compared;
* `Hierarchy.chains` — the rules before them, by induction on the sizes of the three types;
* `assignable_trans` — **fitting is transitive, unless a literal value meets a class that refuses
  comparison**: then there may be no answer.
-/
import RecordText.Proofs.Interchange

namespace RecordText

namespace Ty

/-! ### The classes in a type -/

mutual

/-- The classes that a type is compared by, and those of the literal values in it. -/
def classes : Ty → List ClassRef
  | .absent => [.known .noneType]
  | .cls c => [c]
  | .bare _ c => [.known c]
  | .generic _ c _ => [c]
  | .union _ ts => classesOf ts
  | .annotated t _ => t.classes
  | .literal ls => ls.map fun l => .known l.kind
  | .newType _ _ t => t.classes
  | .typeVar _ bound cs =>
    (match bound with
      | none => []
      | some b => b.classes) ++ classesOf cs
  | _ => []
termination_by structural t => t

/-- The classes in several types. -/
def classesOf : List Ty → List ClassRef
  | [] => []
  | t :: ts => t.classes ++ classesOf ts
termination_by structural ts => ts

end

variable {t : Ty} {ts : List Ty} {c : ClassRef}

theorem classes_subset_classesOf (ht : t ∈ ts) : t.classes ⊆ classesOf ts := by
  induction ts with
  | nil => cases ht
  | cons u us ih =>
    rcases List.mem_cons.mp ht with rfl | ht
    · exact List.subset_append_left _ _
    · exact List.subset_append_of_subset_right _ (ih ht)

theorem classes_subset_of_bound (i : Ident) (b : Ty) (cs : List Ty) :
    b.classes ⊆ (Ty.typeVar i (some b) cs).classes :=
  List.subset_append_left _ _

theorem classesOf_subset (i : Ident) (bound : Option Ty) (cs : List Ty) :
    classesOf cs ⊆ (Ty.typeVar i bound cs).classes := by
  cases bound <;> exact List.subset_append_right _ _

theorem classes_core (t : Ty) : t.core.classes = t.classes := by
  cases t with
  | annotated t _ => exact classes_core t
  | _ => rfl
termination_by structural t

theorem mem_classes_of_originClass? (h : (Hierarchy.asClass t).originClass? = some c) :
    c ∈ t.classes := by
  cases t with
  | absent | cls | bare | generic =>
    cases h
    exact List.mem_singleton.mpr rfl
  | _ => cases h

theorem mem_classes_of_literal {ls : List Literal} {l : Literal}
    (h : Hierarchy.asClass t = .literal ls) (hl : l ∈ ls) : .known l.kind ∈ t.classes := by
  cases t with
  | literal ks =>
    cases h
    exact List.mem_map_of_mem hl
  | _ => cases h

/-! ### Types in the middle -/

/-- A type of which no leaf takes everything or is a type variable. -/
def Definite (t : Ty) : Prop := ∀ x ∈ t.leaves, x.isAny = false ∧ x.isTypeVar = false

theorem Definite.of_leaf (ht : t.Definite) (hl : t.isLeaf = true) :
    t.isAny = false ∧ t.isTypeVar = false := by
  refine ht t ?_
  rw [leaves_of_isLeaf hl]
  exact List.mem_singleton.mpr rfl

theorem Definite.core (ht : t.Definite) : t.core.Definite := by
  rw [Definite, leaves_core]
  exact ht

theorem Definite.of_core (ht : t.Definite) : t.core.isAny = false ∧ t.core.isTypeVar = false := by
  rcases isLeaf_or_isUnion_core t with hl | hu
  · exact ht.core.of_leaf hl
  · generalize t.core = u at hu
    cases u with
    | union => exact ⟨rfl, rfl⟩
    | _ => cases hu

theorem Definite.of_mem {u : UnionSpelling} (h : (Ty.union u ts).Definite) (ht : t ∈ ts) :
    t.Definite :=
  fun x hx => h x (mem_leavesOf.mpr ⟨t, ht, hx⟩)

end Ty

namespace Hierarchy

variable {H : Hierarchy} {a b c : Ty} {xs ys zs : List ClassRef}

/-- Subclasses of subclasses are subclasses, from the first classes by the second to the third. -/
def TransitiveOn (H : Hierarchy) (xs ys zs : List ClassRef) : Prop :=
  ∀ x ∈ xs, ∀ y ∈ ys, ∀ z ∈ zs, H.subclass? x y = some true → H.subclass? y z = some true →
    H.subclass? x z = some true

namespace TransitiveOn

variable {ws : List ClassRef} (h : H.TransitiveOn xs ys zs)

include h

theorem of_source (hw : ws ⊆ xs) : H.TransitiveOn ws ys zs := fun x hx => h x (hw hx)

theorem of_middle (hw : ws ⊆ ys) : H.TransitiveOn xs ws zs := fun x hx y hy => h x hx y (hw hy)

theorem of_target (hw : ws ⊆ zs) : H.TransitiveOn xs ys ws :=
  fun x hx y hy z hz => h x hx y hy z (hw hz)

end TransitiveOn

/-! ### The last rules -/

/-- Equal sources are not told apart by what they fit. -/
theorem assignableLeaf_ne_false_of_same (hab : a.same b = true)
    (hbc : H.assignableLeaf b c = .ok true) : H.assignableLeaf a c ≠ .ok false := by
  intro hac
  cases compatible_leaf hab c.same_self _ _ hac hbc

/-- What has no class is fit by its equals only. -/
theorem same_of_assignableLeaf (hb : b.originClass? = none)
    (hab : H.assignableLeaf a b = .ok true) : a.same b = true := by
  unfold assignableLeaf at hab
  split at hab
  · simpa [hb] using hab
  · rw [hb] at hab
    split at hab
    · next h => cases h
    · exact Except.ok.inj hab

/-- A class of which the source has all literal values, or above that of the source. -/
theorem subclass_of_assignableLeaf {y : ClassRef} (hb : b.originClass? = some y)
    (hab : H.assignableLeaf a b = .ok true) :
    (∃ ls, a = .literal ls ∧ ∀ l ∈ ls, H.subclass? (.known l.kind) y = some true) ∨
      (∃ x, a.originClass? = some x ∧ H.subclass? x y = some true) ∨ a.same b = true := by
  by_cases hlit : ∃ ls, a = .literal ls
  · obtain ⟨ls, rfl⟩ := hlit
    simp only [assignableLeaf, hb] at hab
    exact .inl ⟨ls, rfl, acceptsAll_eq_true_iff.mp hab⟩
  · rw [assignableLeaf_of_not_literal hlit, hb] at hab
    cases hx : a.originClass? with
    | none =>
      rw [hx] at hab
      exact .inr (.inr (Except.ok.inj hab))
    | some x =>
      rw [hx] at hab
      refine .inr (.inl ⟨x, rfl, ?_⟩)
      cases hsub : H.subclass? x y with
      | none => simp [hsub] at hab
      | some p =>
        obtain rfl : p = true := by simpa [hsub] using hab
        rfl

/-- **Classes and literal values**: what fits a class fits those above it. -/
theorem assignableLeaf_trans (htrans : H.TransitiveOn a.classes b.classes c.classes)
    (hab : H.assignableLeaf (asClass a) (asClass b) = .ok true)
    (hbc : H.assignableLeaf (asClass b) (asClass c) = .ok true) :
    H.assignableLeaf (asClass a) (asClass c) ≠ .ok false := by
  intro hac
  rcases hy : (asClass b).originClass? with _ | y
  · exact assignableLeaf_ne_false_of_same (same_of_assignableLeaf hy hab) hbc hac
  by_cases hsame : (asClass b).same (asClass c) = true
  · -- the second step is one between equal types
    cases compatible_leaf (asClass a).same_self hsame _ _ hab hac
  rcases hz : (asClass c).originClass? with _ | z
  · exact hsame (same_of_assignableLeaf hz hbc)
  have hyz : H.subclass? y z = some true := by
    rcases subclass_of_assignableLeaf hz hbc with ⟨ls, hb, -⟩ | ⟨x, hx, hxz⟩ | h
    · rw [hb] at hy
      cases hy
    · rw [hy] at hx
      cases hx
      exact hxz
    · exact absurd h hsame
  have hyb := Ty.mem_classes_of_originClass? hy
  have hzc := Ty.mem_classes_of_originClass? hz
  rcases subclass_of_assignableLeaf hy hab with ⟨ls, ha, hls⟩ | ⟨x, hx, hxy⟩ | h
  · -- some literal value is refused
    simp only [ha, assignableLeaf, hz] at hac
    obtain ⟨l, hl, hfalse⟩ := exists_of_acceptsAll_eq_false hac
    rw [htrans _ (Ty.mem_classes_of_literal ha hl) y hyb z hzc (hls l hl) hyz] at hfalse
    cases hfalse
  · have hlit : ¬∃ ls, asClass a = .literal ls := by
      rintro ⟨ls, ha⟩
      rw [ha] at hx
      cases hx
    have hxz := htrans x (Ty.mem_classes_of_originClass? hx) y hyb z hzc hxy hyz
    simp [assignableLeaf_of_not_literal hlit, hx, hz, hxz] at hac
  · exact assignableLeaf_ne_false_of_same h hbc hac

/-! ### The rules before them -/

/-- What fits a type is not refused by what that type fits, as long as the three types are small. -/
def ChainsBelow (H : Hierarchy) (n : Nat) : Prop :=
  ∀ a b c : Ty, sizeOf a + sizeOf b + sizeOf c < n → b.Definite →
    H.TransitiveOn a.classes b.classes c.classes → H.assignable a b = .ok true →
      H.assignable b c = .ok true → H.assignable a c ≠ .ok false

theorem core_ne_any (h : a.core.isAny = false) : a.core ≠ Ty.any := by
  intro hany
  rw [hany] at h
  cases h

/-- Nothing definite is fit by the universal type. -/
theorem core_ne_any_of_assignable (hb : b.Definite) (hab : H.assignable a b = .ok true) :
    a.core ≠ Ty.any := by
  intro hany
  rw [← assignable_core_source, hany, H.assignable_any_source hb.of_core.1] at hab
  cases hab

theorem chain_variable {i : Ident} {bound : Option Ty} {cs : List Ty}
    (ih : H.ChainsBelow (sizeOf a + sizeOf b + sizeOf (Ty.typeVar i bound cs)))
    (hb : b.Definite) (htrans : H.TransitiveOn a.classes b.classes (Ty.typeVar i bound cs).classes)
    (hab : H.assignable a b = .ok true) (hbc : H.assignable b (.typeVar i bound cs) = .ok true) :
    H.assignable a (.typeVar i bound cs) ≠ .ok false := by
  have hany := core_ne_any_of_assignable hb hab
  have hany' := core_ne_any hb.of_core.1
  cases cs with
  | nil =>
    cases bound with
    | none => simp [H.assignable_free hany]
    | some x =>
      rw [H.assignable_bound hany]
      rw [H.assignable_bound hany'] at hbc
      refine ih a b x ?_ hb (htrans.of_target (Ty.classes_subset_of_bound i x []))  hab hbc
      simp only [Ty.typeVar.sizeOf_spec, Option.some.sizeOf_spec]
      omega
  | cons x cs =>
    rw [H.assignable_constrained hany, Ne, assignableAny_eq_false_iff]
    rw [H.assignable_constrained hany'] at hbc
    obtain ⟨y, hy, hby⟩ := exists_of_assignableAny_eq_true hbc
    intro hall
    have hay := hall y hy
    rw [assignable_core_source] at hay hby
    have hsub := List.Subset.trans (Ty.classes_subset_classesOf hy)
      (Ty.classesOf_subset i bound (x :: cs))
    refine ih a b y ?_ hb (htrans.of_target hsub) hab hby hay
    have hlt := List.sizeOf_lt_of_mem hy
    simp only [Ty.typeVar.sizeOf_spec]
    omega

theorem chain_union_source {u : UnionSpelling} {as : List Ty}
    (ih : H.ChainsBelow (sizeOf (Ty.union u as) + sizeOf b + sizeOf c)) (hb : b.Definite)
    (htrans : H.TransitiveOn (Ty.union u as).classes b.classes c.classes)
    (hbann : ∀ x rs, b ≠ .annotated x rs) (hcann : ∀ x rs, c ≠ .annotated x rs)
    (hc : c.isAny = false) (hcv : c.isTypeVar = false)
    (hab : H.assignable (.union u as) b = .ok true) (hbc : H.assignable b c = .ok true) :
    H.assignable (.union u as) c ≠ .ok false := by
  obtain ⟨hbany, hbv⟩ := Ty.core_of_ne_annotated hbann ▸ hb.of_core
  rw [H.assignable_union_source hbann hbany hbv, assignableAll_eq_true_iff] at hab
  rw [H.assignable_union_source hcann hc hcv]
  intro hfalse
  obtain ⟨x, hx, hxc⟩ := exists_of_assignableAll_eq_false hfalse
  refine ih x b c ?_ hb (htrans.of_source (Ty.classes_subset_classesOf hx)) (hab x hx) hbc hxc
  have hlt := List.sizeOf_lt_of_mem hx
  simp only [Ty.union.sizeOf_spec]
  omega

theorem chain_union_middle {u : UnionSpelling} {bs : List Ty}
    (ih : H.ChainsBelow (sizeOf a + sizeOf (Ty.union u bs) + sizeOf c))
    (hb : (Ty.union u bs).Definite)
    (htrans : H.TransitiveOn a.classes (Ty.union u bs).classes c.classes)
    (ha : a.isLeaf = true) (hcann : ∀ x rs, c ≠ .annotated x rs)
    (hc : c.isAny = false) (hcv : c.isTypeVar = false)
    (hab : H.assignable a (.union u bs) = .ok true)
    (hbc : H.assignable (.union u bs) c = .ok true) : H.assignable a c ≠ .ok false := by
  have hany := Ty.core_of_isLeaf ha ▸ core_ne_any_of_assignable hb hab
  rw [H.assignable_union_target ha hany] at hab
  rw [H.assignable_union_source hcann hc hcv, assignableAll_eq_true_iff] at hbc
  obtain ⟨y, hy, hay⟩ := exists_of_assignableAny_eq_true hab
  refine ih a y c ?_ (hb.of_mem hy) (htrans.of_middle (Ty.classes_subset_classesOf hy)) hay
    (hbc y hy)
  have hlt := List.sizeOf_lt_of_mem hy
  simp only [Ty.union.sizeOf_spec]
  omega

theorem chain_union_target {u : UnionSpelling} {cs : List Ty}
    (ih : H.ChainsBelow (sizeOf a + sizeOf b + sizeOf (Ty.union u cs))) (hb : b.Definite)
    (htrans : H.TransitiveOn a.classes b.classes (Ty.union u cs).classes)
    (ha : a.isLeaf = true) (hbl : b.isLeaf = true) (hab : H.assignable a b = .ok true)
    (hbc : H.assignable b (.union u cs) = .ok true) :
    H.assignable a (.union u cs) ≠ .ok false := by
  have hany := Ty.core_of_isLeaf ha ▸ core_ne_any_of_assignable hb hab
  have hany' := Ty.core_of_isLeaf hbl ▸ core_ne_any hb.of_core.1
  rw [H.assignable_union_target hbl hany'] at hbc
  rw [H.assignable_union_target ha hany, Ne, assignableAny_eq_false_iff]
  obtain ⟨z, hz, hbz⟩ := exists_of_assignableAny_eq_true hbc
  intro hall
  refine ih a b z ?_ hb (htrans.of_target (Ty.classes_subset_classesOf hz)) hab hbz (hall z hz)
  have hlt := List.sizeOf_lt_of_mem hz
  simp only [Ty.union.sizeOf_spec]
  omega

/-- Equal sources are not told apart by what they fit. -/
theorem chain_same (hab : a.same b = true) (hbc : H.assignable b c = .ok true) :
    H.assignable a c ≠ .ok false := by
  intro hac
  cases H.assignable_compatible hab c.same_self _ _ hac hbc

/-- A new name fits what it equals, and what the type below it fits. -/
theorem same_or_assignable_of_newType {i : Ident} {h : String} {x : Ty}
    (hb : b.isNewType = true ∨ b.isBasic = true)
    (hab : H.assignable (.newType i h x) b = .ok true) :
    (Ty.newType i h x).same b = true ∨ H.assignable x b = .ok true := by
  rcases hb with hb | hb
  · obtain ⟨j, k, y, rfl⟩ := Ty.exists_of_isNewType hb
    rw [H.assignable_newType_newType] at hab
    split at hab
    · next hsame => exact .inl hsame
    · exact .inr hab
  · rw [H.assignable_newType_source hb] at hab
    exact .inr hab

/-- A new name is refused only if the type below it is. -/
theorem assignable_eq_false_of_newType {i : Ident} {h : String} {x : Ty}
    (hc : c.isNewType = true ∨ c.isBasic = true)
    (hac : H.assignable (.newType i h x) c = .ok false) : H.assignable x c = .ok false := by
  rcases hc with hc | hc
  · obtain ⟨j, k, y, rfl⟩ := Ty.exists_of_isNewType hc
    rw [H.assignable_newType_newType] at hac
    split at hac
    · cases hac
    · exact hac
  · rwa [H.assignable_newType_source hc] at hac

theorem chain_newType_source {i : Ident} {h : String} {x : Ty}
    (ih : H.ChainsBelow (sizeOf (Ty.newType i h x) + sizeOf b + sizeOf c)) (hb : b.Definite)
    (htrans : H.TransitiveOn (Ty.newType i h x).classes b.classes c.classes)
    (hbl : b.isNewType = true ∨ b.isBasic = true) (hc : c.isNewType = true ∨ c.isBasic = true)
    (hab : H.assignable (.newType i h x) b = .ok true) (hbc : H.assignable b c = .ok true) :
    H.assignable (.newType i h x) c ≠ .ok false := by
  rcases same_or_assignable_of_newType hbl hab with hsame | hxb
  · exact chain_same hsame hbc
  · intro hac
    refine ih x b c ?_ hb htrans hxb hbc (assignable_eq_false_of_newType hc hac)
    simp only [Ty.newType.sizeOf_spec]
    omega

/-- Without new names in the source there are none in the other two types either. -/
theorem chain_leaf (htrans : H.TransitiveOn a.classes b.classes c.classes)
    (hal : a.isLeaf = true) (han : a.isNewType = false) (hany : a ≠ Ty.any) (hbl : b.isLeaf = true)
    (hany' : b ≠ Ty.any) (hb : b.isNewType = true ∨ b.isBasic = true)
    (hc : c.isNewType = true ∨ c.isBasic = true) (hab : H.assignable a b = .ok true)
    (hbc : H.assignable b c = .ok true) : H.assignable a c ≠ .ok false := by
  have hbb : b.isBasic = true := by
    refine hb.resolve_left fun hn => ?_
    obtain ⟨j, k, y, rfl⟩ := Ty.exists_of_isNewType hn
    rw [H.assignable_newType_target hal han] at hab
    cases hab
  have hbn : b.isNewType = false := by
    cases b with
    | newType => cases hbb
    | _ => rfl
  have hcb : c.isBasic = true := by
    refine hc.resolve_left fun hn => ?_
    obtain ⟨j, k, y, rfl⟩ := Ty.exists_of_isNewType hn
    rw [H.assignable_newType_target hbl hbn] at hbc
    cases hbc
  rw [H.assignable_basic hal han hany hbb] at hab
  rw [H.assignable_basic hbl hbn hany' hcb] at hbc
  rw [H.assignable_basic hal han hany hcb]
  exact assignableLeaf_trans htrans hab hbc

/-- One step of the three checks, for types without annotations around them. -/
theorem chain_step (ih : H.ChainsBelow (sizeOf a + sizeOf b + sizeOf c)) (hb : b.Definite)
    (htrans : H.TransitiveOn a.classes b.classes c.classes) (haann : ∀ x rs, a ≠ .annotated x rs)
    (hbann : ∀ x rs, b ≠ .annotated x rs) (hcann : ∀ x rs, c ≠ .annotated x rs)
    (hab : H.assignable a b = .ok true) (hbc : H.assignable b c = .ok true) :
    H.assignable a c ≠ .ok false := by
  rcases huniv : c.isAny with _ | _
  case true => simp [H.assignable_universal a huniv]
  rcases hcv : c.isTypeVar with _ | _
  case true =>
    obtain ⟨i, bound, cs, rfl⟩ := Ty.exists_of_isTypeVar hcv
    exact chain_variable ih hb htrans hab hbc
  rcases Ty.isLeaf_or_union haann with hal | ⟨u, as, rfl⟩
  case inr => exact chain_union_source ih hb htrans hbann hcann huniv hcv hab hbc
  rcases Ty.isLeaf_or_union hbann with hbl | ⟨u, bs, rfl⟩
  case inr => exact chain_union_middle ih hb htrans hal hcann huniv hcv hab hbc
  rcases Ty.isLeaf_or_union hcann with hcl | ⟨u, cs, rfl⟩
  case inr => exact chain_union_target ih hb htrans hal hbl hab hbc
  have hb' := Ty.isNewType_or_isBasic hbl (hb.of_leaf hbl).1 (hb.of_leaf hbl).2
  have hc' := Ty.isNewType_or_isBasic hcl huniv hcv
  have hany := Ty.core_of_isLeaf hal ▸ core_ne_any_of_assignable hb hab
  have hany' := Ty.core_of_isLeaf hbl ▸ core_ne_any hb.of_core.1
  rcases han : a.isNewType with _ | _
  case true =>
    obtain ⟨i, h, x, rfl⟩ := Ty.exists_of_isNewType han
    exact chain_newType_source ih hb htrans hb' hc' hab hbc
  exact chain_leaf htrans hal han hany hbl hany' hb' hc' hab hbc

theorem chains (H : Hierarchy) (n : Nat) : H.ChainsBelow n := by
  induction n with
  | zero => exact fun a b c h => absurd h (Nat.not_lt_zero _)
  | succ n ih =>
    intro a b c h hb htrans hab hbc
    have hla := Ty.sizeOf_core_le a
    have hlb := Ty.sizeOf_core_le b
    have hlc := Ty.sizeOf_core_le c
    -- annotations come off all three types
    rw [← H.assignable_core] at hab hbc ⊢
    rw [← Ty.classes_core a, ← Ty.classes_core b, ← Ty.classes_core c] at htrans
    refine chain_step (fun x y z hlt => ih x y z (by omega)) hb.core htrans ?_ ?_ ?_ hab hbc <;>
      exact Ty.core_ne_annotated _

end Hierarchy

/-- **Fitting is transitive.** Where the order between the classes in three types is transitive
and the second one takes not everything, a type that fits a second one fits what that one fits, or
there is no answer, because a literal value meets a class that refuses comparison. -/
theorem assignable_trans (H : Hierarchy) (a b c : Ty) (hb : b.Definite)
    (htrans : H.TransitiveOn a.classes b.classes c.classes) (hab : H.assignable a b = .ok true)
    (hbc : H.assignable b c = .ok true) :
    H.assignable a c = .ok true ∨ H.assignable a c = .error .wrongType ∧ ¬a.CanMeet c := by
  cases hac : H.assignable a c with
  | ok p =>
    cases p with
    | true => exact .inl rfl
    | false => exact absurd hac (H.chains _ a b c (Nat.lt_succ_self _) hb htrans hab hbc)
  | error f =>
    obtain ⟨rfl, hmeet⟩ := Hierarchy.assignable_eq_error hac
    exact .inr ⟨rfl, hmeet⟩

/-! ### A new name, a number and a choice -/

/-- A new name for truth values. -/
def consent : Ty := .newType ⟨1, "Consent"⟩ "tests" (.cls (.known .bool))

/-- Nothing or a number. -/
def optionalNumber : Ty := .union .form [Ty.noneType, .cls (.known .int)]

theorem assignable_trans_consent :
    (Ty.cls (.known .int)).Definite ∧
      Hierarchy.known.TransitiveOn consent.classes (Ty.cls (.known .int)).classes
        optionalNumber.classes ∧
      Hierarchy.known.assignable consent (.cls (.known .int)) = .ok true ∧
      Hierarchy.known.assignable (.cls (.known .int)) optionalNumber = .ok true ∧
      Hierarchy.known.assignable consent optionalNumber = .ok true := by
  have hb : (Ty.cls (.known .int)).Definite := by
    intro x hx
    obtain rfl := List.mem_singleton.mp hx
    exact ⟨rfl, rfl⟩
  have htrans : Hierarchy.known.TransitiveOn consent.classes (Ty.cls (.known .int)).classes
      optionalNumber.classes := by
    unfold Hierarchy.TransitiveOn
    decide
  have hab : Hierarchy.known.assignable consent (.cls (.known .int)) = .ok true := by
    rw [consent, Hierarchy.assignable_newType_source _ rfl,
      Hierarchy.assignable_basic _ rfl rfl (by simp [Ty.any]) rfl]
    rfl
  have hnone : Hierarchy.known.assignable (.cls (.known .int)) Ty.noneType = .ok false := by
    rw [Hierarchy.assignable_basic _ rfl rfl (by simp [Ty.any]) rfl]
    rfl
  have hint : Hierarchy.known.assignable (.cls (.known .int)) (.cls (.known .int)) = .ok true := by
    rw [Hierarchy.assignable_basic _ rfl rfl (by simp [Ty.any]) rfl]
    rfl
  have hbc : Hierarchy.known.assignable (.cls (.known .int)) optionalNumber = .ok true := by
    rw [optionalNumber, Hierarchy.assignable_union_target _ rfl (by simp [Ty.any]),
      Hierarchy.assignableAny, hnone, Hierarchy.assignableAny, hint]
    rfl
  -- there is no literal value in the source
  have hac := (assignable_trans Hierarchy.known _ _ _ hb htrans hab hbc).resolve_right
    fun h => h.2 (.inl rfl)
  exact ⟨hb, htrans, hab, hbc, hac⟩

end RecordText
