/-
Equal types may stand for each other.

Declared types are equal up to the order of union members and literal values and up to the spelling
of unions (`Ty.same`), while the check tries members and values one after the other.

What fits does not depend on this, but whether there is an answer does: a literal value that is
compared with a class that refuses it leaves the check without one, and whether it comes to that
depends on what was tried before.

* `Compatible` — two outcomes that are no different results;
* `Hierarchy.assignable_compatible` — **equal types fit alike**, on both sides of the check;
* `Hierarchy.assignable_of_same` — **where no literal value meets a class that refuses comparison**
  (`Ty.CanMeet`), **equal types get the same answer.**
-/
import RecordText.Proofs.Rules
import RecordText.Proofs.Sameness

namespace RecordText

/-- Two outcomes that are no different results. -/
def Compatible {ε α : Type} (r r' : Except ε α) : Prop :=
  ∀ a a', r = .ok a → r' = .ok a' → a = a'

theorem Compatible.of_eq {ε α : Type} {r r' : Except ε α} (h : r = r') : Compatible r r' := by
  subst h
  intro a a' ha ha'
  exact Except.ok.inj (ha.symm.trans ha')

namespace Ty

variable {s t u x : Ty} {ts us : List Ty}

/-! ### Forms of equal types -/

/-- The outermost form of a type, emptied of what the type is made of. -/
def head : Ty → Ty
  | .generic g c _ => .generic g c []
  | .union _ _ => .union .form []
  | .annotated _ _ => .annotated .absent []
  | .literal _ => .literal []
  | .classVar _ => .classVar .absent
  | .initVar _ => .initVar .absent
  | .newType i h _ => .newType i h .absent
  | .typeVar i _ _ => .typeVar i none []
  | t => t

theorem head_of_same (h : t.same u = true) : t.head = u.head := by
  cases t with
  | generic | newType | typeVar =>
    cases u with
    | generic | newType | typeVar => simp_all [same, head]
    | _ => cases h
  | union | annotated | literal | classVar | initVar =>
    cases u with
    | union | annotated | literal | classVar | initVar => first | rfl | cases h
    | _ => cases h
  | _ => rw [eq_of_same rfl h]

/-- What depends on the outermost form alone is the same for equal types. -/
theorem congr_of_same {α : Type} (p : Ty → α) (hp : ∀ t, p t.head = p t) (h : t.same u = true) :
    p t = p u := by
  rw [← hp t, head_of_same h, hp u]

theorem isLeaf_of_same (h : t.same u = true) : t.isLeaf = u.isLeaf :=
  congr_of_same _ (fun t => by cases t <;> rfl) h

theorem isNewType_of_same (h : t.same u = true) : t.isNewType = u.isNewType :=
  congr_of_same _ (fun t => by cases t <;> rfl) h

theorem isTypeVar_of_same (h : t.same u = true) : t.isTypeVar = u.isTypeVar :=
  congr_of_same _ (fun t => by cases t <;> rfl) h

theorem isAny_of_same (h : t.same u = true) : t.isAny = u.isAny :=
  congr_of_same _ (fun t => by cases t <;> rfl) h

theorem isBasic_of_same (h : t.same u = true) : t.isBasic = u.isBasic :=
  congr_of_same _ (fun t => by cases t <;> rfl) h

theorem originClass?_of_same (h : t.same u = true) : t.originClass? = u.originClass? :=
  congr_of_same _ (fun t => by cases t <;> rfl) h

theorem core_of_isLeaf (ht : t.isLeaf = true) : t.core = t := by
  cases t with
  | annotated => cases ht
  | _ => rfl

theorem core_of_ne_annotated (ht : ∀ u rs, t ≠ .annotated u rs) : t.core = t := by
  cases t with
  | annotated u rs => exact absurd rfl (ht u rs)
  | _ => rfl

/-- Equal types are equal without the annotations around them. -/
theorem core_same (t u : Ty) (h : t.same u = true) : t.core.same u.core = true := by
  cases t with
  | annotated t rs =>
    cases u with
    | annotated u qs => exact core_same t u (Bool.and_eq_true_iff.mp h).1
    | _ => cases h
  | union s ts =>
    cases u with
    | union => exact h
    | _ => cases h
  | _ =>
    have hu : u.isLeaf = true := (isLeaf_of_same h).symm
    rw [core_of_isLeaf rfl, core_of_isLeaf hu]
    exact h
termination_by structural t

theorem sizeOf_core_le (t : Ty) : sizeOf t.core ≤ sizeOf t := by
  cases t with
  | annotated t rs =>
    have h : sizeOf t.core ≤ sizeOf t := sizeOf_core_le t
    show sizeOf t.core ≤ _
    simp only [annotated.sizeOf_spec]
    omega
  | _ => exact Nat.le_refl _
termination_by structural t

/-! ### Members of equal types -/

/-- Every type of one list has an equal one in the other. -/
def SameMembers (ts us : List Ty) : Prop :=
  (∀ t ∈ ts, ∃ x ∈ us, t.same x = true) ∧ ∀ x ∈ us, ∃ t ∈ ts, t.same x = true

theorem sameMembers_of_samePairwise (h : samePairwise ts us = true) : SameMembers ts us := by
  induction ts generalizing us with
  | nil =>
    cases us with
    | nil => exact ⟨by simp, by simp⟩
    | cons => cases h
  | cons t ts ih =>
    cases us with
    | nil => cases h
    | cons u us =>
      obtain ⟨htu, hrest⟩ := Bool.and_eq_true_iff.mp h
      obtain ⟨hts, hus⟩ := ih hrest
      simp only [SameMembers, List.forall_mem_cons, List.exists_mem_cons_iff, htu, true_or,
        true_and]
      exact ⟨fun t ht => .inr (hts t ht), fun x hx => .inr (hus x hx)⟩

end Ty

/-! ### The check -/

namespace Hierarchy

variable {H : Hierarchy} {s s' t t' : Ty} {ss ss' ts ts' : List Ty}

/-- Sources in any order, each of them fitting like its equals. -/
theorem compatible_all (h : Ty.SameMembers ss ss') (hmember : ∀ x ∈ ss, ∀ x', x.same x' = true →
      Compatible (H.assignable x t) (H.assignable x' t')) :
    Compatible (H.assignableAll ss t) (H.assignableAll ss' t') := by
  intro b b' hb hb'
  cases b with
  | true =>
    cases b' with
    | true => rfl
    | false =>
      obtain ⟨x', hx', hfalse⟩ := exists_of_assignableAll_eq_false hb'
      obtain ⟨x, hx, hsame⟩ := h.2 x' hx'
      exact hmember x hx x' hsame _ _ (assignableAll_eq_true_iff.mp hb x hx) hfalse
  | false =>
    cases b' with
    | false => rfl
    | true =>
      obtain ⟨x, hx, hfalse⟩ := exists_of_assignableAll_eq_false hb
      obtain ⟨x', hx', hsame⟩ := h.1 x hx
      exact hmember x hx x' hsame _ _ hfalse (assignableAll_eq_true_iff.mp hb' x' hx')

/-- Targets in any order, each of them fit like its equals. -/
theorem compatible_any (h : Ty.SameMembers ts ts') (hmember : ∀ x ∈ ts, ∀ x', x.same x' = true →
      Compatible (H.assignable s x) (H.assignable s' x')) :
    Compatible (H.assignableAny s ts) (H.assignableAny s' ts') := by
  intro b b' hb hb'
  cases b with
  | true =>
    cases b' with
    | true => rfl
    | false =>
      obtain ⟨x, hx, htrue⟩ := exists_of_assignableAny_eq_true hb
      obtain ⟨x', hx', hsame⟩ := h.1 x hx
      exact hmember x hx x' hsame _ _ htrue (assignableAny_eq_false_iff.mp hb' x' hx')
  | false =>
    cases b' with
    | false => rfl
    | true =>
      obtain ⟨x', hx', htrue⟩ := exists_of_assignableAny_eq_true hb'
      obtain ⟨x, hx, hsame⟩ := h.2 x' hx'
      exact hmember x hx x' hsame _ _ (assignableAny_eq_false_iff.mp hb x hx) htrue

theorem compatible_acceptsAll (c : ClassRef) {ks ls : List Literal} (h : ∀ l, l ∈ ks ↔ l ∈ ls) :
    Compatible (H.acceptsAll c ks) (H.acceptsAll c ls) := by
  intro b b' hb hb'
  cases b with
  | true =>
    cases b' with
    | true => rfl
    | false =>
      obtain ⟨l, hl, hfalse⟩ := exists_of_acceptsAll_eq_false hb'
      have htrue := acceptsAll_eq_true_iff.mp hb l ((h l).mpr hl)
      rw [hfalse] at htrue
      cases htrue
  | false =>
    cases b' with
    | false => rfl
    | true =>
      obtain ⟨l, hl, hfalse⟩ := exists_of_acceptsAll_eq_false hb
      have htrue := acceptsAll_eq_true_iff.mp hb' l ((h l).mp hl)
      rw [hfalse] at htrue
      cases htrue

theorem same_congr (hs : s.same s' = true) (ht : t.same t' = true) : s.same t = s'.same t' := by
  rw [Bool.eq_iff_iff]
  constructor
  · intro h
    exact Ty.same_trans _ _ _ (Ty.same_trans _ _ _ (Ty.same_symm _ _ hs) h) ht
  · intro h
    exact Ty.same_trans _ _ _ (Ty.same_trans _ _ _ hs h) (Ty.same_symm _ _ ht)

theorem compatible_leaf (hs : s.same s' = true) (ht : t.same t' = true) :
    Compatible (H.assignableLeaf s t) (H.assignableLeaf s' t') := by
  have hsame := same_congr hs ht
  have hc := Ty.originClass?_of_same hs
  have hd := Ty.originClass?_of_same ht
  by_cases hlit : ∃ ks, s = .literal ks
  · obtain ⟨ks, rfl⟩ := hlit
    cases s' with
    | literal ls =>
      simp only [assignableLeaf, ← hd, ← hsame]
      cases t.originClass? with
      | none => exact .of_eq rfl
      | some c => exact compatible_acceptsAll c (Ty.sameLiterals_iff.mp hs)
    | _ => cases hs
  · have hlit' : ¬∃ ls, s' = .literal ls := by
      rintro ⟨ls, rfl⟩
      cases s with
      | literal ks => exact hlit ⟨ks, rfl⟩
      | _ => cases hs
    rw [assignableLeaf_of_not_literal hlit, assignableLeaf_of_not_literal hlit', hc, hd, hsame]
    exact .of_eq rfl

theorem asClass_same (h : t.same t' = true) : (asClass t).same (asClass t') = true := by
  cases t with
  | absent =>
    obtain rfl := Ty.eq_of_same rfl h
    rfl
  | _ =>
    cases t' with
    | absent => cases h
    | _ => exact h

/-- Equal types fit alike as long as they are small. -/
def AlikeBelow (H : Hierarchy) (n : Nat) : Prop :=
  ∀ s t s' t' : Ty, sizeOf s + sizeOf t < n → s.same s' = true → t.same t' = true →
    Compatible (H.assignable s t) (H.assignable s' t')

theorem compatible_variable {i : Ident} {b : Option Ty} {cs : List Ty}
    (ih : H.AlikeBelow (sizeOf s + sizeOf (Ty.typeVar i b cs))) (hs : s.same s' = true)
    (hany : s.core ≠ Ty.any) (hany' : s'.core ≠ Ty.any)
    (ht : (Ty.typeVar i b cs).same t' = true) :
    Compatible (H.assignable s (.typeVar i b cs)) (H.assignable s' t') := by
  cases t' with
  | typeVar i' b' cs' =>
    simp only [Ty.same, Bool.and_eq_true] at ht
    obtain ⟨⟨-, hb⟩, hcs⟩ := ht
    cases cs with
    | nil =>
      cases cs' with
      | cons => cases hcs
      | nil =>
        cases b with
        | none =>
          cases b' with
          | some => cases hb
          | none =>
            rw [H.assignable_free hany, H.assignable_free hany']
            exact .of_eq rfl
        | some b =>
          cases b' with
          | none => cases hb
          | some b' =>
            rw [H.assignable_bound hany, H.assignable_bound hany']
            refine ih _ _ _ _ ?_ hs hb
            simp only [Ty.typeVar.sizeOf_spec, Option.some.sizeOf_spec]
            omega
    | cons c cs =>
      cases cs' with
      | nil => cases hcs
      | cons c' cs' =>
        rw [H.assignable_constrained hany, H.assignable_constrained hany']
        refine compatible_any (Ty.sameMembers_of_samePairwise hcs) fun x hx x' hsame => ?_
        rw [assignable_core_source, assignable_core_source]
        refine ih _ _ _ _ ?_ hs hsame
        have hlt := List.sizeOf_lt_of_mem hx
        simp only [Ty.typeVar.sizeOf_spec]
        omega
  | _ => cases ht

theorem compatible_union_source {u : UnionSpelling}
    (ih : H.AlikeBelow (sizeOf (Ty.union u ss) + sizeOf t)) (hs : (Ty.union u ss).same s' = true)
    (ht : t.same t' = true) (hann : ∀ x rs, t ≠ .annotated x rs)
    (hann' : ∀ x rs, t' ≠ .annotated x rs) (hany : t.isAny = false) (hv : t.isTypeVar = false) :
    Compatible (H.assignable (.union u ss) t) (H.assignable s' t') := by
  have hany' : t'.isAny = false := Ty.isAny_of_same ht ▸ hany
  have hv' : t'.isTypeVar = false := Ty.isTypeVar_of_same ht ▸ hv
  cases s' with
  | union u' ss' =>
    rw [H.assignable_union_source hann hany hv, H.assignable_union_source hann' hany' hv']
    refine compatible_all (Ty.same_union_iff.mp hs) fun x hx x' hsame => ih _ _ _ _ ?_ hsame ht
    have hlt := List.sizeOf_lt_of_mem hx
    simp only [Ty.union.sizeOf_spec]
    omega
  | _ => cases hs

theorem compatible_union_target {u : UnionSpelling}
    (ih : H.AlikeBelow (sizeOf s + sizeOf (Ty.union u ts))) (hs : s.same s' = true)
    (ht : (Ty.union u ts).same t' = true) (hl : s.isLeaf = true) (hany : s ≠ Ty.any)
    (hany' : s' ≠ Ty.any) :
    Compatible (H.assignable s (.union u ts)) (H.assignable s' t') := by
  have hl' : s'.isLeaf = true := Ty.isLeaf_of_same hs ▸ hl
  cases t' with
  | union u' ts' =>
    rw [H.assignable_union_target hl hany, H.assignable_union_target hl' hany']
    refine compatible_any (Ty.same_union_iff.mp ht) fun x hx x' hsame => ih _ _ _ _ ?_ hs hsame
    have hlt := List.sizeOf_lt_of_mem hx
    simp only [Ty.union.sizeOf_spec]
    omega
  | _ => cases ht

theorem compatible_newType_target {j : Ident} {k : String} {c : Ty}
    (ih : H.AlikeBelow (sizeOf s + sizeOf (Ty.newType j k c))) (hs : s.same s' = true)
    (ht : (Ty.newType j k c).same t' = true) (hl : s.isLeaf = true) :
    Compatible (H.assignable s (.newType j k c)) (H.assignable s' t') := by
  have hl' : s'.isLeaf = true := Ty.isLeaf_of_same hs ▸ hl
  have hn' := Ty.isNewType_of_same hs
  cases t' with
  | newType j' k' c' =>
    cases s with
    | newType i h b =>
      cases s' with
      | newType i' h' b' =>
        rw [H.assignable_newType_newType, H.assignable_newType_newType, same_congr hs ht]
        split
        · exact .of_eq rfl
        · refine ih _ _ _ _ ?_ (Bool.and_eq_true_iff.mp hs).2 ht
          simp only [Ty.newType.sizeOf_spec]
          omega
      | _ => cases hs
    | _ =>
      rw [H.assignable_newType_target hl rfl, H.assignable_newType_target hl' hn'.symm]
      exact .of_eq rfl
  | _ => cases ht

theorem compatible_basic_target (ih : H.AlikeBelow (sizeOf s + sizeOf t)) (hs : s.same s' = true)
    (ht : t.same t' = true) (hl : s.isLeaf = true) (hany : s ≠ Ty.any) (hany' : s' ≠ Ty.any)
    (hb : t.isBasic = true) : Compatible (H.assignable s t) (H.assignable s' t') := by
  have hl' : s'.isLeaf = true := Ty.isLeaf_of_same hs ▸ hl
  have hn' := Ty.isNewType_of_same hs
  have hb' : t'.isBasic = true := Ty.isBasic_of_same ht ▸ hb
  cases s with
  | newType i h b =>
    cases s' with
    | newType i' h' b' =>
      rw [H.assignable_newType_source hb, H.assignable_newType_source hb']
      refine ih _ _ _ _ ?_ (Bool.and_eq_true_iff.mp hs).2 ht
      simp only [Ty.newType.sizeOf_spec]
      omega
    | _ => cases hs
  | _ =>
    rw [H.assignable_basic hl rfl hany hb, H.assignable_basic hl' hn'.symm hany' hb']
    exact compatible_leaf (asClass_same hs) (asClass_same ht)

/-- One step of the check, for types without annotations around them. The cases are those of the
rules, in their order. -/
theorem compatible_step (ih : H.AlikeBelow (sizeOf s + sizeOf t)) (hs : s.same s' = true)
    (ht : t.same t' = true) (hsa : ∀ x rs, s ≠ .annotated x rs)
    (hsa' : ∀ x rs, s' ≠ .annotated x rs) (hta : ∀ x rs, t ≠ .annotated x rs)
    (hta' : ∀ x rs, t' ≠ .annotated x rs) :
    Compatible (H.assignable s t) (H.assignable s' t') := by
  have hcore := Ty.core_of_ne_annotated hsa
  have hcore' := Ty.core_of_ne_annotated hsa'
  rcases huniv : t.isAny with _ | _
  case true =>
    have huniv' : t'.isAny = true := Ty.isAny_of_same ht ▸ huniv
    rw [H.assignable_universal s huniv, H.assignable_universal s' huniv']
    exact .of_eq rfl
  have huniv' : t'.isAny = false := Ty.isAny_of_same ht ▸ huniv
  by_cases hany : s = Ty.any
  · subst hany
    obtain rfl := Ty.eq_of_same rfl hs
    rw [← Ty.core_of_ne_annotated hta] at huniv
    rw [← Ty.core_of_ne_annotated hta'] at huniv'
    rw [H.assignable_any_source huniv, H.assignable_any_source huniv']
    exact .of_eq rfl
  have hany' : s' ≠ Ty.any := by
    rintro rfl
    exact hany (Ty.eq_of_same rfl (Ty.same_symm _ _ hs)).symm
  rcases hv : t.isTypeVar with _ | _
  case true =>
    obtain ⟨i, b, cs, rfl⟩ := Ty.exists_of_isTypeVar hv
    exact compatible_variable ih hs (hcore.symm ▸ hany) (hcore'.symm ▸ hany') ht
  rcases Ty.isLeaf_or_union hsa with hl | ⟨u, ss, rfl⟩
  case inr => exact compatible_union_source ih hs ht hta hta' huniv hv
  rcases Ty.isLeaf_or_union hta with htl | ⟨u, ts, rfl⟩
  case inr => exact compatible_union_target ih hs ht hl hany hany'
  rcases Ty.isNewType_or_isBasic htl huniv hv with hn | hb
  · obtain ⟨j, k, c, rfl⟩ := Ty.exists_of_isNewType hn
    exact compatible_newType_target ih hs ht hl
  · exact compatible_basic_target ih hs ht hl hany hany' hb

theorem alikeBelow (H : Hierarchy) (n : Nat) : H.AlikeBelow n := by
  induction n with
  | zero => exact fun s t s' t' h => absurd h (Nat.not_lt_zero _)
  | succ n ih =>
    intro s t s' t' h hs ht
    -- annotations come off on both sides
    rw [← H.assignable_core s t, ← H.assignable_core s' t']
    have hls := Ty.sizeOf_core_le s
    have hlt := Ty.sizeOf_core_le t
    refine compatible_step (fun x y x' y' hlt' => ih x y x' y' (by omega)) (Ty.core_same s s' hs)
      (Ty.core_same t t' ht) ?_ ?_ ?_ ?_ <;> exact Ty.core_ne_annotated _

/-- **Equal types fit alike.** -/
theorem assignable_compatible (H : Hierarchy) (hs : s.same s' = true) (ht : t.same t' = true) :
    Compatible (H.assignable s t) (H.assignable s' t') :=
  H.alikeBelow _ s t s' t' (Nat.lt_succ_self _) hs ht

end Hierarchy

/-! ### Where the check has an answer -/

namespace Ty

variable {t u : Ty} {ts us : List Ty}

/-- If equal members have equal targets, so do lists of equal members. -/
theorem exists_mem_targetsOf (h : SameMembers ts us) (hmember : ∀ t ∈ ts, ∀ u : Ty,
      t.same u = true → ∀ x ∈ t.targets, ∃ y ∈ u.targets, x.same y = true) :
    ∀ x ∈ targetsOf ts, ∃ y ∈ targetsOf us, x.same y = true := by
  intro x hx
  obtain ⟨t, ht, hx⟩ := mem_targetsOf.mp hx
  obtain ⟨u, hu, hsame⟩ := h.1 t ht
  obtain ⟨y, hy, hxy⟩ := hmember t ht u hsame x hx
  exact ⟨y, mem_targetsOf.mpr ⟨u, hu, hy⟩, hxy⟩

mutual

/-- What there is to fit in a type has its equal in every equal type. -/
theorem exists_target_of_same (t u : Ty) (h : t.same u = true) :
    ∀ x ∈ t.targets, ∃ y ∈ u.targets, x.same y = true := by
  cases t with
  | annotated t rs =>
    cases u with
    | annotated u qs => exact exists_target_of_same t u (Bool.and_eq_true_iff.mp h).1
    | _ => cases h
  | union s ts =>
    cases u with
    | union r us => exact exists_mem_targetsOf (same_union_iff.mp h) (exists_target_of_mem ts)
    | _ => cases h
  | typeVar i b cs =>
    cases u with
    | typeVar j c ds =>
      simp only [same, Bool.and_eq_true, beq_iff_eq] at h
      obtain ⟨⟨rfl, hb⟩, hcs⟩ := h
      cases cs with
      | cons =>
        cases ds with
        | nil => cases hcs
        | cons =>
          exact exists_mem_targetsOf (sameMembers_of_samePairwise hcs) (exists_target_of_mem _)
      | nil =>
        cases ds with
        | cons => cases hcs
        | nil =>
          cases b with
          | none =>
            cases c with
            | some => cases hb
            | none => exact fun x hx => ⟨x, hx, same_self x⟩
          | some b =>
            cases c with
            | none => cases hb
            | some c => exact exists_target_of_same b c hb
    | _ => cases h
  | _ =>
    intro x hx
    obtain rfl := List.mem_singleton.mp hx
    have hu : u.targets = [u] :=
      targets_of_isLeaf (isLeaf_of_same h ▸ rfl) (isTypeVar_of_same h ▸ rfl)
    exact ⟨u, hu ▸ List.mem_singleton.mpr rfl, h⟩
termination_by structural t

theorem exists_target_of_mem (ts : List Ty) : ∀ t ∈ ts, ∀ u : Ty, t.same u = true →
    ∀ x ∈ t.targets, ∃ y ∈ u.targets, x.same y = true := by
  cases ts with
  | nil => exact fun t ht => absurd ht List.not_mem_nil
  | cons t ts =>
    exact List.forall_mem_cons.mpr ⟨exists_target_of_same t, exists_target_of_mem ts⟩
termination_by structural ts

end

theorem Comparable.of_same (ht : t.Comparable) (h : t.same u = true) : u.Comparable := by
  intro y hy c hc
  obtain ⟨x, hx, hyx⟩ := exists_target_of_same u t (same_symm t u h) y hy
  exact ht x hx c (originClass?_of_same hyx ▸ hc)

mutual

/-- Equal types have the same literal values in them. -/
theorem literals_subset_of_same (t u : Ty) (h : t.same u = true) : t.literals ⊆ u.literals := by
  cases t with
  | annotated t rs =>
    cases u with
    | annotated u qs => exact literals_subset_of_same t u (Bool.and_eq_true_iff.mp h).1
    | _ => cases h
  | union s ts =>
    cases u with
    | union r us =>
      intro l hl
      obtain ⟨t, ht, hl⟩ := mem_literalsOf.mp hl
      obtain ⟨u, hu, hsame⟩ := (same_union_iff.mp h).1 t ht
      exact mem_literalsOf.mpr ⟨u, hu, literals_subset_of_mem ts t ht u hsame hl⟩
    | _ => cases h
  | newType i g t =>
    cases u with
    | newType j k u => exact literals_subset_of_same t u (Bool.and_eq_true_iff.mp h).2
    | _ => cases h
  | literal ls =>
    cases u with
    | literal ks => exact fun l => (sameLiterals_iff.mp h l).mp
    | _ => cases h
  | _ => exact List.nil_subset _
termination_by structural t

theorem literals_subset_of_mem (ts : List Ty) :
    ∀ t ∈ ts, ∀ u : Ty, t.same u = true → t.literals ⊆ u.literals := by
  cases ts with
  | nil => exact fun t ht => absurd ht List.not_mem_nil
  | cons t ts =>
    exact List.forall_mem_cons.mpr ⟨literals_subset_of_same t, literals_subset_of_mem ts⟩
termination_by structural ts

end

theorem literals_eq_nil_of_same (ht : t.literals = []) (h : t.same u = true) : u.literals = [] :=
  List.subset_nil.mp (ht ▸ literals_subset_of_same u t (same_symm t u h))

theorem CanMeet.of_same {t' u' : Ty} (h : t.CanMeet u) (ht : t.same t' = true)
    (hu : u.same u' = true) : t'.CanMeet u' :=
  h.imp (fun h => literals_eq_nil_of_same h ht) fun h => h.of_same hu

end Ty

namespace Hierarchy

variable {H : Hierarchy} {s s' t t' : Ty}

/-- **Equal types that can meet get the same answer.** -/
theorem assignable_of_same (H : Hierarchy) (h : s.CanMeet t) (hs : s.same s' = true)
    (ht : t.same t' = true) : H.assignable s t = H.assignable s' t' := by
  obtain ⟨b, hb⟩ := H.exists_assignable_of_canMeet s t h
  obtain ⟨b', hb'⟩ := H.exists_assignable_of_canMeet s' t' (h.of_same hs ht)
  rw [hb, hb', H.assignable_compatible hs ht b b' hb hb']

/-- A number fits the numbers before the class that refuses comparison is asked, or not at all. -/
example : known.assignable (.literal [.int 1]) (.union .form [.cls (.known .int),
      .cls (.known .proto)]) = .ok true ∧
    known.assignable (.literal [.int 1]) (.union .form [.cls (.known .proto),
      .cls (.known .int)]) = .error .wrongType := by
  have hint : known.assignable (.literal [.int 1]) (.cls (.known .int)) = .ok true := by
    rw [known.assignable_basic rfl rfl (by simp [Ty.any]) rfl]
    rfl
  have hproto : known.assignable (.literal [.int 1]) (.cls (.known .proto)) =
      .error .wrongType := by
    rw [known.assignable_basic rfl rfl (by simp [Ty.any]) rfl]
    rfl
  constructor
  · rw [known.assignable_union_target rfl (by simp [Ty.any]), assignableAny, hint]
    rfl
  · rw [known.assignable_union_target rfl (by simp [Ty.any]), assignableAny, hproto]
    rfl

end Hierarchy

end RecordText
