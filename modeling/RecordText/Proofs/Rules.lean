/-
The rules of the check, one by one.

Which rule decides depends on the outermost form of the two types only.  Annotations come off first
(`assignable_core`); each of the other rules is stated here for the forms that it is for, so that
what follows can go by cases on forms and need not open the check again.  Lists of types are told by
their members:

* `assignableAll_eq_true_iff`, `exists_of_assignableAll_eq_false` — every type of a list fits, or
  one was met that does not;
* `exists_of_assignableAny_eq_true`, `assignableAny_eq_false_iff` — some type of a list is fit, or
  all of them were tried in vain.

The last section says when there is no answer at all: only where a literal value meets a class that
refuses comparison (`assignable_eq_error`).
-/
import RecordText.Proofs.Leaves

namespace RecordText

namespace Ty

variable {t : Ty}

/-- A target that is compared by its class or by equality, unlike those that take everything or
are opened first. -/
def isBasic : Ty → Bool
  | .annotated _ _ | .union _ _ | .newType _ _ _ | .typeVar _ _ _ => false
  | t => !t.isAny

theorem exists_of_isTypeVar (ht : t.isTypeVar = true) : ∃ i b cs, t = .typeVar i b cs := by
  cases t with
  | typeVar i b cs => exact ⟨i, b, cs, rfl⟩
  | _ => cases ht

theorem exists_of_isNewType (ht : t.isNewType = true) : ∃ i h b, t = .newType i h b := by
  cases t with
  | newType i h b => exact ⟨i, h, b, rfl⟩
  | _ => cases ht

/-- What there is when annotations are off. -/
theorem isLeaf_or_union (ht : ∀ u rs, t ≠ .annotated u rs) :
    t.isLeaf = true ∨ ∃ u ts, t = .union u ts := by
  cases t with
  | annotated u rs => exact absurd rfl (ht u rs)
  | union u ts => exact .inr ⟨u, ts, rfl⟩
  | _ => exact .inl rfl

/-- A leaf that takes not everything and is no type variable is opened or compared. -/
theorem isNewType_or_isBasic (hl : t.isLeaf = true) (hany : t.isAny = false)
    (hv : t.isTypeVar = false) : t.isNewType = true ∨ t.isBasic = true := by
  cases t with
  | annotated | union => cases hl
  | typeVar => cases hv
  | newType => exact .inl rfl
  | _ => exact .inr (by simpa [isBasic] using hany)

theorem core_ne_annotated (t u : Ty) (rs : List Remark) : t.core ≠ .annotated u rs := by
  intro h
  rcases isLeaf_or_isUnion_core t with hc | hc <;> rw [h] at hc <;> cases hc

end Ty

namespace Hierarchy

variable {s t : Ty} {ss ts : List Ty}

/-! ### One rule at a time -/

/-- A universal target takes everything. -/
theorem assignable_universal (H : Hierarchy) (s : Ty) (ht : t.isAny = true) :
    H.assignable s t = .ok true := by
  cases s with
  | annotated s rs =>
    rw [assignable_annotated_source]
    exact H.assignable_universal s ht
  | _ =>
    rw [assignable.eq_def]
    cases t with
    | cls => exact if_pos ht
    | _ => cases ht
termination_by structural s

/-- The universal source fits nothing else. -/
theorem assignable_any_source (H : Hierarchy) (ht : t.core.isAny = false) :
    H.assignable Ty.any t = .ok false := by
  rw [← assignable_core_target, Ty.any, assignable.eq_def]
  generalize hc : t.core = u at ht
  cases u with
  | annotated x rs => exact absurd hc (t.core_ne_annotated x rs)
  | _ => exact if_neg (by simp [ht])

theorem assignable_free (H : Hierarchy) (hs : s.core ≠ Ty.any) (i : Ident) :
    H.assignable s (.typeVar i none []) = .ok true := by
  rw [← assignable_core_source, assignable]
  · rfl
  · exact s.core_ne_annotated
  · exact hs
  · simp

theorem assignable_bound (H : Hierarchy) (hs : s.core ≠ Ty.any) (i : Ident) (b : Ty) :
    H.assignable s (.typeVar i (some b) []) = H.assignable s b := by
  rw [← assignable_core_source, ← H.assignable_core_source s b, assignable]
  · rfl
  · exact s.core_ne_annotated
  · exact hs
  · simp

theorem assignable_constrained (H : Hierarchy) (hs : s.core ≠ Ty.any) (i : Ident)
    (b : Option Ty) (c : Ty) (cs : List Ty) :
    H.assignable s (.typeVar i b (c :: cs)) = H.assignableAny s.core (c :: cs) := by
  rw [← assignable_core_source, assignable]
  · rfl
  · exact s.core_ne_annotated
  · exact hs
  · simp

/-- The members of a source are looked at one by one, unless a type variable comes first. -/
theorem assignable_union_source (H : Hierarchy) (hann : ∀ x rs, t ≠ .annotated x rs)
    (ht : t.isAny = false) (hv : t.isTypeVar = false) (u : UnionSpelling) (ss : List Ty) :
    H.assignable (.union u ss) t = H.assignableAll ss t := by
  rw [assignable.eq_def]
  cases t with
  | annotated x rs => exact absurd rfl (hann x rs)
  | typeVar => cases hv
  | _ => exact if_neg (by simp [ht])

theorem assignable_union_target (H : Hierarchy) (hs : s.isLeaf = true) (hany : s ≠ Ty.any)
    (u : UnionSpelling) (ts : List Ty) :
    H.assignable s (.union u ts) = H.assignableAny s ts := by
  cases s with
  | annotated => cases hs
  | union => cases hs
  | _ =>
    rw [assignable]
    · rfl
    · simp
    · exact hany
    · simp
    · simp

/-- A new name fits itself and the new names below it. -/
theorem assignable_newType_newType (H : Hierarchy) (i j : Ident) (h k : String) (b c : Ty) :
    H.assignable (.newType i h b) (.newType j k c) =
      if (Ty.newType i h b).same (.newType j k c) then .ok true
      else H.assignable b (.newType j k c) := by
  rw [assignable]
  rfl

/-- Nothing else fits a new name. -/
theorem assignable_newType_target (H : Hierarchy) (hs : s.isLeaf = true)
    (hn : s.isNewType = false) (i : Ident) (h : String) (b : Ty) :
    H.assignable s (.newType i h b) = .ok false := by
  by_cases hany : s = Ty.any
  · rw [hany]
    exact H.assignable_any_source rfl
  cases s with
  | annotated => cases hs
  | union => cases hs
  | newType => cases hn
  | _ =>
    rw [assignable]
    · rfl
    · simp
    · exact hany
    all_goals simp

/-- A new name stands for what it renames where the target is compared. -/
theorem assignable_newType_source (H : Hierarchy) (ht : t.isBasic = true) (i : Ident)
    (h : String) (b : Ty) : H.assignable (.newType i h b) t = H.assignable b t := by
  cases t with
  | annotated | union | newType | typeVar => cases ht
  | cls c =>
    rw [assignable, if_neg (by simpa [Ty.isBasic] using ht)]
    all_goals simp
  | _ =>
    rw [assignable, if_neg (by simp [Ty.isAny])]
    all_goals simp

/-- What is left is compared. -/
theorem assignable_basic (H : Hierarchy) (hs : s.isLeaf = true) (hn : s.isNewType = false)
    (hany : s ≠ Ty.any) (ht : t.isBasic = true) :
    H.assignable s t = H.assignableLeaf (asClass s) (asClass t) := by
  have htany : t.isAny = false := by
    cases t with
    | cls c => simpa [Ty.isBasic] using ht
    | _ => rfl
  rw [assignable, if_neg (by simp [htany])]
  case x_2 => exact hany
  -- the other rules are for forms that the two types do not have
  all_goals
    intros
    subst_vars
    simp [Ty.isLeaf, Ty.isNewType, Ty.isBasic] at hs hn ht

/-! ### Lists of types -/

theorem assignableAll_eq_true_iff {H : Hierarchy} :
    H.assignableAll ss t = .ok true ↔ ∀ s ∈ ss, H.assignable s t = .ok true := by
  induction ss with
  | nil => simp [assignableAll]
  | cons s ss ih =>
    rw [assignableAll, List.forall_mem_cons, ← ih]
    cases hs : H.assignable s t with
    | error f => simp
    | ok b => cases b <;> simp

theorem exists_of_assignableAll_eq_false {H : Hierarchy} (h : H.assignableAll ss t = .ok false) :
    ∃ s ∈ ss, H.assignable s t = .ok false := by
  induction ss with
  | nil => simp [assignableAll] at h
  | cons s ss ih =>
    rw [assignableAll] at h
    cases hs : H.assignable s t with
    | error f => simp [hs] at h
    | ok b =>
      cases b with
      | false => exact ⟨s, List.mem_cons_self, hs⟩
      | true =>
        obtain ⟨x, hx, hfalse⟩ := ih (by simpa [hs] using h)
        exact ⟨x, List.mem_cons_of_mem s hx, hfalse⟩

theorem exists_of_assignableAny_eq_true {H : Hierarchy} (h : H.assignableAny s ts = .ok true) :
    ∃ t ∈ ts, H.assignable s t = .ok true := by
  induction ts with
  | nil => simp [assignableAny] at h
  | cons t ts ih =>
    rw [assignableAny] at h
    cases ht : H.assignable s t with
    | error f => simp [ht] at h
    | ok b =>
      cases b with
      | true => exact ⟨t, List.mem_cons_self, ht⟩
      | false =>
        obtain ⟨x, hx, htrue⟩ := ih (by simpa [ht] using h)
        exact ⟨x, List.mem_cons_of_mem t hx, htrue⟩

theorem assignableAny_eq_false_iff {H : Hierarchy} :
    H.assignableAny s ts = .ok false ↔ ∀ t ∈ ts, H.assignable s t = .ok false := by
  induction ts with
  | nil => simp [assignableAny]
  | cons t ts ih =>
    rw [assignableAny, List.forall_mem_cons, ← ih]
    cases ht : H.assignable s t with
    | error f => simp
    | ok b => cases b <;> simp

/-! ### Comparing -/

theorem acceptsAll_eq_true_iff {H : Hierarchy} {c : ClassRef} {ls : List Literal} :
    H.acceptsAll c ls = .ok true ↔ ∀ l ∈ ls, H.subclass? (.known l.kind) c = some true := by
  induction ls with
  | nil => simp [acceptsAll]
  | cons l ls ih =>
    rw [acceptsAll, List.forall_mem_cons, ← ih]
    cases H.subclass? (.known l.kind) c with
    | none => simp
    | some b => cases b <;> simp

theorem exists_of_acceptsAll_eq_false {H : Hierarchy} {c : ClassRef} {ls : List Literal}
    (h : H.acceptsAll c ls = .ok false) : ∃ l ∈ ls, H.subclass? (.known l.kind) c = some false := by
  induction ls with
  | nil => simp [acceptsAll] at h
  | cons l ls ih =>
    rw [acceptsAll] at h
    cases hl : H.subclass? (.known l.kind) c with
    | none => simp [hl] at h
    | some b =>
      cases b with
      | false => exact ⟨l, List.mem_cons_self, hl⟩
      | true =>
        obtain ⟨k, hk, hfalse⟩ := ih (by simpa [hl] using h)
        exact ⟨k, List.mem_cons_of_mem l hk, hfalse⟩

/-- A source without literal values is compared as a class, if it has one and the target has one,
and by equality otherwise. -/
theorem assignableLeaf_of_not_literal {H : Hierarchy} (hs : ¬∃ ls, s = .literal ls) :
    H.assignableLeaf s t =
      match s.originClass?, t.originClass? with
      | some a, some b => .ok ((H.subclass? a b).getD false)
      | _, _ => .ok (s.same t) := by
  unfold assignableLeaf
  split
  · exact absurd ⟨_, rfl⟩ hs
  · rfl

/-! ### Without an answer -/

/-- **There is no answer only where a literal value meets a class that refuses comparison.** -/
theorem assignable_eq_error {H : Hierarchy} {f : Fault} (h : H.assignable s t = .error f) :
    f = .wrongType ∧ ¬s.CanMeet t := by
  refine ⟨H.assignable_failsWith s t f h, fun hmeet => ?_⟩
  obtain ⟨b, hb⟩ := H.exists_assignable_of_canMeet s t hmeet
  rw [h] at hb
  cases hb

end Hierarchy

end RecordText
