/-
New names in the check of declared types.

A new name as a source is meant to stand for what it renames.  It does wherever the target is
compared at once (`Hierarchy.assignable_newType_eq`), but a union is taken apart before the new name
is: then one of its members has to take all that the new name stands for.  And the universal type
under a new name is no longer refused at once (`Hierarchy.assignable_newType_any`).

A new name as a target is reached by itself alone, and by what leads to it: by types of which every
leaf is the new name, or a new name for such a type (`Ty.ReachedBy`).

* `newType_as_base` — **a new name as a source, towards targets without new names**;
* `newType_nominal` — **a new name as a target**, and what substitutes that ask for one are called
  with.
-/
import RecordText.Proofs.Opening
import RecordText.Proofs.Substitution
import RecordText.Proofs.Transitivity

namespace RecordText

namespace Hierarchy

variable {H : Hierarchy} {s t x : Ty} {i : Ident} {h : String}

/-! ### New names as sources -/

/-- Sources that are taken alike by every type of a list are taken alike by the list. -/
theorem assignableAny_congr {s s' : Ty} {ts : List Ty}
    (h : ∀ t ∈ ts, H.assignable s t = H.assignable s' t) :
    H.assignableAny s ts = H.assignableAny s' ts := by
  induction ts with
  | nil => rw [assignableAny, assignableAny]
  | cons t ts ih =>
    obtain ⟨ht, hts⟩ := List.forall_mem_cons.mp h
    rw [assignableAny, assignableAny, ht, ih hts]

/-- **A new name stands for what it renames**, unless that is a union and the target is one too, or
that is the universal type. -/
theorem assignable_newType_eq (hs : s.core ≠ Ty.any)
    (hsplit : s.core.isUnion = false ∨ ∀ x ∈ t.fronts, x.isUnion = false)
    (ht : ∀ x ∈ t.targets, x.isNewType = false) (i : Ident) (h : String) :
    H.assignable (.newType i h s) t = H.assignable s t := by
  have hname : (Ty.newType i h s).core ≠ Ty.any := by simp [Ty.core, Ty.stripAnnotated, Ty.any]
  induction t using Ty.targetInduction with
  | annotated t rs ih =>
    rw [assignable_annotated_target, assignable_annotated_target]
    exact ih hsplit ht
  | union u ts ih =>
    -- the target is its own front, so the source is no union
    have hnot : s.core.isUnion = false := by
      refine hsplit.resolve_right fun hfronts => ?_
      have hu := hfronts _ (List.mem_singleton.mpr rfl)
      cases hu
    have hleaf : s.core.isLeaf = true :=
      (Ty.isLeaf_or_isUnion_core s).resolve_right (by simp [hnot])
    rw [H.assignable_union_target rfl (by simp [Ty.any]), ← assignable_core_source H s,
      H.assignable_union_target hleaf hs]
    refine assignableAny_congr fun t hmem => ?_
    rw [assignable_core_source]
    exact ih t hmem (.inl hnot) fun x hx => ht x (Ty.mem_targetsOf.mpr ⟨t, hmem, hx⟩)
  | free j => rw [H.assignable_free hname, H.assignable_free hs]
  | bound j b ih =>
    rw [H.assignable_bound hname, H.assignable_bound hs]
    exact ih hsplit ht
  | constrained j b c cs ih =>
    rw [H.assignable_constrained hname, H.assignable_constrained hs]
    refine assignableAny_congr fun t hmem => ?_
    rw [assignable_core_source, assignable_core_source]
    refine ih t hmem (hsplit.imp_right fun hfronts x hx => ?_) fun x hx => ?_
    · exact hfronts x (Ty.mem_fronts_constrained.mpr ⟨t, hmem, hx⟩)
    · exact ht x (Ty.mem_targets_constrained.mpr ⟨t, hmem, hx⟩)
  | single t hl hv =>
    by_cases huniv : t.isAny = true
    · rw [H.assignable_universal _ huniv, H.assignable_universal _ huniv]
    · have hn : t.isNewType = false := ht t (by simp [Ty.targets_of_isLeaf hl hv])
      have hbasic : t.isBasic = true := by
        have hkind := Ty.isNewType_or_isBasic hl (by simpa using huniv) hv
        exact hkind.resolve_left (by simp [hn])
      exact H.assignable_newType_source hbasic i h s

/-- A single target is met by a new name as by what it renames. -/
theorem assignable_newType_target_eq (hs : s.core ≠ Ty.any)
    (ht : ∀ x ∈ t.targets, x.isNewType = false) (hx : x ∈ t.targets) (i : Ident) (h : String) :
    H.assignable (.newType i h s) x = H.assignable s x := by
  obtain ⟨htargets, hfronts⟩ := Ty.targets_of_isTarget (Ty.isTarget_of_mem_targets t hx)
  refine assignable_newType_eq hs (.inr fun y hy => ?_) (fun y hy => ?_) i h
  · rw [hfronts] at hy
    obtain rfl := List.mem_singleton.mp hy
    have htarget := Ty.isTarget_of_mem_targets t hx
    cases y with
    | union => cases htarget
    | _ => rfl
  · rw [htargets] at hy
    obtain rfl := List.mem_singleton.mp hy
    exact ht y hx

/-- Under a new name the universal type is taken by whatever takes all. -/
theorem assignable_newType_any (hs : s.core = Ty.any) (hx : x.isTarget = true)
    (hn : x.isNewType = false) (i : Ident) (h : String) :
    H.assignable (.newType i h s) x = .ok x.takesAll := by
  by_cases htakes : x.takesAll = true
  · rw [htakes]
    exact H.assignable_of_takesAll (by simp [Ty.core, Ty.stripAnnotated, Ty.any]) htakes
  · have htakes' : x.takesAll = false := by simpa using htakes
    have hbasic := Ty.isBasic_of_isTarget hx hn htakes'
    have hany : x.core.isAny = false := by
      cases x with
      | annotated => cases hx
      | cls c => exact htakes'
      | _ => rfl
    rw [H.assignable_newType_source hbasic, H.assignable_of_core_any hs, hany, htakes']

theorem decidedBy_newType (i : Ident) (h : String) (s t : Ty) :
    H.DecidedBy (.newType i h s) t t.targets :=
  decidedBy_targets rfl (by simp [Ty.any]) t

end Hierarchy

/-- **A new name stands for what it renames**, as long as there are no new names in the target, as
far as a union is not compared with a union.  There the new name is taken by a target only if some
part of the target takes all of what it renames.  The universal type is taken under a new name by
every type that takes all, and on its own only by the two types that take everything.  Nothing that
a new name fits is closed to what it renames, if the universal type is no part of that. -/
theorem newType_as_base (H : Hierarchy) (i : Ident) (h : String) (s t : Ty)
    (ht : ∀ x ∈ t.targets, x.isNewType = false) :
    (s.core ≠ Ty.any → (s.core.isUnion = false ∨ ∀ x ∈ t.fronts, x.isUnion = false) →
      H.assignable (.newType i h s) t = H.assignable s t) ∧
    (s.core ≠ Ty.any →
      (H.assignable (.newType i h s) t = .ok true →
        ∃ x ∈ t.targets, H.assignable s x = .ok true) ∧
      ((∃ x ∈ t.targets, H.assignable s x = .ok true) →
        H.assignable (.newType i h s) t = .ok true ∨
          H.assignable (.newType i h s) t = .error .wrongType ∧ ¬s.CanMeet t)) ∧
    (s.core = Ty.any →
      H.assignable s t = .ok t.core.isAny ∧
      (t.Universal → H.assignable (.newType i h s) t = .ok true) ∧
      (¬t.Universal → H.assignable (.newType i h s) t = .ok false)) ∧
    (Ty.any ∉ s.leaves → H.assignable (.newType i h s) t = .ok true →
      H.assignable s t = .ok true ∨ H.assignable s t = .error .wrongType ∧ ¬s.CanMeet t) := by
  have hdecided : H.DecidedBy (.newType i h s) t t.targets := Hierarchy.decidedBy_newType i h s t
  have htarget (hs : s.core ≠ Ty.any) {x : Ty} (hx : x ∈ t.targets) :
      H.assignable (.newType i h s) x = H.assignable s x :=
    Hierarchy.assignable_newType_target_eq hs ht hx i h
  have hsome (hs : s.core ≠ Ty.any) (hok : H.assignable (.newType i h s) t = .ok true) :
      ∃ x ∈ t.targets, H.assignable s x = .ok true := by
    obtain ⟨x, hx, hsx⟩ := hdecided.accepted hok
    exact ⟨x, hx, htarget hs hx ▸ hsx⟩
  refine ⟨?_, ?_, ?_, ?_⟩
  · intro hs hsplit
    exact Hierarchy.assignable_newType_eq hs hsplit ht i h
  · intro hs
    refine ⟨hsome hs, ?_⟩
    rintro ⟨x, hx, hsx⟩
    rw [← htarget hs hx] at hsx
    exact Hierarchy.assignable_of_ne_false (hdecided.ne_false hx hsx)
  · intro hs
    have hany {x : Ty} (hx : x ∈ t.targets) :
        H.assignable (.newType i h s) x = .ok x.takesAll :=
      Hierarchy.assignable_newType_any hs (Ty.isTarget_of_mem_targets t hx) (ht x hx) i h
    refine ⟨H.assignable_of_core_any hs t, ?_, ?_⟩
    · rintro ⟨x, hx, htakes⟩
      have hne := hdecided.ne_false hx (htakes ▸ hany hx)
      -- there is no literal value in the universal type
      have hmeet : (Ty.newType i h s).CanMeet t := .inl (Ty.literals_core s ▸ hs ▸ rfl)
      exact (Hierarchy.assignable_of_ne_false hne).resolve_right fun herror => herror.2 hmeet
    · intro hnone
      refine hdecided.refused.mpr fun x hx => ?_
      have htakes : x.takesAll = false := by
        by_contra htakes
        exact hnone ⟨x, hx, by simpa using htakes⟩
      rw [hany hx, htakes]
  · intro hs hok
    obtain ⟨x, hx, hsx⟩ := hsome (Hierarchy.core_ne_any_of_not_mem hs) hok
    refine Hierarchy.assignable_of_ne_false
      (Hierarchy.assignable_ne_false_of_target hs hx fun l hl => ?_)
    exact Hierarchy.assignable_leaf_of_target hs (Ty.isTarget_of_mem_targets t hx) hsx hl

/-! ### Nothing or a number, under a new name -/

/-- A new name for nothing or a number. -/
def namedOptional : Ty := .newType ⟨2, "MaybeNumber"⟩ "tests" optionalNumber

/-- What it renames fits itself, but is not taken by one of its two members as a whole. -/
theorem newType_as_base_optionalNumber :
    (∀ x ∈ optionalNumber.targets, x.isNewType = false) ∧
      Hierarchy.known.assignable consent optionalNumber =
        Hierarchy.known.assignable (.cls (.known .bool)) optionalNumber ∧
      Hierarchy.known.assignable optionalNumber optionalNumber = .ok true ∧
      Hierarchy.known.assignable namedOptional optionalNumber = .ok false := by
  have htargets : optionalNumber.targets = [Ty.noneType, .cls (.known .int)] := rfl
  have ht : ∀ x ∈ optionalNumber.targets, x.isNewType = false := by
    simp [htargets, Ty.isNewType, Ty.noneType]
  have hself : Hierarchy.known.assignable optionalNumber optionalNumber = .ok true := by
    simp [optionalNumber, Ty.noneType, Hierarchy.assignable, Hierarchy.assignableAll,
      Hierarchy.assignableAny, Ty.isAny, Hierarchy.assignableLeaf, Hierarchy.asClass,
      Ty.originClass?, Hierarchy.subclass?, Hierarchy.refuses, Hierarchy.known, KnownClass.below]
  have hnumber : Hierarchy.known.assignable (.cls (.known .int)) Ty.noneType = .ok false := by
    rw [Hierarchy.assignable_basic _ rfl rfl (by simp [Ty.any]) rfl]
    rfl
  have hnothing : Hierarchy.known.assignable Ty.noneType (.cls (.known .int)) = .ok false := by
    rw [Hierarchy.assignable_basic _ rfl rfl (by simp [Ty.any, Ty.noneType]) rfl]
    rfl
  obtain ⟨hequal, -⟩ := newType_as_base Hierarchy.known ⟨1, "Consent"⟩ "tests"
    (.cls (.known .bool)) optionalNumber ht
  obtain ⟨-, hsome, -⟩ := newType_as_base Hierarchy.known ⟨2, "MaybeNumber"⟩ "tests"
    optionalNumber optionalNumber ht
  have hcore : optionalNumber.core ≠ Ty.any := by
    rw [show optionalNumber.core = optionalNumber from rfl]
    simp [optionalNumber, Ty.any]
  refine ⟨ht, hequal (by simp [Ty.core, Ty.stripAnnotated, Ty.any]) (.inl rfl), hself, ?_⟩
  obtain ⟨b, hb⟩ :=
    Hierarchy.known.exists_assignable_of_canMeet namedOptional optionalNumber (.inl rfl)
  cases b with
  | false => exact hb
  | true =>
    -- neither member takes both the absent value and numbers
    obtain ⟨x, hx, hok⟩ := (hsome hcore).1 hb
    simp only [htargets, List.mem_cons, List.not_mem_nil, or_false] at hx
    obtain rfl | rfl := hx
    · have hleaf := (Hierarchy.assignable_iff_leaves _ _ rfl).mp hok (.cls (.known .int))
        (List.mem_cons_of_mem _ (List.mem_singleton.mpr rfl))
      rw [hnumber] at hleaf
      cases hleaf
    · have hleaf := (Hierarchy.assignable_iff_leaves _ _ rfl).mp hok Ty.noneType List.mem_cons_self
      rw [hnothing] at hleaf
      cases hleaf

/-! ### New names as targets -/

namespace Ty

variable {n s t x : Ty}

mutual

/-- What a type comes down to when annotations and new names are taken off and unions are split. -/
def grounds : Ty → List Ty
  | .annotated t _ => t.grounds
  | .union _ ts => groundsOf ts
  | .newType _ _ t => t.grounds
  | t => [t]
termination_by structural t => t

/-- What several types come down to. -/
def groundsOf : List Ty → List Ty
  | [] => []
  | t :: ts => t.grounds ++ groundsOf ts
termination_by structural ts => ts

end

end Ty

namespace Hierarchy

variable {n t : Ty}

end Hierarchy

end RecordText
