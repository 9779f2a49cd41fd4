/-
How the check opens a target.

A target loses its annotations, a type variable gives way to its bound or its constraints, and a
union to its members.  A source that is a union itself is met half-way: it is compared as a whole
with what stands for a type variable, and member by member with everything else.  So there are two
lists of types that decide for a target: its *fronts*, which a source meets as a whole, and its
targets, which a leaf meets.

* `Ty.targetInduction`, `Ty.sourceInduction` — induction on a type the way the check takes it apart,
  as a target and as a source;
* `Hierarchy.DecidedBy` — a target that refuses what all types of a list refuse, and takes only what
  one of them takes;
* `Hierarchy.decidedBy_fronts`, `Hierarchy.decidedBy_targets` — **the fronts of a target decide for
  every source but the universal one, and its targets decide for every leaf but that one**;
* `Hierarchy.assignable_ne_false_of_leaves`, `Hierarchy.assignable_ne_false_of_target` — a source
  is refused only if a leaf of it is, and not if some target takes all of its leaves.
-/
import RecordText.Proofs.Interchange

namespace RecordText

namespace Ty

/-! ### Induction -/

/-- Induction on a type the way the check opens it as a target. -/
@[elab_as_elim]
theorem targetInduction {P : Ty → Prop} (annotated : ∀ t rs, P t → P (.annotated t rs))
    (union : ∀ u ts, (∀ t ∈ ts, P t) → P (.union u ts)) (free : ∀ i, P (.typeVar i none []))
    (bound : ∀ i b, P b → P (.typeVar i (some b) []))
    (constrained : ∀ i b c cs, (∀ t ∈ c :: cs, P t) → P (.typeVar i b (c :: cs)))
    (single : ∀ t, t.isLeaf = true → t.isTypeVar = false → P t) : ∀ t, P t
  | .annotated t rs =>
    annotated t rs (targetInduction annotated union free bound constrained single t)
  | .union u ts =>
    union u ts fun t _ => targetInduction annotated union free bound constrained single t
  | .typeVar i none [] => free i
  | .typeVar i (some b) [] =>
    bound i b (targetInduction annotated union free bound constrained single b)
  | .typeVar i b (c :: cs) =>
    constrained i b c cs fun t _ =>
      targetInduction annotated union free bound constrained single t
  | .absent | .cls _ | .bare _ _ | .generic _ _ _ | .literal _ | .classVarForm | .classVar _
  | .initVar _ | .newType _ _ _ | .forward _ | .text _ | .ellipsis | .form _ | .constant _ =>
    single _ rfl rfl
termination_by t => sizeOf t

/-- Induction on a type the way the check takes it apart as a source. -/
@[elab_as_elim]
theorem sourceInduction {P : Ty → Prop} (annotated : ∀ t rs, P t → P (.annotated t rs))
    (union : ∀ u ts, (∀ t ∈ ts, P t) → P (.union u ts))
    (newType : ∀ i h b, P b → P (.newType i h b))
    (single : ∀ t, t.isLeaf = true → t.isNewType = false → P t) : ∀ t, P t
  | .annotated t rs => annotated t rs (sourceInduction annotated union newType single t)
  | .union u ts => union u ts fun t _ => sourceInduction annotated union newType single t
  | .newType i h b => newType i h b (sourceInduction annotated union newType single b)
  | .absent | .cls _ | .bare _ _ | .generic _ _ _ | .literal _ | .classVarForm | .classVar _
  | .initVar _ | .typeVar _ _ _ | .forward _ | .text _ | .ellipsis | .form _ | .constant _ =>
    single _ rfl rfl
termination_by t => sizeOf t

/-! ### Fronts -/

mutual

/-- What a source meets as a whole: the type without annotations, where a type variable stands for
its constraints or its bound. A variable without them is left, and so is a union. -/
def fronts : Ty → List Ty
  | .annotated t _ => t.fronts
  | .typeVar i bound [] =>
    match bound with
    | none => [.typeVar i none []]
    | some b => b.fronts
  | .typeVar _ _ (c :: cs) => c.fronts ++ frontsOf cs
  | t => [t]
termination_by structural t => t

/-- The fronts of several types. -/
def frontsOf : List Ty → List Ty
  | [] => []
  | t :: ts => t.fronts ++ frontsOf ts
termination_by structural ts => ts

end

variable {t x : Ty} {ts : List Ty}

theorem literals_core (t : Ty) : t.core.literals = t.literals := by
  cases t with
  | annotated t _ => exact literals_core t
  | _ => rfl
termination_by structural t

theorem mem_frontsOf : x ∈ frontsOf ts ↔ ∃ t ∈ ts, x ∈ t.fronts := by
  induction ts with
  | nil => simp [frontsOf]
  | cons t ts ih => simp [frontsOf, ih]

theorem mem_fronts_constrained {i : Ident} {b : Option Ty} {c : Ty} {cs : List Ty} :
    x ∈ (typeVar i b (c :: cs)).fronts ↔ ∃ t ∈ c :: cs, x ∈ t.fronts :=
  @mem_frontsOf x (c :: cs)

theorem mem_targets_constrained {i : Ident} {b : Option Ty} {c : Ty} {cs : List Ty} :
    x ∈ (typeVar i b (c :: cs)).targets ↔ ∃ t ∈ c :: cs, x ∈ t.targets :=
  @mem_targetsOf x (c :: cs)

theorem fronts_of_isLeaf (ht : t.isLeaf = true) (hv : t.isTypeVar = false) : t.fronts = [t] := by
  cases t with
  | annotated => cases ht
  | typeVar => cases hv
  | _ => rfl

/-- The targets of a type are those of its fronts. -/
theorem mem_targets_iff : x ∈ t.targets ↔ ∃ y ∈ t.fronts, x ∈ y.targets := by
  induction t using targetInduction with
  | annotated t rs ih => exact ih
  | union u ts => simp [fronts]
  | free i => simp [fronts]
  | bound i b ih => exact ih
  | constrained i b c cs ih =>
    rw [mem_targets_constrained]
    simp only [mem_fronts_constrained]
    constructor
    · rintro ⟨t, ht, hx⟩
      obtain ⟨y, hy, hxy⟩ := (ih t ht).mp hx
      exact ⟨y, ⟨t, ht, hy⟩, hxy⟩
    · rintro ⟨y, ⟨t, ht, hy⟩, hxy⟩
      exact ⟨t, ht, (ih t ht).mpr ⟨y, hy, hxy⟩⟩
  | single t ht hv => simp [fronts_of_isLeaf ht hv]

/-- A front is neither annotated nor a type variable that stands for something else. -/
theorem front_cases (hx : x ∈ t.fronts) :
    x.core = x ∧ (x.takesAll = true ∨ x.isTypeVar = false) := by
  induction t using targetInduction with
  | annotated t rs ih => exact ih hx
  | union u ts =>
    obtain rfl := List.mem_singleton.mp hx
    exact ⟨rfl, .inr rfl⟩
  | free i =>
    obtain rfl := List.mem_singleton.mp hx
    exact ⟨rfl, .inl rfl⟩
  | bound i b ih => exact ih hx
  | constrained i b c cs ih =>
    obtain ⟨t, ht, hxt⟩ := mem_fronts_constrained.mp hx
    exact ih t ht hxt
  | single t ht hv =>
    rw [fronts_of_isLeaf ht hv] at hx
    obtain rfl := List.mem_singleton.mp hx
    exact ⟨core_of_isLeaf ht, .inr hv⟩

/-- A type that stands for nothing else is its own only target and its own only front. -/
theorem targets_of_isTarget (ht : t.isTarget = true) : t.targets = [t] ∧ t.fronts = [t] := by
  cases t with
  | annotated => cases ht
  | union => cases ht
  | typeVar i b cs =>
    cases cs with
    | cons => cases b <;> cases ht
    | nil =>
      cases b with
      | some => cases ht
      | none => exact ⟨rfl, rfl⟩
  | _ => exact ⟨rfl, rfl⟩

/-- Such a type takes all, is a new name or is compared. -/
theorem isBasic_of_isTarget (ht : t.isTarget = true) (hn : t.isNewType = false)
    (htakes : t.takesAll = false) : t.isBasic = true := by
  cases t with
  | annotated => cases ht
  | union => cases ht
  | newType => cases hn
  | typeVar i b cs =>
    cases cs with
    | cons => cases b <;> cases ht
    | nil => cases b <;> simp [isTarget, takesAll] at ht htakes
  | _ => simpa [isBasic, takesAll] using htakes

end Ty

namespace Hierarchy

variable {H : Hierarchy} {s t x : Ty} {ts xs : List Ty}

/-! ### What decides for a target -/

/-- A target refuses what all types of a list refuse, and takes only what one of them takes. -/
structure DecidedBy (H : Hierarchy) (s t : Ty) (xs : List Ty) : Prop where
  refused : H.assignable s t = .ok false ↔ ∀ x ∈ xs, H.assignable s x = .ok false
  accepted : H.assignable s t = .ok true → ∃ x ∈ xs, H.assignable s x = .ok true

theorem DecidedBy.self (H : Hierarchy) (s t : Ty) : H.DecidedBy s t [t] where
  refused := by simp
  accepted h := ⟨t, List.mem_singleton.mpr rfl, h⟩

theorem DecidedBy.of_eq {u : Ty} (h : H.DecidedBy s u xs)
    (heq : H.assignable s t = H.assignable s u) : H.DecidedBy s t xs where
  refused := heq ▸ h.refused
  accepted := heq ▸ h.accepted

/-- Types that are tried one after the other leave the decision to those that decide for them. -/
theorem DecidedBy.of_any {part : Ty → List Ty} (h : ∀ u ∈ ts, H.DecidedBy s u (part u))
    (hxs : ∀ x, x ∈ xs ↔ ∃ u ∈ ts, x ∈ part u)
    (heq : H.assignable s t = H.assignableAny s.core ts) : H.DecidedBy s t xs where
  refused := by
    rw [heq, assignableAny_eq_false_iff]
    simp only [assignable_core_source]
    constructor
    · intro hall x hx
      obtain ⟨u, hu, hxu⟩ := (hxs x).mp hx
      exact (h u hu).refused.mp (hall u hu) x hxu
    · intro hall u hu
      exact (h u hu).refused.mpr fun x hx => hall x ((hxs x).mpr ⟨u, hu, hx⟩)
  accepted := by
    intro hok
    rw [heq] at hok
    obtain ⟨u, hu, hsu⟩ := exists_of_assignableAny_eq_true hok
    rw [assignable_core_source] at hsu
    obtain ⟨x, hx, hsx⟩ := (h u hu).accepted hsu
    exact ⟨x, (hxs x).mpr ⟨u, hu, hx⟩, hsx⟩

/-- **The fronts of a target decide for every source but the universal one.** -/
theorem decidedBy_fronts (hs : s.core ≠ Ty.any) (t : Ty) : H.DecidedBy s t t.fronts := by
  induction t using Ty.targetInduction with
  | annotated t rs ih => exact ih.of_eq (H.assignable_annotated_target s t rs)
  | union u ts => exact .self H s _
  | free i => exact .self H s _
  | bound i b ih => exact ih.of_eq (H.assignable_bound hs i b)
  | constrained i b c cs ih =>
    exact .of_any ih (fun x => Ty.mem_fronts_constrained) (H.assignable_constrained hs i b c cs)
  | single t ht hv =>
    rw [Ty.fronts_of_isLeaf ht hv]
    exact .self H s t

/-- **The targets of a type decide for every leaf but the universal one.** -/
theorem decidedBy_targets (hs : s.isLeaf = true) (hany : s ≠ Ty.any) (t : Ty) :
    H.DecidedBy s t t.targets := by
  have hcore : s.core = s := Ty.core_of_isLeaf hs
  have hs' : s.core ≠ Ty.any := hcore.symm ▸ hany
  induction t using Ty.targetInduction with
  | annotated t rs ih => exact ih.of_eq (H.assignable_annotated_target s t rs)
  | union u ts ih =>
    have heq : H.assignable s (.union u ts) = H.assignableAny s.core ts := by
      rw [hcore]
      exact H.assignable_union_target hs hany u ts
    exact .of_any ih (fun x => Ty.mem_targetsOf) heq
  | free i => exact .self H s _
  | bound i b ih => exact ih.of_eq (H.assignable_bound hs' i b)
  | constrained i b c cs ih =>
    exact .of_any ih (fun x => Ty.mem_targets_constrained) (H.assignable_constrained hs' i b c cs)
  | single t ht hv =>
    rw [Ty.targets_of_isLeaf ht hv]
    exact .self H s t

/-- What one of the types takes is not refused. -/
theorem DecidedBy.ne_false (h : H.DecidedBy s t xs) (hx : x ∈ xs)
    (hsx : H.assignable s x = .ok true) : H.assignable s t ≠ .ok false := by
  intro hfalse
  have hx' := h.refused.mp hfalse x hx
  rw [hsx] at hx'
  cases hx'

/-! ### What decides for a source -/

/-- A source is refused only if a leaf of it is. Type variables as targets are left out: they meet
the source as a whole. -/
theorem assignable_ne_false_of_leaves (ht : t.core.isTypeVar = false)
    (h : ∀ x ∈ s.leaves, H.assignable x t ≠ .ok false) : H.assignable s t ≠ .ok false := by
  induction s using Ty.sourceInduction with
  | annotated s rs ih =>
    rw [assignable_annotated_source]
    exact ih h
  | union u ss ih =>
    rw [← assignable_core_target]
    by_cases huniv : t.core.isAny = true
    · simp [H.assignable_universal _ huniv]
    · rw [H.assignable_union_source t.core_ne_annotated (by simpa using huniv) ht]
      intro hfalse
      obtain ⟨s, hs, hst⟩ := exists_of_assignableAll_eq_false hfalse
      rw [assignable_core_target] at hst
      exact ih s hs (fun x hx => h x (Ty.mem_leavesOf.mpr ⟨s, hs, hx⟩)) hst
  | newType i g b => exact h _ (List.mem_singleton.mpr rfl)
  | single s hs =>
    rw [Ty.leaves_of_isLeaf hs] at h
    exact h s (List.mem_singleton.mpr rfl)

/-- The universal type is taken where it need not be looked for. -/
theorem assignable_of_core_any (H : Hierarchy) (hs : s.core = Ty.any) (t : Ty) :
    H.assignable s t = .ok t.core.isAny := by
  rw [← assignable_core_source, hs]
  by_cases ht : t.core.isAny = true
  · rw [← assignable_core_target, H.assignable_universal _ ht, ht]
  · have ht' : t.core.isAny = false := by simpa using ht
    rw [H.assignable_any_source ht', ht']

/-- What takes all takes every source but the universal one. -/
theorem assignable_of_takesAll (H : Hierarchy) (hs : s.core ≠ Ty.any) (hx : x.takesAll = true) :
    H.assignable s x = .ok true := by
  cases x with
  | typeVar i b cs =>
    cases b with
    | some => cases hx
    | none =>
      cases cs with
      | nil => exact H.assignable_free hs i
      | cons => cases hx
  | cls c => exact H.assignable_universal s hx
  | _ => cases hx

theorem core_ne_any_of_not_mem (h : Ty.any ∉ s.leaves) : s.core ≠ Ty.any := by
  intro hcore
  rw [← Ty.leaves_core, hcore] at h
  exact h (List.mem_singleton.mpr rfl)

/-- **A source is not refused when some target takes each of its leaves.** The universal type must
not be one of them: it is refused before the target is opened. -/
theorem assignable_ne_false_of_target (hs : Ty.any ∉ s.leaves) (hx : x ∈ t.targets)
    (h : ∀ l ∈ s.leaves, H.assignable l x = .ok true) : H.assignable s t ≠ .ok false := by
  have hcore := core_ne_any_of_not_mem hs
  obtain ⟨y, hy, hxy⟩ := Ty.mem_targets_iff.mp hx
  have hfront : H.assignable s y ≠ .ok false := by
    obtain ⟨hcy, hall | hv⟩ := Ty.front_cases hy
    · simp [H.assignable_of_takesAll hcore hall]
    · refine assignable_ne_false_of_leaves (hcy.symm ▸ hv) fun l hl => ?_
      have hleaf := Ty.isLeaf_of_mem_leaves s hl
      exact (decidedBy_targets hleaf (ne_of_mem_of_not_mem hl hs) y).ne_false hxy (h l hl)
  intro hfalse
  exact hfront ((decidedBy_fronts hcore t).refused.mp hfalse y hy)

/-- What takes a source takes its leaves, if it stands for nothing else. -/
theorem assignable_leaf_of_target (hs : Ty.any ∉ s.leaves) (hx : x.isTarget = true)
    (h : H.assignable s x = .ok true) {l : Ty} (hl : l ∈ s.leaves) :
    H.assignable l x = .ok true := by
  obtain ⟨-, hfronts⟩ := Ty.targets_of_isTarget hx
  obtain ⟨hcx, htakes | hv⟩ := Ty.front_cases (hfronts ▸ List.mem_singleton.mpr rfl)
  · have hcore : l.core ≠ Ty.any := by
      rw [Ty.core_of_isLeaf (Ty.isLeaf_of_mem_leaves s hl)]
      exact ne_of_mem_of_not_mem hl hs
    exact H.assignable_of_takesAll hcore htakes
  · rw [← hcx] at hv
    exact (assignable_iff_leaves s x hv).mp h l hl

/-- A check that does not refuse succeeds, unless a literal value meets a class that refuses
comparison. -/
theorem assignable_of_ne_false (h : H.assignable s t ≠ .ok false) :
    H.assignable s t = .ok true ∨ H.assignable s t = .error .wrongType ∧ ¬s.CanMeet t := by
  cases hst : H.assignable s t with
  | ok b =>
    cases b with
    | true => exact .inl rfl
    | false => exact absurd hst h
  | error f =>
    obtain ⟨rfl, hmeet⟩ := assignable_eq_error hst
    exact .inr ⟨rfl, hmeet⟩

end Hierarchy

end RecordText
