/-
The check of declared types, read off the leaves.

The check takes annotations off, splits unions and opens type variables until it meets types that
it decides at once.  On the side of the source these are the *leaves* of a type (`Ty.leaves`), and
on the side of the target the leaves with every type variable replaced by what it stands for
(`Ty.targets`).  Where no target refuses comparison the order of the members does not matter any
more:

* `Hierarchy.assignable_core` — annotations around the two types are overlooked;
* `Hierarchy.exists_assignable_of_canMeet` — **there is an answer unless a literal value meets a
  class that refuses comparison**, so `Hierarchy.exists_assignable`: a target without such a class
  always gives one;
* `Hierarchy.assignable_leaf_iff` — **a leaf fits a type when it fits one of its targets**;
* `Hierarchy.assignable_iff_leaves` — a type fits whatever all of its leaves fit.
-/
import RecordText.Proofs.Assignability

namespace RecordText

namespace Ty

/-! ### Leaves and targets -/

/-- A type that is neither annotated nor a union. -/
def isLeaf : Ty → Bool
  | .annotated _ _ | .union _ _ => false
  | _ => true

mutual

/-- What is left of a type when annotations are taken off and unions are split. -/
def leaves : Ty → List Ty
  | .annotated t _ => t.leaves
  | .union _ ts => leavesOf ts
  | t => [t]
termination_by structural t => t

/-- The leaves of several types. -/
def leavesOf : List Ty → List Ty
  | [] => []
  | t :: ts => t.leaves ++ leavesOf ts
termination_by structural ts => ts

end

mutual

/-- What there is to fit in a type: its leaves, where a type variable stands for its constraints
or its bound. A variable without them is left. -/
def targets : Ty → List Ty
  | .annotated t _ => t.targets
  | .union _ ts => targetsOf ts
  | .typeVar i bound [] =>
    match bound with
    | none => [.typeVar i none []]
    | some b => b.targets
  | .typeVar _ _ (c :: cs) => c.targets ++ targetsOf cs
  | t => [t]
termination_by structural t => t

/-- The targets of several types. -/
def targetsOf : List Ty → List Ty
  | [] => []
  | t :: ts => t.targets ++ targetsOf ts
termination_by structural ts => ts

end

mutual

/-- The literal values in a type: in what is left of it when annotations and new names are taken
off and unions are split. -/
def literals : Ty → List Literal
  | .annotated t _ => t.literals
  | .union _ ts => literalsOf ts
  | .newType _ _ t => t.literals
  | .literal ls => ls
  | _ => []
termination_by structural t => t

/-- The literal values in several types. -/
def literalsOf : List Ty → List Literal
  | [] => []
  | t :: ts => t.literals ++ literalsOf ts
termination_by structural ts => ts

end

/-- No class that there is to fit refuses comparison. -/
def Comparable (t : Ty) : Prop :=
  ∀ x ∈ t.targets, ∀ c, x.originClass? = some c → Hierarchy.refuses c = false

/-- No literal value of the first type meets a class that refuses comparison in the second one. -/
def CanMeet (s t : Ty) : Prop := s.literals = [] ∨ t.Comparable

/-- A target that takes every source but the universal one. -/
def takesAll : Ty → Bool
  | .typeVar _ none [] => true
  | t => t.isAny

/-- A target that takes every source but the universal one is among those of the type. -/
def Universal (t : Ty) : Prop := ∃ x ∈ t.targets, x.takesAll = true

variable {s t x : Ty} {ts : List Ty}

theorem leaves_of_isLeaf (ht : t.isLeaf = true) : t.leaves = [t] := by
  cases t with
  | annotated => cases ht
  | union => cases ht
  | _ => rfl

theorem targets_of_isLeaf (ht : t.isLeaf = true) (hv : t.isTypeVar = false) : t.targets = [t] := by
  cases t with
  | annotated => cases ht
  | union => cases ht
  | typeVar => cases hv
  | _ => rfl

theorem mem_leavesOf : x ∈ leavesOf ts ↔ ∃ t ∈ ts, x ∈ t.leaves := by
  induction ts with
  | nil => simp [leavesOf]
  | cons t ts ih => simp [leavesOf, ih]

theorem mem_targetsOf : x ∈ targetsOf ts ↔ ∃ t ∈ ts, x ∈ t.targets := by
  induction ts with
  | nil => simp [targetsOf]
  | cons t ts ih => simp [targetsOf, ih]

theorem mem_literalsOf {l : Literal} {ts : List Ty} :
    l ∈ literalsOf ts ↔ ∃ t ∈ ts, l ∈ t.literals := by
  induction ts with
  | nil => simp [literalsOf]
  | cons t ts ih => simp [literalsOf, ih]

theorem leaves_core (t : Ty) : t.core.leaves = t.leaves := by
  cases t with
  | annotated t _ => exact leaves_core t
  | _ => rfl
termination_by structural t

theorem targets_core (t : Ty) : t.core.targets = t.targets := by
  cases t with
  | annotated t _ => exact targets_core t
  | _ => rfl
termination_by structural t

theorem core_core (t : Ty) : t.core.core = t.core := by
  cases t with
  | annotated t _ => exact core_core t
  | _ => rfl
termination_by structural t

theorem isLeaf_or_isUnion_core (t : Ty) : t.core.isLeaf = true ∨ t.core.isUnion = true := by
  cases t with
  | annotated t _ => exact isLeaf_or_isUnion_core t
  | union => exact .inr rfl
  | _ => exact .inl rfl
termination_by structural t

mutual

theorem isLeaf_of_mem_leaves (t : Ty) (h : x ∈ t.leaves) : x.isLeaf = true := by
  cases t with
  | annotated t _ => exact isLeaf_of_mem_leaves t h
  | union _ ts => exact isLeaf_of_mem_leavesOf ts h
  | _ =>
    obtain rfl := List.mem_singleton.mp h
    rfl
termination_by structural t

theorem isLeaf_of_mem_leavesOf (ts : List Ty) (h : x ∈ leavesOf ts) : x.isLeaf = true := by
  cases ts with
  | nil => cases h
  | cons t ts =>
    rcases List.mem_append.mp h with h | h
    · exact isLeaf_of_mem_leaves t h
    · exact isLeaf_of_mem_leavesOf ts h
termination_by structural ts

end

mutual

/-- What there is to fit in a leaf is among what there is to fit in the type. -/
theorem targets_subset (t : Ty) (h : x ∈ t.leaves) : x.targets ⊆ t.targets := by
  cases t with
  | annotated t _ => exact targets_subset t h
  | union _ ts => exact targets_subset_of ts h
  | _ =>
    obtain rfl := List.mem_singleton.mp h
    exact List.Subset.refl _
termination_by structural t

theorem targets_subset_of (ts : List Ty) (h : x ∈ leavesOf ts) : x.targets ⊆ targetsOf ts := by
  cases ts with
  | nil => cases h
  | cons t ts =>
    rcases List.mem_append.mp h with h | h
    · exact List.subset_append_of_subset_left _ (targets_subset t h)
    · exact List.subset_append_of_subset_right _ (targets_subset_of ts h)
termination_by structural ts

end

/-- A leaf that stands for nothing else. -/
def isTarget : Ty → Bool
  | .annotated _ _ | .union _ _ | .typeVar _ (some _) [] | .typeVar _ _ (_ :: _) => false
  | _ => true

mutual

theorem isTarget_of_mem_targets (t : Ty) (h : x ∈ t.targets) : x.isTarget = true := by
  cases t with
  | annotated t _ => exact isTarget_of_mem_targets t h
  | union _ ts => exact isTarget_of_mem_targetsOf ts h
  | typeVar i bound cs =>
    cases cs with
    | nil =>
      cases bound with
      | none =>
        obtain rfl := List.mem_singleton.mp h
        rfl
      | some b => exact isTarget_of_mem_targets b h
    | cons c cs => exact isTarget_of_mem_targetsOf (c :: cs) h
  | _ =>
    obtain rfl := List.mem_singleton.mp h
    rfl
termination_by structural t

theorem isTarget_of_mem_targetsOf (ts : List Ty) (h : x ∈ targetsOf ts) : x.isTarget = true := by
  cases ts with
  | nil => cases h
  | cons t ts =>
    rcases List.mem_append.mp h with h | h
    · exact isTarget_of_mem_targets t h
    · exact isTarget_of_mem_targetsOf ts h
termination_by structural ts

end

/-- What a union can meet its members can meet. -/
theorem CanMeet.of_mem_source {u : UnionSpelling} (h : (Ty.union u ts).CanMeet x) (ht : t ∈ ts) :
    t.CanMeet x := by
  refine h.imp_left fun hnil => List.eq_nil_iff_forall_not_mem.mpr fun l hl => ?_
  have hmem : l ∈ literalsOf ts := mem_literalsOf.mpr ⟨t, ht, hl⟩
  exact List.eq_nil_iff_forall_not_mem.mp hnil l hmem

theorem CanMeet.of_mem_target {u : UnionSpelling} (h : x.CanMeet (.union u ts)) (ht : t ∈ ts) :
    x.CanMeet t :=
  h.imp_right fun hc y hy => hc y (mem_targetsOf.mpr ⟨t, ht, hy⟩)

theorem Comparable.of_mem_leaves (ht : t.Comparable) (h : x ∈ t.leaves) : x.Comparable :=
  fun y hy => ht y (targets_subset t h hy)

end Ty

/-! ### The check -/

namespace Hierarchy

variable {H : Hierarchy} {s t x : Ty} {ts : List Ty}

theorem assignable_annotated_source (H : Hierarchy) (s t : Ty) (rs : List Remark) :
    H.assignable (.annotated s rs) t = H.assignable s t := by
  rw [assignable]

theorem assignable_annotated_target (H : Hierarchy) (s t : Ty) (rs : List Remark) :
    H.assignable s (.annotated t rs) = H.assignable s t := by
  cases s with
  | annotated s qs =>
    rw [assignable_annotated_source, assignable_annotated_source]
    exact H.assignable_annotated_target s t rs
  | _ => rw [assignable]; simp
termination_by structural s

theorem assignable_core_source (H : Hierarchy) (s t : Ty) :
    H.assignable s.core t = H.assignable s t := by
  cases s with
  | annotated s rs =>
    rw [assignable_annotated_source]
    exact H.assignable_core_source s t
  | _ => rfl
termination_by structural s

theorem assignable_core_target (H : Hierarchy) (s t : Ty) :
    H.assignable s t.core = H.assignable s t := by
  cases t with
  | annotated t rs =>
    rw [assignable_annotated_target]
    exact H.assignable_core_target s t
  | _ => rfl
termination_by structural t

/-- Annotations around the two types are overlooked. -/
theorem assignable_core (H : Hierarchy) (s t : Ty) :
    H.assignable s.core t.core = H.assignable s t := by
  rw [assignable_core_source, assignable_core_target]

theorem acceptsAll_eq_ok {c : ClassRef} (hc : refuses c = false) (ls : List Literal) :
    ∃ b, H.acceptsAll c ls = .ok b := by
  induction ls with
  | nil => exact ⟨true, rfl⟩
  | cons l ls ih =>
    rw [acceptsAll, subclass?, if_neg (by simp [hc])]
    cases H.below (.known l.kind) c with
    | true => exact ih
    | false => exact ⟨false, rfl⟩

/-- The class of the absent value can be compared with. -/
theorem refuses_asClass (ht : t.Comparable) {c : ClassRef}
    (hc : (asClass t).originClass? = some c) : refuses c = false := by
  cases t with
  | absent =>
    cases hc
    rfl
  | cls d => exact ht _ (List.mem_singleton.mpr rfl) c hc
  | bare n d => exact ht _ (List.mem_singleton.mpr rfl) c hc
  | generic g d us => exact ht _ (List.mem_singleton.mpr rfl) c hc
  | _ => cases hc

theorem exists_assignableLeaf (h : s.CanMeet t) :
    ∃ b, H.assignableLeaf (asClass s) (asClass t) = .ok b := by
  unfold assignableLeaf
  split
  · next ls hls =>
    cases hc : (asClass t).originClass? with
    | none => exact ⟨_, rfl⟩
    | some c =>
      rcases h with hnil | ht
      -- a type of no literal values is compared with everything
      · have hnone : ls = [] := by
          cases s with
          | literal ks =>
            cases hls
            exact hnil
          | _ => cases hls
        subst hnone
        exact ⟨true, rfl⟩
      · exact acceptsAll_eq_ok (refuses_asClass ht hc) ls
  · split <;> exact ⟨_, rfl⟩

/-- **Types that can meet get an answer.** -/
theorem exists_assignable_of_canMeet (H : Hierarchy) (s t : Ty) (h : s.CanMeet t) :
    ∃ b, H.assignable s t = .ok b := by
  refine assignable.induct_unfolding H (fun s t r => s.CanMeet t → ∃ b, r = .ok b)
    (fun ss t r => (∀ s ∈ ss, s.CanMeet t) → ∃ b, r = .ok b)
    (fun s ts r => (∀ t ∈ ts, s.CanMeet t) → ∃ b, r = .ok b)
    ?annotatedSource ?annotatedTarget ?universal ?anySource ?freeVariable ?boundVariable
    ?constrainedVariable ?unionSource ?unionTarget ?sameName ?otherName ?newTarget ?newSource
    ?leaf ?allNil ?allCons ?anyNil ?anyCons s t h
  case annotatedSource | annotatedTarget | boundVariable | otherName | newSource =>
    intros
    rename_i ih h
    exact ih h
  -- the members can meet what the whole can meet
  case constrainedVariable =>
    intro s i b c cs _ _ _ _ ih h
    exact ih fun u hu => h.imp_right fun ht x hx => ht x (Ty.mem_targetsOf.mpr ⟨u, hu, hx⟩)
  case unionSource =>
    intro u ss t _ _ _ _ _ ih h
    exact ih fun x hx => h.of_mem_source hx
  case unionTarget =>
    intro s u ts _ _ _ _ _ ih h
    exact ih fun x hx => h.of_mem_target hx
  case leaf =>
    intros
    exact exists_assignableLeaf (by assumption)
  case allCons =>
    intro t s ss ih ihs h
    obtain ⟨hs, hss⟩ := List.forall_mem_cons.mp h
    obtain ⟨b, hb⟩ := ih hs
    show ∃ b, (do if ← H.assignable s t then H.assignableAll ss t else pure false) = .ok b
    rw [hb, ok_bind]
    cases b with
    | true => exact ihs hss
    | false => exact ⟨false, rfl⟩
  case anyCons =>
    intro s t ts ih ihs h
    obtain ⟨ht, hts⟩ := List.forall_mem_cons.mp h
    obtain ⟨b, hb⟩ := ih ht
    show ∃ b, (do if ← H.assignable s t then pure true else H.assignableAny s ts) = .ok b
    rw [hb, ok_bind]
    cases b with
    | true => exact ⟨true, rfl⟩
    | false => exact ihs hts
  all_goals
    intros
    exact ⟨_, rfl⟩

/-- **A target without a refusing class gives an answer.** -/
theorem exists_assignable (H : Hierarchy) (s t : Ty) (ht : t.Comparable) :
    ∃ b, H.assignable s t = .ok b :=
  H.exists_assignable_of_canMeet s t (.inr ht)

theorem targets_eq (hfree : ∀ i b, t = .typeVar i b [] → False)
    (hbound : ∀ i b c cs, t = .typeVar i b (c :: cs) → False)
    (hunion : ∀ u ts, t = .union u ts → False) (hann : ∀ u rs, t = .annotated u rs → False) :
    t.targets = [t] := by
  cases t with
  | annotated u rs => exact (hann u rs rfl).elim
  | union u ts => exact (hunion u ts rfl).elim
  | typeVar i b cs =>
    cases cs with
    | nil => exact (hfree i b rfl).elim
    | cons c cs => exact (hbound i b c cs rfl).elim
  | _ => rfl

theorem leaves_eq (hunion : ∀ u ts, s = .union u ts → False)
    (hann : ∀ u rs, s = .annotated u rs → False) : s.leaves = [s] := by
  cases s with
  | annotated u rs => exact (hann u rs rfl).elim
  | union u ts => exact (hunion u ts rfl).elim
  | _ => rfl

theorem iff_of_single {r : Except Fault Bool} (ht : t.targets = [t]) (hr : r = H.assignable s t) :
    r = .ok true ↔ ∃ x ∈ t.targets, H.assignable s x = .ok true := by
  rw [ht, hr]
  simp

theorem iff_of_leaf {r : Except Fault Bool} (hs : s.leaves = [s]) (hr : r = H.assignable s t) :
    r = .ok true ↔ ∀ x ∈ s.leaves, H.assignable x t = .ok true := by
  rw [hs, hr]
  simp

/-- **A leaf fits a type when it fits one of its targets.** The universal type is left out: it is
refused before a union is looked into. -/
theorem assignable_leaf_iff (hs : s.isLeaf = true) (hany : s ≠ Ty.any) (t : Ty)
    (ht : t.Comparable) :
    H.assignable s t = .ok true ↔ ∃ x ∈ t.targets, H.assignable s x = .ok true := by
  -- along the runs of the check; those over the members of a source do not occur for a leaf
  refine assignable.induct_unfolding H
    (fun s t r => r = H.assignable s t → s.isLeaf = true → s ≠ Ty.any → t.Comparable →
      (r = .ok true ↔ ∃ x ∈ t.targets, H.assignable s x = .ok true))
    (fun _ _ _ => True)
    (fun s ts r => s.isLeaf = true → s ≠ Ty.any → (∀ t ∈ ts, t.Comparable) →
      (r = .ok true ↔ ∃ x ∈ Ty.targetsOf ts, H.assignable s x = .ok true))
    ?annotatedSource ?annotatedTarget ?universal ?anySource ?freeVariable ?boundVariable
    ?constrainedVariable ?unionSource ?unionTarget ?sameName ?otherName ?newTarget ?newSource
    ?leaf ?allNil ?allCons ?anyNil ?anyCons s t rfl hs hany ht
  case annotatedSource =>
    intro s rs t _ _ hs
    cases hs
  case annotatedTarget =>
    -- remarks around a target add no targets
    intro s t rs _ ih _
    exact ih rfl
  case universal =>
    -- the universal types take everything, and they are targets as they stand
    intro s t _ hann huniv hr _ _ _
    have hx : t.targets = [t] := by
      cases t with
      | cls => rfl
      | _ => cases huniv
    exact iff_of_single hx hr
  case boundVariable =>
    -- the bound stands for the variable, in the check as among the targets
    intro s i _ b _ _ _ ih _
    exact ih rfl
  -- constraints and members of a union are asked one after the other
  case constrainedVariable =>
    intro s i b c cs _ _ _ _ ih _ hs hany ht
    exact ih hs hany fun u hu x hx => ht x (Ty.mem_targetsOf.mpr ⟨u, hu, hx⟩)
  case unionTarget =>
    intro s u ts _ _ _ _ _ ih _ hs hany ht
    exact ih hs hany fun u hu x hx => ht x (Ty.mem_targetsOf.mpr ⟨u, hu, hx⟩)
  case unionSource =>
    intro u ss t _ _ _ _ _ _ _ hs
    cases hs
  case allNil | allCons =>
    intros
    trivial
  case anyNil =>
    intro s _ _ _
    show Except.ok false = .ok true ↔ _
    simp [Ty.targetsOf]
  case anyCons =>
    intro s t ts ih ihs hs hany ht
    -- the first answer is one, because nothing refuses the comparison
    obtain ⟨b, hb⟩ := H.exists_assignable s t (ht t List.mem_cons_self)
    have h := ih rfl hs hany (ht t List.mem_cons_self)
    have hts := ihs hs hany fun u hu => ht u (List.mem_cons_of_mem t hu)
    have hor : (∃ x ∈ Ty.targetsOf (t :: ts), H.assignable s x = .ok true) ↔
        H.assignable s t = .ok true ∨ H.assignableAny s ts = .ok true := by
      rw [h, hts, Ty.targetsOf]
      simp [or_and_right, exists_or]
    show (do if ← H.assignable s t then pure true else H.assignableAny s ts) = .ok true ↔ _
    rw [hor, hb, ok_bind]
    cases b with
    | true => simp
    | false => simp
  case anySource =>
    -- the one source that is refused before its targets are asked
    intro t _ _ _ _ _ hany
    exact absurd rfl hany
  -- what remains are types that are their own only target
  case freeVariable =>
    intro s i _ _ _ _ hr _ _ _
    exact iff_of_single rfl hr
  case sameName =>
    intro i g b j k c _ _ _ _ hr _ _ _
    exact iff_of_single rfl hr
  case otherName =>
    intro i g b j k c _ _ _ _ _ hr _ _ _
    exact iff_of_single rfl hr
  case newTarget =>
    intro s _ j k c _ _ _ _ _ hr _ _ _
    exact iff_of_single rfl hr
  case newSource =>
    intro i g b t hfree hbound hunion _ _ hann _ _ hr _ _ _
    exact iff_of_single (targets_eq hfree hbound hunion hann) hr
  case leaf =>
    intro s t _ hfree hbound _ hunion _ _ _ _ hann _ hr _ _ _
    exact iff_of_single (targets_eq hfree hbound hunion hann) hr

theorem assignable_of_isAny (hs : s.isLeaf = true) (ht : t.isAny = true) :
    H.assignable s t = .ok true := by
  rw [assignable.eq_def]
  split
  · cases hs
  · cases ht
  · exact if_pos ht

/-- A type fits what all of its leaves fit. Type variables as targets are left out: a union fits
one of the constraints as a whole or not at all. -/
theorem assignable_iff_leaves (s t : Ty) (ht : t.core.isTypeVar = false) :
    H.assignable s t = .ok true ↔ ∀ x ∈ s.leaves, H.assignable x t = .ok true := by
  refine assignable.induct_unfolding H
    (fun s t r => r = H.assignable s t → t.core.isTypeVar = false →
      (r = .ok true ↔ ∀ x ∈ s.leaves, H.assignable x t = .ok true))
    (fun ss t r => t.core.isTypeVar = false →
      (r = .ok true ↔ ∀ x ∈ Ty.leavesOf ss, H.assignable x t = .ok true))
    (fun _ _ _ => True)
    ?annotatedSource ?annotatedTarget ?universal ?anySource ?freeVariable ?boundVariable
    ?constrainedVariable ?unionSource ?unionTarget ?sameName ?otherName ?newTarget ?newSource
    ?leaf ?allNil ?allCons ?anyNil ?anyCons s t rfl ht
  case annotatedSource =>
    intro s rs t ih _
    exact ih rfl
  case annotatedTarget =>
    intro s t rs _ ih _ ht
    have h := ih rfl ht
    simp only [assignable_annotated_target]
    exact h
  case universal =>
    intro s t _ _ huniv _ _
    refine iff_of_true rfl fun x hx => ?_
    exact assignable_of_isAny (Ty.isLeaf_of_mem_leaves s hx) huniv
  case freeVariable =>
    intro s i _ _ _ _ _ ht
    cases ht
  case boundVariable =>
    intro s i _ b _ _ _ _ _ ht
    cases ht
  case constrainedVariable =>
    intro s i b c cs _ _ _ _ _ _ ht
    cases ht
  case unionSource =>
    intro u ss t _ _ _ _ _ ih _
    exact ih
  case allNil =>
    intro t _
    exact iff_of_true rfl fun x hx => absurd hx List.not_mem_nil
  case allCons =>
    intro t s ss ih ihs ht
    have hs := ih rfl ht
    have hss := ihs ht
    show (do if ← H.assignable s t then H.assignableAll ss t else pure false) = .ok true ↔ _
    rw [Ty.leavesOf, List.forall_mem_append, ← hs, ← hss, bind_eq_ok_iff]
    constructor
    · rintro ⟨b, hb, h⟩
      cases b with
      | true => exact ⟨hb, h⟩
      | false => cases h
    · rintro ⟨hb, h⟩
      exact ⟨true, hb, h⟩
  case anyNil | anyCons =>
    intros
    trivial
  -- what remains are sources that are their own only leaf
  case anySource | sameName | otherName | newSource =>
    intros
    rename_i hr _
    exact iff_of_leaf rfl hr
  case unionTarget =>
    intro s u ts _ hunion hann _ _ _ hr _
    exact iff_of_leaf (leaves_eq hunion hann) hr
  case newTarget =>
    intro s hann i g b _ hunion _ _ _ hr _
    exact iff_of_leaf (leaves_eq hunion hann) hr
  case leaf =>
    intro s t _ _ _ hunion _ _ _ _ hann _ _ hr _
    exact iff_of_leaf (leaves_eq hunion hann) hr

/-- A free type variable takes every source but the universal one. -/
theorem assignable_freeVariable (hs : s.isLeaf = true) (hany : s ≠ Ty.any) (i : Ident) :
    H.assignable s (.typeVar i none []) = .ok true := by
  have hann : ∀ u rs, s = .annotated u rs → False := by
    rintro u rs rfl
    cases hs
  rw [assignable]
  · rfl
  · exact hann
  · exact hany
  · simp

end Hierarchy

end RecordText
