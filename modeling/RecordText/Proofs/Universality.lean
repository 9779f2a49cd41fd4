/-
Types that take everything.

A type is meant to take everything when it is `Any` or `object`, or leads there: under annotations,
by one member of a union, by the bound of a type variable or by one of its constraints, or because
it is a type variable that stands for nothing (`Ty.TakesEverything`).  It does, with one exception:
a source is refused at once when it is `Any` itself, before the target is opened, and a union is
taken apart before the union that it meets.

* `Hierarchy.assignable_of_takesEverything` — **a source without `Any` among its leaves is taken**,
  unless a literal value meets a class that refuses comparison;
* `Hierarchy.assignable_of_any_mem` — a union with `Any` among its leaves is taken where it is met
  as a whole;
* `universal_takes` — all of it, and what follows for substitutes.
-/
import RecordText.Proofs.Opening
import RecordText.Proofs.Building

namespace RecordText

namespace Ty

/-- A type that leads to one that takes everything. -/
inductive TakesEverything : Ty → Prop
  | universal {t : Ty} (ht : t.isAny = true) : TakesEverything t
  | annotated {t : Ty} (rs : List Remark) (ht : TakesEverything t) :
      TakesEverything (.annotated t rs)
  | member {t : Ty} {ts : List Ty} (u : UnionSpelling) (hmem : t ∈ ts) (ht : TakesEverything t) :
      TakesEverything (.union u ts)
  | free (i : Ident) : TakesEverything (.typeVar i none [])
  | bound {b : Ty} (i : Ident) (hb : TakesEverything b) : TakesEverything (.typeVar i (some b) [])
  | constraint {t : Ty} {ts : List Ty} (i : Ident) (b : Option Ty) (hmem : t ∈ ts)
      (ht : TakesEverything t) : TakesEverything (.typeVar i b ts)

variable {t : Ty}

theorem targets_of_isAny (ht : t.isAny = true) : t.targets = [t] := by
  cases t with
  | cls => rfl
  | _ => cases ht

theorem takesAll_of_isAny (ht : t.isAny = true) : t.takesAll = true := by
  cases t with
  | cls => exact ht
  | _ => cases ht

/-- A type leads to one that takes everything when such a type is among its targets. -/
theorem takesEverything_iff : t.TakesEverything ↔ t.Universal := by
  constructor
  · intro h
    induction h with
    | universal ht =>
      exact ⟨_, by simp [targets_of_isAny ht], takesAll_of_isAny ht⟩
    | annotated rs _ ih => exact ih
    | member u hmem _ ih =>
      obtain ⟨x, hx, htakes⟩ := ih
      exact ⟨x, mem_targetsOf.mpr ⟨_, hmem, hx⟩, htakes⟩
    | free i => exact ⟨_, List.mem_singleton.mpr rfl, rfl⟩
    | bound i _ ih => exact ih
    | @constraint t ts i b hmem _ ih =>
      obtain ⟨x, hx, htakes⟩ := ih
      cases ts with
      | nil => cases hmem
      | cons c cs => exact ⟨x, mem_targets_constrained.mpr ⟨t, hmem, hx⟩, htakes⟩
  · rintro ⟨x, hx, htakes⟩
    induction t using targetInduction with
    | annotated t rs ih => exact .annotated rs (ih hx)
    | union u ts ih =>
      obtain ⟨t, ht, hxt⟩ := mem_targetsOf.mp hx
      exact .member u ht (ih t ht hxt)
    | free i => exact .free i
    | bound i b ih => exact .bound i (ih hx)
    | constrained i b c cs ih =>
      obtain ⟨t, ht, hxt⟩ := mem_targets_constrained.mp hx
      exact .constraint i b ht (ih t ht hxt)
    | single t ht hv =>
      rw [targets_of_isLeaf ht hv] at hx
      obtain rfl := List.mem_singleton.mp hx
      refine .universal ?_
      cases x with
      | typeVar => cases hv
      | _ => exact htakes

end Ty

namespace Hierarchy

variable {H : Hierarchy} {s t x : Ty}

/-! ### Sources without the universal type -/

/-- **A source without the universal type among its leaves is not refused by a type that takes
everything.** -/
theorem assignable_of_takesEverything (H : Hierarchy) (hs : Ty.any ∉ s.leaves)
    (ht : t.TakesEverything) : H.assignable s t ≠ .ok false := by
  obtain ⟨x, hx, htakes⟩ := Ty.takesEverything_iff.mp ht
  refine assignable_ne_false_of_target hs hx fun l hl => ?_
  have hleaf := Ty.isLeaf_of_mem_leaves s hl
  have hcore : l.core ≠ Ty.any := by
    rw [Ty.core_of_isLeaf hleaf]
    exact ne_of_mem_of_not_mem hl hs
  exact H.assignable_of_takesAll hcore htakes

/-! ### Sources with the universal type -/

/-- A union with the universal type among its leaves is taken only by what takes all of it at
once. -/
theorem assignable_of_any_mem (hs : Ty.any ∈ s.leaves) (hcore : s.core ≠ Ty.any)
    (h : H.assignable s t = .ok true) : ∃ x ∈ t.fronts, x.takesAll = true := by
  obtain ⟨x, hx, hsx⟩ := (decidedBy_fronts hcore t).accepted h
  refine ⟨x, hx, ?_⟩
  obtain ⟨hcx, htakes | hv⟩ := Ty.front_cases hx
  · exact htakes
  · rw [← hcx] at hv
    -- the universal type is one of the leaves that have to be taken
    have hany : H.assignable Ty.any x = .ok true := (assignable_iff_leaves s x hv).mp hsx _ hs
    rw [H.assignable_of_core_any rfl, hcx] at hany
    exact Ty.takesAll_of_isAny (Except.ok.inj hany)

end Hierarchy

/-- **What leads to a type that takes everything takes every source that has not the universal type
among its leaves**, or there is no answer, because a literal value meets a class that refuses
comparison.  The universal type itself is taken by the two types that take everything and by no
others, and a union that it is a leaf of by what it meets as a whole.

So a substitute that accepts such a type gets every member that is declared without the universal
type, and a member that is declared with nothing else only if it accepts everything as it stands;
and when all substitutes are of this kind, the check of their types stops no build. -/
theorem universal_takes {t : Ty} (ht : t.TakesEverything) :
    (∀ (H : Hierarchy) (s : Ty), Ty.any ∉ s.leaves →
      H.assignable s t = .ok true ∨ H.assignable s t = .error .wrongType ∧ ¬s.CanMeet t) ∧
    (∀ (H : Hierarchy) (s : Ty), s.core = Ty.any → H.assignable s t = .ok t.core.isAny) ∧
    (∀ (H : Hierarchy) (s : Ty), Ty.any ∈ s.leaves → s.core ≠ Ty.any →
      (H.assignable s t = .ok true → ∃ x ∈ t.fronts, x.takesAll = true) ∧
      ((∃ x ∈ t.fronts, x.takesAll = true) →
        H.assignable s t = .ok true ∨ H.assignable s t = .error .wrongType ∧ ¬s.CanMeet t)) ∧
    (∀ (W : World) (c : Config) (target : String) (m : Member) (s : Substitute),
      c.substitute? m.name = some s → W.acceptedType s = .ok t →
        (Ty.any ∉ m.declared.leaves → m.declared.CanMeet t →
          W.partOf c target m = .ok (.substituted m s.function t)) ∧
        (m.declared.core = Ty.any → W.partOf c target m =
          if t.core.isAny then .ok (.substituted m s.function t)
          else .error (.rejected (.notConvertible m.name target m.declared t)))) ∧
    ∀ (W : World) (b : Builder) (catalog : Catalog) (notes : List Note),
      W.catalog b.target b.config.useFields b.config.useProperties = .ok (catalog, notes) →
        (∀ m ∈ World.survivors b.config catalog, ∀ s, b.config.substitute? m.name = some s →
          ∃ u, W.acceptedType s = .ok u ∧ u.TakesEverything ∧ Ty.any ∉ m.declared.leaves ∧
            m.declared.CanMeet u) →
        ((∃ x, W.build b = .ok x) ↔ ∀ k : Condition, k ≠ .accepted → k.Holds W b catalog) := by
  have htaken {H : Hierarchy} {s u : Ty} (hu : u.TakesEverything) (hs : Ty.any ∉ s.leaves)
      (hmeet : s.CanMeet u) : H.assignable s u = .ok true :=
    (Hierarchy.assignable_of_ne_false (H.assignable_of_takesEverything hs hu)).resolve_right
      fun herror => herror.2 hmeet
  refine ⟨?_, ?_, ?_, ?_, ?_⟩
  · intro H s hs
    exact Hierarchy.assignable_of_ne_false (H.assignable_of_takesEverything hs ht)
  · intro H s hs
    exact H.assignable_of_core_any hs t
  · intro H s hs hcore
    refine ⟨Hierarchy.assignable_of_any_mem hs hcore, ?_⟩
    rintro ⟨x, hx, htakes⟩
    have hsx := H.assignable_of_takesAll hcore htakes
    exact Hierarchy.assignable_of_ne_false ((Hierarchy.decidedBy_fronts hcore t).ne_false hx hsx)
  · intro W c target m s hs haccepted
    refine ⟨fun hany hmeet => ?_, fun hcore => ?_⟩
    · exact World.partOf_of_accepted hs haccepted (htaken ht hany hmeet) target
    · have hcheck := W.hierarchy.assignable_of_core_any hcore t
      by_cases htop : t.core.isAny = true
      · rw [if_pos htop]
        exact World.partOf_of_accepted hs haccepted (htop ▸ hcheck) target
      · rw [if_neg htop]
        exact World.partOf_of_refused hs haccepted (by simpa [htop] using hcheck) target
  · intro W b catalog notes hc h
    refine World.build_of_accepted hc fun m hm s hs => ?_
    obtain ⟨u, haccepted, hu, hany, hmeet⟩ := h m hm s hs
    exact ⟨u, haccepted, htaken hu hany hmeet⟩

/-! ### A list that is passed on -/

/-- Nothing, or what a type variable below `object` stands for. -/
def openChoice : Ty := .union .form [Ty.noneType, .typeVar ⟨2, "T"⟩ (some Ty.object) []]

/-- A list of integers. -/
def numbers : Ty := .generic .plain (.known .list) [.cls (.known .int)]

/-- A model with one list. -/
def numbersWorld : World := .ofModel [("numbers", numbers)]

/-- Its field is written by a function that accepts everything, one way or another. -/
def numbersBuilder : Builder := .ofModel [("numbers", ⟨.builtin .length, some openChoice⟩)]

theorem takesEverything_openChoice : openChoice.TakesEverything := by
  have hobject : Ty.object.TakesEverything := .universal rfl
  have hvariable : (Ty.typeVar ⟨2, "T"⟩ (some Ty.object) []).TakesEverything := .bound _ hobject
  exact .member _ (List.mem_cons_of_mem _ (List.mem_singleton.mpr rfl)) hvariable

/-- Without its substitute the list could not be written at all. -/
theorem universal_takes_numbers :
    openChoice.TakesEverything ∧ Ty.any ∉ numbers.leaves ∧
      numbersWorld.hierarchy.assignable numbers openChoice = .ok true ∧
      numbersWorld.hierarchy.assignable Ty.any openChoice = .ok false ∧
      numbersWorld.hierarchy.strategy numbers = .unsupported ∧
      ∃ x, numbersWorld.build numbersBuilder = .ok x := by
  obtain ⟨htaken, huniversal, -, -, hbuild⟩ := universal_takes takesEverything_openChoice
  have hany : Ty.any ∉ numbers.leaves := by simp [numbers, Ty.leaves, Ty.any]
  have hmeet : numbers.CanMeet openChoice := .inl rfl
  obtain ⟨notes, hc⟩ := World.catalog_ofModel [("numbers", numbers)] (by simp [isPrivate])
  refine ⟨takesEverything_openChoice, hany, ?_, huniversal _ _ rfl, by decide, ?_⟩
  · exact (htaken _ _ hany).resolve_right fun h => h.2 hmeet
  · refine (hbuild numbersWorld numbersBuilder _ notes hc ?_).mpr
      (Condition.holds_ofModel "numbers" numbers _ rfl)
    intro m hm s hs
    obtain rfl := List.mem_singleton.mp hm
    cases hs
    exact ⟨openChoice, rfl, takesEverything_openChoice, hany, hmeet⟩

end RecordText
