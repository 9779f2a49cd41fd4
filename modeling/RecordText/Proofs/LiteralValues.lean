/-
Literal values in the check of declared types.

A literal type is meant to be decided by its values: it should fit a type made of classes when every
value is an instance of one of the classes.  The check asks for more.  It opens a union before it
looks at the values, so one class has to have them all.

* `Ty.OfClasses`, `Hierarchy.IsInstance` — types made of classes, and the values that are instances
  of what such a type stands for;
* `World.assignable_literal_iff` — **a literal type fits when one class has all of its values**;
* `World.assignable_literals_iff` — the union of the single values fits when every value is an
  instance of some class;
* `literal_by_values` — both, and where they come to the same.
-/
import RecordText.Proofs.Opening
import RecordText.Proofs.Building

namespace RecordText

namespace Ty

variable {t x : Ty}

/-- A type made of classes, generic forms and the absent value. Neither the universal type nor a
class that refuses comparison is among them. -/
def OfClasses (t : Ty) : Prop :=
  ∀ x ∈ t.leaves, x ≠ any ∧
    ∃ c, (Hierarchy.asClass x).originClass? = some c ∧ Hierarchy.refuses c = false

theorem isTypeVar_of_originClass? {c : ClassRef}
    (h : (Hierarchy.asClass x).originClass? = some c) : x.isTypeVar = false := by
  cases x with
  | typeVar => cases h
  | _ => rfl

theorem eq_any_or_eq_object (ht : t.isAny = true) : t = any ∨ t = object := by
  rw [isAny.eq_def] at ht
  split at ht
  · exact .inl rfl
  · exact .inr rfl
  · cases ht

/-- Without type variables, what there is to fit in a type are its leaves. -/
theorem mem_targets_iff_mem_leaves (h : ∀ y ∈ t.leaves, y.isTypeVar = false) :
    x ∈ t.targets ↔ x ∈ t.leaves := by
  induction t using targetInduction with
  | annotated t rs ih => exact ih h
  | union u ts ih =>
    have hmember : ∀ t ∈ ts, (x ∈ t.targets ↔ x ∈ t.leaves) := by
      intro t ht
      exact ih t ht fun y hy => h y (mem_leavesOf.mpr ⟨t, ht, hy⟩)
    exact mem_targetsOf.trans ((exists_congr fun t => and_congr_right (hmember t)).trans
      mem_leavesOf.symm)
  | free i => exact absurd (h _ (List.mem_singleton.mpr rfl)) (by simp [isTypeVar])
  | bound i b => exact absurd (h _ (List.mem_singleton.mpr rfl)) (by simp [isTypeVar])
  | constrained i b c cs => exact absurd (h _ (List.mem_singleton.mpr rfl)) (by simp [isTypeVar])
  | single t hl hv => rw [targets_of_isLeaf hl hv, leaves_of_isLeaf hl]

namespace OfClasses

variable (ht : t.OfClasses)

include ht

theorem isTypeVar : ∀ x ∈ t.leaves, x.isTypeVar = false := by
  intro x hx
  obtain ⟨-, c, hc, -⟩ := ht x hx
  exact isTypeVar_of_originClass? hc

theorem isTypeVar_core : t.core.isTypeVar = false := by
  rcases isLeaf_or_isUnion_core t with hl | hu
  · refine ht.isTypeVar t.core ?_
    rw [← leaves_core, leaves_of_isLeaf hl]
    exact List.mem_singleton.mpr rfl
  · cases hc : t.core with
    | union => rfl
    | _ => rw [hc] at hu; cases hu

theorem comparable : t.Comparable := by
  intro x hx c hc
  obtain ⟨-, d, hd, hrefuses⟩ := ht x ((mem_targets_iff_mem_leaves ht.isTypeVar).mp hx)
  have hcd : (Hierarchy.asClass x).originClass? = some c := by
    cases x with
    | absent => cases hc
    | _ => exact hc
  rw [hd] at hcd
  exact Option.some.inj hcd ▸ hrefuses

end OfClasses

end Ty

namespace Hierarchy

/-- A literal value is an instance of the class that a type stands for. -/
def IsInstance (H : Hierarchy) (l : Literal) (x : Ty) : Prop :=
  ∃ c, (asClass x).originClass? = some c ∧ H.subclass? (.known l.kind) c = some true

variable {H : Hierarchy} {t x : Ty}

/-- Only its class decides what a literal value is an instance of. -/
theorem isInstance_congr {k l : Literal} (h : k.kind = l.kind) :
    H.IsInstance k x ↔ H.IsInstance l x := by
  rw [IsInstance, IsInstance, h]

/-- A class takes the literal types of which it accepts all values. -/
theorem assignableLeaf_literal {c : ClassRef} (hc : t.originClass? = some c) (ls : List Literal) :
    H.assignableLeaf (.literal ls) t = H.acceptsAll c ls := by
  simp only [assignableLeaf, hc]

end Hierarchy

namespace World

variable {t x : Ty}

/-- Every literal value is an instance of the class above all classes. -/
theorem isInstance_object (W : World) (l : Literal) : W.hierarchy.IsInstance l Ty.object := by
  refine ⟨.known .object, rfl, ?_⟩
  simp [Hierarchy.subclass?, Hierarchy.refuses, hierarchy, KnownClass.below]

/-- What stands for a class takes the literal types of which that class has all values. -/
theorem assignable_literal_class_iff (W : World) (ls : List Literal) (hx : x.isLeaf = true)
    (hany : x ≠ Ty.any) {c : ClassRef} (hc : (Hierarchy.asClass x).originClass? = some c) :
    W.hierarchy.assignable (.literal ls) x = .ok true ↔
      ∀ l ∈ ls, W.hierarchy.IsInstance l x := by
  by_cases huniv : x.isAny = true
  · obtain rfl := (Ty.eq_any_or_eq_object huniv).resolve_left hany
    exact iff_of_true (W.hierarchy.assignable_universal _ rfl) fun l _ => W.isInstance_object l
  have hnot : x.isNewType = false := by
    cases x with
    | newType => cases hc
    | _ => rfl
  have hkind := Ty.isNewType_or_isBasic hx (by simpa using huniv) (Ty.isTypeVar_of_originClass? hc)
  have hbasic : x.isBasic = true := hkind.resolve_left (by simp [hnot])
  have hleaf : W.hierarchy.assignable (.literal ls) x = W.hierarchy.acceptsAll c ls := by
    rw [W.hierarchy.assignable_basic rfl rfl (by simp [Ty.any]) hbasic]
    exact Hierarchy.assignableLeaf_literal hc ls
  rw [hleaf, Hierarchy.acceptsAll_eq_true_iff]
  simp [Hierarchy.IsInstance, hc]

/-- **A literal type fits when one class has all of its values.** -/
theorem assignable_literal_iff (W : World) (ls : List Literal) (ht : t.OfClasses) :
    W.hierarchy.assignable (.literal ls) t = .ok true ↔
      ∃ x ∈ t.leaves, ∀ l ∈ ls, W.hierarchy.IsInstance l x := by
  rw [Hierarchy.assignable_leaf_iff rfl (by simp [Ty.any]) t ht.comparable]
  refine exists_congr fun x => ?_
  rw [Ty.mem_targets_iff_mem_leaves ht.isTypeVar]
  refine and_congr_right fun hx => ?_
  obtain ⟨hany, c, hc, -⟩ := ht x hx
  exact W.assignable_literal_class_iff ls (Ty.isLeaf_of_mem_leaves t hx) hany hc

/-- **The union of single values fits when every value is an instance of some class.** -/
theorem assignable_literals_iff (W : World) (u : UnionSpelling) (ls : List Literal)
    (ht : t.OfClasses) :
    W.hierarchy.assignable (.union u (ls.map fun l => .literal [l])) t = .ok true ↔
      ∀ l ∈ ls, ∃ x ∈ t.leaves, W.hierarchy.IsInstance l x := by
  rw [Hierarchy.assignable_iff_leaves _ t ht.isTypeVar_core]
  have hleaves : ∀ y, y ∈ (Ty.union u (ls.map fun l => .literal [l])).leaves ↔
      ∃ l ∈ ls, y = .literal [l] := by
    intro y
    refine Ty.mem_leavesOf.trans ?_
    simp [Ty.leaves]
  constructor
  · intro h l hl
    have hsingle := h _ ((hleaves _).mpr ⟨l, hl, rfl⟩)
    obtain ⟨x, hx, hinstance⟩ := (W.assignable_literal_iff [l] ht).mp hsingle
    exact ⟨x, hx, hinstance l (List.mem_singleton.mpr rfl)⟩
  · intro h y hy
    obtain ⟨l, hl, rfl⟩ := (hleaves y).mp hy
    obtain ⟨x, hx, hinstance⟩ := h l hl
    refine (W.assignable_literal_iff [l] ht).mpr ⟨x, hx, fun k hk => ?_⟩
    obtain rfl := List.mem_singleton.mp hk
    exact hinstance

end World

/-- **Literal types are decided by their values, class by class.**  A literal type fits a type made
of classes when one of them has all of its values, while the union of the same values fits when
each of them is an instance of some class.  So every value of a literal type that fits is an
instance of a class; the converse holds where there is but one class, and for values of one class;
otherwise it may fail. -/
theorem literal_by_values (W : World) (ls : List Literal) (t : Ty) (ht : t.OfClasses) :
    (∃ b, W.hierarchy.assignable (.literal ls) t = .ok b) ∧
    (W.hierarchy.assignable (.literal ls) t = .ok true ↔
      ∃ x ∈ t.leaves, ∀ l ∈ ls, W.hierarchy.IsInstance l x) ∧
    (∀ u, W.hierarchy.assignable (.union u (ls.map fun l => .literal [l])) t = .ok true ↔
      ∀ l ∈ ls, ∃ x ∈ t.leaves, W.hierarchy.IsInstance l x) ∧
    (W.hierarchy.assignable (.literal ls) t = .ok true →
      ∀ l ∈ ls, ∃ x ∈ t.leaves, W.hierarchy.IsInstance l x) ∧
    ((∃ x, t.leaves = [x]) ∨ t.leaves ≠ [] ∧ (∀ k ∈ ls, ∀ l ∈ ls, k.kind = l.kind) →
      (∀ l ∈ ls, ∃ x ∈ t.leaves, W.hierarchy.IsInstance l x) →
        W.hierarchy.assignable (.literal ls) t = .ok true) := by
  have hliteral := W.assignable_literal_iff ls ht
  refine ⟨W.hierarchy.exists_assignable _ t ht.comparable, hliteral,
    fun u => W.assignable_literals_iff u ls ht, ?_, ?_⟩
  · intro hok l hl
    obtain ⟨x, hx, hinstance⟩ := hliteral.mp hok
    exact ⟨x, hx, hinstance l hl⟩
  · intro hsame hsome
    refine hliteral.mpr ?_
    rcases hsame with ⟨x, hx⟩ | ⟨hne, hkind⟩
    · refine ⟨x, by simp [hx], fun l hl => ?_⟩
      obtain ⟨y, hy, hinstance⟩ := hsome l hl
      rw [hx] at hy
      exact List.mem_singleton.mp hy ▸ hinstance
    · cases ls with
      | nil =>
        obtain ⟨x, hx⟩ := List.exists_mem_of_ne_nil _ hne
        exact ⟨x, hx, fun l hl => absurd hl List.not_mem_nil⟩
      | cons k ks =>
        -- the class of the first value has them all
        obtain ⟨x, hx, hinstance⟩ := hsome k List.mem_cons_self
        refine ⟨x, hx, fun l hl => ?_⟩
        exact (Hierarchy.isInstance_congr (hkind k List.mem_cons_self l hl)).mp hinstance

/-! ### A text or nothing -/

/-- Nothing or a text. -/
def optionalLetter : Ty := .union .form [Ty.str, Ty.noneType]

theorem mem_leaves_optionalLetter {x : Ty} :
    x ∈ optionalLetter.leaves ↔ x = Ty.str ∨ x = Ty.noneType := by
  simp [optionalLetter, Ty.leaves, Ty.leavesOf, Ty.str, Ty.noneType]

theorem ofClasses_optionalLetter : optionalLetter.OfClasses := by
  intro x hx
  obtain rfl | rfl := mem_leaves_optionalLetter.mp hx
  · exact ⟨by simp [Ty.str, Ty.any], .known .str, rfl, rfl⟩
  · exact ⟨by simp [Ty.noneType, Ty.any], .known .noneType, rfl, rfl⟩

/-- A letter is a text and the absent value has its own class, but no class has both. -/
theorem literal_by_values_letter :
    optionalLetter.OfClasses ∧
      World.empty.hierarchy.assignable
        (.union .form [.literal [.text "a"], .literal [.absent]]) optionalLetter = .ok true ∧
      World.empty.hierarchy.assignable (.literal [.text "a", .absent]) optionalLetter =
        .ok false := by
  have hstr : World.empty.hierarchy.IsInstance (.text "a") Ty.str := ⟨.known .str, rfl, by decide⟩
  have hnone : World.empty.hierarchy.IsInstance .absent Ty.noneType :=
    ⟨.known .noneType, rfl, by decide⟩
  obtain ⟨⟨b, hb⟩, hone, hsome, -⟩ :=
    literal_by_values World.empty [.text "a", .absent] optionalLetter ofClasses_optionalLetter
  have hsplit : ∀ l ∈ [Literal.text "a", .absent],
      ∃ x ∈ optionalLetter.leaves, World.empty.hierarchy.IsInstance l x := by
    intro l hl
    obtain rfl | rfl : l = .text "a" ∨ l = .absent := by simpa using hl
    · exact ⟨Ty.str, mem_leaves_optionalLetter.mpr (.inl rfl), hstr⟩
    · exact ⟨Ty.noneType, mem_leaves_optionalLetter.mpr (.inr rfl), hnone⟩
  refine ⟨ofClasses_optionalLetter, (hsome .form).mpr hsplit, ?_⟩
  cases b with
  | false => exact hb
  | true =>
    obtain ⟨x, hx, hall⟩ := hone.mp hb
    obtain rfl | rfl := mem_leaves_optionalLetter.mp hx
    · obtain ⟨c, hc, hbelow⟩ := hall .absent (by simp)
      cases hc
      exact absurd hbelow (by decide)
    · obtain ⟨c, hc, hbelow⟩ := hall (.text "a") (by simp)
      cases hc
      exact absurd hbelow (by decide)

end RecordText
