/-
Types that fit themselves.

A substitute may accept exactly the declared type of its member, and then the check compares a type
with itself.  Every leaf meets itself among the targets, and most leaves fit themselves.  There are
two exceptions.  A class that refuses comparison is fit by nothing.  A type variable as a target
stands for its bound or its constraints, but as a source for itself alone, so it fits only what
takes all.

* `Hierarchy.assignable_leaf_self`, `Hierarchy.assignable_variable_iff` — leaves;
* `Hierarchy.assignable_self_iff` — types in which the universal type is no leaf;
* `assignable_self` — **what a type needs in order to fit itself**, and what follows for builds.
-/
import RecordText.Proofs.Leaves
import RecordText.Proofs.References
import RecordText.Proofs.Building

namespace RecordText

namespace Hierarchy

variable {H : Hierarchy} {t x : Ty}

/-! ### Leaves -/

theorem assignableLeaf_self (hH : ∀ c, H.below c c = true)
    (ht : ∀ c, t.originClass? = some c → refuses c = false) : H.assignableLeaf t t = .ok true := by
  have hself := Ty.same_self t
  unfold assignableLeaf
  split
  · exact congrArg Except.ok hself
  · cases hc : t.originClass? with
    | none => exact congrArg Except.ok hself
    | some c =>
      have hle : H.subclass? c c = some true := by
        rw [subclass?, if_neg (by simp [ht c hc]), hH]
      show Except.ok ((H.subclass? c c).getD false) = _
      rw [hle]
      rfl

/-- A leaf fits itself, if it is neither the universal type nor a type variable. -/
theorem assignable_leaf_self (hH : ∀ c, H.below c c = true) (hx : x.isLeaf = true)
    (hv : x.isTypeVar = false) (hany : x ≠ Ty.any) (hc : x.Comparable) :
    H.assignable x x = .ok true := by
  have hleaf := assignableLeaf_self hH fun c => refuses_asClass hc
  by_cases hobj : x.isAny = true
  · exact assignable_of_isAny hx hobj
  cases x with
  | annotated => cases hx
  | union => cases hx
  | typeVar => cases hv
  | cls c =>
    have hc : ¬c = .known .any := fun h => hany (congrArg Ty.cls h)
    rw [assignable, if_neg hobj]
    · exact hleaf
    all_goals simp [hc]
  | newType i g b =>
    rw [assignable, if_neg hobj, if_pos (Ty.same_self _)]
    all_goals simp
  | _ =>
    rw [assignable, if_neg hobj]
    · exact hleaf
    all_goals simp

/-! ### Type variables -/

/-- A type variable as a source stands for itself alone, and no target that stands for nothing else
equals it, unless it is free. -/
theorem assignable_variable_iff (hx : x.isTypeVar = true) (ht : t.isTarget = true) :
    H.assignable x t = .ok true ↔ t.takesAll = true := by
  cases x with
  | typeVar i b cs =>
    cases t with
    | annotated => cases ht
    | union => cases ht
    | typeVar j bound ds =>
      cases bound with
      | some => cases ds <;> cases ht
      | none =>
        cases ds with
        | cons => cases ht
        | nil => exact iff_of_true (assignable_freeVariable rfl (by simp [Ty.any]) j) rfl
    | newType j g u =>
      rw [assignable]
      all_goals simp [Ty.takesAll, Ty.isAny]
    | cls c =>
      rw [assignable]
      · by_cases hc : (Ty.cls c).isAny = true
        · rw [if_pos hc]
          exact iff_of_true rfl hc
        · rw [if_neg hc]
          exact iff_of_false (fun h => by cases h) hc
      all_goals simp
    | _ =>
      rw [assignable]
      · exact iff_of_false (fun h => by cases h) (by simp [Ty.takesAll, Ty.isAny])
      all_goals simp
  | _ => cases hx

theorem assignable_variable_iff_universal (hx : x.isTypeVar = true) (ht : t.Comparable) :
    H.assignable x t = .ok true ↔ t.Universal := by
  have hleaf : x.isLeaf = true := by
    cases x with
    | typeVar => rfl
    | _ => cases hx
  have hany : x ≠ Ty.any := by
    rintro rfl
    cases hx
  rw [assignable_leaf_iff hleaf hany t ht]
  refine exists_congr fun y => and_congr_right fun hy => ?_
  exact assignable_variable_iff hx (Ty.isTarget_of_mem_targets t hy)

/-! ### Types -/

/-- A leaf fits the type that it is a leaf of, unless it is a type variable and nothing in the type
takes all. -/
theorem assignable_of_mem_leaves (hH : ∀ c, H.below c c = true) (ht : t.Comparable)
    (hx : x ∈ t.leaves) (hany : x ≠ Ty.any) :
    H.assignable x t = .ok true ↔ (x.isTypeVar = true → t.Universal) := by
  have hleaf := Ty.isLeaf_of_mem_leaves t hx
  cases hv : x.isTypeVar with
  | true => simp [assignable_variable_iff_universal hv ht]
  | false =>
    have hmem : x ∈ t.targets :=
      Ty.targets_subset t hx (by simp [Ty.targets_of_isLeaf hleaf hv])
    have hself := assignable_leaf_self hH hleaf hv hany (ht.of_mem_leaves hx)
    have hfits := (assignable_leaf_iff hleaf hany t ht).mpr ⟨x, hmem, hself⟩
    simp [hfits]

/-- **A type in which the universal type is no leaf fits itself, unless a type variable is one and
nothing in the type takes all.** -/
theorem assignable_self_iff (hH : ∀ c, H.below c c = true) (ht : t.Comparable)
    (hany : Ty.any ∉ t.leaves) :
    H.assignable t t = .ok true ↔ ((∃ x ∈ t.leaves, x.isTypeVar = true) → t.Universal) := by
  have hleaves : ∀ x ∈ t.leaves,
      (H.assignable x t = .ok true ↔ (x.isTypeVar = true → t.Universal)) :=
    fun x hx => assignable_of_mem_leaves hH ht hx (ne_of_mem_of_not_mem hx hany)
  cases hv : t.core.isTypeVar with
  | false =>
    rw [assignable_iff_leaves t t hv, forall₂_congr hleaves]
    simp
  | true =>
    -- a type variable under annotations is its own only leaf
    have hcore : t.leaves = [t.core] := by
      have hl : t.core.isLeaf = true := by
        cases h : t.core with
        | typeVar => rfl
        | _ => rw [h] at hv; cases hv
      rw [← Ty.leaves_core, Ty.leaves_of_isLeaf hl]
    rw [← assignable_core_source, hleaves t.core (by simp [hcore]), hcore]
    simp

/-- The universal type fits itself. -/
theorem assignable_any_self (h : t.core = Ty.any) : H.assignable t t = .ok true := by
  rw [← assignable_core, h]
  exact assignable_of_isAny rfl rfl

theorem eq_proto_of_refuses {c : ClassRef} (hc : refuses c = true) : c = .known .proto := by
  unfold refuses at hc
  split at hc
  · rfl
  · cases hc

/-- The class that refuses comparison fits nothing that stands for it, not even itself. -/
theorem assignable_refusing_self {c : ClassRef} (hc : t.core.originClass? = some c)
    (hr : refuses c = true) : H.assignable t t = .ok false := by
  obtain rfl := eq_proto_of_refuses hr
  rw [← assignable_core]
  cases h : t.core with
  | cls d | bare n d | generic g d us =>
    rw [h] at hc
    cases hc
    rw [assignable]
    · rfl
    all_goals simp
  | _ =>
    rw [h] at hc
    cases hc

end Hierarchy

/-! ### Substitutes -/

namespace World

theorem below_self (W : World) (c : ClassRef) : W.hierarchy.below c c = true := by
  cases c with
  | known c => simp [hierarchy, KnownClass.below]
  | defined id => simp [hierarchy]

/-- A substitute that accepts exactly the declared type of its member gets it. -/
theorem partOf_of_exact {W : World} {c : Config} {m : Member} {s : Substitute}
    (hs : c.substitute? m.name = some s) (ht : W.acceptedType s = .ok m.declared)
    (hself : W.hierarchy.assignable m.declared m.declared = .ok true) (target : String) :
    W.partOf c target m = .ok (.substituted m s.function m.declared) :=
  partOf_of_accepted hs ht hself target

/-- When every substitute accepts exactly the declared type of its member, and these types fit
themselves, the other five conditions decide whether a build succeeds. -/
theorem build_of_exact {W : World} {b : Builder} {catalog : Catalog} {notes : List Note}
    (hc : W.catalog b.target b.config.useFields b.config.useProperties = .ok (catalog, notes))
    (h : ∀ m ∈ survivors b.config catalog, ∀ s, b.config.substitute? m.name = some s →
      W.acceptedType s = .ok m.declared ∧
        W.hierarchy.assignable m.declared m.declared = .ok true) :
    (∃ x, W.build b = .ok x) ↔ ∀ k : Condition, k ≠ .accepted → k.Holds W b catalog := by
  have haccepted : Condition.accepted.Holds W b catalog :=
    fun m hm s hs => ⟨m.declared, h m hm s hs⟩
  exact build_of_accepted hc haccepted

end World

/-- What a type needs in order to fit itself. It is the universal type, possibly annotated. Or that
type is none of its leaves, no class that there is to fit refuses comparison, and a type variable
among the leaves comes with something that takes all. -/
def Ty.FitsItself (t : Ty) : Prop :=
  t.core = Ty.any ∨ t.Comparable ∧ Ty.any ∉ t.leaves ∧
    ((∃ x ∈ t.leaves, x.isTypeVar = true) → t.Universal)

theorem Ty.FitsItself.assignable {H : Hierarchy} {t : Ty} (ht : t.FitsItself)
    (hH : ∀ c, H.below c c = true) : H.assignable t t = .ok true := by
  rcases ht with h | ⟨hc, hany, hv⟩
  · exact Hierarchy.assignable_any_self h
  · exact (Hierarchy.assignable_self_iff hH hc hany).mpr hv

/-- **A type fits itself when it has what it needs for that.**  Where the universal type is no leaf
and no class refuses comparison, nothing else fits itself; neither does a class that refuses
comparison.  Hence a substitute that accepts exactly the declared type of its member gets the
member, and if all substitutes are of this kind the check of their types stops no build. -/
theorem assignable_self (W : World) :
    (∀ t : Ty, t.FitsItself → W.hierarchy.assignable t t = .ok true) ∧
    (∀ t : Ty, t.Comparable → Ty.any ∉ t.leaves →
      W.hierarchy.assignable t t = .ok true → t.FitsItself) ∧
    (∀ (t : Ty) (c : ClassRef), t.core.originClass? = some c → Hierarchy.refuses c = true →
      W.hierarchy.assignable t t = .ok false) ∧
    (∀ (c : Config) (target : String) (m : Member) (s : Substitute),
      c.substitute? m.name = some s → W.acceptedType s = .ok m.declared →
        m.declared.FitsItself →
          W.partOf c target m = .ok (.substituted m s.function m.declared)) ∧
    ∀ (b : Builder) (catalog : Catalog) (notes : List Note),
      W.catalog b.target b.config.useFields b.config.useProperties = .ok (catalog, notes) →
        (∀ m ∈ World.survivors b.config catalog, ∀ s, b.config.substitute? m.name = some s →
          W.acceptedType s = .ok m.declared ∧ m.declared.FitsItself) →
        ((∃ x, W.build b = .ok x) ↔ ∀ k : Condition, k ≠ .accepted → k.Holds W b catalog) := by
  refine ⟨fun t ht => ht.assignable W.below_self, ?_, ?_, ?_, ?_⟩
  · intro t hc hany h
    exact .inr ⟨hc, hany, (Hierarchy.assignable_self_iff W.below_self hc hany).mp h⟩
  · intro t c hc hr
    exact Hierarchy.assignable_refusing_self hc hr
  · intro c target m s hs ht hself
    exact World.partOf_of_exact hs ht (hself.assignable W.below_self) target
  · intro b catalog notes hc h
    refine World.build_of_exact hc fun m hm s hs => ?_
    obtain ⟨ht, hself⟩ := h m hm s hs
    exact ⟨ht, hself.assignable W.below_self⟩

/-! ### A substitute for exactly the declared type -/

/-- A list of integers with a remark, the absent value, a single character, or anything that a free
type variable stands for. -/
def mixedTy : Ty :=
  .union .form [.annotated (.generic .plain (.known .list) [.cls (.known .int)]) [.text "m"],
    Ty.noneType, Ty.char, .typeVar ⟨2, "T"⟩ none []]

/-- A model with one field of that type. -/
def mixedWorld : World := .ofModel [("mixed", mixedTy)]

/-- Its field is written by a function that accepts exactly that type. -/
def mixedBuilder : Builder := .ofModel [("mixed", ⟨.builtin .text, some mixedTy⟩)]

theorem fitsItself_mixedTy : mixedTy.FitsItself := by
  refine .inr ⟨?_, ?_, fun _ => ?_⟩
  · intro x hx c hc
    simp only [mixedTy, Ty.targets, Ty.targetsOf, Ty.noneType, Ty.char, List.cons_append,
      List.nil_append, List.mem_cons, List.not_mem_nil, or_false] at hx
    rcases hx with rfl | rfl | rfl | rfl <;> cases hc <;> rfl
  · simp [mixedTy, Ty.leaves, Ty.leavesOf, Ty.noneType, Ty.char, Ty.any]
  · exact ⟨.typeVar ⟨2, "T"⟩ none [], by simp [mixedTy, Ty.targets, Ty.targetsOf], rfl⟩

theorem assignable_self_mixed :
    mixedTy.FitsItself ∧ mixedWorld.hierarchy.assignable mixedTy mixedTy = .ok true ∧
      ∃ x, mixedWorld.build mixedBuilder = .ok x := by
  obtain ⟨hself, -, -, -, hbuild⟩ := assignable_self mixedWorld
  obtain ⟨notes, hc⟩ := World.catalog_ofModel [("mixed", mixedTy)] (by simp [isPrivate])
  refine ⟨fitsItself_mixedTy, hself _ fitsItself_mixedTy,
    (hbuild mixedBuilder _ notes hc ?_).mpr ?_⟩
  · intro m hm s hs
    obtain rfl := List.mem_singleton.mp hm
    cases hs
    exact ⟨rfl, fitsItself_mixedTy⟩
  · intro k hk
    cases k with
    | mode => exact .inl rfl
    | ignored => exact fun n hn => absurd hn List.not_mem_nil
    | substituted =>
      intro n hn
      obtain rfl := List.mem_singleton.mp hn
      exact ⟨_, List.mem_singleton.mpr rfl, by decide⟩
    | accepted => exact absurd rfl hk
    | supported =>
      intro m hm hs
      obtain rfl := List.mem_singleton.mp hm
      cases hs
    | distinct => exact List.nodup_singleton _

/-- A class that refuses comparison does not fit itself, and neither does a type variable that
stands for byte strings or texts. -/
theorem not_assignable_self :
    World.empty.hierarchy.assignable (.cls (.known .proto)) (.cls (.known .proto)) = .ok false ∧
    World.empty.hierarchy.assignable Ty.anyStr Ty.anyStr = .ok false := by
  constructor
  · exact Hierarchy.assignable_refusing_self rfl rfl
  · simp [Ty.anyStr, Ty.str, Hierarchy.assignable, Hierarchy.assignableAny, Ty.isAny,
      Hierarchy.assignableLeaf, Hierarchy.asClass, Ty.originClass?, Ty.same]

end RecordText
