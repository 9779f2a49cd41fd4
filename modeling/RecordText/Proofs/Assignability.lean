/-
The check of declared types is sound.

When a value declared as one type may be passed where another is asked for, then every value of the
first type is one of the second (`Respects.assignable`): **whatever values are instances of**, as
long as instances of a class are instances of the classes above it, and **whatever the other forms
ask of a value**, as long as equal forms ask the same.  The proof is an induction on the rules of
the check.  Only its last rules look at classes; `Respects.leaf` is about them.

The check itself may run into a fault, when literal values meet the class that refuses comparison,
but into no other one (`assignable_failsWith`).
-/
import RecordText.Proofs.Conformance
import RecordText.Proofs.Faults

namespace RecordText

/-! ### Faults -/

namespace Hierarchy

variable (H : Hierarchy)

theorem acceptsAll_failsWith (c : ClassRef) (ls : List Literal) :
    FailsWith (· = .wrongType) (H.acceptsAll c ls) := by
  induction ls with
  | nil => simp [acceptsAll]
  | cons l ls ih =>
    rw [acceptsAll]
    split
    · simp
    · exact ih
    · simp

theorem assignableLeaf_failsWith (s t : Ty) :
    FailsWith (· = .wrongType) (H.assignableLeaf s t) := by
  unfold assignableLeaf
  split
  · split
    · exact H.acceptsAll_failsWith _ _
    · simp
  · split <;> simp

/-- **Comparing types fails in one way only.** -/
theorem assignable_failsWith (s t : Ty) : FailsWith (· = .wrongType) (H.assignable s t) := by
  refine assignable.induct_unfolding H (fun _ _ r => FailsWith (· = .wrongType) r)
    (fun _ _ r => FailsWith (· = .wrongType) r) (fun _ _ r => FailsWith (· = .wrongType) r)
    ?annotatedSource ?annotatedTarget ?universal ?anySource ?freeVariable ?boundVariable
    ?constrainedVariable ?unionSource ?unionTarget ?sameName ?otherName ?newTarget ?newSource
    ?leaf ?allNil ?allCons ?anyNil ?anyCons s t
  case leaf =>
    intros
    exact H.assignableLeaf_failsWith _ _
  case allCons =>
    intro t s ss ih ihs
    refine ih.bind fun b => ?_
    cases b
    · exact .pure _
    · exact ihs
  case anyCons =>
    intro s t ts ih ihs
    refine ih.bind fun b => ?_
    cases b
    · exact ihs
    · exact .pure _
  all_goals
    intros
    first | assumption | exact .pure _

end Hierarchy

/-! ### Values -/

namespace Interpretation

open Hierarchy

section

variable {I : Interpretation} {H : Hierarchy} {v : Value}

theorem classOf_ofLiteral (l : Literal) : (Value.ofLiteral l).classOf = .known l.kind := by
  cases l with
  | scalar k p => cases k <;> rfl
  | _ => rfl

theorem subclass_of_acceptsAll {c : ClassRef} {ls : List Literal}
    (h : H.acceptsAll c ls = .ok true) : ∀ l ∈ ls, H.subclass? (.known l.kind) c = some true := by
  induction ls with
  | nil => simp
  | cons k ls ih =>
    rw [acceptsAll] at h
    cases hk : H.subclass? (.known k.kind) c with
    | none => simp [hk] at h
    | some b =>
      cases b with
      | false => simp [hk] at h
      | true =>
        simp only [hk] at h
        intro l hl
        rcases List.mem_cons.mp hl with rfl | hl
        · exact hk
        · exact ih h l hl

theorem asClass_eq_any {t : Ty} (h : asClass t = Ty.any) : t = Ty.any := by
  cases t with
  | absent => cases h
  | _ => exact h

theorem conforms_asClass {t : Ty} : I.Conforms (asClass t) v ↔ I.Conforms t v := by
  cases t with
  | absent =>
    constructor
    · rintro (h | h)
      · cases h
      · exact h
    · exact .inr
  | _ => rfl

theorem conforms_of_instance {t : Ty} {c : ClassRef} (hc : t.originClass? = some c)
    (hv : I.instanceOf v c) : I.Conforms t v := by
  cases t with
  | cls d =>
    cases hc
    exact .inr hv
  | bare n d =>
    cases hc
    exact hv
  | generic g d ts =>
    cases hc
    exact hv
  | _ => cases hc

theorem Respects.instance_of_conforms (hI : I.Respects H) {s : Ty} {c : ClassRef}
    (hs : s ≠ Ty.any) (hc : s.originClass? = some c) (hv : I.Conforms s v) :
    I.instanceOf v c := by
  cases s with
  | cls d =>
    cases hc
    -- the class above all others takes every value, which is then an instance of it
    rcases hv with hd | hv
    · rw [Ty.isAny.eq_def] at hd
      split at hd
      · next h => exact absurd h hs
      · next h =>
        cases h
        exact hI.object v
      · cases hd
    · exact hv
  | bare n d =>
    cases hc
    exact hv
  | generic g d ts =>
    cases hc
    exact hv
  | _ => cases hc

theorem Respects.leaf (hI : I.Respects H) {s t : Ty} (hs : s ≠ Ty.any)
    (h : H.assignableLeaf s t = .ok true) (hv : I.Conforms s v) : I.Conforms t v := by
  unfold assignableLeaf at h
  split at h
  · next ls =>
    split at h
    · next c hc =>
      -- a literal value is compared through its own class
      obtain ⟨l, hl, rfl⟩ := hv
      have hle := subclass_of_acceptsAll h l hl
      rw [← classOf_ofLiteral] at hle
      exact conforms_of_instance hc (hI.above hle (hI.own _))
    · exact hI.same _ t (Except.ok.inj h) hv
  · split at h
    -- two classes, of which the second one is above the first
    · next a b ha hb =>
      have hab : H.subclass? a b = some true := by
        have hd : (H.subclass? a b).getD false = true := Except.ok.inj h
        cases hs : H.subclass? a b with
        | none => rw [hs] at hd; cases hd
        | some _ => rw [hs] at hd; exact congrArg some hd
      exact conforms_of_instance hb (hI.above hab (hI.instance_of_conforms hs ha hv))
    · exact hI.same s t (Except.ok.inj h) hv

/-- The cases are the rules of the check, in their order. -/
theorem Respects.assignable (hI : I.Respects H) (s t : Ty) :
    H.assignable s t = .ok true → ∀ v, I.Conforms s v → I.Conforms t v := by
  refine Hierarchy.assignable.induct_unfolding H
    (fun s t r => r = .ok true → ∀ v, I.Conforms s v → I.Conforms t v)
    (fun ss t r => r = .ok true → ∀ v, I.ConformsSome ss v → I.Conforms t v)
    (fun s ts r => r = .ok true → ∀ v, I.Conforms s v → I.ConformsSome ts v)
    ?annotatedSource ?annotatedTarget ?universal ?anySource ?freeVariable ?boundVariable
    ?constrainedVariable ?unionSource ?unionTarget ?sameName ?otherName ?newTarget ?newSource
    ?leaf ?allNil ?allCons ?anyNil ?anyCons s t
  case annotatedSource =>
    intro s rs t ih
    exact ih
  case annotatedTarget =>
    intro s t rs _ ih
    exact ih
  case universal =>
    intro s t _ _ hany _ v _
    cases t with
    | cls c => exact .inl hany
    | _ => cases hany
  -- the rules that refuse prove nothing about values
  case anySource =>
    intro t _ _ _ h
    cases h
  case freeVariable =>
    intro s i _ _ _ _ _ v _
    exact .inl ⟨rfl, rfl⟩
  -- a variable has the values of its bound, and those of its constraints
  case boundVariable =>
    intro s i _ b _ _ _ ih h v hv
    exact .inr (.inl (ih h v hv))
  case constrainedVariable =>
    intro s i b c cs _ _ _ _ ih h v hv
    exact .inr (.inr (ih h v hv))
  case unionSource =>
    intro u ss t _ _ _ _ _ ih
    exact ih
  case unionTarget =>
    intro s u ts _ _ _ _ _ ih
    exact ih
  case sameName =>
    intro i g b j k c hsame _ _ _ _ v hv
    exact hI.same _ _ hsame hv
  case otherName =>
    intro i g b j k c _ _ _ _ ih
    exact ih
  case newTarget =>
    intro s _ i g b _ _ _ _ _ h
    cases h
  case newSource =>
    intro i g b t _ _ _ _ _ _ _ ih
    exact ih
  case leaf =>
    intro s t hs _ _ _ _ _ _ _ _ _ _ h v hv
    have hs' : asClass s ≠ Ty.any := fun h => hs (asClass_eq_any h)
    exact conforms_asClass.mp (hI.leaf hs' h (conforms_asClass.mpr hv))
  case allNil =>
    intro t _ v hv
    exact hv.elim
  case allCons =>
    intro t s ss ih ihs h v hv
    -- every member of the source has passed, in whichever one the value is
    obtain ⟨b, hb, h⟩ := bind_eq_ok_iff.mp h
    cases b with
    | false => cases h
    | true => exact hv.elim (ih hb v) (ihs h v)
  case anyNil =>
    intro s h
    cases h
  case anyCons =>
    intro s t ts ih ihs h v hv
    obtain ⟨b, hb, h⟩ := bind_eq_ok_iff.mp h
    cases b with
    | false => exact .inr (ihs h v hv)
    | true => exact .inl (ih hb v hv)

end

end Interpretation

end RecordText
