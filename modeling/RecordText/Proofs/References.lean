/-
What resolving an annotation depends on.

A type refers to others by certain texts (`Ty.references`), and what such a text denotes may refer
to others again.  Resolving a text therefore asks a scope what the text denotes and what the texts
denote that it leads to (`Scope.Reaches`), and for nothing else.

* `Ty.expand_congr` — types depend on their references;
* `Scope.reference_congr` — **scopes of one language in which the texts that a text leads to denote
  the same resolve it alike**;
* `Ty.isClosed`, `Ty.expand_of_isClosed` — a type without references is what it resolves to;
* `Scope.reference_allow` — a text that is resolved without class variables is resolved alike where
  they are let through.
-/
import RecordText.Annotation.Hints
import RecordText.Proofs.Outcome

namespace RecordText

/-! ### Types -/

namespace Ty

mutual

/-- The texts by which a type refers to others. -/
def references : Ty → List String
  | .forward s => [s]
  | .generic .plain _ ts => referencesOfPlain ts
  | .generic _ _ ts => referencesOfAll ts
  | .union _ ts => referencesOfAll ts
  | .annotated t _ => t.references
  | .classVar t => t.references
  | _ => []
termination_by structural t => t

/-- The texts by which several types refer to others. -/
def referencesOfAll : List Ty → List String
  | [] => []
  | t :: ts => t.references ++ referencesOfAll ts
termination_by structural ts => ts

/-- The same for the arguments of a plain generic form, where texts are references. -/
def referencesOfPlain : List Ty → List String
  | [] => []
  | .text s :: ts => s :: referencesOfPlain ts
  | t :: ts => t.references ++ referencesOfPlain ts
termination_by structural ts => ts

end

section

variable (check : TextCheck) {f g : String → Except Fault Ty}

mutual

/-- Types are resolved alike where their references are. -/
theorem expand_congr (t : Ty) (h : ∀ s ∈ t.references, f s = g s) :
    t.expand check f = t.expand check g := by
  cases t with
  | forward s => exact h s List.mem_cons_self
  | generic head c ts =>
    cases head with
    | plain => rw [expand, expand, expandPlain_congr ts h]
    | named n => rw [expand, expand, expandAll_congr ts h] <;> simp
    | ofDefined => rw [expand, expand, expandAll_congr ts h] <;> simp
  | union u ts =>
    cases u with
    | form => rw [expand, expand, expandAll_congr ts h]
    | bars => rw [expand, expand, expandAll_congr ts h]
  | annotated t rs => rw [expand, expand, expand_congr t h]
  | classVar t => rw [expand, expand, expand_congr t h]
  | _ => rfl
termination_by structural t

theorem expandAll_congr (ts : List Ty) (h : ∀ s ∈ referencesOfAll ts, f s = g s) :
    expandAll check f ts = expandAll check g ts := by
  cases ts with
  | nil => rfl
  | cons t ts =>
    rw [referencesOfAll] at h
    have ht := expand_congr t fun s hs => h s (List.mem_append_left _ hs)
    have hts := expandAll_congr ts fun s hs => h s (List.mem_append_right _ hs)
    rw [expandAll, expandAll, ht, hts]
termination_by structural ts

theorem expandPlain_congr (ts : List Ty) (h : ∀ s ∈ referencesOfPlain ts, f s = g s) :
    expandPlain check f ts = expandPlain check g ts := by
  cases ts with
  | nil => rfl
  | cons t ts =>
    have ht := expand_congr t
    have hts := expandPlain_congr ts
    cases t with
    | text s =>
      have hs := h s List.mem_cons_self
      have hts := hts fun r hr => h r (List.mem_cons_of_mem _ hr)
      rw [expandPlain, expandPlain, hs, hts]
    | _ =>
      have ht := ht fun s hs => h s (List.mem_append_left _ hs)
      have hts := hts fun s hs => h s (List.mem_append_right _ hs)
      simp only [expandPlain, ht, hts]
termination_by structural ts

end

end

/-! ### Types that are the same as themselves -/

theorem sameLiterals_self (vs : List Literal) : sameLiterals vs vs = true := by
  simp [sameLiterals]

theorem sameRemarks_self (rs : List Remark) : sameRemarks rs rs = true := by
  induction rs with
  | nil => rfl
  | cons r rs ih =>
    have hr : r.same r = true := by
      unfold Remark.same
      cases r.number? with
      | none => exact beq_self_eq_true r
      | some i => exact beq_self_eq_true i
    rw [sameRemarks, hr, ih, Bool.and_self]

theorem eachIn_of_subset {ts us : List Ty} (h : ∀ t ∈ ts, t ∈ us ∧ t.same t = true) :
    eachIn ts us = true := by
  induction ts with
  | nil => rfl
  | cons t ts ih =>
    obtain ⟨ht, hts⟩ := List.forall_mem_cons.mp h
    rw [eachIn, List.any_eq_true.mpr ⟨t, ht⟩, ih hts, Bool.and_self]

theorem someSame_of_mem {ts : List Ty} {t : Ty} (h : t ∈ ts) (ht : t.same t = true) :
    someSame ts t = true := by
  induction ts with
  | nil => exact absurd h List.not_mem_nil
  | cons u us ih =>
    rw [someSame, Bool.or_eq_true]
    rcases List.mem_cons.mp h with rfl | h
    · exact .inl ht
    · exact .inr (ih h)

mutual

theorem same_self (t : Ty) : t.same t = true := by
  cases t with
  | generic g c ts => simp [same, samePairwise_self ts]
  | union u ts =>
    have hts := same_self_of_mem ts
    rw [same, eachIn_of_subset fun t ht => ⟨ht, hts t ht⟩, Bool.true_and, List.all_eq_true]
    exact fun t ht => someSame_of_mem ht (hts t ht)
  | annotated t rs => simp [same, same_self t, sameRemarks_self rs]
  | literal vs => exact sameLiterals_self vs
  | classVar t => exact same_self t
  | initVar t => exact same_self t
  | newType i h t => simp [same, same_self t]
  | typeVar i b ts =>
    cases b with
    | none => simp [same, sameBound, samePairwise_self ts]
    | some b => simp [same, sameBound, same_self b, samePairwise_self ts]
  | _ => simp [same]
termination_by structural t

theorem samePairwise_self (ts : List Ty) : samePairwise ts ts = true := by
  cases ts with
  | nil => rfl
  | cons t ts => rw [samePairwise, same_self t, samePairwise_self ts, Bool.and_self]
termination_by structural ts

theorem same_self_of_mem (ts : List Ty) : ∀ t ∈ ts, t.same t = true := by
  cases ts with
  | nil => exact fun t ht => absurd ht List.not_mem_nil
  | cons u us => exact List.forall_mem_cons.mpr ⟨same_self u, same_self_of_mem us⟩
termination_by structural ts

end

/-! ### Types without references -/

/-- A type takes remarks of its own: it can carry them and has none yet. -/
def startsRemarks : Ty → Bool
  | .annotated _ _ => false
  | t => t.takesRemarks

theorem withRemarks_of_startsRemarks {t : Ty} (h : t.startsRemarks = true) (rs : List Remark) :
    t.withRemarks rs = .ok (.annotated t rs) := by
  unfold withRemarks
  split
  · cases h
  · next hu =>
    have hr : t.takesRemarks = true := by
      unfold startsRemarks at h
      split at h
      · cases h
      · exact h
    rw [if_pos hr]
    rfl

mutual

/-- A type that refers to no other by text. Remarks stand around a type that had none before, which
is how they are attached. -/
def isClosed : Ty → Bool
  | .forward _ => false
  | .generic .plain _ ts => arePlainClosed ts
  | .generic _ _ ts => areClosed ts
  | .union _ ts => areClosed ts
  | .annotated t _ => t.isClosed && t.startsRemarks
  | .classVar t => t.isClosed
  | _ => true
termination_by structural t => t

/-- Several types that refer to no other by text. -/
def areClosed : List Ty → Bool
  | [] => true
  | t :: ts => t.isClosed && areClosed ts
termination_by structural ts => ts

/-- The same for the arguments of a plain generic form, where texts are references. -/
def arePlainClosed : List Ty → Bool
  | [] => true
  | .text _ :: _ => false
  | t :: ts => t.isClosed && arePlainClosed ts
termination_by structural ts => ts

end

section

variable (check : TextCheck) (onText : String → Except Fault Ty)

/-- Arguments without references have no texts to be checked. -/
theorem checkTexts_of_closed (ts : List Ty) (h : arePlainClosed ts = true) :
    checkTexts check ts = .ok () := by
  induction ts with
  | nil => rfl
  | cons t ts ih =>
    cases t with
    | text s => cases h
    | _ => exact ih ((Bool.and_eq_true _ _).mp h).2

mutual

/-- A type without references is resolved already. -/
theorem expand_of_isClosed (t : Ty) (h : t.isClosed = true) : t.expand check onText = .ok t := by
  cases t with
  | forward s => cases h
  | generic head c ts =>
    cases head with
    | plain =>
      rw [expand, checkTexts_of_closed check ts h, ok_bind, expandPlain_of_closed ts h]
      rfl
    | named n => rw [expand, expandAll_of_closed ts h] <;> first | rfl | simp
    | ofDefined => rw [expand, expandAll_of_closed ts h] <;> first | rfl | simp
  -- the members of a union have not changed, so they are not joined again
  | union u ts =>
    cases u with
    | form => rw [expand, expandAll_of_closed ts h, ok_bind, if_pos (samePairwise_self ts)]; rfl
    | bars => rw [expand, expandAll_of_closed ts h, ok_bind, if_pos (samePairwise_self ts)]; rfl
  | annotated t rs =>
    rw [isClosed, Bool.and_eq_true] at h
    obtain ⟨ht, hrs⟩ := h
    rw [expand, expand_of_isClosed t ht, ok_bind, withRemarks_of_startsRemarks hrs]
  | classVar t => rw [expand, expand_of_isClosed t h]; rfl
  | _ => rfl
termination_by structural t

theorem expandAll_of_closed (ts : List Ty) (h : areClosed ts = true) :
    expandAll check onText ts = .ok ts := by
  cases ts with
  | nil => rfl
  | cons t ts =>
    rw [areClosed, Bool.and_eq_true] at h
    obtain ⟨ht, hts⟩ := h
    rw [expandAll, expand_of_isClosed t ht, ok_bind, expandAll_of_closed ts hts]
    rfl
termination_by structural ts

theorem expandPlain_of_closed (ts : List Ty) (h : arePlainClosed ts = true) :
    expandPlain check onText ts = .ok ts := by
  cases ts with
  | nil => rfl
  | cons t ts =>
    have ht := expand_of_isClosed t
    have hts := expandPlain_of_closed ts
    cases t with
    | text s => cases h
    | _ =>
      have hc := (Bool.and_eq_true _ _).mp h
      rw [expandPlain, ht hc.1, ok_bind, hts hc.2]
      · rfl
      · simp
termination_by structural ts

end

end

end Ty

/-! ### References -/

namespace Scope

/-- A text leads to another one: to itself, or to what is reached by a reference in the type that it
denotes. -/
inductive Reaches (S : Scope) : String → String → Prop
  | self (s : String) : Reaches S s s
  | reference {s r u : String} {m : Meaning} {b : Bool} {t : Ty} :
      S.denote (Ty.referenceSource s) = .ok m → accept S.language.check b m = .ok t →
        r ∈ t.references → Reaches S r u → Reaches S s u

variable {S T : Scope}

/-- **Texts are resolved alike where all that they lead to denotes the same.** -/
theorem reference_congr (hL : S.language = T.language) {s : String}
    (h : ∀ u, S.Reaches s u → S.denote (Ty.referenceSource u) = T.denote (Ty.referenceSource u))
    (k : Nat) (open_ : List String) (b : Bool) :
    S.reference k open_ b s = T.reference k open_ b s := by
  -- a reference leads to others with the rest of the depth
  induction k generalizing s open_ b with
  | zero => rfl
  | succ k ih =>
    rw [reference, reference, ← hL]
    refine congrArg _ (funext fun _ => ?_)
    split_ifs
    · rfl
    · rw [← h s (.self s)]
      cases hm : S.denote (Ty.referenceSource s) with
      | error f => rw [error_bind, error_bind]
      | ok m =>
        rw [ok_bind, ok_bind]
        cases ht : accept S.language.check b m with
        | error f => rw [error_bind, error_bind]
        | ok t =>
          rw [ok_bind, ok_bind]
          refine Ty.expand_congr _ t fun r hr => ih (fun u hu => ?_) _ false
          exact h u (.reference hm ht hr hu)

theorem resolve_text_congr (hL : S.language = T.language) {s : String}
    (h : ∀ u, S.Reaches s u → S.denote (Ty.referenceSource u) = T.denote (Ty.referenceSource u))
    (b : Bool) : S.resolve b (.text s) = T.resolve b (.text s) := by
  have hd : S.language.depth = T.language.depth := congrArg Language.depth hL
  rw [resolve, resolve, referenced, referenced, ← hd]
  exact reference_congr hL h _ _ b

/-! ### Class variables -/

theorem argument_allow {check : TextCheck} {t u : Ty} (h : t.argument check false = .ok u) :
    t.argument check true = .ok u := by
  unfold Ty.argument at h ⊢
  split_ifs at h with ht
  rw [Bool.false_and, Bool.or_false] at ht
  rw [ht, Bool.true_or, if_pos rfl]
  exact h

theorem accept_allow {check : TextCheck} {m : Meaning} {t : Ty}
    (h : accept check false m = .ok t) : accept check true m = .ok t := by
  unfold accept at h ⊢
  split at h
  · cases h
  · exact argument_allow h

theorem reference_allow {k : Nat} {open_ : List String} {s : String} {t : Ty}
    (h : S.reference k open_ false s = .ok t) : S.reference k open_ true s = .ok t := by
  cases k with
  | zero => exact h
  | succ k =>
    rw [reference] at h ⊢
    obtain ⟨u, hu, h⟩ := bind_eq_ok_iff.mp h
    rw [hu, ok_bind]
    split_ifs at h ⊢ with ho
    · exact h
    · obtain ⟨m, hm, h⟩ := bind_eq_ok_iff.mp h
      obtain ⟨v, hv, h⟩ := bind_eq_ok_iff.mp h
      rw [hm, ok_bind, accept_allow hv, ok_bind]
      exact h

/-- Where class variables are let through, texts without them are resolved no differently. -/
theorem resolve_text_allow {s : String} {t : Ty} (h : S.resolve false (.text s) = .ok t) :
    S.resolve true (.text s) = .ok t := reference_allow h

end Scope

end RecordText
