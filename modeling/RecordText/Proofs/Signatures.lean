/-
What a function accepts, and what the rest of its signature does to it.

All annotations of a signature are resolved together.  When they all can be, a function accepts what
its first positional parameter is annotated with (`Scope.inputOf`), and the others do not matter.
Otherwise the first annotation that cannot be resolved decides, wherever it stands: some faults
leave all annotations as they are, so that a text in the first place counts as the universal type,
and the other faults go through (`Fault.leavesRaw`).

* `Scope.inputType_of_resolves`, `Scope.inputType_of_stops` — these two cases;
* `World.acceptedType_eq_error_iff` — when it cannot be told what a substitute accepts;
* `Scope.Undisturbed` — the rest of a signature leaves alone what the function accepts;
* `input_by_first` — **then the annotation of the first positional parameter decides alone**, and
  otherwise a fault goes through or the annotation is given up, although it could be resolved.
-/
import RecordText.Builder
import RecordText.Proofs.Outcome

namespace RecordText

namespace Scope

variable {S : Scope} {s s' : Signature Ty} {t u : Ty} {f : Fault}

/-- The annotation has a meaning. -/
def Resolves (S : Scope) (t : Ty) : Prop := ∃ u, S.signatureType t = .ok u

/-- What an annotation of the first positional parameter lets a function accept. -/
def inputOf (S : Scope) : Option Ty → Ty
  | none => Ty.any
  | some t =>
    match S.signatureType t with
    | .ok u => orAny (some u)
    | .error _ => Ty.any

/-! ### Annotations -/

/-- An annotation that is no text stands for itself. -/
theorem signatureType_of_not_text (ht : ∀ x, t ≠ .text x) : S.signatureType t = .ok t := by
  cases t with
  | text x => exact absurd rfl (ht x)
  | _ => rfl

theorem orAny_of_not_text (ht : ∀ x, t ≠ .text x) : orAny (some t) = t := by
  cases t with
  | text x => exact absurd rfl (ht x)
  | _ => rfl

theorem inputOf_of_not_resolves (h : ¬S.Resolves t) : S.inputOf (some t) = Ty.any := by
  rw [inputOf]
  split
  · next u hu => exact absurd ⟨u, hu⟩ h
  · rfl

theorem inputOf_of_ok (h : S.signatureType t = .ok u) (hu : ∀ x, u ≠ .text x) :
    S.inputOf (some t) = u := by
  rw [inputOf, h]
  exact orAny_of_not_text hu

/-- Left as it is, an annotation lets a function accept the same, unless it is a text that could be
resolved. -/
theorem orAny_eq_inputOf (o : Option Ty) (h : ∀ x, o = some (.text x) → ¬S.Resolves (.text x)) :
    orAny o = S.inputOf o := by
  cases o with
  | none => rfl
  | some t =>
    by_cases ht : ∃ x, t = .text x
    · obtain ⟨x, rfl⟩ := ht
      rw [inputOf_of_not_resolves (h x rfl)]
      rfl
    · have ht : ∀ x, t ≠ .text x := fun x hx => ht ⟨x, hx⟩
      rw [orAny_of_not_text ht, inputOf_of_ok (signatureType_of_not_text ht) ht]

/-! ### Signatures -/

theorem mem_signatureTypes (h : firstType s = some t) : t ∈ signatureTypes s := by
  obtain ⟨q, hq, ht⟩ := Option.bind_eq_some_iff.mp h
  have hmem : q ∈ s.params := (List.mem_filter.mp (List.mem_of_head? hq)).1
  have hkept : q ∈ (s.params.filter fun p => p.kind == .positional) ++
      s.params.filter fun p => !(p.kind == .positional) := by
    cases hk : q.kind == .positional <;> simp [hmem, hk]
  rw [signatureTypes, List.partition_eq_filter_filter]
  exact List.mem_append_left _ (List.mem_filterMap.mpr ⟨q, hkept, ht⟩)

/-- Some annotation has no meaning, and `t` is the first one. -/
def Stops (S : Scope) (s : Signature Ty) (t : Ty) (f : Fault) : Prop :=
  First (fun t => ∃ f, S.signatureType t = .error f) (signatureTypes s) t ∧
    S.signatureType t = .error f

/-- **When all annotations have a meaning, the first positional parameter decides.** -/
theorem inputType_of_resolves (h : ∀ t ∈ signatureTypes s, S.Resolves t) :
    S.inputType s = .ok (S.inputOf (firstType s)) := by
  cases hall : (signatureTypes s).mapM S.signatureType with
  | error f =>
    obtain ⟨t, hfirst, hf⟩ := mapM_eq_error_iff.mp hall
    obtain ⟨u, hu⟩ := h t hfirst.mem
    rw [hu] at hf
    cases hf
  | ok us =>
    unfold inputType
    rw [hall]
    cases ht : firstType s with
    | none => rfl
    | some t =>
      obtain ⟨u, hu⟩ := h t (mem_signatureTypes ht)
      simp [inputOf, hu]

/-- **Otherwise the first annotation without a meaning decides.** -/
theorem inputType_of_stops (h : S.Stops s t f) :
    S.inputType s = if f.leavesRaw then .ok (orAny (firstType s)) else .error f := by
  have hall : (signatureTypes s).mapM S.signatureType = .error f := mapM_eq_error_iff.mpr ⟨t, h⟩
  unfold inputType
  rw [hall]
  rfl

theorem resolves_or_stops (S : Scope) (s : Signature Ty) :
    (∀ t ∈ signatureTypes s, S.Resolves t) ∨ ∃ t f, S.Stops s t f := by
  cases hall : (signatureTypes s).mapM S.signatureType with
  | ok us => exact .inl (exists_of_forall₂ (mapM_eq_ok_iff.mp hall))
  | error f =>
    obtain ⟨t, h⟩ := mapM_eq_error_iff.mp hall
    exact .inr ⟨t, f, h⟩

/-- It cannot be told what a function accepts because of the first annotation without a meaning,
when its fault goes through. -/
theorem inputType_eq_error_iff :
    S.inputType s = .error f ↔ ∃ t, S.Stops s t f ∧ f.leavesRaw = false := by
  constructor
  · intro h
    rcases S.resolves_or_stops s with hall | ⟨t, g, hstops⟩
    · rw [inputType_of_resolves hall] at h
      cases h
    · rw [inputType_of_stops hstops] at h
      split_ifs at h with hraw
      obtain rfl := Except.error.inj h
      exact ⟨t, hstops, by simpa using hraw⟩
  · rintro ⟨t, hstops, hraw⟩
    rw [inputType_of_stops hstops, hraw]
    rfl

/-- The rest of a signature leaves alone what the function accepts: if some annotation has no
meaning, then all of them are left as they are, and that of the first positional parameter is no
text with a meaning. -/
def Undisturbed (S : Scope) (s : Signature Ty) : Prop :=
  ∀ t f, S.Stops s t f →
    f.leavesRaw = true ∧ ∀ x, firstType s = some (.text x) → ¬S.Resolves (.text x)

theorem undisturbed_of_resolves (h : ∀ t ∈ signatureTypes s, S.Resolves t) : S.Undisturbed s := by
  intro t f ⟨hfirst, hf⟩
  obtain ⟨u, hu⟩ := h t hfirst.mem
  rw [hu] at hf
  cases hf

theorem inputType_of_undisturbed (h : S.Undisturbed s) :
    S.inputType s = .ok (S.inputOf (firstType s)) := by
  rcases S.resolves_or_stops s with hall | ⟨t, f, hstops⟩
  · exact inputType_of_resolves hall
  · obtain ⟨hraw, hfirst⟩ := h t f hstops
    rw [inputType_of_stops hstops, if_pos hraw, orAny_eq_inputOf _ hfirst]

/-- A disturbance is a fault that goes through, or the universal type for a text with a meaning. -/
theorem inputType_of_not_undisturbed (h : ¬S.Undisturbed s) :
    (∃ t f, S.Stops s t f ∧ f.leavesRaw = false ∧ S.inputType s = .error f) ∨
      ∃ x, firstType s = some (.text x) ∧ S.Resolves (.text x) ∧ S.inputType s = .ok Ty.any := by
  simp only [Undisturbed, not_forall, not_and, not_not] at h
  obtain ⟨t, f, hstops, h⟩ := h
  cases hraw : f.leavesRaw with
  | false =>
    refine .inl ⟨t, f, hstops, hraw, ?_⟩
    rw [inputType_of_stops hstops, hraw]
    rfl
  | true =>
    obtain ⟨x, hx, hresolves⟩ := h hraw
    refine .inr ⟨x, hx, hresolves, ?_⟩
    rw [inputType_of_stops hstops, hraw, hx]
    rfl

end Scope

/-- It cannot be told what a substitute accepts when no type was given with it and a fault goes
through its signature. -/
theorem World.acceptedType_eq_error_iff {W : World} {s : Substitute} {f : Fault} :
    W.acceptedType s = .error f ↔
      s.input = none ∧ ∃ t, W.scope.Stops (W.signatureOf s.function) t f ∧ f.leavesRaw = false := by
  unfold World.acceptedType
  cases s.input with
  | some t => simp
  | none => simp [World.inputType, Scope.inputType_eq_error_iff]

/-- **What a function accepts is decided by the annotation of its first positional parameter
alone**, as long as its signature is undisturbed: two such functions with the same annotation in
that place accept the same type, and that is the annotation itself or what its text stands for.  A
signature is disturbed by an annotation anywhere in it that has no meaning: its fault goes through,
or a text in the first place is given up, although it has a meaning. -/
theorem input_by_first (W : World) (g g' : Function)
    (hfirst : Scope.firstType (W.signatureOf g) = Scope.firstType (W.signatureOf g')) :
    (W.scope.Undisturbed (W.signatureOf g) → W.scope.Undisturbed (W.signatureOf g') →
      ∃ t, W.inputType g = .ok t ∧ W.inputType g' = .ok t ∧
        (∀ u, Scope.firstType (W.signatureOf g) = some u → (∀ x, u ≠ .text x) → t = u) ∧
        (∀ x u, Scope.firstType (W.signatureOf g) = some (.text x) →
          W.scope.signatureType (.text x) = .ok u → (∀ y, u ≠ .text y) → t = u) ∧
        ∀ x, Scope.firstType (W.signatureOf g) = some (.text x) →
          ¬W.scope.Resolves (.text x) → t = Ty.any) ∧
    (¬W.scope.Undisturbed (W.signatureOf g) →
      (∃ t f, W.scope.Stops (W.signatureOf g) t f ∧ f.leavesRaw = false ∧
        W.inputType g = .error f) ∨
      ∃ x, Scope.firstType (W.signatureOf g) = some (.text x) ∧ W.scope.Resolves (.text x) ∧
        W.inputType g = .ok Ty.any) := by
  refine ⟨fun hg hg' => ⟨W.scope.inputOf (Scope.firstType (W.signatureOf g)), ?_, ?_, ?_, ?_, ?_⟩,
    Scope.inputType_of_not_undisturbed⟩
  · exact Scope.inputType_of_undisturbed hg
  · rw [hfirst]
    exact Scope.inputType_of_undisturbed hg'
  · intro u hu htext
    rw [hu]
    exact Scope.inputOf_of_ok (Scope.signatureType_of_not_text htext) htext
  · intro x u hx hu htext
    rw [hx]
    exact Scope.inputOf_of_ok hu htext
  · intro x hx hnot
    rw [hx]
    exact Scope.inputOf_of_not_resolves hnot

/-! ### A number and something else -/

/-- A function of a number, which gives a text. -/
def ofNumber : Signature Ty := ⟨[⟨"v", .positional, some (.text "int"), false⟩], some Ty.str⟩

/-- A function of a number and of a truth value that need not be given. -/
def ofNumberAndFlag : Signature Ty :=
  ⟨[⟨"n", .positionalOnly, some (.text "int"), false⟩,
    ⟨"flag", .keywordOnly, some (.text "bool"), true⟩], none⟩

theorem input_by_first_number :
    Scope.firstType ofNumber = Scope.firstType ofNumberAndFlag ∧
      World.empty.inputType (.defined ofNumber .argument) = .ok (.cls (.known .int)) ∧
      World.empty.inputType (.defined ofNumberAndFlag .argument) = .ok (.cls (.known .int)) := by
  have hint : World.empty.scope.signatureType (.text "int") = .ok (.cls (.known .int)) := rfl
  have hbool : World.empty.scope.signatureType (.text "bool") = .ok (.cls (.known .bool)) := rfl
  have hs : World.empty.scope.Undisturbed ofNumber := by
    refine Scope.undisturbed_of_resolves fun t ht => ?_
    obtain rfl | rfl : t = .text "int" ∨ t = Ty.str := by
      simpa [Scope.signatureTypes, ofNumber] using ht
    · exact ⟨_, hint⟩
    · exact ⟨_, rfl⟩
  have hs' : World.empty.scope.Undisturbed ofNumberAndFlag := by
    refine Scope.undisturbed_of_resolves fun t ht => ?_
    obtain rfl | rfl : t = .text "int" ∨ t = .text "bool" := by
      simpa [Scope.signatureTypes, ofNumberAndFlag] using ht
    · exact ⟨_, hint⟩
    · exact ⟨_, hbool⟩
  obtain ⟨t, ht, ht', -, htext, -⟩ := (input_by_first World.empty
    (.defined ofNumber .argument) (.defined ofNumberAndFlag .argument) rfl).1 hs hs'
  obtain rfl := htext "int" _ rfl hint (by simp)
  exact ⟨rfl, ht, ht'⟩

end RecordText
