/-
Which faults annotations run into.

Hints are resolved a second time when an annotation cannot be resolved, so of all faults that a text
can run into when it is read, those that count as unresolved annotations never end the search for
the candidates of a class, and the others always do:

* `FailsWith` — every fault of a computation has a property;
* `World.fields_eq_error_iff`, `World.properties_eq_error_iff` — when fields and properties cannot
  be told;
* `World.catalog_eq_error_iff` — **the candidates of a class are told unless a fault ends both ways
  of resolution for the fields or for a getter** (`World.Untold`).
-/
import RecordText.Catalog
import RecordText.Proofs.Hints

namespace RecordText

/-- Every failure that a computation runs into has the property `p`. -/
def FailsWith {ε α : Type} (p : ε → Prop) (r : Except ε α) : Prop :=
  ∀ f, r = .error f → p f

namespace FailsWith

variable {ε α β : Type} {p : ε → Prop}

@[simp] theorem ok (a : α) : FailsWith p (.ok a) := fun _ h => by cases h

@[simp] theorem pure (a : α) : FailsWith p (Pure.pure a) := ok a

@[simp] theorem error {f : ε} : FailsWith p (.error f : Except ε α) ↔ p f := by
  constructor
  · intro h
    exact h f rfl
  · rintro h g hg
    cases hg
    exact h

@[simp] theorem throw {f : ε} : FailsWith p (MonadExcept.throw f : Except ε α) ↔ p f :=
  error

/-- Only what a computation gives is passed on. -/
theorem bind_of_ok {r : Except ε α} {k : α → Except ε β} (hr : FailsWith p r)
    (hk : ∀ a, r = .ok a → FailsWith p (k a)) : FailsWith p (r >>= k) := by
  intro f hf
  rcases bind_eq_error_iff.mp hf with h | ⟨a, ha, h⟩
  · exact hr f h
  · exact hk a ha f h

theorem bind {r : Except ε α} {k : α → Except ε β} (hr : FailsWith p r)
    (hk : ∀ a, FailsWith p (k a)) : FailsWith p (r >>= k) :=
  hr.bind_of_ok fun a _ => hk a

theorem map {r : Except ε α} (hr : FailsWith p r) (g : α → β) : FailsWith p (g <$> r) := by
  cases r with
  | error e => exact error.mpr (error.mp hr)
  | ok a => exact ok (g a)

theorem mapM {k : α → Except ε β} (h : ∀ a, FailsWith p (k a)) (xs : List α) :
    FailsWith p (xs.mapM k) := by
  intro f hf
  obtain ⟨x, -, hx⟩ := mapM_eq_error_iff.mp hf
  exact h x f hx

theorem foldlM {k : β → α → Except ε β} (h : ∀ b a, FailsWith p (k b a)) (b : β)
    (xs : List α) : FailsWith p (xs.foldlM k b) := by
  induction xs generalizing b with
  | nil => exact pure b
  | cons x xs ih =>
    rw [List.foldlM_cons]
    exact (h b x).bind ih

end FailsWith

/-! ### Fields and properties -/

/-- Nothing about a property can be told: a fault ends both ways of resolution for its getter. -/
def Catalog.GetterUntold (S : Scope) (e : String × Option Getter) (f : Fault) : Prop :=
  ∃ g, e.2 = some g ∧ isPrivate e.1 = false ∧ S.Escapes false (Placed.ofFunction g.annotations) f

theorem Catalog.propertyMember?_eq_error_iff {S : Scope} {e : String × Option Getter} {f : Fault} :
    propertyMember? S e = .error f ↔ GetterUntold S e f := by
  obtain ⟨name, getter⟩ := e
  cases getter with
  | none => simp [propertyMember?, GetterUntold]
  | some g =>
    cases hname : isPrivate name with
    | true => simp [propertyMember?, GetterUntold, hname]
    | false =>
      simp [propertyMember?, GetterUntold, hname, bind_eq_error_iff, Scope.hints_eq,
        Scope.hintsOf_eq_error_iff]

namespace World

variable {W : World} {c : ClassRef} {f : Fault}

/-- The fields cannot be told: a fault ends both ways of resolution for the annotations of the
lineage. Those of a model are not resolved any more. -/
def FieldsUntold (W : World) (c : ClassRef) (f : Fault) : Prop :=
  (W.definition? c).bind Class.modelFields = none ∧ W.isModel c = false ∧
    W.scope.Escapes true (Placed.ofLayers (W.layers c)) f

theorem fields_eq_error_iff : W.fields c = .error f ↔ W.FieldsUntold c f := by
  rw [fields, FieldsUntold]
  cases (W.definition? c).bind Class.modelFields with
  | some fs => simp
  | none =>
    cases W.isModel c with
    | true => simp
    | false => simp [bind_eq_error_iff, Scope.classHints_eq, Scope.hintsOf_eq_error_iff]

/-- The properties cannot be told because of the first one that cannot. -/
def PropertiesUntold (W : World) (c : ClassRef) (f : Fault) : Prop :=
  ∃ e, First (fun e => ∃ f, Catalog.GetterUntold W.scope e f)
    (Catalog.propertiesOf (W.layers c)) e ∧ Catalog.GetterUntold W.scope e f

theorem properties_eq_error_iff : W.properties c = .error f ↔ W.PropertiesUntold c f := by
  simp only [properties, Catalog.propertyMembers, bind_eq_error_iff, pure_eq_ok, reduceCtorEq,
    and_false, exists_false, or_false, mapM_eq_error_iff, Catalog.propertyMember?_eq_error_iff,
    PropertiesUntold]

/-! ### Catalogs -/

/-- The candidates of the chosen modes cannot be told. Fields come before properties. -/
def Untold (W : World) (c : ClassRef) (useFields useProperties : Bool) (f : Fault) : Prop :=
  (useFields = true ∧ W.FieldsUntold c f) ∨
    (useProperties = true ∧ (useFields = true → ∀ g, ¬W.FieldsUntold c g) ∧ W.PropertiesUntold c f)

/-- Fields and properties are collected one after the other, each in its own mode. -/
theorem catalog_eq (W : World) (c : ClassRef) (useFields useProperties : Bool) :
    W.catalog c useFields useProperties =
      (if useFields then W.fields c else .ok ([], [])) >>= fun p =>
        (if useProperties then W.properties c else .ok []) >>= fun ps =>
          .ok (⟨p.1 ++ ps⟩, p.2 ++ Catalog.skippedNotes c.title (p.1 ++ ps)) := by
  cases useFields <;> cases useProperties <;> rfl

/-- **The candidates are told unless a fault ends both ways of resolution.** -/
theorem catalog_eq_error_iff {useFields useProperties : Bool} :
    W.catalog c useFields useProperties = .error f ↔ W.Untold c useFields useProperties f := by
  have hfields : (∃ p, (if useFields then W.fields c else .ok ([], [])) = .ok p) ↔
      (useFields = true → ∀ g, ¬W.FieldsUntold c g) := by
    simp only [← fields_eq_error_iff]
    cases useFields with
    | false => simp
    | true => cases W.fields c <;> simp
  rw [catalog_eq, bind_eq_error_iff, Untold]
  refine or_congr ?_ ?_
  · cases useFields <;> simp [fields_eq_error_iff]
  · simp only [bind_eq_error_iff, reduceCtorEq, and_false, exists_false, or_false,
      exists_and_right, hfields, ← properties_eq_error_iff]
    cases useProperties <;> simp [and_comm]

/-- A fault that counts as an annotation that cannot be resolved never keeps candidates from being
told. -/
theorem Untold.isUnresolved {useFields useProperties : Bool}
    (h : W.Untold c useFields useProperties f) : f.isUnresolved = false := by
  rcases h with ⟨-, -, -, h⟩ | ⟨-, -, e, -, g, -, -, h⟩
  · exact h.isUnresolved
  · exact h.isUnresolved

end World

end RecordText
