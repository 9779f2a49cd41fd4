/-
Outcomes of steps that can fail.

A step gives a result or stops with a failure, and a failure stops everything after it.  So a
sequence of steps succeeds when all of them do, and otherwise ends with the failure of the first
one that fails:

* `bind_eq_ok_iff`, `bind_eq_error_iff` — two steps, one after the other (and
  `bind_eq_ok_iff_of_ok`, `bind_eq_error_iff_of_ok`, when the result of the first one is known);
* `First` — the first entry of a list with a property;
* `mapM_eq_ok_iff`, `mapM_eq_error_iff` — a step for every entry of a list;
* `foldlM_invariant` — what every step keeps;
* `Failure.kind` — what a failure is, apart from its wording.
-/
import RecordText.Plan
import Mathlib.Data.List.Forall2
import Mathlib.Tactic.Common

namespace RecordText

variable {ε α β : Type}

@[simp] theorem ok_bind (a : α) (f : α → Except ε β) : (Except.ok a >>= f) = f a := rfl

@[simp] theorem error_bind (e : ε) (f : α → Except ε β) :
    ((Except.error e : Except ε α) >>= f) = .error e := rfl

@[simp] theorem pure_eq_ok (a : α) : (pure a : Except ε α) = .ok a := rfl

@[simp] theorem throw_eq_error (e : ε) : (throw e : Except ε α) = .error e := rfl

theorem bind_eq_ok_iff {x : Except ε α} {f : α → Except ε β} {b : β} :
    (x >>= f) = .ok b ↔ ∃ a, x = .ok a ∧ f a = .ok b := by
  cases x with
  | error e => simp
  | ok a => simp

theorem bind_eq_error_iff {x : Except ε α} {f : α → Except ε β} {e : ε} :
    (x >>= f) = .error e ↔ x = .error e ∨ ∃ a, x = .ok a ∧ f a = .error e := by
  cases x with
  | error e => simp
  | ok a => simp

/-- A step whose only result is known, followed by another one that fails. -/
theorem bind_eq_error_iff_of_ok {x : Except ε α} {f : α → Except ε β} {e : ε}
    {p : Prop} {a : α} (h : ∀ b, x = .ok b ↔ p ∧ b = a) :
    (x >>= f) = .error e ↔ x = .error e ∨ p ∧ f a = .error e := by
  rw [bind_eq_error_iff]
  refine or_congr Iff.rfl ?_
  constructor
  · rintro ⟨b, hb, he⟩
    obtain ⟨hp, rfl⟩ := (h b).mp hb
    exact ⟨hp, he⟩
  · rintro ⟨hp, he⟩
    exact ⟨a, (h a).mpr ⟨hp, rfl⟩, he⟩

theorem bind_eq_ok_iff_of_ok {x : Except ε α} {f : α → Except ε β} {b : β}
    {p : Prop} {a : α} (h : ∀ b, x = .ok b ↔ p ∧ b = a) :
    (x >>= f) = .ok b ↔ p ∧ f a = .ok b := by
  rw [bind_eq_ok_iff]
  constructor
  · rintro ⟨c, hc, hb⟩
    obtain ⟨hp, rfl⟩ := (h c).mp hc
    exact ⟨hp, hb⟩
  · rintro ⟨hp, hb⟩
    exact ⟨a, (h a).mpr ⟨hp, rfl⟩, hb⟩

/-! ### The first entry with a property -/

/-- `x` is the first entry of `xs` with the property `p`. -/
def First (p : α → Prop) (xs : List α) (x : α) : Prop :=
  ∃ as bs, xs = as ++ x :: bs ∧ p x ∧ ∀ a ∈ as, ¬p a

namespace First

variable {p : α → Prop} {xs : List α} {x y : α}

theorem mem (h : First p xs x) : x ∈ xs := by
  obtain ⟨as, bs, rfl, -, -⟩ := h
  simp

theorem holds (h : First p xs x) : p x := by
  obtain ⟨-, -, -, hx, -⟩ := h
  exact hx

@[simp] theorem not_nil : ¬First p [] x := by
  rintro ⟨as, bs, h, -, -⟩
  simp at h

theorem cons_iff : First p (y :: xs) x ↔ p y ∧ x = y ∨ ¬p y ∧ First p xs x := by
  constructor
  · rintro ⟨as, bs, h, hx, has⟩
    rcases as with _ | ⟨a, as⟩
    · obtain ⟨rfl, rfl⟩ := List.cons.inj h
      exact .inl ⟨hx, rfl⟩
    · obtain ⟨rfl, rfl⟩ := List.cons.inj h
      exact .inr ⟨has y (by simp), as, bs, rfl, hx, fun a ha => has a (by simp [ha])⟩
  -- `y` stands first itself, or it is one more entry without the property
  · rintro (⟨hy, rfl⟩ | ⟨hy, as, bs, rfl, hx, has⟩)
    · exact ⟨[], xs, rfl, hy, by simp⟩
    · exact ⟨y :: as, bs, rfl, hx, by simpa using ⟨hy, has⟩⟩

theorem exists_iff : (∃ x, First p xs x) ↔ ∃ x ∈ xs, p x := by
  constructor
  · rintro ⟨x, h⟩
    exact ⟨x, h.mem, h.holds⟩
  · induction xs with
    | nil => simp
    | cons y xs ih =>
      rintro ⟨x, hx, hpx⟩
      by_cases hy : p y
      · exact ⟨y, cons_iff.mpr (.inl ⟨hy, rfl⟩)⟩
      · rcases List.mem_cons.mp hx with rfl | hx
        · exact absurd hpx hy
        · obtain ⟨z, hz⟩ := ih ⟨x, hx, hpx⟩
          exact ⟨z, cons_iff.mpr (.inr ⟨hy, hz⟩)⟩

theorem not_forall_iff {q : α → Prop} (h : ∀ x, p x ↔ ¬q x) :
    (∃ x, First p xs x) ↔ ¬∀ x ∈ xs, q x := by
  simp [exists_iff, h]

theorem congr {q : α → Prop} (h : ∀ y ∈ xs, p y ↔ q y) : First p xs x ↔ First q xs x := by
  constructor
  · rintro ⟨as, bs, rfl, hx, has⟩
    exact ⟨as, bs, rfl, (h x (by simp)).mp hx,
      fun a ha hq => has a ha ((h a (by simp [ha])).mpr hq)⟩
  · rintro ⟨as, bs, rfl, hx, has⟩
    exact ⟨as, bs, rfl, (h x (by simp)).mpr hx,
      fun a ha hp => has a ha ((h a (by simp [ha])).mp hp)⟩

theorem map_iff {p : β → Prop} {g : α → β} {y : β} :
    First p (xs.map g) y ↔ ∃ x, First (fun x => p (g x)) xs x ∧ y = g x := by
  constructor
  · rintro ⟨as, bs, h, hy, has⟩
    obtain ⟨as, cs, rfl, rfl, hcs⟩ := List.map_eq_append_iff.mp h
    obtain ⟨x, cs, rfl, rfl, -⟩ := List.map_eq_cons_iff.mp hcs
    exact ⟨x, ⟨as, cs, rfl, hy, fun a ha => has _ (List.mem_map_of_mem ha)⟩, rfl⟩
  · rintro ⟨x, ⟨as, bs, rfl, hx, has⟩, rfl⟩
    exact ⟨as.map g, bs.map g, by simp, hx, by simpa using has⟩

end First

/-! ### A step for every entry -/

theorem exists_of_forall₂ {R : α → β → Prop} {xs : List α} {ys : List β}
    (h : List.Forall₂ R xs ys) : ∀ x ∈ xs, ∃ y, R x y := by
  induction h with
  | nil => simp
  | cons hxy _ ih =>
    intro z hz
    rcases List.mem_cons.mp hz with rfl | hz
    · exact ⟨_, hxy⟩
    · exact ih z hz

theorem mapM_eq_ok_iff {f : α → Except ε β} {xs : List α} {ys : List β} :
    xs.mapM f = .ok ys ↔ List.Forall₂ (fun x y => f x = .ok y) xs ys := by
  induction xs generalizing ys with
  | nil => simp [eq_comm]
  | cons x xs ih =>
    simp only [List.mapM_cons, bind_eq_ok_iff, pure_eq_ok, Except.ok.injEq, ih,
      List.forall₂_cons_left_iff]
    constructor
    · rintro ⟨y, hy, zs, hzs, rfl⟩
      exact ⟨y, zs, hy, hzs, rfl⟩
    · rintro ⟨y, zs, hy, hzs, rfl⟩
      exact ⟨y, hy, zs, hzs, rfl⟩

/-- Steps that have a known result under a condition. -/
theorem mapM_eq_ok_iff_map {f : α → Except ε β} {p : α → Prop} {g : α → β} {xs : List α}
    {ys : List β} (h : ∀ x y, f x = .ok y ↔ p x ∧ y = g x) :
    xs.mapM f = .ok ys ↔ (∀ x ∈ xs, p x) ∧ ys = xs.map g := by
  rw [mapM_eq_ok_iff]
  induction xs generalizing ys with
  | nil => simp
  | cons x xs ih =>
    simp only [List.forall₂_cons_left_iff, h x, ih, List.mem_cons, forall_eq_or_imp,
      List.map_cons]
    constructor
    · rintro ⟨y, zs, ⟨hx, rfl⟩, ⟨hxs, rfl⟩, rfl⟩
      exact ⟨⟨hx, hxs⟩, rfl⟩
    · rintro ⟨⟨hx, hxs⟩, rfl⟩
      exact ⟨_, _, ⟨hx, rfl⟩, ⟨hxs, rfl⟩, rfl⟩

theorem mapM_congr {f g : α → Except ε β} {xs : List α} (h : ∀ x ∈ xs, f x = g x) :
    xs.mapM f = xs.mapM g := by
  induction xs with
  | nil => rfl
  | cons x xs ih =>
    rw [List.mapM_cons, List.mapM_cons, h x (by simp), ih fun y hy => h y (by simp [hy])]

theorem mapM_eq_error_iff {f : α → Except ε β} {xs : List α} {e : ε} :
    xs.mapM f = .error e ↔ ∃ x, First (fun x => ∃ e, f x = .error e) xs x ∧ f x = .error e := by
  induction xs with
  | nil => simp
  | cons x xs ih =>
    simp only [List.mapM_cons, bind_eq_error_iff, pure_eq_ok, reduceCtorEq, and_false,
      exists_false, or_false, ih, First.cons_iff]
    constructor
    · rintro (hx | ⟨y, hy, z, hz, he⟩)
      · exact ⟨x, .inl ⟨⟨e, hx⟩, rfl⟩, hx⟩
      · exact ⟨z, .inr ⟨by simp [hy], hz⟩, he⟩
    -- back from the first entry that fails: it is `x`, or `x` has a result and it is behind
    · rintro ⟨z, ⟨-, rfl⟩ | ⟨hx, hz⟩, he⟩
      · exact .inl he
      · rcases hf : f x with e' | y
        · exact absurd ⟨e', hf⟩ hx
        · exact .inr ⟨y, rfl, z, hz, he⟩

/-- What every step keeps holds in the end. -/
theorem foldlM_invariant {p : β → Prop} {f : β → α → Except ε β}
    (hf : ∀ b x b', f b x = .ok b' → p b → p b') {xs : List α} {b b' : β}
    (h : xs.foldlM f b = .ok b') (hb : p b) : p b' := by
  induction xs generalizing b with
  | nil =>
    obtain rfl := Except.ok.inj h
    exact hb
  | cons x xs ih =>
    rw [List.foldlM_cons] at h
    obtain ⟨c, hc, h⟩ := bind_eq_ok_iff.mp h
    exact ih h (hf b x c hc hb)

/-! ### Faults and rejections as failures -/

theorem lift_eq_ok_iff {x : Except Fault α} {a : α} : Fault.lift x = .ok a ↔ x = .ok a := by
  cases x <;> simp [Fault.lift]

theorem lift_eq_error_iff {x : Except Fault α} {f : Failure} :
    Fault.lift x = .error f ↔ ∃ g, x = .error g ∧ f = .fault g := by
  cases x <;> simp [Fault.lift, eq_comm]

theorem rejecting_eq_ok_iff {x : Except Rejection α} {a : α} :
    Plan.rejecting x = .ok a ↔ x = .ok a := by
  cases x <;> simp [Plan.rejecting]

theorem rejecting_eq_error_iff {x : Except Rejection α} {f : Failure} :
    Plan.rejecting x = .error f ↔ ∃ r, x = .error r ∧ f = .rejected r := by
  cases x <;> simp [Plan.rejecting, eq_comm]

/-! ### Kinds of failures -/

/-- What a failure is, apart from its wording. -/
inductive Failure.Kind
  | fault (f : Fault)
  | rejection (k : Rejection.Kind)
  /-- An error that a user's own function raised, by its name. -/
  | raised (title : String)
  | invalid
  | unreadable (tag : String)
  deriving DecidableEq, Repr

/-- The kind of an error of a given name. -/
def Failure.kindOf (title : String) : Failure.Kind :=
  match Rejection.Kind.ofTitle? title with
  | some k => .rejection k
  | none => .raised title

/-- The kind of a failure.  A function may also raise a rejection, under the name of its kind, and
so may a text in the place of a type when it is read. -/
def Failure.kind : Failure → Failure.Kind
  | .fault (.raised title) => Failure.kindOf title
  | .fault f => .fault f
  | .rejected r => .rejection r.kind
  | .raised title _ => Failure.kindOf title
  | .invalid _ => .invalid
  | .unreadable tag => .unreadable tag

/-- A failure is a rejection, whoever raised it. -/
def Failure.IsOwn (f : Failure) : Prop := ∃ k, f.kind = .rejection k

end RecordText
