/-
Hints as tables of resolved annotations.

On both ways of resolution the annotations are taken one after the other, each one is resolved, and
the result is put under its name.  Only the resolution differs, so both ways are instances of
`gather`, over the annotations with the attributes of the classes where they stand (`Placed`):

* `classHints_eq`, `hints_eq` — the hints of classes and of functions are those of placed
  annotations (`Scope.hintsOf`);
* `lookup_gather` — a name has the type of the last annotation under it;
* `keys_gather` — the names stand in the order in which they were first annotated;
* `nodup_classHints` — no name stands twice among the hints of a class;
* `hintsOf_eq_error_iff` — **hints fail where a fault ends both ways of resolution**
  (`Scope.Escapes`): one that does not count as an annotation that cannot be resolved.
-/
import RecordText.Annotation.Hints
import RecordText.Proofs.Outcome
import RecordText.Proofs.Tables

namespace RecordText

/-- An annotation with the attributes of the class where it stands. -/
structure Placed where
  attributes : List (String × Attribute)
  name : String
  type : Ty

namespace Placed

/-- Where the annotation is resolved on the first way. -/
def before (S : Scope) (p : Placed) : Scope := S.before ⟨p.attributes, []⟩

/-- Where the annotation is resolved on the second way. -/
def after (S : Scope) (p : Placed) : Scope := S.after ⟨p.attributes, []⟩

/-- The type of the annotation on the first way. -/
def resolve (S : Scope) (allowClassVar : Bool) (p : Placed) : Except Fault Ty :=
  (p.before S).resolve allowClassVar p.type

/-- The type of the annotation on the second way. -/
def resolveApart (S : Scope) (p : Placed) : Except Fault Ty := (p.after S).resolveApart p.type

/-- The annotations along a lineage, those of the classes above first. -/
def ofLayers (layers : List Layer) : List Placed :=
  layers.reverse.flatMap fun l => l.annotations.map fun e => ⟨l.attributes, e.1, e.2⟩

/-- The annotations of a function, which stand in no class. -/
def ofFunction (annotations : List (String × Ty)) : List Placed :=
  annotations.map fun e => ⟨[], e.1, e.2⟩

end Placed

namespace Scope

variable {α β : Type} {name : α → String} {resolve : α → Except Fault Ty}
  {hints hints' : List (String × Ty)} {xs : List α}

/-- Puts what every entry resolves to under the name of the entry. -/
def gather (name : α → String) (resolve : α → Except Fault Ty) (hints : List (String × Ty))
    (xs : List α) : Except Fault (List (String × Ty)) :=
  xs.foldlM (fun hs x => do return Table.put (name x) (← resolve x) hs) hints

theorem gather_cons_eq_ok_iff {x : α} : gather name resolve hints (x :: xs) = .ok hints' ↔
    ∃ t, resolve x = .ok t ∧ gather name resolve (Table.put (name x) t hints) xs = .ok hints' := by
  rw [gather, List.foldlM_cons, bind_eq_ok_iff]
  constructor
  · rintro ⟨hs, hx, h⟩
    obtain ⟨t, ht, hs⟩ := bind_eq_ok_iff.mp hx
    obtain rfl := Except.ok.inj hs
    exact ⟨t, ht, h⟩
  · rintro ⟨t, ht, h⟩
    exact ⟨_, bind_eq_ok_iff.mpr ⟨t, ht, rfl⟩, h⟩

theorem gather_append (hints : List (String × Ty)) (xs ys : List α) :
    gather name resolve hints (xs ++ ys) =
      gather name resolve hints xs >>= fun hs => gather name resolve hs ys := List.foldlM_append

theorem gather_cons_of_error {x : α} {f : Fault} (h : resolve x = .error f)
    (hints : List (String × Ty)) : gather name resolve hints (x :: xs) = .error f := by
  rw [gather, List.foldlM_cons, h]
  rfl

/-- Where the hints are told, every annotation is resolved. -/
theorem exists_of_gather (h : gather name resolve hints xs = .ok hints') :
    ∀ x ∈ xs, ∃ t, resolve x = .ok t := by
  induction xs generalizing hints with
  | nil => exact fun x hx => absurd hx List.not_mem_nil
  | cons y ys ih =>
    obtain ⟨t, ht, h⟩ := gather_cons_eq_ok_iff.mp h
    exact List.forall_mem_cons.mpr ⟨⟨t, ht⟩, ih h⟩

/-- The hints are not told where some entry is not resolved, and the first of them says why. -/
theorem gather_eq_error_iff (hints : List (String × Ty)) {f : Fault} :
    gather name resolve hints xs = .error f ↔
      ∃ x, First (fun x => ∃ e, resolve x = .error e) xs x ∧ resolve x = .error f := by
  induction xs generalizing hints with
  | nil => simp [gather]
  | cons x xs ih =>
    simp only [First.cons_iff]
    cases hx : resolve x with
    | error e =>
      rw [gather_cons_of_error hx]
      constructor
      · intro h
        obtain rfl := Except.error.inj h
        exact ⟨x, .inl ⟨⟨e, rfl⟩, rfl⟩, hx⟩
      · rintro ⟨y, ⟨-, rfl⟩ | ⟨hno, -⟩, hy⟩
        · obtain rfl := Except.error.inj (hx.symm.trans hy)
          rfl
        · exact absurd ⟨e, rfl⟩ hno
    | ok t =>
      rw [gather, List.foldlM_cons, hx]
      refine (ih (Table.put (name x) t hints)).trans (exists_congr fun y => and_congr_left' ?_)
      simp

/-- Where the hints are not told, some annotation is not resolved. -/
theorem exists_of_gather_error {f : Fault} (h : gather name resolve hints xs = .error f) :
    ∃ x ∈ xs, resolve x = .error f := by
  obtain ⟨x, hx, hf⟩ := (gather_eq_error_iff hints).mp h
  exact ⟨x, hx.mem, hf⟩

/-! ### Types -/

/-- The last entry of a name. -/
def latest? (name : α → String) (k : String) (xs : List α) : Option α :=
  xs.reverse.find? fun x => name x == k

theorem latest?_cons (name : α → String) (k : String) (x : α) (xs : List α) :
    latest? name k (x :: xs) =
      (latest? name k xs).or (if name x = k then some x else none) := by
  simp [latest?, List.find?_append, List.find?_singleton]

theorem latest?_append (name : α → String) (k : String) (xs ys : List α) :
    latest? name k (xs ++ ys) = (latest? name k ys).or (latest? name k xs) := by
  simp [latest?, List.find?_append]

/-- An entry of another name changes nothing. -/
theorem latest?_append_cons {k : String} {x : α} (h : name x ≠ k) (xs ys : List α) :
    latest? name k (xs ++ x :: ys) = latest? name k (xs ++ ys) := by
  rw [latest?_append, latest?_append, latest?_cons, if_neg h, Option.or_none]

theorem mem_of_latest? {k : String} {x : α} (h : latest? name k xs = some x) :
    x ∈ xs ∧ name x = k :=
  ⟨List.mem_reverse.mp (List.mem_of_find?_eq_some h), by simpa using List.find?_some h⟩

/-- A name without annotation is left as it was. -/
theorem lookup_gather_of_none (h : gather name resolve hints xs = .ok hints') {k : String}
    (hk : latest? name k xs = none) : hints'.lookup k = hints.lookup k := by
  induction xs generalizing hints with
  | nil => rw [Except.ok.inj h]
  | cons y ys ih =>
    obtain ⟨t, -, h⟩ := gather_cons_eq_ok_iff.mp h
    rw [latest?_cons, Option.or_eq_none_iff] at hk
    obtain ⟨hys, hy⟩ := hk
    have hne : k ≠ name y := by
      rintro rfl
      simp at hy
    rw [ih h hys, Table.lookup_put, if_neg hne]

/-- A name has the type of the last annotation under it. -/
theorem lookup_gather (h : gather name resolve hints xs = .ok hints') {k : String} {x : α}
    (hx : latest? name k xs = some x) : ∃ t, resolve x = .ok t ∧ hints'.lookup k = some t := by
  induction xs generalizing hints with
  | nil => cases hx
  | cons y ys ih =>
    obtain ⟨t, ht, h⟩ := gather_cons_eq_ok_iff.mp h
    rw [latest?_cons] at hx
    cases hys : latest? name k ys with
    | some z =>
      rw [hys, Option.some_or] at hx
      obtain rfl := Option.some.inj hx
      exact ih h hys
    | none =>
      rw [hys, Option.none_or] at hx
      split_ifs at hx with hy
      obtain rfl := Option.some.inj hx
      exact ⟨t, ht, by rw [lookup_gather_of_none h hys, Table.lookup_put, if_pos hy.symm]⟩

/-! ### Names -/

/-- Puts a key last, unless it is there already. -/
def addKey (ks : List String) (k : String) : List String := if k ∈ ks then ks else ks ++ [k]

/-- The names stand in the order in which they were first annotated. -/
theorem keys_gather (h : gather name resolve hints xs = .ok hints') :
    hints'.map Prod.fst = (xs.map name).foldl addKey (hints.map Prod.fst) := by
  induction xs generalizing hints with
  | nil => rw [Except.ok.inj h]; rfl
  | cons y ys ih =>
    obtain ⟨t, -, h⟩ := gather_cons_eq_ok_iff.mp h
    rw [ih h, Table.keys_put]
    rfl

theorem filter_addKey (p : String → Bool) (ks : List String) (k : String) :
    (addKey ks k).filter p = if p k then addKey (ks.filter p) k else ks.filter p := by
  unfold addKey
  by_cases hk : k ∈ ks <;> by_cases hp : p k = true <;> simp [hk, hp]

/-- Keys that are left out do not move the others. -/
theorem filter_foldl_addKey (p : String → Bool) (ks ns : List String) :
    (ns.foldl addKey ks).filter p = (ns.filter p).foldl addKey (ks.filter p) := by
  induction ns generalizing ks with
  | nil => rfl
  | cons n ns ih =>
    rw [List.foldl_cons, ih, filter_addKey, List.filter_cons]
    split_ifs
    · rfl
    · rfl

theorem nodup_gather (h : gather name resolve hints xs = .ok hints')
    (hn : (hints.map Prod.fst).Nodup) : (hints'.map Prod.fst).Nodup := by
  refine foldlM_invariant (p := fun hs : List (String × Ty) => (hs.map Prod.fst).Nodup)
    (fun hs x hs' hx hs => ?_) h hn
  obtain ⟨t, -, ht⟩ := bind_eq_ok_iff.mp hx
  obtain rfl := Except.ok.inj ht
  exact Table.nodup_put _ _ hs

/-! ### Two ways -/

/-- The types that are reported for placed annotations. -/
def hintsOf (S : Scope) (allowClassVar : Bool) (ps : List Placed) :
    Except Fault (List (String × Ty)) :=
  orApart (gather Placed.name (Placed.resolve S allowClassVar) [] ps)
    (gather Placed.name (Placed.resolveApart S) [] ps)

theorem foldlM_addHints (r : List (String × Attribute) → Ty → Except Fault Ty)
    (hints : List (String × Ty)) (layers : List Layer) :
    layers.foldlM (fun hs l => addHints (r l.attributes) hs l.annotations) hints =
      gather Placed.name (fun p => r p.attributes p.type) hints
        (layers.flatMap fun l => l.annotations.map fun e => ⟨l.attributes, e.1, e.2⟩) := by
  induction layers generalizing hints with
  | nil => rfl
  | cons l ls ih =>
    rw [List.foldlM_cons, List.flatMap_cons, gather_append, gather, List.foldlM_map]
    exact congrArg _ (funext ih)

theorem classHints_eq (S : Scope) (layers : List Layer) :
    S.classHints layers = S.hintsOf true (Placed.ofLayers layers) := by
  have htogether := foldlM_addHints (fun as => (S.before ⟨as, []⟩).resolve true) []
    layers.reverse
  have hapart := foldlM_addHints (fun as => (S.after ⟨as, []⟩).resolveApart) [] layers.reverse
  exact congrArg₂ orApart htogether hapart

theorem before_nil (S : Scope) : S.before ⟨[], []⟩ = S := by
  have hname : (fun n => S.name? n <|> none) = S.name? := funext fun n => by simp
  unfold before
  simp only [List.lookup_nil, Option.map_none, hname]

theorem after_nil (S : Scope) : S.after ⟨[], []⟩ = S := by
  have hname : (fun n => none <|> S.name? n) = S.name? := funext fun n => by simp
  unfold after
  simp only [List.lookup_nil, Option.map_none, hname]

theorem hints_eq (S : Scope) (annotations : List (String × Ty)) :
    S.hints annotations = S.hintsOf false (Placed.ofFunction annotations) := by
  have hbefore (e : String × Ty) : (Placed.mk [] e.1 e.2).before S = S := S.before_nil
  have hafter (e : String × Ty) : (Placed.mk [] e.1 e.2).after S = S := S.after_nil
  simp only [hints, hintsTogether, hintsApart, hintsOf, addHints, gather, Placed.ofFunction,
    Placed.resolve, Placed.resolveApart, List.foldlM_map, hbefore, hafter]

/-- The way on which the types of a table were found. -/
theorem hintsOf_eq_ok {S : Scope} {allow : Bool} {ps : List Placed}
    (h : S.hintsOf allow ps = .ok hints) :
    gather Placed.name (Placed.resolve S allow) [] ps = .ok hints ∨
      (∃ f, gather Placed.name (Placed.resolve S allow) [] ps = .error f ∧
        f.isUnresolved = true) ∧
      gather Placed.name (Placed.resolveApart S) [] ps = .ok hints := by
  unfold hintsOf orApart at h
  split at h
  · next hr => exact .inl (hr.trans h)
  · next f hr =>
    split_ifs at h with hf
    exact .inr ⟨⟨f, hr, hf⟩, h⟩

/-- A text fails by itself with the faults that do not count as unresolved, and nothing else
fails. -/
theorem resolveApart_eq_error_iff {S : Scope} {t : Ty} {f : Fault} :
    S.resolveApart t = .error f ↔
      ∃ s, t = .text s ∧ S.resolve true (.text s) = .error f ∧ f.isUnresolved = false := by
  cases t with
  | text s =>
    simp only [resolveApart, Ty.text.injEq, exists_eq_left']
    cases S.resolve true (.text s) with
    | ok u => simp
    | error g =>
      dsimp only
      constructor
      · intro h
        split_ifs at h with hg
        · cases h
        · obtain rfl := Except.error.inj h
          exact ⟨rfl, by simpa using hg⟩
      · rintro ⟨hf, hu⟩
        obtain rfl := Except.error.inj hf
        rw [hu]
        rfl
  | _ => simp [resolveApart]

/-- An annotation is the first one that is not resolved on the first way. -/
def FirstUnresolved (S : Scope) (allow : Bool) (ps : List Placed) (p : Placed) : Prop :=
  First (fun p => ∃ f, p.resolve S allow = .error f) ps p

/-- A fault ends both ways of resolution: the first way ends with a fault that does not count as
unresolved, or with another one, and then the second way ends with such a fault. -/
inductive Escapes (S : Scope) (allow : Bool) (ps : List Placed) (f : Fault) : Prop
  | together {p : Placed} : S.FirstUnresolved allow ps p → p.resolve S allow = .error f →
      f.isUnresolved = false → Escapes S allow ps f
  | apart {p q : Placed} {g : Fault} : S.FirstUnresolved allow ps p →
      p.resolve S allow = .error g → g.isUnresolved = true →
      First (fun q => ∃ f, q.resolveApart S = .error f) ps q → q.resolveApart S = .error f →
      Escapes S allow ps f

theorem Escapes.isUnresolved {S : Scope} {allow : Bool} {ps : List Placed} {f : Fault}
    (h : S.Escapes allow ps f) : f.isUnresolved = false := by
  cases h with
  | together _ _ hf => exact hf
  | apart _ _ _ _ hf =>
    obtain ⟨s, -, -, hf⟩ := resolveApart_eq_error_iff.mp hf
    exact hf

/-- Where every annotation is resolved together, nothing escapes. -/
theorem not_escapes_of_forall {S : Scope} {allow : Bool} {ps : List Placed}
    (h : ∀ p ∈ ps, ∃ t, p.resolve S allow = .ok t) (f : Fault) : ¬S.Escapes allow ps f := by
  have hno : ∀ p, ¬S.FirstUnresolved allow ps p := by
    intro p hp
    obtain ⟨t, ht⟩ := h p hp.mem
    obtain ⟨f, hf⟩ := hp.holds
    cases hf.symm.trans ht
  rintro (⟨hp, -, -⟩ | ⟨hp, -, -, -, -⟩)
  · exact hno _ hp
  · exact hno _ hp

/-- Where the first way ends. -/
theorem hintsOf_of_firstUnresolved {S : Scope} {allow : Bool} {ps : List Placed} {p : Placed}
    (h : S.FirstUnresolved allow ps p) {f : Fault} (hf : p.resolve S allow = .error f) :
    S.hintsOf allow ps =
      if f.isUnresolved then gather Placed.name (Placed.resolveApart S) [] ps else .error f := by
  rw [hintsOf, (gather_eq_error_iff []).mpr ⟨p, h, hf⟩, orApart]

/-- **The types are told unless a fault ends both ways.** -/
theorem hintsOf_eq_error_iff {S : Scope} {allow : Bool} {ps : List Placed} {f : Fault} :
    S.hintsOf allow ps = .error f ↔ S.Escapes allow ps f := by
  constructor
  · intro h
    cases hg : gather Placed.name (Placed.resolve S allow) [] ps with
    | ok hints =>
      rw [hintsOf, hg] at h
      cases h
    | error g =>
      obtain ⟨p, hp, hpg⟩ := (gather_eq_error_iff []).mp hg
      replace h := (hintsOf_of_firstUnresolved hp hpg).symm.trans h
      split_ifs at h with hu
      · obtain ⟨q, hq, hqf⟩ := (gather_eq_error_iff []).mp h
        exact .apart hp hpg hu hq hqf
      · obtain rfl := Except.error.inj h
        exact .together hp hpg (by simpa using hu)
  · rintro (⟨hp, hpf, hf⟩ | ⟨hp, hpg, hg, hq, hqf⟩)
    · rw [hintsOf_of_firstUnresolved hp hpf, hf]
      rfl
    · rw [hintsOf_of_firstUnresolved hp hpg, if_pos hg]
      exact (gather_eq_error_iff []).mpr ⟨_, hq, hqf⟩

theorem nodup_hintsOf {S : Scope} {allow : Bool} {ps : List Placed}
    (h : S.hintsOf allow ps = .ok hints) : (hints.map Prod.fst).Nodup := by
  rcases hintsOf_eq_ok h with hr | ⟨-, hr⟩
  · exact nodup_gather hr List.nodup_nil
  · exact nodup_gather hr List.nodup_nil

theorem nodup_classHints {S : Scope} {layers : List Layer}
    (h : S.classHints layers = .ok hints) : (hints.map Prod.fst).Nodup := by
  rw [classHints_eq] at h
  exact nodup_hintsOf h

end Scope

end RecordText
