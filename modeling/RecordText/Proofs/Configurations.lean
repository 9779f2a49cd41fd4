/-
What a configuration says, and what calls make it say.

About the member of a name, a configuration says whether it is ignored (`Config.ignores`) and what
its substitute is (`Config.substitute?`), and about the names that it was given, which members they
are for.  Only texts are for members, and names that are equal are for the same ones
(`Name.matches`), so a configuration is known by the functions `Name.matches` of its names.

* `ignores_withIgnored`, `substitute?_withSubstitute` — a call changes what is said about the names
  that it is given, and nothing else;
* `World.asked`, `World.call_eq_ok` — an accepted call asks for one change, whatever the
  configuration was before;
* `Config.useFields_foldl`, `Config.mem_ignored_foldl`, `Config.mem_substituted_foldl`,
  `Config.substitute?_foldl` — **what a run of calls leaves**: the modes and the names that some
  call asked for, and for each name the substitute that was asked for last.
-/
import RecordText.Builder
import RecordText.Proofs.Outcome

namespace RecordText

/-! ### Names -/

namespace Value.Key

variable {k : Key} {s : String}

theorem same_text_iff : k.same (.text s) = true ↔ k = .text s := by
  cases k <;> simp [same]

theorem text_same_iff : (text s).same k = true ↔ k = .text s := by
  cases k with
  | text t => simpa [same] using eq_comm
  | _ => simp [same]

end Value.Key

namespace Name

/-- The name that a text is. -/
def ofText (s : String) : Name := ⟨.text s, .text s⟩

variable {n m : Name} {s : String}

/-- A name is for the members of its own text, and only a text is for any. -/
theorem matches_iff : n.matches s = true ↔ n.key = .text s := Value.Key.same_text_iff

theorem matches_ofText {t : String} : (ofText s).matches t = true ↔ s = t := by
  rw [matches_iff, ofText, Value.Key.text.injEq]

/-- Names that are equal are for the same members. -/
theorem matches_of_beq (h : (n == m) = true) : n.matches = m.matches := by
  have h : n.key.same m.key = true := h
  funext s
  rw [Bool.eq_iff_iff, matches_iff, matches_iff]
  -- a key that equals a text is that text
  constructor
  · intro hn
    rw [hn] at h
    exact Value.Key.text_same_iff.mp h
  · intro hm
    rw [hm] at h
    exact Value.Key.same_text_iff.mp h

/-- Names of one member are equal. -/
theorem beq_of_matches (hn : n.matches s = true) (hm : m.matches s = true) : (n == m) = true := by
  show n.key.same m.key = true
  rw [matches_iff.mp hm]
  exact hn

end Name

/-- What a text is as a name. -/
theorem World.nameOf_text (W : World) (s : String) : W.nameOf (.text s) = .ok (Name.ofText s) := rfl

/-! ### Single calls -/

namespace Config

variable {c : Config} {member : String} {p : String → Bool}

theorem ignores_iff :
    c.ignores member = true ↔ ∃ p ∈ c.ignored.map Name.matches, p member = true := by
  simp [ignores]

/-- The names that are ignored afterwards are for the members of those that were ignored, and of
the new ones. -/
theorem mem_withIgnored (c : Config) (names : List Name) :
    p ∈ (c.withIgnored names).ignored.map Name.matches ↔
      p ∈ c.ignored.map Name.matches ∨ p ∈ names.map Name.matches := by
  obtain ⟨_, _, ignored, _⟩ := c
  simp only [withIgnored]
  induction names generalizing ignored with
  | nil => simp
  | cons n ns ih =>
    rw [List.foldl_cons, ih, List.map_cons, List.mem_cons]
    split_ifs with h
    -- a name that is left out is for the members of one that is there
    · obtain ⟨m, hm, hnm⟩ := List.contains_iff_exists_mem_beq.mp h
      have hn : n.matches ∈ ignored.map Name.matches :=
        List.mem_map.mpr ⟨m, hm, (Name.matches_of_beq hnm).symm⟩
      constructor
      · tauto
      · rintro (h | rfl | h)
        · exact .inl h
        · exact .inl hn
        · exact .inr h
    · rw [List.map_append, List.mem_append, List.map_singleton, List.mem_singleton, or_assoc]

theorem ignores_withIgnored (c : Config) (names : List Name) (member : String) :
    (c.withIgnored names).ignores member =
      (c.ignores member || names.any fun n => n.matches member) := by
  rw [Bool.eq_iff_iff, Bool.or_eq_true, ignores_iff, ignores_iff]
  simp only [mem_withIgnored, or_and_right, exists_or]
  simp

theorem mem_withSubstitute (c : Config) (n : Name) (s : Substitute) :
    p ∈ (c.withSubstitute n s).substitutes.map (fun e => e.1.matches) ↔
      p ∈ c.substitutes.map (fun e => e.1.matches) ∨ p = n.matches := by
  obtain ⟨_, _, _, substitutes⟩ := c
  simp only [withSubstitute]
  induction substitutes with
  | nil => simp [Table.put]
  | cons e es ih =>
    obtain ⟨m, t⟩ := e
    rw [Table.put]
    split_ifs with h
    -- the name keeps its place, and an equal one is for the same members
    · rw [List.map_cons, List.map_cons, List.mem_cons, ← Name.matches_of_beq h]
      tauto
    · rw [List.map_cons, List.map_cons, List.mem_cons, List.mem_cons, ih, or_assoc]

/-- **A substitute is for the member of its name, and the others keep theirs.** -/
theorem substitute?_withSubstitute (c : Config) (n : Name) (s : Substitute) (member : String) :
    (c.withSubstitute n s).substitute? member =
      if n.matches member = true then some s else c.substitute? member := by
  obtain ⟨_, _, _, substitutes⟩ := c
  simp only [withSubstitute, substitute?]
  induction substitutes with
  | nil => cases h : n.matches member <;> simp [Table.put, h]
  | cons e es ih =>
    obtain ⟨m, t⟩ := e
    rw [Table.put]
    by_cases h : (m == n) = true
    · rw [if_pos h, List.find?_cons, List.find?_cons, ← Name.matches_of_beq h]
      cases m.matches member <;> rfl
    · rw [if_neg h, List.find?_cons, List.find?_cons]
      cases hm : m.matches member with
      | false => exact ih
      | true =>
        -- two names of one member are equal
        have hn : ¬n.matches member = true := fun hn => h (Name.beq_of_matches hm hn)
        rw [if_neg hn]

theorem substitute?_eq_none_iff :
    c.substitute? member = none ↔ ∀ e ∈ c.substitutes, e.1.matches member = false := by
  simp [substitute?]

end Config

/-! ### Calls -/

/-- A call that configures a builder, with its arguments. -/
inductive Call
  | useFields
  | useProperties
  | ignore (names : List Value)
  | ignoreAll (names : Value)
  | substitute (name : Value) (f : Function) (input : Option Ty)

/-- What an accepted call changes. -/
inductive Change
  | fields
  | properties
  | ignored (names : List Name)
  | substituted (name : Name) (s : Substitute)

namespace Change

/-- The names that are to be ignored from now on. -/
def ignoredNames : Change → List Name
  | .ignored ns => ns
  | _ => []

/-- The name that gets a substitute. -/
def substitutedNames : Change → List Name
  | .substituted n _ => [n]
  | _ => []

/-- The substitute that a name gets. -/
def substituteFor (n : Name) : Change → Option Substitute
  | .substituted m s => if m == n then some s else none
  | _ => none

/-- The substitute that a name gets last. -/
def lastFor (n : Name) (es : List Change) : Option Substitute :=
  es.reverse.findSome? (substituteFor n)

end Change

/-- The configuration after a change. -/
def Config.after (c : Config) : Change → Config
  | .fields => c.withFields
  | .properties => c.withProperties
  | .ignored ns => c.withIgnored ns
  | .substituted n s => c.withSubstitute n s

namespace World

/-- What a call makes of a configuration. -/
def call (W : World) (c : Config) : Call → Except Failure Config
  | .useFields => pure c.withFields
  | .useProperties => pure c.withProperties
  | .ignore names => W.ignore c names
  | .ignoreAll names => W.ignoreAll c names
  | .substitute name f input => W.substitute c name f input

/-- The change that a call asks for, if its arguments have names. -/
def asked (W : World) : Call → Option Change
  | .useFields => some .fields
  | .useProperties => some .properties
  | .ignore names => (names.mapM W.nameOf).toOption.map .ignored
  | .ignoreAll names => do
    let vs ← (W.behaviour.elements names).toOption
    (vs.mapM W.nameOf).toOption.map .ignored
  | .substitute name f input => (W.nameOf name).toOption.map fun n => .substituted n ⟨f, input⟩

variable {W : World} {c d : Config}

theorem ignore_eq_ok_iff {names : List Value} :
    W.ignore c names = .ok d ↔ names.any Check.isNone = false ∧
      ∃ ns, names.mapM W.nameOf = .ok ns ∧ d = c.withIgnored ns := by
  rw [ignore]
  cases names.any Check.isNone with
  | true => simp
  | false =>
    show (Fault.lift (names.mapM W.nameOf) >>= fun ns => .ok (c.withIgnored ns)) = .ok d ↔ _
    simp only [bind_eq_ok_iff, lift_eq_ok_iff, Except.ok.injEq, true_and]
    exact exists_congr fun ns => and_congr Iff.rfl eq_comm

theorem ignoreAll_eq_ok_iff {names : Value} :
    W.ignoreAll c names = .ok d ↔ Check.isNone names = false ∧ names.text? = none ∧
      ∃ vs, W.behaviour.elements names = .ok vs ∧ W.ignore c vs = .ok d := by
  rw [ignoreAll]
  cases Check.isNone names with
  | true => simp
  | false => cases names.text? <;> simp [bind_eq_ok_iff]

theorem substitute_eq_ok_iff {name : Value} {f : Function} {input : Option Ty} :
    W.substitute c name f input = .ok d ↔ Check.isNone name = false ∧ isNoFunction f = false ∧
      (∃ printed, W.printedFunction f = .ok printed) ∧ W.isCallableFunction f = true ∧
        ∃ n, W.nameOf name = .ok n ∧ d = c.withSubstitute n ⟨f, input⟩ := by
  rw [substitute]
  cases Check.isNone name with
  | true => simp
  | false =>
    cases isNoFunction f with
    | true => simp
    | false =>
      cases W.isCallableFunction f with
      | false => simp [bind_eq_ok_iff]
      | true =>
        show (W.printedFunction f >>= fun _ => Fault.lift (W.nameOf name) >>= fun n =>
          .ok (c.withSubstitute n ⟨f, input⟩)) = .ok d ↔ _
        simp only [bind_eq_ok_iff, lift_eq_ok_iff, Except.ok.injEq, true_and, exists_and_right]
        exact and_congr Iff.rfl (exists_congr fun n => and_congr Iff.rfl eq_comm)

/-- **An accepted call asks for one change and makes it**, whatever was configured before. -/
theorem call_eq_ok {k : Call} (h : W.call c k = .ok d) :
    ∃ e, W.asked k = some e ∧ d = c.after e := by
  cases k with
  | useFields => exact ⟨.fields, rfl, (Except.ok.inj h).symm⟩
  | useProperties => exact ⟨.properties, rfl, (Except.ok.inj h).symm⟩
  | ignore names =>
    obtain ⟨-, ns, hns, rfl⟩ := ignore_eq_ok_iff.mp h
    exact ⟨.ignored ns, by simp [asked, hns, Except.toOption], rfl⟩
  | ignoreAll names =>
    obtain ⟨-, -, vs, hvs, h⟩ := ignoreAll_eq_ok_iff.mp h
    obtain ⟨-, ns, hns, rfl⟩ := ignore_eq_ok_iff.mp h
    exact ⟨.ignored ns, by simp [asked, hvs, hns, Except.toOption], rfl⟩
  | substitute name f input =>
    obtain ⟨-, -, -, -, n, hn, rfl⟩ := substitute_eq_ok_iff.mp h
    exact ⟨.substituted n ⟨f, input⟩, by simp [asked, hn, Except.toOption], rfl⟩

/-- A run of accepted calls makes the changes that its calls ask for, one after the other. -/
theorem calls_eq_ok {ks : List Call} (h : ks.foldlM W.call c = .ok d) :
    d = (ks.filterMap W.asked).foldl Config.after c := by
  induction ks generalizing c with
  | nil => exact (Except.ok.inj h).symm
  | cons k ks ih =>
    rw [List.foldlM_cons] at h
    obtain ⟨c', hc', h⟩ := bind_eq_ok_iff.mp h
    obtain ⟨e, he, rfl⟩ := call_eq_ok hc'
    rw [List.filterMap_cons_some he, List.foldl_cons]
    exact ih h

end World

/-! ### Runs of calls -/

namespace Config

variable {c : Config} {es : List Change} {p : String → Bool}

theorem useFields_foldl :
    (es.foldl after c).useFields = true ↔ c.useFields = true ∨ .fields ∈ es := by
  induction es generalizing c with
  | nil => simp
  | cons e es ih =>
    rw [List.foldl_cons, ih]
    cases e <;> simp [after, withFields, withProperties, withIgnored, withSubstitute]

theorem useProperties_foldl :
    (es.foldl after c).useProperties = true ↔ c.useProperties = true ∨ .properties ∈ es := by
  induction es generalizing c with
  | nil => simp
  | cons e es ih =>
    rw [List.foldl_cons, ih]
    cases e <;> simp [after, withFields, withProperties, withIgnored, withSubstitute]

/-- The ignored names are those that some call asked for. -/
theorem mem_ignored_foldl :
    p ∈ (es.foldl after c).ignored.map Name.matches ↔ p ∈ c.ignored.map Name.matches ∨
      p ∈ (es.flatMap Change.ignoredNames).map Name.matches := by
  induction es generalizing c with
  | nil => simp
  | cons e es ih =>
    rw [List.foldl_cons, ih, List.flatMap_cons, List.map_append, List.mem_append, ← or_assoc]
    refine or_congr ?_ Iff.rfl
    cases e with
    | ignored ns => exact mem_withIgnored c ns
    | _ => simp [after, Change.ignoredNames, withFields, withProperties, withSubstitute]

/-- The substituted names are those that some call asked for. -/
theorem mem_substituted_foldl :
    p ∈ (es.foldl after c).substitutes.map (fun e => e.1.matches) ↔
      p ∈ c.substitutes.map (fun e => e.1.matches) ∨
        p ∈ (es.flatMap Change.substitutedNames).map Name.matches := by
  induction es generalizing c with
  | nil => simp
  | cons e es ih =>
    rw [List.foldl_cons, ih, List.flatMap_cons, List.map_append, List.mem_append, ← or_assoc]
    refine or_congr ?_ Iff.rfl
    cases e with
    | substituted n s =>
      rw [after, mem_withSubstitute, Change.substitutedNames, List.map_singleton,
        List.mem_singleton]
    | _ => simp [after, Change.substitutedNames, withFields, withProperties, withIgnored]

/-- **The last call for a member decides about its substitute.** -/
theorem substitute?_foldl (member : String) :
    (es.foldl after c).substitute? member =
      (Change.lastFor (.ofText member) es).or (c.substitute? member) := by
  induction es generalizing c with
  | nil => rfl
  | cons e es ih =>
    rw [List.foldl_cons, ih, Change.lastFor, Change.lastFor, List.reverse_cons,
      List.findSome?_append]
    -- a later call goes before this one, and this one before what was configured
    rw [Option.or_assoc]
    congr 1
    cases e with
    | substituted n s =>
      rw [after, substitute?_withSubstitute, List.findSome?_singleton]
      show _ = (if n.matches member = true then some s else none).or _
      split_ifs <;> rfl
    | _ => rfl

end Config

end RecordText
