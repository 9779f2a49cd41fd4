/-
What quoted members write can be read back.

Members of the string and of the char strategy write their texts between quotes, and a reader that
knows the quote finds the end of such a fragment without knowing what follows it, however many
quotes and backslashes there are on either side:

* `readsBack_quoted` — `Text.readQuoted q` undoes `Text.quoted q` and leaves what follows;
* `ReadsBack.append_inj` — so a fragment and what follows it are known from the text of both;
* `Writer.write_text` — a writer that quotes escapes every character once, from left to right;
* `fragments_read_back` — **what such a writer makes of a text is read back with any rest.**
-/
import RecordText.Proofs.QuotedValues

namespace RecordText

namespace Text

/-! ### Readers -/

/-- A reader of written texts: whatever follows a text, both are given back. -/
def ReadsBack (read : String → Option (String × String)) (write : String → String) : Prop :=
  ∀ s r, read (write s ++ r) = some (s, r)

/-- What can be read back delimits itself. -/
theorem ReadsBack.append_inj {read : String → Option (String × String)}
    {write : String → String} (h : ReadsBack read write) {s s' r r' : String}
    (he : write s ++ r = write s' ++ r') : s = s' ∧ r = r' := by
  have hp : some (s, r) = some (s', r') := (h s r).symm.trans ((congrArg read he).trans (h s' r'))
  exact Prod.mk.inj (Option.some.inj hp)

/-- Reads one quoted fragment from the front of a text, with the quote `q`. -/
def readQuoted (q : Char) (t : String) : Option (String × String) :=
  (unquote q t.toList).map fun p => (String.ofList p.1, String.ofList p.2)

theorem readsBack_quoted {q : Char} (hq : q ≠ backslash) : ReadsBack (readQuoted q) (quoted q) := by
  intro s r
  rw [readQuoted, String.toList_append, unquote_quoted hq, Option.map_some, String.ofList_toList,
    String.ofList_toList]

end Text

/-! ### Writers that quote -/

/-- The quote of the strategies that have one. -/
def Strategy.quote? : Strategy → Option Char
  | .string => some Text.doubleQuote
  | .char => some Text.singleQuote
  | _ => none

theorem Strategy.quote_ne_backslash {k : Strategy} {q : Char} (hk : k.quote? = some q) :
    q ≠ Text.backslash := by
  cases k <;> cases hk <;> decide

namespace Writer

variable {k : Strategy} {q : Char} {v : Value} {s : String} {B : Behaviour}

/-- The string strategy escapes in two passes, the char strategy in one, and both write the same
escapes. -/
theorem textOf_quoted (hk : k.quote? = some q) (h : B.QuotesAs v s) :
    k.textOf B v = .ok (Text.quoted q s) := by
  cases k with
  | string =>
    cases hk
    rw [Strategy.textOf, Fragment.ofString_of_quotesAs h, Text.quotedTwice_eq (by decide)]
  | char =>
    cases hk
    exact Fragment.ofChar_of_quotesAs h
  | _ => cases hk

theorem write_text (hk : k.quote? = some q) (declared : Ty) :
    ∃ w, ofStrategy k declared = .ok w ∧
      ∀ B v s, B.QuotesAs v s → w.write B v = .ok (.text (Text.quoted q s)) := by
  have hu : k ≠ .unsupported := by rintro rfl; cases hk
  have hv : k ≠ .verbatim := by rintro rfl; cases hk
  have ht : ∀ B v s, B.QuotesAs v s →
      (if v.isAbsent && k.leavesOut declared then .ok "" else k.textOf B v) =
        .ok (Text.quoted q s) := by
    intro B v s h
    rw [Value.isAbsent_of_text h.text, textOf_quoted hk h]
    rfl
  refine ⟨_, ?_, fun B v s h =>
    (write_base B v declared hu hv).trans (congrArg (· >>= _) (ht B v s h))⟩
  cases k <;> cases hk <;> rfl

end Writer

/-- **What a writer that quotes makes of a text is read back with any rest**, so that no other text
starts like it, and escaping in two passes makes the same of it as escaping every character
once.  A plain text is written so under every behaviour, and an instance of a class above the texts
under those that quote it as its text. -/
theorem fragments_read_back {k : Strategy} {q : Char} (hk : k.quote? = some q) (declared : Ty)
    (v : Value) (s : String) :
    ∃ w f, Writer.ofStrategy k declared = .ok w ∧
      (∀ B, B.QuotesAs v s → w.write B v = .ok (.text f)) ∧
      (v.ownText? = some s → ∀ B, w.write B v = .ok (.text f)) ∧
      (∀ r, Text.readQuoted q (f ++ r) = some (s, r)) ∧
      (∀ s' r r', f ++ r = Text.quoted q s' ++ r' → s = s' ∧ r = r') ∧
      f = Text.quoted q s ∧ f = Text.quotedTwice q s := by
  have hq := Strategy.quote_ne_backslash hk
  have hr := Text.readsBack_quoted hq
  obtain ⟨w, hw, hf⟩ := Writer.write_text hk declared
  exact ⟨w, _, hw, fun B => hf B v s, fun h B => hf B v s (Behaviour.quotesAs_of_ownText h), hr s,
    fun _ _ _ he => hr.append_inj he, rfl, (Text.quotedTwice_eq hq s).symm⟩

/-- Both quotes, each behind a backslash, and two backslashes at the end. -/
def quotesAndBackslashes : String :=
  .ofList [Text.backslash, Text.doubleQuote, Text.backslash, Text.singleQuote, Text.backslash,
    Text.backslash]

theorem fragments_read_back_quotesAndBackslashes :
    (∃ w f, Writer.ofStrategy .string Ty.str = .ok w ∧
      (∀ B, w.write B (.text quotesAndBackslashes) = .ok (.text f)) ∧
      (∀ r, Text.readQuoted Text.doubleQuote (f ++ r) = some (quotesAndBackslashes, r)) ∧
      f.length = 13) ∧
    ∃ w f, Writer.ofStrategy .char Ty.char = .ok w ∧
      (∀ B, w.write B (.text quotesAndBackslashes) = .ok (.text f)) ∧
      (∀ r, Text.readQuoted Text.singleQuote (f ++ r) = some (quotesAndBackslashes, r)) ∧
      f.length = 13 := by
  constructor
  · obtain ⟨w, f, hw, -, hf, hr, -, rfl, -⟩ :=
      fragments_read_back (k := .string) (q := Text.doubleQuote) rfl Ty.str
        (.text quotesAndBackslashes) quotesAndBackslashes
    exact ⟨w, _, hw, hf rfl, hr, by decide⟩
  · obtain ⟨w, f, hw, -, hf, hr, -, rfl, -⟩ :=
      fragments_read_back (k := .char) (q := Text.singleQuote) rfl Ty.char
        (.text quotesAndBackslashes) quotesAndBackslashes
    exact ⟨w, _, hw, hf rfl, hr, by decide⟩

end RecordText
