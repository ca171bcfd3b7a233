import CategoryAudit.Proofs.Condition.Outcome
import CategoryAudit.Proofs.Text.Strip

/-!
# Conditions as texts

A condition can be written in many ways: with parentheses beyond those that the operators ask for,
and with any blanks around its tokens, or none. `Layout` is a condition with a choice of
parentheses, `Spaced` a choice of blanks. Evaluating a text that is written in any of these ways
gives the truth value of the condition (`evalText_spaced`), up to the limit on nesting.
-/

namespace CategoryAudit.Condition

-- ---------------------------------------------------------------------------
-- What a condition means
-- ---------------------------------------------------------------------------

def IsTrue (defined : Symbols) : Condition → Prop
  | constant value => value = true
  | symbol name => name ∈ defined
  | not c => ¬ c.IsTrue defined
  | binary .or l r => l.IsTrue defined ∨ r.IsTrue defined
  | binary .and l r => l.IsTrue defined ∧ r.IsTrue defined
  | binary .equal l r => (l.IsTrue defined ↔ r.IsTrue defined)
  | binary .differ l r => ¬ (l.IsTrue defined ↔ r.IsTrue defined)

theorem eval_iff (defined : Symbols) (c : Condition) :
    c.eval defined = true ↔ c.IsTrue defined := by
  induction c with
  | constant value => rfl
  | symbol name => exact List.contains_iff_mem
  | not c ih => simp [eval, IsTrue, ← ih]
  | binary op l r ihl ihr =>
    rw [eval]
    cases op with
    | or => simp [IsTrue, Operator.apply, ← ihl, ← ihr]
    | and => simp [IsTrue, Operator.apply, ← ihl, ← ihr]
    | equal => rw [IsTrue, ← ihl, ← ihr, ← Bool.eq_iff_iff, Operator.apply, beq_iff_eq]
    | differ => rw [IsTrue, ← ihl, ← ihr, ← Bool.eq_iff_iff, Operator.apply, bne_iff_ne]

instance (defined : Symbols) (c : Condition) : Decidable (c.IsTrue defined) :=
  decidable_of_iff _ (eval_iff defined c)

-- ---------------------------------------------------------------------------
-- Parentheses
-- ---------------------------------------------------------------------------

/-- A name that a condition can hold: letters, digits and underscores of ASCII, not beginning with a
digit, and none of the constants. -/
structure Identifier where
  first : Char
  more : List Char
  first_isWordStart : isWordStart first
  more_isWordPart : ∀ c ∈ more, isWordPart c
  ne_true : String.ofList (first :: more) ≠ "true"
  ne_false : String.ofList (first :: more) ≠ "false"

def Identifier.name (i : Identifier) : String := String.ofList (i.first :: i.more)

/-- A condition with the number of parentheses around each part beyond those that it needs. -/
inductive Layout where
  | constant (spare : Nat) (value : Bool)
  | symbol (spare : Nat) (i : Identifier)
  | not (spare : Nat) (l : Layout)
  | binary (spare : Nat) (op : Operator) (left right : Layout)

namespace Layout

def condition : Layout → Condition
  | constant _ value => .constant value
  | symbol _ i => .symbol i.name
  | not _ l => .not l.condition
  | binary _ op l r => .binary op l.condition r.condition

def enclose : Nat → List Token → List Token
  | 0, ts => ts
  | n + 1, ts => .opening :: (enclose n ts ++ [.closing])

def negated : Nat := 3

/-- The tokens of a condition at a place where an operator has to bind as closely as `place` to go
without parentheses. Operators of one strength group to the left. -/
def tokens (place : Nat) : Layout → List Token
  | constant spare value => enclose spare [.word (if value then "true" else "false")]
  | symbol spare i => enclose spare [.word i.name]
  | not spare l => enclose spare (.bang :: l.tokens negated)
  | binary spare op l r =>
    enclose ((if op.strength < place then 1 else 0) + spare)
      (l.tokens op.strength ++ .operator op :: r.tokens (op.strength + 1))

end Layout

theorem Nonterminal.strength_le (n : Nonterminal) : n.strength ≤ Nonterminal.unary.strength := by
  cases n <;> decide

theorem Phrase.enclose (h : Phrase m ts c) (count : Nat) (n : Nonterminal)
    (hn : count = 0 → n.strength ≤ m.strength) : Phrase n (Layout.enclose count ts) c := by
  induction count generalizing n with
  | zero => exact h.loosen (hn rfl)
  | succ count ih =>
    have hinner := ih .disjunction fun _ => Nat.zero_le _
    exact hinner.parenthesis.loosen n.strength_le

theorem Layout.phrase (l : Layout) (n : Nonterminal) :
    Phrase n (l.tokens n.strength) l.condition := by
  induction l generalizing n with
  | constant spare value =>
    have hword : Phrase .unary [.word (if value then "true" else "false")] (.constant value) := by
      cases value
      · exact .false
      · exact .true
    exact hword.enclose spare n fun _ => n.strength_le
  | symbol spare i =>
    have hword : Phrase .unary [.word i.name] (.symbol i.name) := .symbol i.ne_true i.ne_false
    exact hword.enclose spare n fun _ => n.strength_le
  | not spare l ih =>
    exact (ih .unary).negation.enclose spare n fun _ => n.strength_le
  | binary spare op l r ihl ihr =>
    have hl := ihl op.whole
    have hr := ihr op.right
    rw [op.strength_whole] at hl
    rw [op.strength_right] at hr
    refine (Phrase.binary op hl hr).enclose _ n fun hnone => ?_
    rw [op.strength_whole]
    split at hnone <;> omega

-- ---------------------------------------------------------------------------
-- Blanks
-- ---------------------------------------------------------------------------

def Token.spelling : Token → List Char
  | .operator .or => ['|', '|']
  | .operator .and => ['&', '&']
  | .operator .equal => ['=', '=']
  | .operator .differ => ['!', '=']
  | .bang => ['!']
  | .opening => ['(']
  | .closing => [')']
  | .word name => name.toList

/-- A text of some tokens, with any blanks before, between and after them. -/
inductive Spaced : List Token → List Char → Prop
  | done : (∀ b ∈ blanks, Text.isBlank b) → Spaced [] blanks
  | token : (∀ b ∈ blanks, Text.isBlank b) → Spaced ts rest →
      Spaced (t :: ts) (blanks ++ (t.spelling ++ rest))

theorem Spaced.tight (hback : ∀ b ∈ back, Text.isBlank b) (ts : List Token) :
    Spaced ts (ts.flatMap Token.spelling ++ back) := by
  induction ts with
  | nil => exact .done hback
  | cons t ts ih =>
    have h := @Spaced.token [] ts _ t (by simp) ih
    rwa [List.nil_append, ← List.append_assoc] at h

theorem Spaced.pad (hfront : ∀ b ∈ front, Text.isBlank b) (h : Spaced ts cs) :
    Spaced ts (front ++ cs) := by
  cases h with
  | done hb => exact .done (List.forall_mem_append.mpr ⟨hfront, hb⟩)
  | token hb hr =>
    rw [← List.append_assoc]
    exact .token (List.forall_mem_append.mpr ⟨hfront, hb⟩) hr

def Token.opens : Token → Bool
  | .bang | .opening | .word _ => true
  | .closing | .operator _ => false

def Token.closes : Token → Bool
  | .closing | .word _ => true
  | .bang | .opening | .operator _ => false

/-- Operands begin only where one is wanted, which is not where one has just ended. -/
inductive Alternates : Bool → List Token → Prop
  | done : Alternates false []
  | token (t : Token) : Alternates (!t.closes) ts → Alternates t.opens (t :: ts)

theorem Alternates.append (h : Alternates wanted ts) (h' : Alternates false us) :
    Alternates wanted (ts ++ us) := by
  induction h with
  | done => exact h'
  | token t _ ih => exact .token t ih

theorem Alternates.word (name : String) : Alternates true [.word name] :=
  .token (.word name) .done

theorem Alternates.binary (op : Operator) (h : Alternates true ts) (h' : Alternates true us) :
    Alternates true (ts ++ .operator op :: us) :=
  h.append (.token (.operator op) h')

theorem alternates_of_phrase (h : Phrase n ts c) : Alternates true ts := by
  induction h with
  | conjunction _ ih | equality _ ih | unary _ ih => exact ih
  | or _ _ ihl ihr => exact .binary .or ihl ihr
  | and _ _ ihl ihr => exact .binary .and ihl ihr
  | equal _ _ ihl ihr => exact .binary .equal ihl ihr
  | differ _ _ ihl ihr => exact .binary .differ ihl ihr
  | negation _ ih => exact .token .bang ih
  | parenthesis _ ih => exact .token .opening (ih.append (.token .closing .done))
  | true => exact .word "true"
  | false => exact .word "false"
  | symbol => exact .word _

def Token.WellSpelled : Token → Prop
  | .word name => ∃ c cs, name = String.ofList (c :: cs) ∧ isWordStart c ∧ ∀ d ∈ cs, isWordPart d
  | _ => True

theorem wellSpelled_enclose (h : ∀ t ∈ ts, t.WellSpelled) (count : Nat) :
    ∀ t ∈ Layout.enclose count ts, t.WellSpelled := by
  induction count with
  | zero => exact h
  | succ count ih =>
    intro t ht
    rcases List.mem_cons.mp ht with rfl | ht
    · trivial
    rcases List.mem_append.mp ht with ht | ht
    · exact ih t ht
    · rw [List.mem_singleton.mp ht]
      trivial

theorem Layout.wellSpelled (l : Layout) (place : Nat) : ∀ t ∈ l.tokens place, t.WellSpelled := by
  induction l generalizing place with
  | constant spare value =>
    refine wellSpelled_enclose (List.forall_mem_singleton.mpr ?_) spare
    cases value
    · exact ⟨'f', ['a', 'l', 's', 'e'], rfl, rfl, by simp [isWordPart]⟩
    · exact ⟨'t', ['r', 'u', 'e'], rfl, rfl, by simp [isWordPart]⟩
  | symbol spare i =>
    refine wellSpelled_enclose (List.forall_mem_singleton.mpr ?_) spare
    exact ⟨i.first, i.more, rfl, i.first_isWordStart, i.more_isWordPart⟩
  | not spare l ih =>
    have hbang : Token.bang.WellSpelled := trivial
    exact wellSpelled_enclose (List.forall_mem_cons.mpr ⟨hbang, ih negated⟩) spare
  | binary spare op l r ihl ihr =>
    have hop : (Token.operator op).WellSpelled := trivial
    have hright := List.forall_mem_cons.mpr ⟨hop, ihr (op.strength + 1)⟩
    exact wellSpelled_enclose (List.forall_mem_append.mpr ⟨ihl op.strength, hright⟩) _

-- ---------------------------------------------------------------------------
-- Cutting a text into its tokens
-- ---------------------------------------------------------------------------

theorem not_blank_of_wordPart (h : isWordPart c) : Text.isBlank c = false := by
  by_cases hstart : isWordStart c
  · exact not_blank_of_wordStart hstart
  · have hdigit : 48 ≤ c.toNat ∧ c.toNat ≤ 57 := by
      simp_all [isWordPart, isWordStart, Char.isAlphanum, Char.isDigit, UInt32.le_iff_toNat_le]
    simp only [Text.isBlank, Text.inRanges, Text.blankRanges, List.any_cons, List.any_nil,
      Bool.or_false, Bool.or_eq_false_iff, Bool.and_eq_false_iff, decide_eq_false_iff_not]
    omega

theorem Spaced.head (h : Spaced ts cs) (ha : Alternates wanted ts)
    (hw : ∀ t ∈ ts, t.WellSpelled) (hd : d ∈ cs.head?) :
    (wanted = true → d ≠ '=') ∧ (wanted = false → ¬ isWordPart d) := by
  have hblank (hb : Text.isBlank d) : d ≠ '=' ∧ ¬ isWordPart d := by
    refine ⟨?_, fun hp => by simp [not_blank_of_wordPart hp] at hb⟩
    rintro rfl
    cases hb
  cases h with
  | done hb =>
    have := hblank (hb d (List.mem_of_mem_head? hd))
    tauto
  | @token blanks ts rest t hb _ =>
    cases blanks with
    | cons b blanks =>
      obtain rfl : b = d := Option.some.inj hd
      have := hblank (hb b (by simp))
      tauto
    | nil =>
      cases ha with
      | token t _ =>
        have ht := hw t (by simp)
        cases t with
        | word name =>
          obtain ⟨c, cs, rfl, hc, -⟩ := ht
          simp [Token.spelling] at hd
          subst hd
          refine ⟨fun _ => ?_, nofun⟩
          rintro rfl
          cases hc
        | operator op =>
          cases op <;> simp [Token.spelling] at hd <;> subst hd <;> simp [Token.opens] <;> decide
        | _ => simp [Token.spelling] at hd; subst hd; simp [Token.opens] <;> decide

theorem Lexeme.of_spelling (hw : t.WellSpelled)
    (hrest : ∀ d ∈ rest.head?, (t.closes = false → d ≠ '=') ∧ (t.closes = true → ¬ isWordPart d)) :
    Lexeme t t.spelling rest := by
  cases t with
  | operator op =>
    cases op with
    | or => exact .or
    | and => exact .and
    | equal => exact .equal
    | differ => exact .differ
  | bang => exact .bang fun heq => (hrest '=' heq).1 rfl rfl
  | opening => exact .opening
  | closing => exact .closing
  | word name =>
    obtain ⟨c, cs, rfl, hc, hcs⟩ := hw
    rw [Token.spelling, String.toList_ofList]
    exact .word hc hcs fun d hd => (hrest d hd).2 rfl

/-- A text of tokens in which operands begin only where they are wanted falls into these tokens. -/
theorem Spaced.splits (h : Spaced ts cs) (ha : Alternates wanted ts)
    (hw : ∀ t ∈ ts, t.WellSpelled) :
    ∃ body back, cs = body ++ back ∧ (∀ b ∈ back, Text.isBlank b) ∧ Splits body ts := by
  induction h generalizing wanted with
  | @done blanks hb => exact ⟨[], blanks, rfl, hb, .done⟩
  | @token blanks ts rest t hb hs ih =>
    obtain ⟨ht, hts⟩ := List.forall_mem_cons.mp hw
    cases ha with
    | token _ ha =>
      obtain ⟨body, back, rfl, hback, hsplits⟩ := ih ha hts
      refine ⟨blanks ++ (t.spelling ++ body), back, by simp, hback, .token hb ?_ hsplits⟩
      refine .of_spelling ht fun d hd => ?_
      have hd' : d ∈ (body ++ back).head? := by
        obtain ⟨more, rfl⟩ := List.head?_eq_some_iff.mp hd
        rfl
      simpa using hs.head ha hts hd'

theorem Lexeme.head (h : Lexeme t spelling rest) :
    ∃ c cs, spelling = c :: cs ∧ Text.isBlank c = false := by
  cases h with
  | word hc => exact ⟨_, _, rfl, not_blank_of_wordStart hc⟩
  | _ => exact ⟨_, _, rfl, by decide⟩

theorem Lexeme.last (h : Lexeme t spelling rest) :
    ∀ c ∈ spelling.getLast?, Text.isBlank c = false := by
  intro c hc
  cases h with
  | word hd hds =>
    rcases List.mem_cons.mp (List.mem_of_mem_getLast? hc) with rfl | hmem
    · exact not_blank_of_wordStart hd
    · exact not_blank_of_wordPart (hds c hmem)
  | _ => simp at hc; subst hc; decide

theorem Splits.endsInToken (h : Splits cs ts) : EndsInToken cs := by
  induction h with
  | done => nofun
  | token _ ht _ ih =>
    intro c hc
    rw [List.getLast?_append, List.getLast?_append] at hc
    obtain ⟨d, ds, rfl, -⟩ := ht.head
    rcases Option.or_eq_some_iff.mp hc with hc | ⟨hnone, -⟩
    · rcases Option.or_eq_some_iff.mp hc with hc | ⟨-, hc⟩
      · exact ih c hc
      · exact ht.last c hc
    · simp at hnone

theorem Splits.strip (h : Splits body ts) (hback : ∀ b ∈ back, Text.isBlank b) :
    Splits (Text.stripChars (body ++ back)) ts := by
  have hends := h.endsInToken
  cases h with
  | done =>
    have hnone : ∀ b ∈ ([] : List Char), Text.isBlank b := by simp
    have hempty : Text.stripChars ([] ++ back) = [] :=
      Text.stripChars_between hnone hback Text.stripped_nil
    rw [hempty]
    exact .done
  | @token blanks t spelling rest ts hb ht hr =>
    obtain ⟨c, cs, rfl, hc⟩ := ht.head
    have hstripped : Text.Stripped (c :: cs ++ rest) :=
      ⟨fun d hd => Option.some.inj hd ▸ hc, hends.of_append blanks⟩
    rw [List.append_assoc, Text.stripChars_between hb hback hstripped]
    exact .front ht hr

-- ---------------------------------------------------------------------------
-- Evaluating a text
-- ---------------------------------------------------------------------------

/-- A condition written with any parentheses that include those it needs, and any blanks, has as a
text the truth value of the condition. -/
theorem evalText_spaced (l : Layout) (text : String) (h : Spaced (l.tokens 0) text.toList)
    (hdepth : nesting [] (l.tokens 0) ≤ depthLimit) (defined : Symbols) :
    evalText text defined = .ok (decide (l.condition.IsTrue defined)) := by
  have hsentence : Sentence (l.tokens 0) l.condition := l.phrase .disjunction
  obtain ⟨body, back, htext, hback, hsplits⟩ :=
    h.splits (alternates_of_phrase hsentence) (l.wellSpelled 0)
  have htokens : tokens? (Text.stripChars text.toList) = some (l.tokens 0) := by
    rw [htext]
    exact tokens?_of_splits (hsplits.strip hback)
  have hread : read (l.tokens 0) = .ok l.condition := by
    refine (read_complete hsentence).resolve_left fun hdeep => ?_
    exact absurd (nesting_of_tooDeep hdeep) (Nat.not_lt.mpr hdepth)
  have hvalue : l.condition.eval defined = decide (l.condition.IsTrue defined) := by
    rw [Bool.eq_iff_iff, decide_eq_true_iff, eval_iff]
  rw [evalText, parse, htokens]
  simp only [hread, Except.map, hvalue]

def symbolA : Identifier := ⟨'A', [], rfl, nofun, by decide, by decide⟩

def symbolB : Identifier := ⟨'B', [], rfl, nofun, by decide, by decide⟩

def comparison : Layout := .binary 0 .equal (.symbol 0 symbolA) (.not 0 (.symbol 1 symbolB))

def comparisonText : String := "\tA==!(B)\u00a0"

theorem spaced_comparison : Spaced (comparison.tokens 0) comparisonText.toList := by
  have htab : ∀ b ∈ ['\t'], Text.isBlank b := List.forall_mem_singleton.mpr rfl
  have hspace : ∀ b ∈ ['\u00a0'], Text.isBlank b := List.forall_mem_singleton.mpr rfl
  exact (Spaced.tight hspace (comparison.tokens 0)).pad htab

theorem evalText_comparison :
    evalText comparisonText ["A"] = .ok true ∧ evalText comparisonText ["A", "B"] = .ok false := by
  have hdepth : nesting [] (comparison.tokens 0) ≤ depthLimit := by decide
  exact ⟨evalText_spaced comparison comparisonText spaced_comparison hdepth ["A"],
    evalText_spaced comparison comparisonText spaced_comparison hdepth ["A", "B"]⟩

end CategoryAudit.Condition
