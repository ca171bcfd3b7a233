import CategoryAudit.Proofs.Condition.Outcome

/-!
# What symbols matter to a condition

The symbols reach the value of a condition only through the names written in it, and whether there
is a value not at all: a counter tells a sentence from other tokens (`isSentence_iff`). So the right
operand of an operator has to be a sentence even if the left one decides the value.
-/

namespace CategoryAudit

-- ---------------------------------------------------------------------------
-- Changes of symbols
-- ---------------------------------------------------------------------------

namespace Symbols

def Change.name : Change → String
  | define name | undef name => name

@[simp] theorem mem_add (s : Symbols) (added name : String) :
    name ∈ s.add added ↔ name = added ∨ name ∈ s := by
  unfold add
  split
  · rename_i h
    rw [List.contains_iff_mem] at h
    refine ⟨.inr, ?_⟩
    rintro (rfl | hname)
    · exact h
    · exact hname
  · exact List.mem_cons

@[simp] theorem mem_remove (s : Symbols) (removed name : String) :
    name ∈ s.remove removed ↔ name ∈ s ∧ name ≠ removed := by
  simp [remove]

theorem mem_apply (s : Symbols) (change : Change) (name : String) :
    name ∈ s.apply change ↔ change = .define name ∨ name ∈ s ∧ change.name ≠ name := by
  cases change with
  | define added =>
    by_cases h : added = name
    · simp [apply, Change.name, h]
    · simp [apply, Change.name, h, Ne.symm h]
  | undef removed => simp [apply, Change.name, ne_comm]

theorem mem_update_of_ne {s : Symbols}
    (h : ∀ change, Change.ofText? text = some change → change.name ≠ name) :
    name ∈ s.update text ↔ name ∈ s := by
  unfold update
  split
  · rename_i change hchange
    have hne := h change hchange
    have hdefine : change ≠ .define name := fun heq => hne (heq ▸ rfl)
    simp [mem_apply, hne, hdefine]
  · rfl

end Symbols

namespace Condition

-- ---------------------------------------------------------------------------
-- The names in a condition
-- ---------------------------------------------------------------------------

def symbols : Condition → List String
  | constant _ => []
  | symbol name => [name]
  | not c => c.symbols
  | binary _ l r => l.symbols ++ r.symbols

theorem eval_congr {c : Condition} (h : ∀ name ∈ c.symbols, name ∈ s ↔ name ∈ t) :
    c.eval s = c.eval t := by
  induction c with
  | constant value => rfl
  | symbol name =>
    apply Bool.eq_iff_iff.mpr
    simpa only [eval, List.contains_iff_mem] using h name List.mem_cons_self
  | not c ih => rw [eval, eval, ih h]
  | binary op l r ihl ihr =>
    rw [eval, eval, ihl fun name hn => h name (List.mem_append_left _ hn),
      ihr fun name hn => h name (List.mem_append_right _ hn)]

theorem Phrase.mem_symbols (h : Phrase n ts c) (name : String) :
    name ∈ c.symbols ↔ .word name ∈ ts ∧ name ≠ "true" ∧ name ≠ "false" := by
  induction h with
  | conjunction _ ih | equality _ ih | unary _ ih => exact ih
  | or _ _ ihl ihr | and _ _ ihl ihr | equal _ _ ihl ihr | differ _ _ ihl ihr =>
    simp [symbols, ihl, ihr, or_and_right]
  | negation _ ih => simp [symbols, ih]
  | parenthesis _ ih => simp [ih]
  | true | false => simp +contextual [symbols]
  | symbol ht hf =>
    simp only [symbols, List.mem_singleton, Token.word.injEq]
    refine ⟨?_, And.left⟩
    rintro rfl
    exact ⟨rfl, ht, hf⟩

-- ---------------------------------------------------------------------------
-- Sentences by counting
-- ---------------------------------------------------------------------------

/-- Whether some tokens go on to the end of a condition within `opened` parentheses, where
`awaited` says that an operand comes next. -/
def completes : (awaited : Bool) → (opened : Nat) → List Token → Bool
  | true, opened, .bang :: rest => completes true opened rest
  | true, opened, .opening :: rest => completes true (opened + 1) rest
  | true, opened, .word _ :: rest => completes false opened rest
  | false, opened, .operator _ :: rest => completes true opened rest
  | false, opened + 1, .closing :: rest => completes false opened rest
  | false, 0, [] => true
  | _, _, _ => false

theorem Phrase.completes_append (h : Phrase n ts c) (opened : Nat) (rest : List Token) :
    completes Bool.true opened (ts ++ rest) = completes Bool.false opened rest := by
  induction h generalizing opened rest with
  | conjunction _ ih | equality _ ih | unary _ ih => exact ih opened rest
  | or _ _ ihl ihr | and _ _ ihl ihr | equal _ _ ihl ihr | differ _ _ ihl ihr =>
    rw [List.append_assoc, ihl, List.cons_append, completes, ihr]
  | negation _ ih => exact ih opened rest
  | parenthesis _ ih =>
    rw [List.cons_append, completes, List.append_assoc, ih, List.singleton_append, completes]
  | true | false | symbol => rfl

def openings : List Pending → Nat
  | [] => 0
  | .parenthesis :: rest => openings rest + 1
  | .negation :: rest | .operand .. :: rest => openings rest

theorem openings_applyNegations (c : Condition) (stack : List Pending) :
    openings (applyNegations c stack).2 = openings stack := by
  fun_induction applyNegations c stack with
  | case1 c rest ih => exact ih
  | case2 => rfl

theorem openings_applyOperators (k : Nat) (c : Condition) (stack : List Pending) :
    openings (applyOperators k c stack).2 = openings stack := by
  fun_induction applyOperators k c stack with
  | case1 c op left rest _ ih => exact ih
  | case2 | case3 => rfl

theorem sentence_of_completes (rest : List Token) :
    (∀ ts stack, Waits ts stack → completes true (openings stack) rest = true →
      IsSentence (ts ++ rest)) ∧
    (∀ ts c stack, Holds .unary ts c stack → Below 3 stack →
      completes false (openings stack) rest = true → IsSentence (ts ++ rest)) := by
  induction rest with
  | nil =>
    refine ⟨fun ts stack _ h => by simp [completes] at h, ?_⟩
    intro ts c stack hh hb h
    obtain ⟨m, -, hm, hz⟩ := applyOperators_holds hh hb (Nat.zero_le _)
    have hcount := openings_applyOperators 0 c stack
    rcases below_zero hz with hnone | ⟨stack', hsome⟩
    · rw [hnone] at hm
      exact ⟨_, by simpa using hm.sentence⟩
    · rw [hsome] at hcount
      rw [← hcount] at h
      cases h
  | cons t rest ih =>
    obtain ⟨ihOperand, ihOperator⟩ := ih
    constructor
    · intro ts stack hw h
      cases t with
      | bang => simpa using ihOperand _ _ hw.negation h
      | opening => simpa using ihOperand _ _ hw.parenthesis h
      | word name =>
        obtain ⟨hh, hb⟩ := applyNegations_holds (hw.hold (Phrase.ofWord name))
        simpa using ihOperator _ _ _ hh hb (by rwa [openings_applyNegations])
      | closing | operator => cases h
    · intro ts c stack hh hb h
      cases t with
      | operator op =>
        have hcount := openings_applyOperators op.strength c stack
        rw [← hcount] at h
        simpa using ihOperand _ _ (hh.operator hb) h
      | closing =>
        obtain ⟨m, -, hm, hz⟩ := applyOperators_holds hh hb (Nat.zero_le _)
        have hcount := openings_applyOperators 0 c stack
        rw [← hcount] at h
        rcases below_zero hz with hnone | ⟨stack', hsome⟩
        · rw [hnone] at h
          cases h
        · rw [hsome] at hm h
          obtain ⟨hh', hb'⟩ := applyNegations_holds hm.close
          simpa using ihOperator _ _ _ hh' hb' (by rwa [openings_applyNegations])
      | bang | opening | word => cases h

theorem isSentence_iff : IsSentence ts ↔ completes true 0 ts = true := by
  constructor
  · rintro ⟨c, hc⟩
    rw [← List.append_nil ts, hc.completes_append]
    rfl
  · exact (sentence_of_completes ts).1 [] [] .start

instance (ts : List Token) : Decidable (IsSentence ts) := decidable_of_iff _ isSentence_iff.symm

theorem isSentence_operator (op : Operator) (h : IsSentence ls) :
    IsSentence (ls ++ .operator op :: rs) ↔ IsSentence rs := by
  obtain ⟨c, hc⟩ := h
  rw [isSentence_iff, isSentence_iff, hc.completes_append, completes]

-- ---------------------------------------------------------------------------
-- Two sets of symbols
-- ---------------------------------------------------------------------------

/-- Two sets of symbols with the same names of a text, other than the constants. -/
def Agree (text : String) (s t : Symbols) : Prop :=
  ∀ ts, Splits (Text.stripChars text.toList) ts → ∀ name, .word name ∈ ts →
    name ≠ "true" → name ≠ "false" → (name ∈ s ↔ name ∈ t)

theorem evalText_error : evalText text s = .error fault ↔ parse text = .error fault := by
  unfold evalText
  cases parse text <;> simp [Except.map]

theorem evalText_agree (h : Agree text s t) : evalText text s = evalText text t := by
  unfold evalText
  cases hp : parse text with
  | error fault => rfl
  | ok c =>
    unfold parse at hp
    split at hp
    · cases hp
    · rename_i ts hts
      have hsplits := tokens?_strip_iff.mp hts
      have hc := read_sound hp
      refine congrArg Except.ok (eval_congr fun name hn => ?_)
      obtain ⟨hword, htrue, hfalse⟩ := (hc.mem_symbols name).mp hn
      exact h ts hsplits name hword htrue hfalse

theorem test_run' (text : String) (line : Int) (defined : Symbols) :
    (Outline.test text line).run' defined = match evalText text defined with
      | .ok value => .ok value
      | .error fault => .error (.badCondition fault text line) := by
  have hrun : Outline.test text line defined = _ := test_run text line defined
  rw [StateT.run', hrun]
  cases evalText text defined <;> rfl

theorem test_error : (Outline.test text line).run' defined = .error e ↔
    ∃ fault, parse text = .error fault ∧ e = .badCondition fault text line := by
  rw [test_run']
  cases hv : evalText text defined with
  | ok value =>
    have hno (fault : Fault) : parse text ≠ .error fault := fun h => by
      rw [evalText_error.mpr h] at hv
      cases hv
    simp [hno]
  | error fault =>
    rw [evalText_error] at hv
    simp [hv, eq_comm]

theorem test_of_not_sentence (hs : Splits (Text.stripChars text.toList) ts) (h : ¬ IsSentence ts) :
    ∃ fault, ∀ defined,
      (Outline.test text line).run' defined = .error (.badCondition fault text line) := by
  have hparse : parse text = read ts := by rw [parse, tokens?_strip_iff.mpr hs]
  cases hr : read ts with
  | ok c => exact absurd ⟨c, read_sound hr⟩ h
  | error fault => exact ⟨fault, fun defined => test_error.mpr ⟨fault, hparse.trans hr, rfl⟩⟩

/-- For every text, symbols that agree on the names written in it lead to the same outcome, and all
symbols to the same errors. A text whose tokens are no sentence has one error for all symbols, also
if it begins with an operand that decides the value. Defining or undefining `true` or `false` makes
no difference. -/
theorem test_symbols (text : String) (line : Int) :
    (∀ s t, Agree text s t →
      (Outline.test text line).run' s = (Outline.test text line).run' t) ∧
    (∀ s t e, (Outline.test text line).run' s = .error e ↔
      (Outline.test text line).run' t = .error e) ∧
    (∀ ts, Splits (Text.stripChars text.toList) ts → ¬ IsSentence ts →
      ∃ fault, ∀ defined,
        (Outline.test text line).run' defined = .error (.badCondition fault text line)) ∧
    (∀ ls op rs, Splits (Text.stripChars text.toList) (ls ++ .operator op :: rs) →
      IsSentence ls → ¬ IsSentence rs →
      ∃ fault, ∀ defined,
        (Outline.test text line).run' defined = .error (.badCondition fault text line)) ∧
    (∀ directive change, Symbols.Change.ofText? directive = some change →
      change.name = "true" ∨ change.name = "false" →
      ∀ s : Symbols, (Outline.test text line).run' (s.update directive) =
        (Outline.test text line).run' s) := by
  have hagree (s t : Symbols) (h : Agree text s t) :
      (Outline.test text line).run' s = (Outline.test text line).run' t := by
    rw [test_run', test_run', evalText_agree h]
  refine ⟨hagree, ?_, fun ts => test_of_not_sentence, ?_, ?_⟩
  · intro s t e
    rw [test_error, test_error]
  · intro ls op rs hs hl hr
    exact test_of_not_sentence hs fun h => hr ((isSentence_operator op hl).mp h)
  · intro directive change hchange hconstant s
    refine hagree _ _ fun ts _ name _ htrue hfalse => Symbols.mem_update_of_ne ?_
    intro change' hchange' hname
    rw [hchange, Option.some.injEq] at hchange'
    subst hchange' hname
    exact hconstant.elim htrue hfalse

theorem test_decided :
    (∃ fault, ∀ defined, (Outline.test "true || A &&" 3).run' defined =
      .error (.badCondition fault "true || A &&" 3)) ∧
    ∀ s : Symbols, (Outline.test "false || A" 3).run' (s.update "#define false") =
      (Outline.test "false || A" 3).run' s := by
  have hsplits : Splits (Text.stripChars "true || A &&".toList)
      ([.word "true"] ++ .operator .or :: [.word "A", .operator .and]) :=
    tokens?_strip_iff.mp (by cbv)
  have hchange : Symbols.Change.ofText? "#define false" = some (.define "false") := by cbv
  exact ⟨(test_symbols _ 3).2.2.2.1 _ _ _ hsplits (by decide) (by decide),
    (test_symbols _ 3).2.2.2.2 _ _ hchange (.inr rfl)⟩

end Condition

end CategoryAudit
