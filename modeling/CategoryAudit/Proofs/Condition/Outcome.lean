import CategoryAudit.Outline
import CategoryAudit.Proofs.Condition.Grammar
import CategoryAudit.Proofs.Condition.Lexing

/-!
# What evaluating a condition comes to

A text that does not fall into tokens is invalid. Of token lists, the sentences have a value, those
that some further tokens would make a sentence are incomplete, and all others are faulty at some
token (`test_outcome`). The one exception is a condition with too many parentheses and negations
within each other; `nesting` counts them.
-/

namespace CategoryAudit.Condition

def IsSentence (ts : List Token) : Prop := ∃ c, Sentence ts c

def Viable (ts : List Token) : Prop := ∃ us, IsSentence (ts ++ us)

-- ---------------------------------------------------------------------------
-- Faults at a token
-- ---------------------------------------------------------------------------

/-- A fault other than a missing end does not depend on the tokens after it. -/
theorem reading_fault_append (ts us : List Token) (hf : f ≠ .incomplete) :
    (∀ stack, readOperand stack ts = .error f → readOperand stack (ts ++ us) = .error f) ∧
    (∀ c stack, readOperator c stack ts = .error f →
      readOperator c stack (ts ++ us) = .error f) := by
  induction ts with
  | nil =>
    constructor
    · intro stack h
      cases h
      exact absurd rfl hf
    · intro c stack h
      simp only [readOperator] at h
      split at h
      · cases h
      · cases h
        exact absurd rfl hf
  | cons t ts ih =>
    obtain ⟨ihOperand, ihOperator⟩ := ih
    constructor
    · intro stack h
      cases t with
      | bang | opening =>
        simp only [List.cons_append, readOperand] at h ⊢
        split
        · rename_i hd
          simpa [hd] using h
        · rename_i hd
          exact ihOperand _ (by simpa [hd] using h)
      | word name => exact ihOperator _ _ h
      | closing | operator => exact h
    · intro c stack h
      cases t with
      | operator op => exact ihOperand _ h
      | closing =>
        simp only [List.cons_append, readOperator] at h ⊢
        split
        · rename_i inner stack' heq
          simp only [heq] at h
          exact ihOperator _ _ h
        · rename_i hne
          split at h
          · rename_i heq
            exact absurd heq (hne _ _)
          · exact h
      | bang | opening | word => exact h

theorem not_viable_of_fault (h : read ts = .error f) (hi : f ≠ .incomplete) (hd : f ≠ .tooDeep) :
    ¬ Viable ts := by
  rintro ⟨us, c, hs⟩
  have hf := (reading_fault_append ts us hi).1 [] h
  rcases read_complete hs with hr | hr
  · exact hd (Except.error.inj (hf.symm.trans hr))
  · exact nomatch hf.symm.trans hr

-- ---------------------------------------------------------------------------
-- Missing ends
-- ---------------------------------------------------------------------------

theorem length_applyNegations (c : Condition) (stack : List Pending) :
    (applyNegations c stack).2.length ≤ stack.length := by
  fun_induction applyNegations c stack with
  | case1 c rest ih => exact Nat.le_succ_of_le ih
  | case2 => exact Nat.le_refl _

theorem length_applyOperators (k : Nat) (c : Condition) (stack : List Pending) :
    (applyOperators k c stack).2.length ≤ stack.length := by
  fun_induction applyOperators k c stack with
  | case1 c op left rest _ ih => exact Nat.le_succ_of_le ih
  | case2 | case3 => exact Nat.le_refl _

theorem readOperator_completed (hh : Holds .unary ts c stack) (hb : Below 3 stack) :
    ∃ us w, readOperator c stack us = .ok w := by
  induction hn : stack.length using Nat.strongRecOn generalizing ts c stack with
  | ind n ih =>
    obtain ⟨m, -, hm, hz⟩ := applyOperators_holds hh hb (Nat.zero_le _)
    have hlen := length_applyOperators 0 c stack
    rcases hz' : applyOperators 0 c stack with ⟨inner, stack'⟩
    rw [hz'] at hm hz hlen
    rcases below_zero hz with rfl | ⟨rest, rfl⟩
    · exact ⟨[], inner, by rw [readOperator, hz']⟩
    · obtain ⟨hh', hb'⟩ := applyNegations_holds hm.close
      have hshort : (applyNegations inner rest).2.length < n := by
        have := length_applyNegations inner rest
        simp only [List.length_cons] at hlen
        omega
      obtain ⟨us, w, hus⟩ := ih _ hshort hh' hb' rfl
      exact ⟨.closing :: us, w, by rw [readOperator, hz']; exact hus⟩

theorem readOperand_completed (hw : Waits ts stack) : ∃ us w, readOperand stack us = .ok w := by
  obtain ⟨hh, hb⟩ := applyNegations_holds (hw.hold (Phrase.ofWord "true"))
  obtain ⟨us, w, hus⟩ := readOperator_completed hh hb
  exact ⟨.word "true" :: us, w, hus⟩

theorem reading_incomplete (rest : List Token) :
    (∀ ts stack, Waits ts stack → readOperand stack rest = .error .incomplete →
      ∃ us w, readOperand stack (rest ++ us) = .ok w) ∧
    (∀ ts c stack, Holds .unary ts c stack → Below 3 stack →
      readOperator c stack rest = .error .incomplete →
      ∃ us w, readOperator c stack (rest ++ us) = .ok w) := by
  induction rest with
  | nil => exact ⟨fun ts stack hw _ => readOperand_completed hw,
      fun ts c stack hh hb _ => readOperator_completed hh hb⟩
  | cons t rest ih =>
    obtain ⟨ihOperand, ihOperator⟩ := ih
    constructor
    · intro ts stack hw h
      cases t with
      | bang =>
        simp only [List.cons_append, readOperand] at h ⊢
        split at h
        · cases h
        · rename_i hd
          simpa [hd] using ihOperand _ _ hw.negation h
      | opening =>
        simp only [List.cons_append, readOperand] at h ⊢
        split at h
        · cases h
        · rename_i hd
          simpa [hd] using ihOperand _ _ hw.parenthesis h
      | word name =>
        obtain ⟨hh, hb⟩ := applyNegations_holds (hw.hold (Phrase.ofWord name))
        exact ihOperator _ _ _ hh hb h
      | closing | operator => cases h
    · intro ts c stack hh hb h
      cases t with
      | operator op => exact ihOperand _ _ (hh.operator hb) h
      | closing =>
        obtain ⟨m, -, hm, -⟩ := applyOperators_holds hh hb (Nat.zero_le _)
        simp only [List.cons_append, readOperator] at h ⊢
        split at h
        · rename_i inner stack' heq
          rw [heq] at hm
          obtain ⟨hh', hb'⟩ := applyNegations_holds hm.close
          simpa [heq] using ihOperator _ _ _ hh' hb' h
        · cases h
      | bang | opening | word =>
        simp only [readOperator] at h
        split at h <;> cases h

theorem viable_of_incomplete (h : read ts = .error .incomplete) : Viable ts := by
  obtain ⟨us, w, hw⟩ := (reading_incomplete ts).1 [] [] .start h
  exact ⟨us, w, read_sound hw⟩

-- ---------------------------------------------------------------------------
-- Nesting
-- ---------------------------------------------------------------------------

/-- The greatest number of parentheses and negations that are open at once, where those in `opened`
are from the start, innermost first. An operand ends the negations directly before it. -/
def nesting (opened : List Token) : List Token → Nat
  | [] => opened.length
  | .bang :: rest => nesting (.bang :: opened) rest
  | .opening :: rest => nesting (.opening :: opened) rest
  | .word _ :: rest => max opened.length (nesting (opened.dropWhile (· == .bang)) rest)
  | .closing :: rest => max opened.length (nesting (opened.tail.dropWhile (· == .bang)) rest)
  | .operator _ :: rest => nesting opened rest

theorem le_nesting (opened ts : List Token) : opened.length ≤ nesting opened ts := by
  fun_induction nesting opened ts with
  | case1 => exact Nat.le_refl _
  | case2 opened rest ih | case3 opened rest ih => exact Nat.le_of_succ_le ih
  | case4 | case5 => exact Nat.le_max_left ..
  | case6 opened op rest ih => exact ih

def marks : List Pending → List Token
  | [] => []
  | .negation :: rest => .bang :: marks rest
  | .parenthesis :: rest => .opening :: marks rest
  | .operand .. :: rest => marks rest

theorem length_marks (stack : List Pending) :
    (marks stack).length = stack.countP Pending.isNesting := by
  fun_induction marks stack with
  | case1 => rfl
  | case2 rest ih => rw [List.length_cons, ih, List.countP_cons_of_pos rfl]
  | case3 rest ih => rw [List.length_cons, ih, List.countP_cons_of_pos rfl]
  | case4 op left rest ih => rw [ih, List.countP_cons_of_neg Bool.false_ne_true]

theorem marks_applyOperators (k : Nat) (c : Condition) (stack : List Pending) :
    marks (applyOperators k c stack).2 = marks stack := by
  fun_induction applyOperators k c stack with
  | case1 c op left rest _ ih => exact ih
  | case2 | case3 => rfl

theorem Waits.dropWhile_marks (hw : Waits ts stack) (hb : Below k stack) :
    (marks stack).dropWhile (· == .bang) = marks stack := by
  induction hw generalizing k with
  | start => rfl
  | negation => exact hb.elim
  | parenthesis => rfl
  | operand _ hb' _ ih => exact ih hb'

theorem marks_applyNegations (hh : Holds .unary ts c stack) :
    marks (applyNegations c stack).2 = (marks stack).dropWhile (· == .bang) := by
  induction stack generalizing c with
  | nil => rfl
  | cons p stack ih =>
    cases p with
    | negation => exact ih hh.negate
    | parenthesis => rfl
    | operand op left =>
      obtain ⟨_, _, rfl, hw, _⟩ := hh
      exact (hw.dropWhile_marks op.strength_lt).symm

theorem reading_tooDeep (rest : List Token) :
    (∀ ts stack, Waits ts stack → readOperand stack rest = .error .tooDeep →
      depthLimit < nesting (marks stack) rest) ∧
    (∀ ts c stack, Holds .unary ts c stack → Below 3 stack →
      readOperator c stack rest = .error .tooDeep → depthLimit < nesting (marks stack) rest) := by
  induction rest with
  | nil =>
    refine ⟨fun ts stack _ h => by simp [readOperand] at h, ?_⟩
    intro ts c stack _ _ h
    simp only [readOperator] at h
    split at h <;> cases h
  | cons t rest ih =>
    obtain ⟨ihOperand, ihOperator⟩ := ih
    constructor
    · intro ts stack hw h
      cases t with
      | bang =>
        simp only [readOperand] at h
        split at h
        · rename_i hd
          rw [← length_marks] at hd
          exact Nat.lt_of_lt_of_le (Nat.lt_succ_of_le hd) (le_nesting (.bang :: marks stack) rest)
        · exact ihOperand _ _ hw.negation h
      | opening =>
        simp only [readOperand] at h
        split at h
        · rename_i hd
          rw [← length_marks] at hd
          exact Nat.lt_of_lt_of_le (Nat.lt_succ_of_le hd)
            (le_nesting (.opening :: marks stack) rest)
        · exact ihOperand _ _ hw.parenthesis h
      | word name =>
        have hh := hw.hold (Phrase.ofWord name)
        obtain ⟨hh', hb'⟩ := applyNegations_holds hh
        have hlt := ihOperator _ _ _ hh' hb' h
        rw [marks_applyNegations hh] at hlt
        exact Nat.lt_of_lt_of_le hlt (Nat.le_max_right ..)
      | closing | operator => cases h
    · intro ts c stack hh hb h
      cases t with
      | operator op =>
        have hlt := ihOperand _ _ (hh.operator hb) h
        rwa [marks, marks_applyOperators] at hlt
      | closing =>
        obtain ⟨m, -, hm, -⟩ := applyOperators_holds hh hb (Nat.zero_le _)
        have hmarks := marks_applyOperators 0 c stack
        simp only [readOperator] at h
        split at h
        · rename_i inner stack' heq
          rw [heq] at hm hmarks
          obtain ⟨hh', hb'⟩ := applyNegations_holds hm.close
          have hlt := ihOperator _ _ _ hh' hb' h
          rw [marks_applyNegations hm.close] at hlt
          rw [← hmarks, marks, nesting]
          exact Nat.lt_of_lt_of_le hlt (Nat.le_max_right ..)
        · cases h
      | bang | opening | word =>
        simp only [readOperator] at h
        split at h <;> cases h

theorem nesting_of_tooDeep (h : read ts = .error .tooDeep) : depthLimit < nesting [] ts :=
  (reading_tooDeep ts).1 [] [] .start h

-- ---------------------------------------------------------------------------
-- All outcomes
-- ---------------------------------------------------------------------------

theorem read_outcome (hd : read ts ≠ .error .tooDeep) :
    (∀ c, read ts = .ok c ↔ Sentence ts c) ∧
    (read ts = .error .incomplete ↔ ¬ IsSentence ts ∧ Viable ts) ∧
    (read ts = .error .invalid ∨ read ts = .error .unbalanced ↔ ¬ Viable ts) := by
  have hok : ∀ c, read ts = .ok c ↔ Sentence ts c := fun c =>
    ⟨read_sound, fun h => (read_complete h).resolve_left hd⟩
  have hviable : IsSentence ts → Viable ts := fun ⟨c, h⟩ => ⟨[], c, by simpa using h⟩
  have hno (h : ∀ c, read ts ≠ .ok c) : ¬ IsSentence ts := fun ⟨c, hs⟩ => h c ((hok c).mpr hs)
  refine ⟨hok, ?_⟩
  cases hr : read ts with
  | ok c =>
    have hs : IsSentence ts := ⟨c, read_sound hr⟩
    simp [hs, hviable hs]
  | error f =>
    have hs : ¬ IsSentence ts := hno (by simp [hr])
    cases f with
    | incomplete => simp [hs, viable_of_incomplete hr]
    | tooDeep => exact absurd hr hd
    | invalid => simp [not_viable_of_fault hr (by decide) (by decide)]
    | unbalanced => simp [not_viable_of_fault hr (by decide) (by decide)]

theorem test_run (text : String) (line : Int) (defined : Symbols) :
    (Outline.test text line).run defined = match evalText text defined with
      | .ok value => .ok (value, defined)
      | .error fault => .error (.badCondition fault text line) := by
  simp only [Outline.test, StateT.run_bind, StateT.run_get, pure_bind]
  cases evalText text defined <;> rfl

theorem test_run_tokens (h : Splits (Text.stripChars text.toList) ts) :
    (Outline.test text line).run defined = match read ts with
      | .ok c => .ok (c.eval defined, defined)
      | .error fault => .error (.badCondition fault text line) := by
  have hparse : parse text = read ts := by rw [parse, tokens?_strip_iff.mpr h]
  rw [test_run, evalText, hparse]
  cases read ts <;> rfl

/-- Evaluating a condition on a line, for every text and all defined symbols: what it comes to when
the text does not fall into tokens, what when it falls into the tokens `ts`, and how the faults
read. -/
theorem test_outcome (text : String) (line : Int) (defined : Symbols) :
    ((¬ ∃ ts, Splits (Text.stripChars text.toList) ts) →
      (Outline.test text line).run defined = .error (.badCondition .invalid text line)) ∧
    (∀ ts, Splits (Text.stripChars text.toList) ts →
      (Outline.test text line).run defined = .error (.badCondition .tooDeep text line) ∧
          depthLimit < nesting [] ts ∨
        (∀ value, (Outline.test text line).run defined = .ok (value, defined) ↔
          ∃ c, Sentence ts c ∧ c.eval defined = value) ∧
        ((Outline.test text line).run defined = .error (.badCondition .incomplete text line) ↔
          ¬ IsSentence ts ∧ Viable ts) ∧
        ((Outline.test text line).run defined = .error (.badCondition .invalid text line) ∨
            (Outline.test text line).run defined = .error (.badCondition .unbalanced text line) ↔
          ¬ Viable ts)) ∧
    (ParseError.badCondition .invalid text line).message =
        s!"invalid preprocessor condition '{Text.strip text}' near line {line}" ∧
    (ParseError.badCondition .incomplete text line).message =
        s!"incomplete preprocessor condition '{Text.strip text}' near line {line}" ∧
    (ParseError.badCondition .unbalanced text line).message =
        s!"unbalanced parentheses in preprocessor condition near line {line}" := by
  refine ⟨?_, ?_, rfl, rfl, rfl⟩
  · intro hno
    have hnone : tokens? (Text.stripChars text.toList) = none := by
      cases ht : tokens? (Text.stripChars text.toList) with
      | none => rfl
      | some ts => exact absurd ⟨ts, tokens?_strip_iff.mp ht⟩ hno
    rw [test_run, evalText, parse, hnone]
    rfl
  · intro ts hs
    rw [test_run_tokens hs]
    by_cases hd : read ts = .error .tooDeep
    · exact .inl ⟨by rw [hd], nesting_of_tooDeep hd⟩
    · obtain ⟨hok, hincomplete, hfault⟩ := read_outcome hd
      refine .inr ⟨fun value => ?_, ?_, ?_⟩
      · simp only [← hok]
        cases read ts <;> simp
      · rw [← hincomplete]
        cases read ts <;> simp
      · rw [← hfault]
        cases read ts <;> simp

section
variable (n : Nat)

theorem splits_negations :
    Splits (.replicate n '!' ++ ['A']) (.replicate n .bang ++ [.word "A"]) := by
  induction n with
  | zero =>
    have hword : Lexeme (.word "A") ['A'] [] := .word rfl (by simp) (by simp)
    have hsplits := Splits.front hword .done
    exact hsplits
  | succ n ih =>
    have hbang : Lexeme .bang ['!'] (.replicate n '!' ++ ['A']) := by
      refine .bang ?_
      cases n <;> simp [List.replicate_succ]
    have hsplits := Splits.front hbang ih
    exact hsplits

theorem sentence_negations : IsSentence (.replicate n .bang ++ [.word "A"]) := by
  have hunary : ∃ c, Phrase .unary (.replicate n .bang ++ [.word "A"]) c := by
    induction n with
    | zero => exact ⟨_, Phrase.ofWord "A"⟩
    | succ n ih =>
      obtain ⟨c, hc⟩ := ih
      exact ⟨_, hc.negation⟩
  obtain ⟨c, hc⟩ := hunary
  exact ⟨c, hc.loosen (Nat.zero_le _)⟩

theorem readOperand_negations (k : Nat) (h : depthLimit ≤ k + n) :
    readOperand (.replicate k .negation) (.replicate (n + 1) .bang ++ rest) = .error .tooDeep := by
  have hcount (k : Nat) : (List.replicate k Pending.negation).countP Pending.isNesting = k := by
    rw [List.countP_replicate]
    rfl
  induction n generalizing k with
  | zero =>
    rw [List.replicate_succ, List.cons_append, readOperand, hcount, if_pos (by omega)]
  | succ n ih =>
    rw [List.replicate_succ, List.cons_append, readOperand, hcount]
    split
    · rfl
    · exact ih (k + 1) (by omega)

theorem read_negations (h : depthLimit ≤ n) :
    read (.replicate (n + 1) .bang ++ rest) = .error .tooDeep :=
  readOperand_negations n 0 (by omega)

theorem stripChars_negations :
    Text.stripChars (.replicate (n + 1) '!' ++ ['A']) = .replicate (n + 1) '!' ++ ['A'] := by
  have hbang : Text.isBlank '!' = false := by decide
  have hword : Text.isBlank 'A' = false := by decide
  rw [Text.stripChars, List.replicate_succ, List.cons_append,
    List.dropWhile_cons_of_neg (by simp [hbang])]
  simp [hword]

def negations : String := String.ofList (.replicate n '!' ++ ['A'])

/-- A sentence with more negations than the limit has no value. -/
theorem test_negations (h : depthLimit ≤ n) :
    ∃ ts, Splits (Text.stripChars (negations (n + 1)).toList) ts ∧ IsSentence ts ∧
      ∀ value, (Outline.test (negations (n + 1)) line).run defined ≠ .ok (value, defined) := by
  have hsplits : Splits (Text.stripChars (negations (n + 1)).toList)
      (.replicate (n + 1) .bang ++ [.word "A"]) := by
    rw [negations, String.toList_ofList, stripChars_negations]
    exact splits_negations (n + 1)
  refine ⟨_, hsplits, sentence_negations (n + 1), fun value => ?_⟩
  rw [test_run_tokens hsplits, read_negations n h]
  nofun

end

/-- Not every sentence has a value. -/
theorem negations_too_deep :
    ∃ ts, Splits (Text.stripChars (negations 2000).toList) ts ∧ IsSentence ts ∧
      ∀ value, (Outline.test (negations 2000) 1).run [] ≠ .ok (value, []) :=
  test_negations 1999 (by decide)

end CategoryAudit.Condition
