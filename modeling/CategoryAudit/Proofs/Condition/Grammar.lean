import CategoryAudit.Condition

/-!
# The grammar of conditions

`Phrase` is the grammar, one constructor for each production, with the condition that a derivation
builds: `or ::= and ('||' and)*` and so on down to single words. Reading accepts exactly the
sentences of this grammar and builds the condition of their derivation (`read_sound`,
`read_complete`).

The reader keeps a stack of what waits for an operand. `Waits` relates a stack to the tokens read
so far; every step of the reader preserves it. Reading gives up on conditions that are nested too
deeply, which the grammar knows nothing of, so completeness leaves this outcome open.
-/

namespace CategoryAudit.Condition

inductive Nonterminal
  | disjunction
  | conjunction
  | equality
  | unary
  deriving BEq, DecidableEq, Repr

/-- The tokens of each nonterminal and the condition they stand for. Repetitions group to the
left; the words `true` and `false` are constants and all others symbols. -/
inductive Phrase : Nonterminal → List Token → Condition → Prop
  | conjunction : Phrase .conjunction ts c → Phrase .disjunction ts c
  | or : Phrase .disjunction ts l → Phrase .conjunction us r →
      Phrase .disjunction (ts ++ .operator .or :: us) (.binary .or l r)
  | equality : Phrase .equality ts c → Phrase .conjunction ts c
  | and : Phrase .conjunction ts l → Phrase .equality us r →
      Phrase .conjunction (ts ++ .operator .and :: us) (.binary .and l r)
  | unary : Phrase .unary ts c → Phrase .equality ts c
  | equal : Phrase .equality ts l → Phrase .unary us r →
      Phrase .equality (ts ++ .operator .equal :: us) (.binary .equal l r)
  | differ : Phrase .equality ts l → Phrase .unary us r →
      Phrase .equality (ts ++ .operator .differ :: us) (.binary .differ l r)
  | negation : Phrase .unary ts c → Phrase .unary (.bang :: ts) (.not c)
  | parenthesis : Phrase .disjunction ts c → Phrase .unary (.opening :: (ts ++ [.closing])) c
  | true : Phrase .unary [.word "true"] (.constant true)
  | false : Phrase .unary [.word "false"] (.constant false)
  | symbol : name ≠ "true" → name ≠ "false" → Phrase .unary [.word name] (.symbol name)

abbrev Sentence (ts : List Token) (c : Condition) : Prop := Phrase .disjunction ts c

-- ---------------------------------------------------------------------------
-- Phrases by the strength of their operators
-- ---------------------------------------------------------------------------

def Nonterminal.strength : Nonterminal → Nat
  | .disjunction => 0
  | .conjunction => 1
  | .equality => 2
  | .unary => 3

def Operator.whole : Operator → Nonterminal
  | .or => .disjunction
  | .and => .conjunction
  | .equal | .differ => .equality

def Operator.right : Operator → Nonterminal
  | .or => .conjunction
  | .and => .equality
  | .equal | .differ => .unary

@[simp] theorem Operator.strength_whole (op : Operator) : op.whole.strength = op.strength := by
  cases op <;> rfl

@[simp] theorem Operator.strength_right (op : Operator) : op.right.strength = op.strength + 1 := by
  cases op <;> rfl

theorem Operator.strength_lt (op : Operator) : op.strength < 3 := by
  cases op <;> decide

theorem Phrase.binary (op : Operator) (hl : Phrase op.whole ts l) (hr : Phrase op.right us r) :
    Phrase op.whole (ts ++ .operator op :: us) (.binary op l r) := by
  cases op with
  | or => exact .or hl hr
  | and => exact .and hl hr
  | equal => exact .equal hl hr
  | differ => exact .differ hl hr

theorem Phrase.ofWord (name : String) : Phrase .unary [.word name] (ofWord name) := by
  unfold Condition.ofWord
  split
  · rename_i h; rw [eq_of_beq h]; exact .true
  · rename_i ht
    split
    · rename_i h; rw [eq_of_beq h]; exact .false
    · rename_i hf; exact .symbol (by simpa using ht) (by simpa using hf)

theorem Phrase.loosen (h : Phrase n ts c) (hm : m.strength ≤ n.strength) : Phrase m ts c := by
  cases n with
  | disjunction =>
    cases m <;> simp [Nonterminal.strength] at hm
    exact h
  | conjunction =>
    cases m <;> simp [Nonterminal.strength] at hm
    · exact .conjunction h
    · exact h
  | equality =>
    cases m <;> simp [Nonterminal.strength] at hm
    · exact .conjunction (.equality h)
    · exact .equality h
    · exact h
  | unary =>
    cases m with
    | disjunction => exact .conjunction (.equality (.unary h))
    | conjunction => exact .equality (.unary h)
    | equality => exact .unary h
    | unary => exact h

-- ---------------------------------------------------------------------------
-- What the stack stands for
-- ---------------------------------------------------------------------------

/-- A phrase of this strength can be completed on top of the stack before anything in the stack
is: no negation waits for it, and no operator that binds as closely. -/
def Below (k : Nat) : List Pending → Prop
  | .negation :: _ => False
  | .operand op _ :: _ => op.strength < k
  | _ => True

theorem Below.mono (h : Below k stack) (hk : k ≤ l) : Below l stack := by
  match stack with
  | [] | .parenthesis :: _ => trivial
  | .operand op _ :: _ => exact Nat.lt_of_lt_of_le h hk

/-- The tokens read so far leave this stack, and an operand has to come. -/
inductive Waits : List Token → List Pending → Prop
  | start : Waits [] []
  | negation : Waits ts stack → Waits (ts ++ [.bang]) (.negation :: stack)
  | parenthesis : Waits ts stack → Waits (ts ++ [.opening]) (.parenthesis :: stack)
  | operand : Waits ts stack → Below op.strength stack → Phrase op.whole us left →
      Waits (ts ++ (us ++ [.operator op])) (.operand op left :: stack)

/-- The tokens read so far leave this stack and, on top of it, a condition. -/
def Holds (n : Nonterminal) (ts : List Token) (c : Condition) (stack : List Pending) : Prop :=
  ∃ front us, ts = front ++ us ∧ Waits front stack ∧ Phrase n us c

theorem Waits.hold (h : Waits ts stack) (hp : Phrase n us c) : Holds n (ts ++ us) c stack :=
  ⟨ts, us, rfl, h, hp⟩

theorem Holds.negate (h : Holds .unary ts c (.negation :: stack)) :
    Holds .unary ts (.not c) stack := by
  obtain ⟨_, us, rfl, hw, hp⟩ := h
  cases hw with
  | @negation front _ hw => exact ⟨front, .bang :: us, by simp, hw, .negation hp⟩

theorem applyNegations_holds (h : Holds .unary ts c stack) :
    Holds .unary ts (applyNegations c stack).1 (applyNegations c stack).2 ∧
      Below 3 (applyNegations c stack).2 := by
  induction stack generalizing c with
  | nil => exact ⟨h, trivial⟩
  | cons p stack ih =>
    cases p with
    | negation => exact ih h.negate
    | parenthesis => exact ⟨h, trivial⟩
    | operand op left => exact ⟨h, op.strength_lt⟩

theorem Holds.apply (h : Holds n ts c (.operand op left :: stack)) (hn : op.strength < n.strength) :
    Holds op.whole ts (.binary op left c) stack ∧ Below op.strength stack := by
  obtain ⟨_, us, rfl, hw, hp⟩ := h
  cases hw with
  | @operand front _ ls _ _ hw hb hl =>
    have hr : Phrase op.right us c := hp.loosen (op.strength_right ▸ hn)
    exact ⟨⟨front, ls ++ .operator op :: us, by simp, hw, .binary op hl hr⟩, hb⟩

theorem applyOperators_holds (h : Holds n ts c stack) (hb : Below n.strength stack)
    (hk : k ≤ n.strength) :
    ∃ m : Nonterminal, k ≤ m.strength ∧
      Holds m ts (applyOperators k c stack).1 (applyOperators k c stack).2 ∧
      Below k (applyOperators k c stack).2 := by
  induction stack generalizing n c with
  | nil => exact ⟨n, hk, h, trivial⟩
  | cons p stack ih =>
    cases p with
    | negation => exact hb.elim
    | parenthesis => exact ⟨n, hk, h, trivial⟩
    | operand op left =>
      unfold applyOperators
      split
      · rename_i hop
        obtain ⟨h', hb'⟩ := h.apply hb
        exact ih h' (by simpa using hb') (by simpa using hop)
      · rename_i hop
        exact ⟨n, hk, h, Nat.lt_of_not_le hop⟩

theorem below_zero (h : Below 0 stack) : stack = [] ∨ ∃ rest, stack = .parenthesis :: rest := by
  match stack with
  | [] => exact .inl rfl
  | .parenthesis :: rest => exact .inr ⟨rest, rfl⟩
  | .operand op _ :: _ => exact absurd h (Nat.not_lt_zero _)

theorem Holds.close (h : Holds n ts c (.parenthesis :: stack)) :
    Holds .unary (ts ++ [.closing]) c stack := by
  obtain ⟨_, us, rfl, hw, hp⟩ := h
  cases hw with
  | @parenthesis front _ hw =>
    have hp : Phrase .disjunction us c := hp.loosen (Nat.zero_le _)
    exact ⟨front, .opening :: (us ++ [.closing]), by simp, hw, .parenthesis hp⟩

theorem Holds.operator (h : Holds .unary ts c stack) (hb : Below 3 stack) :
    Waits (ts ++ [.operator op]) (.operand op (applyOperators op.strength c stack).1 ::
      (applyOperators op.strength c stack).2) := by
  obtain ⟨m, hm, ⟨front, us, rfl, hw, hp⟩, hb'⟩ :=
    applyOperators_holds h hb (Nat.le_of_lt op.strength_lt)
  have hl : Phrase op.whole us _ := hp.loosen (op.strength_whole.symm ▸ hm)
  simpa using hw.operand hb' hl

theorem Holds.sentence (h : Holds n ts c []) : Sentence ts c := by
  obtain ⟨_, us, rfl, hw, hp⟩ := h
  cases hw
  exact hp.loosen (Nat.zero_le _)

-- ---------------------------------------------------------------------------
-- Soundness
-- ---------------------------------------------------------------------------

theorem reading_sound (rest : List Token) :
    (∀ ts stack w, Waits ts stack → readOperand stack rest = .ok w → Sentence (ts ++ rest) w) ∧
    (∀ ts c stack w, Holds .unary ts c stack → Below 3 stack →
      readOperator c stack rest = .ok w → Sentence (ts ++ rest) w) := by
  induction rest with
  | nil =>
    refine ⟨fun ts stack w _ h => by simp [readOperand] at h, ?_⟩
    intro ts c stack w hh hb h
    obtain ⟨m, -, hm, -⟩ := applyOperators_holds hh hb (Nat.zero_le _)
    simp only [readOperator] at h
    split at h
    · rename_i whole heq
      cases h
      rw [heq] at hm
      simpa using hm.sentence
    · cases h
  | cons t rest ih =>
    obtain ⟨ihOperand, ihOperator⟩ := ih
    constructor
    · intro ts stack w hw h
      cases t with
      | bang =>
        simp only [readOperand] at h
        split at h
        · cases h
        · simpa using ihOperand _ _ w hw.negation h
      | opening =>
        simp only [readOperand] at h
        split at h
        · cases h
        · simpa using ihOperand _ _ w hw.parenthesis h
      | word name =>
        obtain ⟨hh, hb⟩ := applyNegations_holds (hw.hold (Phrase.ofWord name))
        simpa using ihOperator _ _ _ w hh hb h
      | closing => simp [readOperand] at h
      | operator op => simp [readOperand] at h
    · intro ts c stack w hh hb h
      cases t with
      | operator op =>
        simpa using ihOperand _ _ w (hh.operator hb) h
      | closing =>
        obtain ⟨m, -, hm, -⟩ := applyOperators_holds hh hb (Nat.zero_le _)
        simp only [readOperator] at h
        split at h
        · rename_i inner stack' heq
          rw [heq] at hm
          obtain ⟨hh', hb'⟩ := applyNegations_holds hm.close
          simpa using ihOperator _ _ _ w hh' hb' h
        · cases h
      | bang | opening | word => simp only [readOperator] at h; split at h <;> cases h

/-- What reading accepts is a sentence, with the condition that its derivation builds. -/
theorem read_sound (h : read ts = .ok c) : Sentence ts c :=
  (reading_sound ts).1 [] [] c .start h

-- ---------------------------------------------------------------------------
-- Completeness
-- ---------------------------------------------------------------------------

theorem applyNegations_below (h : Below k stack) : applyNegations c stack = (c, stack) := by
  match stack with
  | [] | .parenthesis :: _ | .operand .. :: _ => rfl

theorem applyOperators_below (h : Below k stack) : applyOperators k c stack = (c, stack) := by
  match stack with
  | [] | .parenthesis :: _ => rfl
  | .operand op left :: _ =>
    have hop : ¬ k ≤ op.strength := Nat.not_le_of_lt h
    simp [applyOperators, hop]

def ReadsOperand (ts : List Token) (c : Condition) : Prop :=
  ∀ stack rest, readOperand stack (ts ++ rest) = .error .tooDeep ∨
    readOperand stack (ts ++ rest) =
      readOperator (applyNegations c stack).1 (applyNegations c stack).2 rest

/-- On top of a stack of looser operators, reading a phrase leaves some of its operators waiting;
once those of its strength are applied, the condition of the phrase stands on the stack. -/
def ReadsPhrase (k : Nat) (ts : List Token) (c : Condition) : Prop :=
  ∀ stack rest, Below k stack → readOperand stack (ts ++ rest) = .error .tooDeep ∨
    ∃ c' stack', readOperand stack (ts ++ rest) = readOperator c' stack' rest ∧
      ∀ j ≤ k, applyOperators j c' stack' = applyOperators j c stack

theorem ReadsOperand.phrase (h : ReadsOperand ts c) : ReadsPhrase k ts c := by
  intro stack rest hb
  rcases h stack rest with h | h
  · exact .inl h
  · rw [applyNegations_below hb] at h
    exact .inr ⟨c, stack, h, fun _ _ => rfl⟩

theorem ReadsPhrase.loosen (h : ReadsPhrase k ts c) (hl : l ≤ k) : ReadsPhrase l ts c := by
  intro stack rest hb
  rcases h stack rest (hb.mono hl) with h | ⟨c', stack', h, hj⟩
  · exact .inl h
  · exact .inr ⟨c', stack', h, fun j hjl => hj j (Nat.le_trans hjl hl)⟩

theorem ReadsPhrase.binary (op : Operator) (hl : ReadsPhrase op.strength ts l)
    (hr : ReadsPhrase (op.strength + 1) us r) :
    ReadsPhrase op.strength (ts ++ .operator op :: us) (.binary op l r) := by
  intro stack rest hb
  rw [List.append_assoc, List.cons_append]
  rcases hl stack (.operator op :: (us ++ rest)) hb with h | ⟨c', stack', h, hj⟩
  · exact .inl h
  · have hstep : readOperator c' stack' (.operator op :: (us ++ rest)) =
        readOperand (.operand op l :: stack) (us ++ rest) := by
      simp only [readOperator, hj _ (Nat.le_refl _), applyOperators_below hb]
    rw [h, hstep]
    rcases hr (.operand op l :: stack) rest (Nat.lt_succ_self _) with h | ⟨c', stack', h, hj⟩
    · exact .inl h
    · refine .inr ⟨c', stack', h, fun j hjk => ?_⟩
      rw [hj j (Nat.le_succ_of_le hjk), applyOperators, if_pos hjk]

theorem ReadsOperand.negation (h : ReadsOperand ts c) : ReadsOperand (.bang :: ts) (.not c) := by
  intro stack rest
  rw [List.cons_append, readOperand]
  split
  · exact .inl rfl
  · exact h (.negation :: stack) rest

theorem ReadsPhrase.parenthesis (h : ReadsPhrase 0 ts c) :
    ReadsOperand (.opening :: (ts ++ [.closing])) c := by
  intro stack rest
  rw [List.cons_append, readOperand, List.append_assoc, List.singleton_append]
  split
  · exact .inl rfl
  · rcases h (.parenthesis :: stack) (.closing :: rest) trivial with h | ⟨c', stack', h, hj⟩
    · exact .inl h
    · have hz : applyOperators 0 c' stack' = (c, .parenthesis :: stack) := hj 0 (Nat.le_refl _)
      rw [h, readOperator, hz]
      exact .inr rfl

theorem ReadsOperand.word (name : String) : ReadsOperand [.word name] (ofWord name) :=
  fun _ _ => .inr rfl

theorem Phrase.reads (h : Phrase n ts c) :
    ReadsPhrase n.strength ts c ∧ (n = .unary → ReadsOperand ts c) := by
  induction h with
  | conjunction _ ih => exact ⟨ih.1.loosen (by decide), nofun⟩
  | equality _ ih => exact ⟨ih.1.loosen (by decide), nofun⟩
  | unary _ ih => exact ⟨ih.1.loosen (by decide), nofun⟩
  | or _ _ ihl ihr => exact ⟨.binary .or ihl.1 ihr.1, nofun⟩
  | and _ _ ihl ihr => exact ⟨.binary .and ihl.1 ihr.1, nofun⟩
  | equal _ _ ihl ihr => exact ⟨.binary .equal ihl.1 ihr.1, nofun⟩
  | differ _ _ ihl ihr => exact ⟨.binary .differ ihl.1 ihr.1, nofun⟩
  | negation _ ih =>
    have h := (ih.2 rfl).negation
    exact ⟨h.phrase, fun _ => h⟩
  | parenthesis _ ih =>
    have h := ih.1.parenthesis
    exact ⟨h.phrase, fun _ => h⟩
  | true => exact ⟨(ReadsOperand.word "true").phrase, fun _ => .word "true"⟩
  | false => exact ⟨(ReadsOperand.word "false").phrase, fun _ => .word "false"⟩
  | @symbol name ht hf =>
    have hw : Condition.ofWord name = .symbol name := by simp [Condition.ofWord, ht, hf]
    have h := hw ▸ ReadsOperand.word name
    exact ⟨h.phrase, fun _ => h⟩

/-- Reading accepts every sentence, unless it is nested too deeply. -/
theorem read_complete (h : Sentence ts c) : read ts = .error .tooDeep ∨ read ts = .ok c := by
  have hr := h.reads.1 [] [] trivial
  rw [List.append_nil] at hr
  rcases hr with hr | ⟨c', stack', hr, hj⟩
  · exact .inl hr
  · have hz : applyOperators 0 c' stack' = (c, []) := hj 0 (Nat.le_refl _)
    refine .inr ?_
    rw [read, hr, readOperator, hz]

end CategoryAudit.Condition
