import Mathlib
import CategoryAudit.Condition
import CategoryAudit.Proofs.Text.Strip

/-!
# The tokens of a condition

`Splits` says how a text falls into tokens: blanks may stand before each of them, and each is as
long as it can be. `tokens?` finds this splitting for a text with no blanks at its end, and fails
on a text that has none.
-/

namespace CategoryAudit.Condition

/-- A token, the characters that spell it, and what follows them. -/
inductive Lexeme : Token → List Char → List Char → Prop
  | or : Lexeme (.operator .or) ['|', '|'] rest
  | and : Lexeme (.operator .and) ['&', '&'] rest
  | equal : Lexeme (.operator .equal) ['=', '='] rest
  | differ : Lexeme (.operator .differ) ['!', '='] rest
  | bang : rest.head? ≠ some '=' → Lexeme .bang ['!'] rest
  | opening : Lexeme .opening ['('] rest
  | closing : Lexeme .closing [')'] rest
  | word : isWordStart c → (∀ d ∈ cs, isWordPart d) → (∀ d ∈ rest.head?, ¬ isWordPart d) →
      Lexeme (.word (String.ofList (c :: cs))) (c :: cs) rest

/-- A text is nothing but blanks and tokens, with a token at its end. -/
inductive Splits : List Char → List Token → Prop
  | done : Splits [] []
  | token : (∀ b ∈ blanks, Text.isBlank b) → Lexeme t spelling rest → Splits rest ts →
      Splits (blanks ++ (spelling ++ rest)) (t :: ts)

theorem Splits.front (ht : Lexeme t spelling rest) (h : Splits rest ts) :
    Splits (spelling ++ rest) (t :: ts) :=
  @Splits.token [] t spelling rest ts (by simp) ht h

theorem Splits.blank (hc : Text.isBlank c) (hne : cs ≠ []) (h : Splits cs ts) :
    Splits (c :: cs) ts := by
  cases h with
  | done => exact absurd rfl hne
  | @token blanks t spelling rest ts hb ht hr =>
    refine @Splits.token (c :: blanks) t spelling rest ts ?_ ht hr
    intro b hm
    rcases List.mem_cons.mp hm with rfl | hm
    · exact hc
    · exact hb b hm

-- ---------------------------------------------------------------------------
-- Characters
-- ---------------------------------------------------------------------------

theorem wordStart_bounds (h : isWordStart c) :
    65 ≤ c.toNat ∧ c.toNat ≤ 90 ∨ 97 ≤ c.toNat ∧ c.toNat ≤ 122 ∨ c.toNat = 95 := by
  simp only [isWordStart, Char.isAlpha, Char.isUpper, Char.isLower, Bool.or_eq_true,
    Bool.and_eq_true, decide_eq_true_eq, beq_iff_eq, UInt32.le_iff_toNat_le, ge_iff_le] at h
  rcases h with (⟨h1, h2⟩ | ⟨h1, h2⟩) | rfl
  · exact .inl ⟨h1, h2⟩
  · exact .inr (.inl ⟨h1, h2⟩)
  · exact .inr (.inr rfl)

theorem not_blank_of_wordStart (h : isWordStart c) : Text.isBlank c = false := by
  have hb := wordStart_bounds h
  simp only [Text.isBlank, Text.inRanges, Text.blankRanges, List.any_cons, List.any_nil,
    Bool.or_false, Bool.or_eq_false_iff, Bool.and_eq_false_iff, decide_eq_false_iff_not]
  omega

theorem tokens?_blank (h : Text.isBlank c) : tokens? (c :: rest) = tokens? rest := by
  -- none of the characters that begin an operator or parenthesis is blank
  have hs : ∀ d, Text.isBlank d = false → c ≠ d := by
    rintro d hd rfl
    simp [hd] at h
  have h1 := hs '|' (by decide)
  have h2 := hs '&' (by decide)
  have h3 := hs '=' (by decide)
  have h4 := hs '!' (by decide)
  have h5 := hs '(' (by decide)
  have h6 := hs ')' (by decide)
  rw [tokens?] <;> simp_all

theorem tokens?_blanks (h : ∀ b ∈ blanks, Text.isBlank b) :
    tokens? (blanks ++ rest) = tokens? rest := by
  induction blanks with
  | nil => rfl
  | cons b blanks ih =>
    rw [List.cons_append, tokens?_blank (h b (by simp))]
    exact ih fun d hd => h d (by simp [hd])

theorem tokens?_word (hc : isWordStart c) (hcs : ∀ d ∈ cs, isWordPart d)
    (hr : ∀ d ∈ rest.head?, ¬ isWordPart d) :
    tokens? (c :: (cs ++ rest)) =
      (tokens? rest).map (.word (String.ofList (c :: cs)) :: ·) := by
  have hb := wordStart_bounds hc
  have hs : ∀ d : Char, d.toNat < 65 ∨ 122 < d.toNat → c ≠ d := by
    rintro d hd rfl
    omega
  have h1 := hs '|' (by decide)
  have h2 := hs '&' (by decide)
  have h3 := hs '=' (by decide)
  have h4 := hs '!' (by decide)
  have h5 := hs '(' (by decide)
  have h6 := hs ')' (by decide)
  have htake : (cs ++ rest).takeWhile isWordPart = cs := by
    rw [List.takeWhile_append_of_pos hcs]
    cases rest <;> simp_all
  have hdrop : (cs ++ rest).dropWhile isWordPart = rest := by
    rw [List.dropWhile_append_of_pos hcs]
    cases rest <;> simp_all
  rw [tokens?]
  · simp [not_blank_of_wordStart hc, hc, htake, hdrop]
  all_goals simp_all

-- ---------------------------------------------------------------------------
-- Both directions
-- ---------------------------------------------------------------------------

theorem tokens?_lexeme (h : Lexeme t spelling rest) :
    tokens? (spelling ++ rest) = (tokens? rest).map (t :: ·) := by
  cases h with
  | word hc hcs hr => exact tokens?_word hc hcs hr
  | bang hr =>
    rw [List.singleton_append, tokens?]
    rintro rest' rfl
    exact hr rfl
  | _ => simp [tokens?]

theorem tokens?_of_splits (h : Splits cs ts) : tokens? cs = some ts := by
  induction h with
  | done => simp [tokens?]
  | token hb ht _ ih => rw [tokens?_blanks hb, tokens?_lexeme ht, ih, Option.map_some]

def EndsInToken (cs : List Char) : Prop := ∀ b ∈ cs.getLast?, Text.isBlank b = false

theorem EndsInToken.of_append (front : List Char) (h : EndsInToken (front ++ cs)) :
    EndsInToken cs := by
  intro b hb
  exact h b (by simp_all [List.getLast?_append])

theorem EndsInToken.of_cons (h : EndsInToken (c :: cs)) : EndsInToken cs :=
  .of_append [c] h

theorem splits_of_tokens? (hcs : EndsInToken cs) (h : tokens? cs = some ts) : Splits cs ts := by
  fun_induction tokens? cs generalizing ts with
  | case1 => cases h; exact .done
  | case2 rest ih =>
    obtain ⟨us, hu, rfl⟩ := Option.map_eq_some_iff.mp h
    exact .front .or (ih hcs.of_cons.of_cons hu)
  | case3 rest ih =>
    obtain ⟨us, hu, rfl⟩ := Option.map_eq_some_iff.mp h
    exact .front .and (ih hcs.of_cons.of_cons hu)
  | case4 rest ih =>
    obtain ⟨us, hu, rfl⟩ := Option.map_eq_some_iff.mp h
    exact .front .equal (ih hcs.of_cons.of_cons hu)
  | case5 rest ih =>
    obtain ⟨us, hu, rfl⟩ := Option.map_eq_some_iff.mp h
    exact .front .differ (ih hcs.of_cons.of_cons hu)
  | case6 rest hne ih =>
    obtain ⟨us, hu, rfl⟩ := Option.map_eq_some_iff.mp h
    refine .front (.bang ?_) (ih hcs.of_cons hu)
    cases rest <;> simp_all
  | case7 rest ih =>
    obtain ⟨us, hu, rfl⟩ := Option.map_eq_some_iff.mp h
    exact .front .opening (ih hcs.of_cons hu)
  | case8 rest ih =>
    obtain ⟨us, hu, rfl⟩ := Option.map_eq_some_iff.mp h
    exact .front .closing (ih hcs.of_cons hu)
  | case9 c rest _ _ _ _ _ _ _ hb ih =>
    refine Splits.blank hb ?_ (ih hcs.of_cons h)
    rintro rfl
    have := hcs c (by simp)
    simp [hb] at this
  | case10 c rest _ _ _ _ _ _ _ _ hw ih =>
    obtain ⟨us, hu, rfl⟩ := Option.map_eq_some_iff.mp h
    have happ : rest.takeWhile isWordPart ++ rest.dropWhile isWordPart = rest :=
      List.takeWhile_append_dropWhile
    have hrest : EndsInToken (rest.dropWhile isWordPart) :=
      .of_append (rest.takeWhile isWordPart) (happ.symm ▸ hcs.of_cons)
    have hword : Lexeme (.word (String.ofList (c :: rest.takeWhile isWordPart)))
        (c :: rest.takeWhile isWordPart) (rest.dropWhile isWordPart) := by
      refine .word hw (List.all_eq_true.mp List.all_takeWhile) ?_
      intro d hd
      have := List.head?_dropWhile_not isWordPart rest
      simp_all
    have := Splits.front hword (ih hrest hu)
    simpa [happ] using this
  | case11 => cases h

theorem endsInToken_strip (cs : List Char) : EndsInToken (Text.stripChars cs) :=
  (Text.stripped_stripChars cs).last

/-- Cutting a text into tokens finds exactly its splitting. -/
theorem tokens?_strip_iff :
    tokens? (Text.stripChars cs) = some ts ↔ Splits (Text.stripChars cs) ts :=
  ⟨splits_of_tokens? (endsInToken_strip cs), tokens?_of_splits⟩

end CategoryAudit.Condition
