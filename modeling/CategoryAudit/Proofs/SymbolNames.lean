import CategoryAudit.Proofs.Condition.Printing
import CategoryAudit.Proofs.Condition.Symbols
import CategoryAudit.Proofs.Trailing

/-!
# Names of symbols

The names of symbols may be written with letters of any script. A definition and a condition mean
the same symbol by a name of ASCII characters. Of another name, a definition takes what comes before
the first character beyond ASCII, and a condition takes nothing (`same_symbol_iff`).
-/

namespace CategoryAudit

open Concrete (Node)
open Condition (isWordStart isWordPart)
open Outline (readOne readDirective concat)
open Text (isBlank stripChars)

namespace Symbols

-- ---------------------------------------------------------------------------
-- Names and directives
-- ---------------------------------------------------------------------------

/-- Characters beyond ASCII that are not blank, letters and digits among them. -/
def isForeign (c : Char) : Bool := 127 < c.toNat && !isBlank c

structure IsName (name : String) : Prop where
  spelling : ∃ c cs, name.toList = c :: cs ∧ (isWordStart c || isForeign c) = true ∧
    ∀ d ∈ cs, (isWordPart d || isForeign d) = true
  not_true : name ≠ "true"
  not_false : name ≠ "false"

def Change.keyword : Change → String
  | define _ => "define"
  | undef _ => "undef"

def Change.withName : Change → String → Change
  | define _, name => define name
  | undef _, name => undef name

/-- A text asks for a change of the symbols, with nothing but blanks around its words. -/
def Asks (text : String) (change : Change) : Prop :=
  ∃ before gap blanks after : List Char,
    (∀ b ∈ before, isBlank b) ∧ (∀ b ∈ gap, isBlank b) ∧ (∀ b ∈ blanks, isBlank b) ∧
    (∀ b ∈ after, isBlank b) ∧ blanks ≠ [] ∧
    text.toList = before ++ (('#' :: (gap ++ (change.keyword.toList ++
      (blanks ++ change.name.toList)))) ++ after)

/-- What a name begins with, up to the first character beyond ASCII. -/
def asciiFront (name : String) : String := String.ofList (name.toList.takeWhile isWordPart)

/-- Definitions and conditions mean the same symbol by a name. -/
structure SameSymbol (name : String) : Prop where
  define : ∀ text s, Asks text (.define name) → ∀ x, x ∈ Symbols.update s text ↔ x ∈ s ∨ x = name
  undef : ∀ text s, Asks text (.undef name) → ∀ x, x ∈ Symbols.update s text ↔ x ∈ s ∧ x ≠ name
  condition : ∀ text s, stripChars text.toList = name.toList →
    Condition.evalText text s = .ok (s.contains name)
  /-- After a definition, a condition that is just the name selects its own branch. -/
  selects : ∀ source depth s d q condition, d.directiveRole = .definition →
    Asks (d.text source) (.define name) → q.directiveRole = .conditional →
    q.child? "condition" = some condition →
    stripChars (condition.text source).toList = name.toList →
    ∃ t, (readDirective source (depth + 1) d).run s = .ok ([], t) ∧
      (readDirective source (depth + 2) q).run t = (concat (readOne source depth) q.ownBody).run t

-- ---------------------------------------------------------------------------
-- Characters
-- ---------------------------------------------------------------------------

theorem wordPart_bound (h : isWordPart c) : c.toNat ≤ 122 := by
  by_cases hstart : isWordStart c
  · have := Condition.wordStart_bounds hstart
    omega
  · have hdigit : c.toNat ≤ 57 := by
      simp_all [isWordPart, isWordStart, Char.isAlphanum, Char.isDigit, UInt32.le_iff_toNat_le]
    omega

theorem foreign_bound (h : isForeign c) : 127 < c.toNat := by
  simp only [isForeign, Bool.and_eq_true, decide_eq_true_eq] at h
  exact h.1

theorem not_wordPart_of_foreign (h : isForeign c) : isWordPart c = false := by
  by_contra hpart
  have := wordPart_bound (by simpa using hpart)
  have := foreign_bound h
  omega

theorem not_blank_of_part (h : (isWordPart c || isForeign c) = true) : isBlank c = false := by
  rcases Bool.or_eq_true_iff.mp h with h | h
  · exact Condition.not_blank_of_wordPart h
  · simpa [isForeign, foreign_bound h] using h

theorem wordPart_of_wordStart (h : isWordStart c) : isWordPart c = true := by
  simp_all [isWordStart, isWordPart, Char.isAlphanum]
  tauto

theorem not_wordStart_of_foreign (h : isForeign c) : isWordStart c = false := by
  by_contra hstart
  have hpart := wordPart_of_wordStart (by simpa using hstart)
  rw [not_wordPart_of_foreign h] at hpart
  cases hpart

-- ---------------------------------------------------------------------------
-- Names
-- ---------------------------------------------------------------------------

section
variable {name : String} (h : IsName name)
include h

theorem IsName.part : ∀ c ∈ name.toList, (isWordPart c || isForeign c) = true := by
  obtain ⟨c, cs, hname, hc, hcs⟩ := h.spelling
  intro d hd
  rw [hname] at hd
  rcases List.mem_cons.mp hd with rfl | hd
  · rcases Bool.or_eq_true_iff.mp hc with hc | hc
    · rw [wordPart_of_wordStart hc]; rfl
    · rw [hc, Bool.or_true]
  · exact hcs d hd

theorem IsName.not_blank : ∀ c ∈ name.toList, isBlank c = false :=
  fun c hc => not_blank_of_part (h.part c hc)

theorem IsName.ne_nil : name.toList ≠ [] := by
  obtain ⟨c, cs, hname, -⟩ := h.spelling
  rw [hname]
  exact List.cons_ne_nil c cs

end

theorem asciiFront_eq_iff : asciiFront name = name ↔ ∀ c ∈ name.toList, isWordPart c := by
  rw [asciiFront, ← String.toList_inj, String.toList_ofList, List.takeWhile_eq_self_iff]

-- ---------------------------------------------------------------------------
-- Directives
-- ---------------------------------------------------------------------------

theorem nameAfterBlanks?_name (h : IsName name) (hblanks : ∀ b ∈ blanks, isBlank b)
    (hne : blanks ≠ []) : nameAfterBlanks? (blanks ++ name.toList) =
      if asciiFront name = "" then none else some (asciiFront name) := by
  obtain ⟨c, cs, hname, hc, -⟩ := h.spelling
  have hfirst : ∀ d ∈ name.toList.head?, isBlank d = false :=
    fun d hd => h.not_blank d (List.mem_of_mem_head? hd)
  have hdrop := Text.dropWhile_blanks hblanks hfirst
  have hfront : asciiFront name = String.ofList ((c :: cs).takeWhile isWordPart) := by
    rw [asciiFront, hname]
  obtain ⟨b, bs, rfl⟩ := List.exists_cons_of_ne_nil hne
  have hb : isBlank b = true := hblanks b (by simp)
  rw [List.cons_append] at hdrop ⊢
  rw [hname] at hdrop ⊢
  simp only [nameAfterBlanks?, hb, if_true, hdrop]
  cases hstart : isWordStart c with
  | true =>
    rw [List.takeWhile_cons_of_pos (wordPart_of_wordStart hstart)] at hfront
    have hsome : asciiFront name ≠ "" := by
      rw [hfront]
      simp [← String.toList_inj]
    rw [if_pos rfl, if_neg hsome, hfront]
  | false =>
    rw [hstart, Bool.false_or] at hc
    rw [List.takeWhile_cons_of_neg (by simp [not_wordPart_of_foreign hc])] at hfront
    rw [if_neg Bool.false_ne_true, if_pos hfront]

theorem afterWord?_append (word rest : List Char) : afterWord? word (word ++ rest) = some rest := by
  simp [afterWord?]

theorem afterWord?_define (rest : List Char) :
    afterWord? "define".toList ("undef".toList ++ rest) = none := rfl

theorem ofText?_hash (h : stripChars text.toList = '#' :: rest) : Change.ofText? text =
    match afterWord? "define".toList (rest.dropWhile isBlank) with
    | some rest => (nameAfterBlanks? rest).map .define
    | none =>
      match afterWord? "undef".toList (rest.dropWhile isBlank) with
      | some rest => (nameAfterBlanks? rest).map .undef
      | none => none := by
  rw [Change.ofText?, h]
  rfl

theorem ofText?_of_asks (ha : Asks text change) (h : IsName change.name) :
    Change.ofText? text = if asciiFront change.name = "" then none
      else some (change.withName (asciiFront change.name)) := by
  obtain ⟨before, gap, blanks, after, hbefore, hgap, hblanks, hafter, hne, htext⟩ := ha
  have hstripped : Text.Stripped ('#' :: (gap ++ (change.keyword.toList ++
      (blanks ++ change.name.toList)))) := by
    refine ⟨fun c hc => ?_, fun c hc => ?_⟩
    · obtain rfl : '#' = c := by simpa using hc
      decide
    · have hlast : c ∈ change.name.toList.getLast? := by
        obtain ⟨d, ds, hname⟩ := List.exists_cons_of_ne_nil h.ne_nil
        simpa [hname, List.getLast?_append, List.getLast?_cons] using hc
      exact h.not_blank c (List.mem_of_getLast? hlast)
  have hkeyword : ∀ c ∈ (change.keyword.toList ++ (blanks ++ change.name.toList)).head?,
      isBlank c = false := by
    cases change <;> simp [Change.keyword] <;> decide
  have hstrip : stripChars text.toList = _ :=
    htext ▸ Text.stripChars_between hbefore hafter hstripped
  rw [ofText?_hash hstrip, Text.dropWhile_blanks hgap hkeyword]
  have hname := nameAfterBlanks?_name h hblanks hne
  cases change with
  | define name =>
    rw [Change.keyword, afterWord?_append]
    dsimp only
    rw [hname, apply_ite (Option.map Change.define)]
    rfl
  | undef name =>
    rw [Change.keyword, afterWord?_define, afterWord?_append]
    dsimp only
    rw [hname, apply_ite (Option.map Change.undef)]
    rfl

theorem update_of_asks (ha : Asks text change) (h : IsName change.name) (s : Symbols) :
    s.update text = if asciiFront change.name = "" then s
      else s.apply (change.withName (asciiFront change.name)) := by
  rw [update, ofText?_of_asks ha h]
  by_cases hfront : asciiFront change.name = ""
  · rw [if_pos hfront, if_pos hfront]
  · rw [if_neg hfront, if_neg hfront]

-- ---------------------------------------------------------------------------
-- Conditions
-- ---------------------------------------------------------------------------

theorem tokens?_foreign (h : isForeign c) (rest : List Char) :
    Condition.tokens? (c :: rest) = none := by
  have hs : ∀ d : Char, d.toNat ≤ 127 → c ≠ d := by
    rintro d hd rfl
    have := foreign_bound h
    omega
  have h1 := hs '|' (by decide)
  have h2 := hs '&' (by decide)
  have h3 := hs '=' (by decide)
  have h4 := hs '!' (by decide)
  have h5 := hs '(' (by decide)
  have h6 := hs ')' (by decide)
  have hblank : isBlank c = false := not_blank_of_part (by rw [h, Bool.or_true])
  rw [Condition.tokens?]
  · simp [hblank, not_wordStart_of_foreign h]
  all_goals simp_all

theorem tokens?_name (h : IsName name) : Condition.tokens? name.toList =
    if asciiFront name = name then some [.word name] else none := by
  obtain ⟨c, cs, hname, hc, hcs⟩ := h.spelling
  have hfront : asciiFront name = name ↔ isWordPart c ∧ ∀ d ∈ cs, isWordPart d := by
    rw [asciiFront_eq_iff, hname, List.forall_mem_cons]
  cases hstart : isWordStart c with
  | false =>
    rw [hstart, Bool.false_or] at hc
    rw [if_neg fun h => by simp [not_wordPart_of_foreign hc] at hfront; exact hfront h, hname,
      tokens?_foreign hc]
  | true =>
    have hrest : ∀ d ∈ (cs.dropWhile isWordPart).head?, ¬ isWordPart d := by
      intro d hd
      have hnot := List.head?_dropWhile_not isWordPart cs
      simp_all
    have hword : ∀ d ∈ cs.takeWhile isWordPart, isWordPart d :=
      List.all_eq_true.mp List.all_takeWhile
    have htokens := Condition.tokens?_word hstart hword hrest
    rw [List.takeWhile_append_dropWhile] at htokens
    rw [hname, htokens]
    cases hd : cs.dropWhile isWordPart with
    | nil =>
      have hword : ∀ d ∈ cs, isWordPart d := List.dropWhile_eq_nil_iff.mp hd
      rw [if_pos (hfront.mpr ⟨wordPart_of_wordStart hstart, hword⟩),
        List.takeWhile_eq_self_iff.mpr hword, ← hname, String.ofList_toList, Condition.tokens?]
      rfl
    | cons d rest =>
      have hd' : ¬ isWordPart d := hrest d (by rw [hd]; rfl)
      have hmem : d ∈ cs := (List.dropWhile_sublist isWordPart).mem (by rw [hd]; simp)
      have hforeign : isForeign d := by simpa [hd'] using hcs d hmem
      rw [if_neg fun h => hd' ((hfront.mp h).2 d hmem), tokens?_foreign hforeign]
      rfl

theorem read_word (hname : name ≠ "true") (hname' : name ≠ "false") :
    Condition.read [.word name] = .ok (.symbol name) := by
  simp [Condition.read, Condition.readOperand, Condition.readOperator, Condition.applyNegations,
    Condition.applyOperators, Condition.ofWord, hname, hname']

theorem evalText_name (h : IsName name) (htext : stripChars text.toList = name.toList)
    (s : Symbols) : Condition.evalText text s =
      if asciiFront name = name then .ok (s.contains name) else .error .invalid := by
  rw [Condition.evalText, Condition.parse, htext, tokens?_name h]
  by_cases hfront : asciiFront name = name
  · rw [if_pos hfront, if_pos hfront]
    dsimp only
    rw [read_word h.not_true h.not_false]
    rfl
  · rw [if_neg hfront, if_neg hfront]
    rfl

-- ---------------------------------------------------------------------------
-- Names of ASCII characters
-- ---------------------------------------------------------------------------

theorem sameSymbol_of_ascii (h : IsName name) (hascii : ∀ c ∈ name.toList, isWordPart c) :
    SameSymbol name := by
  have hfront : asciiFront name = name := asciiFront_eq_iff.mpr hascii
  have hne : asciiFront name ≠ "" := by
    rw [hfront]
    exact fun hempty => h.ne_nil (congrArg String.toList hempty)
  have hupdate (text : String) (change : Change) (ha : Asks text change)
      (hname : change.name = name) (s : Symbols) : s.update text = s.apply change := by
    subst hname
    rw [update_of_asks ha h, if_neg hne, hfront]
    cases change <;> rfl
  have hcondition (text : String) (s : Symbols) (ht : stripChars text.toList = name.toList) :
      Condition.evalText text s = .ok (s.contains name) := by
    rw [evalText_name h ht, if_pos hfront]
  refine ⟨fun text s ha x => ?_, fun text s ha x => ?_, hcondition, ?_⟩
  · rw [hupdate text _ ha rfl, apply, mem_add, or_comm]
  · rw [hupdate text _ ha rfl, apply, mem_remove]
  · intro source depth s d q condition hd ha hq hchild hc
    refine ⟨s.update (d.text source), by rw [readDirective, hd]; rfl, ?_⟩
    refine Outline.readDirective_true hq ?_ depth
    have hmem : (s.update (d.text source)).contains name = true := by
      rw [List.contains_iff_mem, hupdate _ _ ha rfl, apply, mem_add]
      exact .inl rfl
    rw [Outline.verdict, hchild]
    simp only [hcondition _ _ hc, hmem]

theorem ascii_of_sameSymbol (h : IsName name) (hsame : SameSymbol name) :
    ∀ c ∈ name.toList, isWordPart c := by
  have hstrip : stripChars name.toList = name.toList := by
    refine Text.stripChars_of_stripped ⟨fun c hc => ?_, fun c hc => ?_⟩
    · exact h.not_blank c (List.mem_of_mem_head? hc)
    · exact h.not_blank c (List.mem_of_getLast? hc)
  have hvalue := hsame.condition name [] hstrip
  rw [evalText_name h hstrip] at hvalue
  refine asciiFront_eq_iff.mp ?_
  by_contra hfront
  rw [if_neg hfront] at hvalue
  cases hvalue

/-- A definition changes the front of its name, and a condition that is a name beyond ASCII is
refused. So the two mean the same symbol by a name exactly if all its characters are ASCII letters,
digits and underscores. -/
theorem same_symbol_iff (h : IsName name) :
    (∀ text change, Asks text change → change.name = name → ∀ s : Symbols, s.update text =
      if asciiFront name = "" then s else s.apply (change.withName (asciiFront name))) ∧
    (∀ text s, stripChars text.toList = name.toList → Condition.evalText text s =
      if asciiFront name = name then .ok (s.contains name) else .error .invalid) ∧
    (SameSymbol name ↔ ∀ c ∈ name.toList, isWordPart c) := by
  refine ⟨?_, fun text s ht => evalText_name h ht s, ascii_of_sameSymbol h, sameSymbol_of_ascii h⟩
  rintro text change ha rfl s
  exact update_of_asks ha h s

theorem isName_debug : IsName "DEBUG_2" :=
  ⟨⟨'D', "EBUG_2".toList, rfl, rfl, List.all_eq_true.mp rfl⟩, by decide, by decide⟩

theorem same_symbol_debug : IsName "DEBUG_2" ∧ SameSymbol "DEBUG_2" :=
  ⟨isName_debug, (same_symbol_iff isName_debug).2.2.mpr (List.all_eq_true.mp rfl)⟩

/-- A definition of this name defines `A`, and the condition is refused. -/
theorem accented_symbol : IsName "Aé" ∧ Asks "#define Aé" (.define "Aé") ∧
    update [] "#define Aé" = ["A"] ∧ Condition.evalText "Aé" ["Aé"] = .error .invalid ∧
    ¬ SameSymbol "Aé" := by
  have hname : IsName "Aé" :=
    ⟨⟨'A', ['é'], rfl, rfl, List.all_eq_true.mp rfl⟩, by decide, by decide⟩
  have hasks : Asks "#define Aé" (.define "Aé") :=
    ⟨[], [], [' '], [], by simp, by simp, List.all_eq_true.mp rfl, by simp, by simp, rfl⟩
  have hfront : asciiFront "Aé" = "A" := by decide +kernel
  refine ⟨hname, hasks, ?_, ?_, fun h => ?_⟩
  · rw [update_of_asks hasks hname, Change.name, hfront]
    rfl
  · rw [evalText_name hname (by decide +kernel), hfront]
    rfl
  · have hascii := ascii_of_sameSymbol hname h
    rw [← asciiFront_eq_iff, hfront] at hascii
    exact absurd hascii (by decide)

end Symbols

end CategoryAudit
