import Mathlib.Data.List.TakeWhile
import CategoryAudit.Text.Blank

/-!
# Texts without the blanks at their ends

What stripping leaves neither begins nor ends with a blank, and blanks around such a text are all
that stripping takes away (`stripChars_between`). So stripping twice is stripping once.
-/

namespace CategoryAudit.Text

structure Stripped (cs : List Char) : Prop where
  first : ∀ c ∈ cs.head?, isBlank c = false
  last : ∀ c ∈ cs.getLast?, isBlank c = false

theorem stripped_nil : Stripped [] := ⟨nofun, nofun⟩

section
variable {front cs back : List Char}

theorem dropWhile_blanks (hfront : ∀ b ∈ front, isBlank b)
    (hcs : ∀ c ∈ cs.head?, isBlank c = false) : (front ++ cs).dropWhile isBlank = cs := by
  rw [List.dropWhile_append_of_pos hfront]
  cases cs with
  | nil => rfl
  | cons c cs => exact List.dropWhile_cons_of_neg (by simp [hcs c rfl])

theorem stripChars_between (hfront : ∀ b ∈ front, isBlank b) (hback : ∀ b ∈ back, isBlank b)
    (h : Stripped cs) : stripChars (front ++ (cs ++ back)) = cs := by
  have hblanks : ∀ b ∈ back.reverse, isBlank b := fun b hb => hback b (List.mem_reverse.mp hb)
  have hlast : ∀ c ∈ cs.reverse.head?, isBlank c = false := by
    rw [List.head?_reverse]
    exact h.last
  cases cs with
  | nil =>
    have hall : ∀ b ∈ front ++ back, isBlank b := List.forall_mem_append.mpr ⟨hfront, hback⟩
    rw [List.nil_append, stripChars, List.dropWhile_eq_nil_iff.mpr hall]
    rfl
  | cons c cs =>
    have hfirst : ∀ d ∈ (c :: cs ++ back).head?, isBlank d = false := h.first
    rw [stripChars, dropWhile_blanks hfront hfirst, List.reverse_append,
      dropWhile_blanks hblanks hlast, List.reverse_reverse]

theorem stripped_stripChars (cs : List Char) : Stripped (stripChars cs) := by
  have hlast : ∀ c ∈ (stripChars cs).getLast?, isBlank c = false := by
    intro c hc
    rw [stripChars, List.getLast?_reverse] at hc
    have := List.head?_dropWhile_not isBlank (cs.dropWhile isBlank).reverse
    simp_all
  refine ⟨fun c hc => ?_, hlast⟩
  -- The first character is that of the text without the blanks before it.
  have hprefix : stripChars cs <+: cs.dropWhile isBlank := by
    rw [stripChars, ← List.reverse_suffix, List.reverse_reverse]
    exact List.dropWhile_suffix _
  obtain ⟨back, hback⟩ := hprefix
  have hfirst := List.head?_dropWhile_not isBlank cs
  rw [← hback] at hfirst
  obtain ⟨rest, hrest⟩ := List.head?_eq_some_iff.mp hc
  simpa [hrest] using hfirst

theorem stripChars_of_stripped (h : Stripped cs) : stripChars cs = cs := by
  have hnone : ∀ b ∈ ([] : List Char), isBlank b := nofun
  simpa using stripChars_between hnone hnone h

theorem stripChars_eq_nil_iff (cs : List Char) : stripChars cs = [] ↔ ∀ c ∈ cs, isBlank c := by
  rw [stripChars, List.reverse_eq_nil_iff, List.dropWhile_eq_nil_iff]
  constructor
  · intro h
    have hfront := List.head?_dropWhile_not isBlank cs
    cases hrest : cs.dropWhile isBlank with
    | nil => exact List.dropWhile_eq_nil_iff.mp hrest
    | cons c rest =>
      have hc : isBlank c = true := h c (by simp [hrest])
      simp [hrest, hc] at hfront
  · intro h c hc
    exact h c ((List.dropWhile_suffix _).subset (List.mem_reverse.mp hc))

end

theorem strip_eq_empty_iff (s : String) : strip s = "" ↔ ∀ c ∈ s.toList, isBlank c := by
  rw [← stripChars_eq_nil_iff, strip, String.ofList_eq_empty_iff]

theorem strip_strip (s : String) : strip (strip s) = strip s := by
  rw [strip, strip, String.toList_ofList, stripChars_of_stripped (stripped_stripChars s.toList)]

end CategoryAudit.Text
