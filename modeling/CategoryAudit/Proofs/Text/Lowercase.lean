import Mathlib
import CategoryAudit.Text.Lowercase

/-!
# Lower-casing twice

The table of capitals takes each of them to a character outside of it (`smalls_settled`), and the
two capitals with rules of their own are gone after lower-casing. So no character of a lower-cased
text is changed by lower-casing, whatever stands around it, and lower-casing twice is lower-casing
once.
-/

namespace CategoryAudit.Text

-- ---------------------------------------------------------------------------
-- The table
-- ---------------------------------------------------------------------------

/-- The capital that becomes two characters, as a run. -/
def dottedRun : CaseRun := ⟨304, 304, 1, 0⟩

def CaseRun.small (r : CaseRun) (n : Nat) : Nat := ((n : Int) + r.shift).toNat

def CaseRun.smalls (r : CaseRun) : List Nat :=
  (List.range ((r.last - r.first) / r.step + 1)).map fun k => r.small (r.first + k * r.step)

def CaseRun.spares (r : CaseRun) (low high : Nat) (ns : List Nat) : Bool :=
  r.last.blt low || high.blt r.first || ns.all fun n => !r.contains n

theorem smalls_settled : (caseRuns.all fun r => (dottedRun :: caseRuns).all fun r' =>
    r'.spares (r.small r.first) (r.small r.last) r.smalls) = true := by
  decide +kernel

section
variable {r r' : CaseRun} {n : Nat}

theorem CaseRun.contains_iff :
    r.contains n = true ↔ r.first ≤ n ∧ n ≤ r.last ∧ (n - r.first) % r.step = 0 := by
  simp [CaseRun.contains, and_assoc]

theorem CaseRun.small_mem_smalls (h : r.contains n = true) : r.small n ∈ r.smalls := by
  obtain ⟨hfirst, hlast, hstep⟩ := contains_iff.mp h
  have hk : r.first + (n - r.first) / r.step * r.step = n := by
    rw [Nat.div_mul_cancel (Nat.dvd_of_mod_eq_zero hstep)]
    omega
  refine List.mem_map.mpr ⟨(n - r.first) / r.step, List.mem_range.mpr ?_, by rw [hk]⟩
  exact Nat.lt_succ_of_le (Nat.div_le_div_right (Nat.sub_le_sub_right hlast _))

theorem CaseRun.spares_small (h : r.contains n = true)
    (hs : r'.spares (r.small r.first) (r.small r.last) r.smalls = true) :
    r'.contains (r.small n) = false := by
  obtain ⟨hfirst, hlast, -⟩ := contains_iff.mp h
  have hlow : r.small r.first ≤ r.small n := by unfold small; omega
  have hhigh : r.small n ≤ r.small r.last := by unfold small; omega
  rw [← Bool.not_eq_true, contains_iff]
  rintro ⟨hfirst', hlast', hstep⟩
  simp only [spares, Bool.or_eq_true, Nat.blt_eq, List.all_eq_true] at hs
  rcases hs with (hbefore | hafter) | hnone
  · omega
  · omega
  · have hnot := hnone _ (small_mem_smalls h)
    rw [contains_iff.mpr ⟨hfirst', hlast', hstep⟩] at hnot
    cases hnot

end

-- ---------------------------------------------------------------------------
-- Small characters
-- ---------------------------------------------------------------------------

/-- A character that lower-casing leaves as it is, whatever stands around it. -/
structure Small (c : Char) : Prop where
  table : lowerChar c = c
  not_sigma : c ≠ 'Σ'
  not_dotted : c ≠ 'İ'

def settled (n : Nat) : Bool := (dottedRun :: caseRuns).all fun r => !r.contains n

theorem small_of_settled (h : settled c.toNat = true) : Small c := by
  refine ⟨?_, ?_, ?_⟩
  · have hnone : caseRuns.find? (·.contains c.toNat) = none :=
      List.find?_eq_none.mpr fun r hr => by
        simpa using List.all_eq_true.mp h r (List.mem_cons_of_mem _ hr)
    rw [lowerChar, hnone]
  · rintro rfl
    have hsigma : settled 931 = false := by decide +kernel
    exact Bool.false_ne_true (hsigma.symm.trans h)
  · rintro rfl
    have hdotted : settled 304 = false := by decide +kernel
    exact Bool.false_ne_true (hdotted.symm.trans h)

theorem CaseRun.settled_small (hr : r ∈ caseRuns) (h : r.contains n = true) :
    settled (r.small n) = true := by
  have hsettled := List.all_eq_true.mp smalls_settled r hr
  refine List.all_eq_true.mpr fun r' hr' => ?_
  rw [spares_small h (List.all_eq_true.mp hsettled r' hr'), Bool.not_false]

theorem small_lowerChar (hs : c ≠ 'Σ') (hd : c ≠ 'İ') : Small (lowerChar c) := by
  unfold lowerChar
  split
  · rename_i r hr
    have hcapital : r.contains c.toNat = true := by simpa using List.find?_some hr
    refine small_of_settled ?_
    -- A code point of no character would become the zero, which is no capital either.
    rw [Char.toNat_ofNat]
    split
    · exact CaseRun.settled_small (List.mem_of_find?_eq_some hr) hcapital
    · decide +kernel
  · rename_i hnone
    exact ⟨by rw [lowerChar, hnone], hs, hd⟩

theorem small_lowerChars (before cs : List Char) : ∀ c ∈ lowerChars before cs, Small c := by
  induction cs generalizing before with
  | nil => nofun
  | cons d rest ih =>
    rw [lowerChars]
    refine List.forall_mem_append.mpr ⟨?_, ih (d :: before)⟩
    split
    · refine List.forall_mem_singleton.mpr ?_
      split <;> exact small_of_settled (by decide +kernel)
    · split
      · exact List.forall_mem_cons.mpr ⟨small_of_settled (by decide +kernel),
          List.forall_mem_singleton.mpr (small_of_settled (by decide +kernel))⟩
      · rename_i hs hd
        simpa using small_lowerChar (by simpa using hs) (by simpa using hd)

theorem lowerChars_of_small (before : List Char) (h : ∀ c ∈ cs, Small c) :
    lowerChars before cs = cs := by
  induction cs generalizing before with
  | nil => rfl
  | cons c rest ih =>
    obtain ⟨hc, hrest⟩ := List.forall_mem_cons.mp h
    rw [lowerChars, ih (c :: before) hrest, if_neg (by simpa using hc.not_sigma),
      if_neg (by simpa using hc.not_dotted), hc.table]
    rfl

theorem small_lower (s : String) : ∀ c ∈ (lower s).toList, Small c := by
  rw [lower, String.toList_ofList]
  exact small_lowerChars [] s.toList

theorem lower_of_small (h : ∀ c ∈ s.toList, Small c) : lower s = s := by
  rw [lower, lowerChars_of_small [] h, String.ofList_toList]

theorem lower_lower (s : String) : lower (lower s) = lower s := lower_of_small (small_lower s)

end CategoryAudit.Text
