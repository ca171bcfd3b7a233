import CategoryAudit.Proofs.Resolve

/-!
# Directives behind the branches

A directive at the end of a branch need not be a child of that branch: it can stand behind it, as
a child of the whole conditional directive. Reading goes by children and not by places, so what
stands there is read with the first branch. `textual_iff` says when this comes to the same as going
by places, and `trailing_definition` that it does not always.
-/

namespace CategoryAudit

open Concrete (Node)

namespace Concrete.Node

/-- The children of a conditional directive that are read if its condition is true. -/
def ownBody (n : Node) : List Node :=
  n.branchBody ((n.child? "condition").toList ++ (n.child? "alternative").toList)

/-- Whether a child of a conditional directive stands in the text of its next branch. -/
def isBehind (alt c : Node) : Bool := alt.start ≤ c.start

/-- The definitions that stand in the text of the next branch. -/
def trailing (n alt : Node) : List Node :=
  n.constructs.filter fun c => alt.isBehind c && c.directiveRole == .definition

end Concrete.Node

namespace Outline

def updates (source : ByteArray) (s : Symbols) (definitions : List Node) : Symbols :=
  definitions.foldl (fun t d => t.update (d.text source)) s

section
variable (source : ByteArray) (depth : Nat)

def Idle (s : Symbols) (c : Node) : Prop := (readOne source depth c).run s = .ok ([], s)

/-- Of some nodes, those behind a branch have no effect where they are read. -/
def Inert (behind : Node → Bool) (nodes : List Node) (s : Symbols) : Prop :=
  ∀ pre c post, nodes = pre ++ c :: post → behind c = true →
    ∀ found t, (concat (readOne source depth) pre).run s = .ok (found, t) → Idle source depth t c

/-- The law of places for a conditional directive with a next branch. -/
structure Textual (n alt : Node) (s : Symbols) : Prop where
  /-- What stands in the text of the next branch does not count if the condition is true. -/
  inactive : verdict source s n = .ok true → Inert source depth alt.isBehind n.ownBody s
  /-- If the next branch is the one that counts, the definitions in its text take effect. -/
  active : verdict source s n = .ok false → alt.directiveRole = .otherwise →
    (readDirective source (depth + 2) n).run s =
      (readDirective source (depth + 1) alt).run s >>= fun read =>
        .ok (read.1, updates source read.2 (n.trailing alt))

end

variable {source : ByteArray} {depth : Nat} {behind : Node → Bool}

-- ---------------------------------------------------------------------------
-- Nodes without effect
-- ---------------------------------------------------------------------------

theorem concat_run_cons (f : Node → Reading (List Declaration)) (c : Node) (rest : List Node)
    (s : Symbols) : (concat f (c :: rest)).run s =
      (f c).run s >>= fun here => (concat f rest).run here.2 >>= fun more =>
        .ok (here.1 ++ more.1, more.2) := by
  simp only [concat, StateT.run_bind]
  rfl

theorem Inert.front (h : Inert source depth behind nodes s) (hn : nodes = pre ++ post) :
    Inert source depth behind pre s := by
  rintro front c back rfl hc
  exact h front c (back ++ post) (by simpa using hn) hc

theorem Inert.head (h : Inert source depth behind (c :: rest) s) (hc : behind c = true) :
    Idle source depth s c :=
  h [] c rest rfl hc [] s rfl

theorem Inert.tail (h : Inert source depth behind (c :: rest) s)
    (hread : (readOne source depth c).run s = .ok (found, t)) :
    Inert source depth behind rest t := by
  rintro pre d post rfl hd more u hmore
  refine h (c :: pre) d post rfl hd (found ++ more) u ?_
  rw [concat_run_cons, hread]
  simp only [Outline.ok_bind_iff]
  exact ⟨_, rfl, _, hmore, rfl⟩

theorem Inert.concat_filter (h : Inert source depth behind nodes s) :
    (concat (readOne source depth) (nodes.filter (!behind ·))).run s =
      (concat (readOne source depth) nodes).run s := by
  induction nodes generalizing s with
  | nil => rfl
  | cons c rest ih =>
    cases hc : behind c with
    | true =>
      have hidle : (readOne source depth c).run s = .ok ([], s) := h.head hc
      rw [List.filter_cons_of_neg (by simp [hc]), ih (h.tail hidle), concat_run_cons, hidle]
      simp only [bind, Except.bind]
      cases (concat (readOne source depth) rest).run s <;> rfl
    | false =>
      rw [List.filter_cons_of_pos (by simp [hc]), concat_run_cons, concat_run_cons]
      cases hread : (readOne source depth c).run s with
      | error e => rfl
      | ok read => simp only [bind, Except.bind, ih (h.tail hread)]

theorem inert_iff : Inert source depth behind nodes s ↔
    ∀ pre c post, nodes = pre ++ c :: post → behind c = true →
      ∀ found t, (concat (readOne source depth) (pre.filter (!behind ·))).run s = .ok (found, t) →
        Idle source depth t c := by
  constructor
  · intro h pre c post hn hc found t hread
    rw [(h.front hn).concat_filter] at hread
    exact h pre c post hn hc found t hread
  · intro h pre
    induction hk : pre.length using Nat.strongRecOn generalizing pre with
    | ind k ih =>
      intro c post hn hc found t hread
      -- The nodes before `c` are without effect, so they leave the same symbols without them.
      have hpre : Inert source depth behind pre s := by
        rintro front d back rfl hd
        have hlt : front.length < k := by simp at hk; omega
        exact ih front.length hlt front rfl d (back ++ c :: post) (by simpa using hn) hd
      refine h pre c post hn hc found t ?_
      rw [hpre.concat_filter, hread]

-- ---------------------------------------------------------------------------
-- Reading by children
-- ---------------------------------------------------------------------------

theorem readDirective_true (hn : n.directiveRole = .conditional)
    (hv : verdict source s n = .ok true) (depth : Nat) :
    (readDirective source (depth + 2) n).run s =
      (concat (readOne source depth) n.ownBody).run s := by
  rw [readDirective_conditional hn, hv, readAll, Node.ownBody]

theorem readDirective_false (hn : n.directiveRole = .conditional) (ha : n.nextBranch? = some alt)
    (hv : verdict source s n = .ok false) (depth : Nat) :
    (readDirective source (depth + 1) n).run s = (readDirective source depth alt).run s := by
  rw [readDirective_conditional hn, hv, ha]

/-- A directive whose condition is true is read with all its children besides the branches, also
with those behind the next branch; one whose condition is false with none. This comes to the same as
going by places exactly if the children behind the branch change nothing under the symbols that the
rest of the first branch leaves, and the definitions among them nothing under those that the next
branch leaves. -/
theorem textual_iff (hn : n.directiveRole = .conditional) (ha : n.nextBranch? = some alt)
    (s : Symbols) :
    (verdict source s n = .ok true → (readDirective source (depth + 2) n).run s =
      (concat (readOne source depth) n.ownBody).run s) ∧
    (verdict source s n = .ok false → (readDirective source (depth + 2) n).run s =
      (readDirective source (depth + 1) alt).run s) ∧
    (Textual source depth n alt s ↔
      (verdict source s n = .ok true → ∀ pre c post, n.ownBody = pre ++ c :: post →
        alt.start ≤ c.start → ∀ found t, (concat (readOne source depth)
          (pre.filter (!alt.isBehind ·))).run s = .ok (found, t) → Idle source depth t c) ∧
      (verdict source s n = .ok false → alt.directiveRole = .otherwise →
        ∀ found t, (readDirective source (depth + 1) alt).run s = .ok (found, t) →
          updates source t (n.trailing alt) = t)) := by
  refine ⟨fun hv => readDirective_true hn hv depth,
    fun hv => readDirective_false hn ha hv (depth + 1), ?_⟩
  constructor
  · rintro ⟨hinactive, hactive⟩
    refine ⟨fun hv pre c post hbody hc => ?_, fun hv hrole found t hread => ?_⟩
    · exact inert_iff.mp (hinactive hv) pre c post hbody (by simpa [Node.isBehind] using hc)
    · have hsame := hactive hv hrole
      rw [readDirective_false hn ha hv, hread] at hsame
      exact (congrArg Prod.snd (Except.ok.inj hsame)).symm
  · rintro ⟨hinactive, hactive⟩
    refine ⟨fun hv => inert_iff.mpr fun pre c post hbody hc => ?_, fun hv hrole => ?_⟩
    · exact hinactive hv pre c post hbody (by simpa [Node.isBehind] using hc)
    · rw [readDirective_false hn ha hv]
      cases hread : (readDirective source (depth + 1) alt).run s with
      | error e => rfl
      | ok read => simp only [bind, Except.bind, hactive hv hrole read.1 read.2 hread]

def elseDefinesText : String := "#if A\n#else\n#define B\n#endif\n"

def definesB : Node := .mk "preproc_define" 12 22 2 none true false []

def bareElse : Node :=
  .mk "preproc_else" 6 11 1 (some "alternative") true false [.mk "#else" 6 11 1 none false false []]

def elseDefines : Node :=
  .mk "preproc_if" 0 28 0 none true false [
    .mk "#if" 0 3 0 none false false [],
    .mk "identifier" 4 5 0 (some "condition") true false [],
    bareElse, definesB,
    .mk "#endif" 22 28 3 none false false []]

theorem verdict_elseDefines (s : Symbols) :
    verdict elseDefinesText.toUTF8 s elseDefines = .ok (s.contains "A") := by
  have htext : Node.text (.mk "identifier" 4 5 0 (some "condition") true false [])
      elseDefinesText.toUTF8 = "A" := by decide +kernel
  have hcondition : elseDefines.child? "condition" =
      some (.mk "identifier" 4 5 0 (some "condition") true false []) := by rfl
  have hparse : Condition.parse "A" = .ok (.symbol "A") := by cbv
  rw [verdict, hcondition]
  simp only [htext, Condition.evalText, hparse]
  rfl

theorem update_definesB (s : Symbols) :
    s.update (definesB.text elseDefinesText.toUTF8) = s.add "B" := by
  have htext : definesB.text elseDefinesText.toUTF8 = "#define B\n" := by decide +kernel
  have hchange : Symbols.Change.ofText? "#define B\n" = some (.define "B") := by cbv
  rw [htext, Symbols.update, hchange]
  rfl

theorem readOne_definesB (depth : Nat) (s : Symbols) :
    (readOne elseDefinesText.toUTF8 (depth + 2) definesB).run s = .ok ([], s.add "B") := by
  rw [readOne_directive (by decide), ← update_definesB]
  rfl

theorem ownBody_elseDefines : elseDefines.ownBody = [definesB] := rfl

/-- A definition that is known already does no harm behind a branch. -/
theorem known_definition : elseDefines.directiveRole = .conditional ∧
    elseDefines.nextBranch? = some bareElse ∧
    Textual elseDefinesText.toUTF8 996 elseDefines bareElse ["A", "B"] := by
  have hrole : elseDefines.directiveRole = .conditional := by decide
  refine ⟨hrole, rfl, (textual_iff hrole rfl ["A", "B"]).2.2.mpr ⟨?_, ?_⟩⟩
  · intro _ pre c post hbody _ found t hread
    rw [ownBody_elseDefines] at hbody
    obtain ⟨rfl, rfl⟩ : pre = [] ∧ c = definesB := by
      cases pre with
      | nil => exact ⟨rfl, (List.cons.inj hbody).1.symm⟩
      | cons d pre => simp at hbody
    cases hread
    exact readOne_definesB 994 ["A", "B"]
  · intro hv
    rw [verdict_elseDefines] at hv
    exact absurd (Except.ok.inj hv) (by decide)

/-- If the condition is true the definition counts although it stands behind `#else`, and if it is
false the definition is lost. -/
theorem trailing_definition :
    elseDefines.nextBranch? = some bareElse ∧ bareElse.directiveRole = .otherwise ∧
    elseDefines.trailing bareElse = [definesB] ∧
    verdict elseDefinesText.toUTF8 ["A"] elseDefines = .ok true ∧
    (readDirective elseDefinesText.toUTF8 998 elseDefines).run ["A"] = .ok ([], ["B", "A"]) ∧
    ¬ Textual elseDefinesText.toUTF8 996 elseDefines bareElse ["A"] ∧
    verdict elseDefinesText.toUTF8 [] elseDefines = .ok false ∧
    (readDirective elseDefinesText.toUTF8 998 elseDefines).run [] = .ok ([], []) ∧
    ¬ Textual elseDefinesText.toUTF8 996 elseDefines bareElse [] := by
  have hrole : elseDefines.directiveRole = .conditional := by decide
  have htrue := verdict_elseDefines ["A"]
  have hfalse := verdict_elseDefines []
  have helse : (readDirective elseDefinesText.toUTF8 997 bareElse).run [] = .ok ([], []) := rfl
  have hlost : (readDirective elseDefinesText.toUTF8 998 elseDefines).run [] = .ok ([], []) :=
    (readDirective_false hrole rfl hfalse 997).trans helse
  refine ⟨rfl, by decide, rfl, htrue, ?_, fun h => ?_, hfalse, hlost, fun h => ?_⟩
  · rw [readDirective_true hrole htrue, ownBody_elseDefines, concat_run_cons, readOne_definesB]
    rfl
  · have hidle := h.inactive htrue [] definesB [] ownBody_elseDefines rfl [] ["A"] rfl
    rw [Idle, readOne_definesB] at hidle
    exact absurd (congrArg Prod.snd (Except.ok.inj hidle)) (by decide)
  · have hactive := h.active hfalse (by decide)
    rw [hlost, helse] at hactive
    have hupdates : [] = Symbols.update [] (definesB.text elseDefinesText.toUTF8) :=
      congrArg Prod.snd (Except.ok.inj hactive)
    rw [update_definesB] at hupdates
    exact absurd hupdates (by decide)

end Outline

end CategoryAudit
