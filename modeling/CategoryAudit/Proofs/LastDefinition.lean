import CategoryAudit.Proofs.Reached

/-!
# The last definition counts

On coming to a directive, a name is defined exactly if the last of the directives before it that
name the name defines it. Of all directives, those count that reading comes to, within namespaces,
types, selected branches, regions and broken text; those in other branches, in methods or in other
members do not. `last_definition` says so for every tree.
-/

namespace CategoryAudit

open Concrete (Node Spot)

namespace Outline

variable {source : ByteArray}

-- ---------------------------------------------------------------------------
-- Symbols from one directive to the next
-- ---------------------------------------------------------------------------

def Defines (source : ByteArray) (name : String) (p : Spot) : Prop :=
  change? source p = some (.define name)

def Names (source : ByteArray) (name : String) (p : Spot) : Prop :=
  (change? source p).map Symbols.Change.name = some name

theorem mem_after (m : Moment) (name : String) : name ∈ Moment.after source m ↔
    Defines source name m.spot ∨ name ∈ m.defined ∧ ¬ Names source name m.spot := by
  rw [Moment.after, Defines, Names]
  cases change? source m.spot with
  | none => simp
  | some change => simp [Symbols.mem_apply]

/-- The symbols before some directives, those on coming to each, and those after all of them. -/
inductive Linked (source : ByteArray) : Symbols → List Moment → Symbols → Prop
  | nil : Linked source s [] s
  | cons : Linked source (Moment.after source m) met t → Linked source m.defined (m :: met) t

theorem Linked.append (h : Linked source s met t) (h' : Linked source t later u) :
    Linked source s (met ++ later) u := by
  induction h with
  | nil => exact h'
  | cons _ ih => exact .cons (ih h')

theorem Linked.front (h : Linked source s (past ++ m :: future) t) :
    Linked source s past m.defined := by
  induction past generalizing s with
  | nil => cases h with | cons _ => exact .nil
  | cons e past ih => cases h with | cons h => exact .cons (ih h)

theorem Runs.linked (h : Runs source task s met out) :
    ∃ t, Linked source s met t ∧ ∀ u, out = .ok u → u = t := by
  induction h with
  | tooDeep => exact ⟨_, .nil, nofun⟩
  | done | leaf => exact ⟨_, .nil, fun u hu => (Except.ok.inj hu).symm⟩
  | stopped _ ih | item _ _ ih => exact ih
  | more _ _ ih ihRest =>
    obtain ⟨t, hlinked, ht⟩ := ih
    obtain ⟨u, hlater, hu⟩ := ihRest
    rw [ht _ rfl] at hlater
    exact ⟨u, hlinked.append hlater, hu⟩
  | @refused s p => exact ⟨_, .cons (m := ⟨p, s⟩) .nil, nofun⟩
  | @closed s p =>
    exact ⟨_, .cons (m := ⟨p, s⟩) .nil, fun u hu => (Except.ok.inj hu).symm⟩
  | @opened s p _ _ _ _ _ ih =>
    obtain ⟨t, hlinked, ht⟩ := ih
    exact ⟨t, .cons (m := ⟨p, s⟩) hlinked, ht⟩

/-- After some directives, a name is defined exactly if the last of them that names it defines it,
or if it was defined before and none names it. -/
theorem Linked.mem_iff (h : Linked source s met t)
    (ho : met.Pairwise fun m m' => m.spot.way < m'.spot.way) (name : String) :
    name ∈ t ↔
      (∃ e ∈ met, Defines source name e.spot ∧
        ∀ e' ∈ met, e.spot.way < e'.spot.way → ¬ Names source name e'.spot) ∨
      name ∈ s ∧ ∀ e ∈ met, ¬ Names source name e.spot := by
  induction h with
  | nil => simp
  | @cons m met t _ ih =>
    obtain ⟨hfirst, hrest⟩ := List.pairwise_cons.mp ho
    have hlast : (∃ e ∈ m :: met, Defines source name e.spot ∧
          ∀ e' ∈ m :: met, e.spot.way < e'.spot.way → ¬ Names source name e'.spot) ↔
        Defines source name m.spot ∧ (∀ e' ∈ met, ¬ Names source name e'.spot) ∨
        ∃ e ∈ met, Defines source name e.spot ∧
          ∀ e' ∈ met, e.spot.way < e'.spot.way → ¬ Names source name e'.spot := by
      simp only [List.exists_mem_cons_iff, List.forall_mem_cons, lt_irrefl, false_implies, true_and]
      refine or_congr (and_congr_right fun _ => ?_) (exists_congr fun e => and_congr_right fun he =>
        and_congr_right fun _ => ?_)
      · exact forall₂_congr fun e' he' => by simp [hfirst e' he']
      · simp [(hfirst e he).not_gt]
    rw [ih hrest, hlast, mem_after, List.forall_mem_cons, or_and_right, and_assoc, or_left_comm,
      or_assoc]

-- ---------------------------------------------------------------------------
-- The branches of a conditional directive
-- ---------------------------------------------------------------------------

theorem Runs.defined (h : Runs source (.directive q) s met out) (hm : m ∈ met)
    (hway : m.spot.way = q.way) : m.defined = s := by
  cases h with
  | tooDeep => cases hm
  | refused | closed =>
    cases List.mem_singleton.mp hm
    rfl
  | opened hopened hrun =>
    rcases List.mem_cons.mp hm with rfl | hm
    · rfl
    · exact absurd hway (ne_of_gt ((inside_of_opened hopened).lt (hrun.covered m hm)))

theorem Runs.next (h : Runs source task s met out) (ho : task.Ordered) :
    ∀ m ∈ met, ∀ m' ∈ met,
      Outline.opened source m.defined m.spot = .ok (some (.directive m'.spot)) →
      m'.defined = Moment.after source m := by
  have hinside {m m' : Moment}
      (hnext : Outline.opened source m.defined m.spot = .ok (some (.directive m'.spot))) :
      m.spot.way <+: m'.spot.way ∧ m.spot.way < m'.spot.way :=
    have hself : (Task.directive m'.spot).Covers m'.spot :=
      Task.covers_directive.mpr List.prefix_rfl
    ⟨(inside_of_opened hnext).above hself, (inside_of_opened hnext).lt hself⟩
  induction h with
  | tooDeep | done | leaf => nofun
  | stopped _ ih => exact ih (Task.ordered_item _)
  | more hitem hrest ih ihRest =>
    intro m hm m' hm' hnext
    rcases List.mem_append.mp hm with hm | hm <;> rcases List.mem_append.mp hm' with hm' | hm'
    · exact ih (Task.ordered_item _) m hm m' hm' hnext
    · have hc := (hitem.covered m hm).below (hinside hnext).1
      exact absurd (ho.lt hc (hrest.covered m' hm')) (lt_irrefl _)
    · have hc := (hrest.covered m hm).below (hinside hnext).1
      exact absurd (ho.lt (hitem.covered m' hm') hc) (lt_irrefl _)
    · exact ihRest ho.tail m hm m' hm' hnext
  | item hparts _ ih => exact ih (Task.ordered_of_parts? hparts)
  | refused | closed =>
    intro m hm m' hm' hnext
    cases List.mem_singleton.mp hm
    cases List.mem_singleton.mp hm'
    exact absurd (hinside hnext).2 (lt_irrefl _)
  | opened hopened hrun ih =>
    have hwithin := inside_of_opened hopened
    intro m hm m' hm' hnext
    rcases List.mem_cons.mp hm with rfl | hm <;> rcases List.mem_cons.mp hm' with rfl | hm'
    · exact absurd (hinside hnext).2 (lt_irrefl _)
    · rw [hopened] at hnext
      cases hnext
      exact hrun.defined hm' rfl
    · exact absurd (hwithin.lt (hrun.covered m hm)) (hinside hnext).2.not_gt
    · exact ih hwithin.ordered m hm m' hm' hnext

-- ---------------------------------------------------------------------------
-- Whole trees
-- ---------------------------------------------------------------------------

def start (tree : Concrete.Tree) : Task := .several (Spot.mk [] tree.root).constructs

def courseOf (source : ByteArray) (tree : Concrete.Tree) : Course :=
  course source depthLimit (start tree) []

def Comes (source : ByteArray) (tree : Concrete.Tree) (task : Task) : Prop :=
  Reaches source (courseOf source tree).met (start tree) task

def Counts (source : ByteArray) (tree : Concrete.Tree) (q : Spot) : Prop :=
  Comes source tree (.directive q)

section
variable (source : ByteArray) (tree : Concrete.Tree)

theorem ordered_start : (start tree).Ordered := (inside_select _ _).ordered

theorem courseOf_out : (courseOf source tree).out =
    ((readAll source depthLimit tree.root.constructs).run []).map (·.2) := by
  rw [courseOf, course_out, left, start, Task.read, Spot.map_constructs]

theorem counts_of_met (hm : m ∈ (courseOf source tree).met) : Counts source tree m.spot :=
  (course_runs ..).reached m hm

theorem met_of_counts (hq : Counts source tree q) :
    (∃ m ∈ (courseOf source tree).met, m.spot = q) ∨
    (∃ e, (courseOf source tree).out = .error e) ∧
      ∀ m ∈ (courseOf source tree).met, m.spot.way < q.way :=
  (course_runs ..).complete (ordered_start tree) (fun _ hm _ => hm) hq

variable {source tree}

theorem met_of_counts_before (hq : Counts source tree q) (hm : m ∈ (courseOf source tree).met)
    (hlt : q.way < m.spot.way) : ∃ e ∈ (courseOf source tree).met, e.spot = q := by
  rcases met_of_counts source tree hq with h | ⟨-, h⟩
  · exact h
  · exact absurd (h m hm) hlt.not_gt

theorem defined_iff (hm : m ∈ (courseOf source tree).met) (name : String) :
    name ∈ m.defined ↔ ∃ d, Counts source tree d ∧ d.way < m.spot.way ∧ Defines source name d ∧
      ∀ d', Counts source tree d' → d.way < d'.way → d'.way < m.spot.way →
        ¬ Names source name d' := by
  have hruns : Runs source (start tree) [] (courseOf source tree).met (courseOf source tree).out :=
    course_runs ..
  have horder := hruns.ordered (ordered_start tree)
  obtain ⟨t, hlinked, -⟩ := hruns.linked
  obtain ⟨past, future, hmet⟩ := List.append_of_mem hm
  rw [hmet] at hlinked horder
  obtain ⟨hpast, hfuture, hbefore⟩ := List.pairwise_append.mp horder
  -- What is met earlier in time is what stands earlier in the text.
  have hmem : ∀ e, e ∈ past ↔ e ∈ (courseOf source tree).met ∧ e.spot.way < m.spot.way := by
    intro e
    rw [hmet, List.mem_append, List.mem_cons]
    constructor
    · exact fun he => ⟨.inl he, hbefore e he m List.mem_cons_self⟩
    · rintro ⟨he | rfl | he, hlt⟩
      · exact he
      · exact absurd hlt (lt_irrefl _)
      · exact absurd hlt (List.rel_of_pairwise_cons hfuture he).not_gt
  rw [hlinked.front.mem_iff hpast]
  constructor
  · rintro (⟨e, he, hdefines, hlast⟩ | ⟨hnone, -⟩)
    · obtain ⟨hmet, hlt⟩ := (hmem e).mp he
      refine ⟨e.spot, counts_of_met source tree hmet, hlt, hdefines, fun d' hd' hlt' hltm => ?_⟩
      obtain ⟨e', he', rfl⟩ := met_of_counts_before hd' hm hltm
      exact hlast e' ((hmem e').mpr ⟨he', hltm⟩) hlt'
    · cases hnone
  · rintro ⟨d, hd, hltm, hdefines, hlast⟩
    obtain ⟨e, he, rfl⟩ := met_of_counts_before hd hm hltm
    refine .inl ⟨e, (hmem e).mpr ⟨he, hltm⟩, hdefines, fun e' he' hlt => ?_⟩
    obtain ⟨hmet', hltm'⟩ := (hmem e').mp he'
    exact hlast e'.spot (counts_of_met source tree hmet') hlt hltm'

end

/-- Reading a file meets its directives in the order of the text: all that count or, if it ends with
an error, those up to some place. None stands within a method or another member that is not looked
into, and what stands within a directive is in the branch that its condition selects. On coming to a
directive, a name is defined exactly if there are definitions that count before it and name the
name, and the last of these defines it. All conditions along the branches of a directive are tested
with the same symbols. -/
theorem last_definition (source : ByteArray) (tree : Concrete.Tree) :
    (courseOf source tree).out =
      ((readAll source depthLimit tree.root.constructs).run []).map (·.2) ∧
    ((courseOf source tree).met.Pairwise fun m m' => m.spot.way < m'.spot.way) ∧
    (∀ m ∈ (courseOf source tree).met, Counts source tree m.spot) ∧
    (∀ q, Counts source tree q → (∃ m ∈ (courseOf source tree).met, m.spot = q) ∨
      (∃ e, (courseOf source tree).out = .error e) ∧
        ∀ m ∈ (courseOf source tree).met, m.spot.way < q.way) ∧
    (∀ p, Comes source tree (.item p) → parts? p = none →
      ∀ q, Counts source tree q → ¬ p.way <+: q.way) ∧
    (∀ m ∈ (courseOf source tree).met, ∀ q, Counts source tree q → m.spot.way <+: q.way →
      q = m.spot ∨ ∃ task, opened source m.defined m.spot = .ok (some task) ∧ task.Covers q) ∧
    (∀ m ∈ (courseOf source tree).met, ∀ name, name ∈ m.defined ↔
      ∃ d, Counts source tree d ∧ d.way < m.spot.way ∧ Defines source name d ∧
        ∀ d', Counts source tree d' → d.way < d'.way → d'.way < m.spot.way →
          ¬ Names source name d') ∧
    (∀ m ∈ (courseOf source tree).met, ∀ m' ∈ (courseOf source tree).met,
      m.spot.node.directiveRole = .conditional →
      verdict source m.defined m.spot.node = .ok false →
      m.spot.nextBranch? = some m'.spot → m'.defined = m.defined) := by
  have hruns : Runs source (start tree) [] (courseOf source tree).met (courseOf source tree).out :=
    course_runs ..
  have horder := hruns.ordered (ordered_start tree)
  refine ⟨courseOf_out source tree, horder, fun m => counts_of_met source tree,
    fun q => met_of_counts source tree, ?_, ?_, fun m hm => defined_iff hm, ?_⟩
  · intro p hp hparts q hq hway
    have hitem := hp.through (ordered_start tree) horder hq (Task.covers_item.mpr hway)
    cases hitem with
    | item hparts' _ => rw [hparts] at hparts'; cases hparts'
  · intro m hm q hq hway
    have hdirective := (counts_of_met source tree hm).through (ordered_start tree) horder hq
      (Task.covers_directive.mpr hway)
    rcases hdirective.of_directive fun s' => defined_unique horder hm with rfl | ⟨task, ho, hq⟩
    · exact .inl rfl
    · exact .inr ⟨task, ho, hq.covered⟩
  · intro m hm m' hm' hrole hv hnext
    have hopened : opened source m.defined m.spot = .ok (some (.directive m'.spot)) := by
      simp [opened, hrole, hv, hnext, Except.map]
    have hafter : Moment.after source m = m.defined := by simp [Moment.after, change?, hrole]
    rw [hruns.next (ordered_start tree) m hm m' hm' hopened, hafter]

/-- A definition within a namespace, and a condition after it. -/
def nestedText : String := "namespace N\n\x7b\n#define A\n\x7d\n#if A\n#endif"

def nested : Concrete.Tree :=
  ⟨.mk "compilation_unit" 0 38 0 none true false [
    .mk "namespace_declaration" 0 25 0 none true false [
      .mk "identifier" 10 11 0 (some "name") true false [],
      .mk "declaration_list" 12 25 1 (some "body") true false [
        .mk "preproc_define" 14 23 2 none true false []]],
    .mk "preproc_if" 26 38 4 none true false [
      .mk "identifier" 30 31 4 (some "condition") true false []]], false⟩

theorem last_definition_nested :
    (courseOf nestedText.toUTF8 nested).met.map (fun m => (m.spot.way, m.defined)) =
      [([0, 1, 0], []), ([1], ["A"])] ∧
    ∃ d, Counts nestedText.toUTF8 nested d ∧ d.way < [1] ∧ Defines nestedText.toUTF8 "A" d := by
  have hmet : (courseOf nestedText.toUTF8 nested).met.map (fun m => (m.spot.way, m.defined)) =
      [([0, 1, 0], []), ([1], ["A"])] := by decide +kernel
  have hmem : ([1], ["A"]) ∈
      (courseOf nestedText.toUTF8 nested).met.map fun m => (m.spot.way, m.defined) := by
    rw [hmet]
    simp
  obtain ⟨m, hm, hboth⟩ := List.mem_map.mp hmem
  obtain ⟨hway, hdefined⟩ := Prod.mk.inj hboth
  obtain ⟨-, -, -, -, -, -, hlast, -⟩ := last_definition nestedText.toUTF8 nested
  have hA : "A" ∈ m.defined := by simp [hdefined]
  obtain ⟨d, hcounts, hlt, hdefines, -⟩ := (hlast m hm "A").mp hA
  exact ⟨hmet, d, hcounts, hway ▸ hlt, hdefines⟩

end Outline

end CategoryAudit
