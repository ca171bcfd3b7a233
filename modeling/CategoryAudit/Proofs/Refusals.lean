import Mathlib.Data.ENat.Basic
import CategoryAudit.Proofs.Findings

/-!
# How an analysis fails

An analysis walks over a file twice, as far as the first namespace that counts and then to the end,
and then goes through the methods of each test class. So values that are no declarations, test
classes without a name and test methods without a name compete for the failure that is reported.
Which of them wins depends only on the places where the first of each kind stands
(`analyze_refuses`).
-/

namespace CategoryAudit

-- ---------------------------------------------------------------------------
-- What an analysis may refuse
-- ---------------------------------------------------------------------------

namespace Declaration

mutual
def height : Declaration → ℕ
  | .scope _ _ _ members => 1 + heights members
  | .type _ _ members => 1 + heights members
  | .method _ => 0
  | .other _ _ => 0
  | .foreign _ => 0
def heights : List Declaration → ℕ
  | [] => 0
  | d :: rest => max d.height (heights rest)
end

def foreign? : Declaration → Option String
  | .foreign sort => some sort
  | _ => none

theorem foreign?_eq_some {d : Declaration} : d.foreign? = some sort ↔ d = .foreign sort := by
  cases d <;> simp [foreign?]

def namelessClass? (markers : Markers) : Declaration → Option Int
  | .type kind header _ =>
    if kind == "class" && header.isPublic && header.carries markers.testClass &&
        header.properName?.isNone then
      some header.line
    else none
  | _ => none

def namelessMethod? (markers : Markers) : Declaration → Option Int
  | .method header =>
    if header.isPublic && header.carries markers.testMethod && header.properName?.isNone then
      some header.line
    else none
  | _ => none

/-- The test methods without a name directly in a test class: the line of each and the name of the
class. -/
def namelessMethods (markers : Markers) : Declaration → List (Int × String)
  | .type kind header members =>
    if kind == "class" && header.isPublic && header.carries markers.testClass then
      match header.properName? with
      | some name => (members.filterMap (namelessMethod? markers)).map (·, name)
      | none => []
    else []
  | _ => []

/-- The place of the first declaration of a kind, beyond all places if there is none. -/
def place (kind? : Declaration → Option α) : List Declaration → ℕ∞
  | [] => ⊤
  | d :: rest => if (kind? d).isSome then 0 else place kind? rest + 1

-- ---------------------------------------------------------------------------
-- Places
-- ---------------------------------------------------------------------------

theorem place_eq_top {kind? : Declaration → Option α} {ds : List Declaration} :
    place kind? ds = ⊤ ↔ ds.findSome? kind? = none := by
  induction ds with
  | nil => simp [place]
  | cons d rest ih =>
    cases h : kind? d with
    | none => simpa [place, h] using ih
    | some a => simp [place, h]

theorem found_of_place_lt {kind? : Declaration → Option α} (h : place kind? ds < i) :
    ∃ a, ds.findSome? kind? = some a :=
  Option.ne_none_iff_exists'.mp (mt place_eq_top.mpr (ne_top_of_lt h))

theorem findSome?_eq_some_iff_place {kind? : Declaration → Option α} {ds : List Declaration} :
    ds.findSome? kind? = some a ↔ ∃ i : ℕ, place kind? ds = i ∧ ds[i]?.bind kind? = some a := by
  induction ds with
  | nil => simp
  | cons d rest ih =>
    cases h : kind? d with
    | some b =>
      simp only [List.findSome?_cons, h, place, Option.isSome_some, if_true]
      constructor
      · intro hb
        exact ⟨0, rfl, by simpa [h] using hb⟩
      · rintro ⟨i, hi, ha⟩
        obtain rfl : 0 = i := by exact_mod_cast hi
        simpa [h] using ha
    | none =>
      simp only [List.findSome?_cons, h, place, Option.isSome_none, Bool.false_eq_true, if_false,
        ih]
      constructor
      · rintro ⟨i, hi, ha⟩
        exact ⟨i + 1, by simp [hi], by simpa using ha⟩
      · rintro ⟨i, hi, ha⟩
        cases i with
        | zero => simp at hi
        | succ i =>
          refine ⟨i, ?_, by simpa using ha⟩
          exact ENat.add_left_injective_of_ne_top ENat.one_ne_top (by exact_mod_cast hi)

theorem place_lt_iff_not {kind? : Declaration → Option α} {other? : Declaration → Option β}
    (apart : ∀ d, (kind? d).isSome → other? d = none) (found : ds.findSome? kind? = some a) :
    place kind? ds < place other? ds ↔ ¬ place other? ds < place kind? ds := by
  refine ⟨lt_asymm, fun h => lt_of_le_of_ne (not_lt.mp h) fun same => ?_⟩
  obtain ⟨i, hi, ha⟩ := findSome?_eq_some_iff_place.mp found
  obtain ⟨b, hb⟩ : ∃ b, ds.findSome? other? = some b := by
    rw [← Option.ne_none_iff_exists', ne_eq, ← place_eq_top, ← same, hi]
    exact ENat.natCast_ne_top i
  obtain ⟨j, hj, hb⟩ := findSome?_eq_some_iff_place.mp hb
  obtain rfl : j = i := by exact_mod_cast (hj.symm.trans same.symm).trans hi
  obtain ⟨d, hd, hda⟩ := Option.bind_eq_some_iff.mp ha
  rw [hd, Option.bind_some, apart d (by simp [hda])] at hb
  cases hb

theorem findSome?_takeWhile {kind? : Declaration → Option α} {other? : Declaration → Option β}
    (ds : List Declaration) :
    (ds.takeWhile fun d => (kind? d).isNone).findSome? other? =
      if place other? ds < place kind? ds then ds.findSome? other? else none := by
  induction ds with
  | nil => simp
  | cons d rest ih =>
    cases hk : kind? d with
    | some a => simp [place, hk]
    | none =>
      cases ho : other? d with
      | some b => simp [place, hk, ho]
      | none =>
        simp [place, hk, ho, ih, ENat.add_lt_add_iff_right ENat.one_ne_top]

end Declaration

-- ---------------------------------------------------------------------------
-- Walks that have enough depth
-- ---------------------------------------------------------------------------

namespace Walk

open Declaration (foreign? heights preorderAll)

def through (ds : List Declaration) : Walk :=
  ⟨ds.takeWhile fun d => (foreign? d).isNone, (ds.findSome? foreign?).map .foreign⟩

theorem through_cons (h : foreign? d = none) (ds : List Declaration) :
    through (d :: ds) = append ⟨[d], none⟩ fun _ => through ds := by
  simp [through, append, h]

theorem through_append (as bs : List Declaration) :
    through (as ++ bs) = append (through as) fun _ => through bs := by
  induction as with
  | nil => rfl
  | cons a rest ih =>
    cases h : foreign? a with
    | some sort => simp [through, append, h]
    | none =>
      rw [List.cons_append, through_cons h, through_cons h, ih]
      cases ho : (through rest).obstacle <;> simp [append, ho]

theorem visited_through (h : (through ds).finish = .ok u) : (through ds).visited = ds := by
  have hnone : ds.findSome? foreign? = none := by simpa [through] using finish_ok h
  rw [through, List.takeWhile_eq_self_iff]
  intro d hd
  simp [List.findSome?_eq_none_iff.mp hnone d hd]

mutual
theorem one_eq_through (depth : Nat) : (d : Declaration) → d.height ≤ depth →
    one depth d = through d.preorder
  | .scope name fileScoped line members, h => by
    rw [Declaration.height] at h
    rw [one, inside_eq_through depth members (by omega), Declaration.preorder, through_cons rfl]
  | .type kind header members, h => by
    rw [Declaration.height] at h
    rw [one, inside_eq_through depth members (by omega), Declaration.preorder, through_cons rfl]
  | .method _, _ => by rw [one]; rfl
  | .other _ _, _ => by rw [one]; rfl
  | .foreign _, _ => by rw [one]; rfl
theorem inside_eq_through : (depth : Nat) → (members : List Declaration) →
    1 + heights members ≤ depth → inside depth members = through (preorderAll members)
  | 0, _, h => by omega
  | depth + 1, members, h => by rw [inside, all_eq_through depth members (by omega)]
theorem all_eq_through (depth : Nat) : (ds : List Declaration) → heights ds ≤ depth →
    all depth ds = through (preorderAll ds)
  | [], _ => by rw [all]; rfl
  | d :: rest, h => by
    rw [heights] at h
    rw [all, one_eq_through depth d (by omega), all_eq_through depth rest (by omega),
      preorderAll, through_append]
end

end Walk

-- ---------------------------------------------------------------------------
-- The first refusal of a sequence of steps
-- ---------------------------------------------------------------------------

def refusal? : Except ε α → Option ε
  | .error e => some e
  | .ok _ => none

theorem refusal?_eq_some {x : Except ε α} : refusal? x = some e ↔ x = .error e := by
  cases x <;> simp [refusal?]

theorem refusal?_eq_none {x : Except ε α} : refusal? x = none ↔ ∃ a, x = .ok a := by
  cases x <;> simp [refusal?]

theorem refusal?_bind {x : Except ε α} {f : α → Except ε β} {later : Option ε}
    (h : ∀ a, x = .ok a → refusal? (f a) = later) :
    refusal? (x >>= f) = (refusal? x).or later := by
  cases x with
  | error e => rfl
  | ok a => exact h a rfl

theorem refusal?_bind_pure {x : Except ε α} (f : α → β) :
    refusal? (x >>= fun a => pure (f a)) = refusal? x := by
  cases x <;> rfl

theorem refusal?_collectM (f : α → Except AnalysisError (Option β)) (as : List α) :
    refusal? (collectM f as) = as.findSome? fun a => refusal? (f a) := by
  induction as with
  | nil => rfl
  | cons a rest ih =>
    rw [collectM, refusal?_bind fun found _ => (refusal?_bind_pure _).trans ih,
      List.findSome?_cons]
    cases refusal? (f a) <;> rfl

theorem findSome?_collectM {f : α → Except AnalysisError (Option β)} {g : β → Option γ}
    {k : α → Option γ} (hnone : ∀ a, f a = .ok none → k a = none)
    (hsome : ∀ a b, f a = .ok (some b) → g b = k a) (h : collectM f as = .ok found) :
    found.findSome? g = as.findSome? k := by
  induction as generalizing found with
  | nil => cases h; rfl
  | cons a rest ih =>
    simp only [collectM, Outline.ok_bind_iff] at h
    obtain ⟨o, ha, more, hm, h⟩ := h
    cases h
    cases o with
    | none => simp [hnone a ha, ih hm]
    | some b => simp [hsome a b ha, ih hm, List.findSome?_cons]

-- ---------------------------------------------------------------------------
-- The refusals of the stages
-- ---------------------------------------------------------------------------

section
variable (markers : Markers)

theorem refusal?_testClass? (scope : String) (d : Declaration) :
    refusal? (d.testClass? markers scope) =
      (d.namelessClass? markers).map AnalysisError.unnamedClass := by
  cases d with
  | type kind header members =>
    simp only [Declaration.testClass?, Declaration.namelessClass?]
    cases hc : kind == "class" && header.isPublic && header.carries markers.testClass with
    | false => rfl
    | true => cases header.properName? <;> rfl
  | _ => rfl

theorem refusal?_testMethod? (className : String) (d : Declaration) :
    refusal? (d.testMethod? markers className) =
      (d.namelessMethod? markers).map (AnalysisError.unnamedMethod · className) := by
  cases d with
  | method header =>
    simp only [Declaration.testMethod?, Declaration.namelessMethod?]
    cases hc : header.isPublic && header.carries markers.testMethod with
    | false => rfl
    | true => cases header.properName? <;> rfl
  | _ => rfl

def TestClass.unnamedMethod? (c : TestClass) : Option AnalysisError :=
  c.members.findSome? fun m =>
    (m.namelessMethod? markers).map (AnalysisError.unnamedMethod · c.name)

theorem refusal?_findingsOf (path : String) (classes : List TestClass) :
    refusal? (findingsOf markers path classes) =
      classes.findSome? (·.unnamedMethod? markers) := by
  induction classes with
  | nil => rfl
  | cons c rest ih =>
    have hfindings : refusal? (c.findings markers path) = c.unnamedMethod? markers := by
      rw [TestClass.findings, refusal?_bind_pure, TestClass.methods, refusal?_collectM]
      simp only [refusal?_testMethod?]
      rfl
    rw [findingsOf, refusal?_bind fun found _ => (refusal?_bind_pure _).trans ih, hfindings,
      List.findSome?_cons]
    cases c.unnamedMethod? markers <;> rfl

theorem unnamedMethod?_of_testClass {d : Declaration}
    (h : d.testClass? markers scope = .ok (some c)) :
    c.unnamedMethod? markers =
      (d.namelessMethods markers).head?.map fun m => .unnamedMethod m.1 m.2 := by
  cases d with
  | type kind header members =>
    simp only [Declaration.testClass?] at h
    simp only [Declaration.namelessMethods]
    split at h
    · rename_i hc
      rw [if_pos hc]
      cases hn : header.properName? with
      | none => rw [hn] at h; cases h
      | some name =>
        rw [hn] at h
        cases h
        simp [TestClass.unnamedMethod?, Function.comp_def]
    · cases h
  | _ => cases h

theorem namelessMethods_of_no_testClass {d : Declaration}
    (h : d.testClass? markers scope = .ok none) : d.namelessMethods markers = [] := by
  cases d with
  | type kind header members =>
    simp only [Declaration.testClass?] at h
    simp only [Declaration.namelessMethods]
    split at h
    · split at h <;> cases h
    · rename_i hc
      exact if_neg hc
  | _ => rfl

end

-- ---------------------------------------------------------------------------
-- The analysis
-- ---------------------------------------------------------------------------

namespace Outline

open Declaration (foreign? namelessClass? scopeName? namelessMethods place preorderAll heights)

section
variable {o : Outline} {ds : List Declaration}

def foreignError (sort : String) : AnalysisError := .obstacle (.foreign sort)

theorem findSome?_visited (kind? : Declaration → Option α) (ds : List Declaration) :
    (Walk.through ds).visited.findSome? kind? =
      if place kind? ds < place foreign? ds then ds.findSome? kind? else none :=
  Declaration.findSome?_takeWhile ds

theorem refusal?_finish (ds : List Declaration) :
    refusal? (Walk.through ds).finish = (ds.findSome? foreign?).map foreignError := by
  simp only [Walk.finish, Walk.through]
  cases ds.findSome? foreign? <;> rfl

/-- Looking for the namespace fails for a foreign value before the first that counts. -/
theorem refusal?_scope (hw : o.walk = Walk.through ds) (counts : Bool) :
    refusal? (o.scope counts) =
      if place (scopeName? counts) ds < place foreign? ds then none
      else (ds.findSome? foreign?).map foreignError := by
  rw [scope, hw, findSome?_visited]
  by_cases hlt : place (scopeName? counts) ds < place foreign? ds
  · obtain ⟨name, hname⟩ := Declaration.found_of_place_lt hlt
    rw [if_pos hlt, if_pos hlt, hname]
    rfl
  · rw [if_neg hlt, if_neg hlt]
    exact (refusal?_bind_pure fun _ => "").trans (refusal?_finish ds)

theorem refusal?_testClasses (hw : o.walk = Walk.through ds) (markers : Markers) (scope : String) :
    refusal? (o.testClasses markers scope) =
      if place (namelessClass? markers) ds < place foreign? ds then
        (ds.findSome? (namelessClass? markers)).map .unnamedClass
      else (ds.findSome? foreign?).map foreignError := by
  have hcollect : refusal? (collectM (·.testClass? markers scope) o.walk.visited) =
      (o.walk.visited.findSome? (namelessClass? markers)).map .unnamedClass := by
    rw [refusal?_collectM, List.map_findSome?]
    simp only [refusal?_testClass?, Function.comp_def]
  rw [testClasses, refusal?_bind fun _ _ => refusal?_bind_pure _, hcollect, hw, refusal?_finish,
    findSome?_visited]
  by_cases hlt : place (namelessClass? markers) ds < place foreign? ds
  · obtain ⟨line, hline⟩ := Declaration.found_of_place_lt hlt
    rw [if_pos hlt, if_pos hlt, hline]
    rfl
  · rw [if_neg hlt, if_neg hlt]
    rfl

/-- The test classes fail for the first method without a name, in the first class that has one. -/
theorem refusal?_methods (hw : o.walk = Walk.through ds)
    (h : o.testClasses markers namespaceName = .ok classes) (path : String) :
    refusal? (findingsOf markers path classes) =
      (ds.flatMap (namelessMethods markers)).head?.map fun m => .unnamedMethod m.1 m.2 := by
  simp only [testClasses, hw, ok_bind_iff] at h
  obtain ⟨found, hc, u, hf, h⟩ := h
  cases h
  rw [Walk.visited_through hf] at hc
  rw [refusal?_findingsOf, List.head?_flatMap, List.map_findSome?]
  refine findSome?_collectM (fun d hd => ?_) (fun d c hd => ?_) hc
  · simp [namelessMethods_of_no_testClass markers hd]
  · exact unnamedMethod?_of_testClass markers hd

theorem refusal?_analyze (hw : o.walk = Walk.through ds) (markers : Markers) (counts : Bool) :
    refusal? (o.analyze markers counts) =
      if place foreign? ds < place (scopeName? counts) ds ∨
          place foreign? ds < place (namelessClass? markers) ds then
        (ds.findSome? foreign?).map foreignError
      else ((ds.findSome? (namelessClass? markers)).map .unnamedClass).or
        ((ds.flatMap (namelessMethods markers)).head?.map fun m => .unnamedMethod m.1 m.2) := by
  have hrest (scope : String) := (refusal?_bind fun classes hc => (refusal?_bind_pure
    (Analysis.mk scope)).trans (refusal?_methods hw hc o.path)).trans
      (congrArg (Option.or · _) (refusal?_testClasses hw markers scope))
  rw [analyze, refusal?_bind fun scope _ => hrest scope, refusal?_scope hw]
  cases hforeign : ds.findSome? foreign? with
  | none =>
    have htop := Declaration.place_eq_top.mpr hforeign
    cases hclass : ds.findSome? (namelessClass? markers) <;>
      simp [htop, Declaration.place_eq_top, hclass]
  | some sort =>
    have hscope : place foreign? ds < place (scopeName? counts) ds ↔ _ :=
      Declaration.place_lt_iff_not (fun d hd => by cases d <;> simp_all [foreign?, scopeName?])
        hforeign
    have hclass : place foreign? ds < place (namelessClass? markers) ds ↔ _ :=
      Declaration.place_lt_iff_not
        (fun d hd => by cases d <;> simp_all [foreign?, namelessClass?]) hforeign
    by_cases hn : place (scopeName? counts) ds < place foreign? ds
    · by_cases hu : place (namelessClass? markers) ds < place foreign? ds <;>
        simp [hscope, hclass, hn, hu]
    · simp [hscope, hn]

open AnalysisError in
/-- Over declarations that a walk is deep enough for, an analysis fails at the first value that is
no declaration if that stands before the first namespace that counts or before the first test class
without a name, else at the first test class without a name, else at the first test method without a
name of the first test class that has one, and else succeeds. -/
theorem analyze_refuses (o : Outline) (markers : Markers) (counts : Bool)
    (shallow : heights o.declarations ≤ Walk.depthLimit) :
    let ds := preorderAll o.declarations
    let b := place foreign? ds
    let u := place (namelessClass? markers) ds
    let n := place (scopeName? counts) ds
    (∀ sort, o.analyze markers counts = .error (.obstacle (.foreign sort)) ↔
      (b < n ∨ b < u) ∧ ∃ i : ℕ, b = i ∧ ds[i]? = some (.foreign sort)) ∧
    (∀ line, o.analyze markers counts = .error (.unnamedClass line) ↔
      ¬ (b < n ∨ b < u) ∧ ∃ i : ℕ, u = i ∧ ds[i]?.bind (namelessClass? markers) = some line) ∧
    (∀ line className, o.analyze markers counts = .error (.unnamedMethod line className) ↔
      ¬ (b < n ∨ b < u) ∧ u = ⊤ ∧
        (ds.flatMap (namelessMethods markers)).head? = some (line, className)) ∧
    ((∃ a, o.analyze markers counts = .ok a) ↔
      ¬ (b < n ∨ b < u) ∧ u = ⊤ ∧ ds.flatMap (namelessMethods markers) = []) ∧
    (∀ sort, message (.obstacle (.foreign sort)) = s!"unexpected declaration node {sort}") ∧
    (∀ line, message (.unnamedClass line) = s!"test class at line {line} has no name") ∧
    (∀ line className, message (.unnamedMethod line className) =
      s!"test method at line {line} in class '{className}' has no name") := by
  intro ds b u n
  have h : refusal? (o.analyze markers counts) =
      if b < n ∨ b < u then (ds.findSome? foreign?).map foreignError
      else ((ds.findSome? (namelessClass? markers)).map .unnamedClass).or
        ((ds.flatMap (namelessMethods markers)).head?.map fun m => .unnamedMethod m.1 m.2) :=
    refusal?_analyze (Walk.all_eq_through _ _ shallow) markers counts
  have hforeign (sort : String) : (ds.findSome? foreign? = some sort) ↔
      ∃ i : ℕ, b = i ∧ ds[i]? = some (.foreign sort) := by
    rw [Declaration.findSome?_eq_some_iff_place]
    simp only [Option.bind_eq_some_iff, Declaration.foreign?_eq_some, exists_eq_right]
    rfl
  have hclass (line : Int) : ds.findSome? (namelessClass? markers) = some line ↔
      ∃ i : ℕ, u = i ∧ ds[i]?.bind (namelessClass? markers) = some line :=
    Declaration.findSome?_eq_some_iff_place
  have hnone : u = ⊤ ↔ ds.findSome? (namelessClass? markers) = none := Declaration.place_eq_top
  rw [← List.head?_eq_none_iff, hnone]
  simp only [← refusal?_eq_some, ← refusal?_eq_none, ← hforeign, ← hclass]
  by_cases hb : b < n ∨ b < u
  · obtain ⟨sort, hs⟩ : ∃ sort, ds.findSome? foreign? = some sort :=
      hb.elim Declaration.found_of_place_lt Declaration.found_of_place_lt
    rw [if_pos hb, hs] at h
    refine ⟨?_, ?_, ?_, ?_, fun _ => rfl, fun _ => rfl, fun _ _ => rfl⟩ <;>
      simp [h, hs, hb, foreignError]
  · rw [if_neg hb] at h
    refine ⟨?_, ?_, ?_, ?_, fun _ => rfl, fun _ => rfl, fun _ _ => rfl⟩ <;>
      cases hU : ds.findSome? (namelessClass? markers) <;>
        cases hM : (ds.flatMap (namelessMethods markers)).head? <;>
          simp [h, hU, hM, hb, Prod.ext_iff]

end

/-- A class with a test method without a name comes before a namespace that counts, this before a
test class without a name, and this before a value that is no declaration. -/
def contested : Outline :=
  ⟨"T.cs", [
    .type "class" ⟨some "C", ["public"], [⟨"TestClass", 1⟩], 1⟩
      [.method ⟨none, ["public"], [⟨"TestMethod", 2⟩, ⟨"TestCategory", 2⟩], 2⟩],
    .scope "N" false 3 [
      .type "class" ⟨some "", ["public"], [⟨"TestClass", 4⟩], 4⟩ [],
      .foreign "str"]], false⟩

theorem analyze_contested :
    heights contested.declarations ≤ Walk.depthLimit ∧
    place foreign? (preorderAll contested.declarations) = 4 ∧
    place (namelessClass? {}) (preorderAll contested.declarations) = 3 ∧
    place (scopeName? false) (preorderAll contested.declarations) = 2 ∧
    contested.analyze {} false = .error (.unnamedClass 4) := by
  have shallow : heights contested.declarations ≤ Walk.depthLimit := by decide
  have hb : place foreign? (preorderAll contested.declarations) = 4 := rfl
  have hu : place (namelessClass? {}) (preorderAll contested.declarations) = 3 := rfl
  have hn : place (scopeName? false) (preorderAll contested.declarations) = 2 := rfl
  have hclass := (analyze_refuses contested {} false shallow).2.1 4
  refine ⟨shallow, hb, hu, hn, hclass.mpr ⟨?_, 3, hu, rfl⟩⟩
  rw [hb, hu, hn]
  decide

end Outline

end CategoryAudit
