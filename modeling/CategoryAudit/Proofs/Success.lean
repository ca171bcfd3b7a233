import CategoryAudit.Proofs.Refusals

/-!
# Analyses that succeed

An analysis succeeds exactly if its walk comes to the end and every test class and test method has a
name. It then gives the first namespace that counts, and its findings are those of the test methods
without a category, each with that namespace before its name (`analyze_ok_iff`). So whether
file-scoped namespaces count shows in the namespace alone (`analyze_fileScoped`).
-/

namespace CategoryAudit

-- ---------------------------------------------------------------------------
-- Walks that come to the end
-- ---------------------------------------------------------------------------

namespace Walk

open Declaration (height heights preorderAll)

mutual
theorem height_le_of_clear (depth : Nat) : (d : Declaration) → (one depth d).obstacle = none →
    d.height ≤ depth
  | .scope name fileScoped line members, h => by
    rw [one] at h
    obtain ⟨-, hm, -⟩ := append_unobstructed h
    exact heights_lt_of_clear depth members hm
  | .type kind header members, h => by
    rw [one] at h
    obtain ⟨-, hm, -⟩ := append_unobstructed h
    exact heights_lt_of_clear depth members hm
  | .method _, _ => Nat.zero_le _
  | .other _ _, _ => Nat.zero_le _
  | .foreign _, _ => Nat.zero_le _
theorem heights_lt_of_clear : (depth : Nat) → (members : List Declaration) →
    (inside depth members).obstacle = none → 1 + heights members ≤ depth
  | 0, _, h => by simp [inside] at h
  | depth + 1, members, h => by
    rw [inside] at h
    have hm := heights_le_of_clear depth members h
    omega
theorem heights_le_of_clear (depth : Nat) : (ds : List Declaration) →
    (all depth ds).obstacle = none → heights ds ≤ depth
  | [], _ => Nat.zero_le _
  | d :: rest, h => by
    rw [all] at h
    obtain ⟨hd, hr, -⟩ := append_unobstructed h
    exact Nat.max_le.mpr ⟨height_le_of_clear depth d hd, heights_le_of_clear depth rest hr⟩
end

theorem eq_through_of_clear {o : Outline} (h : o.walk.obstacle = none) :
    o.walk = through (preorderAll o.declarations) :=
  all_eq_through _ _ (heights_le_of_clear _ _ h)

theorem no_foreign_of_clear {o : Outline} (h : o.walk.obstacle = none) :
    (preorderAll o.declarations).findSome? Declaration.foreign? = none := by
  rw [eq_through_of_clear h] at h
  simpa [through] using h

end Walk

-- ---------------------------------------------------------------------------
-- What a successful analysis gives
-- ---------------------------------------------------------------------------

open Declaration (preorderAll namelessClass? namelessMethods)

namespace Declaration

def method? : Declaration → Option Header
  | .method header => some header
  | _ => none

/-- What `g` gives for the methods directly in a type, from the kind and header of the type and the
header of each method. -/
def perMethod (g : String → Header → Header → Option β) : Declaration → List β
  | .type kind owner members => (members.filterMap method?).filterMap (g kind owner)
  | _ => []

end Declaration

def Header.isTestClass (markers : Markers) (kind : String) (owner : Header) : Bool :=
  kind == "class" && owner.isPublic && owner.carries markers.testClass

def Header.lacksCategory (markers : Markers) (method : Header) : Bool :=
  method.isPublic && method.carries markers.testMethod && !method.carries markers.testCategory

def Header.finding (path : String) (owner method : Header) : Finding :=
  ⟨owner.name.getD "" ++ "." ++ method.name.getD "", path, method.line⟩

def Header.finding? (markers : Markers) (path kind : String) (owner method : Header) :
    Option Finding :=
  if owner.isTestClass markers kind && method.lacksCategory markers then
    some (owner.finding path method)
  else none

def Finding.within (scope : String) (f : Finding) : Finding :=
  { f with qualifiedName := scope ++ "." ++ f.qualifiedName }

/-- Findings that are the same but for the namespace before their names. -/
def Finding.Rescoped (scope scope' : String) (f g : Finding) : Prop :=
  f.path = g.path ∧ f.line = g.line ∧ ∃ s,
    f.qualifiedName = scope ++ "." ++ s ∧ g.qualifiedName = scope' ++ "." ++ s

namespace Outline

def firstScope (o : Outline) (counts : Bool) : String :=
  ((preorderAll o.declarations).findSome? (·.scopeName? counts)).getD ""

def localFindings (o : Outline) (markers : Markers) : List Finding :=
  (preorderAll o.declarations).flatMap (Declaration.perMethod (Header.finding? markers o.path))

/-- The walk comes to the end, and nothing that needs a name lacks it. -/
structure Sound (o : Outline) (markers : Markers) : Prop where
  clear : o.walk.obstacle = none
  classes : (preorderAll o.declarations).findSome? (namelessClass? markers) = none
  methods : (preorderAll o.declarations).flatMap (namelessMethods markers) = []

theorem clear_of_analyze {o : Outline} (h : o.analyze markers counts = .ok a) :
    o.walk.obstacle = none := by
  simp only [analyze, testClasses, ok_bind_iff] at h
  obtain ⟨scope, -, classes, ⟨found, -, u, hw, -⟩, -⟩ := h
  exact Walk.finish_ok hw

theorem refusal?_of_clear {o : Outline} (h : o.walk.obstacle = none) (markers : Markers)
    (counts : Bool) :
    refusal? (o.analyze markers counts) =
      (((preorderAll o.declarations).findSome? (namelessClass? markers)).map .unnamedClass).or
        (((preorderAll o.declarations).flatMap (namelessMethods markers)).head?.map
          fun m => .unnamedMethod m.1 m.2) := by
  have hplace := Declaration.place_eq_top.mpr (Walk.no_foreign_of_clear h)
  rw [refusal?_analyze (Walk.eq_through_of_clear h), hplace]
  simp

theorem sound_iff {o : Outline} : o.Sound markers ↔ ∃ a, o.analyze markers counts = .ok a := by
  constructor
  · rintro ⟨hw, hc, hm⟩
    rw [← refusal?_eq_none, refusal?_of_clear hw, hc, hm]
    rfl
  · rintro ⟨a, h⟩
    have hw := clear_of_analyze h
    have hnone := refusal?_eq_none.mpr ⟨a, h⟩
    rw [refusal?_of_clear hw, Option.or_eq_none_iff] at hnone
    exact ⟨hw, by simpa using hnone.1, by simpa using hnone.2⟩

end Outline

theorem getD_of_properName? {h : Header} (hn : h.properName? = some title) :
    h.name.getD "" = title := by
  rw [Header.properName?, Option.filter_eq_some_iff] at hn
  rw [hn.1, Option.getD_some]

theorem filterMap_collectM {f : α → Except AnalysisError (Option β)} {g : β → Option γ}
    {k : α → Option γ} (hf : ∀ a o, f a = .ok o → o.bind g = k a)
    (h : collectM f as = .ok found) : found.filterMap g = as.filterMap k := by
  induction as generalizing found with
  | nil => cases h; rfl
  | cons a rest ih =>
    simp only [collectM, Outline.ok_bind_iff] at h
    obtain ⟨o, ha, more, hm, h⟩ := h
    cases h
    rw [List.filterMap_append, ih hm, List.filterMap_cons, ← hf a o ha]
    cases o with
    | none => rfl
    | some b => cases hb : g b <;> simp [hb]

theorem finding?_of_testMethod? {m : Declaration} {owner : Header}
    (hc : owner.isTestClass markers kind = true) (hn : owner.name.getD "" = className)
    (hm : m.testMethod? markers className = .ok o) :
    (o.bind fun t : TestMethod => if t.hasCategory then none
      else some (⟨scope ++ "." ++ className ++ "." ++ t.name, path, t.line⟩ : Finding)) =
    (m.method?.bind (owner.finding? markers path kind)).map (Finding.within scope) := by
  cases m with
  | method method =>
    simp only [Declaration.testMethod?] at hm
    simp only [Declaration.method?, Option.bind_some, Header.finding?, Header.lacksCategory, hc]
    split at hm
    · rename_i htest
      cases ht : method.properName? with
      | none => rw [ht] at hm; cases hm
      | some title =>
        rw [ht] at hm
        cases hm
        rw [htest]
        cases hcat : method.carries markers.testCategory with
        | true => simp
        | false =>
          simp [Header.finding, Finding.within, hn, getD_of_properName? ht, String.append_assoc]
    · rename_i htest
      cases hm
      simp [htest]
  | _ => cases hm; rfl

theorem findings_of_testClass? {d : Declaration} (hd : d.testClass? markers scope = .ok (some c))
    (h : c.findings markers path = .ok found) :
    found = (d.perMethod (Header.finding? markers path)).map (Finding.within scope) := by
  cases d with
  | type kind owner members =>
    simp only [Declaration.testClass?] at hd
    split at hd
    · rename_i hclass
      cases hn : owner.properName? with
      | none => rw [hn] at hd; cases hd
      | some name =>
        rw [hn] at hd
        cases hd
        simp only [TestClass.findings, TestClass.methods, Outline.ok_bind_iff] at h
        obtain ⟨methods, hm, h⟩ := h
        cases h
        rw [Declaration.perMethod, List.filterMap_filterMap, List.map_filterMap]
        exact filterMap_collectM
          (fun m o ho => finding?_of_testMethod? hclass (getD_of_properName? hn) ho) hm
    · cases hd
  | _ => cases hd

theorem perMethod_of_no_testClass {d : Declaration} (h : d.testClass? markers scope = .ok none) :
    d.perMethod (Header.finding? markers path) = [] := by
  cases d with
  | type kind owner members =>
    simp only [Declaration.testClass?] at h
    split at h
    · split at h <;> cases h
    · rename_i hc
      have hclass : owner.isTestClass markers kind = false := eq_false_of_ne_true hc
      simp [Declaration.perMethod, Header.finding?, hclass]
  | _ => rfl

theorem findingsOf_testClasses (hc : collectM (·.testClass? markers scope) ds = .ok classes)
    (hf : findingsOf markers path classes = .ok found) :
    found = (ds.flatMap (Declaration.perMethod (Header.finding? markers path))).map
      (Finding.within scope) := by
  induction ds generalizing classes found with
  | nil => cases hc; cases hf; rfl
  | cons d rest ih =>
    simp only [collectM, Outline.ok_bind_iff] at hc
    obtain ⟨o, hd, more, hm, hc⟩ := hc
    cases hc
    rw [List.flatMap_cons, List.map_append]
    cases o with
    | none =>
      rw [perMethod_of_no_testClass hd]
      exact ih hm hf
    | some c =>
      simp only [Option.toList_some, List.singleton_append, findingsOf, Outline.ok_bind_iff] at hf
      obtain ⟨here, hhere, later, hlater, hf⟩ := hf
      cases hf
      rw [findings_of_testClass? hd hhere, ih hm hlater]

namespace Outline

def analysis (o : Outline) (markers : Markers) (counts : Bool) : Analysis :=
  ⟨o.firstScope counts, (o.localFindings markers).map (Finding.within (o.firstScope counts))⟩

theorem scope_of_clear {o : Outline} (hw : o.walk.obstacle = none)
    (h : o.scope counts = .ok name) : name = o.firstScope counts := by
  have hv : o.walk.visited = preorderAll o.declarations := Walk.visited_all _ _ hw
  rw [scope, hv] at h
  rw [firstScope]
  split at h
  · rename_i found hfound
    cases h
    rw [hfound, Option.getD_some]
  · rename_i hnone
    simp only [ok_bind_iff] at h
    obtain ⟨u, -, h⟩ := h
    cases h
    rw [hnone, Option.getD_none]

/-- When an analysis succeeds, and what it gives. -/
theorem analyze_ok_iff {o : Outline} :
    o.analyze markers counts = .ok a ↔ o.Sound markers ∧ a = o.analysis markers counts := by
  have hvalue (a) (h : o.analyze markers counts = .ok a) : a = o.analysis markers counts := by
    obtain ⟨classes, hs, hc, hf, -⟩ := analyze_ok h
    have hscope := scope_of_clear (clear_of_analyze h) hs
    rw [analysis, localFindings, ← hscope, ← findingsOf_testClasses hc hf]
  constructor
  · intro h
    exact ⟨sound_iff.mpr ⟨a, h⟩, hvalue a h⟩
  · rintro ⟨hsound, rfl⟩
    obtain ⟨b, hb⟩ := sound_iff.mp hsound
    rw [hb, hvalue b hb]

-- ---------------------------------------------------------------------------
-- Namespaces without a block
-- ---------------------------------------------------------------------------

theorem firstScope_of_first {o : Outline} (hd : preorderAll o.declarations = before ++ d :: after)
    (hbefore : ∀ e ∈ before, e.scopeName? counts = none) (hname : d.scopeName? counts = some name) :
    o.firstScope counts = name := by
  have hfound : (preorderAll o.declarations).findSome? (·.scopeName? counts) = some name :=
    List.findSome?_eq_some_iff.mpr ⟨before, d, after, hd, hname, hbefore⟩
  rw [firstScope, hfound, Option.getD_some]

theorem firstScope_of_none {o : Outline}
    (h : ∀ d ∈ preorderAll o.declarations, d.scopeName? counts = none) :
    o.firstScope counts = "" := by
  rw [firstScope, List.findSome?_eq_none_iff.mpr h, Option.getD_none]

/-- The search for the namespace ends at the first one that counts, whatever comes after it. -/
theorem scope_of_first {o : Outline} (hv : o.walk.visited = before ++ d :: after)
    (hbefore : ∀ e ∈ before, e.scopeName? counts = none) (hname : d.scopeName? counts = some name) :
    o.scope counts = .ok name := by
  have hfound : o.walk.visited.findSome? (·.scopeName? counts) = some name :=
    List.findSome?_eq_some_iff.mpr ⟨before, d, after, hv, hname, hbefore⟩
  rw [scope, hfound]

/-- An analysis that counts file-scoped namespaces and one that does not succeed for the same files,
and with the same findings up to the namespace at the front of their names. Either namespace is the
first in pre-order that counts, and the search for it does not depend on what follows. -/
theorem analyze_fileScoped (o : Outline) (markers : Markers) :
    ((∃ a, o.analyze markers true = .ok a) ↔ ∃ a, o.analyze markers false = .ok a) ∧
    (∀ a b, o.analyze markers true = .ok a → o.analyze markers false = .ok b →
      List.Forall₂ (Finding.Rescoped a.scope b.scope) a.findings b.findings) ∧
    (∀ counts a, o.analyze markers counts = .ok a →
      (∀ before d after name, preorderAll o.declarations = before ++ d :: after →
        (∀ e ∈ before, e.scopeName? counts = none) → d.scopeName? counts = some name →
        a.scope = name) ∧
      ((∀ d ∈ preorderAll o.declarations, d.scopeName? counts = none) → a.scope = "")) ∧
    (∀ counts before d after name, o.walk.visited = before ++ d :: after →
      (∀ e ∈ before, e.scopeName? counts = none) → d.scopeName? counts = some name →
      o.scope counts = .ok name) := by
  refine ⟨sound_iff.symm.trans sound_iff, ?_, ?_, fun _ _ _ _ _ => scope_of_first⟩
  · intro a b ha hb
    obtain ⟨-, rfl⟩ := analyze_ok_iff.mp ha
    obtain ⟨-, rfl⟩ := analyze_ok_iff.mp hb
    simp only [analysis, List.forall₂_map_left_iff, List.forall₂_map_right_iff]
    exact List.forall₂_same.mpr fun f _ => ⟨rfl, rfl, f.qualifiedName, rfl, rfl⟩
  · intro counts a ha
    obtain ⟨-, rfl⟩ := analyze_ok_iff.mp ha
    exact ⟨fun _ _ _ _ => firstScope_of_first, firstScope_of_none⟩

/-- A file-scoped namespace before a class and another namespace. -/
def twoScopes : Outline :=
  ⟨"T.cs", [
    .scope "F" true 1 [],
    .type "class" ⟨some "C", ["public"], [⟨"TestClass", 2⟩], 2⟩
      [.method ⟨some "M", ["public"], [⟨"TestMethod", 3⟩], 3⟩],
    .scope "N" false 4 []], false⟩

theorem analyze_twoScopes :
    twoScopes.analyze {} true = .ok ⟨"F", [⟨"F.C.M", "T.cs", 3⟩]⟩ ∧
    twoScopes.analyze {} false = .ok ⟨"N", [⟨"N.C.M", "T.cs", 3⟩]⟩ ∧
    List.Forall₂ (Finding.Rescoped "F" "N") [⟨"F.C.M", "T.cs", 3⟩] [⟨"N.C.M", "T.cs", 3⟩] := by
  have htrue : twoScopes.analyze {} true = .ok ⟨"F", [⟨"F.C.M", "T.cs", 3⟩]⟩ := by cbv
  have hfalse : twoScopes.analyze {} false = .ok ⟨"N", [⟨"N.C.M", "T.cs", 3⟩]⟩ := by cbv
  exact ⟨htrue, hfalse, (analyze_fileScoped twoScopes {}).2.1 _ _ htrue hfalse⟩

end Outline

end CategoryAudit
