import CategoryAudit.Analysis
import CategoryAudit.Proofs.Resolve

/-!
# The findings of a tree

The findings of a file are read off its concrete tree, without outlines or walks: of the nodes that
resolving the directives leaves, in pre-order, the public classes with the class marker, and of
each of these the public methods directly within it that have the method marker and lack the
category marker. Reading and analyzing a file gives exactly this list whenever it succeeds
(`findings_exact`).
-/

namespace CategoryAudit

open Concrete (Node)

-- ---------------------------------------------------------------------------
-- What the list is made of
-- ---------------------------------------------------------------------------

namespace Resolved

def isPublic (source : ByteArray) (r : Resolved) : Bool :=
  r.node.children.any fun m => m.kind == "modifier" && Text.strip (m.text source) == "public"

def carries (source : ByteArray) (name : String) (r : Resolved) : Bool :=
  r.node.children.any fun list => list.kind == "attribute_list" &&
    list.children.any fun a => a.named && a.kind == "attribute" && a.name? source == some name

def isTestClass (source : ByteArray) (markers : Markers) (r : Resolved) : Bool :=
  r.node.kind == "class_declaration" && r.isPublic source && r.carries source markers.testClass

def isTestMethod (source : ByteArray) (markers : Markers) (r : Resolved) : Bool :=
  r.node.kind == "method_declaration" && r.isPublic source && r.carries source markers.testMethod

def scopeName? (source : ByteArray) (fileScopedCounts : Bool) (r : Resolved) : Option String :=
  if r.node.kind == "namespace_declaration" ||
      fileScopedCounts && r.node.kind == "file_scoped_namespace_declaration" then
    some ((r.node.name? source).getD "")
  else none

def scope (source : ByteArray) (fileScopedCounts : Bool) (forest : List Resolved) : String :=
  ((preorderAll forest).findSome? (·.scopeName? source fileScopedCounts)).getD ""

def finding (source : ByteArray) (scope path : String) (c m : Resolved) : Finding :=
  ⟨scope ++ "." ++ (c.node.name? source).getD "" ++ "." ++ (m.node.name? source).getD "", path,
    m.node.line⟩

/-- The test methods without a category of each test class. -/
def findings (source : ByteArray) (markers : Markers) (scope path : String)
    (forest : List Resolved) : List Finding :=
  ((preorderAll forest).filter (·.isTestClass source markers)).flatMap fun c =>
    (c.members.filter fun m =>
      m.isTestMethod source markers && !m.carries source markers.testCategory).map
        (finding source scope path c)

end Resolved

-- ---------------------------------------------------------------------------
-- Walks that meet no obstacle
-- ---------------------------------------------------------------------------

mutual
def Declaration.preorder : Declaration → List Declaration
  | .scope name fileScoped line members =>
    .scope name fileScoped line members :: Declaration.preorderAll members
  | .type kind header members => .type kind header members :: Declaration.preorderAll members
  | .method header => [.method header]
  | .other kind line => [.other kind line]
  | .foreign sort => [.foreign sort]
def Declaration.preorderAll : List Declaration → List Declaration
  | [] => []
  | d :: rest => d.preorder ++ Declaration.preorderAll rest
end

namespace Walk

theorem append_unobstructed {a : Walk} {b : Unit → Walk} (h : (append a b).obstacle = none) :
    a.obstacle = none ∧ (b ()).obstacle = none ∧
      (append a b).visited = a.visited ++ (b ()).visited := by
  unfold append at h ⊢
  split at h
  · rename_i o ho; simp [ho] at h
  · rename_i ho; exact ⟨ho, h, rfl⟩

mutual
theorem visited_one (depth : Nat) : (d : Declaration) → (one depth d).obstacle = none →
    (one depth d).visited = d.preorder
  | .scope name fileScoped line members, h => by
    rw [one] at h ⊢
    obtain ⟨-, hm, hv⟩ := append_unobstructed h
    rw [hv, visited_inside depth members hm]
    rfl
  | .type kind header members, h => by
    rw [one] at h ⊢
    obtain ⟨-, hm, hv⟩ := append_unobstructed h
    rw [hv, visited_inside depth members hm]
    rfl
  | .method _, _ => by rw [one, Declaration.preorder]
  | .other _ _, _ => by rw [one, Declaration.preorder]
  | .foreign _, h => by simp [one] at h
theorem visited_inside : (depth : Nat) → (members : List Declaration) →
    (inside depth members).obstacle = none →
    (inside depth members).visited = Declaration.preorderAll members
  | 0, _, h => by simp [inside] at h
  | depth + 1, members, h => by
    rw [inside] at h ⊢
    exact visited_all depth members h
theorem visited_all (depth : Nat) : (ds : List Declaration) → (all depth ds).obstacle = none →
    (all depth ds).visited = Declaration.preorderAll ds
  | [], _ => by rw [all, Declaration.preorderAll]
  | d :: rest, h => by
    rw [all] at h ⊢
    obtain ⟨hd, hr, hv⟩ := append_unobstructed h
    rw [hv, visited_one depth d hd, visited_all depth rest hr]
    rfl
end

theorem finish_ok {w : Walk} (h : w.finish = .ok u) : w.obstacle = none := by
  unfold finish at h
  split at h
  · cases h
  · assumption

end Walk

-- ---------------------------------------------------------------------------
-- What the analysis collects
-- ---------------------------------------------------------------------------

theorem collectM_map {f : α → Except AnalysisError (Option β)} {d : γ → α} {p : γ → Bool}
    {k : γ → β} {cs : List γ} (hf : ∀ c o, f (d c) = .ok o → o = if p c then some (k c) else none)
    (h : collectM f (cs.map d) = .ok found) : found = (cs.filter p).map k := by
  induction cs generalizing found with
  | nil => cases h; rfl
  | cons c rest ih =>
    simp only [List.map_cons, collectM, Outline.ok_bind_iff] at h
    obtain ⟨o, ho, more, hm, h⟩ := h
    cases h
    rw [hf c o ho, ih hm]
    cases hp : p c <;> simp [hp]

theorem findingsOf_map {k : γ → TestClass} {g : γ → List Finding} {cs : List γ}
    (hk : ∀ c found, (k c).findings markers path = .ok found → found = g c)
    (h : findingsOf markers path (cs.map k) = .ok found) : found = cs.flatMap g := by
  induction cs generalizing found with
  | nil => cases h; rfl
  | cons c rest ih =>
    simp only [List.map_cons, findingsOf, Outline.ok_bind_iff] at h
    obtain ⟨here, hc, more, hm, h⟩ := h
    cases h
    rw [hk c here hc, ih hm, List.flatMap_cons]

theorem Outline.analyze_ok {o : Outline} (h : o.analyze markers fileScopedCounts = .ok a) :
    ∃ classes, o.scope fileScopedCounts = .ok a.scope ∧
      collectM (·.testClass? markers a.scope) (Declaration.preorderAll o.declarations) =
        .ok classes ∧
      findingsOf markers o.path classes = .ok a.findings ∧
      o.walk.visited = Declaration.preorderAll o.declarations := by
  simp only [analyze, testClasses, ok_bind_iff] at h
  obtain ⟨scope, hs, classes, ⟨found, hc, u, hw, hu⟩, findings, hf, ha⟩ := h
  cases hu
  cases ha
  have hv : o.walk.visited = Declaration.preorderAll o.declarations :=
    Walk.visited_all _ _ (Walk.finish_ok hw)
  exact ⟨classes, hs, hv ▸ hc, hf, hv⟩

-- ---------------------------------------------------------------------------
-- From declarations back to nodes
-- ---------------------------------------------------------------------------

open Outline (declareOne declareAll declareAll_eq_map declareOne_cases)

section
variable (source : ByteArray)

theorem isPublic_header (r : Resolved) : (r.node.header source).isPublic = r.isPublic source := by
  rw [Bool.eq_iff_iff]
  simp [Node.header, Header.isPublic, Node.modifiers, Resolved.isPublic, and_assoc]

theorem listedAttributes_any (list : Node) (name : String) :
    (list.listedAttributes source).any (·.name == name) =
      list.children.any fun a =>
        a.named && a.kind == "attribute" && a.name? source == some name := by
  rw [Node.listedAttributes, Node.constructs, List.any_filterMap, List.any_filter, List.any_filter]
  congr 1
  funext a
  cases a.name? source <;> simp [Bool.and_assoc]

theorem carries_header (r : Resolved) (name : String) :
    (r.node.header source).carries name = r.carries source name := by
  simp [Node.header, Header.carries, Node.attributes, Resolved.carries, List.any_flatMap,
    List.any_filter, listedAttributes_any]

theorem properName?_header (n : Node) : (n.header source).properName? = n.name? source := by
  simp only [Node.header, Header.properName?, Node.name?]
  split
  · rfl
  · split
    · rfl
    · split
      · rfl
      · rename_i h; simp_all [Option.filter]

theorem preorderAll_declareAll (h : ∀ r ∈ forest,
      (declareOne source r).preorder = r.preorder.map (declareOne source)) :
    Declaration.preorderAll (declareAll source forest) =
      (Resolved.preorderAll forest).map (declareOne source) := by
  induction forest with
  | nil => rfl
  | cons r rest ih =>
    rw [declareAll, Declaration.preorderAll, h r (by simp), ih fun x hx => h x (by simp [hx]),
      Resolved.preorderAll, List.map_append]

/-- Declaring keeps the pre-order of what resolving leaves. -/
theorem hereditary_preorder : Outline.Hereditary fun r =>
    (declareOne source r).preorder = r.preorder.map (declareOne source) := by
  intro n members _ hnone hm
  have hall := preorderAll_declareAll source hm
  rw [Resolved.preorder, List.map_cons, ← hall]
  rcases declareOne_cases source n members with
    ⟨-, hd⟩ | ⟨-, kind, -, hd⟩ | ⟨hs, hk, -, hd⟩ | ⟨hs, hk, -, hd⟩
  · rw [hd, Declaration.preorder]
  · rw [hd, Declaration.preorder]
  · obtain rfl : members = [] := hnone (by simp [Node.members, hs, hk])
    simp [hd, Declaration.preorder, declareAll, Declaration.preorderAll]
  · obtain rfl : members = [] := hnone (by simp [Node.members, hs, hk])
    simp [hd, Declaration.preorder, declareAll, Declaration.preorderAll]

theorem preorderAll_resolved (h : (Outline.resolveAll source nodes).run s = .ok (forest, s')) :
    Declaration.preorderAll (declareAll source forest) =
      (Resolved.preorderAll forest).map (declareOne source) :=
  preorderAll_declareAll source
    (Outline.resolve_induction (hereditary_preorder source) nodes s forest s' h)

-- ---------------------------------------------------------------------------
-- Classes, methods and namespaces by their nodes
-- ---------------------------------------------------------------------------

theorem typeKind?_eq_class {n : Node} :
    n.typeKind? = some "class" ↔ n.kind = "class_declaration" := by
  unfold Node.typeKind?
  split <;> simp_all

theorem kind_of_isScope {n : Node} (h : n.isScope = true) :
    n.kind = "namespace_declaration" ∨ n.kind = "file_scoped_namespace_declaration" := by
  simpa [Node.isScope] using h

def testClass (scope : String) (r : Resolved) : TestClass :=
  ⟨(r.node.name? source).getD "", scope, declareAll source r.members, r.node.line⟩

theorem testClass?_declareOne (h : (declareOne source r).testClass? markers scope = .ok found) :
    found = if r.isTestClass source markers then some (testClass source scope r) else none := by
  have hpublic := isPublic_header source r
  have hcarries := carries_header source r markers.testClass
  have hname := properName?_header source r.node
  cases r with
  | mk n members =>
    simp only [Resolved.node] at hpublic hcarries hname
    rcases declareOne_cases source n members with
      ⟨hs, hd⟩ | ⟨-, kind, hk, hd⟩ | ⟨-, -, hm, hd⟩ | ⟨-, hk, -, hd⟩
    · rw [hd] at h
      cases h
      rcases kind_of_isScope hs with hk | hk <;> simp [Resolved.isTestClass, Resolved.node, hk]
    · rw [hd, Declaration.testClass?, hpublic, hcarries, hname] at h
      have hclass : (kind == "class") = (n.kind == "class_declaration") := by
        rw [Bool.eq_iff_iff, beq_iff_eq, beq_iff_eq, ← typeKind?_eq_class, hk, Option.some.injEq]
      rw [hclass] at h
      split at h
      · rename_i hc
        rw [if_pos (show Resolved.isTestClass source markers (.mk n members) = true from hc)]
        cases hn : n.name? source with
        | none => rw [hn] at h; cases h
        | some name =>
          rw [hn] at h
          cases h
          simp [testClass, Resolved.node, Resolved.members, hn, Node.header]
      · rename_i hc
        cases h
        rw [if_neg (show ¬ Resolved.isTestClass source markers (.mk n members) = true from hc)]
    · rw [hd] at h
      cases h
      simp [Resolved.isTestClass, Resolved.node, hm]
    · rw [hd] at h
      cases h
      have hclass : n.kind ≠ "class_declaration" := by
        rw [ne_eq, ← typeKind?_eq_class, hk]
        simp
      simp [Resolved.isTestClass, Resolved.node, hclass]

def testMethod (markers : Markers) (r : Resolved) : TestMethod :=
  ⟨(r.node.name? source).getD "", r.carries source markers.testCategory, r.node.line⟩

theorem testMethod?_declareOne
    (h : (declareOne source r).testMethod? markers className = .ok found) :
    found = if r.isTestMethod source markers then some (testMethod source markers r) else none := by
  have hpublic := isPublic_header source r
  have hcarries := carries_header source r
  have hname := properName?_header source r.node
  cases r with
  | mk n members =>
    simp only [Resolved.node] at hpublic hcarries hname
    rcases declareOne_cases source n members with
      ⟨hs, hd⟩ | ⟨-, kind, hk, hd⟩ | ⟨-, -, hm, hd⟩ | ⟨-, -, hm, hd⟩
    · rw [hd] at h
      cases h
      rcases kind_of_isScope hs with hk | hk <;> simp [Resolved.isTestMethod, Resolved.node, hk]
    · rw [hd] at h
      cases h
      have hmethod : n.kind ≠ "method_declaration" := by
        rintro hm
        simp [Node.typeKind?, hm] at hk
      simp [Resolved.isTestMethod, Resolved.node, hmethod]
    · rw [hd, Declaration.testMethod?, hpublic, hcarries, hcarries, hname] at h
      have htest : Resolved.isTestMethod source markers (.mk n members) =
          (Resolved.isPublic source (.mk n members) &&
            Resolved.carries source markers.testMethod (.mk n members)) := by
        simp [Resolved.isTestMethod, Resolved.node, hm]
      rw [htest]
      split at h
      · rename_i hc
        rw [if_pos hc]
        cases hn : n.name? source with
        | none => rw [hn] at h; cases h
        | some name =>
          rw [hn] at h
          cases h
          simp [testMethod, Resolved.node, hn, Node.header]
      · rename_i hc
        cases h
        rw [if_neg hc]
    · rw [hd] at h
      cases h
      simp [Resolved.isTestMethod, Resolved.node, hm]

theorem scopeName?_declareOne (counts : Bool) (r : Resolved) :
    (declareOne source r).scopeName? counts = r.scopeName? source counts := by
  cases r with
  | mk n members =>
    have hnone (hs : n.isScope = false) :
        Resolved.scopeName? source counts (.mk n members) = none := by
      simp only [Node.isScope, Bool.or_eq_false_iff] at hs
      simp [Resolved.scopeName?, Resolved.node, hs.1, hs.2]
    rcases declareOne_cases source n members with
      ⟨hs, hd⟩ | ⟨hs, kind, -, hd⟩ | ⟨hs, -, -, hd⟩ | ⟨hs, -, -, hd⟩
    · rw [hd]
      rcases kind_of_isScope hs with hk | hk <;>
        cases counts <;> simp [Declaration.scopeName?, Resolved.scopeName?, Resolved.node, hk]
    · rw [hd, hnone hs]; rfl
    · rw [hd, hnone hs]; rfl
    · rw [hd, hnone hs]; rfl

end

-- ---------------------------------------------------------------------------
-- The findings
-- ---------------------------------------------------------------------------

theorem findings_testClass (source : ByteArray) (r : Resolved)
    (h : (testClass source scope r).findings markers path = .ok found) :
    found = (r.members.filter fun m =>
      m.isTestMethod source markers && !m.carries source markers.testCategory).map
        (Resolved.finding source scope path r) := by
  simp only [TestClass.findings, TestClass.methods, testClass, Outline.ok_bind_iff,
    declareAll_eq_map] at h
  obtain ⟨methods, hm, h⟩ := h
  cases h
  rw [collectM_map (fun _ _ => testMethod?_declareOne source) hm]
  clear hm
  generalize r.members = members
  induction members with
  | nil => rfl
  | cons m rest ih =>
    cases htest : m.isTestMethod source markers with
    | false => simpa [htest] using ih
    | true =>
      cases hcategory : m.carries source markers.testCategory with
      | true => simpa [htest, hcategory, testMethod] using ih
      | false => simpa [htest, hcategory, testMethod, Resolved.finding] using ih

/-- The declarations of a tree that is read are those of what resolving leaves of it. -/
theorem Outline.ofTree_ok {file : String}
    (h : Outline.ofTree allowPartial source file tree = .ok outline) :
    ∃ forest s, (resolveAll source.toUTF8 tree.root.constructs).run [] = .ok (forest, s) ∧
      outline.path = file ∧ outline.declarations = declareAll source.toUTF8 forest := by
  unfold ofTree at h
  split at h
  · cases h
  · simp only [ok_bind_iff] at h
    obtain ⟨declarations, hd, h⟩ := h
    cases h
    rw [declarationsOf] at hd
    rcases (reading_follows source.toUTF8 depthLimit).1 tree.root.constructs [] with ⟨hx, -⟩ | hx
    · rw [hx] at hd; cases hd
    · rw [hx] at hd
      cases hrun : (resolveAll source.toUTF8 tree.root.constructs).run [] with
      | error e => rw [hrun] at hd; cases hd
      | ok left =>
        rw [hrun] at hd
        cases hd
        exact ⟨left.1, left.2, rfl, rfl, rfl⟩

/-- Whenever a tree is read and its outline analyzed, resolving its directives succeeds, and the
namespace and the findings, in order, are those of the nodes that are left. -/
theorem findings_exact (hp : Outline.ofTree allowPartial source path tree = .ok outline)
    (ha : outline.analyze markers fileScopedCounts = .ok a) :
    ∃ forest s, (Outline.resolveAll source.toUTF8 tree.root.constructs).run [] = .ok (forest, s) ∧
      a.scope = Resolved.scope source.toUTF8 fileScopedCounts forest ∧
      a.findings = Resolved.findings source.toUTF8 markers a.scope path forest := by
  obtain ⟨forest, s, hrun, rfl, hd⟩ := Outline.ofTree_ok hp
  obtain ⟨classes, hs, hc, hf, hv⟩ := Outline.analyze_ok ha
  have hpre := preorderAll_resolved source.toUTF8 hrun
  rw [hd, hpre] at hc hv
  refine ⟨forest, s, hrun, ?_, ?_⟩
  · rw [Outline.scope, hv, List.findSome?_map] at hs
    have hname : (Declaration.scopeName? fileScopedCounts) ∘ declareOne source.toUTF8 =
        Resolved.scopeName? source.toUTF8 fileScopedCounts :=
      funext (scopeName?_declareOne source.toUTF8 fileScopedCounts)
    rw [hname] at hs
    unfold Resolved.scope
    split at hs
    · rename_i name hn
      rw [hn]
      exact (Except.ok.inj hs).symm
    · rename_i hn
      simp only [Outline.ok_bind_iff] at hs
      obtain ⟨u, -, hs⟩ := hs
      rw [hn]
      exact (Except.ok.inj hs).symm
  · rw [collectM_map (fun _ _ => testClass?_declareOne source.toUTF8) hc] at hf
    exact findingsOf_map (fun r _ => findings_testClass source.toUTF8 r) hf

def uncategorizedText : String :=
  "namespace N \x7b [TestClass] public class C \x7b " ++
    "[TestMethod] public void M() \x7b \x7d \x7d \x7d"

def uncategorizedMethod : Node :=
  .mk "method_declaration" 43 75 0 none true false [
    .mk "attribute_list" 43 55 0 none true false [
      .mk "attribute" 44 54 0 none true false [
        .mk "identifier" 44 54 0 (some "name") true false []]],
    .mk "modifier" 56 62 0 none true false [],
    .mk "identifier" 68 69 0 (some "name") true false []]

def uncategorizedClass : Node :=
  .mk "class_declaration" 14 77 0 none true false [
    .mk "attribute_list" 14 25 0 none true false [
      .mk "attribute" 15 24 0 none true false [
        .mk "identifier" 15 24 0 (some "name") true false []]],
    .mk "modifier" 26 32 0 none true false [],
    .mk "identifier" 39 40 0 (some "name") true false [],
    .mk "declaration_list" 41 77 0 (some "body") true false [uncategorizedMethod]]

/-- The tree of one test method without a category, in a class in a namespace. -/
def uncategorizedTree : Concrete.Tree :=
  ⟨.mk "compilation_unit" 0 79 0 none true false [
    .mk "namespace_declaration" 0 79 0 none true false [
      .mk "identifier" 10 11 0 (some "name") true false [],
      .mk "declaration_list" 12 79 0 (some "body") true false [uncategorizedClass]]], false⟩

def uncategorizedOutline : Outline :=
  ⟨"T.cs", [.scope "N" false 1 [.type "class" ⟨some "C", ["public"], [⟨"TestClass", 1⟩], 1⟩
    [.method ⟨some "M", ["public"], [⟨"TestMethod", 1⟩], 1⟩]]], false⟩

theorem ofTree_uncategorized :
    Outline.ofTree false uncategorizedText "T.cs" uncategorizedTree = .ok uncategorizedOutline := by
  with_unfolding_all rfl

theorem analyze_uncategorized :
    uncategorizedOutline.analyze {} false = .ok ⟨"N", [⟨"N.C.M", "T.cs", 1⟩]⟩ := by
  cbv

theorem findings_uncategorized :
    Outline.ofTree false uncategorizedText "T.cs" uncategorizedTree = .ok uncategorizedOutline ∧
    uncategorizedOutline.analyze {} false = .ok ⟨"N", [⟨"N.C.M", "T.cs", 1⟩]⟩ ∧
    ∃ forest s, (Outline.resolveAll uncategorizedText.toUTF8
        uncategorizedTree.root.constructs).run [] = .ok (forest, s) ∧
      "N" = Resolved.scope uncategorizedText.toUTF8 false forest ∧
      [⟨"N.C.M", "T.cs", 1⟩] =
        Resolved.findings uncategorizedText.toUTF8 {} "N" "T.cs" forest :=
  ⟨ofTree_uncategorized, analyze_uncategorized,
    findings_exact ofTree_uncategorized analyze_uncategorized⟩

end CategoryAudit
