import Mathlib
import CategoryAudit.Analysis

/-!
# Other names for attributes

An analysis compares the names of attributes with the markers and looks at them in no other way. So
attributes may be spelled otherwise, each by any number of names, as long as the markers correspond
(`Corresponds`, `analyze_respelled`). `names_unprivileged` collects what follows: renaming
everything by an injective function changes nothing, other markers are as good as the default ones,
and a name that is not exactly a marker counts for nothing.
-/

namespace CategoryAudit

-- ---------------------------------------------------------------------------
-- Spelling attributes otherwise
-- ---------------------------------------------------------------------------

def Header.respelled (spelling : String → List String) (h : Header) : Header :=
  { h with attributes :=
      h.attributes.flatMap fun a => (spelling a.name).map fun name => { a with name } }

mutual
def Declaration.respelled (spelling : String → List String) : Declaration → Declaration
  | .scope name fileScoped line members =>
    .scope name fileScoped line (Declaration.respelledAll spelling members)
  | .type kind header members =>
    .type kind (header.respelled spelling) (Declaration.respelledAll spelling members)
  | .method header => .method (header.respelled spelling)
  | .other kind line => .other kind line
  | .foreign sort => .foreign sort
def Declaration.respelledAll (spelling : String → List String) : List Declaration → List Declaration
  | [] => []
  | d :: rest => d.respelled spelling :: Declaration.respelledAll spelling rest
end

namespace Outline

def respelled (o : Outline) (spelling : String → List String) : Outline :=
  { o with declarations := Declaration.respelledAll spelling o.declarations }

def renamed (o : Outline) (r : String → String) : Outline := o.respelled fun name => [r name]

end Outline

namespace Markers

def renamed (r : String → String) (m : Markers) : Markers :=
  ⟨r m.testClass, r m.testMethod, r m.testCategory⟩

def names (m : Markers) : List String := [m.testClass, m.testMethod, m.testCategory]

/-- A name alone if it is exactly a marker, and no name otherwise. -/
def exact (m : Markers) (name : String) : List String := m.names.filter (· = name)

/-- The default names of the markers that a name is: none, one, or more if markers coincide. -/
def roles (m : Markers) (name : String) : List String :=
  ((m.names.zip ({} : Markers).names).filter (·.1 = name)).map (·.2)

/-- A spelling under which a name stands for a marker exactly if it is the marker. -/
structure Corresponds (spelling : String → List String) (m m' : Markers) : Prop where
  testClass : ∀ name, m'.testClass ∈ spelling name ↔ name = m.testClass
  testMethod : ∀ name, m'.testMethod ∈ spelling name ↔ name = m.testMethod
  testCategory : ∀ name, m'.testCategory ∈ spelling name ↔ name = m.testCategory

theorem corresponds_renamed {r : String → String} (hr : Function.Injective r) (m : Markers) :
    Corresponds (fun name => [r name]) m (m.renamed r) := by
  have hsame (marker name : String) : r marker ∈ [r name] ↔ name = marker := by
    rw [List.mem_singleton, hr.eq_iff, eq_comm]
  exact ⟨hsame m.testClass, hsame m.testMethod, hsame m.testCategory⟩

theorem corresponds_exact (m : Markers) : Corresponds m.exact m m := by
  have hsame {marker : String} (hm : marker ∈ m.names) (name : String) :
      marker ∈ m.exact name ↔ name = marker := by
    rw [exact, List.mem_filter, decide_eq_true_iff, and_iff_right hm, eq_comm]
  exact ⟨hsame (by simp [names]), hsame (by simp [names]), hsame (by simp [names])⟩

theorem corresponds_roles (m : Markers) : Corresponds m.roles m {} := by
  constructor <;> intro name <;> simp [roles, names, eq_comm]

end Markers

open Markers (Corresponds)

-- ---------------------------------------------------------------------------
-- What a spelling leaves as it is
-- ---------------------------------------------------------------------------

section
variable {spelling : String → List String}

theorem isPublic_respelled (h : Header) : (h.respelled spelling).isPublic = h.isPublic := rfl

theorem properName?_respelled (h : Header) :
    (h.respelled spelling).properName? = h.properName? := rfl

theorem carries_respelled {marker marker' : String}
    (hm : ∀ name, marker' ∈ spelling name ↔ name = marker) (h : Header) :
    (h.respelled spelling).carries marker' = h.carries marker := by
  rw [Bool.eq_iff_iff]
  simp [Header.carries, Header.respelled, hm]

def Walk.respelled (spelling : String → List String) (w : Walk) : Walk :=
  ⟨w.visited.map (·.respelled spelling), w.obstacle⟩

theorem respelled_append (a : Walk) (b : Unit → Walk) :
    (Walk.append a b).respelled spelling =
      Walk.append (a.respelled spelling) fun _ => (b ()).respelled spelling := by
  rcases a with ⟨visited, _ | o⟩
  · simp [Walk.append, Walk.respelled]
  · rfl

mutual
theorem walk_one_respelled (depth : Nat) : (d : Declaration) →
    Walk.one depth (d.respelled spelling) = (Walk.one depth d).respelled spelling
  | .scope name fileScoped line members => by
    rw [Declaration.respelled, Walk.one, Walk.one, respelled_append,
      walk_inside_respelled depth members]
    rfl
  | .type kind header members => by
    rw [Declaration.respelled, Walk.one, Walk.one, respelled_append,
      walk_inside_respelled depth members]
    rfl
  | .method header => by rw [Declaration.respelled, Walk.one, Walk.one]; rfl
  | .other kind line => by rw [Declaration.respelled, Walk.one]; rfl
  | .foreign sort => by rw [Declaration.respelled, Walk.one]; rfl
theorem walk_inside_respelled : (depth : Nat) → (members : List Declaration) →
    Walk.inside depth (Declaration.respelledAll spelling members) =
      (Walk.inside depth members).respelled spelling
  | 0, _ => by rw [Walk.inside, Walk.inside]; rfl
  | depth + 1, members => by
    rw [Walk.inside, Walk.inside]
    exact walk_all_respelled depth members
theorem walk_all_respelled (depth : Nat) : (ds : List Declaration) →
    Walk.all depth (Declaration.respelledAll spelling ds) =
      (Walk.all depth ds).respelled spelling
  | [] => by rw [Declaration.respelledAll, Walk.all]; rfl
  | d :: rest => by
    rw [Declaration.respelledAll, Walk.all, Walk.all, respelled_append,
      walk_one_respelled depth d, walk_all_respelled depth rest]
end

theorem walk_respelled (o : Outline) :
    (o.respelled spelling).walk = o.walk.respelled spelling :=
  walk_all_respelled Walk.depthLimit o.declarations

theorem scope_respelled (o : Outline) (counts : Bool) :
    (o.respelled spelling).scope counts = o.scope counts := by
  have hname : (fun d : Declaration => (d.respelled spelling).scopeName? counts) =
      fun d => d.scopeName? counts := by
    funext d
    cases d <;> rw [Declaration.respelled] <;> rfl
  rw [Outline.scope, Outline.scope, walk_respelled, Walk.respelled, List.findSome?_map]
  simp only [Function.comp_def, hname]
  rfl

end

-- ---------------------------------------------------------------------------
-- The analysis
-- ---------------------------------------------------------------------------

section
variable {spelling : String → List String} {markers markers' : Markers}

def TestClass.respelled (spelling : String → List String) (c : TestClass) : TestClass :=
  { c with members := Declaration.respelledAll spelling c.members }

theorem collectM_map_congr {f : α → Except AnalysisError (Option β)}
    {g : γ → Except AnalysisError (Option δ)} {d : α → γ} {k : β → δ}
    (h : ∀ a, g (d a) = Option.map k <$> f a) (as : List α) :
    collectM g (as.map d) = List.map k <$> collectM f as := by
  induction as with
  | nil => rfl
  | cons a rest ih =>
    rw [List.map_cons, collectM, collectM, ih, h]
    simp only [bind_map_left, map_bind, map_pure, List.map_append, Option.toList_map]

theorem testClass?_respelled (h : Corresponds spelling markers markers') (scope : String)
    (d : Declaration) : (d.respelled spelling).testClass? markers' scope =
      Option.map (TestClass.respelled spelling) <$> d.testClass? markers scope := by
  cases d with
  | type kind header members =>
    rw [Declaration.respelled, Declaration.testClass?, Declaration.testClass?,
      isPublic_respelled, carries_respelled h.testClass, properName?_respelled]
    split
    · cases header.properName? <;> rfl
    · rfl
  | scope | method | other | foreign => rw [Declaration.respelled]; rfl

theorem testMethod?_respelled (h : Corresponds spelling markers markers') (className : String)
    (d : Declaration) : (d.respelled spelling).testMethod? markers' className =
      d.testMethod? markers className := by
  cases d with
  | method header =>
    rw [Declaration.respelled, Declaration.testMethod?, Declaration.testMethod?,
      isPublic_respelled, carries_respelled h.testMethod, carries_respelled h.testCategory,
      properName?_respelled]
    rfl
  | scope | type | other | foreign => rw [Declaration.respelled]; rfl

theorem respelledAll_eq_map (ds : List Declaration) :
    Declaration.respelledAll spelling ds = ds.map (·.respelled spelling) := by
  induction ds with
  | nil => rfl
  | cons d rest ih => rw [Declaration.respelledAll, ih, List.map_cons]

theorem methods_respelled (h : Corresponds spelling markers markers') (c : TestClass) :
    (c.respelled spelling).methods markers' = c.methods markers := by
  have hsame (d : Declaration) : (d.respelled spelling).testMethod? markers' c.name =
      Option.map id <$> d.testMethod? markers c.name := by
    rw [testMethod?_respelled h, Option.map_id, id_map]
  rw [TestClass.methods, TestClass.methods, TestClass.respelled, respelledAll_eq_map,
    collectM_map_congr hsame, List.map_id_fun, id_map]

theorem findingsOf_respelled (h : Corresponds spelling markers markers') (path : String)
    (classes : List TestClass) :
    findingsOf markers' path (classes.map (TestClass.respelled spelling)) =
      findingsOf markers path classes := by
  induction classes with
  | nil => rfl
  | cons c rest ih =>
    rw [List.map_cons, findingsOf, findingsOf, ih, TestClass.findings, TestClass.findings,
      methods_respelled h]
    rfl

theorem testClasses_respelled (h : Corresponds spelling markers markers') (o : Outline)
    (scope : String) : (o.respelled spelling).testClasses markers' scope =
      List.map (TestClass.respelled spelling) <$> o.testClasses markers scope := by
  have hfinish : (o.walk.respelled spelling).finish = o.walk.finish := rfl
  rw [Outline.testClasses, Outline.testClasses, walk_respelled, hfinish, Walk.respelled,
    collectM_map_congr (testClass?_respelled h scope)]
  simp only [bind_map_left, map_bind, map_pure]

theorem analyze_respelled (h : Corresponds spelling markers markers') (o : Outline)
    (counts : Bool) :
    (o.respelled spelling).analyze markers' counts = o.analyze markers counts := by
  have hpath : (o.respelled spelling).path = o.path := rfl
  rw [Outline.analyze, Outline.analyze, scope_respelled, hpath]
  refine bind_congr fun scope => ?_
  simp only [testClasses_respelled h, bind_map_left, findingsOf_respelled h]

end

-- ---------------------------------------------------------------------------
-- No name is privileged
-- ---------------------------------------------------------------------------

/-- Distinct things can be taken to as many other distinct things by a permutation. -/
theorem exists_permutation [DecidableEq α] {as bs : List α} (ha : as.Nodup) (hb : bs.Nodup)
    (hlength : as.length = bs.length) : ∃ e : Equiv.Perm α, as.map e = bs := by
  induction as generalizing bs with
  | nil => exact ⟨Equiv.refl α, (List.eq_nil_of_length_eq_zero hlength.symm).symm⟩
  | cons a as ih =>
    cases bs with
    | nil => cases hlength
    | cons b bs =>
      obtain ⟨hfresh, ha⟩ := List.nodup_cons.mp ha
      obtain ⟨hfresh', hb⟩ := List.nodup_cons.mp hb
      obtain ⟨e, rfl⟩ := ih ha hb (Nat.succ.inj hlength)
      -- The images of the others are neither `b` nor that of `a`, so a swap leaves them alone.
      refine ⟨e.trans (Equiv.swap (e a) b), ?_⟩
      rw [List.map_cons, Equiv.trans_apply, Equiv.swap_apply_left]
      refine congrArg (b :: ·) (List.map_congr_left fun x hx => ?_)
      refine Equiv.swap_apply_of_ne_of_ne (fun heq => hfresh ?_) fun heq => hfresh' ?_
      · rwa [← e.injective heq]
      · exact heq ▸ List.mem_map_of_mem hx

/-- An analysis finds the same, or fails with the same error, after an injective renaming of all
attributes and markers. So it does under any distinct markers what it does under the default ones,
on the sources with the names accordingly. Also if markers coincide, it does what it does under the
default ones, with each attribute under the default names of the markers that it is. Attributes with
a name that is not exactly a marker, even if it contains or extends one, might as well be absent. -/
theorem names_unprivileged (o : Outline) (counts : Bool) :
    (∀ (markers : Markers) (r : String → String), Function.Injective r →
      (o.renamed r).analyze (markers.renamed r) counts = o.analyze markers counts) ∧
    (∀ markers : Markers, markers.names.Nodup → ∃ r : String → String, Function.Injective r ∧
      ({} : Markers).renamed r = markers ∧
      (o.renamed r).analyze markers counts = o.analyze {} counts) ∧
    (∀ markers : Markers,
      (o.respelled markers.roles).analyze {} counts = o.analyze markers counts) ∧
    ∀ markers : Markers,
      (o.respelled markers.exact).analyze markers counts = o.analyze markers counts := by
  have hrenamed (markers : Markers) (r : String → String) (hr : Function.Injective r) :
      (o.renamed r).analyze (markers.renamed r) counts = o.analyze markers counts :=
    analyze_respelled (Markers.corresponds_renamed hr markers) o counts
  refine ⟨hrenamed, fun markers hdistinct => ?_,
    fun markers => analyze_respelled markers.corresponds_roles o counts,
    fun markers => analyze_respelled markers.corresponds_exact o counts⟩
  have hdefaults : ({} : Markers).names.Nodup := by decide
  obtain ⟨e, he⟩ := exists_permutation hdefaults hdistinct rfl
  obtain ⟨hclass, hmethod, hcategory⟩ : e "TestClass" = markers.testClass ∧
      e "TestMethod" = markers.testMethod ∧ e "TestCategory" = markers.testCategory := by
    simpa [Markers.names] using he
  have hmarkers : ({} : Markers).renamed e = markers := by
    rw [Markers.renamed, hclass, hmethod, hcategory]
  exact ⟨e, e.injective, hmarkers, hmarkers ▸ hrenamed {} e e.injective⟩

/-- A class with two test methods. The category of the second only contains the name of a marker. -/
def nearlyCategorized : Outline :=
  ⟨"T.cs", [
    .type "class" ⟨some "C", ["public"], [⟨"TestClass", 1⟩], 1⟩ [
      .method ⟨some "M", ["public"], [⟨"TestMethod", 2⟩, ⟨"TestCategory", 2⟩], 2⟩,
      .method ⟨some "N", ["public"], [⟨"TestMethod", 3⟩, ⟨"TestCategoryAttribute", 3⟩], 3⟩]],
    false⟩

def swapCategory : String → String := Equiv.swap "TestCategory" "TestCategoryAttribute"

theorem nearlyCategorized_renamed :
    Function.Injective swapCategory ∧
    ({} : Markers).renamed swapCategory = { testCategory := "TestCategoryAttribute" } ∧
    (nearlyCategorized.renamed swapCategory).analyze { testCategory := "TestCategoryAttribute" }
      false = .ok ⟨"", [⟨".C.N", "T.cs", 3⟩]⟩ ∧
    ({ testClass := "A", testMethod := "B" } : Markers).names.Nodup ∧
    ∃ r : String → String, ({} : Markers).renamed r = { testClass := "A", testMethod := "B" } ∧
      (nearlyCategorized.renamed r).analyze { testClass := "A", testMethod := "B" } false =
        .ok ⟨"", [⟨".C.N", "T.cs", 3⟩]⟩ := by
  have hinjective : Function.Injective swapCategory := Equiv.injective _
  have hmarkers : ({} : Markers).renamed swapCategory =
      { testCategory := "TestCategoryAttribute" } := by decide
  have hfound : nearlyCategorized.analyze {} false = .ok ⟨"", [⟨".C.N", "T.cs", 3⟩]⟩ := by cbv
  obtain ⟨hrenamed, hdistinct, -⟩ := names_unprivileged nearlyCategorized false
  have hother := (hrenamed {} swapCategory hinjective).trans hfound
  obtain ⟨r, -, hr, hsame⟩ := hdistinct { testClass := "A", testMethod := "B" } (by decide)
  exact ⟨hinjective, hmarkers, hmarkers ▸ hother, by decide, r, hr, hsame.trans hfound⟩

end CategoryAudit
