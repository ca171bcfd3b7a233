import CategoryAudit.Proofs.Repair

/-!
# What an analysis passes over

An analysis looks at namespaces and types, at what is no declaration, and of the methods only at the
test methods directly in test classes. Anything else may be left out of a file, at any depth, and
the modifiers and attributes of a declaration may stand in another order or more than once:
`irrelevant_unseen` says that the analysis ends as before, also if it fails.
-/

namespace CategoryAudit

-- ---------------------------------------------------------------------------
-- Headers with the same entries
-- ---------------------------------------------------------------------------

namespace Header

structure SameEntries (h h' : Header) : Prop where
  name : h'.name = h.name
  line : h'.line = h.line
  modifiers : ∀ m, m ∈ h'.modifiers ↔ m ∈ h.modifiers
  attributes : ∀ a, a ∈ h'.attributes ↔ a ∈ h.attributes

theorem SameEntries.refl (h : Header) : h.SameEntries h :=
  ⟨rfl, rfl, fun _ => Iff.rfl, fun _ => Iff.rfl⟩

section
variable {h h' : Header} (hs : h.SameEntries h')
include hs

theorem SameEntries.isPublic : h'.isPublic = h.isPublic := by
  rw [Bool.eq_iff_iff]
  simp [Header.isPublic, hs.modifiers]

theorem SameEntries.carries (name : String) : h'.carries name = h.carries name := by
  rw [Bool.eq_iff_iff]
  simp [Header.carries, hs.attributes]

theorem SameEntries.properName? : h'.properName? = h.properName? := by
  rw [Header.properName?, Header.properName?, hs.name]

end

def isTestMethod (markers : Markers) (method : Header) : Bool :=
  method.isPublic && method.carries markers.testMethod

end Header

-- ---------------------------------------------------------------------------
-- Leaving declarations out
-- ---------------------------------------------------------------------------

namespace Declaration

/-- Whether an analysis passes over a declaration, where `around` is the kind and header of the type
that it stands directly in. -/
def isIrrelevant (markers : Markers) (around : Option (String × Header)) : Declaration → Bool
  | .other .. => true
  | .method header =>
    !(around.any (fun owner => owner.2.isTestClass markers owner.1) && header.isTestMethod markers)
  | _ => false

/-- The declarations without those methods and other members, at any depth, that are to be
dropped. -/
def without (dropped : Option (String × Header) → Declaration → Bool)
    (around : Option (String × Header)) : List Declaration → List Declaration
  | [] => []
  | .scope name fileScoped line members :: rest =>
    .scope name fileScoped line (without dropped none members) :: without dropped around rest
  | .type kind header members :: rest =>
    .type kind header (without dropped (some (kind, header)) members) ::
      without dropped around rest
  | .foreign sort :: rest => .foreign sort :: without dropped around rest
  | d :: rest =>
    if dropped around d then without dropped around rest else d :: without dropped around rest

/-- Some of what an analysis passes over is left out, at any depth, and headers have the same
entries. -/
inductive Trimmed (markers : Markers) :
    Option (String × Header) → List Declaration → List Declaration → Prop
  | nil : Trimmed markers around [] []
  | drop : d.isIrrelevant markers around = true → Trimmed markers around rest rest' →
      Trimmed markers around (d :: rest) rest'
  | scope : Trimmed markers none members members' → Trimmed markers around rest rest' →
      Trimmed markers around (.scope name fileScoped line members :: rest)
        (.scope name fileScoped line members' :: rest')
  | type : header.SameEntries header' → Trimmed markers (some (kind, header)) members members' →
      Trimmed markers around rest rest' →
      Trimmed markers around (.type kind header members :: rest)
        (.type kind header' members' :: rest')
  | method : header.SameEntries header' → Trimmed markers around rest rest' →
      Trimmed markers around (.method header :: rest) (.method header' :: rest')
  | other : Trimmed markers around rest rest' →
      Trimmed markers around (.other kind line :: rest) (.other kind line :: rest')
  | foreign : Trimmed markers around rest rest' →
      Trimmed markers around (.foreign sort :: rest) (.foreign sort :: rest')

theorem trimmed_without {markers : Markers}
    (h : ∀ around d, dropped around d = true → d.isIrrelevant markers around = true)
    (around : Option (String × Header)) (ds : List Declaration) :
    Trimmed markers around ds (without dropped around ds) := by
  fun_induction without dropped around ds with
  | case1 => exact .nil
  | case2 around name fileScoped line members rest ihMembers ihRest =>
    exact .scope ihMembers ihRest
  | case3 around kind header members rest ihMembers ihRest =>
    exact .type (.refl header) ihMembers ihRest
  | case4 around sort rest ihRest => exact .foreign ihRest
  | case5 around d rest _ _ _ hd ihRest => exact .drop (h around d hd) ihRest
  | case6 around d rest hscope htype hforeign _ ihRest =>
    cases d with
    | method header => exact .method (.refl header) ihRest
    | other kind line => exact .other ihRest
    | scope name fileScoped line members => exact absurd rfl (hscope name fileScoped line members)
    | type kind header members => exact absurd rfl (htype kind header members)
    | foreign sort => exact absurd rfl (hforeign sort)

end Declaration

open Declaration (Trimmed isIrrelevant without trimmed_without)

-- ---------------------------------------------------------------------------
-- Computations side by side
-- ---------------------------------------------------------------------------

/-- Two computations that fail with the same error or give related values. -/
def Parallel (R : α → β → Prop) : Except ε α → Except ε β → Prop
  | .error e, .error e' => e' = e
  | .ok a, .ok b => R a b
  | _, _ => False

theorem Parallel.elim {motive : Except ε α → Except ε β → Prop} (h : Parallel R x y)
    (herror : ∀ e, motive (.error e) (.error e))
    (hok : ∀ a b, R a b → motive (.ok a) (.ok b)) : motive x y := by
  cases x with
  | error e => cases y with
    | error e' => rw [show e' = e from h]; exact herror e
    | ok b => exact False.elim h
  | ok a => cases y with
    | error e' => exact False.elim h
    | ok b => exact hok a b h

theorem Parallel.bind {f : α → Except ε γ} {g : β → Except ε δ} {x : Except ε α} {y : Except ε β}
    (h : Parallel R x y) (hf : ∀ a b, R a b → Parallel S (f a) (g b)) :
    Parallel S (x >>= f) (y >>= g) :=
  h.elim (motive := fun x y => Parallel S (x >>= f) (y >>= g)) (fun _ => rfl) hf

theorem parallel_eq_iff {x y : Except ε α} : Parallel (fun a b => b = a) x y ↔ y = x := by
  cases x <;> cases y <;> simp [Parallel]

theorem Parallel.refl {R : α → α → Prop} (hR : ∀ a, R a a) (x : Except ε α) : Parallel R x x := by
  cases x with
  | error e => rfl
  | ok a => exact hR a

theorem collectM_parallel {f : α → Except AnalysisError (Option β)}
    {g : γ → Except AnalysisError (Option δ)} (h : List.Forall₂ R as cs)
    (hf : ∀ a c, R a c → Parallel (Option.Rel S) (f a) (g c)) :
    Parallel (List.Forall₂ S) (collectM f as) (collectM g cs) := by
  induction h with
  | nil => exact .nil
  | @cons a c _ _ hac _ ih =>
    refine (hf a c hac).bind fun o o' ho => ih.bind fun more more' hmore => ?_
    cases ho with
    | none => exact hmore
    | some hb => exact .cons hb hmore

-- ---------------------------------------------------------------------------
-- Walks
-- ---------------------------------------------------------------------------

namespace Declaration

def isContainer : Declaration → Bool
  | .scope .. | .type .. => true
  | _ => false

inductive Counterpart (markers : Markers) : Declaration → Declaration → Prop
  | scope : Counterpart markers (.scope name fileScoped line members)
      (.scope name fileScoped line members')
  | type : header.SameEntries header' → Trimmed markers (some (kind, header)) members members' →
      Counterpart markers (.type kind header members) (.type kind header' members')

end Declaration

open Declaration (Counterpart isContainer)

namespace Walk

structure Counterparts (markers : Markers) (w w' : Walk) : Prop where
  obstacle : w'.obstacle = w.obstacle
  visited : List.Forall₂ (Counterpart markers) (w.visited.filter isContainer)
    (w'.visited.filter isContainer)

section
variable {markers : Markers}

theorem Counterparts.append {a a' : Walk} {b b' : Unit → Walk} (ha : Counterparts markers a a')
    (hb : Counterparts markers (b ()) (b' ())) :
    Counterparts markers (append a b) (append a' b') := by
  have hobstacle := ha.obstacle
  cases ho : a.obstacle with
  | some o => simpa [Walk.append, hobstacle, ho] using ha
  | none =>
    rw [ho] at hobstacle
    refine ⟨by simpa [Walk.append, hobstacle, ho] using hb.obstacle, ?_⟩
    simpa [Walk.append, hobstacle, ho] using List.rel_append ha.visited hb.visited

theorem Counterparts.inside
    (h : ∀ depth, Counterparts markers (all depth members) (all depth members')) (depth : Nat) :
    Counterparts markers (inside depth members) (inside depth members') := by
  cases depth with
  | zero => rw [Walk.inside, Walk.inside]; exact ⟨rfl, .nil⟩
  | succ depth => rw [Walk.inside, Walk.inside]; exact h depth

theorem Counterparts.self {d d' : Declaration} (h : Counterpart markers d d') :
    Counterparts markers ⟨[d], none⟩ ⟨[d'], none⟩ := by
  have hself : List.Forall₂ (Counterpart markers) [d] [d'] := .cons h .nil
  cases h <;> exact ⟨rfl, hself⟩

theorem Counterparts.drop (hd : d.isIrrelevant markers around = true)
    (h : Counterparts markers (all depth rest) w') :
    Counterparts markers (all depth (d :: rest)) w' := by
  have hstep : Counterparts markers (one depth d) ⟨[], none⟩ := by
    cases d with
    | method | other => rw [one]; exact ⟨rfl, .nil⟩
    | _ => cases hd
  rw [all]
  have happend : Counterparts markers (Walk.append (one depth d) fun _ => all depth rest)
      (Walk.append ⟨[], none⟩ fun _ => w') := hstep.append h
  exact happend

theorem counterparts_of_trimmed (h : Trimmed markers around ds ds') (depth : Nat) :
    Counterparts markers (all depth ds) (all depth ds') := by
  induction h generalizing depth with
  | nil => rw [all]; exact ⟨rfl, .nil⟩
  | drop hd _ ihRest => exact .drop hd (ihRest depth)
  | scope _ _ ihMembers ihRest =>
    rw [all, all, one, one]
    exact .append (.append (.self .scope) (.inside ihMembers depth)) (ihRest depth)
  | type hs hm _ ihMembers ihRest =>
    rw [all, all, one, one]
    exact .append (.append (.self (.type hs hm)) (.inside ihMembers depth)) (ihRest depth)
  | method _ _ ihRest =>
    rw [all, all, one, one]
    exact .append ⟨rfl, .nil⟩ (ihRest depth)
  | other _ ihRest =>
    rw [all, all, one]
    exact .append ⟨rfl, .nil⟩ (ihRest depth)
  | foreign _ ihRest =>
    rw [all, all, one]
    exact .append ⟨rfl, .nil⟩ (ihRest depth)

end

end Walk

-- ---------------------------------------------------------------------------
-- Test classes and their methods
-- ---------------------------------------------------------------------------

section
variable {markers : Markers}

structure TestClass.Counterpart (markers : Markers) (c c' : TestClass) : Prop where
  name : c'.name = c.name
  scope : c'.scope = c.scope
  members : ∃ kind owner, owner.isTestClass markers kind = true ∧
    Trimmed markers (some (kind, owner)) c.members c'.members

theorem testClass?_parallel {d d' : Declaration} (h : Counterpart markers d d') (scope : String) :
    Parallel (Option.Rel (TestClass.Counterpart markers)) (d.testClass? markers scope)
      (d'.testClass? markers scope) := by
  cases h with
  | scope => exact .none
  | @type kind header _ _ _ hs hm =>
    simp only [Declaration.testClass?, hs.isPublic, hs.carries, hs.properName?, hs.line]
    split
    · rename_i hclass
      cases header.properName? with
      | none => rfl
      | some name => exact .some ⟨rfl, rfl, kind, header, hclass, hm⟩
    · exact .none

theorem testMethod?_of_irrelevant {d : Declaration}
    (hclass : owner.isTestClass markers kind = true)
    (h : d.isIrrelevant markers (some (kind, owner)) = true) (className : String) :
    d.testMethod? markers className = .ok none := by
  cases d with
  | method header =>
    simp only [isIrrelevant, Option.any_some, hclass, Bool.true_and, Bool.not_eq_true'] at h
    exact if_neg (ne_true_of_eq_false h)
  | other => rfl
  | _ => cases h

theorem testMethods_trimmed (hclass : owner.isTestClass markers kind = true)
    (h : Trimmed markers around members members') (haround : around = some (kind, owner))
    (className : String) :
    collectM (·.testMethod? markers className) members' =
      collectM (·.testMethod? markers className) members := by
  induction h with
  | nil => rfl
  | drop hd _ ihRest =>
    rw [collectM, testMethod?_of_irrelevant hclass (haround ▸ hd), ihRest haround]
    exact (bind_pure _).symm
  | scope _ _ _ ihRest => rw [collectM, collectM, ihRest haround]; rfl
  | type _ _ _ _ ihRest => rw [collectM, collectM, ihRest haround]; rfl
  | method hs _ ihRest =>
    rw [collectM, collectM, ihRest haround]
    simp only [Declaration.testMethod?, hs.isPublic, hs.carries, hs.properName?, hs.line]
  | other _ ihRest | foreign _ ihRest => rw [collectM, collectM, ihRest haround]

theorem findingsOf_counterparts (path : String)
    (h : List.Forall₂ (TestClass.Counterpart markers) classes classes') :
    findingsOf markers path classes' = findingsOf markers path classes := by
  induction h with
  | nil => rfl
  | @cons c c' _ _ hc _ ih =>
    obtain ⟨kind, owner, hclass, hmembers⟩ := hc.members
    have hmethods : c'.methods markers = c.methods markers := by
      rw [TestClass.methods, TestClass.methods, hc.name]
      exact testMethods_trimmed hclass hmembers rfl c.name
    rw [findingsOf, findingsOf, ih, TestClass.findings, TestClass.findings, hmethods, hc.name,
      hc.scope]

-- ---------------------------------------------------------------------------
-- The analysis
-- ---------------------------------------------------------------------------

theorem scopeName?_counterpart {d d' : Declaration} (h : Counterpart markers d d')
    (counts : Bool) : d'.scopeName? counts = d.scopeName? counts := by
  cases h <;> rfl

theorem findSome?_scopeName? (counts : Bool) (ds : List Declaration) :
    (ds.filter isContainer).findSome? (·.scopeName? counts) =
      ds.findSome? (·.scopeName? counts) := by
  induction ds with
  | nil => rfl
  | cons d rest ih =>
    cases d with
    | scope | type =>
      rw [List.filter_cons_of_pos rfl, List.findSome?_cons, List.findSome?_cons, ih]
    | method | other | foreign => rw [List.filter_cons_of_neg Bool.false_ne_true, ih]; rfl

theorem collectM_testClass? (scope : String) (ds : List Declaration) :
    collectM (·.testClass? markers scope) (ds.filter isContainer) =
      collectM (·.testClass? markers scope) ds := by
  induction ds with
  | nil => rfl
  | cons d rest ih =>
    cases d with
    | scope | type => rw [List.filter_cons_of_pos rfl, collectM, collectM, ih]
    | method | other | foreign =>
      rw [List.filter_cons_of_neg Bool.false_ne_true, ih, collectM]
      exact (bind_pure _).symm

namespace Outline

theorem scope_counterparts {o o' : Outline} (h : Walk.Counterparts markers o.walk o'.walk)
    (counts : Bool) : o'.scope counts = o.scope counts := by
  have hfound : ∀ {ds ds'}, List.Forall₂ (Counterpart markers) ds ds' →
      ds'.findSome? (·.scopeName? counts) = ds.findSome? (·.scopeName? counts) := by
    intro ds ds' hds
    induction hds with
    | nil => rfl
    | cons hd _ ih => rw [List.findSome?_cons, List.findSome?_cons, ih, scopeName?_counterpart hd]
  have hname := hfound h.visited
  rw [findSome?_scopeName?, findSome?_scopeName?] at hname
  rw [scope, scope, hname, Walk.finish, Walk.finish, h.obstacle]

theorem testClasses_parallel {o o' : Outline} (h : Walk.Counterparts markers o.walk o'.walk)
    (scope : String) : Parallel (List.Forall₂ (TestClass.Counterpart markers))
      (o.testClasses markers scope) (o'.testClasses markers scope) := by
  have hclasses := collectM_parallel h.visited fun d d' hd => testClass?_parallel hd scope
  rw [collectM_testClass?, collectM_testClass?] at hclasses
  refine hclasses.bind fun found found' hfound => ?_
  rw [Walk.finish, Walk.finish, h.obstacle]
  cases o.walk.obstacle with
  | none => exact hfound
  | some obstacle => rfl

theorem analyze_trimmed {o : Outline} (h : Trimmed markers none o.declarations ds)
    (counts : Bool) :
    { o with declarations := ds }.analyze markers counts = o.analyze markers counts := by
  have hwalk : Walk.Counterparts markers o.walk ({ o with declarations := ds } : Outline).walk :=
    Walk.counterparts_of_trimmed h Walk.depthLimit
  rw [analyze, analyze, scope_counterparts hwalk]
  refine bind_congr fun scope => parallel_eq_iff.mp ?_
  refine (testClasses_parallel hwalk scope).bind fun classes classes' hclasses => ?_
  rw [findingsOf_counterparts o.path hclasses]
  exact parallel_eq_iff.mpr rfl

end Outline

end

namespace Outline

/-- An analysis gives the same namespace and findings, or fails with the same error, if any of the
declarations that it passes over are left out, at any depth and also all of them at once, and if
modifiers and attributes stand in another order or more than once. -/
theorem irrelevant_unseen (o : Outline) (markers : Markers) (counts : Bool) :
    (∀ ds, Trimmed markers none o.declarations ds →
      { o with declarations := ds }.analyze markers counts = o.analyze markers counts) ∧
    { o with declarations :=
        without (fun around d => d.isIrrelevant markers around) none o.declarations }.analyze
      markers counts = o.analyze markers counts :=
  ⟨fun _ h => analyze_trimmed h counts,
    analyze_trimmed (trimmed_without (fun _ _ => id) none o.declarations) counts⟩

/-- A class with a test method, a field and a method that is no test method, and a test method
outside of all classes. The last two have no name. -/
def cluttered : Outline :=
  ⟨"T.cs", [
    .scope "N" false 1 [
      .method ⟨none, ["public"], [⟨"TestMethod", 2⟩], 2⟩,
      .type "class" ⟨some "C", ["public", "sealed"], [⟨"TestClass", 3⟩], 3⟩ [
        .other "field_declaration" 4,
        .method ⟨some "M", ["public"], [⟨"TestMethod", 5⟩, ⟨"Owner", 5⟩], 5⟩,
        .method ⟨none, [], [⟨"TestMethod", 6⟩], 6⟩]]], false⟩

def tidied : List Declaration :=
  [.scope "N" false 1 [
    .type "class" ⟨some "C", ["sealed", "public", "sealed"], [⟨"TestClass", 3⟩], 3⟩
      [.method ⟨some "M", ["public"], [⟨"Owner", 5⟩, ⟨"TestMethod", 5⟩, ⟨"Owner", 5⟩], 5⟩]]]

theorem cluttered_unseen : Trimmed {} none cluttered.declarations tidied ∧
    cluttered.analyze {} false = .ok ⟨"N", [⟨"N.C.M", "T.cs", 5⟩]⟩ ∧
    { cluttered with declarations := tidied }.analyze {} false =
      .ok ⟨"N", [⟨"N.C.M", "T.cs", 5⟩]⟩ := by
  have hclass : Header.SameEntries ⟨some "C", ["public", "sealed"], [⟨"TestClass", 3⟩], 3⟩
      ⟨some "C", ["sealed", "public", "sealed"], [⟨"TestClass", 3⟩], 3⟩ :=
    ⟨rfl, rfl, fun m => by simp only [List.mem_cons]; tauto, fun a => Iff.rfl⟩
  have hmethod : Header.SameEntries
      ⟨some "M", ["public"], [⟨"TestMethod", 5⟩, ⟨"Owner", 5⟩], 5⟩
      ⟨some "M", ["public"], [⟨"Owner", 5⟩, ⟨"TestMethod", 5⟩, ⟨"Owner", 5⟩], 5⟩ :=
    ⟨rfl, rfl, fun m => Iff.rfl, fun a => by simp only [List.mem_cons]; tauto⟩
  have htrimmed : Trimmed {} none cluttered.declarations tidied :=
    .scope (.drop (by decide) (.type hclass
      (.drop (by decide) (.method hmethod (.drop (by decide) .nil))) .nil)) .nil
  have hbefore : cluttered.analyze {} false = .ok ⟨"N", [⟨"N.C.M", "T.cs", 5⟩]⟩ := by cbv
  refine ⟨htrimmed, hbefore, ?_⟩
  exact ((irrelevant_unseen cluttered {} false).1 tidied htrimmed).trans hbefore

end Outline

end CategoryAudit
