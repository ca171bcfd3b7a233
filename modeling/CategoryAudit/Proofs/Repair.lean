import CategoryAudit.Proofs.Success

/-!
# Adding a missing category

Every finding belongs to one occurrence of a method in the tree, and no two findings to the same.
Adding the category to that method, at any place among its attributes, clears that finding and
nothing else (`repair_clears`).
-/

namespace CategoryAudit

open Declaration (preorderAll perMethod method?)

-- ---------------------------------------------------------------------------
-- Occurrences of methods
-- ---------------------------------------------------------------------------

/-- A place among some declarations, or within them, where a method stands. -/
inductive Occurrence : List Declaration → Type
  | here : Occurrence (.method header :: rest)
  | later : Occurrence rest → Occurrence (d :: rest)
  | inScope : Occurrence members → Occurrence (.scope name fileScoped line members :: rest)
  | inType : Occurrence members → Occurrence (.type kind owner members :: rest)
  deriving DecidableEq

namespace Occurrence

def header : Occurrence ds → Header
  | @here header _ => header
  | later p => p.header
  | inScope p => p.header
  | inType p => p.header

/-- The kind and header of the type that a method stands directly in, where `around` is the type
directly around all of the declarations. -/
def owner? (around : Option (String × Header)) : Occurrence ds → Option (String × Header)
  | here => around
  | later p => p.owner? around
  | inScope p => p.owner? none
  | @inType _ kind owner _ p => p.owner? (some (kind, owner))

end Occurrence

namespace Declaration

def withHeaders : (ds : List Declaration) → (Occurrence ds → Header) → List Declaration
  | [], _ => []
  | .scope name fileScoped line members :: rest, f =>
    .scope name fileScoped line (withHeaders members fun p => f p.inScope) ::
      withHeaders rest fun p => f p.later
  | .type kind owner members :: rest, f =>
    .type kind owner (withHeaders members fun p => f p.inType) ::
      withHeaders rest fun p => f p.later
  | .method _ :: rest, f => .method (f .here) :: withHeaders rest fun p => f p.later
  | .other kind line :: rest, f => .other kind line :: withHeaders rest fun p => f p.later
  | .foreign sort :: rest, f => .foreign sort :: withHeaders rest fun p => f p.later

def direct : (ds : List Declaration) → List (Occurrence ds)
  | [] => []
  | .method _ :: rest => .here :: (direct rest).map .later
  | _ :: rest => (direct rest).map .later

/-- The methods directly in types: those of a type before those of the types within it. -/
def typed : (ds : List Declaration) → List (Occurrence ds)
  | [] => []
  | .scope _ _ _ members :: rest => (typed members).map .inScope ++ (typed rest).map .later
  | .type _ _ members :: rest =>
    (direct members ++ typed members).map .inType ++ (typed rest).map .later
  | _ :: rest => (typed rest).map .later

theorem owner?_of_mem_direct {p : Occurrence ds} (h : p ∈ direct ds)
    (around : Option (String × Header)) : p.owner? around = around := by
  induction p with
  | here => rfl
  | @later rest d p ih =>
    have hp : p ∈ direct rest := by cases d <;> simpa [direct] using h
    exact ih hp
  | inScope p ih => simp [direct] at h
  | inType p ih => simp [direct] at h

theorem owner?_of_not_mem_direct {p : Occurrence ds} (h : p ∉ direct ds)
    (around : Option (String × Header)) : p.owner? around = p.owner? none := by
  induction p with
  | here => simp [direct] at h
  | @later rest d p ih =>
    refine ih fun hp => h ?_
    cases d <;> simpa [direct] using hp
  | inScope p ih => rfl
  | inType p ih => rfl

theorem mem_typed {p : Occurrence ds} : p ∈ typed ds ↔ (p.owner? none).isSome := by
  induction p with
  | here => simp [typed, Occurrence.owner?]
  | @later rest d p ih =>
    rw [Occurrence.owner?, ← ih]
    cases d <;> simp [typed]
  | inScope p ih => simp [typed, Occurrence.owner?, ih]
  | @inType members kind owner rest p ih =>
    have hmem : (.inType p : Occurrence (.type kind owner members :: rest)) ∈ typed _ ↔
        p ∈ direct members ∨ p ∈ typed members := by simp [typed]
    rw [Occurrence.owner?, hmem]
    by_cases hp : p ∈ direct members
    · simp [hp, owner?_of_mem_direct hp]
    · simp [hp, owner?_of_not_mem_direct hp, ih]

theorem not_mem_direct_of_typed {p : Occurrence ds} (h : p ∈ typed ds) : p ∉ direct ds := by
  intro hp
  rw [mem_typed, owner?_of_mem_direct hp] at h
  cases h

theorem nodup_later {d : Declaration} {ps : List (Occurrence rest)} (h : ps.Nodup) :
    (ps.map (Occurrence.later (d := d))).Nodup :=
  h.map fun _ _ => Occurrence.later.inj

theorem nodup_direct (ds : List Declaration) : (direct ds).Nodup := by
  induction ds with
  | nil => exact .nil
  | cons d rest ih =>
    cases d with
    | method header => exact .cons (by simp) (nodup_later ih)
    | _ => exact nodup_later ih

theorem nodup_typed (ds : List Declaration) : (typed ds).Nodup := by
  fun_induction typed ds with
  | case1 => exact .nil
  | case2 name fileScoped line members rest ihMembers ihRest =>
    refine List.Nodup.append ?_ (nodup_later ihRest) ?_
    · exact ihMembers.map fun _ _ => Occurrence.inScope.inj
    · simp only [List.Disjoint, List.mem_map]
      rintro _ ⟨p, -, rfl⟩ ⟨q, -, hq⟩
      cases hq
  | case3 kind owner members rest ihMembers ihRest =>
    have hboth : (direct members ++ typed members).Nodup :=
      (nodup_direct members).append ihMembers fun p hd ht => not_mem_direct_of_typed ht hd
    refine List.Nodup.append ?_ (nodup_later ihRest) ?_
    · exact hboth.map fun _ _ => Occurrence.inType.inj
    · simp only [List.Disjoint, List.mem_map]
      rintro _ ⟨p, -, rfl⟩ ⟨q, -, hq⟩
      cases hq
  | case4 d rest _ _ ihRest => exact nodup_later ihRest

theorem withHeaders_header : (ds : List Declaration) → withHeaders ds Occurrence.header = ds
  | [] => by rw [withHeaders]
  | .scope _ _ _ members :: rest => by
    have hm := withHeaders_header members
    have hr := withHeaders_header rest
    rw [withHeaders]
    exact congrArg₂ _ (congrArg _ hm) hr
  | .type _ _ members :: rest => by
    have hm := withHeaders_header members
    have hr := withHeaders_header rest
    rw [withHeaders]
    exact congrArg₂ _ (congrArg _ hm) hr
  | .method _ :: rest | .other _ _ :: rest | .foreign _ :: rest => by
    have hr := withHeaders_header rest
    rw [withHeaders]
    exact congrArg₂ _ rfl hr

-- ---------------------------------------------------------------------------
-- What other headers do not change
-- ---------------------------------------------------------------------------

/-- What can be told of a declaration without its members and, if it is a method, its header. -/
structure Superficial (k : Declaration → Option α) : Prop where
  scope : ∀ name fileScoped line members members',
    k (.scope name fileScoped line members) = k (.scope name fileScoped line members')
  type : ∀ kind owner members members', k (.type kind owner members) = k (.type kind owner members')
  method : ∀ header header', k (.method header) = k (.method header')

theorem findSome?_withHeaders {k : Declaration → Option α} (hk : Superficial k)
    (ds : List Declaration) (f : Occurrence ds → Header) :
    (preorderAll (withHeaders ds f)).findSome? k = (preorderAll ds).findSome? k := by
  fun_induction withHeaders ds f with
  | case1 => rfl
  | case2 name fileScoped line members rest f ihMembers ihRest =>
    simp only [preorderAll, preorder, List.cons_append, List.findSome?_cons,
      List.findSome?_append, ihMembers, ihRest, hk.scope name fileScoped line _ members]
  | case3 kind owner members rest f ihMembers ihRest =>
    simp only [preorderAll, preorder, List.cons_append, List.findSome?_cons,
      List.findSome?_append, ihMembers, ihRest, hk.type kind owner _ members]
  | case4 header rest f ihRest =>
    simp only [preorderAll, preorder, List.cons_append, List.findSome?_cons,
      List.findSome?_append, ihRest, hk.method _ header]
  | case5 kind line rest f ihRest => simp [preorderAll, preorder, List.findSome?_cons, ihRest]
  | case6 sort rest f ihRest => simp [preorderAll, preorder, List.findSome?_cons, ihRest]

end Declaration

namespace Walk

theorem obstacle_append (a : Walk) (b : Unit → Walk) :
    (append a b).obstacle = a.obstacle.or (b ()).obstacle := by
  unfold append
  split
  · rename_i o h; simp [h]
  · rename_i h; simp [h]

theorem obstacle_inside (h : ∀ depth, (all depth as).obstacle = (all depth bs).obstacle)
    (depth : Nat) : (inside depth as).obstacle = (inside depth bs).obstacle := by
  cases depth with
  | zero => rw [inside, inside]
  | succ depth => rw [inside, inside, h]

end Walk

namespace Declaration

theorem obstacle_withHeaders (ds : List Declaration) (f : Occurrence ds → Header) (depth : Nat) :
    (Walk.all depth (withHeaders ds f)).obstacle = (Walk.all depth ds).obstacle := by
  fun_induction withHeaders ds f generalizing depth with
  | case1 => rfl
  | case2 name fileScoped line members rest f ihMembers ihRest =>
    simp only [Walk.all, Walk.one, Walk.obstacle_append, Walk.obstacle_inside ihMembers, ihRest]
  | case3 kind owner members rest f ihMembers ihRest =>
    simp only [Walk.all, Walk.one, Walk.obstacle_append, Walk.obstacle_inside ihMembers, ihRest]
  | case4 | case5 | case6 => simp_all only [Walk.all, Walk.one, Walk.obstacle_append]

-- ---------------------------------------------------------------------------
-- Methods by their occurrences
-- ---------------------------------------------------------------------------

theorem method?_withHeaders (ds : List Declaration) (f : Occurrence ds → Header) :
    (withHeaders ds f).filterMap method? = (direct ds).map f := by
  induction ds with
  | nil => simp [withHeaders, direct]
  | cons d rest ih =>
    cases d <;> simp [withHeaders, direct, List.filterMap_cons, method?, ih, Function.comp_def]

theorem filterMap_direct (k : Occurrence ds → Option (String × Header) → Option β)
    (around : Option (String × Header)) :
    (direct ds).filterMap (fun p => k p (p.owner? around)) =
      (direct ds).filterMap fun p => k p around :=
  List.filterMap_congr fun _ hp => by rw [owner?_of_mem_direct hp]

theorem filterMap_typed (k : Occurrence ds → Option (String × Header) → Option β)
    (around : Option (String × Header)) :
    (typed ds).filterMap (fun p => k p (p.owner? around)) =
      (typed ds).filterMap fun p => k p (p.owner? none) :=
  List.filterMap_congr fun _ hp => by
    rw [owner?_of_not_mem_direct (not_mem_direct_of_typed hp)]

theorem perMethod_withHeaders (g : String → Header → Header → Option β) (ds : List Declaration)
    (f : Occurrence ds → Header) :
    (preorderAll (withHeaders ds f)).flatMap (perMethod g) =
      (typed ds).filterMap fun p => (p.owner? none).bind fun owner => g owner.1 owner.2 (f p) := by
  fun_induction withHeaders ds f with
  | case1 => simp [preorderAll, typed]
  | case2 name fileScoped line members rest f ihMembers ihRest =>
    simp [preorderAll, preorder, perMethod, typed, Function.comp_def, Occurrence.owner?, ihMembers,
      ihRest]
  | case3 kind owner members rest f ihMembers ihRest =>
    have hdirect := filterMap_direct
      (fun p w => w.bind fun owner => g owner.1 owner.2 (f (.inType p))) (some (kind, owner))
    have htyped := filterMap_typed
      (fun p w => w.bind fun owner => g owner.1 owner.2 (f (.inType p))) (some (kind, owner))
    simp [preorderAll, preorder, perMethod, typed, Function.comp_def, Occurrence.owner?, ihMembers,
      ihRest, method?_withHeaders, hdirect, htyped]
  | case4 header rest f ihRest =>
    simp [preorderAll, preorder, perMethod, typed, Function.comp_def, Occurrence.owner?, ihRest]
  | case5 kind line rest f ihRest =>
    simp [preorderAll, preorder, perMethod, typed, Function.comp_def, Occurrence.owner?, ihRest]
  | case6 sort rest f ihRest =>
    simp [preorderAll, preorder, perMethod, typed, Function.comp_def, Occurrence.owner?, ihRest]

theorem superficial_scopeName? (counts : Bool) : Superficial (scopeName? counts) where
  scope _ _ _ _ _ := rfl
  type _ _ _ _ := rfl
  method _ _ := rfl

theorem superficial_namelessClass? (markers : Markers) : Superficial (namelessClass? markers) where
  scope _ _ _ _ _ := rfl
  type _ _ _ _ := rfl
  method _ _ := rfl

end Declaration

open Declaration (typed withHeaders namelessMethods)

-- ---------------------------------------------------------------------------
-- Adding the category
-- ---------------------------------------------------------------------------

namespace Header

/-- A header with the category added somewhere among its attributes, and otherwise the same. -/
def Categorized (markers : Markers) (h h' : Header) : Prop :=
  ∃ before line after, h.attributes = before ++ after ∧
    h' = { h with attributes := before ++ ⟨markers.testCategory, line⟩ :: after }

theorem Categorized.carries {h h' : Header} (hc : h.Categorized markers h') (name : String) :
    h'.carries name = (h.carries name || markers.testCategory == name) := by
  obtain ⟨before, line, after, hattributes, rfl⟩ := hc
  simp [Header.carries, hattributes, Bool.or_left_comm, Bool.or_comm]

theorem Categorized.others {h h' : Header} (hc : h.Categorized markers h') :
    h'.name = h.name ∧ h'.modifiers = h.modifiers ∧ h'.line = h.line := by
  obtain ⟨before, line, after, -, rfl⟩ := hc
  exact ⟨rfl, rfl, rfl⟩

theorem Categorized.lacksCategory {h h' : Header} (hc : h.Categorized markers h') :
    h'.lacksCategory markers = false := by
  simp [Header.lacksCategory, hc.carries]

/-- The line and the class of a test method that lacks a name. -/
def nameless? (markers : Markers) (kind : String) (owner method : Header) :
    Option (Int × String) :=
  if owner.isTestClass markers kind && (method.isPublic && method.carries markers.testMethod &&
      method.properName?.isNone) then
    owner.properName?.map (method.line, ·)
  else none

end Header

theorem namelessMethods_eq (markers : Markers) :
    namelessMethods markers = perMethod (Header.nameless? markers) := by
  funext d
  cases d with
  | type kind owner members =>
    have hmember (m : Declaration) : m.method?.bind (owner.nameless? markers kind) =
        if owner.isTestClass markers kind then
          owner.properName?.bind fun name => (m.namelessMethod? markers).map (·, name)
        else none := by
      cases m with
      | method method =>
        simp only [method?, Option.bind_some, Header.nameless?, Declaration.namelessMethod?,
          Bool.and_eq_true]
        cases owner.properName? <;> split <;> split <;> simp_all
      | _ => cases owner.properName? <;> simp [method?, Declaration.namelessMethod?]
    have hclass : (kind == "class" && owner.isPublic && owner.carries markers.testClass) =
        owner.isTestClass markers kind := rfl
    rw [namelessMethods, hclass, perMethod, List.filterMap_filterMap]
    simp only [hmember]
    cases owner.isTestClass markers kind with
    | false => simp
    | true =>
      cases owner.properName? with
      | none => simp
      | some name => simp [List.map_filterMap]
  | _ => rfl

namespace Occurrence

def isReported (markers : Markers) (p : Occurrence ds) : Bool :=
  (p.owner? none).any fun owner =>
    owner.2.isTestClass markers owner.1 && p.header.lacksCategory markers

def finding (scope path : String) (p : Occurrence ds) : Finding :=
  ⟨scope ++ "." ++ ((p.owner? none).bind (·.2.name)).getD "" ++ "." ++ p.header.name.getD "",
    path, p.header.line⟩

end Occurrence

/-- Each header is left as it is, or it lacks the category and gets it. -/
def Repairs (markers : Markers) (f : Occurrence ds → Header) : Prop :=
  ∀ p, f p = p.header ∨ p.header.lacksCategory markers = true ∧ p.header.Categorized markers (f p)

section
variable {ds : List Declaration} {f : Occurrence ds → Header} (hf : Repairs markers f)
  (p : Occurrence ds)
include hf

theorem Repairs.others : (f p).name = p.header.name ∧ (f p).line = p.header.line := by
  rcases hf p with h | ⟨-, hc⟩
  · rw [h]; exact ⟨rfl, rfl⟩
  · exact ⟨hc.others.1, hc.others.2.2⟩

theorem Repairs.nameless? (kind : String) (owner : Header) :
    owner.nameless? markers kind (f p) = owner.nameless? markers kind p.header := by
  rcases hf p with h | ⟨hlacks, hc⟩
  · rw [h]
  · have htest : p.header.carries markers.testMethod = true := by
      simp only [Header.lacksCategory, Bool.and_eq_true] at hlacks
      exact hlacks.1.2
    obtain ⟨hname, hmodifiers, hline⟩ := hc.others
    simp [Header.nameless?, Header.isPublic, Header.properName?, hc.carries, htest, hname,
      hmodifiers, hline]

theorem Repairs.lacksCategory (h : (f p).lacksCategory markers = true) :
    p.header.lacksCategory markers = true := by
  rcases hf p with heq | ⟨hlacks, -⟩
  · rwa [← heq]
  · exact hlacks

theorem Repairs.finding? (scope path : String) :
    ((p.owner? none).bind fun owner => owner.2.finding? markers path owner.1 (f p)).map
        (Finding.within scope) =
      if p.isReported markers && (f p).lacksCategory markers then some (p.finding scope path)
      else none := by
  obtain ⟨hname, hline⟩ := hf.others p
  have hlacks := hf.lacksCategory p
  rw [Occurrence.isReported, Occurrence.finding]
  cases p.owner? none with
  | none => rfl
  | some owner =>
    simp only [Option.bind_some, Option.any_some, Header.finding?]
    cases hnew : (f p).lacksCategory markers with
    | false => simp
    | true =>
      rw [hlacks hnew]
      cases owner.2.isTestClass markers owner.1 <;>
        simp [Header.finding, Finding.within, hname, hline, String.append_assoc]

end

namespace Outline

/-- The methods that findings are about, in the order of the findings. -/
def reported (o : Outline) (markers : Markers) : List (Occurrence o.declarations) :=
  (typed o.declarations).filter (·.isReported markers)

def withHeaders (o : Outline) (f : Occurrence o.declarations → Header) : Outline :=
  { o with declarations := Declaration.withHeaders o.declarations f }

def withHeader (o : Outline) (p : Occurrence o.declarations) (header : Header) : Outline :=
  o.withHeaders fun q => if q = p then header else q.header

section
variable {o : Outline} {f : Occurrence o.declarations → Header}

theorem withHeaders_header (o : Outline) : o.withHeaders Occurrence.header = o := by
  rw [withHeaders, Declaration.withHeaders_header]

theorem firstScope_withHeaders : (o.withHeaders f).firstScope counts = o.firstScope counts := by
  rw [firstScope, withHeaders,
    Declaration.findSome?_withHeaders (Declaration.superficial_scopeName? counts)]
  rfl

theorem Sound.withHeaders (h : o.Sound markers) (hf : Repairs markers f) :
    (o.withHeaders f).Sound markers where
  clear := (Declaration.obstacle_withHeaders o.declarations f Walk.depthLimit).trans h.clear
  classes := (Declaration.findSome?_withHeaders
    (Declaration.superficial_namelessClass? markers) o.declarations f).trans h.classes
  methods := by
    have hsame := Declaration.perMethod_withHeaders (Header.nameless? markers) o.declarations
    have horiginal := hsame Occurrence.header
    rw [Declaration.withHeaders_header, ← namelessMethods_eq, h.methods] at horiginal
    rw [Outline.withHeaders, namelessMethods_eq, hsame f, horiginal]
    simp only [hf.nameless?]

theorem findings_withHeaders (hf : Repairs markers f) (scope : String) :
    ((o.withHeaders f).localFindings markers).map (Finding.within scope) =
      ((o.reported markers).filter fun p => (f p).lacksCategory markers).map
        (·.finding scope o.path) := by
  rw [localFindings, withHeaders, Declaration.perMethod_withHeaders, List.map_filterMap,
    reported, List.filter_filter, ← List.filterMap_eq_map, List.filterMap_filter]
  refine List.filterMap_congr fun p _ => ?_
  rw [hf.finding? p scope o.path, Bool.and_comm]
  rfl

theorem analyze_withHeaders (h : o.analyze markers counts = .ok a) (hf : Repairs markers f) :
    (o.withHeaders f).analyze markers counts = .ok ⟨a.scope,
      ((o.reported markers).filter fun p => (f p).lacksCategory markers).map
        (·.finding a.scope o.path)⟩ := by
  obtain ⟨hsound, rfl⟩ := analyze_ok_iff.mp h
  refine analyze_ok_iff.mpr ⟨hsound.withHeaders hf, ?_⟩
  simp only [analysis, firstScope_withHeaders, findings_withHeaders hf]

end

section
variable {o : Outline} {p : Occurrence o.declarations}

theorem mem_reported : p ∈ o.reported markers ↔ p.isReported markers = true := by
  rw [reported, List.mem_filter, Declaration.mem_typed, and_iff_right_iff_imp,
    Occurrence.isReported]
  cases p.owner? none <;> simp

theorem lacksCategory_of_reported (h : p ∈ o.reported markers) :
    p.header.lacksCategory markers = true := by
  rw [mem_reported, Occurrence.isReported, Option.any_eq_true_iff_get] at h
  simp only [Bool.and_eq_true] at h
  exact h.2.2

theorem findings_reported (h : o.analyze markers counts = .ok a) :
    a.findings = (o.reported markers).map (·.finding a.scope o.path) := by
  have hsame := analyze_withHeaders (f := Occurrence.header) h fun p => .inl rfl
  rw [withHeaders_header, h, List.filter_eq_self.mpr fun p => lacksCategory_of_reported] at hsame
  exact congrArg Analysis.findings (Except.ok.inj hsame)

theorem repairs_one (hp : p ∈ o.reported markers) (hc : p.header.Categorized markers header) :
    Repairs markers fun q : Occurrence o.declarations => if q = p then header else q.header := by
  intro q
  by_cases hq : q = p
  · subst hq
    exact .inr ⟨lacksCategory_of_reported hp, by simpa using hc⟩
  · exact .inl (if_neg hq)

theorem filter_one (hc : p.header.Categorized markers header) :
    ((o.reported markers).filter fun q =>
      (if q = p then header else q.header).lacksCategory markers) =
      (o.reported markers).erase p := by
  have hnodup : (o.reported markers).Nodup := (Declaration.nodup_typed o.declarations).filter _
  rw [hnodup.erase_eq_filter]
  refine List.filter_congr fun q hq => ?_
  by_cases hqp : q = p
  · simp [hqp, hc.lacksCategory]
  · simp [hqp, lacksCategory_of_reported hq]

end

/-- The findings of a successful analysis are those of as many different occurrences of methods:
test methods directly in test classes that lack the category. Adding the category to one of them, at
any place among its attributes, clears its finding and changes nothing else; adding it to all of
them clears all findings. -/
theorem repair_clears (o : Outline) (h : o.analyze markers counts = .ok a) :
    (o.reported markers).Nodup ∧
    (∀ p, p ∈ o.reported markers ↔ p.isReported markers = true) ∧
    a.findings = (o.reported markers).map (·.finding a.scope o.path) ∧
    (∀ i p, (o.reported markers)[i]? = some p → ∀ header, p.header.Categorized markers header →
      (o.withHeader p header).analyze markers counts = .ok ⟨a.scope, a.findings.eraseIdx i⟩) ∧
    (∀ f, (∀ p ∈ o.reported markers, p.header.Categorized markers (f p)) →
      (∀ p ∉ o.reported markers, f p = p.header) →
      (o.withHeaders f).analyze markers counts = .ok ⟨a.scope, []⟩) := by
  have hnodup : (o.reported markers).Nodup := (Declaration.nodup_typed o.declarations).filter _
  refine ⟨hnodup, fun p => mem_reported, findings_reported h, ?_, ?_⟩
  · intro i p hi header hc
    obtain ⟨hlt, rfl⟩ := List.getElem?_eq_some_iff.mp hi
    have hp := List.getElem_mem hlt
    rw [withHeader, analyze_withHeaders h (repairs_one hp hc), filter_one hc,
      hnodup.erase_getElem, findings_reported h, List.eraseIdx_map]
  · intro f hreported hothers
    have hf : Repairs markers f := by
      intro p
      by_cases hp : p ∈ o.reported markers
      · exact .inr ⟨lacksCategory_of_reported hp, hreported p hp⟩
      · exact .inl (hothers p hp)
    have hnone : ((o.reported markers).filter fun p => (f p).lacksCategory markers) = [] := by
      rw [List.filter_eq_nil_iff]
      intro p hp
      simp [(hreported p hp).lacksCategory]
    rw [analyze_withHeaders h hf, hnone]
    rfl

/-- A test class within one of the same name, with a method of the same name on the same line. -/
def twins : Outline :=
  ⟨"T.cs", [
    .type "class" ⟨some "C", ["public"], [⟨"TestClass", 1⟩], 1⟩ [
      .type "class" ⟨some "C", ["public"], [⟨"TestClass", 2⟩], 2⟩
        [.method ⟨some "M", ["public"], [⟨"TestMethod", 2⟩], 2⟩],
      .method ⟨some "M", ["public"], [⟨"TestMethod", 2⟩], 2⟩]], false⟩

theorem repair_twins :
    twins.analyze {} true = .ok ⟨"", [⟨".C.M", "T.cs", 2⟩, ⟨".C.M", "T.cs", 2⟩]⟩ ∧
    twins.reported {} = [.inType (.later .here), .inType (.inType .here)] ∧
    (twins.withHeader (.inType (.inType .here))
        ⟨some "M", ["public"], [⟨"TestCategory", 2⟩, ⟨"TestMethod", 2⟩], 2⟩).analyze {} true =
      .ok ⟨"", [⟨".C.M", "T.cs", 2⟩]⟩ := by
  have hbefore : twins.analyze {} true =
      .ok ⟨"", [⟨".C.M", "T.cs", 2⟩, ⟨".C.M", "T.cs", 2⟩]⟩ := by cbv
  have hreported : twins.reported {} = [.inType (.later .here), .inType (.inType .here)] := by cbv
  refine ⟨hbefore, hreported, (repair_clears twins hbefore).2.2.2.1 1 _ ?_ _ ?_⟩
  · rw [hreported]; rfl
  · exact ⟨[], 2, [⟨"TestMethod", 2⟩], rfl, rfl⟩

end Outline

end CategoryAudit
