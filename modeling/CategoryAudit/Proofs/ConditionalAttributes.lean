import CategoryAudit.Proofs.Inactive
import CategoryAudit.Proofs.Trailing

/-!
# Attributes in conditional directives

A conditional directive may stand among the attributes and modifiers of a type or a method. Such a
directive is not evaluated: no attribute within it counts, whatever its condition, and the outline
of a file is the same without all of them (`conditional_attributes`). So an attribute that an active
directive wraps is lost unless it is written outside as well.
-/

namespace CategoryAudit

open Concrete (Node)

def Declaration.header? : Declaration → Option Header
  | .type _ header _ | .method header => some header
  | _ => none

-- ---------------------------------------------------------------------------
-- Trees without directives in types and methods
-- ---------------------------------------------------------------------------

namespace Concrete

namespace Node

def bearsAttributes (n : Node) : Bool := n.typeKind?.isSome || n.kind == "method_declaration"

/-- A conditional directive that is neither the name nor the body of its parent. -/
def isLoose (c : Node) : Bool :=
  c.kindBegins "preproc_if" && c.field != some "name" && c.field != some "body"

/-- Whether loose directives are left out of a node. A body or the alternative of a directive is
read for what is in it, even if it is a type or a method. -/
def isBared (n : Node) : Bool :=
  n.bearsAttributes && n.field != some "body" && n.field != some "alternative"

/-- The attributes of the lists that the branch of a directive's own condition consists of. -/
def wrappedAttributes (q : Node) (source : ByteArray) : List Attribute :=
  (q.ownBody.filter (·.kind == "attribute_list")).flatMap (·.listedAttributes source)

mutual
/-- A tree whose types and methods have no loose directives. -/
def bare : Node → Node
  | .mk kind start stop row field named missing children =>
    let n : Node := .mk kind start stop row field named missing []
    .mk kind start stop row field named missing
      (if n.isBared then (bareAll children).filter (!·.isLoose) else bareAll children)
def bareAll : List Node → List Node
  | [] => []
  | n :: rest => n.bare :: bareAll rest
end

theorem bareAll_eq_map (nodes : List Node) : bareAll nodes = nodes.map bare := by
  induction nodes with
  | nil => rfl
  | cons n rest ih => rw [bareAll, ih, List.map_cons]

section
variable (n : Node)

@[simp] theorem kind_bare : n.bare.kind = n.kind := by cases n; rw [bare]; rfl
@[simp] theorem start_bare : n.bare.start = n.start := by cases n; rw [bare]; rfl
@[simp] theorem stop_bare : n.bare.stop = n.stop := by cases n; rw [bare]; rfl
@[simp] theorem row_bare : n.bare.row = n.row := by cases n; rw [bare]; rfl
@[simp] theorem field_bare : n.bare.field = n.field := by cases n; rw [bare]; rfl
@[simp] theorem named_bare : n.bare.named = n.named := by cases n; rw [bare]; rfl
@[simp] theorem missing_bare : n.bare.missing = n.missing := by cases n; rw [bare]; rfl

@[simp] theorem kindBegins_bare (front : String) :
    n.bare.kindBegins front = n.kindBegins front := by
  rw [kindBegins, kindBegins, kind_bare]

@[simp] theorem isBranch_bare : n.bare.isBranch = n.isBranch := by simp [isBranch]
@[simp] theorem isLoose_bare : n.bare.isLoose = n.isLoose := by simp [isLoose]
@[simp] theorem isScope_bare : n.bare.isScope = n.isScope := by simp [isScope]
@[simp] theorem typeKind?_bare : n.bare.typeKind? = n.typeKind? := by simp [typeKind?]
@[simp] theorem line_bare : n.bare.line = n.line := by simp [line]
@[simp] theorem directiveRole_bare : n.bare.directiveRole = n.directiveRole := by
  simp [directiveRole]
@[simp] theorem text_bare (source : ByteArray) : n.bare.text source = n.text source := by
  simp [text]

theorem isAmong_bare (excluded : List Node) :
    n.bare.isAmong (excluded.map bare) = n.isAmong excluded := by
  simp [isAmong, Function.comp_def]

theorem children_bare : n.bare.children =
    (if n.isBared then n.children.filter (!·.isLoose) else n.children).map bare := by
  have hfilter (children : List Node) : (children.map bare).filter (!·.isLoose) =
      (children.filter (!·.isLoose)).map bare := by
    simp [List.filter_map, Function.comp_def]
  cases h : n.isBared with
  | true =>
    cases n
    rw [bare, bareAll_eq_map, if_pos rfl, ← hfilter]
    exact if_pos h
  | false =>
    cases n
    rw [bare, bareAll_eq_map, if_neg Bool.false_ne_true]
    exact if_neg (ne_true_of_eq_false h)

variable {n}

theorem children_bare_of_kept (h : n.isBared = false) : n.bare.children = n.children.map bare := by
  rw [children_bare, h, if_neg Bool.false_ne_true]

theorem filter_children_bare {p : Node → Bool} (hp : ∀ c, p c = true → c.isLoose = false)
    (hbare : ∀ c, p c.bare = p c) : n.bare.children.filter p = (n.children.filter p).map bare := by
  have hmap (nodes : List Node) : (nodes.map bare).filter p = (nodes.filter p).map bare := by
    simp [List.filter_map, Function.comp_def, hbare]
  have hkept : (n.children.filter (!·.isLoose)).filter p = n.children.filter p := by
    rw [List.filter_filter]
    refine List.filter_congr fun c _ => ?_
    cases hc : p c with
    | false => rfl
    | true => simp [hp c hc]
  rw [children_bare, hmap]
  split
  · rw [hkept]
  · rfl

theorem constructs_bare (h : n.isBared = false) : n.bare.constructs = n.constructs.map bare := by
  rw [constructs, constructs, children_bare_of_kept h]
  simp [List.filter_map, Function.comp_def]

theorem child?_bare {role : String} (h : n.isBared = false ∨ role = "name" ∨ role = "body") :
    n.bare.child? role = (n.child? role).map bare := by
  have hmap (nodes : List Node) : (nodes.map bare).find? (·.field == some role) =
      (nodes.find? (·.field == some role)).map bare := by
    simp [List.find?_map]
  rcases h with h | hrole
  · rw [child?, children_bare_of_kept h, hmap]
    rfl
  · have hp : ∀ c : Node, (c.field == some role) = true → c.isLoose = false := by
      intro c hc
      rcases hrole with rfl | rfl <;> simp_all [isLoose]
    rw [child?, child?, ← List.head?_filter, filter_children_bare hp (by simp), List.head?_map,
      List.head?_filter]

theorem not_isBared (h : n.bearsAttributes = false) : n.isBared = false := by
  rw [isBared, h, Bool.false_and, Bool.false_and]

theorem name?_bare (source : ByteArray) : n.bare.name? source = n.name? source := by
  rw [name?, name?, child?_bare (.inr (.inl rfl))]
  cases n.child? "name" <;> simp

theorem listedAttributes_bare (h : n.kind = "attribute_list") (source : ByteArray) :
    n.bare.listedAttributes source = n.listedAttributes source := by
  have hkept : n.isBared = false := not_isBared (by simp [bearsAttributes, typeKind?, h])
  rw [listedAttributes, listedAttributes, constructs_bare hkept]
  simp [List.filter_map, List.filterMap_map, Function.comp_def, name?_bare]

theorem modifiers_bare (source : ByteArray) : n.bare.modifiers source = n.modifiers source := by
  have hp : ∀ c : Node, (c.kind == "modifier") = true → c.isLoose = false := by
    intro c hc
    simp [isLoose, kindBegins, beq_iff_eq.mp hc]
  rw [modifiers, modifiers, filter_children_bare hp (by simp), List.map_map]
  simp [Function.comp_def]

theorem attributes_bare (source : ByteArray) : n.bare.attributes source = n.attributes source := by
  have hp : ∀ c : Node, (c.kind == "attribute_list") = true → c.isLoose = false := by
    intro c hc
    simp [isLoose, kindBegins, beq_iff_eq.mp hc]
  rw [attributes, attributes, filter_children_bare hp (by simp), List.flatMap_map]
  refine List.flatMap_congr fun c hc => ?_
  exact listedAttributes_bare (by simpa using (List.mem_filter.mp hc).2) source

theorem header_bare (source : ByteArray) : n.bare.header source = n.header source := by
  rw [header, header, name?_bare, modifiers_bare, attributes_bare, line_bare]

theorem body_bare : (n.bare.child? "body") = (n.child? "body").map bare :=
  child?_bare (.inr (.inr rfl))

theorem isBared_child? {role : String} (h : n.child? role = some c)
    (hrole : role = "body" ∨ role = "alternative") : c.isBared = false := by
  have hfield : c.field = some role := by simpa using List.find?_some h
  rcases hrole with rfl | rfl <;> simp [isBared, hfield]

theorem not_bearsAttributes_of_isScope (h : n.isScope = true) : n.bearsAttributes = false := by
  have hkind : n.kind = "namespace_declaration" ∨ n.kind = "file_scoped_namespace_declaration" := by
    simpa [isScope] using h
  rcases hkind with hk | hk <;> simp [bearsAttributes, typeKind?, hk]

theorem not_isScope_of_bearsAttributes (h : n.bearsAttributes = true) : n.isScope = false := by
  by_contra hs
  rw [not_bearsAttributes_of_isScope (by simpa using hs)] at h
  cases h

theorem typeMembers_bare : n.bare.typeMembers = n.typeMembers.map bare := by
  rw [typeMembers, typeMembers, body_bare]
  cases hbody : n.child? "body" with
  | none => rfl
  | some body => exact constructs_bare (isBared_child? hbody (.inl rfl))

theorem scopeMembers_bare (h : n.isScope = true) :
    n.bare.scopeMembers = n.scopeMembers.map bare := by
  have hkept : n.isBared = false := not_isBared (not_bearsAttributes_of_isScope h)
  rw [scopeMembers, scopeMembers, body_bare]
  cases hbody : n.child? "body" with
  | some body => exact constructs_bare (isBared_child? hbody (.inl rfl))
  | none =>
    have hname : n.bare.child? "name" = (n.child? "name").map bare := child?_bare (.inr (.inl rfl))
    simp only [Option.map_none, hname, constructs_bare hkept]
    cases n.child? "name" with
    | none => rfl
    | some name => simp [List.filter_map, Function.comp_def]

theorem branchBody_bare (h : n.isBared = false) (excluded : List Node) :
    n.bare.branchBody (excluded.map bare) = (n.branchBody excluded).map bare := by
  rw [branchBody, branchBody, constructs_bare h, List.filter_map]
  simp [Function.comp_def, isAmong_bare]

theorem nextBranch?_bare (h : n.isBared = false) : n.bare.nextBranch? = n.nextBranch?.map bare := by
  rw [nextBranch?, nextBranch?, child?_bare (.inl h), constructs_bare h, List.find?_map,
    Option.map_or]
  simp

theorem not_bearsAttributes_of_directive (h : n.kindBegins "preproc" = true) :
    n.bearsAttributes = false := by
  cases hk : n.typeKind? with
  | some kind =>
    have hno := (Outline.kind_of_declares (n := n) (by simp [hk])).2.2.1
    rw [hno] at h
    cases h
  | none =>
    have hmethod : n.kind ≠ "method_declaration" := by
      intro hm
      rw [kindBegins, hm] at h
      exact absurd h (by decide)
    simp [bearsAttributes, hk, hmethod]

theorem directive_of_isBranch (h : n.isBranch = true) : n.kindBegins "preproc" = true := by
  rw [kindBegins, List.isPrefixOf_iff_prefix]
  rcases Bool.or_eq_true_iff.mp h with h | h
  · exact List.IsPrefix.trans (by decide) (List.isPrefixOf_iff_prefix.mp h)
  · exact List.IsPrefix.trans (by decide) (List.isPrefixOf_iff_prefix.mp h)

theorem isBared_nextBranch? (h : n.nextBranch? = some next) : next.isBared = false := by
  rcases Option.or_eq_some_iff.mp h with h | ⟨-, h⟩
  · exact isBared_child? h (.inr rfl)
  · exact not_isBared (not_bearsAttributes_of_directive
      (directive_of_isBranch (List.find?_some h)))

end

end Node

def Tree.bare (tree : Tree) : Tree :=
  ⟨tree.root.withChildren (tree.root.children.map Node.bare), tree.hasError⟩

end Concrete

namespace Outline

-- ---------------------------------------------------------------------------
-- Reading without directives in types and methods
-- ---------------------------------------------------------------------------

section
variable {source : ByteArray} {depth : Nat} {n : Node}

theorem verdict_bare (h : n.isBared = false) : verdict source s n.bare = verdict source s n := by
  rw [verdict, verdict, Node.child?_bare (.inl h)]
  cases n.child? "condition" <;> simp

theorem readOne_bare
    (hall : ∀ nodes, readAll source depth (nodes.map Node.bare) = readAll source depth nodes)
    (hdirective : ∀ n, n.isBared = false →
      readDirective source depth n.bare = readDirective source depth n) (n : Node) :
    readOne source (depth + 1) n.bare = readOne source (depth + 1) n := by
  by_cases he : n.kind = "ERROR"
  · have hkept : n.isBared = false :=
      Node.not_isBared (by simp [Node.bearsAttributes, Node.typeKind?, he])
    rw [readOne_broken he, readOne_broken (n.kind_bare.trans he), Node.constructs_bare hkept, hall]
  by_cases hp : n.kindBegins "preproc" = true
  · have hp' : n.bare.kindBegins "preproc" = true := by rw [Node.kindBegins_bare, hp]
    rw [readOne_directive hp, readOne_directive hp',
      hdirective n (Node.not_isBared (Node.not_bearsAttributes_of_directive hp))]
  by_cases hs : n.isScope = true
  · have hs' : n.bare.isScope = true := by rw [Node.isScope_bare, hs]
    rw [readOne_scope hs, readOne_scope hs', Node.name?_bare, Node.scopeMembers_bare hs,
      Node.kind_bare, Node.line_bare, hall]
  cases hk : n.typeKind? with
  | some kind =>
    have hs' : n.bare.isScope = false := by rw [Node.isScope_bare, eq_false_of_ne_true hs]
    have hk' : n.bare.typeKind? = some kind := by rw [Node.typeKind?_bare, hk]
    rw [readOne_type (eq_false_of_ne_true hs) hk, readOne_type hs' hk', Node.header_bare,
      Node.typeMembers_bare, hall]
  | none =>
    rw [readOne, readOne]
    simp [he, hp, hs, hk, Node.header_bare]

theorem readDirective_bare
    (hall : ∀ nodes, readAll source depth (nodes.map Node.bare) = readAll source depth nodes)
    (hdirective : ∀ n, n.isBared = false →
      readDirective source depth n.bare = readDirective source depth n)
    (hn : n.isBared = false) :
    readDirective source (depth + 1) n.bare = readDirective source (depth + 1) n := by
  have hrole := n.directiveRole_bare
  cases hr : n.directiveRole with
  | conditional =>
    rw [hr] at hrole
    refine StateT.ext fun s => ?_
    rw [readDirective_conditional hr, readDirective_conditional hrole, verdict_bare hn]
    cases verdict source s n with
    | error e => rfl
    | ok value =>
      cases value with
      | true =>
        have hbody := Node.branchBody_bare hn
          ((n.child? "condition").toList ++ (n.child? "alternative").toList)
        rw [List.map_append, ← Option.toList_map, ← Option.toList_map, ← Node.child?_bare (.inl hn),
          ← Node.child?_bare (.inl hn)] at hbody
        simp only [hbody, hall]
      | false =>
        rw [Node.nextBranch?_bare hn]
        cases hnext : n.nextBranch? with
        | none => rfl
        | some next =>
          simp only [Option.map_some, hdirective next (Node.isBared_nextBranch? hnext)]
  | otherwise =>
    rw [hr] at hrole
    rw [readDirective, readDirective, hr, hrole]
    have hbody := Node.branchBody_bare hn []
    rw [List.map_nil] at hbody
    simp only [hbody, hall]
  | definition =>
    rw [hr] at hrole
    rw [readDirective, readDirective, hr, hrole, Node.text_bare]
  | transparent =>
    rw [hr] at hrole
    rw [readDirective_transparent hr, readDirective_transparent hrole, Node.constructs_bare hn,
      hall]

end

theorem reading_bare (source : ByteArray) (depth : Nat) :
    (∀ nodes, readAll source depth (nodes.map Node.bare) = readAll source depth nodes) ∧
    (∀ n, readOne source depth n.bare = readOne source depth n) ∧
    (∀ n, n.isBared = false →
      readDirective source depth n.bare = readDirective source depth n) := by
  induction depth with
  | zero => exact ⟨fun _ => rfl, fun _ => rfl, fun _ _ => rfl⟩
  | succ depth ih =>
    obtain ⟨hall, hone, hdirective⟩ := ih
    refine ⟨fun nodes => ?_, readOne_bare hall hdirective,
      fun _ => readDirective_bare hall hdirective⟩
    rw [readAll, readAll]
    induction nodes with
    | nil => rfl
    | cons n rest ih => rw [List.map_cons, concat, concat, hone, ih]

theorem ofTree_bare (source path : String) {tree : Concrete.Tree}
    (hread : tree.hasError = true → allowPartial = true) :
    ofTree allowPartial source path tree.bare = ofTree allowPartial source path tree := by
  have hgate : (tree.hasError && !allowPartial) = false := by
    cases he : tree.hasError with
    | false => rfl
    | true => simp [hread he]
  have hconstructs : tree.bare.root.constructs = tree.root.constructs.map Node.bare := by
    simp [Concrete.Tree.bare, Node.constructs, List.filter_map, Function.comp_def]
  have hdeclarations : declarationsOf source.toUTF8 tree.bare =
      declarationsOf source.toUTF8 tree := by
    rw [declarationsOf, declarationsOf, hconstructs, (reading_bare source.toUTF8 depthLimit).1]
  have hflag : tree.bare.hasError = tree.hasError := rfl
  simp only [ofTree, hflag, hgate, hdeclarations, Bool.false_eq_true, ↓reduceIte]

-- ---------------------------------------------------------------------------
-- What a directive wraps
-- ---------------------------------------------------------------------------

theorem readOne_method {n : Node} (h : n.kind = "method_declaration") :
    readOne source (depth + 1) n = return [.method (n.header source)] := by
  have hs : n.isScope = false := by simp [Node.isScope, h]
  have hk : n.typeKind? = none := by simp [Node.typeKind?, h]
  have hp : n.kindBegins "preproc" = false := by
    rw [Node.kindBegins, h]
    decide
  rw [readOne]
  simp [h, hs, hk, hp]

/-- A type or method gives one declaration, with the attributes directly below it. -/
theorem readOne_bearsAttributes {n : Node} (hn : n.bearsAttributes = true)
    (hread : (readOne source depth n).run s = .ok (ds, t)) :
    ∃ d, ds = [d] ∧ d.header? = some (n.header source) := by
  cases depth with
  | zero => cases hread
  | succ depth =>
    have hs : n.isScope = false := Node.not_isScope_of_bearsAttributes hn
    cases hk : n.typeKind? with
    | some kind =>
      rw [readOne_type hs hk, StateT.run_bind, ok_bind_iff] at hread
      obtain ⟨members, -, hread⟩ := hread
      cases hread
      exact ⟨_, rfl, rfl⟩
    | none =>
      have hmethod : n.kind = "method_declaration" := by
        simpa [Node.bearsAttributes, hk] using hn
      rw [readOne_method hmethod] at hread
      cases hread
      exact ⟨_, rfl, rfl⟩

/-- A directive among the attributes of what was read is evaluated, as it would be elsewhere. -/
structure AttributesCount (source : ByteArray) (s : Symbols) (q : Node) (ds : List Declaration) :
    Prop where
  active : verdict source s q = .ok true → ∀ a ∈ q.wrappedAttributes source,
    ∃ d ∈ ds, ∃ header, d.header? = some header ∧ a ∈ header.attributes
  inactive : verdict source s q = .ok false → q.nextBranch? = none →
    ∀ a ∈ q.wrappedAttributes source, ∀ d ∈ ds, ∀ header, d.header? = some header →
      a ∉ header.attributes

theorem attributesCount_iff (hd : d.header? = some header) : AttributesCount source s q [d] ↔
    (verdict source s q = .ok true → ∀ a ∈ q.wrappedAttributes source, a ∈ header.attributes) ∧
    (verdict source s q = .ok false → q.nextBranch? = none →
      ∀ a ∈ q.wrappedAttributes source, a ∉ header.attributes) := by
  constructor
  · rintro ⟨hactive, hinactive⟩
    refine ⟨fun hv a ha => ?_, fun hv hnext a ha => ?_⟩
    · obtain ⟨d', hd', header', hheader, hmem⟩ := hactive hv a ha
      rw [List.mem_singleton.mp hd', hd, Option.some.injEq] at hheader
      exact hheader ▸ hmem
    · exact hinactive hv hnext a ha d (List.mem_singleton_self d) header hd
  · rintro ⟨hactive, hinactive⟩
    refine ⟨fun hv a ha => ⟨d, List.mem_singleton_self d, header, hd, hactive hv a ha⟩, ?_⟩
    intro hv hnext a ha d' hd' header' hheader
    rw [List.mem_singleton.mp hd', hd, Option.some.injEq] at hheader
    exact hheader ▸ hinactive hv hnext a ha

section
variable {n : Node} (hchildren : n.children = pre ++ q :: post)
include hchildren

theorem child?_without (h : q.field ≠ some role) :
    (n.withChildren (pre ++ post)).child? role = n.child? role := by
  have hq : (q.field == some role) = false := by simpa using h
  rw [Node.child?, Node.child?, Node.children_withChildren, hchildren, List.find?_append,
    List.find?_append, List.find?_cons, hq]

theorem filter_without (h : q.kind ≠ kind) :
    (n.withChildren (pre ++ post)).children.filter (·.kind == kind) =
      n.children.filter (·.kind == kind) := by
  simp [hchildren, h]

theorem attributes_without (hq : q.kindBegins "preproc_if" = true) :
    (n.withChildren (pre ++ post)).attributes source = n.attributes source := by
  have hkind : q.kind ≠ "attribute_list" := by
    intro hk
    rw [Node.kindBegins, hk] at hq
    exact absurd hq (by decide)
  rw [Node.attributes, Node.attributes, filter_without hchildren hkind]

theorem header_without (hq : q.isLoose = true) :
    (n.withChildren (pre ++ post)).header source = n.header source := by
  simp only [Node.isLoose, Bool.and_eq_true, bne_iff_ne] at hq
  obtain ⟨⟨hpreproc, hname⟩, -⟩ := hq
  have hkind : q.kind ≠ "modifier" := by
    intro hk
    rw [Node.kindBegins, hk] at hpreproc
    exact absurd hpreproc (by decide)
  rw [Node.header, Node.header, Node.name?, Node.name?, child?_without hchildren hname,
    Node.modifiers, Node.modifiers, filter_without hchildren hkind,
    attributes_without hchildren hpreproc, Node.line_withChildren]

/-- A type or method is read as without a directive that is loose in it. -/
theorem readOne_without (hn : n.bearsAttributes = true) (hq : q.isLoose = true) (depth : Nat) :
    readOne source depth (n.withChildren (pre ++ post)) = readOne source depth n := by
  cases depth with
  | zero => rfl
  | succ depth =>
    have hs : n.isScope = false := Node.not_isScope_of_bearsAttributes hn
    cases hk : n.typeKind? with
    | some kind =>
      have hbody : q.field ≠ some "body" := by
        simp only [Node.isLoose, Bool.and_eq_true, bne_iff_ne] at hq
        exact hq.2
      have hmembers : (n.withChildren (pre ++ post)).typeMembers = n.typeMembers := by
        rw [Node.typeMembers, Node.typeMembers, child?_without hchildren hbody]
      rw [readOne_type hs hk, readOne_type (n := n.withChildren (pre ++ post)) hs hk,
        header_without hchildren hq, hmembers]
    | none =>
      have hmethod : n.kind = "method_declaration" := by
        simpa [Node.bearsAttributes, hk] using hn
      rw [readOne_method hmethod, readOne_method (n := n.withChildren (pre ++ post)) hmethod,
        header_without hchildren hq]

end

/-- Conditional directives in types and methods are passed over, whatever their conditions: without
all of them the outline is the same, and so is without one of them what is read of a type or a
method. So what such a directive wraps counts as it should exactly if it is written outside as well
where the condition is true, and is not where it is false. -/
theorem conditional_attributes (allowPartial : Bool) (source path : String) (tree : Concrete.Tree)
    (hread : tree.hasError = true → allowPartial = true) :
    ofTree allowPartial source path tree.bare = ofTree allowPartial source path tree ∧
    ∀ n pre q post s, n.bearsAttributes = true → n.children = pre ++ q :: post →
      q.kindBegins "preproc_if" = true →
      (q.isLoose = true → ∀ depth,
        (readOne source.toUTF8 depth (n.withChildren (pre ++ post))).run s =
          (readOne source.toUTF8 depth n).run s) ∧
      ∀ depth ds t, (readOne source.toUTF8 depth n).run s = .ok (ds, t) →
        (∃ d, ds = [d] ∧ d.header? = some (n.header source.toUTF8)) ∧
        (AttributesCount source.toUTF8 s q ds ↔
          (verdict source.toUTF8 s q = .ok true → ∀ a ∈ q.wrappedAttributes source.toUTF8,
            a ∈ (n.withChildren (pre ++ post)).attributes source.toUTF8) ∧
          (verdict source.toUTF8 s q = .ok false → q.nextBranch? = none →
            ∀ a ∈ q.wrappedAttributes source.toUTF8,
              a ∉ (n.withChildren (pre ++ post)).attributes source.toUTF8)) := by
  refine ⟨ofTree_bare source path hread, fun n pre q post s hn hchildren hq => ⟨?_, ?_⟩⟩
  · intro hloose depth
    rw [readOne_without hchildren hn hloose]
  · intro depth ds t hrun
    obtain ⟨d, rfl, hd⟩ := readOne_bearsAttributes hn hrun
    rw [attributes_without hchildren hq]
    exact ⟨⟨d, rfl, hd⟩, attributesCount_iff hd⟩

def hidingText (condition : String) : String :=
  "[TestClass] public class C \x7b\n[TestMethod]\n#if " ++ condition ++
    "\n[TestCategory]\n#endif\npublic void M() \x7b \x7d\n\x7d"

def attributeList (start stop : Nat) (row : Int) : Node :=
  .mk "attribute_list" start stop row none true false [
    .mk "attribute" (start + 1) (stop - 1) row none true false [
      .mk "identifier" (start + 1) (stop - 1) row (some "name") true false []]]

def categoryDirective : Node :=
  .mk "preproc_if" 42 72 2 none true false [
    .mk "identifier" 46 50 2 (some "condition") true false [], attributeList 51 65 3]

def hidingMethod : Node :=
  .mk "method_declaration" 29 91 1 none true false [
    attributeList 29 41 1, categoryDirective,
    .mk "modifier" 73 79 5 none true false [],
    .mk "identifier" 85 86 5 (some "name") true false []]

def hidingClass : Node :=
  .mk "class_declaration" 0 94 0 none true false [
    attributeList 0 11 0,
    .mk "modifier" 12 18 0 none true false [],
    .mk "identifier" 25 26 0 (some "name") true false [],
    .mk "declaration_list" 27 94 0 (some "body") true false [hidingMethod]]

def hidingTree : Concrete.Tree :=
  ⟨.mk "compilation_unit" 0 94 0 none true false [hidingClass], false⟩

theorem verdict_categoryDirective (condition : String) (htext : Node.text
      (.mk "identifier" 46 50 2 (some "condition") true false []) source = condition)
    (heval : Condition.evalText condition [] = .ok value) :
    verdict source [] categoryDirective = .ok value := by
  have hcondition : categoryDirective.child? "condition" =
      some (.mk "identifier" 46 50 2 (some "condition") true false []) := by rfl
  rw [verdict, hcondition]
  simp only [htext, heval]

theorem readOne_hidingMethod (source : ByteArray) :
    (readOne source 1 hidingMethod).run [] = .ok ([.method (hidingMethod.header source)], []) := by
  rw [readOne_method rfl]
  rfl

/-- A false condition hides what it wraps, as it should. -/
theorem inactive_category :
    hidingTree.hasError = false ∧ hidingMethod.bearsAttributes = true ∧
    (readOne (hidingText "DEMO").toUTF8 1 hidingMethod).run [] =
      .ok ([.method (hidingMethod.header (hidingText "DEMO").toUTF8)], []) ∧
    verdict (hidingText "DEMO").toUTF8 [] categoryDirective = .ok false ∧
    categoryDirective.wrappedAttributes (hidingText "DEMO").toUTF8 = [⟨"TestCategory", 4⟩] ∧
    AttributesCount (hidingText "DEMO").toUTF8 [] categoryDirective
      [.method (hidingMethod.header (hidingText "DEMO").toUTF8)] := by
  have hread := readOne_hidingMethod (hidingText "DEMO").toUTF8
  have hv : verdict (hidingText "DEMO").toUTF8 [] categoryDirective = .ok false :=
    verdict_categoryDirective "DEMO" (by decide +kernel) (by cbv)
  have hwrapped : categoryDirective.wrappedAttributes (hidingText "DEMO").toUTF8 =
      [⟨"TestCategory", 4⟩] := by decide +kernel
  have houtside : (hidingMethod.withChildren ([attributeList 29 41 1] ++
      hidingMethod.children.drop 2)).attributes (hidingText "DEMO").toUTF8 =
        [⟨"TestMethod", 2⟩] := by decide +kernel
  refine ⟨rfl, rfl, hread, hv, hwrapped, ?_⟩
  have hchildren : hidingMethod.children =
      [attributeList 29 41 1] ++ categoryDirective :: hidingMethod.children.drop 2 := rfl
  have hread' : hidingTree.hasError = true → false = true := id
  have hunconditional := conditional_attributes false (hidingText "DEMO") "T.cs" hidingTree hread'
  refine ((hunconditional.2 hidingMethod _ categoryDirective _ [] rfl hchildren (by decide)).2 1 _ _
    hread).2.mpr ⟨fun htrue => ?_, fun _ _ a ha => ?_⟩
  · rw [hv] at htrue
    cases htrue
  · rw [hwrapped] at ha
    rw [List.mem_singleton.mp ha, houtside]
    simp

/-- A true one hides it as well, and the test method is reported. -/
theorem active_category_lost :
    verdict (hidingText "true").toUTF8 [] categoryDirective = .ok true ∧
    categoryDirective.wrappedAttributes (hidingText "true").toUTF8 = [⟨"TestCategory", 4⟩] ∧
    (readOne (hidingText "true").toUTF8 1 hidingMethod).run [] =
      .ok ([.method (hidingMethod.header (hidingText "true").toUTF8)], []) ∧
    ¬ AttributesCount (hidingText "true").toUTF8 [] categoryDirective
      [.method (hidingMethod.header (hidingText "true").toUTF8)] ∧
    FileResult.ofOutline "T.cs" {} false (ofTree false (hidingText "true") "T.cs" hidingTree) =
      ⟨"T.cs", "", [⟨".C.M", "T.cs", 2⟩], none⟩ := by
  have hv : verdict (hidingText "true").toUTF8 [] categoryDirective = .ok true :=
    verdict_categoryDirective "true" (by decide +kernel) (by cbv)
  have hwrapped : categoryDirective.wrappedAttributes (hidingText "true").toUTF8 =
      [⟨"TestCategory", 4⟩] := by decide +kernel
  have hmethod : hidingMethod.header (hidingText "true").toUTF8 =
      ⟨some "M", ["public"], [⟨"TestMethod", 2⟩], 2⟩ := by decide +kernel
  have hclass : hidingClass.header (hidingText "true").toUTF8 =
      ⟨some "C", ["public"], [⟨"TestClass", 1⟩], 1⟩ := by decide +kernel
  refine ⟨hv, hwrapped, readOne_hidingMethod _, fun h => ?_, ?_⟩
  · rw [attributesCount_iff rfl, hwrapped, hmethod] at h
    exact absurd (h.1 hv _ (List.mem_singleton_self _)) (by simp)
  · have hread : (readAll (hidingText "true").toUTF8 depthLimit hidingTree.root.constructs).run [] =
        .ok ([.type "class" (hidingClass.header (hidingText "true").toUTF8)
          [.method (hidingMethod.header (hidingText "true").toUTF8)]], []) := by rfl
    have houtline : ofTree false (hidingText "true") "T.cs" hidingTree = .ok ⟨"T.cs",
        [.type "class" ⟨some "C", ["public"], [⟨"TestClass", 1⟩], 1⟩
          [.method ⟨some "M", ["public"], [⟨"TestMethod", 2⟩], 2⟩]], false⟩ := by
      rw [ofTree, declarationsOf, hread, hclass, hmethod]
      rfl
    rw [houtline, FileResult.ofOutline]
    cbv

end Outline

end CategoryAudit
