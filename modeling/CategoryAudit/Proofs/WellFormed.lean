import CategoryAudit.Proofs.Success
import CategoryAudit.Proofs.Text.Strip

/-!
# Well-formed declarations

Whatever a concrete tree is and whatever bytes its nodes stand for, the declarations that are read
off it are well formed at every depth: their names have no blanks and are not empty, and their lines
are those of nodes of the tree (`wellFormed_of_ofTree`). So an analysis meets no foreign value
(`analyze_not_foreign`), and the names of its findings have no blanks (`blankless_of_analyze`).
-/

namespace CategoryAudit

open Concrete (Node)

-- ---------------------------------------------------------------------------
-- Texts without blanks
-- ---------------------------------------------------------------------------

namespace Text

def Blankless (s : String) : Prop := ∀ c ∈ s.toList, isBlank c = false

theorem blankless_empty : Blankless "" := nofun

theorem blankless_point : Blankless "." := by
  intro c hc
  obtain rfl : c = '.' := by simpa using hc
  decide

theorem Blankless.append (hs : Blankless s) (ht : Blankless t) : Blankless (s ++ t) := by
  intro c hc
  rw [String.toList_append] at hc
  exact (List.mem_append.mp hc).elim (hs c) (ht c)

theorem blankless_compact (s : String) : Blankless (compact s) := by
  intro c hc
  rw [compact, String.toList_ofList] at hc
  simpa using (List.mem_filter.mp hc).2

theorem stripped_strip (s : String) : Stripped (strip s).toList := by
  rw [strip, String.toList_ofList]
  exact stripped_stripChars s.toList

end Text

open Text (Blankless Stripped)

-- ---------------------------------------------------------------------------
-- Well-formed declarations
-- ---------------------------------------------------------------------------

inductive Concrete.Node.Below (top : Node) : Node → Prop
  | child : n ∈ top.children → Below top n
  | deeper : Below top m → n ∈ m.children → Below top n

structure Header.WellFormed (n : Node) (h : Header) : Prop where
  line : h.line = n.row + 1
  name : ∀ name ∈ h.name, name ≠ "" ∧ Blankless name
  modifiers : ∀ m ∈ h.modifiers, Stripped m.toList
  attributes : ∀ a ∈ h.attributes, a.name ≠ "" ∧ Blankless a.name ∧
    ∃ list ∈ n.children, list.kind = "attribute_list" ∧
      ∃ m ∈ list.children, m.kind = "attribute" ∧ a.line = m.row + 1

mutual
/-- What a node below a given one declares, with members that nodes below this node declare. -/
def Declaration.WellFormed (source : ByteArray) (top : Node) : Declaration → Prop
  | .scope name fileScoped line members => ∃ n, top.Below n ∧
      n.kind = (if fileScoped then "file_scoped_namespace_declaration"
        else "namespace_declaration") ∧
      name = (n.name? source).getD "" ∧ line = n.row + 1 ∧ Blankless name ∧
      AllWellFormed source n members
  | .type kind header members => ∃ n, top.Below n ∧ n.kind = kind ++ "_declaration" ∧
      kind ∈ ["class", "struct", "interface", "record"] ∧
      header = n.header source ∧ header.WellFormed n ∧ AllWellFormed source n members
  | .method header => ∃ n, top.Below n ∧ n.kind = "method_declaration" ∧
      header = n.header source ∧ header.WellFormed n
  | .other kind line => ∃ n, top.Below n ∧ n.kind = kind ∧ line = n.row + 1
  | .foreign _ => False
def Declaration.AllWellFormed (source : ByteArray) (top : Node) : List Declaration → Prop
  | [] => True
  | d :: rest => d.WellFormed source top ∧ AllWellFormed source top rest
end

theorem Declaration.allWellFormed_iff {source : ByteArray} {top : Node} {ds : List Declaration} :
    AllWellFormed source top ds ↔ ∀ d ∈ ds, d.WellFormed source top := by
  induction ds with
  | nil => simp [AllWellFormed]
  | cons d rest ih => simp [AllWellFormed, ih]

-- ---------------------------------------------------------------------------
-- What a node declares
-- ---------------------------------------------------------------------------

namespace Concrete.Node

variable (n : Node) (source : ByteArray)

theorem name?_wellFormed {name : String} (h : n.name? source = some name) :
    name ≠ "" ∧ Blankless name := by
  unfold name? at h
  split at h
  · cases h
  split at h
  · cases h
  dsimp only at h
  split at h
  · cases h
  · rename_i hne
    cases h
    exact ⟨by simpa using hne, Text.blankless_compact _⟩

theorem blankless_name? : Blankless ((n.name? source).getD "") := by
  cases h : n.name? source with
  | none => exact Text.blankless_empty
  | some name => exact (n.name?_wellFormed source h).2

theorem header_wellFormed : (n.header source).WellFormed n where
  line := rfl
  name _ h := n.name?_wellFormed source h
  modifiers m hm := by
    obtain ⟨c, -, rfl⟩ := List.mem_map.mp hm
    exact Text.stripped_strip _
  attributes a ha := by
    obtain ⟨list, hlist, ha⟩ := List.mem_flatMap.mp ha
    obtain ⟨hlist, hkind⟩ := List.mem_filter.mp hlist
    obtain ⟨m, hm, ha⟩ := List.mem_filterMap.mp ha
    obtain ⟨hm, hmkind⟩ := List.mem_filter.mp hm
    obtain ⟨name, hname, rfl⟩ := Option.map_eq_some_iff.mp ha
    obtain ⟨hne, hblank⟩ := m.name?_wellFormed source hname
    exact ⟨hne, hblank, list, hlist, beq_iff_eq.mp hkind, m, constructs_subset list m hm,
      beq_iff_eq.mp hmkind, rfl⟩

theorem kind_of_typeKind? {n : Node} {kind : String} (h : n.typeKind? = some kind) :
    n.kind = kind ++ "_declaration" ∧ kind ∈ ["class", "struct", "interface", "record"] := by
  unfold typeKind? at h
  split at h <;> cases h <;> exact ⟨by assumption, by decide⟩

theorem scopeKind_of_isScope {n : Node} (h : n.isScope = true) :
    n.kind = if n.kind == "file_scoped_namespace_declaration" then
      "file_scoped_namespace_declaration" else "namespace_declaration" := by
  rcases kind_of_isScope h with hk | hk <;> rw [hk] <;> rfl

-- ---------------------------------------------------------------------------
-- The nodes that reading goes to
-- ---------------------------------------------------------------------------

variable {n : Node} {top : Node}

theorem Below.constructs (h : top.Below n) : ∀ c ∈ n.constructs, top.Below c :=
  fun c hc => h.deeper (constructs_subset n c hc)

theorem Below.branchBody (h : top.Below n) (excluded : List Node) :
    ∀ c ∈ n.branchBody excluded, top.Below c :=
  fun c hc => h.constructs c (List.mem_filter.mp hc).1

theorem mem_of_child? {c : Node} {role : String} (h : n.child? role = some c) : c ∈ n.children :=
  List.mem_of_find?_eq_some h

theorem Below.nextBranch? (h : top.Below n) {next : Node} (hnext : n.nextBranch? = some next) :
    top.Below next := by
  rw [Node.nextBranch?, Option.or_eq_some_iff] at hnext
  rcases hnext with hnext | ⟨-, hnext⟩
  · exact h.deeper (mem_of_child? hnext)
  · exact h.constructs next (List.mem_of_find?_eq_some hnext)

theorem below_constructs (n : Node) : ∀ c ∈ n.constructs, n.Below c :=
  fun c hc => .child (constructs_subset n c hc)

theorem below_scopeMembers (n : Node) : ∀ c ∈ n.scopeMembers, n.Below c := by
  intro c hc
  unfold scopeMembers at hc
  split at hc
  · rename_i body hbody
    exact (Below.child (mem_of_child? hbody)).constructs c hc
  · split at hc
    · exact below_constructs n c (List.mem_filter.mp hc).1
    · exact below_constructs n c hc

theorem below_typeMembers (n : Node) : ∀ c ∈ n.typeMembers, n.Below c := by
  intro c hc
  unfold typeMembers at hc
  split at hc
  · rename_i body hbody
    exact (Below.child (mem_of_child? hbody)).constructs c hc
  · cases hc

end Concrete.Node

-- ---------------------------------------------------------------------------
-- Reading
-- ---------------------------------------------------------------------------

namespace Outline

open Declaration (allWellFormed_iff)

/-- All declarations that a reading gives satisfy `P`. -/
def Gives (P : Declaration → Prop) (x : Reading (List Declaration)) : Prop :=
  ∀ s ds s', x.run s = .ok (ds, s') → ∀ d ∈ ds, P d

section
variable {P Q : Declaration → Prop} {x : Reading (List Declaration)}

theorem Gives.listed {ds : List Declaration} (h : ∀ d ∈ ds, P d) : Gives P (pure ds) := by
  intro s ds' s' hrun
  cases hrun
  exact h

theorem Gives.nothing : Gives P (pure []) := .listed nofun

theorem Gives.one {d : Declaration} (h : P d) : Gives P (pure [d]) :=
  .listed fun _ hd => List.mem_singleton.mp hd ▸ h

theorem Gives.fail (e : ParseError) : Gives P (throw e) := nofun

theorem Gives.andThen {k : List Declaration → Reading (List Declaration)} (hx : Gives Q x)
    (hk : ∀ ds, (∀ d ∈ ds, Q d) → Gives P (k ds)) : Gives P (x >>= k) := by
  intro s ds s'' hrun
  rw [StateT.run_bind, ok_bind_iff] at hrun
  obtain ⟨⟨found, s'⟩, hfound, hrun⟩ := hrun
  exact hk found (hx s found s' hfound) s' ds s'' hrun

theorem Gives.after {x : Reading α} {k : α → Reading (List Declaration)}
    (hk : ∀ a, Gives P (k a)) : Gives P (x >>= k) := by
  intro s ds s'' hrun
  rw [StateT.run_bind, ok_bind_iff] at hrun
  obtain ⟨⟨a, s'⟩, -, hrun⟩ := hrun
  exact hk a s' ds s'' hrun

theorem Gives.concat {f : Node → Reading (List Declaration)} {nodes : List Node}
    (h : ∀ n ∈ nodes, Gives P (f n)) : Gives P (concat f nodes) := by
  induction nodes with
  | nil => exact .nothing
  | cons n rest ih =>
    have hrest := ih fun m hm => h m (List.mem_cons_of_mem n hm)
    refine (h n List.mem_cons_self).andThen fun here hhere => hrest.andThen fun more hmore => ?_
    exact .listed fun d hd => (List.mem_append.mp hd).elim (hhere d) (hmore d)

end

section
variable (source : ByteArray) (depth : Nat)

/-- The three parts of reading give well-formed declarations. -/
structure ReadsWellFormed : Prop where
  several : ∀ top nodes, (∀ n ∈ nodes, top.Below n) →
    Gives (·.WellFormed source top) (readAll source depth nodes)
  node : ∀ top n, top.Below n → Gives (·.WellFormed source top) (readOne source depth n)
  directive : ∀ top n, top.Below n → Gives (·.WellFormed source top) (readDirective source depth n)

variable {source depth}

theorem ReadsWellFormed.node_succ (h : ReadsWellFormed source depth) {top n : Node}
    (hn : top.Below n) : Gives (·.WellFormed source top) (readOne source (depth + 1) n) := by
  rw [readOne]
  split
  · exact .nothing
  split
  · exact h.several top _ hn.constructs
  split
  · exact h.directive top n hn
  split
  · rename_i hscope
    refine (h.several n _ n.below_scopeMembers).andThen fun members hm => ?_
    exact .one ⟨n, hn, Node.scopeKind_of_isScope hscope, rfl, rfl, n.blankless_name? source,
      allWellFormed_iff.mpr hm⟩
  split
  · rename_i kind hkind
    obtain ⟨hnode, hmem⟩ := Node.kind_of_typeKind? hkind
    refine (h.several n _ n.below_typeMembers).andThen fun members hm => ?_
    exact .one ⟨n, hn, hnode, hmem, rfl, n.header_wellFormed source, allWellFormed_iff.mpr hm⟩
  split
  · rename_i hmethod
    exact .one ⟨n, hn, beq_iff_eq.mp hmethod, rfl, n.header_wellFormed source⟩
  · exact .one ⟨n, hn, rfl, rfl⟩

theorem ReadsWellFormed.directive_succ (h : ReadsWellFormed source depth) {top n : Node}
    (hn : top.Below n) : Gives (·.WellFormed source top) (readDirective source (depth + 1) n) := by
  rw [readDirective]
  split
  · split
    · exact .fail _
    · refine .after fun value => ?_
      split
      · exact h.several top _ (hn.branchBody _)
      split
      · rename_i next hnext
        exact h.directive top next (hn.nextBranch? hnext)
      · exact .nothing
  · exact h.several top _ (hn.branchBody _)
  · exact .after fun _ => .nothing
  · refine (h.several top _ hn.constructs).andThen fun found hfound => ?_
    exact .listed fun d hd => hfound d (List.mem_filter.mp hd).1

end

theorem readsWellFormed (source : ByteArray) (depth : Nat) : ReadsWellFormed source depth := by
  -- Every part of reading hands its depth, less one, to the others.
  induction depth with
  | zero => exact ⟨nofun, nofun, nofun⟩
  | succ depth ih =>
    exact ⟨fun top nodes hnodes => .concat fun n hn => ih.node top n (hnodes n hn),
      fun top n => ih.node_succ, fun top n => ih.directive_succ⟩

theorem wellFormed_of_ofTree {path : String} (h : ofTree allowPartial source path tree = .ok o) :
    ∀ d ∈ o.declarations, d.WellFormed source.toUTF8 tree.root := by
  unfold ofTree at h
  split at h
  · cases h
  · cases hrun : (readAll source.toUTF8 depthLimit tree.root.constructs).run [] with
    | error e => rw [declarationsOf, hrun] at h; cases h
    | ok left =>
      rw [declarationsOf, hrun] at h
      cases h
      exact (readsWellFormed source.toUTF8 depthLimit).several tree.root _
        tree.root.below_constructs [] left.1 left.2 hrun

end Outline

-- ---------------------------------------------------------------------------
-- Walks over well-formed declarations
-- ---------------------------------------------------------------------------

namespace Walk

theorem append_ne {a : Walk} {b : Unit → Walk} {o : Obstacle} (ha : a.obstacle ≠ some o)
    (hb : (b ()).obstacle ≠ some o) : (append a b).obstacle ≠ some o := by
  unfold append
  split
  · exact ha
  · exact hb

mutual
theorem one_not_foreign (depth : Nat) (sort : String) : (d : Declaration) → (top : Node) →
    d.WellFormed source top → (one depth d).obstacle ≠ some (.foreign sort)
  | .scope name fileScoped line members, top, h => by
    obtain ⟨n, -, -, -, -, -, hm⟩ := h
    rw [one]
    exact append_ne nofun (inside_not_foreign depth sort members n hm)
  | .type kind header members, top, h => by
    obtain ⟨n, -, -, -, -, -, hm⟩ := h
    rw [one]
    exact append_ne nofun (inside_not_foreign depth sort members n hm)
  | .method _, _, _ => by simp [one]
  | .other _ _, _, _ => by simp [one]
  | .foreign _, _, h => by simp [Declaration.WellFormed] at h
theorem inside_not_foreign : (depth : Nat) → (sort : String) → (members : List Declaration) →
    (top : Node) → Declaration.AllWellFormed source top members →
    (inside depth members).obstacle ≠ some (.foreign sort)
  | 0, _, _, _, _ => by simp [inside]
  | depth + 1, sort, members, top, h => by
    rw [inside]
    exact all_not_foreign depth sort members top h
theorem all_not_foreign (depth : Nat) (sort : String) : (ds : List Declaration) → (top : Node) →
    Declaration.AllWellFormed source top ds → (all depth ds).obstacle ≠ some (.foreign sort)
  | [], _, _ => by simp [all]
  | d :: rest, top, h => by
    obtain ⟨hd, hr⟩ := h
    rw [all]
    exact append_ne (one_not_foreign depth sort d top hd) (all_not_foreign depth sort rest top hr)
end

theorem finish_error {w : Walk} (h : w.finish = .error (.obstacle b)) : w.obstacle = some b := by
  unfold finish at h
  split at h
  · rename_i o ho
    cases h
    exact ho
  · cases h

end Walk

-- ---------------------------------------------------------------------------
-- Analyses of well-formed declarations
-- ---------------------------------------------------------------------------

open Declaration (preorder preorderAll allWellFormed_iff)

namespace Outline

theorem error_bind_iff {x : Except ε α} {k : α → Except ε β} :
    x >>= k = .error e ↔ x = .error e ∨ ∃ a, x = .ok a ∧ k a = .error e := by
  cases x <;> simp [bind, Except.bind]

theorem obstacle_of_analyze {o : Outline} (h : o.analyze markers counts = .error (.obstacle b)) :
    o.walk.obstacle = some b := by
  simp only [analyze, testClasses, error_bind_iff] at h
  -- Only the two stages that walk can fail on an obstacle; the others fail for want of a name.
  rcases h with hscope | ⟨scope, -, (hcollect | ⟨found, -, hfinish | ⟨u, -, h⟩⟩) | ⟨classes, -,
    hfindings | ⟨findings, -, h⟩⟩⟩
  · unfold Outline.scope at hscope
    split at hscope
    · cases hscope
    · rcases error_bind_iff.mp hscope with hfinish | ⟨u, -, h⟩
      · exact Walk.finish_error hfinish
      · cases h
  · have hrefusal := refusal?_eq_some.mpr hcollect
    rw [refusal?_collectM] at hrefusal
    obtain ⟨d, -, hd⟩ := List.exists_of_findSome?_eq_some hrefusal
    simp [refusal?_testClass?] at hd
  · exact Walk.finish_error hfinish
  · cases h
  · have hrefusal := refusal?_eq_some.mpr hfindings
    rw [refusal?_findingsOf] at hrefusal
    obtain ⟨c, -, hc⟩ := List.exists_of_findSome?_eq_some hrefusal
    obtain ⟨m, -, hm⟩ := List.exists_of_findSome?_eq_some hc
    simp at hm
  · cases h

theorem analyze_not_foreign {o : Outline} (h : ∀ d ∈ o.declarations, d.WellFormed source top)
    (markers : Markers) (counts : Bool) (sort : String) :
    o.analyze markers counts ≠ .error (.obstacle (.foreign sort)) := by
  intro ha
  exact Walk.all_not_foreign _ sort _ top (allWellFormed_iff.mpr h) (obstacle_of_analyze ha)

end Outline

mutual
theorem wellFormed_preorder : (d : Declaration) → (top : Node) → d.WellFormed source top →
    ∀ e ∈ d.preorder, ∃ n, e.WellFormed source n
  | .scope name fileScoped line members, top, h, e, he => by
    rcases List.mem_cons.mp he with rfl | he
    · exact ⟨top, h⟩
    · obtain ⟨n, -, -, -, -, -, hm⟩ := h
      exact wellFormed_preorderAll members n hm e he
  | .type kind header members, top, h, e, he => by
    rcases List.mem_cons.mp he with rfl | he
    · exact ⟨top, h⟩
    · obtain ⟨n, -, -, -, -, -, hm⟩ := h
      exact wellFormed_preorderAll members n hm e he
  | .method _, top, h, e, he => ⟨top, List.mem_singleton.mp he ▸ h⟩
  | .other _ _, top, h, e, he => ⟨top, List.mem_singleton.mp he ▸ h⟩
  | .foreign _, top, h, e, he => ⟨top, List.mem_singleton.mp he ▸ h⟩
theorem wellFormed_preorderAll : (ds : List Declaration) → (top : Node) →
    Declaration.AllWellFormed source top ds → ∀ e ∈ preorderAll ds, ∃ n, e.WellFormed source n
  | [], _, _, _, he => by cases he
  | d :: rest, top, h, e, he => by
    obtain ⟨hd, hr⟩ := h
    rcases List.mem_append.mp he with he | he
    · exact wellFormed_preorder d top hd e he
    · exact wellFormed_preorderAll rest top hr e he
end

theorem Header.WellFormed.blankless_getD {h : Header} (hw : h.WellFormed n) :
    Blankless (h.name.getD "") := by
  cases hname : h.name with
  | none => exact Text.blankless_empty
  | some name => exact (hw.name name hname).2

/-- The name that a finding has within its namespace is put together from two names. -/
theorem Declaration.WellFormed.blankless_perMethod {d : Declaration} (h : d.WellFormed source top)
    {markers : Markers} {path : String} :
    ∀ f ∈ d.perMethod (Header.finding? markers path), Blankless f.qualifiedName := by
  intro f hf
  cases d with
  | type kind owner members =>
    obtain ⟨n, -, -, -, -, howner, hmembers⟩ := h
    obtain ⟨method, hmethod, hf⟩ := List.mem_filterMap.mp hf
    obtain ⟨m, hm, hmethod⟩ := List.mem_filterMap.mp hmethod
    cases m with
    | method header =>
      cases hmethod
      obtain ⟨k, -, -, -, hheader⟩ := allWellFormed_iff.mp hmembers _ hm
      unfold Header.finding? at hf
      split at hf
      · cases hf
        exact (howner.blankless_getD.append Text.blankless_point).append hheader.blankless_getD
      · cases hf
    | _ => cases hmethod
  | _ => cases hf

theorem blankless_scopeName? {d : Declaration} (h : d.WellFormed source top) {counts : Bool}
    (hname : d.scopeName? counts = some name) : Blankless name := by
  cases d with
  | scope name' fileScoped line members =>
    obtain ⟨n, -, -, -, -, hblank, -⟩ := h
    simp only [Declaration.scopeName?] at hname
    split at hname
    · cases hname
    · cases hname
      exact hblank
  | _ => cases hname

namespace Outline

theorem blankless_firstScope {o : Outline} (h : ∀ d ∈ o.declarations, d.WellFormed source top)
    (counts : Bool) : Blankless (o.firstScope counts) := by
  rw [firstScope]
  cases hfound : (preorderAll o.declarations).findSome? (·.scopeName? counts) with
  | none => exact Text.blankless_empty
  | some name =>
    obtain ⟨d, hd, hname⟩ := List.exists_of_findSome?_eq_some hfound
    obtain ⟨n, hwell⟩ := wellFormed_preorderAll _ top (allWellFormed_iff.mpr h) d hd
    exact blankless_scopeName? hwell hname

theorem blankless_of_analyze {o : Outline} (h : ∀ d ∈ o.declarations, d.WellFormed source top)
    (ha : o.analyze markers counts = .ok a) : ∀ f ∈ a.findings, Blankless f.qualifiedName := by
  obtain ⟨-, rfl⟩ := analyze_ok_iff.mp ha
  intro f hf
  obtain ⟨g, hg, rfl⟩ := List.mem_map.mp hf
  obtain ⟨d, hd, hg⟩ := List.mem_flatMap.mp hg
  obtain ⟨n, hwell⟩ := wellFormed_preorderAll _ top (allWellFormed_iff.mpr h) d hd
  have hscope := blankless_firstScope h counts
  exact (hscope.append Text.blankless_point).append (hwell.blankless_perMethod g hg)

end Outline

end CategoryAudit
