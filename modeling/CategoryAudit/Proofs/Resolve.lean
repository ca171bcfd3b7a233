import Mathlib
import CategoryAudit.Outline

/-!
# Directives resolved before reading

A pass over concrete nodes that carries the defined symbols and leaves only declarations: of each
conditional directive the selected branch, of a broken region or another directive what stands in
it. Reading a tree at once gives the declarations of what this pass leaves, the same symbols and
the same errors (`reading_resolved`).

Reading has a limit on how deeply declarations and directives are nested, and the pass has none.
The limit is never met in trees of a third of its height.
-/

namespace CategoryAudit

open Concrete (Node)

-- ---------------------------------------------------------------------------
-- The height of a tree
-- ---------------------------------------------------------------------------

namespace Concrete

mutual
def Node.height : Node → Nat
  | .mk _ _ _ _ _ _ _ children => 1 + heights children
def heights : List Node → Nat
  | [] => 0
  | n :: rest => max n.height (heights rest)
end

theorem height_le_heights (h : n ∈ nodes) : n.height ≤ heights nodes := by
  induction h with
  | head => exact Nat.le_max_left ..
  | tail _ _ ih => exact Nat.le_trans ih (Nat.le_max_right ..)

theorem heights_mono (h : ∀ n ∈ few, n ∈ many) : heights few ≤ heights many := by
  induction few with
  | nil => exact Nat.zero_le _
  | cons n few ih =>
    have hn : n.height ≤ heights many := height_le_heights (h n (by simp))
    exact Nat.max_le.mpr ⟨hn, ih fun m hm => h m (by simp [hm])⟩

namespace Node

theorem heights_lt {n : Node} (h : ∀ c ∈ nodes, c ∈ n.children) : heights nodes < n.height := by
  cases n with
  | mk kind start stop row field named missing children =>
    have hle : heights nodes ≤ heights children := heights_mono h
    simp only [height]
    omega

theorem height_pos (n : Node) : 0 < n.height :=
  Nat.lt_of_le_of_lt (Nat.zero_le _) (heights_lt fun _ h => h)

theorem constructs_subset (n : Node) : ∀ c ∈ n.constructs, c ∈ n.children :=
  fun _ h => (List.mem_filter.mp h).1

theorem heights_constructs (n : Node) : heights n.constructs < n.height :=
  heights_lt n.constructs_subset

theorem heights_branchBody (n : Node) (excluded : List Node) :
    heights (n.branchBody excluded) < n.height :=
  heights_lt fun c h => n.constructs_subset c (List.mem_filter.mp h).1

theorem height_child? {n : Node} (h : n.child? role = some c) : c.height < n.height :=
  Nat.lt_of_le_of_lt (height_le_heights (List.mem_of_find?_eq_some h)) (heights_lt fun _ h => h)

theorem height_nextBranch? {n : Node} (h : n.nextBranch? = some next) : next.height < n.height := by
  rcases Option.or_eq_some_iff.mp h with h | ⟨-, h⟩
  · exact height_child? h
  · exact Nat.lt_of_le_of_lt (height_le_heights (List.mem_of_find?_eq_some h)) n.heights_constructs

def members (n : Node) : List Node :=
  if n.isScope then n.scopeMembers
  else if n.typeKind?.isSome then n.typeMembers
  else []

theorem heights_scopeMembers (n : Node) : heights n.scopeMembers < n.height := by
  unfold scopeMembers
  split
  · rename_i body h
    exact Nat.lt_trans body.heights_constructs (height_child? h)
  · split
    · exact heights_lt fun c h => n.constructs_subset c (List.mem_filter.mp h).1
    · exact n.heights_constructs

theorem heights_typeMembers (n : Node) : heights n.typeMembers < n.height := by
  unfold typeMembers
  split
  · rename_i body h
    exact Nat.lt_trans body.heights_constructs (height_child? h)
  · exact n.height_pos

theorem heights_members (n : Node) : heights n.members < n.height := by
  unfold members
  split
  · exact n.heights_scopeMembers
  · split
    · exact n.heights_typeMembers
    · exact n.height_pos

end Node

end Concrete

open Concrete (heights)

-- ---------------------------------------------------------------------------
-- Resolving
-- ---------------------------------------------------------------------------

/-- A node that is no directive, with what is left of the nodes it declares within itself. -/
inductive Resolved where
  | mk (node : Node) (members : List Resolved)
  deriving Repr

namespace Resolved

def node : Resolved → Node | mk n _ => n
def members : Resolved → List Resolved | mk _ ms => ms

def isDeclaration (r : Resolved) : Bool :=
  r.node.isScope || r.node.typeKind?.isSome || r.node.kind == "method_declaration"

mutual
def preorder : Resolved → List Resolved
  | mk n members => mk n members :: preorderAll members
def preorderAll : List Resolved → List Resolved
  | [] => []
  | r :: rest => r.preorder ++ preorderAll rest
end

theorem preorderAll_eq_flatMap (forest : List Resolved) :
    preorderAll forest = forest.flatMap preorder := by
  induction forest with
  | nil => rfl
  | cons r rest ih => rw [preorderAll, ih, List.flatMap_cons]

end Resolved

namespace Outline

def verdict (source : ByteArray) (defined : Symbols) (n : Node) : Except ParseError Bool :=
  match n.child? "condition" with
  | none => .error (.missingCondition n.line)
  | some condition =>
    match Condition.evalText (condition.text source) defined with
    | .ok value => .ok value
    | .error fault => .error (.badCondition fault (condition.text source) n.line)

/-- The branch of a conditional directive that counts: the first one whose condition is true or
that has none. A directive of another kind stands for itself. -/
def selected? (source : ByteArray) (defined : Symbols) (n : Node) :
    Except ParseError (Option Node) :=
  match n.directiveRole with
  | .conditional =>
    match verdict source defined n with
    | .error e => .error e
    | .ok true => .ok (some n)
    | .ok false =>
      match _h : n.nextBranch? with
      | none => .ok none
      | some next => selected? source defined next
  | _ => .ok (some n)
termination_by n.height
decreasing_by exact Node.height_nextBranch? ‹_›

theorem height_selected? (h : selected? source defined n = .ok (some b)) :
    b.height ≤ n.height := by
  fun_induction selected? source defined n with
  | case1 => cases h
  | case2 => cases h; exact Nat.le_refl _
  | case3 => cases h
  | case4 n _ _ next hn ih => exact Nat.le_trans (ih h) (Nat.le_of_lt (Node.height_nextBranch? hn))
  | case5 => cases h; exact Nat.le_refl _

mutual
def resolveAll (source : ByteArray) : List Node → Reading (List Resolved)
  | [] => return []
  | n :: rest => do
    let here ← resolveOne source n
    let more ← resolveAll source rest
    return here ++ more
termination_by nodes => (heights nodes, nodes.length + 2)
decreasing_by
  · exact Prod.Lex.right' _ (Nat.le_max_left ..) (by omega)
  · exact Prod.Lex.right' _ (Nat.le_max_right ..) (by simp)
def resolveOne (source : ByteArray) (n : Node) : Reading (List Resolved) := do
  if n.kind == "comment" then return []
  else if n.kind == "ERROR" then resolveAll source n.constructs
  else if n.kindBegins "preproc" then resolveDirective source n
  else
    let members ← resolveAll source n.members
    return [.mk n members]
termination_by (n.height, 1)
decreasing_by
  · exact Prod.Lex.left _ _ n.heights_constructs
  · exact Prod.Lex.right _ (by decide)
  · exact Prod.Lex.left _ _ n.heights_members
/-- What is left of a directive: all of the branch that counts, the change of symbols, or the
declarations within it. -/
def resolveDirective (source : ByteArray) (n : Node) : Reading (List Resolved) := do
  match _h : selected? source (← get) n with
  | .error e => throw e
  | .ok none => return []
  | .ok (some b) =>
    match b.directiveRole with
    | .conditional =>
      resolveAll source
        (b.branchBody ((b.child? "condition").toList ++ (b.child? "alternative").toList))
    | .otherwise => resolveAll source (b.branchBody [])
    | .definition => do
      modify (·.update (b.text source))
      return []
    | .transparent => do
      let found ← resolveAll source b.constructs
      return found.filter Resolved.isDeclaration
termination_by (n.height, 0)
decreasing_by
  · exact Prod.Lex.left _ _ (Nat.lt_of_lt_of_le (b.heights_branchBody _) (height_selected? ‹_›))
  · exact Prod.Lex.left _ _ (Nat.lt_of_lt_of_le (b.heights_branchBody _) (height_selected? ‹_›))
  · exact Prod.Lex.left _ _ (Nat.lt_of_lt_of_le b.heights_constructs (height_selected? ‹_›))
end

-- ---------------------------------------------------------------------------
-- Declarations of what is left
-- ---------------------------------------------------------------------------

mutual
def declareOne (source : ByteArray) : Resolved → Declaration
  | .mk n members =>
    if n.isScope then
      .scope ((n.name? source).getD "") (n.kind == "file_scoped_namespace_declaration") n.line
        (declareAll source members)
    else match n.typeKind? with
      | some kind => .type kind (n.header source) (declareAll source members)
      | none =>
        if n.kind == "method_declaration" then .method (n.header source)
        else .other n.kind n.line
def declareAll (source : ByteArray) : List Resolved → List Declaration
  | [] => []
  | r :: rest => declareOne source r :: declareAll source rest
end

theorem declareAll_eq_map (source : ByteArray) (forest : List Resolved) :
    declareAll source forest = forest.map (declareOne source) := by
  induction forest with
  | nil => rfl
  | cons r rest ih => rw [declareAll, ih, List.map_cons]

theorem declareAll_append (source : ByteArray) (a b : List Resolved) :
    declareAll source (a ++ b) = declareAll source a ++ declareAll source b := by
  simp only [declareAll_eq_map, List.map_append]

theorem declareOne_cases (source : ByteArray) (n : Node) (members : List Resolved) :
    (n.isScope = true ∧ declareOne source (.mk n members) = .scope ((n.name? source).getD "")
      (n.kind == "file_scoped_namespace_declaration") n.line (declareAll source members)) ∨
    (n.isScope = false ∧ ∃ kind, n.typeKind? = some kind ∧ declareOne source (.mk n members) =
      .type kind (n.header source) (declareAll source members)) ∨
    (n.isScope = false ∧ n.typeKind? = none ∧ n.kind = "method_declaration" ∧
      declareOne source (.mk n members) = .method (n.header source)) ∨
    (n.isScope = false ∧ n.typeKind? = none ∧ n.kind ≠ "method_declaration" ∧
      declareOne source (.mk n members) = .other n.kind n.line) := by
  rw [declareOne]
  cases hs : n.isScope with
  | true => exact .inl ⟨rfl, rfl⟩
  | false =>
    cases hk : n.typeKind? with
    | some kind => exact .inr (.inl ⟨rfl, kind, rfl, rfl⟩)
    | none =>
      by_cases hm : n.kind = "method_declaration"
      · exact .inr (.inr (.inl ⟨rfl, rfl, hm, by simp [hm]⟩))
      · exact .inr (.inr (.inr ⟨rfl, rfl, hm, by simp [hm]⟩))

theorem isOther_declareOne (source : ByteArray) (r : Resolved) :
    (declareOne source r).isOther = !r.isDeclaration := by
  cases r with
  | mk n members =>
    rw [Resolved.isDeclaration, Resolved.node]
    rcases declareOne_cases source n members with
      ⟨hs, hd⟩ | ⟨hs, kind, hk, hd⟩ | ⟨hs, hk, hm, hd⟩ | ⟨hs, hk, hm, hd⟩
    · rw [hd]; simp [hs, Declaration.isOther]
    · rw [hd]; simp [hk, Declaration.isOther]
    · rw [hd]; simp [hm, Declaration.isOther]
    · rw [hd]; simp [hs, hk, hm, Declaration.isOther]

theorem filter_declareAll (source : ByteArray) (forest : List Resolved) :
    (declareAll source forest).filter (!·.isOther) =
      declareAll source (forest.filter Resolved.isDeclaration) := by
  rw [declareAll_eq_map, declareAll_eq_map, List.filter_map]
  congr 2
  funext r
  simp [isOther_declareOne]

-- ---------------------------------------------------------------------------
-- One step of reading
-- ---------------------------------------------------------------------------

theorem kind_of_declares {n : Node} (h : (n.isScope || n.typeKind?.isSome) = true) :
    n.kind ≠ "comment" ∧ n.kind ≠ "ERROR" ∧ n.kindBegins "preproc" = false ∧
      n.kind ≠ "attribute" := by
  have hkind : n.kind = "namespace_declaration" ∨ n.kind = "file_scoped_namespace_declaration" ∨
      n.kind = "class_declaration" ∨ n.kind = "struct_declaration" ∨
      n.kind = "interface_declaration" ∨ n.kind = "record_declaration" := by
    unfold Node.isScope Node.typeKind? at h
    split at h <;> simp_all
  unfold Node.kindBegins
  rcases hkind with hk | hk | hk | hk | hk | hk <;> rw [hk] <;> decide

theorem readOne_scope {n : Node} (h : n.isScope = true) :
    readOne source (depth + 1) n = do
      let members ← readAll source depth n.scopeMembers
      return [.scope ((n.name? source).getD "") (n.kind == "file_scoped_namespace_declaration")
        n.line members] := by
  obtain ⟨hc, he, hp, -⟩ := kind_of_declares (n := n) (by simp [h])
  rw [readOne]
  simp [hc, he, hp, h]

theorem readOne_type {n : Node} (hs : n.isScope = false) (hk : n.typeKind? = some kind) :
    readOne source (depth + 1) n = do
      let members ← readAll source depth n.typeMembers
      return [.type kind (n.header source) members] := by
  obtain ⟨hc, he, hp, -⟩ := kind_of_declares (n := n) (by simp [hk])
  rw [readOne]
  simp [hc, he, hp, hs, hk]

theorem readOne_broken {n : Node} (h : n.kind = "ERROR") :
    readOne source (depth + 1) n = readAll source depth n.constructs := by
  rw [readOne]
  simp [h]

theorem readOne_directive {n : Node} (h : n.kindBegins "preproc" = true) :
    readOne source (depth + 1) n = readDirective source depth n := by
  have hne : ∀ kind : String, "preproc".toList.isPrefixOf kind.toList = false → n.kind ≠ kind := by
    rintro kind hkind rfl
    rw [Node.kindBegins, hkind] at h
    cases h
  have hc : n.kind ≠ "comment" := hne _ (by decide)
  have he : n.kind ≠ "ERROR" := hne _ (by decide)
  rw [readOne]
  simp [hc, he, h]

theorem readDirective_conditional (hn : n.directiveRole = .conditional) :
    (readDirective source (depth + 1) n).run s = match verdict source s n with
      | .error e => .error e
      | .ok true => (readAll source depth
          (n.branchBody ((n.child? "condition").toList ++ (n.child? "alternative").toList))).run s
      | .ok false =>
        match n.nextBranch? with
        | some next => (readDirective source depth next).run s
        | none => .ok ([], s) := by
  rw [readDirective, hn, verdict]
  simp only
  cases hc : n.child? "condition" with
  | none => rfl
  | some condition =>
    simp only [test, StateT.run_bind, StateT.run_get, pure_bind]
    cases Condition.evalText (condition.text source) s with
    | error fault => rfl
    | ok value =>
      cases value with
      | true => rfl
      | false => cases n.nextBranch? <;> rfl

theorem readDirective_transparent {n : Node} (h : n.directiveRole = .transparent) :
    readDirective source (depth + 1) n = do
      let found ← readAll source depth n.constructs
      return found.filter (!·.isOther) := by
  rw [readDirective, h]

-- ---------------------------------------------------------------------------
-- Reading follows resolving
-- ---------------------------------------------------------------------------

/-- Reading ends as resolving does, or runs out of depth, which needs a reason. -/
def Follows (reason : Prop) (f : β → α) (x : Except ParseError α) (y : Except ParseError β) :
    Prop :=
  x = .error .tooDeep ∧ reason ∨ x = y.map f

theorem Follows.mono (h : Follows reason f x y) (hr : reason → weaker) : Follows weaker f x y :=
  h.imp_left fun h => ⟨h.1, hr h.2⟩

theorem Follows.bind (h : Follows reason f x y)
    (hk : ∀ b, Follows reason g (k (f b)) (l b)) : Follows reason g (x >>= k) (y >>= l) := by
  rcases h with ⟨rfl, hr⟩ | rfl
  · exact .inl ⟨rfl, hr⟩
  · cases y with
    | error e => exact .inr rfl
    | ok b => exact hk b

/-- What reading makes of what resolving leaves: its declarations, and the same symbols. -/
def declared (source : ByteArray) (left : List Resolved × Symbols) : List Declaration × Symbols :=
  (declareAll source left.1, left.2)

theorem resolveDirective_run (source : ByteArray) (n : Node) (s : Symbols) :
    (resolveDirective source n).run s = match selected? source s n with
      | .error e => .error e
      | .ok none => .ok ([], s)
      | .ok (some b) =>
        match b.directiveRole with
        | .conditional =>
          (resolveAll source
            (b.branchBody ((b.child? "condition").toList ++ (b.child? "alternative").toList))).run s
        | .otherwise => (resolveAll source (b.branchBody [])).run s
        | .definition => .ok ([], s.update (b.text source))
        | .transparent =>
          ((resolveAll source b.constructs).run s).map fun left =>
            (left.1.filter Resolved.isDeclaration, left.2) := by
  rw [resolveDirective]
  simp only [StateT.run_bind, StateT.run_get, pure_bind]
  split
  · rename_i e h; rw [h]; rfl
  · rename_i h; rw [h]; rfl
  · rename_i b h
    rw [h]
    dsimp only
    cases b.directiveRole with
    | conditional | otherwise | definition => rfl
    | transparent =>
      simp only [StateT.run_bind]
      cases (resolveAll source b.constructs).run s <;> rfl

theorem selected?_next (hn : n.directiveRole = .conditional)
    (hv : verdict source s n = .ok false) (hb : n.nextBranch? = some next) :
    selected? source s n = selected? source s next := by
  rw [selected?, hn, hv]
  simp only
  split
  · rename_i h; rw [hb] at h; cases h
  · rename_i m h; rw [hb] at h; cases h; rfl

section
variable (source : ByteArray) (depth : Nat)

/-- The three parts of reading, each with the height that exhausts the depth. -/
def AllFollows : Prop := ∀ nodes s, Follows (depth ≤ 3 * heights nodes) (declared source)
  ((readAll source depth nodes).run s) ((resolveAll source nodes).run s)

def OneFollows : Prop := ∀ n s, Follows (depth < 3 * n.height) (declared source)
  ((readOne source depth n).run s) ((resolveOne source n).run s)

def DirectiveFollows : Prop := ∀ n s, Follows (depth + 1 < 3 * n.height) (declared source)
  ((readDirective source depth n).run s) ((resolveDirective source n).run s)

variable {source depth}

theorem OneFollows.all (h : OneFollows source depth) : AllFollows source (depth + 1) := by
  intro nodes
  rw [readAll]
  induction nodes with
  | nil => intro s; exact .inr (by rw [resolveAll]; rfl)
  | cons n rest ih =>
    intro s
    have hn : 3 * n.height ≤ 3 * heights (n :: rest) := by simp only [heights]; omega
    have hrest : 3 * heights rest ≤ 3 * heights (n :: rest) := by simp only [heights]; omega
    rw [concat, resolveAll]
    simp only [StateT.run_bind]
    refine Follows.bind ((h n s).mono fun hd => by omega) ?_
    rintro ⟨here, s'⟩
    refine Follows.bind ((ih s').mono fun hd => by omega) ?_
    rintro ⟨more, s''⟩
    have happend := declareAll_append source here more
    exact .inr (congrArg (fun ds => Except.ok (ds, s'')) happend.symm)

theorem AllFollows.plain (ha : AllFollows source depth)
    (hc : ¬ (n.kind == "comment") = true) (he : ¬ (n.kind == "ERROR") = true)
    (hp : ¬ n.kindBegins "preproc" = true) :
    Follows (depth + 1 < 3 * n.height) (declared source)
      ((readOne source (depth + 1) n).run s) ((resolveOne source n).run s) := by
  have hheight := n.heights_members
  have hm : Follows (depth + 1 < 3 * n.height) (declared source) _ _ :=
    (ha n.members s).mono fun h => by omega
  rw [resolveOne, if_neg hc, if_neg he, if_neg hp]
  cases hs : n.isScope with
  | true =>
    have hmembers : n.members = n.scopeMembers := by simp [Node.members, hs]
    rw [hmembers] at hm
    rw [readOne_scope hs, hmembers]
    refine Follows.bind hm ?_
    rintro ⟨members, s'⟩
    have hd : declareOne source (.mk n members) = .scope ((n.name? source).getD "")
        (n.kind == "file_scoped_namespace_declaration") n.line (declareAll source members) := by
      simp [declareOne, hs]
    exact .inr (congrArg (fun d => Except.ok ([d], s')) hd.symm)
  | false =>
    cases hk : n.typeKind? with
    | some kind =>
      have hmembers : n.members = n.typeMembers := by simp [Node.members, hs, hk]
      rw [hmembers] at hm
      rw [readOne_type hs hk, hmembers]
      refine Follows.bind hm ?_
      rintro ⟨members, s'⟩
      have hd : declareOne source (.mk n members) =
          .type kind (n.header source) (declareAll source members) := by
        simp [declareOne, hs, hk]
      exact .inr (congrArg (fun d => Except.ok ([d], s')) hd.symm)
    | none =>
      have hmembers : n.members = [] := by simp [Node.members, hs, hk]
      have hd : declareOne source (.mk n []) = if n.kind == "method_declaration"
          then .method (n.header source) else .other n.kind n.line := by
        simp [declareOne, hs, hk]
      rw [readOne, if_neg hc, if_neg he, if_neg hp, if_neg (by simp [hs]), hk, hmembers, resolveAll]
      refine .inr (Eq.trans ?_ (congrArg (fun d => Except.ok ([d], s)) hd.symm))
      dsimp only
      split <;> rfl

theorem AllFollows.one (ha : AllFollows source depth) (hd : DirectiveFollows source depth) :
    OneFollows source (depth + 1) := by
  intro n s
  by_cases hc : (n.kind == "comment") = true
  · rw [readOne, resolveOne, if_pos hc, if_pos hc]
    exact .inr rfl
  by_cases he : (n.kind == "ERROR") = true
  · have := n.heights_constructs
    rw [readOne_broken (by simpa using he), resolveOne, if_neg hc, if_pos he]
    exact (ha n.constructs s).mono fun h => by omega
  by_cases hp : n.kindBegins "preproc" = true
  · rw [readOne_directive hp, resolveOne, if_neg hc, if_neg he, if_pos hp]
    exact hd n s
  exact ha.plain hc he hp

theorem AllFollows.directive (ha : AllFollows source depth) (hd : DirectiveFollows source depth) :
    DirectiveFollows source (depth + 1) := by
  intro n s
  cases hn : n.directiveRole with
  | conditional =>
    rw [readDirective_conditional hn]
    cases hv : verdict source s n with
    | error e =>
      have hsel : selected? source s n = .error e := by rw [selected?, hn, hv]
      rw [resolveDirective_run, hsel]
      exact .inr rfl
    | ok value =>
      cases value with
      | true =>
        have hsel : selected? source s n = .ok (some n) := by rw [selected?, hn, hv]
        have := n.heights_branchBody
          ((n.child? "condition").toList ++ (n.child? "alternative").toList)
        rw [resolveDirective_run, hsel]
        simp only [hn]
        exact (ha _ s).mono fun h => by omega
      | false =>
        cases hb : n.nextBranch? with
        | none =>
          have hsel : selected? source s n = .ok none := by
            rw [selected?, hn, hv]
            simp only
            split
            · rfl
            · rename_i h; rw [hb] at h; cases h
          rw [resolveDirective_run, hsel]
          exact .inr rfl
        | some next =>
          have := Node.height_nextBranch? hb
          rw [resolveDirective_run, selected?_next hn hv hb, ← resolveDirective_run]
          exact (hd next s).mono fun h => by omega
  | otherwise =>
    have hsel : selected? source s n = .ok (some n) := by rw [selected?, hn]
    have := n.heights_branchBody []
    rw [resolveDirective_run, hsel, readDirective]
    simp only [hn]
    exact (ha _ s).mono fun h => by omega
  | definition =>
    have hsel : selected? source s n = .ok (some n) := by rw [selected?, hn]
    rw [resolveDirective_run, hsel, readDirective]
    simp only [hn]
    exact .inr rfl
  | transparent =>
    have hsel : selected? source s n = .ok (some n) := by rw [selected?, hn]
    have := n.heights_constructs
    rw [resolveDirective_run, hsel, readDirective_transparent hn]
    simp only [hn]
    have hm : Follows (depth + 1 + 1 < 3 * n.height) (declared source) _ _ :=
      (ha n.constructs s).mono fun h => by omega
    rcases hm with ⟨hx, hr⟩ | hx
    · refine .inl ⟨?_, hr⟩
      rw [StateT.run_bind, hx]
      rfl
    · refine .inr ?_
      rw [StateT.run_bind, hx]
      cases (resolveAll source n.constructs).run s with
      | error e => rfl
      | ok left =>
        exact congrArg (fun ds => Except.ok (ds, left.2)) (filter_declareAll source left.1)

end

theorem reading_follows (source : ByteArray) (depth : Nat) :
    AllFollows source depth ∧ OneFollows source depth ∧ DirectiveFollows source depth := by
  induction depth with
  | zero =>
    refine ⟨fun nodes s => .inl ⟨rfl, Nat.zero_le _⟩, fun n s => .inl ⟨rfl, ?_⟩,
      fun n s => .inl ⟨rfl, ?_⟩⟩ <;> have := n.height_pos <;> omega
  | succ depth ih =>
    obtain ⟨ha, ho, hd⟩ := ih
    exact ⟨ho.all, ha.one hd, ha.directive hd⟩

-- ---------------------------------------------------------------------------
-- No directives are left
-- ---------------------------------------------------------------------------

theorem ok_bind_iff {x : Except ε α} {k : α → Except ε β} :
    x >>= k = .ok b ↔ ∃ a, x = .ok a ∧ k a = .ok b := by
  cases x <;> simp [bind, Except.bind]

def isDirective (n : Node) : Bool :=
  n.kind == "comment" || n.kind == "ERROR" || n.kindBegins "preproc"

section
variable {source : ByteArray} {Q : Resolved → Prop}

def Leaves (Q : Resolved → Prop) (x : Reading (List Resolved)) : Prop :=
  ∀ s forest s', x.run s = .ok (forest, s') → ∀ r ∈ forest, Q r

theorem Leaves.directive
    (h : ∀ nodes, heights nodes < n.height → Leaves Q (resolveAll source nodes)) :
    Leaves Q (resolveDirective source n) := by
  intro s forest s' hrun r hr
  rw [resolveDirective_run] at hrun
  cases hsel : selected? source s n with
  | error e => rw [hsel] at hrun; cases hrun
  | ok branch =>
    rw [hsel] at hrun
    cases branch with
    | none => cases hrun; simp at hr
    | some b =>
      have hb : b.height ≤ n.height := height_selected? hsel
      dsimp only at hrun
      split at hrun
      · exact h _ (Nat.lt_of_lt_of_le (b.heights_branchBody _) hb) s forest s' hrun r hr
      · exact h _ (Nat.lt_of_lt_of_le (b.heights_branchBody _) hb) s forest s' hrun r hr
      · cases hrun; simp at hr
      · cases hc : (resolveAll source b.constructs).run s with
        | error e => rw [hc] at hrun; cases hrun
        | ok left =>
          rw [hc] at hrun
          cases hrun
          have hmem := (List.mem_filter.mp hr).1
          exact h _ (Nat.lt_of_lt_of_le b.heights_constructs hb) s _ _ hc r hmem

/-- `Q` passes from what a node that is no directive has left within it to the node. -/
def Hereditary (Q : Resolved → Prop) : Prop :=
  ∀ n members, isDirective n = false → (n.members = [] → members = []) → (∀ r ∈ members, Q r) →
    Q (.mk n members)

theorem Leaves.one (hQ : Hereditary Q)
    (h : ∀ nodes, heights nodes < n.height → Leaves Q (resolveAll source nodes)) :
    Leaves Q (resolveOne source n) := by
  intro s forest s' hrun r hr
  rw [resolveOne] at hrun
  split at hrun
  · cases hrun; simp at hr
  split at hrun
  · exact h _ n.heights_constructs s forest s' hrun r hr
  split at hrun
  · exact Leaves.directive h s forest s' hrun r hr
  · rename_i hc he hp
    simp only [StateT.run_bind, ok_bind_iff] at hrun
    obtain ⟨⟨members, s''⟩, hm, hrun⟩ := hrun
    cases hrun
    obtain rfl := List.mem_singleton.mp hr
    refine hQ n members (by simp [isDirective, hc, he, hp]) (fun hnone => ?_)
      (h _ n.heights_members s _ _ hm)
    rw [hnone, resolveAll] at hm
    cases hm
    rfl

/-- What passes from the members of a node to the node holds of all that is left of a tree. -/
theorem resolve_induction (hQ : Hereditary Q) : ∀ nodes, Leaves Q (resolveAll source nodes) := by
  have bounded : ∀ k nodes, heights nodes < k → Leaves Q (resolveAll source nodes) := by
    intro k
    induction k with
    | zero => intro nodes hk; omega
    | succ k ih =>
      intro nodes
      induction nodes with
      | nil =>
        intro _ s forest s' hrun r hr
        rw [resolveAll] at hrun
        cases hrun
        simp at hr
      | cons n rest ihRest =>
        intro hk s forest s' hrun r hr
        simp only [heights] at hk
        rw [resolveAll] at hrun
        simp only [StateT.run_bind, ok_bind_iff] at hrun
        obtain ⟨⟨here, s₁⟩, hn, ⟨more, s₂⟩, hrest, hrun⟩ := hrun
        cases hrun
        rcases List.mem_append.mp hr with hr | hr
        · refine Leaves.one hQ (fun nodes hlt => ih nodes ?_) s here s₁ hn r hr
          omega
        · exact ihRest (by omega) s₁ more s₂ hrest r hr
  exact fun nodes => bounded _ nodes (Nat.lt_succ_self _)

end

theorem resolved_not_directive (h : (resolveAll source nodes).run s = .ok (forest, s')) :
    ∀ r ∈ Resolved.preorderAll forest, isDirective r.node = false := by
  have hQ : Hereditary fun r => ∀ x ∈ r.preorder, isDirective x.node = false := by
    intro n members hn _ hm x hx
    rw [Resolved.preorder, Resolved.preorderAll_eq_flatMap] at hx
    rcases List.mem_cons.mp hx with rfl | hx
    · exact hn
    · obtain ⟨r, hr, hx⟩ := List.mem_flatMap.mp hx
      exact hm r hr x hx
  intro x hx
  rw [Resolved.preorderAll_eq_flatMap] at hx
  obtain ⟨r, hr, hx⟩ := List.mem_flatMap.mp hx
  exact resolve_induction hQ nodes s forest s' h r hr x hx

-- ---------------------------------------------------------------------------
-- Running out of depth
-- ---------------------------------------------------------------------------

def aboutCondition : ParseError → Bool
  | .missingCondition _ | .badCondition .. => true
  | _ => false

def FailsOnConditions (x : Except ParseError α) : Prop :=
  ∀ e, x = .error e → aboutCondition e = true

section
variable {source : ByteArray}

theorem FailsOnConditions.of_ok (a : α) : FailsOnConditions (.ok a) := nofun

theorem FailsOnConditions.bind {x : Except ParseError α} {k : α → Except ParseError β}
    (hx : FailsOnConditions x) (hk : ∀ a, FailsOnConditions (k a)) :
    FailsOnConditions (x >>= k) := by
  cases x with
  | error e => exact fun e' h => hx e' (congrArg Except.error (Except.error.inj h))
  | ok a => exact hk a

theorem selected?_failsOnConditions (source : ByteArray) (s : Symbols) (n : Node) :
    FailsOnConditions (selected? source s n) := by
  fun_induction selected? source s n with
  | case1 n _ e hv =>
    intro e' he
    obtain rfl := Except.error.inj he
    unfold verdict at hv
    split at hv
    · cases hv; rfl
    · split at hv <;> cases hv
      rfl
  | case4 _ _ _ _ _ ih => exact ih
  | case2 | case3 | case5 => exact .of_ok _

theorem resolveDirective_failsOnConditions
    (h : ∀ nodes, heights nodes < n.height →
      ∀ s, FailsOnConditions ((resolveAll source nodes).run s))
    (s : Symbols) : FailsOnConditions ((resolveDirective source n).run s) := by
  rw [resolveDirective_run]
  cases hsel : selected? source s n with
  | error e =>
    intro e' he
    obtain rfl := Except.error.inj he
    exact selected?_failsOnConditions source s n e hsel
  | ok branch =>
    cases branch with
    | none => exact .of_ok _
    | some b =>
      have hb : b.height ≤ n.height := height_selected? hsel
      dsimp only
      split
      · exact h _ (Nat.lt_of_lt_of_le (b.heights_branchBody _) hb) s
      · exact h _ (Nat.lt_of_lt_of_le (b.heights_branchBody _) hb) s
      · exact .of_ok _
      · have hc := h _ (Nat.lt_of_lt_of_le b.heights_constructs hb) s
        cases hrun : (resolveAll source b.constructs).run s with
        | error e =>
          exact fun e' he => hc e' (hrun.trans (congrArg Except.error (Except.error.inj he)))
        | ok left => exact .of_ok _

theorem resolveOne_failsOnConditions
    (h : ∀ nodes, heights nodes < n.height →
      ∀ s, FailsOnConditions ((resolveAll source nodes).run s))
    (s : Symbols) : FailsOnConditions ((resolveOne source n).run s) := by
  rw [resolveOne]
  split
  · exact .of_ok _
  split
  · exact h _ n.heights_constructs s
  split
  · exact resolveDirective_failsOnConditions h s
  · rw [StateT.run_bind]
    exact (h _ n.heights_members s).bind fun _ => .of_ok _

/-- Resolving fails only on the condition of a directive. It never runs out of depth. -/
theorem resolveAll_failsOnConditions (nodes : List Node) (s : Symbols) :
    FailsOnConditions ((resolveAll source nodes).run s) := by
  have bounded : ∀ k nodes, heights nodes < k →
      ∀ s, FailsOnConditions ((resolveAll source nodes).run s) := by
    intro k
    induction k with
    | zero => intro nodes hk; omega
    | succ k ih =>
      intro nodes
      induction nodes with
      | nil => intro _ s; rw [resolveAll]; exact .of_ok _
      | cons n rest ihRest =>
        intro hk s
        simp only [heights] at hk
        rw [resolveAll, StateT.run_bind]
        have hone : ∀ s, FailsOnConditions ((resolveOne source n).run s) :=
          resolveOne_failsOnConditions fun nodes hlt => ih nodes (by omega)
        refine (hone s).bind fun here => ?_
        rw [StateT.run_bind]
        exact (ihRest (by omega) here.2).bind fun _ => .of_ok _
  exact bounded _ nodes (Nat.lt_succ_self _) s

theorem readAll_error (h : (readAll source depth nodes).run s = .error e) :
    e = .tooDeep ∨ aboutCondition e = true := by
  rcases (reading_follows source depth).1 nodes s with ⟨hdeep, -⟩ | hread
  · rw [h] at hdeep
    exact .inl (Except.error.inj hdeep)
  · rw [h] at hread
    cases hresolve : (resolveAll source nodes).run s with
    | error e' =>
      rw [hresolve] at hread
      obtain rfl := Except.error.inj hread
      exact .inr (resolveAll_failsOnConditions nodes s e hresolve)
    | ok left => rw [hresolve] at hread; cases hread

theorem height_of_tooDeep (h : (readAll source depth nodes).run s = .error .tooDeep) :
    depth ≤ 3 * heights nodes := by
  rcases (reading_follows source depth).1 nodes s with ⟨-, hdepth⟩ | hread
  · exact hdepth
  · rw [h] at hread
    cases hresolve : (resolveAll source nodes).run s with
    | error e =>
      rw [hresolve] at hread
      obtain rfl := Except.error.inj hread
      exact absurd (resolveAll_failsOnConditions nodes s _ hresolve) Bool.false_ne_true
    | ok left => rw [hresolve] at hread; cases hread

end

-- ---------------------------------------------------------------------------
-- Reading and resolving
-- ---------------------------------------------------------------------------

/-- Reading some nodes from any symbols gives the declarations of what resolving leaves of them,
the same symbols, or the same error, and nothing that resolving leaves is a directive. The one
other outcome is running out of depth, in a tree that is not far below the limit in height. -/
theorem reading_resolved (source : ByteArray) (depth : Nat) (nodes : List Node) (s : Symbols) :
    ((readAll source depth nodes).run s =
        ((resolveAll source nodes).run s).map (fun left => (declareAll source left.1, left.2)) ∨
      (readAll source depth nodes).run s = .error .tooDeep ∧ depth ≤ 3 * heights nodes) ∧
    ∀ forest s', (resolveAll source nodes).run s = .ok (forest, s') →
      ∀ r ∈ Resolved.preorderAll forest, isDirective r.node = false :=
  ⟨((reading_follows source depth).1 nodes s).symm, fun _ _ => resolved_not_directive⟩

/-- A last branch that belongs to no condition, with a field in it. -/
def strayOtherwise : Node :=
  .mk "preproc_else" 0 0 0 none true false [.mk "field_declaration" 0 0 0 none true false []]

/-- A false condition with a region, which is no branch, in the place of its alternative. -/
def regionAlternative : Node :=
  .mk "preproc_if" 0 2 0 none true false [
    .mk "identifier" 0 2 0 (some "condition") true false [],
    .mk "preproc_region" 2 2 0 (some "alternative") true false [
      .mk "method_declaration" 2 2 0 none true false []]]

theorem verdict_regionAlternative :
    verdict "no".toUTF8 [] regionAlternative = .ok false := by
  have htext : Node.text (.mk "identifier" 0 2 0 (some "condition") true false [])
      "no".toUTF8 = "no" := by decide +kernel
  have heval : Condition.evalText "no" [] = .ok false := by cbv
  have hcondition : regionAlternative.child? "condition" =
      some (.mk "identifier" 0 2 0 (some "condition") true false []) := by rfl
  rw [verdict, hcondition]
  simp only [htext, heval]

def nestedRegions : Nat → Node
  | 0 => .mk "ERROR" 0 0 0 none true false []
  | k + 1 => .mk "ERROR" 0 0 0 none true false [nestedRegions k]

theorem kind_nestedRegions (k : Nat) : (nestedRegions k).kind = "ERROR" := by
  cases k <;> rfl

theorem constructs_nestedRegions (k : Nat) :
    (nestedRegions (k + 1)).constructs = [nestedRegions k] := by
  cases k <;> rfl

theorem resolveAll_nestedRegions (k : Nat) (s : Symbols) :
    (resolveAll source [nestedRegions k]).run s = .ok ([], s) := by
  have hone (k : Nat) : (resolveAll source [nestedRegions k]).run s =
      (resolveAll source (nestedRegions k).constructs).run s >>= fun left =>
        .ok (left.1 ++ [], left.2) := by
    rw [resolveAll, resolveOne, kind_nestedRegions, StateT.run_bind]
    simp only [resolveAll]
    rfl
  induction k with
  | zero =>
    have hnone : (nestedRegions 0).constructs = [] := rfl
    rw [hone, hnone, resolveAll]
    rfl
  | succ k ih =>
    rw [hone, constructs_nestedRegions, ih]
    rfl

theorem readAll_nestedRegions (k depth : Nat) (s : Symbols) (h : depth ≤ 2 * k) :
    (readAll source depth [nestedRegions k]).run s = .error .tooDeep := by
  induction k generalizing depth with
  | zero =>
    obtain rfl : depth = 0 := by omega
    rfl
  | succ k ih =>
    match depth with
    | 0 | 1 => rfl
    | depth + 2 =>
      rw [readAll, concat, StateT.run_bind, readOne_broken (kind_nestedRegions _),
        constructs_nestedRegions, ih depth (by omega)]
      rfl

/-- Not every directive besides conditions and definitions gives only the namespaces, types and
methods within it: the first node gives a field. Nor does a condition whose branches are all
false always give nothing: the second gives a method. And reading has a limit that resolving does
not know. -/
theorem reading_exceptions :
    (readAll ByteArray.empty depthLimit [strayOtherwise]).run [] ≠
      ((readAll ByteArray.empty depthLimit strayOtherwise.constructs).run []).map
        (fun found => (found.1.filter (!·.isOther), found.2)) ∧
    verdict "no".toUTF8 [] regionAlternative = .ok false ∧
    (regionAlternative.nextBranch?.map (·.isBranch)) = some false ∧
    (readAll "no".toUTF8 depthLimit [regionAlternative]).run [] ≠ .ok ([], []) ∧
    (resolveAll ByteArray.empty [nestedRegions depthLimit]).run [] = .ok ([], []) ∧
    (readAll ByteArray.empty depthLimit [nestedRegions depthLimit]).run [] =
      .error .tooDeep := by
  have hstray : (readAll ByteArray.empty depthLimit [strayOtherwise]).run [] =
      .ok ([.other "field_declaration" 1], []) := by rfl
  have hwithin : (readAll ByteArray.empty depthLimit strayOtherwise.constructs).run [] =
      .ok ([.other "field_declaration" 1], []) := by rfl
  refine ⟨?_, verdict_regionAlternative, by decide, ?_, resolveAll_nestedRegions _ _,
    readAll_nestedRegions _ _ _ (by omega)⟩
  · rw [hstray, hwithin]
    nofun
  · have hdirective : (readDirective "no".toUTF8 998 regionAlternative).run [] =
        .ok ([.method ⟨none, [], [], 1⟩], []) := by
      rw [readDirective_conditional rfl, verdict_regionAlternative]
      rfl
    have hall : (readAll "no".toUTF8 depthLimit [regionAlternative]).run [] =
        (readDirective "no".toUTF8 998 regionAlternative).run [] >>= fun found =>
          .ok (found.1 ++ [], found.2) := by rfl
    rw [hall, hdirective]
    nofun

end Outline

end CategoryAudit
