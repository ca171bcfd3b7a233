import Mathlib.Data.List.Forall2
import CategoryAudit.Project
import CategoryAudit.Proofs.Resolve

/-!
# Inactive code

The branches of a conditional directive that do not count may hold anything. `Edited` changes them
at one directive that reading comes to, anywhere in a tree: of a true condition the insides of the
further branches, of a false one what stands before them. Such an edit changes neither what is read
nor any error (`inactive_unread`).
-/

namespace CategoryAudit

open Concrete (Node)

-- ---------------------------------------------------------------------------
-- Nodes without their children
-- ---------------------------------------------------------------------------

namespace Concrete.Node

def withChildren (n : Node) (children : List Node) : Node :=
  .mk n.kind n.start n.stop n.row n.field n.named n.missing children

section
variable (n : Node) (cs : List Node)

@[simp] theorem kind_withChildren : (n.withChildren cs).kind = n.kind := rfl
@[simp] theorem field_withChildren : (n.withChildren cs).field = n.field := rfl
@[simp] theorem named_withChildren : (n.withChildren cs).named = n.named := rfl
@[simp] theorem line_withChildren : (n.withChildren cs).line = n.line := rfl
@[simp] theorem children_withChildren : (n.withChildren cs).children = cs := rfl
@[simp] theorem isBranch_withChildren : (n.withChildren cs).isBranch = n.isBranch := rfl
@[simp] theorem text_withChildren (source : ByteArray) :
    (n.withChildren cs).text source = n.text source := rfl

end

/-- A node as the selection of branches sees it: by its kind, its place and its role. Only of a
condition the end matters. -/
structure Alike (c c' : Node) : Prop where
  kind : c'.kind = c.kind
  start : c'.start = c.start
  field : c'.field = c.field
  stop : c.field = some "condition" → c'.stop = c.stop

theorem Alike.refl (c : Node) : c.Alike c := ⟨rfl, rfl, rfl, fun _ => rfl⟩

theorem Alike.withChildren (c : Node) (cs : List Node) : c.Alike (c.withChildren cs) :=
  ⟨rfl, rfl, rfl, fun _ => rfl⟩

theorem Alike.isBranch {c c' : Node} (h : c.Alike c') : c'.isBranch = c.isBranch := by
  simp only [Node.isBranch, Node.kindBegins, h.kind]

theorem Alike.isAmong {c c' : Node} (h : c.Alike c') (excluded : List Node) :
    c'.isAmong excluded = c.isAmong excluded := by
  simp only [Node.isAmong, h.kind, h.start]

theorem isAmong_append (c : Node) (a b : List Node) :
    c.isAmong (a ++ b) = (c.isAmong a || c.isAmong b) := List.any_append

end Concrete.Node

namespace Outline

-- ---------------------------------------------------------------------------
-- Edits of inactive code
-- ---------------------------------------------------------------------------

/-- The children of a conditional directive after an edit of the branches that come after its
own: a further branch or the alternative may hold anything. -/
def Rewritten (n c c' : Node) : Prop :=
  c' = c ∨ (c.isBranch = true ∨ c.isAmong (n.child? "alternative").toList = true) ∧ c.Alike c'

/-- The children of a conditional directive after an edit of its own branch. Constructs go, except
further branches and the first child in each of `roles`; others come, except further branches and
children in one of the two roles. -/
inductive Refilled : List String → List Node → List Node → Prop
  | done : Refilled roles [] []
  | keep {c : Node} : Refilled (roles.filter fun role => c.field != some role) cs cs' →
      Refilled roles (c :: cs) (c :: cs')
  | drop {c : Node} : c.named = true → c.isBranch = false → (∀ role ∈ roles, c.field ≠ some role) →
      Refilled roles cs cs' → Refilled roles (c :: cs) cs'
  | add {c : Node} : c.field ≠ some "condition" → c.field ≠ some "alternative" →
      c.isBranch = false → Refilled roles cs cs' → Refilled roles cs (c :: cs')

def IsNext (n : Node) (pre : List Node) (c : Node) : Prop :=
  (c.field = some "alternative" ∧ ∀ m ∈ pre, m.field ≠ some "alternative") ∨
  (n.child? "alternative" = none ∧ (c.named && c.isBranch) = true ∧
    ∀ m ∈ pre, (m.named && m.isBranch) = false)

/-- The ways to read a node: for its constructs, as one of several nodes, as a directive. -/
inductive Way where
  | contents
  | item
  | directive
  deriving DecidableEq, Repr

def readAs (source : ByteArray) (depth : Nat) : Way → Node → Reading (List Declaration)
  | .contents, n => readAll source depth n.constructs
  | .item, n => readOne source depth n
  | .directive, n => readDirective source depth n

/-- Reading a node reads those of its children that satisfy `p`, one after the other. -/
inductive Visits (source : ByteArray) (s : Symbols) : Way → Node → (Node → Bool) → Prop
  | contents : Visits source s .contents n (·.named)
  | scope : n.isScope = true → n.child? "body" = none →
      Visits source s .item n fun c => (n.child? "name").all (c.start != ·.start) && c.named
  | taken : n.directiveRole = .conditional → verdict source s n = .ok true →
      Visits source s .directive n fun c =>
        !c.isAmong ((n.child? "condition").toList ++ (n.child? "alternative").toList) &&
          !c.isBranch && c.named
  | otherwise : n.directiveRole = .otherwise →
      Visits source s .directive n fun c => !c.isAmong [] && !c.isBranch && c.named

/-- One edit of inactive code, at a conditional directive that reading the node from the symbols
`s` comes to. The first two rules are the edit, the others lead to it. -/
inductive Edited (source : ByteArray) : Way → Symbols → Node → Node → Prop
  /-- The condition is true, and what further branches hold is replaced. -/
  | further : n.directiveRole = .conditional → verdict source s n = .ok true →
      List.Forall₂ (Rewritten n) n.children cs' →
      Edited source .directive s n (n.withChildren cs')
  /-- The condition is false, and what its own branch holds is replaced. -/
  | own : n.directiveRole = .conditional → verdict source s n = .ok false →
      Refilled ["condition", "alternative"] n.children cs' →
      Edited source .directive s n (n.withChildren cs')
  | next : n.directiveRole = .conditional → verdict source s n = .ok false →
      n.children = pre ++ c :: post → IsNext n pre c → Edited source .directive s c c' →
      Edited source .directive s n (n.withChildren (pre ++ c' :: post))
  /-- The symbols on coming to a child are those that the children before it leave. -/
  | child : Visits source s way n p → n.children = pre ++ c :: post → p c = true →
      (resolveAll source (pre.filter p)).run s = .ok (forest, t) → Edited source .item t c c' →
      Edited source way s n (n.withChildren (pre ++ c' :: post))
  | body : (n.isScope || n.typeKind?.isSome) = true → n.children = pre ++ b :: post →
      b.field = some "body" → (∀ m ∈ pre, m.field ≠ some "body") →
      Edited source .contents s b b' →
      Edited source .item s n (n.withChildren (pre ++ b' :: post))
  | broken : n.kind = "ERROR" → Edited source .contents s n n' → Edited source .item s n n'
  | directive : n.kindBegins "preproc" = true → Edited source .directive s n n' →
      Edited source .item s n n'
  | transparent : n.directiveRole = .transparent → Edited source .contents s n n' →
      Edited source .directive s n n'

theorem Edited.withChildren (h : Edited source way s n n') : ∃ cs, n' = n.withChildren cs := by
  induction h with
  | further | own | next | child | body => exact ⟨_, rfl⟩
  | broken _ _ ih | directive _ _ ih | transparent _ _ ih => exact ih

-- ---------------------------------------------------------------------------
-- The selection of branches
-- ---------------------------------------------------------------------------

theorem find?_forall₂ {R : α → α → Prop} (h : List.Forall₂ R as bs)
    (hp : ∀ a b, R a b → p b = p a) : Option.Rel R (as.find? p) (bs.find? p) := by
  induction h with
  | nil => exact .none
  | @cons a b _ _ hab _ ih =>
    rw [List.find?_cons, List.find?_cons, hp a b hab]
    cases p a with
    | true => exact .some hab
    | false => exact ih

section
variable {n : Node} (h : List.Forall₂ Node.Alike n.children cs)
include h

theorem child?_alike (role : String) :
    Option.Rel Node.Alike (n.child? role) ((n.withChildren cs).child? role) :=
  find?_forall₂ h fun _ _ hc => by rw [hc.field]

theorem verdict_alike : verdict source s (n.withChildren cs) = verdict source s n := by
  have hrel := child?_alike h "condition"
  unfold verdict
  generalize (n.withChildren cs).child? "condition" = o' at hrel ⊢
  generalize hc : n.child? "condition" = o at hrel ⊢
  cases hrel with
  | none => rfl
  | @some c c' hrel =>
    have hfield : c.field = some "condition" := by simpa using List.find?_some hc
    have htext : c'.text source = c.text source := by
      rw [Node.text, Node.text, hrel.start, hrel.stop hfield]
    simp only [htext, Node.line_withChildren]

theorem isAmong_alike (role : String) (c : Node) :
    c.isAmong ((n.withChildren cs).child? role).toList = c.isAmong (n.child? role).toList := by
  have hrel := child?_alike h role
  generalize (n.withChildren cs).child? role = o' at hrel ⊢
  generalize n.child? role = o at hrel ⊢
  cases hrel with
  | none => rfl
  | some hrel => simp [Node.isAmong, hrel.kind, hrel.start]

theorem inBranch_alike (c : Node) :
    c.isAmong (((n.withChildren cs).child? "condition").toList ++
        ((n.withChildren cs).child? "alternative").toList) =
      c.isAmong ((n.child? "condition").toList ++ (n.child? "alternative").toList) := by
  rw [Node.isAmong_append, Node.isAmong_append, isAmong_alike h, isAmong_alike h]

end

theorem alike_within (pre post : List Node) (c : Node) (cs : List Node) :
    List.Forall₂ Node.Alike (pre ++ c :: post) (pre ++ c.withChildren cs :: post) := by
  have hsame : ∀ nodes, List.Forall₂ Node.Alike nodes nodes :=
    fun nodes => List.forall₂_same.mpr fun c _ => .refl c
  exact List.rel_append (hsame pre) (.cons (.withChildren c cs) (hsame post))

theorem Rewritten.alike (h : Rewritten n c c') : c.Alike c' := by
  rcases h with rfl | ⟨-, h⟩
  · exact .refl _
  · exact h

theorem branchBody_rewritten {n : Node} (h : List.Forall₂ (Rewritten n) n.children cs) :
    (n.withChildren cs).branchBody (((n.withChildren cs).child? "condition").toList ++
        ((n.withChildren cs).child? "alternative").toList) =
      n.branchBody ((n.child? "condition").toList ++ (n.child? "alternative").toList) := by
  have halike := h.imp fun _ _ => Rewritten.alike
  simp only [Node.branchBody, inBranch_alike halike, Node.constructs, Node.children_withChildren,
    List.filter_filter]
  clear halike
  generalize n.children = children at h
  induction h with
  | nil => rfl
  | @cons c c' _ _ hc _ ih =>
    rw [List.filter_cons, List.filter_cons, ih]
    rcases hc with rfl | ⟨hout, halike⟩
    · rfl
    · have hc : (!c.isAmong ((n.child? "condition").toList ++ (n.child? "alternative").toList) &&
          !c.isBranch) = false := by
        rw [Node.isAmong_append]
        rcases hout with hout | hout <;> simp [hout]
      rw [halike.isAmong, halike.isBranch, hc]
      rfl

-- ---------------------------------------------------------------------------
-- The branch of a false condition
-- ---------------------------------------------------------------------------

theorem Refilled.child? (h : Refilled roles cs cs') (hroles : roles ⊆ ["condition", "alternative"])
    (hrole : role ∈ roles) :
    cs'.find? (·.field == some role) = cs.find? (·.field == some role) := by
  induction h with
  | done => rfl
  | @keep _ _ roles c _ ih =>
    rw [List.find?_cons, List.find?_cons]
    by_cases hc : c.field = some role
    · simp [hc]
    · have hkept : role ∈ roles.filter fun role => c.field != some role := by simp [hrole, hc]
      rw [ih (fun _ hx => hroles (List.mem_filter.mp hx).1) hkept]
  | @drop _ _ _ c _ _ hfield _ ih =>
    have hc : (c.field == some role) = false := by simpa using hfield role hrole
    rw [List.find?_cons, hc, ih hroles hrole]
  | @add _ _ _ c hcondition halternative _ _ ih =>
    have hc : (c.field == some role) = false := by
      rcases List.mem_pair.mp (hroles hrole) with rfl | rfl
      · simpa using hcondition
      · simpa using halternative
    rw [List.find?_cons, hc, ih hroles hrole]

theorem Refilled.branch (h : Refilled roles cs cs') :
    cs'.find? (fun c => c.named && c.isBranch) = cs.find? (fun c => c.named && c.isBranch) := by
  induction h with
  | done => rfl
  | keep _ ih => rw [List.find?_cons, List.find?_cons, ih]
  | drop _ hc _ _ ih => rw [List.find?_cons, hc, Bool.and_false, ih]
  | add _ _ hc _ ih => rw [List.find?_cons, hc, Bool.and_false, ih]

theorem nextBranch?_eq (n : Node) : n.nextBranch? = (n.child? "alternative").or
    (n.children.find? fun c => c.named && c.isBranch) := by
  rw [Node.nextBranch?, Node.constructs, List.find?_filter]
  simp

theorem verdict_child? {n n' : Node} (h : n'.child? "condition" = n.child? "condition")
    (hline : n'.line = n.line) : verdict source s n' = verdict source s n := by
  rw [verdict, verdict, h, hline]

theorem readDirective_own {n : Node} (hn : n.directiveRole = .conditional)
    (hv : verdict source s n = .ok false)
    (h : Refilled ["condition", "alternative"] n.children cs) (depth : Nat) :
    (readDirective source depth n).run s =
      (readDirective source depth (n.withChildren cs)).run s := by
  cases depth with
  | zero => rfl
  | succ depth =>
    have hcondition : (n.withChildren cs).child? "condition" = n.child? "condition" :=
      h.child? (List.Subset.refl _) (by simp)
    have halternative : (n.withChildren cs).child? "alternative" = n.child? "alternative" :=
      h.child? (List.Subset.refl _) (by simp)
    have hnext : (n.withChildren cs).nextBranch? = n.nextBranch? := by
      rw [nextBranch?_eq, nextBranch?_eq, halternative, Node.children_withChildren, h.branch]
    have hv' := (verdict_child? hcondition (n.line_withChildren cs)).trans hv
    rw [readDirective_conditional hn, readDirective_conditional (n := n.withChildren cs) hn, hv,
      hv', hnext]

theorem find?_first (hpre : ∀ m ∈ pre, p m = false) (hc : p c = true) :
    (pre ++ c :: post).find? p = some c := by
  have hnone : pre.find? p = none := List.find?_eq_none.mpr fun m hm => by simp [hpre m hm]
  rw [List.find?_append, hnone, List.find?_cons, hc]
  rfl

theorem nextBranch?_within {n : Node} (hchildren : n.children = pre ++ c :: post)
    (h : IsNext n pre c) (cs : List Node) :
    n.nextBranch? = some c ∧ (n.withChildren
      (pre ++ c.withChildren cs :: post)).nextBranch? = some (c.withChildren cs) := by
  rw [nextBranch?_eq, nextBranch?_eq, Node.child?, Node.child?, Node.children_withChildren,
    hchildren]
  rcases h with ⟨hc, hpre⟩ | ⟨hnone, hc, hpre⟩
  · have hpre' : ∀ m ∈ pre, (m.field == some "alternative") = false :=
      fun m hm => by simpa using hpre m hm
    rw [find?_first hpre' (by simpa using hc), find?_first hpre' (by simpa using hc)]
    exact ⟨rfl, rfl⟩
  · rw [find?_first hpre hc, find?_first hpre (by simpa using hc)]
    rw [Node.child?, hchildren, List.find?_eq_none] at hnone
    have hnone' : ∀ m ∈ pre ++ c.withChildren cs :: post,
        ¬ (m.field == some "alternative") = true := by
      intro m hm
      rcases List.mem_append.mp hm with hm | hm
      · exact hnone m (by simp [hm])
      · rcases List.mem_cons.mp hm with rfl | hm
        · exact hnone c (by simp)
        · exact hnone m (by simp [hm])
    rw [List.find?_eq_none.mpr hnone, List.find?_eq_none.mpr hnone']
    exact ⟨rfl, rfl⟩

theorem readDirective_next {n : Node} (hn : n.directiveRole = .conditional)
    (hv : verdict source s n = .ok false) (hchildren : n.children = pre ++ c :: post)
    (hnext : IsNext n pre c) (h : ∀ depth, (readDirective source depth c).run s =
      (readDirective source depth (c.withChildren cs)).run s) (depth : Nat) :
    (readDirective source depth n).run s = (readDirective source depth
      (n.withChildren (pre ++ c.withChildren cs :: post))).run s := by
  cases depth with
  | zero => rfl
  | succ depth =>
    obtain ⟨hc, hc'⟩ := nextBranch?_within hchildren hnext cs
    have hv' := (verdict_alike (hchildren ▸ alike_within pre post c cs)).trans hv
    rw [readDirective_conditional hn,
      readDirective_conditional (n := n.withChildren (pre ++ c.withChildren cs :: post)) hn,
      hv, hv', hc, hc']
    exact h depth

theorem readDirective_further {n : Node} (hn : n.directiveRole = .conditional)
    (hv : verdict source s n = .ok true) (h : List.Forall₂ (Rewritten n) n.children cs)
    (depth : Nat) :
    (readDirective source depth n).run s =
      (readDirective source depth (n.withChildren cs)).run s := by
  cases depth with
  | zero => rfl
  | succ depth =>
    have hv' := (verdict_alike (h.imp fun _ _ => Rewritten.alike)).trans hv
    rw [readDirective_conditional hn, readDirective_conditional (n := n.withChildren cs) hn, hv,
      hv', branchBody_rewritten h]

-- ---------------------------------------------------------------------------
-- One of several nodes
-- ---------------------------------------------------------------------------

/-- What is read before an edit leaves the symbols that resolving does, or nothing is read after
it. -/
theorem readAll_within {p : Node → Bool} (hc : p c = true) (hc' : p c' = true)
    (hpre : (resolveAll source (pre.filter p)).run s = .ok (forest, t))
    (h : ∀ depth, (readOne source depth c).run t = (readOne source depth c').run t) (depth : Nat) :
    (readAll source depth ((pre ++ c :: post).filter p)).run s =
      (readAll source depth ((pre ++ c' :: post).filter p)).run s := by
  cases depth with
  | zero => rfl
  | succ depth =>
    rw [readAll, readAll]
    -- Each child before the edit is read alike and leaves the symbols that resolving it does.
    induction pre generalizing s forest with
    | nil =>
      rw [List.filter_nil, resolveAll] at hpre
      cases hpre
      rw [List.nil_append, List.nil_append, List.filter_cons_of_pos hc, List.filter_cons_of_pos hc',
        concat, concat, StateT.run_bind, StateT.run_bind, h depth]
    | cons m pre ih =>
      rw [List.cons_append, List.cons_append]
      by_cases hm : p m = true
      · rw [List.filter_cons_of_pos hm, resolveAll] at hpre
        simp only [StateT.run_bind, ok_bind_iff] at hpre
        obtain ⟨⟨here, s₁⟩, hone, ⟨more, s₂⟩, hrest, hpre⟩ := hpre
        cases hpre
        rw [List.filter_cons_of_pos hm, List.filter_cons_of_pos hm, concat, concat,
          StateT.run_bind, StateT.run_bind]
        rcases (reading_follows source depth).2.1 m s with ⟨hx, -⟩ | hx
        -- Out of depth already before the edit.
        · rw [hx]; rfl
        · rw [hx, hone]
          exact congrArg (· >>= fun x => .ok (declareAll source here ++ x.1, x.2)) (ih hrest)
      · rw [List.filter_cons_of_neg hm] at hpre ⊢
        rw [List.filter_cons_of_neg hm]
        exact ih hpre

section
variable {n : Node} (hchildren : n.children = pre ++ c :: post) (cs : List Node)
include hchildren

theorem child?_within (role : String) :
    (n.withChildren (pre ++ c.withChildren cs :: post)).child? role = n.child? role ∨
      n.child? role = some c ∧
        (n.withChildren (pre ++ c.withChildren cs :: post)).child? role =
          some (c.withChildren cs) := by
  simp only [Node.child?, Node.children_withChildren, hchildren, List.find?_append,
    List.find?_cons, Node.field_withChildren]
  cases pre.find? (·.field == some role) with
  | some m => exact .inl rfl
  | none =>
    cases c.field == some role with
    | true => exact .inr ⟨rfl, rfl⟩
    | false => exact .inl rfl

theorem name?_within :
    (n.withChildren (pre ++ c.withChildren cs :: post)).name? source = n.name? source := by
  unfold Node.name?
  rcases child?_within hchildren cs "name" with h | ⟨h, h'⟩
  · rw [h]
  · rw [h, h']; rfl

theorem header_within (hc : c.kind = "attribute_list" →
      (c.withChildren cs).listedAttributes source = c.listedAttributes source) :
    (n.withChildren (pre ++ c.withChildren cs :: post)).header source = n.header source := by
  have hmodifiers : (n.withChildren (pre ++ c.withChildren cs :: post)).modifiers source =
      n.modifiers source := by
    by_cases hk : c.kind = "modifier" <;>
      simp [Node.modifiers, hchildren, hk]
  have hattributes : (n.withChildren (pre ++ c.withChildren cs :: post)).attributes source =
      n.attributes source := by
    by_cases hk : c.kind = "attribute_list"
    · simp [Node.attributes, hchildren, hk, hc hk]
    · simp [Node.attributes, hchildren, hk]
  rw [Node.header, Node.header, name?_within hchildren, hmodifiers, hattributes]
  rfl

end

theorem scopeMembers_eq {n : Node} (h : n.child? "body" = none) : n.scopeMembers =
    n.children.filter fun c => (n.child? "name").all (c.start != ·.start) && c.named := by
  rw [Node.scopeMembers, h, Node.constructs]
  cases n.child? "name" with
  | none => simp
  | some name => simp [List.filter_filter]

theorem Visits.reading (hv : Visits source s way n p) (hchildren : n.children = pre ++ c :: post)
    (h : ∀ depth, (readAll source depth ((pre ++ c :: post).filter p)).run s =
      (readAll source depth ((pre ++ c.withChildren cs :: post).filter p)).run s) (depth : Nat) :
    (readAs source depth way n).run s =
      (readAs source depth way (n.withChildren (pre ++ c.withChildren cs :: post))).run s := by
  cases depth with
  | zero => cases way <;> rfl
  | succ depth =>
    cases hv with
    | contents =>
      rw [readAs, readAs, Node.constructs, Node.constructs, hchildren]
      exact h (depth + 1)
    | scope hs hbody =>
      have hbody' : (n.withChildren (pre ++ c.withChildren cs :: post)).child? "body" = none := by
        rcases child?_within hchildren cs "body" with hsame | ⟨hc, -⟩
        · rw [hsame, hbody]
        · rw [hbody] at hc; cases hc
      have hname : ∀ m : Node,
          ((n.withChildren (pre ++ c.withChildren cs :: post)).child? "name").all
            (m.start != ·.start) = (n.child? "name").all (m.start != ·.start) := by
        intro m
        rcases child?_within hchildren cs "name" with hsame | ⟨hc, hc'⟩
        · rw [hsame]
        · rw [hc, hc']; rfl
      rw [readAs, readAs, readOne_scope hs, readOne_scope (n := n.withChildren _) hs,
        name?_within hchildren, scopeMembers_eq hbody, scopeMembers_eq hbody', StateT.run_bind,
        StateT.run_bind]
      simp only [hname]
      rw [hchildren, h depth]
      rfl
    | taken hn hv =>
      have halike : List.Forall₂ Node.Alike n.children (pre ++ c.withChildren cs :: post) :=
        hchildren ▸ alike_within pre post c cs
      have hv' := (verdict_alike halike).trans hv
      rw [readAs, readAs, readDirective_conditional hn,
        readDirective_conditional (n := n.withChildren _) hn, hv, hv']
      simp only [Node.branchBody, Node.constructs, inBranch_alike halike, List.filter_filter]
      rw [hchildren]
      exact h depth
    | otherwise hn =>
      have hn' : (n.withChildren (pre ++ c.withChildren cs :: post)).directiveRole =
          .otherwise := hn
      rw [readAs, readAs, readDirective, readDirective, hn, hn']
      simp only [Node.branchBody, Node.constructs, List.filter_filter]
      rw [hchildren]
      exact h depth

theorem Visits.withChildren (h : Visits source s way n p) (c : Node) (cs : List Node) :
    p (c.withChildren cs) = p c := by
  cases h <;> rfl

theorem Edited.kind_ne_attribute (h : Edited source .item s n n') : n.kind ≠ "attribute" := by
  cases h with
  | child hv =>
    cases hv with
    | scope hs _ => exact (kind_of_declares (by simp [hs])).2.2.2
  | body hd => exact (kind_of_declares hd).2.2.2
  | broken hk => rw [hk]; decide
  | directive hp =>
    intro hk
    rw [Node.kindBegins, hk] at hp
    exact absurd hp (by decide)

theorem Edited.listedAttributes (h : Edited source .contents s n n') :
    n'.listedAttributes source = n.listedAttributes source := by
  cases h with
  | child hv hchildren _ _ h =>
    have hk := h.kind_ne_attribute
    obtain ⟨cs, rfl⟩ := h.withChildren
    cases hv with
    | contents =>
      simp only [Node.listedAttributes, Node.constructs, Node.children_withChildren, hchildren,
        List.filter_filter]
      simp [hk]

theorem body_within {n : Node} (hchildren : n.children = pre ++ b :: post)
    (hb : b.field = some "body") (hpre : ∀ m ∈ pre, m.field ≠ some "body") (cs : List Node) :
    n.child? "body" = some b ∧
      (n.withChildren (pre ++ b.withChildren cs :: post)).child? "body" =
        some (b.withChildren cs) := by
  have hpre' : ∀ m ∈ pre, (m.field == some "body") = false :=
    fun m hm => by simpa using hpre m hm
  rw [Node.child?, Node.child?, Node.children_withChildren, hchildren,
    find?_first hpre' (by simpa using hb), find?_first hpre' (by simpa using hb)]
  exact ⟨rfl, rfl⟩

theorem readOne_body {n : Node} (hn : (n.isScope || n.typeKind?.isSome) = true)
    (hchildren : n.children = pre ++ b :: post) (hb : b.field = some "body")
    (hpre : ∀ m ∈ pre, m.field ≠ some "body")
    (hattributes : (b.withChildren cs).listedAttributes source = b.listedAttributes source)
    (h : ∀ depth, (readAll source depth b.constructs).run s =
      (readAll source depth (b.withChildren cs).constructs).run s) (depth : Nat) :
    (readOne source depth n).run s =
      (readOne source depth (n.withChildren (pre ++ b.withChildren cs :: post))).run s := by
  cases depth with
  | zero => rfl
  | succ depth =>
    obtain ⟨hbody, hbody'⟩ := body_within hchildren hb hpre cs
    cases hs : n.isScope with
    | true =>
      rw [readOne_scope hs, readOne_scope (n := n.withChildren _) hs, name?_within hchildren,
        Node.scopeMembers, Node.scopeMembers, hbody, hbody', StateT.run_bind, StateT.run_bind,
        h depth]
      rfl
    | false =>
      cases hk : n.typeKind? with
      | none => simp [hs, hk] at hn
      | some kind =>
        rw [readOne_type hs hk, readOne_type (n := n.withChildren _) hs hk,
          header_within hchildren cs fun _ => hattributes, Node.typeMembers, Node.typeMembers,
          hbody, hbody', StateT.run_bind, StateT.run_bind, h depth]

-- ---------------------------------------------------------------------------
-- Reading and analyzing after an edit
-- ---------------------------------------------------------------------------

/-- Reading from the symbols of an edit gives the same before and after it, at any depth. -/
theorem Edited.reading (h : Edited source way s n n') (depth : Nat) :
    (readAs source depth way n).run s = (readAs source depth way n').run s := by
  induction h generalizing depth with
  | further hn hv hcs => exact readDirective_further hn hv hcs depth
  | own hn hv hcs => exact readDirective_own hn hv hcs depth
  | next hn hv hchildren hnext h ih =>
    obtain ⟨cs, rfl⟩ := h.withChildren
    exact readDirective_next hn hv hchildren hnext ih depth
  | child hv hchildren hc hpre h ih =>
    obtain ⟨cs, rfl⟩ := h.withChildren
    exact hv.reading hchildren (readAll_within hc ((hv.withChildren _ cs).trans hc) hpre ih) depth
  | body hn hchildren hb hpre h ih =>
    -- The body might be an attribute list as well, of which the header takes notice.
    have hattributes := h.listedAttributes
    obtain ⟨cs, rfl⟩ := h.withChildren
    exact readOne_body hn hchildren hb hpre hattributes ih depth
  | broken hk h ih =>
    obtain ⟨cs, rfl⟩ := h.withChildren
    cases depth with
    | zero => rfl
    | succ depth =>
      rw [readAs, readAs, readOne_broken hk, readOne_broken (n := Node.withChildren _ cs) hk]
      exact ih depth
  | directive hp h ih =>
    obtain ⟨cs, rfl⟩ := h.withChildren
    cases depth with
    | zero => rfl
    | succ depth =>
      rw [readAs, readAs, readOne_directive hp, readOne_directive (n := Node.withChildren _ cs) hp]
      exact ih depth
  | transparent hn h ih =>
    obtain ⟨cs, rfl⟩ := h.withChildren
    cases depth with
    | zero => rfl
    | succ depth =>
      rw [readAs, readAs, readDirective_transparent hn,
        readDirective_transparent (n := Node.withChildren _ cs) hn, StateT.run_bind,
        StateT.run_bind]
      exact congrArg (· >>= _) (ih depth)

/-- An edit of inactive code that the reading of a tree comes to changes neither the outline nor
the error, and so neither the result of the file. A broken tree comes to be read only if partial
outlines are allowed. -/
theorem inactive_unread (allowPartial : Bool) (source path : String) (tree : Concrete.Tree)
    (hread : tree.hasError = true → allowPartial = true)
    (h : Edited source.toUTF8 .contents [] tree.root root) :
    ofTree allowPartial source path ⟨root, tree.hasError⟩ =
      ofTree allowPartial source path tree ∧
    ∀ markers fileScopedCounts,
      FileResult.ofOutline path markers fileScopedCounts
          (ofTree allowPartial source path ⟨root, tree.hasError⟩) =
        FileResult.ofOutline path markers fileScopedCounts
          (ofTree allowPartial source path tree) := by
  have hgate : (tree.hasError && !allowPartial) = false := by
    cases he : tree.hasError with
    | false => rfl
    | true => simp [hread he]
  have hreading := h.reading depthLimit
  have hdeclarations : declarationsOf source.toUTF8 ⟨root, tree.hasError⟩ =
      declarationsOf source.toUTF8 tree := by
    rw [declarationsOf, declarationsOf]
    exact congrArg (Except.map fun found => found.1) hreading.symm
  have houtline : ofTree allowPartial source path ⟨root, tree.hasError⟩ =
      ofTree allowPartial source path tree := by
    simp only [ofTree, hgate, hdeclarations, Bool.false_eq_true, ↓reduceIte]
  exact ⟨houtline, fun _ _ => by rw [houtline]⟩

def guardedText : String := "#define A\nnamespace N \x7b\n#if A\n#else\n#endif\n\x7d"

def definesA : Node := .mk "preproc_define" 0 9 0 none true false []

/-- A true condition around nothing, with `inactive` in its last branch. -/
def guard (inactive : List Node) : Node :=
  .mk "preproc_if" 24 42 2 none true false [
    .mk "identifier" 28 29 2 (some "condition") true false [],
    .mk "preproc_else" 30 36 3 (some "alternative") true false inactive]

def guardedBody (inactive : List Node) : Node :=
  .mk "declaration_list" 22 44 1 (some "body") true false [guard inactive]

def scopeName : Node := .mk "identifier" 20 21 1 (some "name") true false []

def guardedScope (inactive : List Node) : Node :=
  .mk "namespace_declaration" 10 44 1 none true false [scopeName, guardedBody inactive]

def guarded (inactive : List Node) : Concrete.Tree :=
  ⟨.mk "compilation_unit" 0 44 0 none true false [definesA, guardedScope inactive], false⟩

theorem resolve_definesA :
    (resolveAll guardedText.toUTF8 [definesA]).run [] = .ok ([], ["A"]) := by
  have htext : Symbols.update [] (definesA.text guardedText.toUTF8) = ["A"] := by
    with_unfolding_all rfl
  have hrun : (resolveDirective guardedText.toUTF8 definesA).run [] = .ok ([], ["A"]) := by
    rw [resolveDirective_run, selected?]
    exact congrArg (fun s => Except.ok ([], s)) htext
  have hone : resolveOne guardedText.toUTF8 definesA =
      resolveDirective guardedText.toUTF8 definesA := by
    rw [resolveOne]
    rfl
  rw [resolveAll, hone, StateT.run_bind, hrun, resolveAll]
  rfl

theorem verdict_guard : verdict guardedText.toUTF8 ["A"] (guard inactive) = .ok true := by
  have htext : Node.text (.mk "identifier" 28 29 2 (some "condition") true false [])
      guardedText.toUTF8 = "A" := by decide +kernel
  have heval : Condition.evalText "A" ["A"] = .ok true := by cbv
  have hcondition : (guard inactive).child? "condition" =
      some (.mk "identifier" 28 29 2 (some "condition") true false []) := by rfl
  rw [verdict, hcondition]
  simp only [htext, heval]

def unconditioned : Node := .mk "preproc_if" 35 35 3 none true false []

theorem guarded_unread :
    Edited guardedText.toUTF8 .contents [] (guarded []).root (guarded [unconditioned]).root ∧
    ofTree false guardedText "T.cs" (guarded [unconditioned]) =
      ofTree false guardedText "T.cs" (guarded []) ∧
    ∀ markers fileScopedCounts,
      FileResult.ofOutline "T.cs" markers fileScopedCounts
          (ofTree false guardedText "T.cs" (guarded [unconditioned])) =
        FileResult.ofOutline "T.cs" markers fileScopedCounts
          (ofTree false guardedText "T.cs" (guarded [])) := by
  have hguard : Edited guardedText.toUTF8 .directive ["A"] (guard []) (guard [unconditioned]) := by
    refine .further rfl verdict_guard (.cons (.inl rfl) (.cons (.inr ⟨.inl rfl, ?_⟩) .nil))
    exact ⟨rfl, rfl, rfl, fun _ => rfl⟩
  have hnone : (resolveAll guardedText.toUTF8 []).run ["A"] = .ok ([], ["A"]) := by
    rw [resolveAll]
    rfl
  have hbody : Edited guardedText.toUTF8 .contents ["A"] (guardedBody [])
      (guardedBody [unconditioned]) :=
    .child .contents (show _ = [] ++ guard [] :: [] from rfl) rfl hnone (.directive rfl hguard)
  have hscope : Edited guardedText.toUTF8 .item ["A"] (guardedScope [])
      (guardedScope [unconditioned]) :=
    .body rfl (show _ = [scopeName] ++ guardedBody [] :: [] from rfl) rfl (by decide) hbody
  have hroot : Edited guardedText.toUTF8 .contents [] (guarded []).root
      (guarded [unconditioned]).root :=
    .child .contents (show _ = [definesA] ++ guardedScope [] :: [] from rfl) rfl resolve_definesA
      hscope
  exact ⟨hroot, inactive_unread false guardedText "T.cs" (guarded []) (by decide) hroot⟩

end Outline

end CategoryAudit
