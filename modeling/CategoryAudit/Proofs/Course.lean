import CategoryAudit.Proofs.Condition.Symbols
import CategoryAudit.Proofs.Inactive
import CategoryAudit.Proofs.Trailing

/-!
# The course of reading

Reading a tree comes to some of its directives, one after the other. `course` keeps a record of
them, with the symbols that are defined on coming to each; `course_out` says that it ends as reading
does. Nodes of equal contents can stand at several places, so the record is of places: a `Spot` is a
node together with the way to it, and the order of ways is that of the text.
-/

namespace CategoryAudit

open Concrete (Node)

-- ---------------------------------------------------------------------------
-- Places
-- ---------------------------------------------------------------------------

/-- A node of a tree and the way to it: the numbers of the children to go to, from the root on. -/
structure Concrete.Spot where
  way : List Nat
  node : Node

open Concrete (Spot)

namespace Concrete.Spot

def select (p : Spot) (keep : Node → Bool) : List Spot :=
  (p.node.children.mapIdx fun i c => ⟨p.way ++ [i], c⟩).filter (keep ·.node)

def constructs (p : Spot) : List Spot := p.select (·.named)

def child? (p : Spot) (role : String) : Option Spot := (p.select (·.field == some role)).head?

def branchBody (p : Spot) (excluded : List Node) : List Spot :=
  p.select fun c => !c.isAmong excluded && !c.isBranch && c.named

def ownBody (p : Spot) : List Spot :=
  p.branchBody ((p.node.child? "condition").toList ++ (p.node.child? "alternative").toList)

def nextBranch? (p : Spot) : Option Spot :=
  (p.child? "alternative").or (p.select fun c => c.named && c.isBranch).head?

def members (p : Spot) : List Spot :=
  match p.child? "body" with
  | some body => body.constructs
  | none =>
    if p.node.isScope then
      p.select fun c => (p.node.child? "name").all (c.start != ·.start) && c.named
    else []

section
variable (p : Spot)

theorem map_select (keep : Node → Bool) :
    (p.select keep).map node = p.node.children.filter keep := by
  have hnodes : (p.node.children.mapIdx fun i c => Spot.mk (p.way ++ [i]) c).map node =
      p.node.children := by
    simp [List.mapIdx_eq_zipIdx_map, Function.comp_def]
  conv_rhs => rw [← hnodes]
  rw [select, List.filter_map]
  rfl

@[simp] theorem map_constructs : p.constructs.map node = p.node.constructs := p.map_select _

@[simp] theorem map_child? (role : String) : (p.child? role).map node = p.node.child? role := by
  rw [child?, ← List.head?_map, map_select, List.head?_filter]
  rfl

@[simp] theorem map_branchBody (excluded : List Node) :
    (p.branchBody excluded).map node = p.node.branchBody excluded := by
  rw [branchBody, map_select, Node.branchBody, Node.constructs, List.filter_filter]

@[simp] theorem map_nextBranch? : p.nextBranch?.map node = p.node.nextBranch? := by
  have hbranch : ((p.select fun c => c.named && c.isBranch).head?).map node =
      p.node.constructs.find? (·.isBranch) := by
    rw [← List.head?_map, map_select, Node.constructs, ← List.head?_filter, List.filter_filter]
    simp only [Bool.and_comm]
  rw [nextBranch?, Option.map_or, map_child?, hbranch]
  rfl

theorem map_members (h : (p.node.isScope || p.node.typeKind?.isSome) = true) :
    p.members.map node = p.node.members := by
  have hbody := p.map_child? "body"
  unfold members
  cases hb : p.child? "body" with
  | some body =>
    rw [hb, Option.map_some] at hbody
    have hscope : p.node.scopeMembers = body.node.constructs := by
      rw [Node.scopeMembers, ← hbody]
    have htype : p.node.typeMembers = body.node.constructs := by
      rw [Node.typeMembers, ← hbody]
    rw [map_constructs, Node.members, hscope, htype]
    cases hs : p.node.isScope with
    | true => rfl
    | false => rw [hs, Bool.false_or] at h; simp [h]
  | none =>
    rw [hb, Option.map_none] at hbody
    have htype : p.node.typeMembers = [] := by rw [Node.typeMembers, ← hbody]
    rw [Node.members, Outline.scopeMembers_eq hbody.symm, htype]
    cases p.node.isScope with
    | true => simp [map_select]
    | false => simp

end

end Concrete.Spot

namespace Outline

-- ---------------------------------------------------------------------------
-- The record
-- ---------------------------------------------------------------------------

inductive Task where
  | several (spots : List Spot)
  | item (p : Spot)
  | directive (p : Spot)

namespace Task

def spots : Task → List Spot
  | several ps => ps
  | item p | directive p => [p]

def read (source : ByteArray) (depth : Nat) : Task → Reading (List Declaration)
  | several ps => readAll source depth (ps.map (·.node))
  | item p => readOne source depth p.node
  | directive p => readDirective source depth p.node

end Task

/-- What there is to read of a node that comes up among others. A comment, a method or another
member has nothing within it that is looked at. -/
def parts? (p : Spot) : Option Task :=
  if p.node.kind == "comment" then none
  else if p.node.kind == "ERROR" then some (.several p.constructs)
  else if p.node.kindBegins "preproc" then some (.directive p)
  else if p.node.isScope || p.node.typeKind?.isSome then some (.several p.members)
  else none

def opened (source : ByteArray) (s : Symbols) (p : Spot) : Except ParseError (Option Task) :=
  match p.node.directiveRole with
  | .conditional => (verdict source s p.node).map fun value =>
    if value then some (.several p.ownBody) else p.nextBranch?.map .directive
  | .otherwise => .ok (some (.several (p.branchBody [])))
  | .definition => .ok none
  | .transparent => .ok (some (.several p.constructs))

def change? (source : ByteArray) (p : Spot) : Option Symbols.Change :=
  if p.node.directiveRole = .definition then Symbols.Change.ofText? (p.node.text source) else none

/-- A directive that reading comes to, and the symbols defined then. -/
structure Moment where
  spot : Spot
  defined : Symbols

def Moment.after (source : ByteArray) (m : Moment) : Symbols :=
  (change? source m.spot).elim m.defined m.defined.apply

/-- The directives that reading came to, and the symbols or the error it ended with. -/
structure Course where
  met : List Moment
  out : Except ParseError Symbols

namespace Course

def andThen (c : Course) (next : Symbols → Course) : Course :=
  match c.out with
  | .ok s => ⟨c.met ++ (next s).met, (next s).out⟩
  | .error _ => c

def each (f : Spot → Symbols → Course) : List Spot → Symbols → Course
  | [], s => ⟨[], .ok s⟩
  | p :: rest, s => (f p s).andThen (each f rest)

end Course

def course (source : ByteArray) : Nat → Task → Symbols → Course
  | 0, _, _ => ⟨[], .error .tooDeep⟩
  | depth + 1, .several ps, s => .each (fun p => course source depth (.item p)) ps s
  | depth + 1, .item p, s =>
    match parts? p with
    | none => ⟨[], .ok s⟩
    | some task => course source depth task s
  | depth + 1, .directive p, s =>
    match opened source s p with
    | .error e => ⟨[⟨p, s⟩], .error e⟩
    | .ok none => ⟨[⟨p, s⟩], .ok (Moment.after source ⟨p, s⟩)⟩
    | .ok (some task) =>
      Course.andThen ⟨[⟨p, s⟩], .ok (Moment.after source ⟨p, s⟩)⟩ (course source depth task)

-- ---------------------------------------------------------------------------
-- The record follows reading
-- ---------------------------------------------------------------------------

theorem andThen_out (c : Course) (next : Symbols → Course) :
    (c.andThen next).out = c.out >>= fun s => (next s).out := by
  unfold Course.andThen
  cases hc : c.out with
  | ok s => rfl
  | error e => simp only [hc]; rfl

def left (source : ByteArray) (depth : Nat) (task : Task) (s : Symbols) :
    Except ParseError Symbols :=
  ((task.read source depth).run s).map (·.2)

theorem left_several (p : Spot) (rest : List Spot) :
    left source (depth + 1) (.several (p :: rest)) s =
      left source depth (.item p) s >>= left source (depth + 1) (.several rest) := by
  simp only [left, Task.read, readAll, List.map_cons, concat_run_cons]
  cases (readOne source depth p.node).run s with
  | error e => rfl
  | ok read =>
    simp only [Except.map, bind, Except.bind, left, Task.read, readAll]
    cases (concat (readOne source depth) (rest.map (·.node))).run read.2 <;> rfl

theorem left_declares {p : Spot} (h : (p.node.isScope || p.node.typeKind?.isSome) = true) :
    left source (depth + 1) (.item p) s = left source depth (.several p.members) s := by
  simp only [left, Task.read, Spot.map_members p h, Node.members]
  cases hs : p.node.isScope with
  | true =>
    rw [readOne_scope hs, if_pos rfl, StateT.run_bind]
    cases (readAll source depth p.node.scopeMembers).run s <;> rfl
  | false =>
    rw [hs, Bool.false_or] at h
    obtain ⟨kind, hk⟩ := Option.isSome_iff_exists.mp h
    rw [readOne_type hs hk, if_neg Bool.false_ne_true, if_pos h, StateT.run_bind]
    cases (readAll source depth p.node.typeMembers).run s <;> rfl

theorem left_item (p : Spot) : left source (depth + 1) (.item p) s =
    match parts? p with
    | none => .ok s
    | some task => left source depth task s := by
  by_cases hc : p.node.kind == "comment"
  · have hparts : parts? p = none := if_pos hc
    rw [hparts, left, Task.read, readOne, if_pos hc]
    rfl
  by_cases he : p.node.kind == "ERROR"
  · have hparts : parts? p = some (.several p.constructs) := by rw [parts?, if_neg hc, if_pos he]
    simp only [hparts, left, Task.read, Spot.map_constructs]
    rw [readOne_broken (by simpa using he)]
  by_cases hp : p.node.kindBegins "preproc"
  · have hparts : parts? p = some (.directive p) := by
      rw [parts?, if_neg hc, if_neg he, if_pos hp]
    simp only [hparts, left, Task.read]
    rw [readOne_directive hp]
  by_cases hd : p.node.isScope || p.node.typeKind?.isSome
  · have hparts : parts? p = some (.several p.members) := by
      rw [parts?, if_neg hc, if_neg he, if_neg hp, if_pos hd]
    rw [hparts]
    exact left_declares hd
  · have hparts : parts? p = none := by
      rw [parts?, if_neg hc, if_neg he, if_neg hp, if_neg hd]
    simp only [Bool.or_eq_true, not_or, Bool.not_eq_true, Option.isSome_eq_false_iff,
      Option.isNone_iff_eq_none] at hd
    rw [hparts, left, Task.read, readOne, if_neg hc, if_neg he, if_neg hp, if_neg (by simp [hd.1]),
      hd.2]
    dsimp only
    split <;> rfl

theorem left_directive (p : Spot) : left source (depth + 1) (.directive p) s =
    match opened source s p with
    | .error e => .error e
    | .ok none => .ok (Moment.after source ⟨p, s⟩)
    | .ok (some task) => left source depth task (Moment.after source ⟨p, s⟩) := by
  unfold opened
  cases hr : p.node.directiveRole with
  | conditional =>
    have hafter : Moment.after source ⟨p, s⟩ = s := by simp [Moment.after, change?, hr]
    rw [left, Task.read, readDirective_conditional hr, hafter]
    cases verdict source s p.node with
    | error e => rfl
    | ok value =>
      cases value with
      | true => simp [Except.map, left, Task.read, Spot.ownBody]
      | false =>
        have hnext := p.map_nextBranch?
        cases hq : p.nextBranch? with
        | none =>
          rw [hq, Option.map_none] at hnext
          simp [Except.map, ← hnext]
        | some q =>
          rw [hq, Option.map_some] at hnext
          simp [Except.map, ← hnext, left, Task.read]
  | otherwise =>
    have hafter : Moment.after source ⟨p, s⟩ = s := by simp [Moment.after, change?, hr]
    simp only [hafter, left, Task.read, Spot.map_branchBody]
    rw [readDirective, hr]
  | definition =>
    have hafter : Moment.after source ⟨p, s⟩ = s.update (p.node.text source) := by
      simp only [Moment.after, change?, hr, if_true, Symbols.update]
      cases Symbols.Change.ofText? (p.node.text source) <;> rfl
    simp only [hafter, left, Task.read]
    rw [readDirective, hr]
    rfl
  | transparent =>
    have hafter : Moment.after source ⟨p, s⟩ = s := by simp [Moment.after, change?, hr]
    simp only [hafter, left, Task.read, Spot.map_constructs]
    rw [readDirective_transparent hr, StateT.run_bind]
    cases (readAll source depth p.node.constructs).run s <;> rfl

theorem course_out (source : ByteArray) (depth : Nat) (task : Task) (s : Symbols) :
    (course source depth task s).out = left source depth task s := by
  induction depth generalizing task s with
  | zero => cases task <;> rfl
  | succ depth ih =>
    cases task with
    | several ps =>
      rw [course]
      induction ps generalizing s with
      | nil => rfl
      | cons p rest ihRest =>
        rw [Course.each, andThen_out, ih, left_several]
        exact bind_congr ihRest
    | item p =>
      rw [course, left_item]
      cases parts? p with
      | none => rfl
      | some task => exact ih task s
    | directive p =>
      rw [course, left_directive]
      cases opened source s p with
      | error e => rfl
      | ok next =>
        cases next with
        | none => rfl
        | some task =>
          dsimp only
          rw [andThen_out]
          exact ih task _

end Outline

end CategoryAudit
