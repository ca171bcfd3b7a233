import Mathlib.Order.Defs.LinearOrder
import Mathlib.Data.List.Lex
import CategoryAudit.Concrete

/-!
# The first broken node

The line of a syntax error is that of the first broken node in pre-order. The search for it keeps
the nodes that it still has to look at on a stack and comes to an end after as many turns as the
tree has nodes, at most. It finds what a search by recursion finds, and that is the broken node
whose way from the root comes before the ways of all others (`errorLine_first`).
-/

namespace CategoryAudit.Concrete

-- ---------------------------------------------------------------------------
-- Three accounts of the search
-- ---------------------------------------------------------------------------

mutual
def Node.firstWithin? : Node → Option Node
  | .mk kind start stop row field named missing children =>
    if Node.isBroken (.mk kind start stop row field named missing children) then
      some (.mk kind start stop row field named missing children)
    else firstAmong? children
def firstAmong? : List Node → Option Node
  | [] => none
  | n :: rest => n.firstWithin?.or (firstAmong? rest)
end

/-- What a search comes to in some number of turns, from a stack whose top is at its end. A turn
takes the node at the top. If it is not broken, its children come onto the stack, the last one
first. -/
inductive Search : List Node → Nat → Option Node → Prop
  | exhausted : Search [] 0 none
  | found : n.isBroken = true → Search (stack ++ [n]) 1 (some n)
  | further : n.isBroken = false → Search (stack ++ n.children.reverse) turns result →
      Search (stack ++ [n]) (turns + 1) result

/-- The node at the end of a way, which has the number of the child to go to at each step. The
order of ways, `<` on lists, is pre-order. -/
def Node.at? (n : Node) : List Nat → Option Node
  | [] => some n
  | i :: way => n.children[i]?.bind fun c => c.at? way

/-- Of the nodes that some ways lead to, `n` is broken and none on an earlier way is. -/
def IsFirst (at? : List Nat → Option Node) (n : Node) : Prop :=
  n.isBroken = true ∧ ∃ way, at? way = some n ∧
    ∀ earlier m, earlier < way → at? earlier = some m → m.isBroken = false

-- ---------------------------------------------------------------------------
-- The stack and the recursion
-- ---------------------------------------------------------------------------

theorem Node.firstWithin?_eq (n : Node) :
    n.firstWithin? = if n.isBroken then some n else firstAmong? n.children := by
  cases n
  rw [firstWithin?, children]

theorem firstAmong?_append (a b : List Node) :
    firstAmong? (a ++ b) = (firstAmong? a).or (firstAmong? b) := by
  induction a with
  | nil => rfl
  | cons n rest ih => rw [List.cons_append, firstAmong?, firstAmong?, ih, Option.or_assoc]

theorem firstBroken?_eq (waiting : List Node) : firstBroken? waiting = firstAmong? waiting := by
  fun_induction firstBroken? waiting with
  | case1 => rfl
  | case2 n rest h => rw [firstAmong?, n.firstWithin?_eq, if_pos h, Option.some_or]
  | case3 n rest h ih => rw [firstAmong?, n.firstWithin?_eq, if_neg h, ih, firstAmong?_append]

/-- No node is looked at twice. -/
theorem search_waiting (waiting : List Node) :
    ∃ turns ≤ sizes waiting, Search waiting.reverse turns (firstBroken? waiting) := by
  fun_induction firstBroken? waiting with
  | case1 => exact ⟨0, Nat.le_refl 0, .exhausted⟩
  | case2 n rest h =>
    refine ⟨1, ?_, List.reverse_cons ▸ .found h⟩
    rw [sizes, n.size_eq]
    omega
  | case3 n rest h ih =>
    obtain ⟨turns, hle, hsearch⟩ := ih
    rw [List.reverse_append] at hsearch
    refine ⟨turns + 1, ?_, List.reverse_cons ▸ .further (eq_false_of_ne_true h) hsearch⟩
    rw [sizes_append] at hle
    rw [sizes, n.size_eq]
    omega

theorem Search.result_eq (h : Search stack turns result) :
    result = firstBroken? stack.reverse := by
  induction h with
  | exhausted => rw [List.reverse_nil, firstBroken?]
  | found hn => rw [List.reverse_concat, firstBroken?, if_pos hn]
  | further hn _ ih =>
    rw [ih, List.reverse_concat, firstBroken?, hn, List.reverse_append, List.reverse_reverse]
    rfl

-- ---------------------------------------------------------------------------
-- The recursion and the ways
-- ---------------------------------------------------------------------------

def among? (nodes : List Node) : List Nat → Option Node
  | [] => none
  | i :: way => nodes[i]?.bind (·.at? way)

theorem IsFirst.of_children {n : Node} (hn : n.isBroken = false)
    (h : IsFirst (among? n.children) m) : IsFirst n.at? m := by
  obtain ⟨hm, way, hway, hearlier⟩ := h
  cases way with
  | nil => cases hway
  | cons i way =>
    refine ⟨hm, i :: way, hway, fun earlier k hlt hk => ?_⟩
    cases earlier with
    | nil =>
      cases hk
      exact hn
    | cons j earlier => exact hearlier (j :: earlier) k hlt hk

theorem IsFirst.of_head (h : IsFirst n.at? m) (rest : List Node) :
    IsFirst (among? (n :: rest)) m := by
  obtain ⟨hm, way, hway, hearlier⟩ := h
  refine ⟨hm, 0 :: way, hway, fun earlier k hlt hk => ?_⟩
  cases earlier with
  | nil => cases hk
  | cons j earlier =>
    rcases List.cons_lt_cons_iff.mp hlt with hj | ⟨rfl, hless⟩
    · exact absurd hj (Nat.not_lt_zero j)
    · exact hearlier earlier k hless hk

theorem IsFirst.of_tail {n : Node} (hn : ∀ way m, n.at? way = some m → m.isBroken = false)
    (h : IsFirst (among? rest) m) : IsFirst (among? (n :: rest)) m := by
  obtain ⟨hm, way, hway, hearlier⟩ := h
  cases way with
  | nil => cases hway
  | cons i way =>
    refine ⟨hm, (i + 1) :: way, hway, fun earlier k hlt hk => ?_⟩
    cases earlier with
    | nil => cases hk
    | cons j earlier =>
      cases j with
      | zero => exact hn earlier k hk
      | succ j =>
        refine hearlier (j :: earlier) k ?_ hk
        rcases List.cons_lt_cons_iff.mp hlt with hj | ⟨hj, hlt⟩
        · exact List.cons_lt_cons_iff.mpr (.inl (Nat.lt_of_succ_lt_succ hj))
        · exact List.cons_lt_cons_iff.mpr (.inr ⟨Nat.succ.inj hj, hlt⟩)

mutual
theorem firstWithin?_cases : (n : Node) →
    (∃ m, n.firstWithin? = some m ∧ IsFirst n.at? m) ∨
      n.firstWithin? = none ∧ ∀ way m, n.at? way = some m → m.isBroken = false
  | .mk kind start stop row field named missing children => by
    generalize hn : Node.mk kind start stop row field named missing children = n
    have hchildren : n.children = children := by rw [← hn]; rfl
    rw [n.firstWithin?_eq, hchildren]
    cases hb : n.isBroken with
    | true =>
      refine .inl ⟨n, if_pos rfl, hb, [], rfl, fun earlier m hlt _ => ?_⟩
      exact absurd hlt (List.not_lt_nil earlier)
    | false =>
      rw [if_neg Bool.false_ne_true]
      rcases firstAmong?_cases children with ⟨m, hm, hfirst⟩ | ⟨hnone, hall⟩
      · exact .inl ⟨m, hm, .of_children hb (hchildren ▸ hfirst)⟩
      · refine .inr ⟨hnone, fun way m hm => ?_⟩
        cases way with
        | nil =>
          cases hm
          exact hb
        | cons i way => exact hall (i :: way) m (hchildren ▸ hm)
theorem firstAmong?_cases : (nodes : List Node) →
    (∃ m, firstAmong? nodes = some m ∧ IsFirst (among? nodes) m) ∨
      firstAmong? nodes = none ∧ ∀ way m, among? nodes way = some m → m.isBroken = false
  | [] => by
    refine .inr ⟨rfl, fun way m hm => ?_⟩
    cases way <;> cases hm
  | n :: rest => by
    rw [firstAmong?]
    rcases firstWithin?_cases n with ⟨m, hm, hfirst⟩ | ⟨hnone, hn⟩
    · exact .inl ⟨m, by rw [hm, Option.some_or], hfirst.of_head rest⟩
    · rw [hnone, Option.none_or]
      rcases firstAmong?_cases rest with ⟨m, hm, hfirst⟩ | ⟨hrest, hall⟩
      · exact .inl ⟨m, hm, .of_tail hn hfirst⟩
      · refine .inr ⟨hrest, fun way m hm => ?_⟩
        match way with
        | 0 :: way => exact hn way m hm
        | (i + 1) :: way => exact hall (i :: way) m hm
end

theorem IsFirst.unique (h : IsFirst at? n) (h' : IsFirst at? m) : n = m := by
  obtain ⟨hn, way, hway, hearlier⟩ := h
  obtain ⟨hm, way', hway', hearlier'⟩ := h'
  rcases lt_trichotomy way way' with hlt | rfl | hlt
  · exact absurd hn (by rw [hearlier' way n hlt hway]; exact Bool.false_ne_true)
  · exact Option.some.inj (hway.symm.trans hway')
  · exact absurd hm (by rw [hearlier way' m hlt hway']; exact Bool.false_ne_true)

theorem firstWithin?_eq_some_iff {n m : Node} :
    n.firstWithin? = some m ↔ IsFirst n.at? m := by
  rcases firstWithin?_cases n with ⟨k, hk, hfirst⟩ | ⟨hnone, hall⟩
  · rw [hk, Option.some.injEq]
    exact ⟨fun h => h ▸ hfirst, hfirst.unique⟩
  · rw [hnone]
    refine ⟨nofun, fun ⟨hm, way, hway, _⟩ => ?_⟩
    rw [hall way m hway] at hm
    cases hm

theorem firstWithin?_eq_none_iff {n : Node} :
    n.firstWithin? = none ↔ ∀ way m, n.at? way = some m → m.isBroken = false := by
  rcases firstWithin?_cases n with ⟨k, hk, hbroken, way, hway, -⟩ | ⟨hnone, hall⟩
  · rw [hk]
    refine ⟨nofun, fun h => ?_⟩
    rw [h way k hway] at hbroken
    cases hbroken
  · exact iff_of_true hnone hall

-- ---------------------------------------------------------------------------
-- The line
-- ---------------------------------------------------------------------------

/-- The search with a stack ends after at most as many turns as there are nodes, and it can only end
with what the recursive search gives: the first broken node in pre-order, if any is broken. The line
of the error is one more than the row of this node, or of the root if no node is broken. -/
theorem errorLine_first (t : Tree) :
    (∃ turns ≤ t.root.size, Search [t.root] turns t.root.firstWithin?) ∧
    (∀ turns result, Search [t.root] turns result → result = t.root.firstWithin?) ∧
    t.errorLine = (t.root.firstWithin?.getD t.root).row + 1 ∧
    (∀ n, t.root.firstWithin? = some n ↔ IsFirst t.root.at? n) ∧
    (t.root.firstWithin? = none ↔ ∀ way n, t.root.at? way = some n → n.isBroken = false) := by
  have hroot : firstBroken? [t.root] = t.root.firstWithin? := by
    rw [firstBroken?_eq, firstAmong?, firstAmong?, Option.or_none]
  refine ⟨?_, fun turns result h => ?_, ?_, fun n => firstWithin?_eq_some_iff,
    firstWithin?_eq_none_iff⟩
  · rw [← hroot]
    exact search_waiting [t.root]
  · rw [h.result_eq, List.reverse_singleton, hroot]
  · rw [Tree.errorLine, hroot]
    rfl

end CategoryAudit.Concrete
