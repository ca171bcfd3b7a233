import CategoryAudit.Proofs.Course

/-!
# The directives that reading comes to

`Runs` has the rules by which a record of reading comes about. By induction on them, the directives
are met in the order of the text (`Runs.ordered`). `Reaches` says apart from any order which
directives reading comes to: those are met, unless reading ends with an error before them
(`Runs.complete`).
-/

namespace CategoryAudit

open Concrete (Node Spot)

namespace Outline

variable {source : ByteArray}

-- ---------------------------------------------------------------------------
-- The order of the text
-- ---------------------------------------------------------------------------

/-- Everything on the way `u` comes before everything on the way `v`. -/
def Before (u v : List Nat) : Prop := ∀ a b, u ++ a < v ++ b

theorem before_of_lt (way : List Nat) (h : i < j) : Before (way ++ [i]) (way ++ [j]) := by
  intro a b
  rw [List.append_assoc, List.append_assoc]
  exact List.append_left_lt (List.cons_lt_cons_iff.mpr (.inl h))

theorem lt_append (way : List Nat) (i : Nat) (rest : List Nat) : way < way ++ i :: rest := by
  have h : way ++ [] < way ++ i :: rest := List.append_left_lt (List.nil_lt_cons i rest)
  rwa [List.append_nil] at h

theorem Before.lt {u v : List Nat} (h : Before u v) (hu : u <+: u') (hv : v <+: v') : u' < v' := by
  obtain ⟨a, rfl⟩ := hu
  obtain ⟨b, rfl⟩ := hv
  exact h a b

namespace Task

def Ordered (task : Task) : Prop := task.spots.Pairwise fun p q => Before p.way q.way

def Covers (task : Task) (q : Spot) : Prop := ∃ p ∈ task.spots, p.way <+: q.way

theorem Covers.below {task : Task} (h : task.Covers q) (hr : q.way <+: r.way) :
    task.Covers r := by
  obtain ⟨p, hp, hway⟩ := h
  exact ⟨p, hp, hway.trans hr⟩

@[simp] theorem covers_item : (item p).Covers q ↔ p.way <+: q.way := by
  simp [Covers, spots]

@[simp] theorem covers_directive : (directive p).Covers q ↔ p.way <+: q.way := by
  simp [Covers, spots]

@[simp] theorem covers_cons :
    (several (p :: rest)).Covers q ↔ p.way <+: q.way ∨ (several rest).Covers q := by
  simp [Covers, spots]

/-- What there is to read stands below `p`, in the order of the text. -/
structure Inside (p : Spot) (task : Task) : Prop where
  ordered : task.Ordered
  below : ∀ q ∈ task.spots, ∃ i rest, q.way = p.way ++ i :: rest

theorem Inside.covers {task : Task} (h : task.Inside p) (hq : task.Covers q) :
    ∃ i rest, q.way = p.way ++ i :: rest := by
  obtain ⟨r, hr, b, hb⟩ := hq
  obtain ⟨i, rest, hway⟩ := h.below r hr
  exact ⟨i, rest ++ b, by rw [← hb, hway, List.append_assoc, List.cons_append]⟩

theorem Inside.above {task : Task} (h : task.Inside p) (hq : task.Covers q) : p.way <+: q.way := by
  obtain ⟨i, rest, hway⟩ := h.covers hq
  exact ⟨i :: rest, hway.symm⟩

theorem Inside.lt {task : Task} (h : task.Inside p) (hq : task.Covers q) : p.way < q.way := by
  obtain ⟨i, rest, hway⟩ := h.covers hq
  rw [hway]
  exact lt_append ..

end Task

theorem pairwise_select (p : Spot) (keep : Node → Bool) :
    (p.select keep).Pairwise fun q r => Before q.way r.way := by
  refine List.Pairwise.filter _ (List.pairwise_iff_getElem.mpr fun i j hi hj hij => ?_)
  simpa using before_of_lt p.way hij

theorem way_of_mem_select {p q : Spot} (h : q ∈ p.select keep) : ∃ i, q.way = p.way ++ [i] := by
  obtain ⟨hq, -⟩ := List.mem_filter.mp h
  obtain ⟨i, hi, rfl⟩ := List.mem_mapIdx.mp hq
  exact ⟨i, rfl⟩

theorem inside_select (p : Spot) (keep : Node → Bool) :
    (Task.several (p.select keep)).Inside p where
  ordered := pairwise_select p keep
  below q hq := by
    obtain ⟨i, hi⟩ := way_of_mem_select hq
    exact ⟨i, [], hi⟩

theorem inside_members (p : Spot) : (Task.several p.members).Inside p := by
  unfold Spot.members
  split
  · rename_i body hb
    have hinside := inside_select body (·.named)
    refine ⟨hinside.ordered, fun q hq => ?_⟩
    obtain ⟨i, hi⟩ := way_of_mem_select (List.mem_of_head? hb)
    obtain ⟨j, rest, hj⟩ := hinside.below q hq
    exact ⟨i, j :: rest, by rw [hj, hi, List.append_assoc, List.singleton_append]⟩
  · split
    · exact inside_select p _
    · exact ⟨.nil, nofun⟩

theorem inside_branchBody (p : Spot) (excluded : List Node) :
    (Task.several (p.branchBody excluded)).Inside p := inside_select p _

theorem inside_nextBranch {p : Spot} (h : p.nextBranch? = some q) :
    (Task.directive q).Inside p := by
  have hq : ∃ keep, q ∈ p.select keep := by
    rcases Option.or_eq_some_iff.mp h with h | ⟨-, h⟩
    · exact ⟨_, List.mem_of_head? h⟩
    · exact ⟨_, List.mem_of_head? h⟩
  obtain ⟨keep, hq⟩ := hq
  obtain ⟨i, hi⟩ := way_of_mem_select hq
  exact ⟨List.pairwise_singleton .., by simpa [Task.spots] using ⟨i, [], hi⟩⟩

theorem inside_of_parts? (h : parts? p = some task) : task = .directive p ∨ task.Inside p := by
  unfold parts? at h
  split at h
  · cases h
  split at h
  · cases h
    exact .inr (inside_select p _)
  split at h
  · cases h
    exact .inl rfl
  split at h
  · cases h
    exact .inr (inside_members p)
  · cases h

theorem inside_of_opened (h : opened source s p = .ok (some task)) : task.Inside p := by
  unfold opened at h
  split at h
  · cases hv : verdict source s p.node with
    | error e => rw [hv] at h; cases h
    | ok value =>
      rw [hv] at h
      cases value with
      | true =>
        cases h
        exact inside_branchBody p _
      | false =>
        have hnext : p.nextBranch?.map Task.directive = some task := Except.ok.inj h
        obtain ⟨q, hq, rfl⟩ := Option.map_eq_some_iff.mp hnext
        exact inside_nextBranch hq
  · cases h
    exact inside_select p _
  · cases h
  · cases h
    exact inside_select p _

-- ---------------------------------------------------------------------------
-- The rules of records
-- ---------------------------------------------------------------------------

/-- The directives met in reading something from some symbols on, and how it ends. -/
inductive Runs (source : ByteArray) :
    Task → Symbols → List Moment → Except ParseError Symbols → Prop
  | tooDeep : Runs source task s [] (.error .tooDeep)
  | done : Runs source (.several []) s [] (.ok s)
  | stopped : Runs source (.item p) s met (.error e) →
      Runs source (.several (p :: rest)) s met (.error e)
  | more : Runs source (.item p) s met (.ok t) → Runs source (.several rest) t later out →
      Runs source (.several (p :: rest)) s (met ++ later) out
  | leaf : parts? p = none → Runs source (.item p) s [] (.ok s)
  | item : parts? p = some task → Runs source task s met out → Runs source (.item p) s met out
  | refused : opened source s p = .error e → Runs source (.directive p) s [⟨p, s⟩] (.error e)
  | closed : opened source s p = .ok none →
      Runs source (.directive p) s [⟨p, s⟩] (.ok (Moment.after source ⟨p, s⟩))
  | opened : opened source s p = .ok (some task) →
      Runs source task (Moment.after source ⟨p, s⟩) met out →
      Runs source (.directive p) s (⟨p, s⟩ :: met) out

theorem course_runs (source : ByteArray) (depth : Nat) (task : Task) (s : Symbols) :
    Runs source task s (course source depth task s).met (course source depth task s).out := by
  induction depth generalizing task s with
  | zero => cases task <;> exact .tooDeep
  | succ depth ih =>
    cases task with
    | several ps =>
      rw [course]
      induction ps generalizing s with
      | nil => exact .done
      | cons p rest ihRest =>
        have hitem := ih (.item p) s
        rw [Course.each, Course.andThen]
        cases hout : (course source depth (.item p) s).out with
        | error e =>
          simp only [hout] at hitem ⊢
          exact .stopped hitem
        | ok t =>
          rw [hout] at hitem
          exact .more hitem (ihRest t)
    | item p =>
      rw [course]
      cases hparts : parts? p with
      | none => exact .leaf hparts
      | some task => exact .item hparts (ih task s)
    | directive p =>
      rw [course]
      cases hopened : Outline.opened source s p with
      | error e => exact .refused hopened
      | ok next =>
        cases next with
        | none => exact .closed hopened
        | some task => exact .opened hopened (ih task _)

theorem Task.covers_of_parts? (h : parts? p = some task) (hq : task.Covers q) :
    (Task.item p).Covers q := by
  rcases inside_of_parts? h with rfl | hinside
  · simpa using hq
  · exact Task.covers_item.mpr (hinside.above hq)

theorem Runs.covered (h : Runs source task s met out) : ∀ m ∈ met, task.Covers m.spot := by
  induction h with
  | tooDeep | done | leaf => nofun
  | stopped _ ih =>
    intro m hm
    exact Task.covers_cons.mpr (.inl (Task.covers_item.mp (ih m hm)))
  | more _ _ ih ihRest =>
    intro m hm
    rcases List.mem_append.mp hm with hm | hm
    · exact Task.covers_cons.mpr (.inl (Task.covers_item.mp (ih m hm)))
    · exact Task.covers_cons.mpr (.inr (ihRest m hm))
  | item hparts _ ih => exact fun m hm => Task.covers_of_parts? hparts (ih m hm)
  | refused | closed =>
    intro m hm
    cases List.mem_singleton.mp hm
    exact Task.covers_directive.mpr List.prefix_rfl
  | opened hopened _ ih =>
    intro m hm
    rcases List.mem_cons.mp hm with rfl | hm
    · exact Task.covers_directive.mpr List.prefix_rfl
    · exact Task.covers_directive.mpr ((inside_of_opened hopened).above (ih m hm))

theorem Task.ordered_item (p : Spot) : (Task.item p).Ordered := List.pairwise_singleton ..

theorem Task.ordered_of_parts? (h : parts? p = some task) : task.Ordered := by
  rcases inside_of_parts? h with rfl | hinside
  · exact List.pairwise_singleton ..
  · exact hinside.ordered

theorem Task.Ordered.tail (h : (Task.several (p :: rest)).Ordered) : (Task.several rest).Ordered :=
  h.of_cons

theorem Task.Ordered.lt (h : (Task.several (p :: rest)).Ordered) (hq : (Task.item p).Covers q)
    (hr : (Task.several rest).Covers r) : q.way < r.way := by
  obtain ⟨p', hp', hway⟩ := hr
  exact (List.rel_of_pairwise_cons h hp').lt (Task.covers_item.mp hq) hway

theorem Runs.ordered (h : Runs source task s met out) (ho : task.Ordered) :
    met.Pairwise fun m m' => m.spot.way < m'.spot.way := by
  induction h with
  | tooDeep | done | leaf => exact .nil
  | stopped _ ih => exact ih (Task.ordered_item _)
  | more hitem hrest ih ihRest =>
    refine List.pairwise_append.mpr ⟨ih (Task.ordered_item _), ihRest ho.tail, ?_⟩
    intro m hm m' hm'
    exact ho.lt (hitem.covered m hm) (hrest.covered m' hm')
  | item hparts _ ih => exact ih (Task.ordered_of_parts? hparts)
  | refused | closed => exact List.pairwise_singleton ..
  | opened hopened hrun ih =>
    have hinside := inside_of_opened hopened
    have hfirst := fun m hm => hinside.lt (hrun.covered m hm)
    exact List.pairwise_cons.mpr ⟨hfirst, ih hinside.ordered⟩

-- ---------------------------------------------------------------------------
-- The directives that count
-- ---------------------------------------------------------------------------

/-- Reading the first comes to reading the second, where `met` has the symbols on coming to the
directives around it. -/
inductive Reaches (source : ByteArray) (met : List Moment) : Task → Task → Prop
  | here : Reaches source met task task
  | several : p ∈ ps → Reaches source met (.item p) task → Reaches source met (.several ps) task
  | item : parts? p = some within → Reaches source met within task →
      Reaches source met (.item p) task
  | opened : ⟨p, s⟩ ∈ met → Outline.opened source s p = .ok (some within) →
      Reaches source met within task → Reaches source met (.directive p) task

theorem Reaches.mono (h : Reaches source met task within) (hmet : met ⊆ all) :
    Reaches source all task within := by
  induction h with
  | here => exact .here
  | several hp _ ih => exact .several hp ih
  | item hparts _ ih => exact .item hparts ih
  | opened hm hopened _ ih => exact .opened (hmet hm) hopened ih

theorem Reaches.covers (h : Reaches source met task within) (hc : within.Covers q) :
    task.Covers q := by
  induction h with
  | here => exact hc
  | several hp _ ih => exact ⟨_, hp, Task.covers_item.mp (ih hc)⟩
  | item hparts _ ih => exact Task.covers_of_parts? hparts (ih hc)
  | opened _ hopened _ ih =>
    exact Task.covers_directive.mpr ((inside_of_opened hopened).above (ih hc))

theorem Reaches.covered (h : Reaches source met task (.directive q)) : task.Covers q :=
  h.covers (Task.covers_directive.mpr List.prefix_rfl)

theorem reaches_cons : Reaches source met (.several (p :: rest)) (.directive q) ↔
    Reaches source met (.item p) (.directive q) ∨
      Reaches source met (.several rest) (.directive q) := by
  constructor
  · intro h
    cases h with
    | several hp h =>
      rcases List.mem_cons.mp hp with rfl | hp
      · exact .inl h
      · exact .inr (.several hp h)
  · rintro (h | h)
    · exact .several List.mem_cons_self h
    · cases h with
      | several hp h => exact .several (List.mem_cons_of_mem _ hp) h

theorem Reaches.of_directive (h : Reaches source met (.directive p) (.directive q))
    (hs : ∀ s', ⟨p, s'⟩ ∈ met → s' = s) :
    q = p ∨ ∃ task, Outline.opened source s p = .ok (some task) ∧
      Reaches source met task (.directive q) := by
  cases h with
  | here => exact .inl rfl
  | opened hm hopened h =>
    cases hs _ hm
    exact .inr ⟨_, hopened, h⟩

theorem eq_of_pairwise {R : α → α → Prop} {l : List α} (h : l.Pairwise R) (ha : a ∈ l) (hb : b ∈ l)
    (hab : ¬ R a b) (hba : ¬ R b a) : a = b := by
  obtain ⟨i, hi, rfl⟩ := List.getElem_of_mem ha
  obtain ⟨j, hj, rfl⟩ := List.getElem_of_mem hb
  rw [List.pairwise_iff_getElem] at h
  rcases lt_trichotomy i j with hlt | rfl | hlt
  · exact absurd (h i j hi hj hlt) hab
  · rfl
  · exact absurd (h j i hj hi hlt) hba

/-- Of places in the order of the text, only one stands at or above another place. -/
theorem Task.Ordered.eq {q : Spot} (h : (Task.several ps).Ordered) (hp : p ∈ ps) (hp' : p' ∈ ps)
    (hq : p.way <+: q.way) (hq' : p'.way <+: q.way) : p = p' :=
  eq_of_pairwise h hp hp' (fun hb => lt_irrefl _ (hb.lt hq hq'))
    fun hb => lt_irrefl _ (hb.lt hq' hq)

theorem defined_unique {met : List Moment} (h : met.Pairwise fun m m' => m.spot.way < m'.spot.way)
    (hm : ⟨p, s⟩ ∈ met) (hm' : ⟨p, s'⟩ ∈ met) : s' = s :=
  congrArg Moment.defined (eq_of_pairwise h hm' hm (lt_irrefl _) (lt_irrefl _))

/-- A directive at or below something that reading comes to is reached through it. -/
theorem Reaches.through (h : Reaches source met task within) (ho : task.Ordered)
    (hmet : met.Pairwise fun m m' => m.spot.way < m'.spot.way)
    (hq : Reaches source met task (.directive q)) (hc : within.Covers q) :
    Reaches source met within (.directive q) := by
  induction h with
  | here => exact hq
  | several hp h ih =>
    cases hq with
    | several hp' hq =>
      cases ho.eq hp hp' (Task.covers_item.mp (h.covers hc)) (Task.covers_item.mp hq.covered)
      exact ih (Task.ordered_item _) hq hc
  | item hparts h ih =>
    cases hq with
    | item hparts' hq =>
      rw [hparts] at hparts'
      cases hparts'
      exact ih (Task.ordered_of_parts? hparts) hq hc
  | opened hm hopened h ih =>
    have hinside := inside_of_opened hopened
    rcases hq.of_directive fun s' => defined_unique hmet hm with rfl | ⟨task', hopened', hq⟩
    · exact absurd (hinside.lt (h.covers hc)) (lt_irrefl _)
    · rw [hopened] at hopened'
      cases hopened'
      exact ih hinside.ordered hq hc

theorem Runs.reached (h : Runs source task s met out) :
    ∀ m ∈ met, Reaches source met task (.directive m.spot) := by
  induction h with
  | tooDeep | done | leaf => nofun
  | stopped _ ih => exact fun m hm => reaches_cons.mpr (.inl (ih m hm))
  | more _ _ ih ihRest =>
    intro m hm
    rcases List.mem_append.mp hm with hm | hm
    · exact reaches_cons.mpr (.inl ((ih m hm).mono (List.subset_append_left ..)))
    · exact reaches_cons.mpr (.inr ((ihRest m hm).mono (List.subset_append_right ..)))
  | item hparts _ ih => exact fun m hm => .item hparts (ih m hm)
  | refused | closed =>
    intro m hm
    cases List.mem_singleton.mp hm
    exact .here
  | opened hopened _ ih =>
    intro m hm
    rcases List.mem_cons.mp hm with rfl | hm
    · exact .here
    · exact .opened List.mem_cons_self hopened ((ih m hm).mono (List.subset_cons_self ..))

/-- A directive that counts is met, unless reading ends with an error before it. Here `all` may have
more than what is met, but not at or below what there is to read. -/
theorem Runs.complete (h : Runs source task s met out) (ho : task.Ordered) {all : List Moment}
    (hall : ∀ m ∈ all, task.Covers m.spot → m ∈ met)
    (hq : Reaches source all task (.directive q)) :
    (∃ m ∈ met, m.spot = q) ∨ (∃ e, out = .error e) ∧ ∀ m ∈ met, m.spot.way < q.way := by
  induction h with
  | tooDeep => exact .inr ⟨⟨_, rfl⟩, nofun⟩
  | done => cases hq with | several hp _ => cases hp
  | stopped hitem ih =>
    rcases reaches_cons.mp hq with hq | hq
    · exact ih (Task.ordered_item _) (fun m hm hc => hall m hm (Task.covers_cons.mpr
        (.inl (Task.covers_item.mp hc)))) hq
    · exact .inr ⟨⟨_, rfl⟩, fun m hm => ho.lt (hitem.covered m hm) hq.covered⟩
  | @more p s met t rest later out hitem hrest ih ihRest =>
    -- The places at or below `p` are none of those at or below the others.
    have hfirst : ∀ m ∈ all, (Task.item p).Covers m.spot → m ∈ met := by
      intro m hm hc
      rcases List.mem_append.mp (hall m hm (Task.covers_cons.mpr
        (.inl (Task.covers_item.mp hc)))) with h | h
      · exact h
      · exact absurd (ho.lt hc (hrest.covered m h)) (lt_irrefl _)
    have hlater : ∀ m ∈ all, (Task.several rest).Covers m.spot → m ∈ later := by
      intro m hm hc
      rcases List.mem_append.mp (hall m hm (Task.covers_cons.mpr (.inr hc))) with h | h
      · exact absurd (ho.lt (hitem.covered m h) hc) (lt_irrefl _)
      · exact h
    rcases reaches_cons.mp hq with hq | hq
    · rcases ih (Task.ordered_item _) hfirst hq with ⟨m, hm, rfl⟩ | ⟨⟨e, he⟩, -⟩
      · exact .inl ⟨m, List.mem_append_left _ hm, rfl⟩
      · cases he
    · rcases ihRest ho.tail hlater hq with ⟨m, hm, rfl⟩ | ⟨he, hlt⟩
      · exact .inl ⟨m, List.mem_append_right _ hm, rfl⟩
      · refine .inr ⟨he, fun m hm => ?_⟩
        rcases List.mem_append.mp hm with hm | hm
        · exact ho.lt (hitem.covered m hm) hq.covered
        · exact hlt m hm
  | leaf hparts =>
    cases hq with
    | item hparts' _ => rw [hparts] at hparts'; cases hparts'
  | item hparts _ ih =>
    cases hq with
    | item hparts' hq =>
      rw [hparts] at hparts'
      cases hparts'
      exact ih (Task.ordered_of_parts? hparts)
        (fun m hm hc => hall m hm (Task.covers_of_parts? hparts hc)) hq
  | @refused s p _ hopened | @closed s p hopened =>
    have hs : ∀ s', ⟨p, s'⟩ ∈ all → s' = s := by
      intro s' hm
      have hmet := List.mem_singleton.mp (hall _ hm (Task.covers_directive.mpr List.prefix_rfl))
      exact congrArg Moment.defined hmet
    rcases hq.of_directive hs with rfl | ⟨task, hopened', -⟩
    · exact .inl ⟨_, List.mem_singleton_self _, rfl⟩
    · rw [hopened] at hopened'
      cases hopened'
  | @opened s p task met out hopened hrun ih =>
    have hinside := inside_of_opened hopened
    have hs : ∀ s', ⟨p, s'⟩ ∈ all → s' = s := by
      intro s' hm
      rcases List.mem_cons.mp (hall _ hm (Task.covers_directive.mpr List.prefix_rfl)) with h | h
      · exact congrArg Moment.defined h
      · exact absurd (hinside.lt (hrun.covered _ h)) (lt_irrefl _)
    rcases hq.of_directive hs with rfl | ⟨task', hopened', hq⟩
    · exact .inl ⟨_, List.mem_cons_self, rfl⟩
    rw [hopened] at hopened'
    cases hopened'
    have hbelow : ∀ m ∈ all, task.Covers m.spot → m ∈ met := by
      intro m hm hc
      rcases List.mem_cons.mp (hall m hm (Task.covers_directive.mpr (hinside.above hc)))
        with rfl | h
      · exact absurd (hinside.lt hc) (lt_irrefl _)
      · exact h
    rcases ih hinside.ordered hbelow hq with ⟨m, hm, rfl⟩ | ⟨he, hlt⟩
    · exact .inl ⟨m, List.mem_cons_of_mem _ hm, rfl⟩
    · refine .inr ⟨he, fun m hm => ?_⟩
      rcases List.mem_cons.mp hm with rfl | hm
      · exact hinside.lt hq.covered
      · exact hlt m hm

end Outline

end CategoryAudit
