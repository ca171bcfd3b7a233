import CategoryAudit.Proofs.Inactive
import CategoryAudit.Proofs.Irrelevant
import CategoryAudit.Proofs.Trailing

/-!
# Regions and broken text around declarations

Neighbours that reading goes through may be put into a broken region or into a directive that is
neither a condition nor a definition, such as `#region`: the same is read, but for members that are
kept by their kind alone, and so the analysis ends alike. `Wrapped` is one such change, anywhere in
a tree, and `wrapping_unseen` says what any number of them do. A tree can become too high to be read
in this way.
-/

namespace CategoryAudit

open Concrete (Node)
open Declaration (Trimmed without trimmed_without)

-- ---------------------------------------------------------------------------
-- Declarations but for other members
-- ---------------------------------------------------------------------------

namespace Declaration

theorem without_append (dropped : Option (String × Header) → Declaration → Bool)
    (around : Option (String × Header)) (as bs : List Declaration) :
    without dropped around (as ++ bs) = without dropped around as ++ without dropped around bs := by
  induction as with
  | nil => rw [without]; rfl
  | cons a rest ih =>
    cases a with
    | method | other =>
      simp only [List.cons_append, without, ih]
      split <;> rfl
    | _ => simp only [List.cons_append, without, ih]

/-- The same declarations, but for the members that are kept by their kind alone, at any depth. -/
def Akin (ds ds' : List Declaration) : Prop :=
  ∀ around, without (fun _ d => d.isOther) around ds' = without (fun _ d => d.isOther) around ds

theorem Akin.refl (ds : List Declaration) : Akin ds ds := fun _ => rfl

theorem Akin.trans (h : Akin ds ds') (h' : Akin ds' ds'') : Akin ds ds'' :=
  fun around => (h' around).trans (h around)

theorem Akin.append (h : Akin as as') (h' : Akin bs bs') : Akin (as ++ bs) (as' ++ bs') := by
  intro around
  rw [without_append, without_append, h, h']

theorem Akin.scope (h : Akin members members') :
    Akin [.scope name fileScoped line members] [.scope name fileScoped line members'] := by
  intro around
  simp only [without, h none]

theorem Akin.type (h : Akin members members') :
    Akin [.type kind header members] [.type kind header members'] := by
  intro around
  simp only [without, h (some (kind, header))]

theorem akin_filter (ds : List Declaration) : Akin ds (ds.filter (!·.isOther)) := by
  intro around
  induction ds with
  | nil => rfl
  | cons d rest ih =>
    cases d with
    | other => rw [List.filter_cons_of_neg Bool.false_ne_true, ih]; simp only [without]; rfl
    | _ => rw [List.filter_cons_of_pos rfl]; simp only [without, ih]

theorem Akin.filter (h : Akin ds ds') : Akin (ds.filter (!·.isOther)) (ds'.filter (!·.isOther)) :=
  fun around => (akin_filter ds' around).trans ((h around).trans (akin_filter ds around).symm)

theorem Akin.analyze (h : Akin ds ds') (o : Outline) (markers : Markers) (counts : Bool) :
    { o with declarations := ds' }.analyze markers counts =
      { o with declarations := ds }.analyze markers counts := by
  have hirrelevant : ∀ around (d : Declaration), d.isOther = true →
      d.isIrrelevant markers around = true := by
    intro around d hd
    cases d <;> first | rfl | cases hd
  have htrimmed (ds : List Declaration) :
      Trimmed markers none ds (without (fun _ d => d.isOther) none ds) :=
    trimmed_without hirrelevant none ds
  have hds := Outline.analyze_trimmed (o := { o with declarations := ds }) (htrimmed ds) counts
  have hds' := Outline.analyze_trimmed (o := { o with declarations := ds' }) (htrimmed ds') counts
  rw [← hds, ← hds', h none]

end Declaration

open Declaration (Akin)

namespace Outline

-- ---------------------------------------------------------------------------
-- Readings side by side
-- ---------------------------------------------------------------------------

theorem parallel_error {R : α → β → Prop} : Parallel R (.error e) y ↔ y = .error e := by
  cases y <;> simp [Parallel]

/-- The second reading runs out of depth or ends like the first, but for other members. -/
def Covered (x x' : Except ParseError (List Declaration × Symbols)) : Prop :=
  x' = .error .tooDeep ∨
    Parallel (fun read read' => Akin read.1 read'.1 ∧ read'.2 = read.2) x x'

theorem Covered.refl (x : Except ParseError (List Declaration × Symbols)) : Covered x x :=
  .inr (.refl (fun read => ⟨.refl read.1, rfl⟩) x)

theorem Covered.trans (h : Covered x x') (h' : Covered x' x'') : Covered x x'' := by
  rcases h with rfl | h
  · rcases h' with h' | h'
    · exact .inl h'
    · exact .inl (parallel_error.mp h')
  · refine h'.imp_right fun h' => ?_
    revert h'
    refine h.elim (motive := fun x x' => Parallel _ x' x'' → Parallel _ x x'') (fun e h' => h') ?_
    intro read read' hread h'
    cases x'' with
    | error e => exact False.elim h'
    | ok read'' => exact ⟨hread.1.trans h'.1, h'.2.trans hread.2⟩

theorem Covered.bind {k k' : List Declaration × Symbols →
      Except ParseError (List Declaration × Symbols)} (h : Covered x x')
    (hk : ∀ ds ds' t, Akin ds ds' → Covered (k (ds, t)) (k' (ds', t))) :
    Covered (x >>= k) (x' >>= k') := by
  rcases h with rfl | h
  · exact .inl rfl
  · refine h.elim (motive := fun x x' => Covered (x >>= k) (x' >>= k')) (fun e => .refl _) ?_
    rintro ⟨ds, t⟩ ⟨ds', t'⟩ ⟨hds, rfl⟩
    exact hk ds ds' t' hds

theorem Covered.ok (h : Akin ds ds') : Covered (.ok (ds, t)) (.ok (ds', t)) := .inr ⟨h, rfl⟩

section
variable {source : ByteArray} {n n' : Node} {deep depth : Nat}

theorem covered_scope (hs : n.isScope = true) (hname : n'.name? source = n.name? source)
    (hkind : n'.kind = n.kind) (hline : n'.line = n.line)
    (h : Covered ((readAll source deep n.scopeMembers).run s)
      ((readAll source depth n'.scopeMembers).run s)) :
    Covered ((readOne source (deep + 1) n).run s) ((readOne source (depth + 1) n').run s) := by
  have hs' : n'.isScope = true := by rwa [Node.isScope, hkind]
  rw [readOne_scope hs, readOne_scope hs', hname, hkind, hline]
  exact h.bind fun _ _ _ hm => .ok hm.scope

theorem covered_type (hs : n.isScope = false) (hk : n.typeKind? = some kind)
    (hheader : n'.header source = n.header source) (hkind : n'.kind = n.kind)
    (h : Covered ((readAll source deep n.typeMembers).run s)
      ((readAll source depth n'.typeMembers).run s)) :
    Covered ((readOne source (deep + 1) n).run s) ((readOne source (depth + 1) n').run s) := by
  have hs' : n'.isScope = false := by rwa [Node.isScope, hkind]
  have hk' : n'.typeKind? = some kind := by rwa [Node.typeKind?, hkind]
  rw [readOne_type hs hk, readOne_type hs' hk', hheader]
  exact h.bind fun _ _ _ hm => .ok hm.type

theorem covered_transparent (hn : n.directiveRole = .transparent)
    (hn' : n'.directiveRole = .transparent)
    (h : Covered ((readAll source deep n.constructs).run s)
      ((readAll source depth n'.constructs).run s)) :
    Covered ((readDirective source (deep + 1) n).run s)
      ((readDirective source (depth + 1) n').run s) := by
  rw [readDirective_transparent hn, readDirective_transparent hn']
  exact h.bind fun _ _ _ hm => .ok hm.filter

theorem covered_conditional (hn : n.directiveRole = .conditional)
    (hn' : n'.directiveRole = .conditional) (hv : verdict source s n' = verdict source s n)
    (htrue : verdict source s n = .ok true → Covered ((readAll source deep n.ownBody).run s)
      ((readAll source depth n'.ownBody).run s))
    (hfalse : verdict source s n = .ok false → Option.Rel (fun next next' => Covered
      ((readDirective source deep next).run s) ((readDirective source depth next').run s))
        n.nextBranch? n'.nextBranch?) :
    Covered ((readDirective source (deep + 1) n).run s)
      ((readDirective source (depth + 1) n').run s) := by
  rw [readDirective_conditional hn, readDirective_conditional hn', hv]
  cases hvalue : verdict source s n with
  | error e => exact .refl _
  | ok value =>
    cases value with
    | true => exact htrue hvalue
    | false =>
      have hnext := hfalse hvalue
      generalize n.nextBranch? = next at hnext ⊢
      generalize n'.nextBranch? = next' at hnext ⊢
      cases hnext with
      | none => exact .refl _
      | some h => exact h

theorem covered_concat {f f' : Node → Reading (List Declaration)}
    (h : ∀ c ∈ nodes, ∀ s, Covered ((f c).run s) ((f' c).run s)) (s : Symbols) :
    Covered ((concat f nodes).run s) ((concat f' nodes).run s) := by
  induction nodes generalizing s with
  | nil => exact .refl _
  | cons c rest ih =>
    rw [concat_run_cons, concat_run_cons]
    refine (h c (by simp) s).bind fun ds ds' t hds => ?_
    refine (ih (fun c hc => h c (by simp [hc])) t).bind fun more more' u hmore => ?_
    exact .ok (hds.append hmore)

-- ---------------------------------------------------------------------------
-- Reading with less depth
-- ---------------------------------------------------------------------------

/-- Less depth gives the same, unless it is not enough. -/
theorem covered_shallower (source : ByteArray) (depth : Nat) : ∀ deep, depth ≤ deep →
    (∀ nodes s, Covered ((readAll source deep nodes).run s) ((readAll source depth nodes).run s)) ∧
    (∀ n s, Covered ((readOne source deep n).run s) ((readOne source depth n).run s)) ∧
    (∀ n s, Covered ((readDirective source deep n).run s)
      ((readDirective source depth n).run s)) := by
  induction depth with
  | zero => exact fun deep _ => ⟨fun _ _ => .inl rfl, fun _ _ => .inl rfl, fun _ _ => .inl rfl⟩
  | succ depth ih =>
    rintro (_ | deep) hle
    · omega
    obtain ⟨hall, hone, hdirective⟩ := ih deep (by omega)
    refine ⟨fun nodes s => ?_, fun n s => ?_, fun n s => ?_⟩
    · rw [readAll, readAll]
      exact covered_concat (fun c _ => hone c) s
    · by_cases he : n.kind = "ERROR"
      · rw [readOne_broken he, readOne_broken he]
        exact hall n.constructs s
      by_cases hp : n.kindBegins "preproc" = true
      · rw [readOne_directive hp, readOne_directive hp]
        exact hdirective n s
      by_cases hs : n.isScope = true
      · exact covered_scope hs rfl rfl rfl (hall _ s)
      cases hk : n.typeKind? with
      | some kind => exact covered_type (eq_false_of_ne_true hs) hk rfl rfl (hall _ s)
      | none =>
        rw [readOne, readOne]
        simp [he, hp, hs, hk, Covered.refl]
    · cases hn : n.directiveRole with
      | conditional =>
        refine covered_conditional hn hn rfl (fun _ => hall _ s) fun _ => ?_
        cases n.nextBranch? with
        | none => exact .none
        | some next => exact .some (hdirective next s)
      | otherwise =>
        rw [readDirective, readDirective, hn]
        exact hall _ s
      | definition =>
        rw [readDirective, readDirective, hn]
        exact .refl _
      | transparent => exact covered_transparent hn hn (hall _ s)

end

-- ---------------------------------------------------------------------------
-- Wrapping
-- ---------------------------------------------------------------------------

/-- A broken region or a transparent directive `w` around neighbours, of which `p` selects the
constructs. Punctuation may go into it or be kept after it, but it is kept if it has a role. -/
structure Wraps (p : Node → Bool) (run : List Node) (w : Node) (kept : List Node) : Prop where
  kind : w.kind = "ERROR" ∨ w.kindBegins "preproc" = true ∧ w.directiveRole = .transparent
  field : w.field = none
  selected : p w = true
  constructs : w.constructs = run.filter (·.named)
  walked : ∀ c ∈ run, c.named = true → p c = true
  punctuation : ∀ c ∈ kept, c.named = false
  roles : kept.filter (·.field.isSome) = (run.filter (!·.named)).filter (·.field.isSome)

/-- Some neighbours that reading goes through are wrapped, under some symbols. The first rule does
it, the others lead to it. -/
inductive Wrapped (source : ByteArray) : Way → Node → Node → Prop
  | run : Visits source s way n p → n.children = pre ++ (run ++ post) → Wraps p run w kept →
      Wrapped source way n (n.withChildren (pre ++ (w :: kept ++ post)))
  | child : Visits source s way n p → n.children = pre ++ c :: post → p c = true →
      Wrapped source .item c c' → Wrapped source way n (n.withChildren (pre ++ c' :: post))
  | next : n.directiveRole = .conditional → n.children = pre ++ c :: post → IsNext n pre c →
      Wrapped source .directive c c' →
      Wrapped source .directive n (n.withChildren (pre ++ c' :: post))
  /-- A body that is an attribute list as well keeps its attributes. -/
  | body : (n.isScope || n.typeKind?.isSome) = true → n.children = pre ++ b :: post →
      b.field = some "body" → (∀ m ∈ pre, m.field ≠ some "body") →
      (b.kind = "attribute_list" → b'.listedAttributes source = b.listedAttributes source) →
      Wrapped source .contents b b' → Wrapped source .item n (n.withChildren (pre ++ b' :: post))
  | broken : n.kind = "ERROR" → Wrapped source .contents n n' → Wrapped source .item n n'
  | directive : n.kindBegins "preproc" = true → Wrapped source .directive n n' →
      Wrapped source .item n n'
  | transparent : n.directiveRole = .transparent → Wrapped source .contents n n' →
      Wrapped source .directive n n'

theorem Wrapped.withChildren (h : Wrapped source way n n') : ∃ cs, n' = n.withChildren cs := by
  induction h with
  | run | child | next | body => exact ⟨_, rfl⟩
  | broken _ _ ih | directive _ _ ih | transparent _ _ ih => exact ih

-- ---------------------------------------------------------------------------
-- Children that are replaced
-- ---------------------------------------------------------------------------

/-- Other children of a node, read to the same effect as those that `p` selects; the others can be
told by their roles as before. -/
structure Replaces (source : ByteArray) (p : Node → Bool) (cs cs' : List Node) : Prop where
  role : ∀ role, (∀ m, cs.find? (·.field == some role) = some m → p m = false) →
    cs'.find? (·.field == some role) = cs.find? (·.field == some role)
  branch : (∀ c, p c = true → c.isBranch = false) →
    cs'.find? (fun c => c.named && c.isBranch) = cs.find? fun c => c.named && c.isBranch
  reading : ∀ depth s, Covered ((readAll source depth (cs.filter p)).run s)
    ((readAll source depth (cs'.filter p)).run s)

section
variable {source : ByteArray} {p : Node → Bool}

theorem concat_append (f : Node → Reading (List Declaration)) (as bs : List Node) :
    concat f (as ++ bs) = do
      let here ← concat f as
      let more ← concat f bs
      return here ++ more := by
  induction as with
  | nil => simp [concat]
  | cons a as ih =>
    simp only [List.cons_append, concat, ih, bind_assoc, pure_bind, List.append_assoc]

theorem covered_append {as as' bs bs' : List Node} {f f' : Node → Reading (List Declaration)}
    (ha : ∀ s, Covered ((concat f as).run s) ((concat f' as').run s))
    (hb : ∀ s, Covered ((concat f bs).run s) ((concat f' bs').run s)) (s : Symbols) :
    Covered ((concat f (as ++ bs)).run s) ((concat f' (as' ++ bs')).run s) := by
  rw [concat_append, concat_append]
  refine (ha s).bind fun ds ds' t hds => (hb t).bind fun more more' u hmore => ?_
  exact .ok (hds.append hmore)

theorem covered_between {mid mid' : List Node}
    (h : ∀ depth s, Covered ((concat (readOne source depth) mid).run s)
      ((concat (readOne source depth) mid').run s))
    (pre post : List Node) (depth : Nat) (s : Symbols) :
    Covered ((readAll source depth (pre ++ (mid ++ post))).run s)
      ((readAll source depth (pre ++ (mid' ++ post))).run s) := by
  cases depth with
  | zero => exact .inl rfl
  | succ depth =>
    rw [readAll, readAll]
    have hsame (nodes : List Node) (s : Symbols) :
        Covered ((concat (readOne source depth) nodes).run s)
          ((concat (readOne source depth) nodes).run s) := .refl _
    exact covered_append (hsame pre) (covered_append (h depth) (hsame post)) s

/-- A wrapper reads like what is in it, at less depth. -/
theorem covered_wrapper {w : Node}
    (hw : w.kind = "ERROR" ∨ w.kindBegins "preproc" = true ∧ w.directiveRole = .transparent)
    (depth : Nat) (s : Symbols) :
    Covered ((readAll source (depth + 1) w.constructs).run s) ((readOne source depth w).run s) := by
  have hless (depth deep : Nat) (hle : depth ≤ deep) :
      Covered ((readAll source deep w.constructs).run s)
        ((readAll source depth w.constructs).run s) :=
    (covered_shallower source depth deep hle).1 w.constructs s
  rcases hw with he | ⟨hp, ht⟩
  · match depth with
    | 0 => exact .inl rfl
    | depth + 1 =>
      rw [readOne_broken he]
      exact hless _ _ (by omega)
  · match depth with
    | 0 => exact .inl rfl
    | 1 => rw [readOne_directive hp]; exact .inl rfl
    | depth + 2 =>
      rw [readOne_directive hp, readDirective_transparent ht]
      refine (hless depth (depth + 3) (by omega)).trans ?_
      -- What is kept by its kind alone is lost here.
      cases hread : (readAll source depth w.constructs).run s with
      | error e => rw [StateT.run_bind, hread]; exact .refl _
      | ok read =>
        rw [StateT.run_bind, hread]
        exact .ok (Declaration.akin_filter read.1)

theorem concat_singleton (f : Node → Reading (List Declaration)) (n : Node) :
    concat f [n] = f n := by
  simp [concat]

theorem Wraps.reading (h : Wraps p run w kept) (hp : ∀ c, p c = true → c.named = true)
    (pre post : List Node) (depth : Nat) (s : Symbols) :
    Covered ((readAll source depth ((pre ++ (run ++ post)).filter p)).run s)
      ((readAll source depth ((pre ++ (w :: kept ++ post)).filter p)).run s) := by
  have hrun : run.filter p = w.constructs := by
    rw [h.constructs]
    exact List.filter_congr fun c hc => Bool.eq_iff_iff.mpr ⟨hp c, h.walked c hc⟩
  have hkept : kept.filter p = [] := by
    refine List.filter_eq_nil_iff.mpr fun c hc hpc => ?_
    exact absurd (hp c hpc) (by simp [h.punctuation c hc])
  simp only [List.filter_append, List.filter_cons_of_pos h.selected, hrun, hkept]
  refine covered_between (fun depth s => ?_) _ _ depth s
  rw [concat_singleton]
  exact covered_wrapper h.kind depth s

theorem find?_constructs {run : List Node} {q : Node → Bool}
    (h : ∀ m, run.find? q = some m → m.named = false) :
    (run.filter (!·.named)).find? q = run.find? q := by
  induction run with
  | nil => rfl
  | cons c run ih =>
    rw [List.find?_cons] at h ⊢
    cases hq : q c with
    | true =>
      have hc : c.named = false := h c (by rw [hq])
      rw [List.filter_cons_of_pos (by simp [hc]), List.find?_cons, hq]
    | false =>
      rw [hq] at h
      rw [List.filter_cons]
      split
      · rw [List.find?_cons, hq, ih h]
      · exact ih h

theorem Wraps.replaces (h : Wraps p run w kept) (hp : ∀ c, p c = true → c.named = true)
    (pre post : List Node) :
    Replaces source p (pre ++ (run ++ post)) (pre ++ (w :: kept ++ post)) where
  role role hrole := by
    have hfield (nodes : List Node) : (nodes.filter (·.field.isSome)).find? (·.field == some role) =
        nodes.find? (·.field == some role) := by
      rw [List.find?_filter]
      congr 1
      funext c
      cases c.field with
      | none => rfl
      | some r => simp only [Option.isSome_some, true_and, Bool.decide_eq_true]
    have hw : (w.field == some role) = false := by rw [h.field]; rfl
    rw [List.find?_append, List.find?_append] at hrole ⊢
    rw [List.find?_append, List.find?_append]
    cases hpre : pre.find? (·.field == some role) with
    | some m => rfl
    | none =>
      have hrun : run.find? (·.field == some role) = kept.find? (·.field == some role) := by
        rw [← hfield kept, h.roles, hfield]
        refine (find?_constructs fun m hm => ?_).symm
        by_contra hnamed
        have hm' := hrole m (by rw [hpre, hm]; rfl)
        have hwalked := h.walked m (List.mem_of_find?_eq_some hm) (by simpa using hnamed)
        rw [hwalked] at hm'
        cases hm'
      rw [List.find?_cons, hw, hrun]
  branch hbranch := by
    have hrun : run.find? (fun c => c.named && c.isBranch) = none := by
      refine List.find?_eq_none.mpr fun c hc hcb => ?_
      rw [Bool.and_eq_true] at hcb
      exact absurd hcb.2 (by simp [hbranch c (h.walked c hc hcb.1)])
    have hkept : (w :: kept).find? (fun c => c.named && c.isBranch) = none := by
      refine List.find?_eq_none.mpr fun c hc hcb => ?_
      rw [Bool.and_eq_true] at hcb
      rcases List.mem_cons.mp hc with rfl | hc
      · exact absurd hcb.2 (by simp [hbranch c h.selected])
      · exact absurd hcb.1 (by simp [h.punctuation c hc])
    simp only [List.find?_append, hrun, hkept]
  reading := h.reading hp pre post

theorem replaces_child (hc : p c = true) (hc' : p (c.withChildren cs) = true)
    (h : ∀ depth s, Covered ((readOne source depth c).run s)
      ((readOne source depth (c.withChildren cs)).run s)) (pre post : List Node) :
    Replaces source p (pre ++ c :: post) (pre ++ c.withChildren cs :: post) where
  role role hrole := by
    simp only [List.find?_append, List.find?_cons, Node.field_withChildren] at hrole ⊢
    cases hpre : pre.find? (·.field == some role) with
    | some m => rfl
    | none =>
      cases hfield : c.field == some role with
      | true =>
        have hfalse := hrole c (by rw [hpre, hfield]; rfl)
        rw [hc] at hfalse
        cases hfalse
      | false => rfl
  branch hbranch := by
    simp only [List.find?_append, List.find?_cons, Node.named_withChildren,
      Node.isBranch_withChildren, hbranch c hc, Bool.and_false]
  reading depth s := by
    have hfilter (c : Node) (hc : p c = true) : (pre ++ c :: post).filter p =
        pre.filter p ++ ([c] ++ post.filter p) := by
      rw [List.filter_append, List.filter_cons_of_pos hc]
      rfl
    rw [hfilter c hc, hfilter _ hc']
    refine covered_between (fun depth s => ?_) _ _ depth s
    rw [concat_singleton, concat_singleton]
    exact h depth s

-- ---------------------------------------------------------------------------
-- Reading what is wrapped
-- ---------------------------------------------------------------------------

theorem Visits.named (hv : Visits source s way n p) (hc : p c = true) : c.named = true := by
  cases hv with
  | contents => exact hc
  | scope | taken | otherwise => exact (Bool.and_eq_true_iff.mp hc).2

theorem Visits.covered {n : Node} (hv : Visits source s₀ way n p)
    (h : Replaces source p n.children cs) (depth : Nat) (s : Symbols) :
    Covered ((readAs source depth way n).run s)
      ((readAs source depth way (n.withChildren cs)).run s) := by
  cases depth with
  | zero => cases way <;> exact .inl rfl
  | succ depth =>
    cases hv with
    | contents => exact h.reading (depth + 1) s
    | scope hs hbody =>
      have hbody' : (n.withChildren cs).child? "body" = none :=
        (h.role "body" fun m hm => by rw [Node.child?, hm] at hbody; cases hbody).trans hbody
      have hchild : (n.withChildren cs).child? "name" = n.child? "name" := by
        refine h.role "name" fun m hm => ?_
        have hm : n.child? "name" = some m := hm
        simp [hm]
      have hname : (n.withChildren cs).name? source = n.name? source := by
        rw [Node.name?, Node.name?, hchild]
      refine covered_scope hs hname rfl rfl ?_
      rw [scopeMembers_eq hbody, scopeMembers_eq hbody', hchild]
      exact h.reading depth s
    | taken hn _ =>
      have hcondition : (n.withChildren cs).child? "condition" = n.child? "condition" := by
        refine h.role "condition" fun m hm => ?_
        have hm : n.child? "condition" = some m := hm
        simp [hm, Node.isAmong]
      have halternative : (n.withChildren cs).child? "alternative" = n.child? "alternative" := by
        refine h.role "alternative" fun m hm => ?_
        have hm : n.child? "alternative" = some m := hm
        simp [hm, Node.isAmong]
      have hnext : (n.withChildren cs).nextBranch? = n.nextBranch? := by
        have hbranch := h.branch fun c hc => by simp_all
        rw [nextBranch?_eq, nextBranch?_eq, halternative, Node.children_withChildren, hbranch]
      refine covered_conditional hn hn (verdict_child? hcondition rfl) (fun _ => ?_) fun _ => ?_
      · simp only [Node.ownBody, Node.branchBody, Node.constructs, List.filter_filter, hcondition,
          halternative]
        exact h.reading depth s
      · rw [hnext]
        cases n.nextBranch? with
        | none => exact .none
        | some next => exact .some (.refl _)
    | otherwise hn =>
      have hn' : (n.withChildren cs).directiveRole = .otherwise := hn
      rw [readAs, readAs, readDirective, readDirective, hn, hn']
      simp only [Node.branchBody, Node.constructs, List.filter_filter]
      exact h.reading depth s

theorem covered_next {n : Node} (hn : n.directiveRole = .conditional)
    (hchildren : n.children = pre ++ c :: post) (hnext : IsNext n pre c)
    (h : ∀ depth s, Covered ((readDirective source depth c).run s)
      ((readDirective source depth (c.withChildren cs)).run s)) (depth : Nat) (s : Symbols) :
    Covered ((readDirective source depth n).run s) ((readDirective source depth
      (n.withChildren (pre ++ c.withChildren cs :: post))).run s) := by
  cases depth with
  | zero => exact .inl rfl
  | succ depth =>
    obtain ⟨hc, hc'⟩ := nextBranch?_within hchildren hnext cs
    have hout : c.isBranch = true ∨ c.isAmong (n.child? "alternative").toList = true := by
      rcases Option.or_eq_some_iff.mp hc with h | ⟨-, h⟩
      · exact .inr (by simp [h, Node.isAmong])
      · exact .inl (List.find?_some h)
    have hsame (nodes : List Node) : List.Forall₂ (Rewritten n) nodes nodes :=
      List.forall₂_same.mpr fun _ _ => .inl rfl
    have hrewritten : List.Forall₂ (Rewritten n) n.children
        (pre ++ c.withChildren cs :: post) :=
      hchildren ▸ List.rel_append (hsame pre) (.cons (.inr ⟨hout, .withChildren c cs⟩) (hsame post))
    have hv : verdict source s (n.withChildren (pre ++ c.withChildren cs :: post)) =
        verdict source s n :=
      verdict_alike (hrewritten.imp fun _ _ => Rewritten.alike)
    refine covered_conditional hn hn hv (fun _ => ?_) fun _ => ?_
    · rw [Node.ownBody, Node.ownBody, branchBody_rewritten hrewritten]
      exact .refl _
    · rw [hc, hc']
      exact .some (h depth s)

theorem covered_body {n b : Node} {cs : List Node} (hd : (n.isScope || n.typeKind?.isSome) = true)
    (hchildren : n.children = pre ++ b :: post) (hb : b.field = some "body")
    (hpre : ∀ m ∈ pre, m.field ≠ some "body")
    (hattributes : b.kind = "attribute_list" →
      (b.withChildren cs).listedAttributes source = b.listedAttributes source)
    (h : ∀ (depth : Nat) (s : Symbols), Covered ((readAll source depth b.constructs).run s)
      ((readAll source depth (b.withChildren cs).constructs).run s)) (depth : Nat) (s : Symbols) :
    Covered ((readOne source depth n).run s)
      ((readOne source depth (n.withChildren (pre ++ b.withChildren cs :: post))).run s) := by
  cases depth with
  | zero => exact .inl rfl
  | succ depth =>
    obtain ⟨hbody, hbody'⟩ := body_within hchildren hb hpre cs
    cases hs : n.isScope with
    | true =>
      refine covered_scope hs (name?_within hchildren cs) rfl rfl ?_
      rw [Node.scopeMembers, Node.scopeMembers, hbody, hbody']
      exact h depth s
    | false =>
      cases hk : n.typeKind? with
      | none => simp [hs, hk] at hd
      | some kind =>
        refine covered_type hs hk (header_within hchildren cs hattributes) rfl ?_
        rw [Node.typeMembers, Node.typeMembers, hbody, hbody']
        exact h depth s

/-- What is wrapped is read to the same effect under all symbols, unless it gets too deep. -/
theorem Wrapped.covered (h : Wrapped source way n n') (depth : Nat) (s : Symbols) :
    Covered ((readAs source depth way n).run s) ((readAs source depth way n').run s) := by
  -- All symbols, not only those under which a rule reaches the neighbours: a node that is changed
  -- below can be read under others, as what stands before it may define some.
  induction h generalizing depth s with
  | run hv hchildren hw =>
    refine hv.covered ?_ depth s
    rw [hchildren]
    exact hw.replaces (fun _ => hv.named) _ _
  | child hv hchildren hc h ih =>
    obtain ⟨cs, rfl⟩ := h.withChildren
    refine hv.covered ?_ depth s
    rw [hchildren]
    exact replaces_child hc ((hv.withChildren _ cs).trans hc) ih _ _
  | next hn hchildren hnext h ih =>
    obtain ⟨cs, rfl⟩ := h.withChildren
    exact covered_next hn hchildren hnext ih depth s
  | body hd hchildren hb hpre hattributes h ih =>
    obtain ⟨cs, rfl⟩ := h.withChildren
    exact covered_body hd hchildren hb hpre hattributes ih depth s
  | broken hk h ih =>
    obtain ⟨cs, rfl⟩ := h.withChildren
    cases depth with
    | zero => exact .inl rfl
    | succ depth =>
      rw [readAs, readAs, readOne_broken hk, readOne_broken (n := Node.withChildren _ cs) hk]
      exact ih depth s
  | directive hp h ih =>
    obtain ⟨cs, rfl⟩ := h.withChildren
    cases depth with
    | zero => exact .inl rfl
    | succ depth =>
      rw [readAs, readAs, readOne_directive hp, readOne_directive (n := Node.withChildren _ cs) hp]
      exact ih depth s
  | transparent hn h ih =>
    obtain ⟨cs, rfl⟩ := h.withChildren
    cases depth with
    | zero => exact .inl rfl
    | succ depth => exact covered_transparent hn hn (ih depth s)

end

-- ---------------------------------------------------------------------------
-- Reading and analyzing
-- ---------------------------------------------------------------------------

theorem covered_of_wrapped (h : Relation.ReflTransGen (Wrapped source way) n n') (depth : Nat)
    (s : Symbols) :
    Covered ((readAs source depth way n).run s) ((readAs source depth way n').run s) := by
  induction h with
  | refl => exact .refl _
  | tail _ hlast ih => exact ih.trans (hlast.covered depth s)

def readTree (source : ByteArray) (tree : Concrete.Tree) :
    Except ParseError (List Declaration × Symbols) :=
  (readAll source depthLimit tree.root.constructs).run []

theorem ofTree_readTree (source path : String) {tree : Concrete.Tree}
    (hread : allowPartial = true ∨ tree.hasError = false) :
    ofTree allowPartial source path tree = (readTree source.toUTF8 tree).map fun read =>
      ⟨path, read.1, tree.hasError⟩ := by
  have hgate : (tree.hasError && !allowPartial) = false := by
    rcases hread with h | h <;> simp [h]
  rw [ofTree, hgate, declarationsOf, readTree]
  cases (readAll source.toUTF8 depthLimit tree.root.constructs).run [] <;> rfl

theorem ofTree_broken (source path : String) {tree : Concrete.Tree} (h : tree.hasError = true) :
    ofTree false source path tree = .error (.syntaxError tree.errorLine) := by
  rw [ofTree, h]
  rfl

/-- Wrapping neighbours, any number of times and anywhere in a tree, changes neither the symbols at
its end nor the outcome of its analysis, but for a tree that becomes too high to be read. A broken
tree that is not read in part is refused all the same, with the line of its own first broken
node. -/
theorem wrapping_unseen (source path : String) {tree tree' : Concrete.Tree}
    (h : Relation.ReflTransGen (Wrapped source.toUTF8 .contents) tree.root tree'.root) :
    (readTree source.toUTF8 tree' = .error .tooDeep ∧
        depthLimit ≤ 3 * Concrete.heights tree'.root.constructs ∨
      (readTree source.toUTF8 tree').map (·.2) = (readTree source.toUTF8 tree).map (·.2) ∧
      ∀ allowPartial, (allowPartial = true ∨ tree.hasError = false ∧ tree'.hasError = false) →
        ∀ markers fileScopedCounts,
          FileResult.ofOutline path markers fileScopedCounts
              (ofTree allowPartial source path tree') =
            FileResult.ofOutline path markers fileScopedCounts
              (ofTree allowPartial source path tree)) ∧
    (tree.hasError = true → tree'.hasError = true →
      ofTree false source path tree = .error (.syntaxError tree.errorLine) ∧
      ofTree false source path tree' = .error (.syntaxError tree'.errorLine)) := by
  refine ⟨?_, fun hbroken hbroken' => ⟨ofTree_broken _ _ hbroken, ofTree_broken _ _ hbroken'⟩⟩
  have hcovered : Covered (readTree source.toUTF8 tree) (readTree source.toUTF8 tree') :=
    covered_of_wrapped h depthLimit []
  rcases hcovered with hdeep | hread
  · exact .inl ⟨hdeep, height_of_tooDeep hdeep⟩
  refine .inr ⟨?_, fun allowPartial hpartial markers fileScopedCounts => ?_⟩
  · exact hread.elim (motive := fun x x' => x'.map (·.2) = x.map (·.2)) (fun _ => rfl)
      fun _ _ h => congrArg Except.ok h.2
  · rw [ofTree_readTree _ _ (hpartial.imp_right (·.1)),
      ofTree_readTree _ _ (hpartial.imp_right (·.2))]
    refine hread.elim (motive := fun x x' => FileResult.ofOutline path markers fileScopedCounts
      (x'.map _) = FileResult.ofOutline path markers fileScopedCounts (x.map _)) (fun _ => rfl) ?_
    intro read read' h
    have hanalyze := h.1.analyze ⟨path, [], tree'.hasError⟩ markers fileScopedCounts
    -- An analysis does not look at the flag.
    have hflag : (⟨path, read.1, tree'.hasError⟩ : Outline).analyze markers fileScopedCounts =
        (⟨path, read.1, tree.hasError⟩ : Outline).analyze markers fileScopedCounts := rfl
    simp only [Except.map, FileResult.ofOutline, hanalyze, hflag]

def unit (declared : List Node) : Node := .mk "compilation_unit" 0 79 0 none true false declared

def region (role : Option String) (within : List Node) : Node :=
  .mk "preproc_region" 42 76 0 role true false within

def broken (within : List Node) : Node := .mk "ERROR" 0 0 0 none true false within

theorem wraps_one {w : Node}
    (hkind : w.kind = "ERROR" ∨ w.kindBegins "preproc" = true ∧ w.directiveRole = .transparent)
    (hfield : w.field = none) (hnamed : w.named = true) (hw : w.constructs = [c])
    (hc : c.named = true) : Wraps (·.named) [c] w [] where
  kind := hkind
  field := hfield
  selected := hnamed
  constructs := by simp [hw, hc]
  walked d hd _ := by rw [List.mem_singleton.mp hd, hc]
  punctuation := nofun
  roles := by simp [hc]

theorem wrapped_only (n : Node) {c w : Node} (hn : n.children = [c])
    (hw : Wraps (·.named) [c] w []) : Wrapped source .contents n (n.withChildren [w]) :=
  .run (s := []) .contents (show n.children = [] ++ ([c] ++ []) from hn) hw

def bodyAround (members : List Node) : Node :=
  .mk "declaration_list" 41 77 0 (some "body") true false members

def classAround (members : List Node) : Node :=
  uncategorizedClass.withChildren (uncategorizedClass.children.take 3 ++ [bodyAround members])

def scopeAround (members : List Node) : Node :=
  .mk "namespace_declaration" 0 79 0 none true false [
    .mk "identifier" 10 11 0 (some "name") true false [],
    .mk "declaration_list" 12 79 0 (some "body") true false [classAround members]]

def wrappedTree : Concrete.Tree :=
  ⟨unit [broken [scopeAround [region none [uncategorizedMethod]]]], false⟩

theorem wrapped_tree : Relation.ReflTransGen (Wrapped uncategorizedText.toUTF8 .contents)
    uncategorizedTree.root wrappedTree.root := by
  have hmethod : Wrapped uncategorizedText.toUTF8 .contents (bodyAround [uncategorizedMethod])
      (bodyAround [region none [uncategorizedMethod]]) :=
    wrapped_only _ rfl (wraps_one (.inr (by decide)) rfl rfl rfl rfl)
  have hclass : Wrapped uncategorizedText.toUTF8 .item (classAround [uncategorizedMethod])
      (classAround [region none [uncategorizedMethod]]) :=
    .body rfl (show _ = uncategorizedClass.children.take 3 ++ bodyAround _ :: [] from rfl) rfl
      (by decide) (by decide) hmethod
  have hbody : Wrapped uncategorizedText.toUTF8 .contents
      (.mk "declaration_list" 12 79 0 (some "body") true false [classAround [uncategorizedMethod]])
      (.mk "declaration_list" 12 79 0 (some "body") true false
        [classAround [region none [uncategorizedMethod]]]) :=
    .child (s := []) .contents (show _ = [] ++ classAround _ :: [] from rfl) rfl hclass
  have hscope : Wrapped uncategorizedText.toUTF8 .item (scopeAround [uncategorizedMethod])
      (scopeAround [region none [uncategorizedMethod]]) :=
    .body rfl (show _ = [_] ++ _ :: [] from rfl) rfl (by decide) (by decide) hbody
  have hinside : Wrapped uncategorizedText.toUTF8 .contents
      (unit [scopeAround [uncategorizedMethod]])
      (unit [scopeAround [region none [uncategorizedMethod]]]) :=
    .child (s := []) .contents (show _ = [] ++ scopeAround _ :: [] from rfl) rfl hscope
  have haround : Wrapped uncategorizedText.toUTF8 .contents
      (unit [scopeAround [region none [uncategorizedMethod]]]) wrappedTree.root :=
    wrapped_only _ rfl (wraps_one (.inl rfl) rfl rfl rfl rfl)
  exact .tail (.single hinside) haround

/-- The finding is the same as without. -/
theorem wrapped_finding :
    Relation.ReflTransGen (Wrapped uncategorizedText.toUTF8 .contents) uncategorizedTree.root
      wrappedTree.root ∧
    FileResult.ofOutline "T.cs" {} false (ofTree false uncategorizedText "T.cs" wrappedTree) =
      ⟨"T.cs", "N", [⟨"N.C.M", "T.cs", 1⟩], none⟩ := by
  refine ⟨wrapped_tree, ?_⟩
  obtain ⟨⟨-, hdeep⟩ | ⟨-, hsame⟩, -⟩ := wrapping_unseen uncategorizedText "T.cs" wrapped_tree
  · exact absurd hdeep (by decide)
  · rw [hsame false (.inr ⟨rfl, rfl⟩), ofTree_uncategorized, FileResult.ofOutline,
      analyze_uncategorized]

def oddText : String := "TestClass public"

def oddAttribute : Node :=
  .mk "attribute" 0 9 0 none true false [.mk "identifier" 0 9 0 (some "name") true false []]

/-- A public class without a name, with a list of attributes as its body. -/
def oddClass (within : List Node) : Node :=
  .mk "class_declaration" 0 16 0 none true false [
    .mk "attribute_list" 0 9 0 (some "body") true false within,
    .mk "modifier" 10 16 0 none true false []]

def comment : Node := .mk "comment" 16 16 0 none true false []

def looseScope (within : List Node) : Node :=
  .mk "file_scoped_namespace_declaration" 0 16 0 none true false within

def brokenBelow : Node := .mk "ERROR" 16 16 1 none true false []

def outcome (hasError : Bool) (declared : List Node) : FileResult :=
  FileResult.ofOutline "T.cs" {} false (ofTree false oddText "T.cs" ⟨unit declared, hasError⟩)

def oddHeader : Header := ⟨none, ["public"], [⟨"TestClass", 1⟩], 1⟩

theorem outcome_of_reading {declared : List Node}
    (h : (readAll oddText.toUTF8 depthLimit (unit declared).constructs).run [] = .ok (ds, s)) :
    outcome false declared = FileResult.ofOutline "T.cs" {} false (.ok ⟨"T.cs", ds, false⟩) := by
  rw [outcome, ofTree_readTree oddText "T.cs" (.inr rfl), readTree, h]
  rfl

theorem outcome_odd : outcome false [oddClass [oddAttribute]] =
    ⟨"T.cs", "", [], some ⟨"T.cs", .analysis, (AnalysisError.unnamedClass 1).message⟩⟩ := by
  have hheader : (oddClass [oddAttribute]).header oddText.toUTF8 = oddHeader := by decide +kernel
  have hread : (readAll oddText.toUTF8 depthLimit
      (unit [oddClass [oddAttribute]]).constructs).run [] =
      .ok ([.type "class" ((oddClass [oddAttribute]).header oddText.toUTF8)
        [.other "attribute" 1]], []) := by rfl
  have hanalyze : Outline.analyze ⟨"T.cs", [.type "class" oddHeader [.other "attribute" 1]], false⟩
      {} false = .error (.unnamedClass 1) := by cbv
  rw [outcome_of_reading hread, hheader, FileResult.ofOutline, hanalyze]

theorem outcome_unattributed :
    outcome false [oddClass [region none [oddAttribute]]] = ⟨"T.cs", "", [], none⟩ := by
  have hheader : (oddClass [region none [oddAttribute]]).header oddText.toUTF8 =
      ⟨none, ["public"], [], 1⟩ := by decide +kernel
  have hread : (readAll oddText.toUTF8 depthLimit
      (unit [oddClass [region none [oddAttribute]]]).constructs).run [] =
      .ok ([.type "class" ((oddClass [region none [oddAttribute]]).header oddText.toUTF8) []],
        []) := by rfl
  rw [outcome_of_reading hread, hheader]
  cbv

theorem outcome_scope : outcome false [looseScope [comment, oddClass [oddAttribute]]] =
    ⟨"T.cs", "", [], some ⟨"T.cs", .analysis, (AnalysisError.unnamedClass 1).message⟩⟩ := by
  have hheader : (oddClass [oddAttribute]).header oddText.toUTF8 = oddHeader := by decide +kernel
  have hread : (readAll oddText.toUTF8 depthLimit
      (unit [looseScope [comment, oddClass [oddAttribute]]]).constructs).run [] =
      .ok ([.scope "" true 1 [.type "class" ((oddClass [oddAttribute]).header oddText.toUTF8)
        [.other "attribute" 1]]], []) := by rfl
  have hanalyze : Outline.analyze ⟨"T.cs",
      [.scope "" true 1 [.type "class" oddHeader [.other "attribute" 1]]], false⟩ {} false =
        .error (.unnamedClass 1) := by cbv
  rw [outcome_of_reading hread, hheader, FileResult.ofOutline, hanalyze]

theorem outcome_displaced :
    outcome false [looseScope [region (some "body") [comment], oddClass [oddAttribute]]] =
      ⟨"T.cs", "", [], none⟩ := by
  have hread : (readAll oddText.toUTF8 depthLimit (unit [looseScope
      [region (some "body") [comment], oddClass [oddAttribute]]]).constructs).run [] =
      .ok ([.scope "" true 1 []], []) := by rfl
  rw [outcome_of_reading hread]
  cbv

theorem outcome_broken (first : Node) : outcome true [first, brokenBelow] =
    ⟨"T.cs", "", [], some ⟨"T.cs", .parse, (ParseError.syntaxError
      (Concrete.Tree.errorLine ⟨unit [first, brokenBelow], true⟩)).message⟩⟩ := by
  rw [outcome, ofTree_broken oddText "T.cs" rfl]
  rfl

/-- A tree can become too high; attributes can stand in a body; a region can get a role by which
something else was told; and broken text is reported where it begins first. -/
theorem wrapping_exceptions :
    (Relation.ReflTransGen (Wrapped oddText.toUTF8 .contents) (unit [nestedRegions 0])
        (unit [nestedRegions depthLimit]) ∧
      readTree oddText.toUTF8 ⟨unit [nestedRegions 0], false⟩ = .ok ([], []) ∧
      readTree oddText.toUTF8 ⟨unit [nestedRegions depthLimit], false⟩ = .error .tooDeep) ∧
    outcome false [oddClass [region none [oddAttribute]]] ≠
      outcome false [oddClass [oddAttribute]] ∧
    outcome false [looseScope [region (some "body") [comment], oddClass [oddAttribute]]] ≠
      outcome false [looseScope [comment, oddClass [oddAttribute]]] ∧
    outcome true [broken [comment], brokenBelow] ≠ outcome true [comment, brokenBelow] := by
  have hnested (k : Nat) : Relation.ReflTransGen (Wrapped oddText.toUTF8 .contents)
      (unit [nestedRegions 0]) (unit [nestedRegions k]) := by
    induction k with
    | zero => exact .refl
    | succ k ih =>
      have hnamed : (nestedRegions k).named = true := by cases k <;> rfl
      have hwraps : Wraps (·.named) [nestedRegions k] (nestedRegions (k + 1)) [] :=
        wraps_one (.inl rfl) rfl rfl (constructs_nestedRegions k) hnamed
      exact .tail ih (wrapped_only _ rfl hwraps)
  refine ⟨⟨hnested depthLimit, rfl, ?_⟩, ?_, ?_, ?_⟩
  · have hconstructs : (unit [nestedRegions depthLimit]).constructs =
        [nestedRegions depthLimit] := rfl
    rw [readTree, hconstructs]
    exact readAll_nestedRegions _ _ _ (by decide)
  · rw [outcome_unattributed, outcome_odd]
    nofun
  · rw [outcome_displaced, outcome_scope]
    nofun
  · rw [outcome_broken, outcome_broken]
    have hfirst : Concrete.Tree.errorLine ⟨unit [broken [comment], brokenBelow], true⟩ = 1 := by
      simp [Concrete.Tree.errorLine, Concrete.firstBroken?, Node.isBroken, Node.kind, Node.missing,
        Node.children, Node.line, Node.row, unit, broken]
    have hbelow : Concrete.Tree.errorLine ⟨unit [comment, brokenBelow], true⟩ = 2 := by
      simp [Concrete.Tree.errorLine, Concrete.firstBroken?, Node.isBroken, Node.kind, Node.missing,
        Node.children, Node.line, Node.row, unit, comment, brokenBelow]
    rw [hfirst, hbelow]
    decide

end Outline

end CategoryAudit
