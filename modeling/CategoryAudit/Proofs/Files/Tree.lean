import CategoryAudit.Proofs.Files.Path

/-!
# Places in a file system

A place is a list of names below the root. In a tree whose directories have every name once, what a
path leads to is what stands at its place, `FileSystem.names` of the path (`lookup_place`), and two
trees that show the same at every place give the same for every path. Listing the entries of
directories in another order changes nothing that a tree shows (`Relisted.sight`).
-/

namespace CategoryAudit

-- ---------------------------------------------------------------------------
-- Proper trees
-- ---------------------------------------------------------------------------

/-- The entries of a directory and of all below it, each under a name of its own. -/
inductive Proper : List (String × Entry) → Prop
  | nil : Proper []
  | file : IsName name → (∀ e ∈ rest, e.1 ≠ name) → Proper rest →
      Proper ((name, .file bytes) :: rest)
  | directory : IsName name → (∀ e ∈ rest, e.1 ≠ name) → Proper nested → Proper rest →
      Proper ((name, .directory nested) :: rest)

theorem proper_cons : Proper ((name, e) :: rest) ↔ IsName name ∧ (∀ x ∈ rest, x.1 ≠ name) ∧
    (∀ nested, e = .directory nested → Proper nested) ∧ Proper rest := by
  constructor
  · intro h
    cases h with
    | file hn hf hr => exact ⟨hn, hf, nofun, hr⟩
    | directory hn hf hi hr =>
      refine ⟨hn, hf, ?_, hr⟩
      rintro nested ⟨⟩
      exact hi
  · rintro ⟨hn, hf, hi, hr⟩
    cases e with
    | file bytes => exact .file hn hf hr
    | directory nested => exact .directory hn hf (hi nested rfl) hr

def Entry.at? : Entry → List String → Option Entry
  | e, [] => some e
  | .file _, _ :: _ => none
  | .directory entries, name :: rest => (entries.lookup name).bind (·.at? rest)

theorem Entry.at?_append (e : Entry) (front rest : List String) :
    e.at? (front ++ rest) = (e.at? front).bind (·.at? rest) := by
  induction front generalizing e with
  | nil => cases e <;> rfl
  | cons name front ih =>
    cases e with
    | file _ => rfl
    | directory entries =>
      simp only [List.cons_append, at?]
      cases entries.lookup name with
      | none => rfl
      | some e => exact ih e

theorem Proper.lookup_name (h : Proper entries) (hl : entries.lookup name = some e) :
    IsName name := by
  induction h with
  | nil => cases hl
  | @file n _ _ hn _ _ ih | @directory n _ _ hn _ _ _ _ ih =>
    rw [List.lookup_cons] at hl
    cases hname : name == n with
    | true => exact (beq_iff_eq.mp hname) ▸ hn
    | false => rw [hname] at hl; exact ih hl

theorem Proper.lookup_nested (h : Proper entries)
    (hl : entries.lookup name = some (.directory nested)) : Proper nested := by
  induction h with
  | nil => cases hl
  | @file n _ _ _ _ _ ih =>
    rw [List.lookup_cons] at hl
    cases hname : name == n with
    | true => rw [hname] at hl; cases hl
    | false => rw [hname] at hl; exact ih hl
  | @directory n _ _ _ _ hi _ _ ih =>
    rw [List.lookup_cons] at hl
    cases hname : name == n with
    | true => rw [hname] at hl; cases hl; exact hi
    | false => rw [hname] at hl; exact ih hl

theorem Proper.at?_names (h : Proper entries)
    (ha : (Entry.directory entries).at? names = some e) : ∀ name ∈ names, IsName name := by
  induction names generalizing entries with
  | nil => nofun
  | cons name rest ih =>
    rw [Entry.at?] at ha
    obtain ⟨below, hl, ha⟩ := Option.bind_eq_some_iff.mp ha
    have hname := h.lookup_name hl
    intro n hn
    rcases List.mem_cons.mp hn with rfl | hn
    · exact hname
    · cases below with
      | file _ =>
        cases rest with
        | nil => cases hn
        | cons _ _ => cases ha
      | directory nested => exact ih (h.lookup_nested hl) ha n hn

theorem Proper.at?_nested (h : Proper entries)
    (ha : (Entry.directory entries).at? names = some (.directory nested)) : Proper nested := by
  induction names generalizing entries with
  | nil => cases ha; exact h
  | cons name rest ih =>
    rw [Entry.at?] at ha
    obtain ⟨below, hl, ha⟩ := Option.bind_eq_some_iff.mp ha
    cases below with
    | file _ =>
      cases rest with
      | nil => cases ha
      | cons _ _ => cases ha
    | directory entries => exact ih (h.lookup_nested hl) ha

-- ---------------------------------------------------------------------------
-- What a tree shows
-- ---------------------------------------------------------------------------

inductive Sight where
  | nothing
  | directory
  | file (bytes : List UInt8)
  deriving DecidableEq, Repr

namespace Sight

def ofFound : Option Entry → Sight
  | none => nothing
  | some (.directory _) => directory
  | some (.file bytes) => file bytes

def SameKind : Sight → Sight → Prop
  | nothing, nothing | directory, directory | file _, file _ => True
  | _, _ => False

theorem SameKind.refl (s : Sight) : s.SameKind s := by
  cases s <;> trivial

end Sight

def Entry.sight (e : Entry) (names : List String) : Sight := .ofFound (e.at? names)

def Entry.SameShape (top top' : Entry) : Prop :=
  ∀ names, (top.sight names).SameKind (top'.sight names)

theorem Entry.SameShape.at? {top top' : Entry} (h : top.SameShape top') (names : List String) :
    (top.at? names = none ∧ top'.at? names = none) ∨
    (∃ es es', top.at? names = some (.directory es) ∧ top'.at? names = some (.directory es')) ∨
    ∃ b b', top.at? names = some (.file b) ∧ top'.at? names = some (.file b') := by
  have hn := h names
  unfold Entry.sight at hn
  rcases ha : top.at? names with _ | ⟨⟨b⟩ | ⟨es⟩⟩ <;>
    rcases ha' : top'.at? names with _ | ⟨⟨b'⟩ | ⟨es'⟩⟩ <;>
    rw [ha, ha'] at hn <;> simp_all [Sight.ofFound, Sight.SameKind]

/-- Directories listed in another order, at any depth. -/
inductive Relisted : List (String × Entry) → List (String × Entry) → Prop
  | refl : Relisted entries entries
  | file : Relisted rest rest' →
      Relisted ((name, .file bytes) :: rest) ((name, .file bytes) :: rest')
  | directory : Relisted nested nested' → Relisted rest rest' →
      Relisted ((name, .directory nested) :: rest) ((name, .directory nested') :: rest')
  | swap : Relisted (a :: b :: rest) (b :: a :: rest)
  | trans : Relisted entries mid → Relisted mid entries' → Relisted entries entries'

theorem Relisted.names (h : Relisted entries entries') :
    entries'.map (·.1) ⊆ entries.map (·.1) := by
  induction h with
  | refl => exact List.Subset.refl _
  | file _ ih | directory _ _ _ ih => exact List.cons_subset_cons _ ih
  | swap => simp
  | trans _ _ ih ih' => exact List.Subset.trans ih' ih

inductive Relisted.Found : Option Entry → Option Entry → Prop
  | none : Found none none
  | file : Found (some (.file bytes)) (some (.file bytes))
  | directory : Relisted nested nested' →
      Found (some (.directory nested)) (some (.directory nested'))

theorem Relisted.Found.refl (o : Option Entry) : Found o o := by
  rcases o with _ | ⟨_ | _⟩
  · exact .none
  · exact .file
  · exact .directory .refl

theorem Relisted.Found.trans (h : Found a b) (h' : Found b c) : Found a c := by
  cases h with
  | none => exact h'
  | file => exact h'
  | directory h =>
    cases h' with
    | directory h' => exact .directory (h.trans h')

theorem Relisted.fresh (h : Relisted entries entries') (hf : ∀ e ∈ entries, e.1 ≠ name) :
    ∀ e ∈ entries', e.1 ≠ name := by
  intro e he heq
  obtain ⟨e', he', hn⟩ := List.mem_map.mp (h.names (List.mem_map.mpr ⟨e, he, rfl⟩))
  exact hf e' he' (hn.trans heq)

theorem Proper.relisted (hp : Proper entries) (h : Relisted entries entries') :
    Proper entries' := by
  induction h with
  | refl => exact hp
  | file h ih =>
    cases hp with
    | file hn hf hr => exact .file hn (h.fresh hf) (ih hr)
  | directory _ h ihi ih =>
    cases hp with
    | directory hn hf hi hr => exact .directory hn (h.fresh hf) (ihi hi) (ih hr)
  | @swap a b rest =>
    obtain ⟨ha, hfa, hia, hp⟩ := proper_cons.mp hp
    obtain ⟨hb, hfb, hib, hr⟩ := proper_cons.mp hp
    refine proper_cons.mpr ⟨hb, ?_, hib, proper_cons.mpr ⟨ha, ?_, hia, hr⟩⟩
    · intro x hx
      rcases List.mem_cons.mp hx with rfl | hx
      · exact (hfa b (by simp)).symm
      · exact hfb x hx
    · exact fun x hx => hfa x (List.mem_cons_of_mem _ hx)
  | trans _ _ ih ih' => exact ih' (ih hp)

theorem Relisted.lookup (h : Relisted entries entries') (hp : Proper entries) (name : String) :
    Found (entries.lookup name) (entries'.lookup name) := by
  induction h with
  | refl => exact .refl _
  | @file _ _ n _ _ ih =>
    rw [List.lookup_cons, List.lookup_cons]
    cases name == n with
    | true => exact .file
    | false => cases hp with | file _ _ hr => exact ih hr
  | @directory _ _ _ _ n hi _ _ ih =>
    rw [List.lookup_cons, List.lookup_cons]
    cases name == n with
    | true => exact .directory hi
    | false => cases hp with | directory _ _ _ hr => exact ih hr
  | @swap a b rest =>
    obtain ⟨-, hfa, -, -⟩ := proper_cons.mp hp
    rw [List.lookup_cons, List.lookup_cons, List.lookup_cons, List.lookup_cons]
    cases ha : name == a.1 with
    | false => exact .refl _
    | true =>
      have hb : (name == b.1) = false := by
        rw [beq_iff_eq.mp ha]
        exact beq_false_of_ne (hfa b (by simp)).symm
      rw [hb]
      exact .refl _
  | trans h _ ih ih' => exact (ih hp).trans (ih' (hp.relisted h))

/-- The order in which directories list their entries is not to be seen. -/
theorem Relisted.sight (h : Relisted entries entries') (hp : Proper entries)
    (names : List String) :
    (Entry.directory entries').sight names = (Entry.directory entries).sight names := by
  induction names generalizing entries entries' with
  | nil => rfl
  | cons name rest ih =>
    have hfound := h.lookup hp name
    unfold Entry.sight at ih ⊢
    rw [Entry.at?, Entry.at?]
    generalize hl : entries.lookup name = o at hfound ⊢
    generalize entries'.lookup name = o' at hfound ⊢
    cases hfound with
    | none => rfl
    | file => rfl
    | directory hi => exact ih hi (hp.lookup_nested hl)

-- ---------------------------------------------------------------------------
-- Where a path leads
-- ---------------------------------------------------------------------------

/-- An entry with the directories above it, nearest first, at the end of some names, given
backwards. -/
inductive Trail (top : Entry) : List String → Entry → List Entry → Prop
  | root : Trail top [] top []
  | into : Trail top done (.directory entries) above → entries.lookup name = some e →
      Trail top (name :: done) e (.directory entries :: above)

theorem Trail.at? (h : Trail top done here above) : top.at? done.reverse = some here := by
  induction h with
  | root => cases top <;> rfl
  | into _ hl ih =>
    rw [List.reverse_cons, Entry.at?_append, ih, Option.bind_some, Entry.at?, hl,
      Option.bind_some, Entry.at?]

/-- Stepping along a path in two trees of the same shape fails alike or ends at the same place. -/
theorem follow_trail {top top' : Entry} (hs : top.SameShape top') (ht : Trail top done here above)
    (ht' : Trail top' done here' above') (comps : List String) :
    (∃ err, FileSystem.follow here above comps = .error err ∧
      FileSystem.follow here' above' comps = .error err) ∨
    ∃ done₂ e a e' a', FileSystem.follow here above comps = .ok (e, a) ∧
      FileSystem.follow here' above' comps = .ok (e', a') ∧ Trail top done₂ e a ∧
      Trail top' done₂ e' a' ∧ Path.normalize done comps = done₂.reverse := by
  induction comps generalizing done here above here' above' with
  | nil => exact .inr ⟨done, here, above, here', above', rfl, rfl, ht, ht', rfl⟩
  | cons c rest ih =>
    have hplace := hs.at? done.reverse
    rw [ht.at?, ht'.at?] at hplace
    rcases hplace with ⟨hnone, -⟩ | ⟨es, es', he, he'⟩ | ⟨b, b', he, he'⟩
    · cases hnone
    · cases he
      cases he'
      simp only [FileSystem.follow, Path.normalize]
      by_cases hlong : FileSystem.nameLimit < c.utf8ByteSize
      · exact .inl ⟨.nameTooLong, by rw [if_pos hlong], by rw [if_pos hlong]⟩
      rw [if_neg hlong, if_neg hlong]
      by_cases hhere : (c == "" || c == ".") = true
      · rw [if_pos hhere, if_pos hhere, if_pos hhere]
        exact ih ht ht'
      rw [if_neg hhere, if_neg hhere, if_neg hhere]
      by_cases hup : (c == "..") = true
      · rw [if_pos hup, if_pos hup, if_pos hup]
        cases ht with
        | root =>
          cases ht' with
          | root => exact ih .root .root
        | into ht _ =>
          cases ht' with
          | into ht' _ => exact ih ht ht'
      rw [if_neg hup, if_neg hup, if_neg hup]
      -- The next name is found in both trees or in neither.
      have hnext := hs.at? (done.reverse ++ [c])
      rw [Entry.at?_append, Entry.at?_append, ht.at?, ht'.at?, Option.bind_some, Option.bind_some,
        Entry.at?, Entry.at?] at hnext
      cases hl : es.lookup c with
      | none =>
        cases hl' : es'.lookup c with
        | none => exact .inl ⟨.noSuchFile, rfl, rfl⟩
        | some e' => simp [hl, hl', Entry.at?] at hnext
      | some e =>
        cases hl' : es'.lookup c with
        | none => simp [hl, hl', Entry.at?] at hnext
        | some e' => exact ih (.into ht hl) (.into ht' hl')
    · cases he
      cases he'
      exact .inl ⟨.notDirectory, rfl, rfl⟩

namespace FileSystem

variable {fs fs' : FileSystem}

def top (fs : FileSystem) : Entry := .directory fs.root

theorem lookup_place (hs : fs.top.SameShape fs'.top) (hw : fs'.working = fs.working)
    (path : String) :
    (∃ err, fs.lookup path = .error err ∧ fs'.lookup path = .error err) ∨
    ∃ e e', fs.lookup path = .ok e ∧ fs'.lookup path = .ok e' ∧
      fs.top.at? (fs.names path) = some e ∧ fs'.top.at? (fs.names path) = some e' := by
  have hstart : fs'.start path = fs.start path := by rw [start, start, hw]
  unfold lookup
  rw [hstart]
  split
  · exact .inl ⟨_, rfl, rfl⟩
  split
  · exact .inl ⟨_, rfl, rfl⟩
  rcases follow_trail hs .root .root (fs.start path ++ Path.components path) with
    ⟨err, h, h'⟩ | ⟨done, e, a, e', a', h, h', ht, ht', hd⟩
  · exact .inl ⟨err, by rw [← top, h]; rfl, by rw [← top, h']; rfl⟩
  · refine .inr ⟨e, e', by rw [← top, h]; rfl, by rw [← top, h']; rfl, ?_, ?_⟩
    · rw [names, hd]; exact ht.at?
    · rw [names, hd]; exact ht'.at?

theorem lookup_sameShape (hs : fs.top.SameShape fs'.top) (hw : fs'.working = fs.working)
    (path : String) :
    (∃ err, fs.lookup path = .error err ∧ fs'.lookup path = .error err) ∨
    (∃ es es', (fs.lookup path = .ok (.directory es) ∧ fs'.lookup path = .ok (.directory es')) ∧
      fs.top.at? (fs.names path) = some (.directory es) ∧
      fs'.top.at? (fs.names path) = some (.directory es')) ∨
    ∃ b b', (fs.lookup path = .ok (.file b) ∧ fs'.lookup path = .ok (.file b')) ∧
      fs.top.at? (fs.names path) = some (.file b) ∧
      fs'.top.at? (fs.names path) = some (.file b') := by
  rcases lookup_place hs hw path with herr | ⟨e, e', h, h', ha, ha'⟩
  · exact .inl herr
  rcases hs.at? (fs.names path) with ⟨hnone, -⟩ | ⟨es, es', hd, hd'⟩ | ⟨b, b', hf, hf'⟩
  · rw [hnone] at ha
    cases ha
  · obtain rfl : e = .directory es := Option.some.inj (ha.symm.trans hd)
    obtain rfl : e' = .directory es' := Option.some.inj (ha'.symm.trans hd')
    exact .inr (.inl ⟨es, es', ⟨h, h'⟩, hd, hd'⟩)
  · obtain rfl : e = .file b := Option.some.inj (ha.symm.trans hf)
    obtain rfl : e' = .file b' := Option.some.inj (ha'.symm.trans hf')
    exact .inr (.inr ⟨b, b', ⟨h, h'⟩, hf, hf'⟩)

theorem at?_of_lookup (h : fs.lookup path = .ok e) : fs.top.at? (fs.names path) = some e := by
  have hs : fs.top.SameShape fs.top := fun names => .refl _
  rcases lookup_place hs rfl path with ⟨err, he, -⟩ | ⟨e', -, he, -, ha, -⟩
  · rw [h] at he; cases he
  · rw [h] at he; cases he; exact ha

end FileSystem

end CategoryAudit
