import CategoryAudit.Proofs.Files.Collect
import CategoryAudit.Proofs.Files.Write

/-!
# Reading and writing after a write

Writing a file again changes nothing (`write_again`). After it is written, every path that led to
something still leads to the same kind of thing, and a path to another file leads to the same file
(`HasFile.lookup_found`). A directory whose walk would leave the written file out gives the same
files, which are read alike (`HasFile.collect`): below a directory, nothing but the length of a path
or a name keeps a file from being read (`lookup_below`).
-/

namespace CategoryAudit

/-- The condition on a file with these names below a project directory to be collected, whether it
is there or not. -/
structure Config.Admits (c : Config) (below : List String) : Prop where
  suffix : Text.lower (Path.suffix (below.getLastD "")) ∈ c.extensions
  kept : ∀ front, front ≠ [] → front <+: below → ∀ pattern ∈ c.exclude,
    Glob.accepts pattern ("/".intercalate front) = false ∧
      Glob.accepts pattern (front.getLastD "") = false

theorem Config.selects_iff {c : Config} : c.Selects entries below ↔
    (∃ bytes, (Entry.directory entries).at? below = some (.file bytes)) ∧ c.Admits below :=
  ⟨fun ⟨hfile, hsuffix, hkept⟩ => ⟨hfile, hsuffix, hkept⟩,
    fun ⟨hfile, hsuffix, hkept⟩ => ⟨hfile, hsuffix, hkept⟩⟩

namespace FileSystem

-- ---------------------------------------------------------------------------
-- Writing again
-- ---------------------------------------------------------------------------

theorem put_put (name : String) (e e' : Entry) (entries : List (String × Entry)) :
    put name e (put name e' entries) = put name e entries := by
  induction entries with
  | nil => simp [put]
  | cons first rest ih =>
    obtain ⟨m, d⟩ := first
    by_cases hm : m = name
    · simp [put, hm]
    · simp [put, hm, ih]

theorem Placed.change (h : Placed bytes spot entries entries') :
    FileSystem.change false (overwrite bytes) spot entries = .ok entries' := by
  induction h with
  | @here entries name hno =>
    rcases hl : entries.lookup name with _ | ⟨old | nested⟩
    · simp only [FileSystem.change, hl]
      rfl
    · simp only [FileSystem.change, hl]
      rfl
    · exact absurd hl (hno nested)
  | @within entries nested nested' name rest hl hrest ih =>
    obtain ⟨next, rest, rfl⟩ := List.exists_cons_of_ne_nil hrest.ne_nil
    simp only [FileSystem.change, hl, ih]
    rfl

theorem Placed.again (h : Placed bytes spot entries entries') :
    Placed bytes spot entries' entries' := by
  induction h with
  | @here entries name hno =>
    have hagain : Placed bytes [name] (put name (.file bytes) entries)
        (put name (.file bytes) (put name (.file bytes) entries)) :=
      .here (by simp [lookup_put])
    rwa [put_put] at hagain
  | @within entries nested nested' name rest hl _ ih =>
    have hagain : Placed bytes (name :: rest) (put name (.directory nested') entries)
        (put name (.directory nested') (put name (.directory nested') entries)) :=
      .within (by simp [lookup_put]) ih
    rwa [put_put] at hagain

theorem put_fresh (hm : m ≠ name) (h : ∀ x ∈ entries, x.1 ≠ m) (e : Entry) :
    ∀ x ∈ put name e entries, x.1 ≠ m := by
  induction entries with
  | nil => simpa [put] using hm.symm
  | cons first rest ih =>
    rw [List.forall_mem_cons] at h
    rw [put]
    split
    · exact List.forall_mem_cons.mpr ⟨hm.symm, h.2⟩
    · exact List.forall_mem_cons.mpr ⟨h.1, ih h.2⟩

theorem proper_put (h : Proper entries) (hname : IsName name)
    (he : ∀ nested, e = .directory nested → Proper nested) : Proper (put name e entries) := by
  induction entries with
  | nil => exact proper_cons.mpr ⟨hname, nofun, he, .nil⟩
  | cons first rest ih =>
    obtain ⟨m, d⟩ := first
    obtain ⟨hm, hf, hd, hrest⟩ := proper_cons.mp h
    by_cases heq : m = name
    · subst heq
      rw [put, if_pos (by simp)]
      exact proper_cons.mpr ⟨hm, hf, he, hrest⟩
    · rw [put, if_neg (by simpa using heq)]
      exact proper_cons.mpr ⟨hm, put_fresh heq hf e, hd, ih hrest⟩

theorem Placed.proper (h : Placed bytes spot entries entries') (hp : Proper entries)
    (hname : IsName (spot.getLastD "")) : Proper entries' := by
  induction h with
  | here _ => exact proper_put hp hname nofun
  | @within entries nested nested' name rest hl hrest ih =>
    obtain ⟨next, rest, rfl⟩ := List.exists_cons_of_ne_nil hrest.ne_nil
    have hnested := ih (hp.lookup_nested hl) hname
    refine proper_put hp (hp.lookup_name hl) ?_
    rintro _ ⟨⟩
    exact hnested

variable {fs fs' : FileSystem}

theorem proper_of_write (hp : Proper fs.root) (h : fs.write path bytes = .ok fs') :
    Proper fs'.root := by
  obtain ⟨front, name, hwritable, -⟩ := write_ok h
  have hname : IsName ((fs.names path).getLastD "") := by
    rw [hwritable.names, List.getLastD_concat]
    exact hwritable.isName
  exact (placed_of_write h).1.proper hp hname

theorem namesDirectory_of_name (h : Path.components path = front ++ [name]) (hname : IsName name) :
    namesDirectory path = false := by
  simp [namesDirectory, h, hname.ne_empty, hname.ne_here, hname.ne_up]

theorem Writable.write (h : fs.Writable path front name) (bytes : List UInt8) :
    fs.write path bytes = fs.update path false (overwrite bytes) := by
  obtain ⟨entries, above, hfollow⟩ := h.directory
  rw [top] at hfollow
  rw [FileSystem.write, if_neg (by simpa using ⟨h.ne_empty, h.noNull⟩),
    if_neg (Nat.not_lt.mpr h.short)]
  simp only [h.components, ← List.append_assoc, withoutSlashes_name _ h.isName,
    List.dropLast_concat, hfollow, bind, Except.bind, namesDirectory_of_name h.components h.isName,
    List.getLastD_concat, Nat.not_lt.mpr h.shortName, if_false, Bool.false_eq_true]

theorem Writable.kept (h : fs.Writable path front name) (hk : KeepsDirectories fs.top fs'.top)
    (hw : fs'.working = fs.working) : fs'.Writable path front name := by
  obtain ⟨entries, above, hfollow⟩ := h.directory
  obtain ⟨-, entries', above', hfollow', -, -⟩ := hk.follow_directory .root .root hfollow
  exact { h with directory := ⟨entries', above', start_of_working hw path ▸ hfollow'⟩ }

theorem write_again (h : fs.write path bytes = .ok fs') : fs'.write path bytes = .ok fs' := by
  obtain ⟨front, name, hwritable, -⟩ := write_ok h
  obtain ⟨hplaced, hw⟩ := placed_of_write h
  have hfile : HasFile (fs.names path) bytes fs.top fs'.top := hplaced.hasFile
  rw [(hwritable.kept hfile.keepsDirectories hw).write, update, names_of_working hw,
    hplaced.again.change]
  rfl

-- ---------------------------------------------------------------------------
-- Where paths lead
-- ---------------------------------------------------------------------------

theorem lookup_kept (hk : KeepsDirectories fs.top fs'.top) (hw : fs'.working = fs.working)
    (h : fs.lookup path = .ok e) (hthere : fs'.top.at? (fs.names path) = some e') :
    fs'.lookup path = .ok e' := by
  unfold lookup at h ⊢
  rw [start_of_working hw]
  split at h
  · cases h
  rename_i hne
  split at h
  · cases h
  rename_i hshort
  rw [if_neg hne, if_neg hshort]
  cases hfollow : follow (.directory fs.root) [] (fs.start path ++ Path.components path) with
  | error err => rw [hfollow] at h; cases h
  | ok found =>
    obtain ⟨done, found', above', hfollow', -, htrail', hplace⟩ :=
      hk.follow .root .root hfollow (by rw [← names, hthere]; exact Option.some_ne_none e')
    rw [← top, hfollow']
    rw [names, hplace, htrail'.at?] at hthere
    exact congrArg Except.ok (Option.some.inj hthere)

theorem ofFound_eq_file {found : Option Entry} :
    Sight.ofFound found = .file bytes ↔ found = some (.file bytes) := by
  rcases found with _ | ⟨_ | _⟩ <;> simp [Sight.ofFound]

theorem HasFile.at?_file {top top' : Entry} (hfile : HasFile spot bytes top top')
    (hne : others ≠ spot) (contents : List UInt8) :
    top'.at? others = some (.file contents) ↔ top.at? others = some (.file contents) := by
  have hsame := hfile.elsewhere others hne
  rw [Entry.sight, Entry.sight] at hsame
  rw [← ofFound_eq_file, ← ofFound_eq_file, hsame]

section
variable (hfile : HasFile spot bytes fs.top fs'.top) (hw : fs'.working = fs.working)
include hfile

theorem HasFile.keepsDirectories_back : KeepsDirectories fs'.top fs.top := by
  intro others hdir
  by_cases hspot : others = spot
  · rw [hspot, Entry.sight, hfile.here] at hdir
    cases hdir
  · rw [← hfile.elsewhere others hspot, hdir]

include hw

/-- What a path leads to is of the same kind after a file is written, and a file other than the one
written is the same. -/
theorem HasFile.lookup_found (h : fs.lookup path = .ok e) :
    (∃ es es', e = .directory es ∧ fs'.lookup path = .ok (.directory es')) ∨
    ∃ b b', e = .file b ∧ fs'.lookup path = .ok (.file b') ∧ (fs.names path ≠ spot → b' = b) := by
  have hat := at?_of_lookup h
  have hkept {e' : Entry} (hthere : fs'.top.at? (fs.names path) = some e') :
      fs'.lookup path = .ok e' := lookup_kept hfile.keepsDirectories hw h hthere
  cases e with
  | directory es =>
    obtain ⟨es', hes'⟩ := hfile.keepsDirectories.at? hat
    exact .inl ⟨es, es', rfl, hkept hes'⟩
  | file b =>
    by_cases hspot : fs.names path = spot
    · exact .inr ⟨b, bytes, rfl, hkept (hspot ▸ hfile.here), fun hne => absurd hspot hne⟩
    · exact .inr ⟨b, b, rfl, hkept ((hfile.at?_file hspot b).mpr hat), fun _ => rfl⟩

theorem HasFile.lookup_back (hne : fs.names path ≠ spot) (h : fs'.lookup path = .ok e') :
    ∃ e, fs.lookup path = .ok e := by
  have hnames := names_of_working hw path
  have hsame := hfile.elsewhere _ hne
  rw [Entry.sight, Entry.sight, ← hnames, at?_of_lookup h] at hsame
  cases hat : fs.top.at? (fs'.names path) with
  | none => rw [hat] at hsame; cases e' <;> cases hsame
  | some e => exact ⟨e, lookup_kept hfile.keepsDirectories_back hw.symm h hat⟩

theorem HasFile.isFile (hne : fs.names path ≠ spot) : fs'.isFile path = fs.isFile path := by
  rw [FileSystem.isFile, FileSystem.isFile]
  cases hl : fs.lookup path with
  | ok e =>
    rcases hfile.lookup_found hw hl with ⟨es, es', rfl, hl'⟩ | ⟨b, b', rfl, hl', -⟩
    · rw [hl']
    · rw [hl']
  | error err =>
    cases hl' : fs'.lookup path with
    | error err' => rfl
    | ok e' =>
      obtain ⟨e, he⟩ := hfile.lookup_back hw hne hl'
      cases hl.symm.trans he

theorem HasFile.read (hne : fs.names path ≠ spot) (h : fs.read path = .ok contents) :
    fs'.read path = .ok contents := by
  unfold FileSystem.read at h ⊢
  cases hl : fs.lookup path with
  | error err => rw [hl] at h; cases h
  | ok e =>
    rw [hl] at h
    rcases hfile.lookup_found hw hl with ⟨es, es', rfl, -⟩ | ⟨b, b', rfl, hl', hsame⟩
    · cases h
    · rw [hl', hsame hne]
      exact h

end

-- ---------------------------------------------------------------------------
-- Files below a directory
-- ---------------------------------------------------------------------------

section
variable {below : List String} (hnames : ∀ name ∈ below, IsName name)
include hnames

theorem follow_names (h : here.at? below = some e) (above : List Entry) :
    (follow here above below).map (·.1) =
      if ∀ name ∈ below, name.utf8ByteSize ≤ nameLimit then .ok e else .error .nameTooLong := by
  induction below generalizing here above with
  | nil =>
    obtain rfl : here = e := by cases here <;> exact Option.some.inj h
    rw [if_pos nofun]
    rfl
  | cons name rest ih =>
    cases here with
    | file _ => cases h
    | directory entries =>
      rw [Entry.at?] at h
      obtain ⟨next, hl, hnext⟩ := Option.bind_eq_some_iff.mp h
      have hname := hnames name (by simp)
      by_cases hshort : name.utf8ByteSize ≤ nameLimit
      · have hstep : follow (.directory entries) above (name :: rest) =
            follow next (.directory entries :: above) rest := by
          simp [follow, Nat.not_lt.mpr hshort, hname.ne_empty, hname.ne_here, hname.ne_up, hl]
        rw [hstep, ih (fun n hn => hnames n (by simp [hn])) hnext]
        simp [hshort]
      · rw [if_neg fun hall => hshort (hall name (by simp))]
        simp [follow, Nat.lt_of_not_le hshort, Except.map]

end

theorem follow_empty (here : Entry) (above : List Entry) (name : String) :
    ((follow here above [""]).bind fun (e, a) => follow e a [name]) = follow here above [name] := by
  cases here with
  | file _ => rfl
  | directory entries => rfl

theorem foldl_join_ne_empty (hd : directory ≠ "") (below : List String) :
    below.foldl Path.join directory ≠ "" := by
  induction below generalizing directory with
  | nil => exact hd
  | cons name rest ih => exact ih (Path.join_ne_empty hd name)

theorem start_join (hd : directory ≠ "") (name : String) :
    fs.start (Path.join directory name) = fs.start directory := by
  rw [start, start, Path.isAbsolute_join hd]

theorem follow_join_one (hd : directory ≠ "") (hname : IsName name) (here : Entry)
    (above : List Entry) :
    follow here above (fs.start (Path.join directory name) ++
        Path.components (Path.join directory name)) =
      (follow here above (fs.start directory ++ Path.components directory)).bind
        fun (e, a) => follow e a [name] := by
  rw [start_join hd, Path.join]
  cases hend : Path.endsInSlash directory with
  | true =>
    obtain ⟨front, hfront, hlast⟩ := Path.components_append hname hend
    rw [if_pos (by simp), hfront, hlast, ← List.append_assoc, ← List.append_assoc,
      follow_append here above (fs.start directory ++ front) [name],
      follow_append here above (fs.start directory ++ front) [""]]
    cases follow here above (fs.start directory ++ front) with
    | error err => rfl
    | ok found => exact (follow_empty found.1 found.2 name).symm
  | false =>
    rw [if_neg (by simp [hd]), Path.components_slash _ _ hname, ← List.append_assoc, follow_append]

theorem follow_join {below : List String} (hnames : ∀ name ∈ below, IsName name)
    (hd : directory ≠ "") (here : Entry) (above : List Entry) :
    follow here above (fs.start (below.foldl Path.join directory) ++
        Path.components (below.foldl Path.join directory)) =
      (follow here above (fs.start directory ++ Path.components directory)).bind
        fun (e, a) => follow e a below := by
  induction below generalizing directory with
  | nil =>
    cases h : follow here above (fs.start directory ++ Path.components directory) <;>
      simp [h, Except.bind, follow]
  | cons name rest ih =>
    rw [List.foldl_cons, ih (fun n hn => hnames n (by simp [hn])) (Path.join_ne_empty hd name),
      follow_join_one hd (hnames name (by simp))]
    cases follow here above (fs.start directory ++ Path.components directory) with
    | error err => rfl
    | ok found => exact (follow_append found.1 found.2 [name] rest).symm

theorem follow_of_lookup (h : fs.lookup path = .ok e) :
    ∃ above, follow fs.top [] (fs.start path ++ Path.components path) = .ok (e, above) := by
  unfold lookup at h
  split at h
  · cases h
  split at h
  · cases h
  rw [← top] at h
  cases hfollow : follow fs.top [] (fs.start path ++ Path.components path) with
  | error err => rw [hfollow] at h; cases h
  | ok found =>
    rw [hfollow] at h
    cases h
    exact ⟨found.2, rfl⟩

/-- Looking up names below a directory fails only for a path or a name that is too long. -/
theorem lookup_below (hl : fs.lookup directory = .ok here) (hnames : ∀ name ∈ below, IsName name)
    (h : here.at? below = some e) :
    fs.lookup (below.foldl Path.join directory) =
      if (below.foldl Path.join directory).utf8ByteSize ≤ pathLimit ∧
          ∀ name ∈ below, name.utf8ByteSize ≤ nameLimit then .ok e
      else .error .nameTooLong := by
  have hd : directory ≠ "" := ne_empty_of_lookup hl
  obtain ⟨above, hfollow⟩ := follow_of_lookup hl
  have hpath : below.foldl Path.join directory ≠ "" := foldl_join_ne_empty hd below
  rw [lookup, if_neg (by simpa using hpath)]
  by_cases hshort : (below.foldl Path.join directory).utf8ByteSize ≤ pathLimit
  · rw [if_neg (Nat.not_lt.mpr hshort), ← top, follow_join hnames hd, hfollow]
    simp only [hshort, true_and]
    exact follow_names hnames h above
  · rw [if_pos (Nat.lt_of_not_le hshort), if_neg fun hall => hshort hall.1]

-- ---------------------------------------------------------------------------
-- Collecting
-- ---------------------------------------------------------------------------

/-- A directory whose walk would leave out the written file gives the same files, which are read
alike. -/
theorem HasFile.collect (hfile : HasFile spot bytes fs.top fs'.top)
    (hw : fs'.working = fs.working) (hp : Proper fs.root) (hp' : Proper fs'.root) {c : Config}
    (hout : ∀ below, spot = fs.names directory ++ below → ¬ c.Admits below) :
    fs'.collect c directory = fs.collect c directory ∧
      ∀ path ∈ fs.collect c directory, fs'.read path = fs.read path := by
  cases hl : fs.lookup directory with
  | error err =>
    have hnone : fs.collect c directory = [] := by rw [FileSystem.collect, hl]
    rw [hnone, FileSystem.collect]
    refine ⟨?_, by simp⟩
    cases hl' : fs'.lookup directory with
    | error err' => rfl
    | ok e' =>
      -- A directory can only come to be there as the written file, and then it is none.
      have hspot : fs.names directory = spot := by
        by_contra hne
        obtain ⟨e, he⟩ := hfile.lookup_back hw hne hl'
        cases hl.symm.trans he
      have hat := at?_of_lookup hl'
      rw [names_of_working hw, hspot, hfile.here] at hat
      cases hat
      rfl
  | ok e =>
    rcases hfile.lookup_found hw hl with ⟨es, es', rfl, hl'⟩ | ⟨b, b', rfl, hl', -⟩
    · obtain ⟨files, -, hmem, heq, hsorted⟩ := collect_eq hp c hl
      obtain ⟨files', -, hmem', heq', hsorted'⟩ := collect_eq hp' c hl'
      have hat := at?_of_lookup hl
      have hat' := at?_of_lookup hl'
      rw [names_of_working hw] at hat'
      -- The trees differ at one place below the directory at most, and the walk leaves that out.
      have hbelow {below : List String} (ha : c.Admits below) (contents : List UInt8) :
          (Entry.directory es').at? below = some (.file contents) ↔
            (Entry.directory es).at? below = some (.file contents) := by
        have hne : fs.names directory ++ below ≠ spot := fun h => hout below h.symm ha
        have hfound := hfile.at?_file hne contents
        simpa [Entry.at?_append, hat, hat'] using hfound
      have hkeys : fs'.absoluteBelow directory = fs.absoluteBelow directory := by
        funext below
        rw [absoluteBelow, absoluteBelow, hw]
      rw [hkeys] at hsorted'
      have hsame : files' = files := by
        refine files_unique hsorted hsorted' fun below => ?_
        rw [hmem, hmem', Config.selects_iff, Config.selects_iff]
        exact and_congr_left fun ha => exists_congr fun contents => hbelow ha contents
      refine ⟨by rw [heq, heq', hsame], fun path hpath => ?_⟩
      rw [heq] at hpath
      obtain ⟨below, hselected, rfl⟩ := List.mem_map.mp hpath
      obtain ⟨⟨contents, hcontents⟩, ha⟩ := Config.selects_iff.mp ((hmem below).mp hselected)
      have hnames := (proper_of_lookup hp hl).at?_names hcontents
      rw [FileSystem.read, FileSystem.read, lookup_below hl hnames hcontents,
        lookup_below hl' hnames ((hbelow ha contents).mpr hcontents)]
    · rw [FileSystem.collect, FileSystem.collect, hl, hl']
      exact ⟨rfl, by simp⟩

end FileSystem

end CategoryAudit
