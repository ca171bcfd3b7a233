import CategoryAudit.Collect
import CategoryAudit.Proofs.Files.Tree

/-!
# Which files are collected

Collecting walks down the directories and leaves out what a pattern excludes. It comes to the same
as a condition on each file by itself: its suffix, and the paths of the entries on the way to it
(`collect_exact`). Only the places of the files matter, not the order in which directories list
them, and no file is collected twice.
-/

namespace CategoryAudit

namespace Config

def keeps (c : Config) (relative : String) : List String → Bool
  | [] => true
  | name :: rest =>
    !c.omits (Path.below relative name) name && c.keeps (Path.below relative name) rest

structure Selects (c : Config) (entries : List (String × Entry)) (names : List String) : Prop where
  isFile : ∃ bytes, (Entry.directory entries).at? names = some (.file bytes)
  suffix : Text.lower (Path.suffix (names.getLastD "")) ∈ c.extensions
  /-- No pattern stands for the relative path or the name of the file or of a directory above. -/
  kept : ∀ front, front ≠ [] → front <+: names → ∀ pattern ∈ c.exclude,
    Glob.accepts pattern ("/".intercalate front) = false ∧
      Glob.accepts pattern (front.getLastD "") = false

-- ---------------------------------------------------------------------------
-- Patterns on the way
-- ---------------------------------------------------------------------------

theorem keeps_iff (c : Config) (relative : String) (names : List String) :
    c.keeps relative names = true ↔ ∀ front, front ≠ [] → front <+: names →
      c.omits (front.foldl Path.below relative) (front.getLastD "") = false := by
  induction names generalizing relative with
  | nil => simp +contextual [keeps]
  | cons name rest ih =>
    rw [keeps, Bool.and_eq_true, Bool.not_eq_true', ih]
    constructor
    · rintro ⟨hname, hrest⟩ front hne hfront
      cases front with
      | nil => exact absurd rfl hne
      | cons n front =>
        obtain ⟨rfl, hbelow⟩ := List.cons_prefix_cons.mp hfront
        cases front with
        | nil => exact hname
        | cons m front => exact hrest _ (by simp) hbelow
    · intro h
      refine ⟨h [name] (by simp) (by simp), ?_⟩
      intro front hne hfront
      have hlast : (name :: front).getLastD "" = front.getLastD "" := by
        cases front with
        | nil => exact absurd rfl hne
        | cons m front => rfl
      exact hlast ▸ h (name :: front) (by simp) (by simpa using hfront)

theorem omits_eq_false (c : Config) (relative name : String) :
    c.omits relative name = false ↔ ∀ pattern ∈ c.exclude,
      Glob.accepts pattern relative = false ∧ Glob.accepts pattern name = false := by
  simp [omits, Glob.excludes]

theorem keeps_of_names (c : Config) (h : ∀ name ∈ names, IsName name) :
    c.keeps "" names = true ↔ ∀ front, front ≠ [] → front <+: names → ∀ pattern ∈ c.exclude,
      Glob.accepts pattern ("/".intercalate front) = false ∧
        Glob.accepts pattern (front.getLastD "") = false := by
  rw [keeps_iff]
  refine forall_congr' fun front => forall_congr' fun _ => forall_congr' fun hfront => ?_
  have hnames : ∀ name ∈ front, IsName name := fun n hn => h n (hfront.subset hn)
  rw [omits_eq_false, Path.below_eq_intercalate hnames]

end Config

-- ---------------------------------------------------------------------------
-- The walk
-- ---------------------------------------------------------------------------

theorem at?_cons (name m : String) (e : Entry) (rest : List (String × Entry)) (ms : List String) :
    (Entry.directory ((name, e) :: rest)).at? (m :: ms) =
      if m = name then e.at? ms else (Entry.directory rest).at? (m :: ms) := by
  rw [Entry.at?, Entry.at?, List.lookup_cons]
  by_cases h : m = name
  · rw [if_pos h, beq_iff_eq.mpr h, Option.bind_some]
  · rw [if_neg h, beq_false_of_ne h]

theorem at?_fresh (h : ∀ x ∈ rest, x.1 ≠ name) (ms : List String) :
    (Entry.directory rest).at? (name :: ms) = none := by
  have hl : rest.lookup name = none := by
    rw [List.lookup_eq_none_iff]
    exact fun x hx => by simpa using (h x hx).symm
  rw [Entry.at?, hl, Option.bind_none]

/-- The file at some names is collected by a walk that begins with the given path. -/
def Collected (c : Config) (relative : String) (entries : List (String × Entry))
    (names : List String) : Prop :=
  (∃ bytes, (Entry.directory entries).at? names = some (.file bytes)) ∧
    c.selects (names.getLastD "") = true ∧ c.keeps relative names = true

theorem not_collected_fresh (h : ∀ x ∈ rest, x.1 ≠ name) (ms : List String) :
    ¬ Collected c relative rest (name :: ms) := by
  rintro ⟨⟨bytes, hb⟩, -⟩
  rw [at?_fresh h] at hb
  cases hb

theorem not_collected_nil (entries : List (String × Entry)) :
    ¬ Collected c relative entries [] := by
  rintro ⟨⟨bytes, hb⟩, -⟩
  cases hb

theorem collected_file (hf : ∀ x ∈ rest, x.1 ≠ name) (names : List String) :
    Collected c relative ((name, .file bytes) :: rest) names ↔
      (names = [name] ∧ (c.selects name && !c.omits (Path.below relative name) name) = true) ∨
        Collected c relative rest names := by
  cases names with
  | nil => simp [not_collected_nil]
  | cons m ms =>
    by_cases hm : m = name
    · subst hm
      rw [or_iff_left (not_collected_fresh hf ms), Collected, at?_cons, if_pos rfl]
      cases ms with
      | nil => simp [Entry.at?, Config.keeps]
      | cons _ _ => simp [Entry.at?]
    · rw [Collected, Collected, at?_cons, if_neg hm]
      simp [hm]

theorem collected_directory (hf : ∀ x ∈ rest, x.1 ≠ name) (names : List String) :
    Collected c relative ((name, .directory nested) :: rest) names ↔
      (∃ ms, names = name :: ms ∧ c.omits (Path.below relative name) name = false ∧
        Collected c (Path.below relative name) nested ms) ∨ Collected c relative rest names := by
  cases names with
  | nil => simp [not_collected_nil]
  | cons m ms =>
    by_cases hm : m = name
    · subst hm
      rw [or_iff_left (not_collected_fresh hf ms), Collected, at?_cons, if_pos rfl]
      cases ms with
      | nil => simp [Entry.at?, not_collected_nil]
      | cons n ms =>
        have hlast : (m :: n :: ms).getLastD "" = (n :: ms).getLastD "" := rfl
        rw [Config.keeps, hlast]
        simp [Collected, and_left_comm]
    · rw [Collected, Collected, at?_cons, if_neg hm]
      simp [hm]

/-- A walk comes to every file that is to be collected once. -/
theorem sourcesIn_eq (hp : Proper entries) (c : Config) (relative path : String) :
    ∃ files : List (List String), files.Nodup ∧
      (∀ names, names ∈ files ↔ Collected c relative entries names) ∧
      sourcesIn c relative path entries = files.map fun names =>
        ⟨names.foldl Path.below relative, names.foldl Path.join path⟩ := by
  induction hp generalizing relative path with
  | nil =>
    refine ⟨[], .nil, fun names => ⟨nofun, ?_⟩, by rw [sourcesIn]; rfl⟩
    cases names with
    | nil => exact fun h => absurd h (not_collected_nil _)
    | cons name ms => exact fun h => absurd h (not_collected_fresh (by simp) ms)
  | @file name rest bytes _ hf _ ih =>
    obtain ⟨files, hnodup, hmem, heq⟩ := ih relative path
    rw [sourcesIn, Entry.sources, heq]
    by_cases htaken : (c.selects name && !c.omits (Path.below relative name) name) = true
    · have hfresh : [name] ∉ files := fun h => not_collected_fresh hf [] ((hmem _).mp h)
      rw [if_pos htaken]
      refine ⟨[name] :: files, List.nodup_cons.mpr ⟨hfresh, hnodup⟩, fun names => ?_, rfl⟩
      rw [List.mem_cons, hmem, collected_file hf, and_iff_left htaken]
    · rw [if_neg htaken]
      refine ⟨files, hnodup, fun names => ?_, rfl⟩
      rw [hmem, collected_file hf, or_iff_right (fun h => htaken h.2)]
  | @directory name rest nested _ hf _ _ ihi ih =>
    obtain ⟨files, hnodup, hmem, heq⟩ := ih relative path
    rw [sourcesIn, Entry.sources, heq]
    cases homit : c.omits (Path.below relative name) name with
    | true =>
      refine ⟨files, hnodup, fun names => ?_, rfl⟩
      rw [hmem, collected_directory hf, or_iff_right]
      rintro ⟨ms, -, hkept, -⟩
      rw [homit] at hkept
      cases hkept
    | false =>
      obtain ⟨within, hnodup', hmem', heq'⟩ := ihi (Path.below relative name) (Path.join path name)
      rw [if_neg (by simp), heq']
      refine ⟨within.map (name :: ·) ++ files, ?_, fun names => ?_, by simp⟩
      · have hmap : (within.map (name :: ·)).Nodup :=
          List.pairwise_map.mpr (hnodup'.imp fun hne h => hne (List.cons.inj h).2)
        refine List.nodup_append.mpr ⟨hmap, hnodup, ?_⟩
        rintro x hx y hy rfl
        obtain ⟨ms, -, rfl⟩ := List.mem_map.mp hx
        exact not_collected_fresh hf ms ((hmem _).mp hy)
      · rw [List.mem_append, hmem, collected_directory hf, List.mem_map]
        simp only [hmem', homit, true_and, and_comm, eq_comm]

theorem collected_iff (hp : Proper entries) :
    Collected c "" entries names ↔ c.Selects entries names := by
  rw [Collected, Config.selects, List.contains_iff_mem]
  constructor
  · rintro ⟨hfile, hsuffix, hkept⟩
    obtain ⟨bytes, hb⟩ := hfile
    exact ⟨⟨bytes, hb⟩, hsuffix, (c.keeps_of_names (hp.at?_names hb)).mp hkept⟩
  · rintro ⟨⟨bytes, hb⟩, hsuffix, hkept⟩
    exact ⟨⟨bytes, hb⟩, hsuffix, (c.keeps_of_names (hp.at?_names hb)).mpr hkept⟩

theorem selects_congr {c : Config} (h : ∀ names,
      (∃ bytes, (Entry.directory entries).at? names = some (.file bytes)) ↔
        ∃ bytes, (Entry.directory entries').at? names = some (.file bytes)) :
    c.Selects entries names ↔ c.Selects entries' names :=
  ⟨fun ⟨hfile, hsuffix, hkept⟩ => ⟨(h names).mp hfile, hsuffix, hkept⟩,
    fun ⟨hfile, hsuffix, hkept⟩ => ⟨(h names).mpr hfile, hsuffix, hkept⟩⟩

-- ---------------------------------------------------------------------------
-- Collecting
-- ---------------------------------------------------------------------------

namespace FileSystem

variable {fs fs' : FileSystem}

def absoluteBelow (fs : FileSystem) (directory : String) (names : List String) : String :=
  Path.absolute fs.working (names.foldl Path.join directory)

theorem ne_empty_of_lookup (h : fs.lookup path = .ok e) : path ≠ "" := by
  rintro rfl
  cases h

theorem proper_of_lookup (hp : Proper fs.root) (h : fs.lookup path = .ok (.directory entries)) :
    Proper entries :=
  hp.at?_nested (at?_of_lookup h)

theorem absoluteBelow_inj {c : Config} (hp : Proper fs.root)
    (h : fs.lookup directory = .ok (.directory entries)) (ha : c.Selects entries a)
    (hb : c.Selects entries b)
    (heq : fs.absoluteBelow directory a = fs.absoluteBelow directory b) : a = b := by
  have hentries : Proper entries := proper_of_lookup hp h
  obtain ⟨bytes, hfile⟩ := ha.isFile
  obtain ⟨bytes', hfile'⟩ := hb.isFile
  have hnil : a ≠ [] := by
    rintro rfl
    cases hfile
  have hnil' : b ≠ [] := by
    rintro rfl
    cases hfile'
  exact absolute_join_inj fs (ne_empty_of_lookup h) hnil hnil' (hentries.at?_names hfile)
    (hentries.at?_names hfile') heq

/-- Whether the absolute path of one file does not come after that of another. -/
def inOrder (fs : FileSystem) (directory : String) (a b : List String) : Bool :=
  decide (fs.absoluteBelow directory a ≤ fs.absoluteBelow directory b)

theorem collect_mergeSort {files : List (List String)}
    (h : fs.lookup directory = .ok (.directory entries))
    (hsources : sourcesIn c "" directory entries = files.map fun names =>
      ⟨names.foldl Path.below "", names.foldl Path.join directory⟩) :
    fs.collect c directory =
      (files.mergeSort (fs.inOrder directory)).map (·.foldl Path.join directory) := by
  have hkeyed := List.map_mergeSort (r := fs.inOrder directory) (s := fun a b => decide (a.1 ≤ b.1))
    (f := fun names => (fs.absoluteBelow directory names, names.foldl Path.join directory))
    (l := files) fun _ _ _ _ => rfl
  rw [collect, h]
  simp only [hsources, List.map_map]
  exact (congrArg _ hkeyed.symm).trans List.map_map

theorem collect_eq (hp : Proper fs.root) (c : Config)
    (h : fs.lookup directory = .ok (.directory entries)) :
    ∃ files : List (List String), files.Nodup ∧ (∀ names, names ∈ files ↔ c.Selects entries names) ∧
      fs.collect c directory = files.map (·.foldl Path.join directory) ∧
      files.Pairwise fun a b => fs.absoluteBelow directory a < fs.absoluteBelow directory b := by
  have hentries : Proper entries := proper_of_lookup hp h
  obtain ⟨files, hnodup, hmem, hsources⟩ := sourcesIn_eq hentries c "" directory
  have hperm : (files.mergeSort (fs.inOrder directory)).Perm files := List.mergeSort_perm _ _
  have hsorted : (files.mergeSort (fs.inOrder directory)).Pairwise
      fun a b => fs.inOrder directory a b = true :=
    List.pairwise_mergeSort (fun _ _ _ => by simpa [inOrder] using String.le_trans)
      (fun a b => by simpa [inOrder] using String.le_total _ _) files
  have hselects : ∀ names, names ∈ files.mergeSort (fs.inOrder directory) ↔
      c.Selects entries names :=
    fun names => (hperm.mem_iff.trans (hmem names)).trans (collected_iff hentries)
  have hdistinct : (files.mergeSort (fs.inOrder directory)).Nodup := hperm.nodup_iff.mpr hnodup
  refine ⟨_, hdistinct, hselects, collect_mergeSort h hsources,
    (hsorted.and hdistinct).imp_of_mem ?_⟩
  rintro a b ha hb ⟨hle, hne⟩
  refine Std.lt_of_le_of_ne (of_decide_eq_true hle) fun hkey => hne ?_
  exact absoluteBelow_inj hp h ((hselects a).mp ha) ((hselects b).mp hb) hkey

theorem collect_sorted (hp : Proper fs.root) (c : Config) (directory : String) :
    (fs.collect c directory).Pairwise fun a b =>
      Path.absolute fs.working a < Path.absolute fs.working b := by
  rcases hl : fs.lookup directory with err | ⟨_ | entries⟩
  · rw [collect, hl]; exact .nil
  · rw [collect, hl]; exact .nil
  · obtain ⟨files, -, -, heq, hsorted⟩ := collect_eq hp c hl
    rw [heq]
    exact List.pairwise_map.mpr hsorted

/-- Files in strictly increasing order of their absolute paths are told by which files they are. -/
theorem files_unique {files files' : List (List String)}
    (hsorted : files.Pairwise fun a b =>
      fs.absoluteBelow directory a < fs.absoluteBelow directory b)
    (hsorted' : files'.Pairwise fun a b =>
      fs.absoluteBelow directory a < fs.absoluteBelow directory b)
    (hmem : ∀ names, names ∈ files' ↔ names ∈ files) : files' = files := by
  have hnodup {l : List (List String)} (h : l.Pairwise fun a b =>
      fs.absoluteBelow directory a < fs.absoluteBelow directory b) : l.Nodup := by
    refine List.Pairwise.imp ?_ h
    rintro a _ hlt rfl
    exact String.lt_irrefl _ hlt
  have hperm : files'.Perm files :=
    (List.perm_ext_iff_of_nodup (hnodup hsorted') (hnodup hsorted)).mpr hmem
  refine hperm.eq_of_pairwise (fun a b _ _ hab hba => ?_) hsorted' hsorted
  exact absurd (String.lt_trans hab hba) (String.lt_irrefl _)

theorem collect_of_sameShape (hp : Proper fs.root) (hp' : Proper fs'.root)
    (hs : fs.top.SameShape fs'.top) (hw : fs'.working = fs.working) (c : Config)
    (directory : String) : fs'.collect c directory = fs.collect c directory := by
  rcases lookup_sameShape hs hw directory with
    ⟨err, h, h'⟩ | ⟨es, es', ⟨h, h'⟩, hd, hd'⟩ | ⟨b, b', ⟨h, h'⟩, -, -⟩
  · rw [collect, collect, h, h']
  · obtain ⟨files, hnodup, hmem, heq, hsorted⟩ := collect_eq hp c h
    obtain ⟨files', hnodup', hmem', heq', hsorted'⟩ := collect_eq hp' c h'
    have hfiles (names : List String) :
        (∃ bytes, (Entry.directory es').at? names = some (.file bytes)) ↔
          ∃ bytes, (Entry.directory es).at? names = some (.file bytes) := by
      have hbelow := hs.at? (fs.names directory ++ names)
      rw [Entry.at?_append, Entry.at?_append, hd, hd', Option.bind_some, Option.bind_some] at hbelow
      rcases hbelow with ⟨hn, hn'⟩ | ⟨_, _, hn, hn'⟩ | ⟨_, _, hn, hn'⟩ <;> simp [hn, hn']
    have hkeys : fs'.absoluteBelow directory = fs.absoluteBelow directory := by
      funext names
      rw [absoluteBelow, absoluteBelow, hw]
    rw [hkeys] at hsorted'
    have hsame : files' = files := files_unique hsorted hsorted' fun names =>
      (hmem' names).trans ((selects_congr hfiles).trans (hmem names).symm)
    rw [heq, heq', hsame]
  · rw [collect, collect, h, h']

theorem sameShape_of_relisted (hp : Proper fs.root) (h : Relisted fs.root fs'.root) :
    fs.top.SameShape fs'.top := by
  intro names
  rw [top, top, h.sight hp names]
  exact .refl _

/-- Of a directory, collecting gives the files that the condition selects, each exactly once and as
the directory joined with its names, in strictly increasing order of their absolute paths. The
order in which directories are listed does not matter. Anything else gives no files. -/
theorem collect_exact (hp : Proper fs.root) (c : Config) (directory : String) :
    (fs.isDirectory directory = false → fs.collect c directory = []) ∧
    ∀ entries, fs.lookup directory = .ok (.directory entries) →
      (∃ files : List (List String), files.Nodup ∧
        (∀ names, names ∈ files ↔ c.Selects entries names) ∧
        fs.collect c directory = files.map (·.foldl Path.join directory)) ∧
      ((fs.collect c directory).Pairwise fun a b =>
        Path.absolute fs.working a < Path.absolute fs.working b) ∧
      ∀ fs' : FileSystem, fs'.working = fs.working → Relisted fs.root fs'.root →
        fs'.collect c directory = fs.collect c directory := by
  constructor
  · intro hno
    rcases h : fs.lookup directory with err | ⟨_ | entries⟩
    · rw [collect, h]
    · rw [collect, h]
    · rw [isDirectory, h] at hno
      cases hno
  · intro entries h
    obtain ⟨files, hnodup, hmem, heq, -⟩ := collect_eq hp c h
    refine ⟨⟨files, hnodup, hmem, heq⟩, collect_sorted hp c directory, fun fs' hw hr => ?_⟩
    exact collect_of_sameShape hp (hp.relisted hr) (sameShape_of_relisted hp hr) hw c directory

/-- A project with an excluded directory. A walk comes to `b/x.CS` before `b.cs`. -/
def mixedEntries : List (String × Entry) :=
  [("b", .directory [("x.CS", .file [])]), ("b.cs", .file []), ("b.txt", .file []),
    ("obj", .directory [("y.cs", .file [])])]

def mixedProject : FileSystem := { root := [("p", .directory mixedEntries)] }

theorem mixedProject_proper : Proper mixedProject.root := by
  refine .directory (by decide) nofun ?_ .nil
  refine .directory (by decide) (by decide) (.file (by decide) nofun .nil) ?_
  refine .file (by decide) (by decide) ?_
  refine .file (by decide) (by decide) ?_
  exact .directory (by decide) nofun (.file (by decide) nofun .nil) .nil

theorem mixedProject_files :
    mixedProject.collect { exclude := ["obj"] } "p" = ["p/b.cs", "p/b/x.CS"] ∧
    ∃ files : List (List String), files.Nodup ∧
      (∀ names, names ∈ files ↔ Config.Selects { exclude := ["obj"] } mixedEntries names) ∧
      files.map (·.foldl Path.join "p") = ["p/b.cs", "p/b/x.CS"] := by
  have hlookup : mixedProject.lookup "p" = .ok (.directory mixedEntries) := rfl
  have hsources : sourcesIn { exclude := ["obj"] } "" "p" mixedEntries =
      [⟨"b/x.CS", "p/b/x.CS"⟩, ⟨"b.cs", "p/b.cs"⟩] := by decide +kernel
  have hlater : ¬ Path.absolute mixedProject.working "p/b/x.CS" ≤
      Path.absolute mixedProject.working "p/b.cs" := by decide +kernel
  have hcollect : mixedProject.collect { exclude := ["obj"] } "p" = ["p/b.cs", "p/b/x.CS"] := by
    rw [collect, hlookup]
    simp [hsources, List.mergeSort, List.MergeSort.Internal.splitInTwo, hlater]
  obtain ⟨⟨files, hnodup, hmem, heq⟩, -⟩ :=
    (collect_exact mixedProject_proper { exclude := ["obj"] } "p").2 mixedEntries hlookup
  exact ⟨hcollect, files, hnodup, hmem, heq.symm.trans hcollect⟩

end FileSystem

end CategoryAudit
