import Mathlib.Data.List.Basic
import Mathlib.Data.List.Nodup
import CategoryAudit.Project
import CategoryAudit.Proofs.Files.Collect
import CategoryAudit.Proofs.Findings

/-!
# Files on their own

A report is put together from what each collected file gives by itself: its findings, or one error.
What a file holds does not change what is reported about another one, in whatever order files fail
and succeed (`run_isolates`).
-/

namespace CategoryAudit

-- ---------------------------------------------------------------------------
-- What one file gives
-- ---------------------------------------------------------------------------

theorem findings_path {c : TestClass} (h : c.findings markers path = .ok found) :
    ∀ f ∈ found, f.path = path := by
  simp only [TestClass.findings, Outline.ok_bind_iff] at h
  obtain ⟨methods, -, h⟩ := h
  cases h
  intro f hf
  obtain ⟨m, -, hm⟩ := List.mem_filterMap.mp hf
  split at hm
  · cases hm
  · cases hm; rfl

theorem findingsOf_path (h : findingsOf markers path classes = .ok found) :
    ∀ f ∈ found, f.path = path := by
  induction classes generalizing found with
  | nil => cases h; nofun
  | cons c rest ih =>
    simp only [findingsOf, Outline.ok_bind_iff] at h
    obtain ⟨here, hc, more, hm, h⟩ := h
    cases h
    intro f hf
    rcases List.mem_append.mp hf with hf | hf
    · exact findings_path hc f hf
    · exact ih hm f hf

theorem Outline.analyze_path {o : Outline} (h : o.analyze markers fileScopedCounts = .ok a) :
    ∀ f ∈ a.findings, f.path = o.path := by
  obtain ⟨classes, -, -, hf, -⟩ := analyze_ok h
  exact findingsOf_path hf

/-- What came of a file is its own: it succeeded, or it has one error and no findings, and all of
this carries its path. -/
structure FileResult.Own (r : FileResult) (file : String) : Prop where
  path : r.path = file
  findings : ∀ f ∈ r.findings, f.path = file
  error : r.error = none ∨ r.findings = [] ∧ ∃ e, r.error = some e ∧ e.path = file

theorem FileResult.own_ofOutline {outline : Except ParseError Outline}
    (h : ∀ o, outline = .ok o → o.path = file) :
    (ofOutline file markers fileScopedCounts outline).Own file := by
  unfold ofOutline
  split
  · exact ⟨rfl, nofun, .inr ⟨rfl, _, rfl, rfl⟩⟩
  · rename_i o
    split
    · exact ⟨rfl, nofun, .inr ⟨rfl, _, rfl, rfl⟩⟩
    · rename_i a ha
      refine ⟨rfl, fun f hf => ?_, .inl rfl⟩
      exact (Outline.analyze_path ha f hf).trans (h o rfl)

namespace FileSystem

theorem outline_path {fs : FileSystem} (h : fs.outline reader file = .ok o) : o.path = file := by
  unfold outline at h
  split at h
  · unfold SourceReader.outlineOfBytes at h
    split at h
    · obtain ⟨-, -, -, hpath, -⟩ := Outline.ofTree_ok h
      exact hpath
    · cases h
  · cases h

theorem own_check (fs : FileSystem) (reader : SourceReader) (markers : Markers)
    (fileScopedCounts : Bool) (file : String) :
    (fs.check reader markers fileScopedCounts file).Own file :=
  FileResult.own_ofOutline fun _ => outline_path

end FileSystem

-- ---------------------------------------------------------------------------
-- Trees that differ in one file
-- ---------------------------------------------------------------------------

/-- Two trees that differ at most in the contents of the file at one place. -/
structure Entry.SameBut (place : List String) (top top' : Entry) : Prop where
  elsewhere : ∀ names, names ≠ place → top'.sight names = top.sight names
  here : ∃ bytes bytes', top.sight place = .file bytes ∧ top'.sight place = .file bytes'

theorem Entry.SameBut.sameShape {top top' : Entry} (h : top.SameBut place top') :
    top.SameShape top' := by
  intro names
  by_cases hn : names = place
  · obtain ⟨bytes, bytes', hb, hb'⟩ := h.here
    rw [hn, hb, hb']
    trivial
  · rw [h.elsewhere names hn]
    exact .refl _

theorem Entry.sight_cons (name m : String) (e : Entry) (rest : List (String × Entry))
    (ms : List String) : (directory ((name, e) :: rest)).sight (m :: ms) =
      if m = name then e.sight ms else (directory rest).sight (m :: ms) := by
  unfold sight
  rw [at?_cons]
  split <;> rfl

theorem Entry.SameBut.file (bytes bytes' : List UInt8) : (file bytes).SameBut [] (file bytes') := by
  refine ⟨fun names hne => ?_, bytes, bytes', rfl, rfl⟩
  cases names with
  | nil => exact absurd rfl hne
  | cons _ _ => rfl

theorem Entry.SameBut.first {e e' : Entry} (h : e.SameBut spot e') (name : String)
    (rest : List (String × Entry)) :
    (directory ((name, e) :: rest)).SameBut (name :: spot) (directory ((name, e') :: rest)) := by
  constructor
  · intro names hne
    cases names with
    | nil => rfl
    | cons m ms =>
      rw [sight_cons, sight_cons]
      split
      · rename_i hm
        exact h.elsewhere ms fun hms => hne (by rw [hm, hms])
      · rfl
  · simpa only [sight_cons, if_pos] using h.here

namespace FileSystem

variable {fs fs' : FileSystem}

theorem projectDirectory?_of_sameShape (hs : fs.top.SameShape fs'.top)
    (hw : fs'.working = fs.working) (project : String) :
    fs'.projectDirectory? project = fs.projectDirectory? project := by
  have hdirectory : fs'.isDirectory (Text.strip project) = fs.isDirectory (Text.strip project) := by
    unfold isDirectory
    rcases lookup_sameShape hs hw (Text.strip project) with
      ⟨err, h, h'⟩ | ⟨es, es', ⟨h, h'⟩, -⟩ | ⟨b, b', ⟨h, h'⟩, -⟩ <;> rw [h, h']
  have hfile : fs'.isFile (Text.strip project) = fs.isFile (Text.strip project) := by
    unfold isFile
    rcases lookup_sameShape hs hw (Text.strip project) with
      ⟨err, h, h'⟩ | ⟨es, es', ⟨h, h'⟩, -⟩ | ⟨b, b', ⟨h, h'⟩, -⟩ <;> rw [h, h']
  simp only [projectDirectory?, hdirectory, hfile]

theorem read_elsewhere (hs : fs.top.SameBut spot fs'.top) (hw : fs'.working = fs.working)
    (hne : fs.names path ≠ spot) : fs'.read path = fs.read path := by
  unfold read
  rcases lookup_sameShape hs.sameShape hw path with
    ⟨err, h, h'⟩ | ⟨es, es', ⟨h, h'⟩, -⟩ | ⟨b, b', ⟨h, h'⟩, ha, ha'⟩
  · rw [h, h']
  · rw [h, h']; rfl
  · have hsight := hs.elsewhere _ hne
    rw [Entry.sight, Entry.sight, ha, ha'] at hsight
    cases hsight
    rw [h, h']

theorem check_elsewhere (hs : fs.top.SameBut spot fs'.top) (hw : fs'.working = fs.working)
    (hne : fs.names path ≠ spot) (reader : SourceReader) (markers : Markers)
    (fileScopedCounts : Bool) :
    fs'.check reader markers fileScopedCounts path =
      fs.check reader markers fileScopedCounts path := by
  rw [check, check, outline, outline, read_elsewhere hs hw hne]

end FileSystem

-- ---------------------------------------------------------------------------
-- Reports on files
-- ---------------------------------------------------------------------------

namespace Report

/-- A report on some files says what came of each by itself, in their order. The share of a file
is what carries its path. -/
structure Accounts (r : Report) (files : List String) (own : String → FileResult) : Prop where
  count : r.filesAnalyzed = files.length
  findings : r.findings = files.flatMap fun file => (own file).findings
  errors : r.errors = files.flatMap fun file => (own file).error.toList
  eachOwn : ∀ file ∈ files, (own file).Own file
  share : ∀ file ∈ files, r.findings.filter (·.path == file) = (own file).findings ∧
    r.errors.filter (·.path == file) = (own file).error.toList

/-- Two reports that differ only in what they say about one file, in one place. -/
structure SameBut (file : String) (r r' : Report) : Prop where
  count : r'.filesAnalyzed = r.filesAnalyzed
  findings : r'.findings.filter (·.path != file) = r.findings.filter (·.path != file)
  errors : r'.errors.filter (·.path != file) = r.errors.filter (·.path != file)
  block : ∃ front own own' back, r.findings = front ++ own ++ back ∧
    r'.findings = front ++ own' ++ back ∧ (∀ f ∈ own ++ own', f.path = file) ∧
    ∀ f ∈ front ++ back, f.path ≠ file

end Report

section
variable {α : Type} {part : String → List α} {key : α → String}
  (hkey : ∀ file, ∀ x ∈ part file, key x = file)
include hkey

theorem key_ne {files : List String} (hno : file ∉ files) :
    ∀ x ∈ files.flatMap part, key x ≠ file := by
  rintro x hx rfl
  obtain ⟨other, hother, hx⟩ := List.mem_flatMap.mp hx
  exact hno (hkey other x hx ▸ hother)

theorem filter_flatMap_key (files : List String) (keep : String → Bool) :
    (files.flatMap part).filter (fun x => keep (key x)) = (files.filter keep).flatMap part := by
  induction files with
  | nil => rfl
  | cons file rest ih =>
    rw [List.flatMap_cons, List.filter_append, ih, List.filter_cons]
    cases hkeep : keep file with
    | true =>
      rw [if_pos rfl, List.flatMap_cons, List.filter_eq_self.mpr]
      exact fun x hx => by rw [hkey file x hx, hkeep]
    | false =>
      rw [if_neg (by simp), List.filter_eq_nil_iff.mpr, List.nil_append]
      exact fun x hx => by simp [hkey file x hx, hkeep]

theorem share_flatMap {pre post : List String} (hpre : file ∉ pre) (hpost : file ∉ post) :
    ((pre ++ file :: post).flatMap part).filter (key · == file) = part file := by
  have hnone {files : List String} (hno : file ∉ files) : files.filter (· == file) = [] := by
    refine List.filter_eq_nil_iff.mpr fun other hother => ?_
    simpa using ne_of_mem_of_not_mem hother hno
  rw [filter_flatMap_key hkey _ (· == file), List.filter_append, hnone hpre, List.filter_cons,
    if_pos (beq_self_eq_true file), hnone hpost, List.nil_append, List.flatMap_singleton]

theorem others_flatMap {pre post : List String} (hpre : file ∉ pre) (hpost : file ∉ post) :
    ((pre ++ file :: post).flatMap part).filter (key · != file) =
      pre.flatMap part ++ post.flatMap part := by
  have hall {files : List String} (hno : file ∉ files) : files.filter (· != file) = files :=
    List.filter_eq_self.mpr fun other hother => bne_iff_ne.mpr (ne_of_mem_of_not_mem hother hno)
  rw [filter_flatMap_key hkey _ (· != file), List.filter_append, hall hpre, List.filter_cons,
    if_neg (by simp), hall hpost, List.flatMap_append]

end

theorem exists_split {files : List String} (hnodup : files.Nodup) (hfile : file ∈ files) :
    ∃ pre post, files = pre ++ file :: post ∧ file ∉ pre ∧ file ∉ post := by
  obtain ⟨pre, post, rfl, hpre⟩ := List.eq_append_cons_of_mem hfile
  have hpost : file ∉ post := (List.nodup_cons.mp (List.nodup_append.mp hnodup).2.1).1
  exact ⟨pre, post, rfl, hpre, hpost⟩

theorem FileResult.Own.path_error {r : FileResult} (h : r.Own file) :
    ∀ e ∈ r.error.toList, e.path = file := by
  rcases h.error with hnone | ⟨-, e, he, hpath⟩
  · simp [hnone]
  · simpa [he] using hpath

theorem findings_ofResults (project : String) (files : List String) (own : String → FileResult) :
    (Report.ofResults project (files.map own)).findings =
      files.flatMap fun file => (own file).findings := by
  simp [Report.ofResults, List.flatMap_map]

theorem errors_ofResults (project : String) (files : List String) (own : String → FileResult) :
    (Report.ofResults project (files.map own)).errors =
      files.flatMap fun file => (own file).error.toList := by
  simp [Report.ofResults, List.filterMap_eq_flatMap_toList, List.flatMap_map]

section
variable {own own' : String → FileResult} {files : List String} (hnodup : files.Nodup)
  (hown : ∀ file, (own file).Own file) (project : String)
include hnodup hown

theorem accounts_ofResults : (Report.ofResults project (files.map own)).Accounts files own := by
  refine ⟨by simp [Report.ofResults], findings_ofResults .., errors_ofResults ..,
    fun file _ => hown file, ?_⟩
  intro file hfile
  obtain ⟨pre, post, rfl, hpre, hpost⟩ := exists_split hnodup hfile
  rw [findings_ofResults, errors_ofResults]
  exact ⟨share_flatMap (fun file => (hown file).findings) hpre hpost,
    share_flatMap (fun file => (hown file).path_error) hpre hpost⟩

/-- What came of one file shows in its own part of a report only. -/
theorem sameBut_ofResults (hown' : ∀ file, (own' file).Own file) (hfile : file ∈ files)
    (hsame : ∀ other ∈ files, other ≠ file → own' other = own other) :
    Report.SameBut file (.ofResults project (files.map own))
      (.ofResults project (files.map own')) := by
  obtain ⟨pre, post, rfl, hpre, hpost⟩ := exists_split hnodup hfile
  have hfront : ∀ other ∈ pre, own' other = own other := fun other h =>
    hsame other (by simp [h]) fun heq => hpre (heq ▸ h)
  have hback : ∀ other ∈ post, own' other = own other := fun other h =>
    hsame other (by simp [h]) fun heq => hpost (heq ▸ h)
  have hunchanged {α : Type} (g : FileResult → List α) {part : List String}
      (h : ∀ other ∈ part, own' other = own other) :
      (part.flatMap fun file => g (own' file)) = part.flatMap fun file => g (own file) :=
    List.flatMap_congr fun other ho => by rw [h other ho]
  constructor
  · simp [Report.ofResults]
  · rw [findings_ofResults, findings_ofResults,
      others_flatMap (fun file => (hown file).findings) hpre hpost,
      others_flatMap (fun file => (hown' file).findings) hpre hpost,
      hunchanged (·.findings) hfront, hunchanged (·.findings) hback]
  · rw [errors_ofResults, errors_ofResults,
      others_flatMap (fun file => (hown file).path_error) hpre hpost,
      others_flatMap (fun file => (hown' file).path_error) hpre hpost,
      hunchanged (·.error.toList) hfront, hunchanged (·.error.toList) hback]
  · refine ⟨pre.flatMap fun file => (own file).findings, (own file).findings,
      (own' file).findings, post.flatMap fun file => (own file).findings, ?_, ?_, ?_, ?_⟩
    · rw [findings_ofResults, List.flatMap_append, List.flatMap_cons, List.append_assoc]
    · rw [findings_ofResults, List.flatMap_append, List.flatMap_cons, List.append_assoc,
        hunchanged (·.findings) hfront, hunchanged (·.findings) hback]
    · intro f hf
      rcases List.mem_append.mp hf with hf | hf
      · exact (hown file).findings f hf
      · exact (hown' file).findings f hf
    · intro f hf
      rcases List.mem_append.mp hf with hf | hf
      · exact key_ne (fun file => (hown file).findings) hpre f hf
      · exact key_ne (fun file => (hown file).findings) hpost f hf

end

-- ---------------------------------------------------------------------------
-- Runs
-- ---------------------------------------------------------------------------

namespace FileSystem

variable {fs : FileSystem}

theorem nodup_absolute (hp : Proper fs.root) (c : Config) (directory : String) :
    ((fs.collect c directory).map (Path.absolute fs.working)).Nodup := by
  refine List.pairwise_map.mpr ((collect_sorted hp c directory).imp ?_)
  intro a b hlt heq
  rw [heq] at hlt
  exact String.lt_irrefl _ hlt

theorem names_ne_of_collected (hp : Proper fs.root) (ha : a ∈ fs.collect c directory)
    (hb : b ∈ fs.collect c directory) (hne : a ≠ b) : fs.names a ≠ fs.names b := by
  intro heq
  refine hne (List.inj_on_of_nodup_map (nodup_absolute hp c directory) ha hb ?_)
  rw [absolute_eq, absolute_eq, heq]

end FileSystem

namespace Checker

theorem runWith_eq (k : Checker) {fs : FileSystem}
    (hd : fs.projectDirectory? project = some directory) (c : Config) :
    k.runWith fs project c =
      .ok (.ofResults project (fs.checkAll (k.reader c) c directory),
        fs.checkAll (k.reader c) c directory) := by
  rw [runWith, hd]
  rfl

/-- A run reports on every collected file by itself, in strictly increasing order of the absolute
paths. Another tree that differs only in the contents of one of them gives a report that differs
only in what is said about that file. -/
theorem run_isolates (k : Checker) (fs : FileSystem) (project : String) (c : Config)
    (hp : Proper fs.root) (hd : fs.projectDirectory? project = some directory) :
    ∃ report, k.runWith fs project c = .ok (report, fs.checkAll (k.reader c) c directory) ∧
      report.Accounts (fs.collect c directory)
        (fs.check (k.reader c) c.markers c.fileScopedNamespaces) ∧
      ((fs.collect c directory).Pairwise fun a b =>
        Path.absolute fs.working a < Path.absolute fs.working b) ∧
      ∀ fs' : FileSystem, ∀ file ∈ fs.collect c directory, Proper fs'.root →
        fs'.working = fs.working → fs.top.SameBut (fs.names file) fs'.top →
        ∃ report', k.runWith fs' project c =
            .ok (report', fs'.checkAll (k.reader c) c directory) ∧
          Report.SameBut file report report' := by
  have hnodup : (fs.collect c directory).Nodup :=
    (FileSystem.nodup_absolute hp c directory).of_map
  have hown (fs : FileSystem) := fs.own_check (k.reader c) c.markers c.fileScopedNamespaces
  refine ⟨_, k.runWith_eq hd c, accounts_ofResults hnodup (hown fs) project,
    FileSystem.collect_sorted hp c directory, ?_⟩
  intro fs' file hfile hp' hw hs
  have hd' : fs'.projectDirectory? project = some directory :=
    (FileSystem.projectDirectory?_of_sameShape hs.sameShape hw project).trans hd
  have hcollect : fs'.collect c directory = fs.collect c directory :=
    FileSystem.collect_of_sameShape hp hp' hs.sameShape hw c directory
  refine ⟨_, k.runWith_eq hd' c, ?_⟩
  rw [FileSystem.checkAll, FileSystem.checkAll, hcollect]
  refine sameBut_ofResults hnodup (hown fs) project (hown fs') hfile fun other hother hne => ?_
  exact FileSystem.check_elsewhere hs hw
    (FileSystem.names_ne_of_collected hp hother hfile hne) ..

def pair (first : List UInt8) : FileSystem :=
  { root := [("p", .directory [("a.cs", .file first), ("b.cs", .file [])])] }

def barren : Checker :=
  { grammar := fun _ => ⟨.mk "compilation_unit" 0 0 0 none true false [], false⟩ }

theorem pair_proper (first : List UInt8) : Proper (pair first).root := by
  refine .directory (by decide) nofun ?_ .nil
  exact .file (by decide) (by decide) (.file (by decide) nofun .nil)

theorem pair_collect : (pair [0xff]).collect {} "p" = ["p/a.cs", "p/b.cs"] := by
  have hlookup : (pair [0xff]).lookup "p" =
      .ok (.directory [("a.cs", .file [0xff]), ("b.cs", .file [])]) := rfl
  have hsources : sourcesIn {} "" "p" [("a.cs", .file [0xff]), ("b.cs", .file [])] =
      [⟨"a.cs", "p/a.cs"⟩, ⟨"b.cs", "p/b.cs"⟩] := by decide +kernel
  have hearlier : Path.absolute (pair [0xff]).working "p/a.cs" ≤
      Path.absolute (pair [0xff]).working "p/b.cs" := by decide +kernel
  rw [FileSystem.collect, hlookup]
  simp [hsources, List.mergeSort, List.MergeSort.Internal.splitInTwo, hearlier]

/-- A file that is not UTF-8 and the same file when it is empty. -/
theorem run_pair :
    ∃ report report' results results',
      barren.runWith (pair [0xff]) "p" {} = .ok (report, results) ∧
      barren.runWith (pair []) "p" {} = .ok (report', results') ∧
      report.filesAnalyzed = 2 ∧ Report.SameBut "p/a.cs" report report' := by
  have hmem : "p/a.cs" ∈ (pair [0xff]).collect {} "p" := by
    rw [pair_collect]
    exact List.mem_cons_self
  have hd : (pair [0xff]).projectDirectory? "p" = some "p" := rfl
  obtain ⟨report, hrun, haccounts, -, hothers⟩ :=
    run_isolates barren (pair [0xff]) "p" {} (pair_proper [0xff]) hd
  obtain ⟨report', hrun', hsame⟩ := hothers (pair []) "p/a.cs" hmem (pair_proper []) rfl
    (.first (.first (.file [0xff] []) "a.cs" _) "p" _)
  refine ⟨report, report', _, _, hrun, hrun', ?_, hsame⟩
  rw [haccounts.count, pair_collect]
  rfl

end Checker

end CategoryAudit
