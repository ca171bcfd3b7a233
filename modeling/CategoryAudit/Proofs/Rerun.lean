import CategoryAudit.Proofs.Files.Rewrite
import CategoryAudit.Proofs.Presentation

/-!
# The same call twice

A call may write its report into the project that it checks. As long as the report is not written
over the configuration or to a place where a source file would be collected, the same call made
again says the same and leaves everything as it is (`run_again`).
-/

namespace CategoryAudit

variable {fs fs' : FileSystem}

-- ---------------------------------------------------------------------------
-- The project and its configuration
-- ---------------------------------------------------------------------------

theorem FileSystem.HasFile.projectDirectory? (hfile : HasFile spot bytes fs.top fs'.top)
    (hw : fs'.working = fs.working) (h : fs.projectDirectory? project = some directory) :
    fs'.projectDirectory? project = some directory := by
  unfold FileSystem.projectDirectory? at h ⊢
  cases hl : fs.lookup (Text.strip project) with
  | error err => simp [isDirectory, FileSystem.isFile, hl] at h
  | ok e =>
    rcases hfile.lookup_found hw hl with ⟨es, es', rfl, hl'⟩ | ⟨b, b', rfl, hl', -⟩
    · simpa [isDirectory, FileSystem.isFile, hl, hl'] using h
    · simpa [isDirectory, FileSystem.isFile, hl, hl'] using h

namespace Config

open FileSystem (HasFile)

theorem source?_written (hfile : HasFile spot bytes fs.top fs'.top)
    (hw : fs'.working = fs.working)
    (hdefault : fs.names (Path.join directory defaultName) ≠ spot) (path : Option String) :
    source? fs' path (some directory) = source? fs path (some directory) := by
  cases path with
  | some path => rfl
  | none => rw [source?, source?, hfile.isFile hw hdefault]

theorem read_of_readMapping (h : readMapping fs path = .ok m) :
    ∃ contents, fs.read path = .ok contents := by
  rw [readMapping_eq] at h
  split at h
  · cases h
  · cases hread : fs.read path with
    | ok contents => exact ⟨contents, rfl⟩
    | error e => rw [hread] at h; cases e <;> cases h

theorem load_written (hfile : HasFile spot bytes fs.top fs'.top) (hw : fs'.working = fs.working)
    (hdefault : fs.names (Path.join directory defaultName) ≠ spot)
    (hsource : ∀ file, source? fs path (some directory) = some file → fs.names file ≠ spot)
    (h : (load fs env path (some directory)).result = .ok c) :
    load fs' env path (some directory) = load fs env path (some directory) := by
  have hmapping : (source? fs path (some directory)).mapM (readMapping fs') =
      (source? fs path (some directory)).mapM (readMapping fs) := by
    cases hs : source? fs path (some directory) with
    | none => rfl
    | some file =>
      cases hread : readMapping fs file with
      | error e =>
        rw [load_result, rawMapping, hs] at h
        simp only [hread] at h
        cases h
      | ok m =>
        obtain ⟨contents, hcontents⟩ := read_of_readMapping hread
        have hsame := (hfile.read hw (hsource file hs) hcontents).trans hcontents.symm
        rw [Option.mapM_some, Option.mapM_some, readMapping_eq fs', hsame, ← readMapping_eq]
  simp only [load, source?_written hfile hw hdefault, hmapping]

end Config

namespace CommandLine

open Config (Environment)
open FileSystem (HasFile)

-- ---------------------------------------------------------------------------
-- The call
-- ---------------------------------------------------------------------------

/-- The file at a path is apart from what a call reads: it is neither the file of the configuration
nor the default one of the project, and would not be collected. -/
structure Apart (fs : FileSystem) (o : Options) (directory : String) (c : Config)
    (path : String) : Prop where
  source : ∀ file, Config.source? fs o.config (some directory) = some file →
    fs.names file ≠ fs.names path
  default : fs.names (Path.join directory Config.defaultName) ≠ fs.names path
  uncollected : ∀ below, fs.names path = fs.names directory ++ below → ¬ c.Admits below

theorem Options.admits_configure (o : Options) :
    (o.configure c).Admits below ↔ c.Admits below := by
  unfold Options.configure
  split
  · exact ⟨fun ⟨hsuffix, hkept⟩ => ⟨hsuffix, hkept⟩, fun ⟨hsuffix, hkept⟩ => ⟨hsuffix, hkept⟩⟩
  · rfl

theorem checkAll_written (hfile : HasFile (fs.names path) bytes fs.top fs'.top)
    (hw : fs'.working = fs.working) (hp : Proper fs.root) (hp' : Proper fs'.root)
    (hapart : Apart fs o directory c path) (reader : SourceReader) :
    fs'.checkAll reader (o.configure c) directory =
      fs.checkAll reader (o.configure c) directory := by
  obtain ⟨hcollect, hread⟩ := hfile.collect hw hp hp' fun below hbelow ha =>
    hapart.uncollected below hbelow (o.admits_configure.mp ha)
  rw [FileSystem.checkAll, FileSystem.checkAll, hcollect]
  refine List.map_congr_left fun file hmem => ?_
  rw [FileSystem.check, FileSystem.check, FileSystem.outline, FileSystem.outline, hread file hmem]

theorem check_written (grammar : String → Concrete.Tree) (hp : Proper fs.root)
    (hs : Starts fs env o directory c) (hapart : Apart fs o directory c path)
    (hwrite : fs.write path bytes = .ok fs') :
    check grammar fs' env o = emit fs' o c.markers (o.report grammar fs directory c)
      (o.said grammar fs env directory c) := by
  obtain ⟨hplaced, hw⟩ := FileSystem.placed_of_write hwrite
  have hfile : HasFile (fs.names path) bytes fs.top fs'.top := hplaced.hasFile
  have hp' : Proper fs'.root := FileSystem.proper_of_write hp hwrite
  have hload := Config.load_written hfile hw hapart.default hapart.source hs.loaded
  have hs' : Starts fs' env o directory c :=
    ⟨hfile.projectDirectory? hw hs.found, by rw [hload, hs.loaded]⟩
  have hrun : Checker.runIn ⟨grammar, none⟩ fs' (Text.strip o.project) directory (o.configure c) =
      Checker.runIn ⟨grammar, none⟩ fs (Text.strip o.project) directory (o.configure c) := by
    rw [Checker.runIn, Checker.runIn, checkAll_written hfile hw hp hp' hapart]
  rw [check_eq grammar hs', Options.report, Options.said, hrun, hload, Options.report, Options.said]

theorem emit_written (hpath : o.outFile? = some path)
    (h : fs.write path (r.render o.format markers).toUTF8.data.toList = .ok fs') (stderr : String) :
    emit fs o markers r stderr = { result := .ok (codeOf r), stderr, files := fs' } := by
  have hout : o.out.filter (· != "") = some path := hpath
  simp only [emit, hout, h]
  rfl

theorem check_again (grammar : String → Concrete.Tree) (hp : Proper fs.root)
    (hs : Starts fs env o directory c)
    (hout : ∀ path, o.outFile? = some path → Apart fs o directory c path)
    (hcode : (check grammar fs env o).result = .ok code) :
    check grammar (check grammar fs env o).files env o = check grammar fs env o := by
  obtain ⟨-, hdelivered⟩ := check_delivers hs hcode
  rcases hdelivered with ⟨-, -, hfiles⟩ | ⟨hpath, -, hwrite⟩
  · rw [hfiles]
  · rw [check_written grammar hp hs (hout _ hpath) hwrite,
      emit_written hpath (FileSystem.write_again hwrite), check_eq grammar hs,
      emit_written hpath hwrite]

/-- A call that ends with a code, and whose report does not go over the configuration or among the
source files, ends in the same way when it is made again, and changes nothing then. -/
theorem run_again (grammar : String → Concrete.Tree) (fs : FileSystem) (env : Environment)
    (arguments : List String) (hp : Proper fs.root)
    (hcode : (run grammar fs env arguments).result = .ok code)
    (hout : ∀ o directory c path, parse arguments = .ok (.check o) →
      Starts fs env o directory c → o.outFile? = some path → Apart fs o directory c path) :
    run grammar (run grammar fs env arguments).files env arguments =
      run grammar fs env arguments := by
  unfold run at hcode ⊢
  cases hparse : parse arguments with
  | error e => rfl
  | ok request =>
    rw [hparse] at hcode
    cases request with
    | help => rfl
    | check o =>
      simp only at hcode ⊢
      by_cases hstart : ∃ directory c, Starts fs env o directory c
      · obtain ⟨directory, c, hs⟩ := hstart
        exact check_again grammar hp hs (fun path => hout o directory c path hparse hs) hcode
      · have hrefuses := check_refuses (by simpa using hstart) ⟨rfl, rfl, rfl⟩ hcode
        rw [hrefuses.2.1]

open Checker (pair barren pair_proper)

def intoProject : Options := { project := "p", out := some "p/r.txt" }

def intoProjectArguments : List String := ["p", "--out", "p/r.txt"]

theorem apart_intoProject : Apart (pair [0xff]) intoProject "p" {} "p/r.txt" := by
  refine ⟨fun file hfile => ?_, by decide, fun below hbelow ha => ?_⟩
  · cases hfile
  · obtain rfl : ["r.txt"] = below := (List.cons.inj hbelow).2
    exact absurd ha.suffix (by decide)

theorem pair_again :
    (run barren.grammar (pair [0xff]) [] intoProjectArguments).result = .ok 1 ∧
    run barren.grammar (run barren.grammar (pair [0xff]) [] intoProjectArguments).files []
        intoProjectArguments =
      run barren.grammar (pair [0xff]) [] intoProjectArguments := by
  have hparse : parse intoProjectArguments = .ok (.check intoProject) := rfl
  have hstart : Starts (pair [0xff]) [] intoProject "p" {} :=
    ⟨starts_pair.found, starts_pair.loaded⟩
  have hwrite : intoProject.CanWrite (pair [0xff]) :=
    Options.canWrite_file rfl fun _ => ⟨_, rfl⟩
  have hcode : (run barren.grammar (pair [0xff]) [] intoProjectArguments).result = .ok 1 := by
    rw [run, hparse, ← codeOf_pair]
    exact check_result ⟨rfl, rfl, rfl⟩ hwrite starts_pair
  refine ⟨hcode, run_again barren.grammar (pair [0xff]) [] _ (pair_proper _) hcode ?_⟩
  intro o directory c path ho hs hpath
  cases hparse.symm.trans ho
  obtain ⟨rfl, rfl⟩ := hstart.unique hs
  cases hpath
  exact apart_intoProject

end CommandLine

end CategoryAudit
