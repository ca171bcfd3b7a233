import Mathlib.Data.List.Flatten
import CategoryAudit.Proofs.Files.Isolation

/-!
# Reading broken files in part

A file whose tree is marked as broken fails unless broken files are read in part. Reading them in
part changes what is reported about these files only, and what it changes is their one error
(`partial_parse_adds`).
-/

namespace CategoryAudit

-- ---------------------------------------------------------------------------
-- The files
-- ---------------------------------------------------------------------------

mutual
theorem Entry.sources_congr {c c' : Config} (hext : c'.extensions = c.extensions)
    (hex : c'.exclude = c.exclude) (relative path name : String) :
    ∀ e : Entry, e.sources c' relative path name = e.sources c relative path name
  | .file _ => by simp [Entry.sources, Config.selects, Config.omits, hext, hex]
  | .directory entries => by
    rw [Entry.sources, Entry.sources, Config.omits, Config.omits, hex,
      sourcesIn_congr hext hex _ _ entries]
theorem sourcesIn_congr {c c' : Config} (hext : c'.extensions = c.extensions)
    (hex : c'.exclude = c.exclude) (relative path : String) : ∀ entries : List (String × Entry),
    sourcesIn c' relative path entries = sourcesIn c relative path entries
  | [] => by simp [sourcesIn]
  | (name, e) :: rest => by
    rw [sourcesIn, sourcesIn, Entry.sources_congr hext hex _ _ name e,
      sourcesIn_congr hext hex _ _ rest]
end

theorem FileSystem.collect_congr {c c' : Config} (hext : c'.extensions = c.extensions)
    (hex : c'.exclude = c.exclude) (fs : FileSystem) (directory : String) :
    fs.collect c' directory = fs.collect c directory := by
  unfold collect
  simp only [sourcesIn_congr hext hex]

-- ---------------------------------------------------------------------------
-- One file
-- ---------------------------------------------------------------------------

def FileSystem.tree? (fs : FileSystem) (grammar : String → Concrete.Tree) (file : String) :
    Option Concrete.Tree :=
  match fs.read file with
  | .error _ => none
  | .ok bytes =>
    match Text.Utf8.decode (Text.Utf8.dropMark bytes) with
    | .error _ => none
    | .ok source => some (grammar source)

def FileResult.broken (file : String) (line : Int) : FileResult :=
  { path := file, error := some ⟨file, .parse, s!"syntax error near line {line}"⟩ }

theorem Outline.ofTree_sound {tree : Concrete.Tree} (h : tree.hasError = false)
    (allowPartial : Bool) (source file : String) :
    Outline.ofTree allowPartial source file tree = Outline.ofTree false source file tree := by
  simp [ofTree, h]

theorem FileSystem.check_partial (fs : FileSystem) (grammar : String → Concrete.Tree)
    (markers : Markers) (fileScopedCounts : Bool) (file : String) :
    fs.check ⟨grammar, true⟩ markers fileScopedCounts file =
        fs.check ⟨grammar, false⟩ markers fileScopedCounts file ∨
      ∃ tree, fs.tree? grammar file = some tree ∧ tree.hasError = true ∧
        fs.check ⟨grammar, false⟩ markers fileScopedCounts file = .broken file tree.errorLine := by
  unfold check outline tree? SourceReader.outlineOfBytes SourceReader.outline
  cases fs.read file with
  | error e => exact .inl rfl
  | ok bytes =>
    simp only
    cases Text.Utf8.decode (Text.Utf8.dropMark bytes) with
    | error e => exact .inl rfl
    | ok source =>
      cases hbroken : (grammar source).hasError with
      | false => exact .inl (by simp only [Outline.ofTree_sound hbroken true])
      | true =>
        refine .inr ⟨_, rfl, hbroken, ?_⟩
        simp only [Outline.ofTree, hbroken]
        rfl

-- ---------------------------------------------------------------------------
-- Reports
-- ---------------------------------------------------------------------------

/-- A report that says all that another says, and more only about files that are broken in the
other. -/
structure Report.Extends (p s : Report) : Prop where
  projectPath : p.projectPath = s.projectPath
  filesAnalyzed : p.filesAnalyzed = s.filesAnalyzed
  findings : s.findings.Sublist p.findings
  errors : (p.errors.map (·.path)).Sublist (s.errors.map (·.path))
  added : ∀ f ∈ p.findings, f ∉ s.findings →
    ∃ line : Int, ⟨f.path, .parse, s!"syntax error near line {line}"⟩ ∈ s.errors

section
variable {own own' : String → FileResult}

/-- A file that is read in part has findings, or one error, where it was broken. -/
theorem FileResult.Own.extends_broken {r : FileResult} (h : r.Own file) (line : Int) :
    (FileResult.broken file line).findings.Sublist r.findings ∧
      (r.error.toList.map (·.path)).Sublist
        ((FileResult.broken file line).error.toList.map (·.path)) := by
  refine ⟨List.nil_sublist _, ?_⟩
  rcases h.error with hnone | ⟨-, e, he, hpath⟩
  · simp [hnone]
  · simp [he, hpath, FileResult.broken]

theorem extends_ofResults (files : List String) (hown : ∀ file, (own' file).Own file)
    (h : ∀ file, own' file = own file ∨ ∃ line, own file = .broken file line) (project : String) :
    (Report.ofResults project (files.map own')).Extends
      (.ofResults project (files.map own)) := by
  have hfile (file : String) : (own file).findings.Sublist (own' file).findings ∧
      ((own' file).error.toList.map (·.path)).Sublist ((own file).error.toList.map (·.path)) := by
    rcases h file with heq | ⟨line, heq⟩
    · simp [heq]
    · rw [heq]
      exact (hown file).extends_broken line
  constructor
  · rfl
  · simp [Report.ofResults]
  · rw [findings_ofResults, findings_ofResults]
    exact .flatMap_right _ fun file _ => (hfile file).1
  · rw [errors_ofResults, errors_ofResults, List.map_flatMap, List.map_flatMap]
    exact .flatMap_right _ fun file _ => (hfile file).2
  · intro f hf hnew
    rw [findings_ofResults] at hf hnew
    obtain ⟨file, hmem, hf⟩ := List.mem_flatMap.mp hf
    rcases h file with heq | ⟨line, heq⟩
    · exact absurd (List.mem_flatMap.mpr ⟨file, hmem, heq ▸ hf⟩) hnew
    · refine ⟨line, ?_⟩
      rw [(hown file).findings f hf, errors_ofResults]
      exact List.mem_flatMap.mpr ⟨file, hmem, by simp [heq, FileResult.broken]⟩

end

namespace Checker

variable {fs : FileSystem}

theorem runWith_partial (grammar : String → Concrete.Tree) (c : Config)
    (hd : fs.projectDirectory? project = some directory) (b : Bool) :
    runWith ⟨grammar, none⟩ fs project { c with allowPartialParse := b } =
      let results := (fs.collect c directory).map
        (fs.check ⟨grammar, b⟩ c.markers c.fileScopedNamespaces)
      .ok (.ofResults project results, results) := by
  have hfiles : fs.collect { c with allowPartialParse := b } directory =
      fs.collect c directory := by
    refine FileSystem.collect_congr ?_ ?_ fs directory <;> rfl
  rw [runWith_eq _ hd, FileSystem.checkAll, hfiles]
  rfl

/-- Reading broken files in part gives a report that extends the one without them, and the same
report if no tree is broken. -/
theorem partial_parse_adds (grammar : String → Concrete.Tree) (fs : FileSystem) (project : String)
    (c : Config) (hd : fs.projectDirectory? project = some directory) :
    ∃ s p results results',
      runWith ⟨grammar, none⟩ fs project { c with allowPartialParse := false } =
        .ok (s, results) ∧
      runWith ⟨grammar, none⟩ fs project { c with allowPartialParse := true } =
        .ok (p, results') ∧
      p.Extends s ∧
      ((∀ file ∈ fs.collect c directory, ∀ tree, fs.tree? grammar file = some tree →
        tree.hasError = false) → p = s) := by
  have hcheck := fs.check_partial grammar c.markers c.fileScopedNamespaces
  refine ⟨_, _, _, _, runWith_partial grammar c hd false, runWith_partial grammar c hd true,
    ?_, ?_⟩
  · refine extends_ofResults _ (fs.own_check _ _ _) (fun file => ?_) project
    rcases hcheck file with heq | ⟨tree, -, -, hbroken⟩
    · exact .inl heq
    · exact .inr ⟨_, hbroken⟩
  · intro hsound
    refine congrArg (Report.ofResults project) (List.map_congr_left fun file hfile => ?_)
    rcases hcheck file with heq | ⟨tree, htree, hbroken, -⟩
    · exact heq
    · simp [hsound file hfile tree htree] at hbroken

def soleFile (bytes : List UInt8) : FileSystem :=
  { root := [("p", .directory [("a.cs", .file bytes)])] }

def brokenGrammar : String → Concrete.Tree := fun _ => { uncategorizedTree with hasError := true }

def brokenBytes : List UInt8 := uncategorizedText.toUTF8.data.toList

theorem soleFile_collect (bytes : List UInt8) : (soleFile bytes).collect {} "p" = ["p/a.cs"] := by
  have hlookup : (soleFile bytes).lookup "p" = .ok (.directory [("a.cs", .file bytes)]) := rfl
  have hsources : sourcesIn {} "" "p" [("a.cs", .file bytes)] = [⟨"a.cs", "p/a.cs"⟩] := by
    rw [sourcesIn, sourcesIn, Entry.sources, if_pos (by decide +kernel)]
    rfl
  rw [FileSystem.collect, hlookup]
  simp [hsources]

theorem soleFile_check :
    ((soleFile brokenBytes).check ⟨brokenGrammar, false⟩ {} false "p/a.cs").findings = [] ∧
    ((soleFile brokenBytes).check ⟨brokenGrammar, true⟩ {} false "p/a.cs").findings =
      [⟨"N.C.M", "p/a.cs", 1⟩] := by
  have hread : (soleFile brokenBytes).read "p/a.cs" = .ok brokenBytes := rfl
  have hdecode : Text.Utf8.decode (Text.Utf8.dropMark brokenBytes) = .ok uncategorizedText := by
    cbv
  have houtline : Outline.ofTree true uncategorizedText "p/a.cs" (brokenGrammar "") =
      .ok { uncategorizedOutline with path := "p/a.cs", hasErrors := true } := by
    with_unfolding_all rfl
  have hanalyze : Outline.analyze { uncategorizedOutline with path := "p/a.cs", hasErrors := true }
      {} false = .ok ⟨"N", [⟨"N.C.M", "p/a.cs", 1⟩]⟩ := by cbv
  rw [FileSystem.check, FileSystem.check, FileSystem.outline, FileSystem.outline, hread]
  simp only [SourceReader.outlineOfBytes, hdecode, SourceReader.outline]
  refine ⟨rfl, ?_⟩
  rw [brokenGrammar] at houtline
  simp only [brokenGrammar, houtline, FileResult.ofOutline, hanalyze]

theorem soleFile_findings (b : Bool) (h : runWith ⟨brokenGrammar, none⟩ (soleFile brokenBytes) "p"
      { allowPartialParse := b } = .ok (r, results)) :
    r.findings = if b then [⟨"N.C.M", "p/a.cs", 1⟩] else [] := by
  have hd : (soleFile brokenBytes).projectDirectory? "p" = some "p" := rfl
  rw [runWith_partial brokenGrammar {} hd b] at h
  cases h
  rw [findings_ofResults, soleFile_collect]
  cases b <;> simp [soleFile_check]

/-- A broken file with a test method: only reading it in part finds the method. -/
theorem soleFile_partial : ∃ s p results results',
    runWith ⟨brokenGrammar, none⟩ (soleFile brokenBytes) "p" { allowPartialParse := false } =
      .ok (s, results) ∧
    runWith ⟨brokenGrammar, none⟩ (soleFile brokenBytes) "p" { allowPartialParse := true } =
      .ok (p, results') ∧
    p.Extends s ∧ s.findings = [] ∧ p.findings = [⟨"N.C.M", "p/a.cs", 1⟩] := by
  have hd : (soleFile brokenBytes).projectDirectory? "p" = some "p" := rfl
  obtain ⟨s, p, results, results', hs, hp, hextends, -⟩ :=
    partial_parse_adds brokenGrammar (soleFile brokenBytes) "p" {} hd
  exact ⟨s, p, results, results', hs, hp, hextends, soleFile_findings false hs,
    soleFile_findings true hp⟩

end Checker

end CategoryAudit
