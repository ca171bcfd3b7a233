import Mathlib
import CategoryAudit.Proofs.Failures
import CategoryAudit.Proofs.Files.Isolation
import CategoryAudit.Proofs.Files.Write

/-!
# Presentation

How a report is presented (its form, the file it is written to, the announcements on the way) does
not change what a call says about a project. Two calls that check the same project in the same way
end with the same code, a file gets what would have been printed, and nothing else changes
(`presentation_neutral`).
-/

namespace CategoryAudit.CommandLine

open Config (Environment)

-- ---------------------------------------------------------------------------
-- What a call checks
-- ---------------------------------------------------------------------------

/-- Options that differ only in how the report is presented. -/
structure Options.SameCheck (o o' : Options) : Prop where
  project : o'.project = o.project
  config : o'.config = o.config
  allowPartialParse : o'.allowPartialParse = o.allowPartialParse

def Options.outFile? (o : Options) : Option String := o.out.filter (· != "")

def Options.configure (o : Options) (c : Config) : Config :=
  if o.allowPartialParse then { c with allowPartialParse := true } else c

/-- The project of a call is in a directory, and a configuration is loaded for it. -/
structure Starts (fs : FileSystem) (env : Environment) (o : Options) (directory : String)
    (c : Config) : Prop where
  found : fs.projectDirectory? o.project = some directory
  loaded : (Config.load fs env o.config (some directory)).result = .ok c

def Options.report (o : Options) (grammar : String → Concrete.Tree) (fs : FileSystem)
    (directory : String) (c : Config) : Report :=
  (Checker.runIn ⟨grammar, none⟩ fs (Text.strip o.project) directory (o.configure c)).1

def Options.said (o : Options) (grammar : String → Concrete.Tree) (fs : FileSystem)
    (env : Environment) (directory : String) (c : Config) : String :=
  let results :=
    (Checker.runIn ⟨grammar, none⟩ fs (Text.strip o.project) directory (o.configure c)).2
  (Config.load fs env o.config (some directory)).reported ++
    String.join (if o.verbose then results.map (·.announcements c.markers) else [])

section
variable {fs : FileSystem} {env : Environment} {grammar : String → Concrete.Tree}

theorem Options.markers_configure (o : Options) (c : Config) :
    (o.configure c).markers = c.markers := by
  unfold configure
  split <;> rfl

theorem Options.SameCheck.starts {o o' : Options} (h : o.SameCheck o')
    (hs : Starts fs env o directory c) : Starts fs env o' directory c :=
  ⟨h.project ▸ hs.found, h.config ▸ hs.loaded⟩

theorem Starts.unique (h : Starts fs env o directory c) (h' : Starts fs env o directory' c') :
    directory' = directory ∧ c' = c := by
  obtain rfl : directory' = directory := Option.some.inj (h'.found.symm.trans h.found)
  exact ⟨rfl, Except.ok.inj (h'.loaded.symm.trans h.loaded)⟩

theorem Options.SameCheck.report {o o' : Options} (h : o.SameCheck o') :
    o'.report grammar fs directory c = o.report grammar fs directory c := by
  unfold Options.report Options.configure
  rw [h.project, h.allowPartialParse]

-- ---------------------------------------------------------------------------
-- What a call does
-- ---------------------------------------------------------------------------

def codeOf (r : Report) : Nat := if r.isClean then exitOk else exitFindings

theorem codeOf_cases (r : Report) :
    (codeOf r = 0 ∧ r.findings = [] ∧ r.errors = []) ∨
      (codeOf r = 1 ∧ ¬ (r.findings = [] ∧ r.errors = [])) := by
  have hclean : r.isClean = true ↔ r.findings = [] ∧ r.errors = [] := by simp [Report.isClean]
  unfold codeOf
  split
  · exact .inl ⟨rfl, hclean.mp ‹_›⟩
  · exact .inr ⟨rfl, fun h => absurd (hclean.mpr h) ‹_›⟩

/-- A text has come out the way the options say. -/
inductive Delivered (fs : FileSystem) (o : Options) (text : String) (outcome : Outcome) : Prop
  | printed : o.outFile? = none → outcome.stdout = text → outcome.files = fs →
      Delivered fs o text outcome
  | written : o.outFile? = some path → outcome.stdout = "" →
      fs.write path text.toUTF8.data.toList = .ok outcome.files → Delivered fs o text outcome

theorem emit_ok (h : (emit fs o markers r stderr).result = .ok code) :
    code = codeOf r ∧ Delivered fs o (r.render o.format markers) (emit fs o markers r stderr) := by
  unfold emit at h ⊢
  simp only at h ⊢
  split at h <;> rename_i hout
  · cases h
    exact ⟨rfl, .printed hout rfl rfl⟩
  · split at h <;> rename_i hwrite
    · cases h
      exact ⟨rfl, .written hout rfl hwrite⟩
    · cases h

theorem emit_result (h : o.CanWrite fs) :
    (emit fs o markers r stderr).result = .ok (codeOf r) := by
  obtain ⟨code, hcode, -⟩ := emit_code h markers r stderr
  rw [hcode, (emit_ok hcode).1]

theorem check_eq (grammar : String → Concrete.Tree) (h : Starts fs env o directory c) :
    check grammar fs env o = emit fs o c.markers (o.report grammar fs directory c)
      (o.said grammar fs env directory c) := by
  rw [Options.said, ← o.markers_configure]
  unfold check
  rw [h.found]
  simp only [h.loaded]
  rfl

theorem check_started (grammar : String → Concrete.Tree) (h : Starts fs env o directory c) :
    ∃ stderr, check grammar fs env o =
      emit fs o c.markers (o.report grammar fs directory c) stderr :=
  ⟨_, check_eq grammar h⟩

theorem check_delivers (h : Starts fs env o directory c)
    (hcode : (check grammar fs env o).result = .ok code) :
    code = codeOf (o.report grammar fs directory c) ∧
      Delivered fs o ((o.report grammar fs directory c).render o.format c.markers)
        (check grammar fs env o) := by
  obtain ⟨stderr, heq⟩ := check_started grammar h
  rw [heq] at hcode ⊢
  exact emit_ok hcode

theorem check_result (hsame : o.SameCheck o') (hwrite : o'.CanWrite fs)
    (hs : Starts fs env o directory c) :
    (check grammar fs env o').result = .ok (codeOf (o.report grammar fs directory c)) := by
  obtain ⟨stderr, heq⟩ := check_started grammar (hsame.starts hs)
  rw [heq, emit_result hwrite, hsame.report]

/-- Without a project or a configuration, a call does the same whatever the presentation. -/
theorem check_refuses (h : ∀ directory c, ¬ Starts fs env o directory c)
    (hsame : o.SameCheck o') (hcode : (check grammar fs env o).result = .ok code) :
    code = exitUsage ∧ (check grammar fs env o).files = fs ∧
      check grammar fs env o' = check grammar fs env o := by
  unfold check at hcode ⊢
  rw [hsame.project, hsame.config]
  cases hd : fs.projectDirectory? o.project with
  | none =>
    rw [hd] at hcode
    cases hcode
    exact ⟨rfl, rfl, rfl⟩
  | some directory =>
    rw [hd] at hcode
    cases hl : (Config.load fs env o.config (some directory)).result with
    | ok c => exact absurd ⟨hd, hl⟩ (h directory c)
    | error e =>
      simp only [hl] at hcode ⊢
      cases he : e.isConfigError with
      | false => simp [he] at hcode
      | true =>
        simp only [he] at hcode
        cases hcode
        exact ⟨rfl, rfl, trivial⟩

-- ---------------------------------------------------------------------------
-- Two calls
-- ---------------------------------------------------------------------------

/-- Files that are as before, but for the file that a report was written to. -/
structure KeptBut (out : Option String) (fs files : FileSystem) : Prop where
  working : files.working = fs.working
  elsewhere : ∀ spot, (∀ path, out = some path → spot ≠ fs.names path) →
    files.top.sight spot = fs.top.sight spot
  unwritten : out = none → files = fs

theorem KeptBut.refl (out : Option String) (fs : FileSystem) : KeptBut out fs fs :=
  ⟨rfl, fun _ _ => rfl, fun _ => rfl⟩

theorem Delivered.keptBut (h : Delivered fs o text outcome) :
    KeptBut o.outFile? fs outcome.files := by
  rcases h with ⟨-, -, hfiles⟩ | ⟨hout, -, hwrite⟩
  · rw [hfiles]
    exact .refl _ _
  · have hwritten := FileSystem.written_of_write hwrite
    refine ⟨hwritten.working, fun spot hspot => hwritten.elsewhere spot (hspot _ hout), ?_⟩
    simp [hout]

theorem Delivered.readBack (h : Delivered fs o text outcome) (h' : Delivered fs o' text outcome')
    (hout : o.outFile? = some path) (hout' : o'.outFile? = none) :
    outcome.files.read path = .ok outcome'.stdout.toUTF8.data.toList := by
  rcases h with ⟨hnone, -, -⟩ | ⟨hpath, -, hwrite⟩
  · simp [hout] at hnone
  rcases h' with ⟨-, hstdout, -⟩ | ⟨hpath', -, -⟩
  · obtain rfl : path = _ := Option.some.inj (hout.symm.trans hpath)
    rw [hstdout]
    exact (FileSystem.written_of_write hwrite).readBack
  · simp [hout'] at hpath'

theorem Delivered.stdout_eq (h : Delivered fs o text outcome)
    (h' : Delivered fs o' text outcome') (hout : o'.outFile? = o.outFile?) :
    outcome'.stdout = outcome.stdout := by
  rcases h with ⟨hnone, hstdout, -⟩ | ⟨hpath, hstdout, -⟩ <;>
    rcases h' with ⟨hnone', hstdout', -⟩ | ⟨hpath', hstdout', -⟩
  · rw [hstdout, hstdout']
  · simp [hpath', hnone] at hout
  · simp [hnone', hpath] at hout
  · rw [hstdout, hstdout']

end

/-- Of two calls that check the same project in the same way, both end with the same code. It is
that of the report if there is one. What is written to a file is what is printed without it, the
announcements do not show in what is printed, and files are kept but for the one written. -/
theorem presentation_neutral (grammar : String → Concrete.Tree) (fs : FileSystem)
    (env : Environment) (hparse : parse arguments = .ok (.check o))
    (hparse' : parse arguments' = .ok (.check o')) (hsame : o.SameCheck o')
    (hwrite : o'.CanWrite fs) (hcode : (run grammar fs env arguments).result = .ok code) :
    (run grammar fs env arguments').result = .ok code ∧
    (∀ directory c, Starts fs env o directory c →
      (code = 0 ↔ (o.report grammar fs directory c).findings = [] ∧
        (o.report grammar fs directory c).errors = []) ∧ (code ≠ 0 → code = 1)) ∧
    (∀ path, code ≠ 2 → o'.format = o.format → o.outFile? = some path → o'.outFile? = none →
      (run grammar fs env arguments).files.read path =
        .ok (run grammar fs env arguments').stdout.toUTF8.data.toList) ∧
    (o'.format = o.format → o'.outFile? = o.outFile? →
      (run grammar fs env arguments').stdout = (run grammar fs env arguments).stdout) ∧
    KeptBut o.outFile? fs (run grammar fs env arguments).files ∧
    (code = 2 → (run grammar fs env arguments).files = fs) := by
  simp only [run, hparse, hparse'] at hcode ⊢
  -- Only a call that starts comes to a report, and only then do the two calls part.
  by_cases hstart : ∃ directory c, Starts fs env o directory c
  · obtain ⟨directory, c, hs⟩ := hstart
    obtain ⟨rfl, hdelivered⟩ := check_delivers hs hcode
    have hcode' : (check grammar fs env o').result = _ := check_result hsame hwrite hs
    obtain ⟨-, hdelivered'⟩ := check_delivers (hsame.starts hs) hcode'
    rw [hsame.report] at hdelivered'
    refine ⟨hcode', fun directory' c' hs' => ?_, fun path _ hformat hout hout' => ?_,
      fun hformat hout => ?_, hdelivered.keptBut, fun husage => ?_⟩
    · obtain ⟨rfl, rfl⟩ := hs.unique hs'
      rcases codeOf_cases (o.report grammar fs directory' c') with ⟨hcode, hclean⟩ | ⟨hcode, hclean⟩
      · simp [hcode, hclean]
      · simp [hcode, hclean]
    · rw [hformat] at hdelivered'
      exact hdelivered.readBack hdelivered' hout hout'
    · rw [hformat] at hdelivered'
      exact hdelivered.stdout_eq hdelivered' hout
    · rcases codeOf_cases (o.report grammar fs directory c) with ⟨hcode, -⟩ | ⟨hcode, -⟩ <;>
        simp [hcode] at husage
  · obtain ⟨rfl, hfiles, heq⟩ := check_refuses (by simpa using hstart) hsame hcode
    rw [heq, hfiles]
    refine ⟨hcode, fun directory c hs => absurd ⟨directory, c, hs⟩ hstart, ?_, fun _ _ => rfl,
      .refl _ _, fun _ => rfl⟩
    exact fun path hne => absurd rfl hne

open Checker (pair barren)

theorem canWrite_pair : toFile.CanWrite (pair [0xff]) :=
  Options.canWrite_file rfl fun _ => ⟨_, rfl⟩

theorem starts_pair : Starts (pair [0xff]) [] toFile "p" {} := by
  refine ⟨rfl, ?_⟩
  rw [Config.load_result]
  rfl

theorem codeOf_pair : codeOf (toFile.report barren.grammar (pair [0xff]) "p" {}) = 1 := by
  have herrors : (toFile.report barren.grammar (pair [0xff]) "p" {}).errors = _ :=
    errors_ofResults "p" ((pair [0xff]).collect {} "p")
      ((pair [0xff]).check ⟨barren.grammar, false⟩ {} false)
  have hread : (pair [0xff]).read "p/a.cs" = .ok [0xff] := rfl
  have hdecode : Text.Utf8.decode (Text.Utf8.dropMark [0xff]) = .error ⟨.invalidStart, 0⟩ := by cbv
  rcases codeOf_cases (toFile.report barren.grammar (pair [0xff]) "p" {}) with
    ⟨-, -, hnone⟩ | ⟨hcode, -⟩
  · rw [herrors, Checker.pair_collect] at hnone
    simp [FileSystem.check, FileSystem.outline, hread, SourceReader.outlineOfBytes, hdecode,
      FileResult.ofOutline] at hnone
  · exact hcode

/-- A source file that is not UTF-8 is reported the same way in a file and on the screen. -/
theorem pair_presented :
    (run barren.grammar (pair [0xff]) [] ["p", "--out", "r.txt"]).result = .ok 1 ∧
    (run barren.grammar (pair [0xff]) [] ["p", "--verbose"]).result = .ok 1 ∧
    (run barren.grammar (pair [0xff]) [] ["p", "--out", "r.txt"]).files.read "r.txt" =
      .ok (run barren.grammar (pair [0xff]) [] ["p", "--verbose"]).stdout.toUTF8.data.toList ∧
    KeptBut (some "r.txt") (pair [0xff])
      (run barren.grammar (pair [0xff]) [] ["p", "--out", "r.txt"]).files := by
  have hparse : parse ["p", "--out", "r.txt"] = .ok (.check toFile) := rfl
  have hparse' : parse ["p", "--verbose"] =
      .ok (.check { project := "p", verbose := true }) := rfl
  have hcode : (run barren.grammar (pair [0xff]) [] ["p", "--out", "r.txt"]).result = .ok 1 := by
    rw [run, hparse, ← codeOf_pair]
    exact check_result ⟨rfl, rfl, rfl⟩ canWrite_pair starts_pair
  have hwrite : Options.CanWrite { project := "p", verbose := true } (pair [0xff]) :=
    Options.canWrite_screen rfl _
  obtain ⟨hcode', -, hread, -, hkept, -⟩ := presentation_neutral barren.grammar (pair [0xff]) []
    hparse hparse' ⟨rfl, rfl, rfl⟩ hwrite hcode
  exact ⟨hcode, hcode', hread "r.txt" (by decide) rfl rfl rfl, hkept⟩

end CategoryAudit.CommandLine
