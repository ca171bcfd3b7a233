import Mathlib.Data.List.Infix
import CategoryAudit.Proofs.Failures
import CategoryAudit.Proofs.Files.Isolation

/-!
# Patterns from the environment

Any list of patterns can be handed over in the variable of the environment, each in single quotes
(`split_quoteAll`). The patterns come after those of the configuration. A run under them reports
the same as without, in the same order, on the files that they spare (`variable_excludes`).
-/

namespace CategoryAudit

namespace ShellWords

-- ---------------------------------------------------------------------------
-- Quoted words
-- ---------------------------------------------------------------------------

/-- A character between single quotes. A single quote ends them, stands in double quotes, and begins
them again. -/
def quoteChar (c : Char) : List Char :=
  if c = '\x27' then ['\x27', '\x22', '\x27', '\x22', '\x27'] else [c]

def quote (word : String) : String :=
  String.ofList ('\x27' :: word.toList.flatMap quoteChar ++ ['\x27'])

def quoteAll (words : List String) : String := " ".intercalate (words.map quote)

theorem splitFrom_quoteChars (words : List String) (word cs rest : List Char) :
    splitFrom words word (.quoted '\x27') (cs.flatMap quoteChar ++ '\x27' :: rest) =
      splitFrom words (cs.reverse ++ word) .word rest := by
  induction cs generalizing word with
  | nil => simp [splitFrom]
  | cons c cs ih =>
    by_cases hc : c = '\x27'
    · -- Out of the single quotes, through the double ones, and in again.
      simp [quoteChar, hc, splitFrom, isSeparator, ih]
    · simp [quoteChar, hc, splitFrom, ih]

theorem splitFrom_quote (words : List String) (word : String) (rest : List Char) :
    splitFrom words [] .between ((quote word).toList ++ rest) =
      splitFrom words word.toList.reverse .word rest := by
  simp [quote, splitFrom, isSeparator, splitFrom_quoteChars]

theorem splitFrom_quoteAll (before words : List String) :
    splitFrom before [] .between (quoteAll words).toList = .ok (before.reverse ++ words) := by
  induction words generalizing before with
  | nil => simp [quoteAll, splitFrom]
  | cons word rest ih =>
    cases rest with
    | nil =>
      have hone := splitFrom_quote before word []
      rw [List.append_nil] at hone
      simp [quoteAll, hone, splitFrom]
    | cons next rest =>
      have htext : (quoteAll (word :: next :: rest)).toList =
          (quote word).toList ++ ' ' :: (quoteAll (next :: rest)).toList := by
        simp [quoteAll]
      rw [htext, splitFrom_quote, splitFrom]
      simp [isSeparator, ih]

theorem split_quoteAll (words : List String) : split (quoteAll words) = .ok words :=
  splitFrom_quoteAll [] words

end ShellWords

-- ---------------------------------------------------------------------------
-- The configuration
-- ---------------------------------------------------------------------------

namespace Config

variable {fs : FileSystem} {env env' : Environment} {path project : Option String}

def excluding (c : Config) (patterns : List String) : Config :=
  { c with exclude := c.exclude ++ patterns }

theorem withVariable_none (h : env.lookup excludeVariable = none) (c : Config) :
    withVariable env c = .ok c := by
  simp only [withVariable, h]

theorem withVariable_quoteAll
    (h : env.lookup excludeVariable = some (ShellWords.quoteAll patterns)) (c : Config) :
    withVariable env c = .ok (c.excluding patterns) := by
  simp only [withVariable, h, ShellWords.split_quoteAll, excluding]

theorem load_excluding (h : env.lookup excludeVariable = none)
    (h' : env'.lookup excludeVariable = some (ShellWords.quoteAll patterns))
    (hload : (load fs env path project).result = .ok c) :
    (load fs env' path project).result = .ok (c.excluding patterns) := by
  rw [load_result] at hload ⊢
  cases hraw : rawMapping fs path project with
  | error e => simp [hraw] at hload
  | ok m =>
    simp only [hraw, withVariable_none h, withVariable_quoteAll h'] at hload ⊢
    split at hload
    · cases hload
      simp [*]
    · cases hload

end Config

-- ---------------------------------------------------------------------------
-- The files
-- ---------------------------------------------------------------------------

/-- No pattern stands for the relative path or the name of an entry on the way along some names. -/
def Glob.Spares (patterns names : List String) : Prop :=
  ∀ front ∈ names.inits, front ≠ [] → ∀ pattern ∈ patterns,
    accepts pattern ("/".intercalate front) = false ∧ accepts pattern (front.getLastD "") = false

instance (patterns names : List String) : Decidable (Glob.Spares patterns names) :=
  inferInstanceAs (Decidable (∀ front ∈ names.inits, _))

theorem Config.selects_excluding (c : Config) (patterns : List String) :
    (c.excluding patterns).Selects entries names ↔
      c.Selects entries names ∧ Glob.Spares patterns names := by
  constructor
  · rintro ⟨hfile, hsuffix, hkept⟩
    refine ⟨⟨hfile, hsuffix, fun front hne hfront pattern hp => ?_⟩,
      fun front hfront hne pattern hp => ?_⟩
    · exact hkept front hne hfront pattern (List.mem_append_left _ hp)
    · exact hkept front hne ((List.mem_inits _ _).mp hfront) pattern (List.mem_append_right _ hp)
  · rintro ⟨⟨hfile, hsuffix, hkept⟩, hspared⟩
    refine ⟨hfile, hsuffix, fun front hne hfront pattern hp => ?_⟩
    rcases List.mem_append.mp hp with hp | hp
    · exact hkept front hne hfront pattern hp
    · exact hspared front ((List.mem_inits _ _).mpr hfront) hne pattern hp

namespace FileSystem

variable {fs : FileSystem}

/-- Under a configuration that selects only some of the files of another, those are collected, in
the same order. -/
theorem collect_narrowed (hp : Proper fs.root) {c c' : Config} {keeps : List String → Prop}
    [DecidablePred keeps]
    (hselects : ∀ entries names, c'.Selects entries names ↔ c.Selects entries names ∧ keeps names)
    (directory : String) :
    ∃ files : List (List String), (∀ names ∈ files, ∀ name ∈ names, IsName name) ∧
      fs.collect c directory = files.map (·.foldl Path.join directory) ∧
      fs.collect c' directory = (files.filter (keeps ·)).map (·.foldl Path.join directory) := by
  rcases h : fs.lookup directory with err | ⟨_ | entries⟩
  · exact ⟨[], nofun, by rw [collect, h]; rfl, by rw [collect, h]; rfl⟩
  · exact ⟨[], nofun, by rw [collect, h]; rfl, by rw [collect, h]; rfl⟩
  obtain ⟨files, -, hmem, heq, hsorted⟩ := collect_eq hp c h
  obtain ⟨files', -, hmem', heq', hsorted'⟩ := collect_eq hp c' h
  have hkept : files' = files.filter (keeps ·) := by
    refine files_unique (hsorted.filter _) hsorted' fun names => ?_
    rw [hmem', hselects, List.mem_filter, hmem, decide_eq_true_iff]
  refine ⟨files, fun names hnames => ?_, heq, by rw [heq', hkept]⟩
  obtain ⟨bytes, hfile⟩ := ((hmem names).mp hnames).isFile
  exact (proper_of_lookup hp h).at?_names hfile

end FileSystem

-- ---------------------------------------------------------------------------
-- Reports
-- ---------------------------------------------------------------------------

/-- A report that says what another says about the files that are kept. -/
structure Report.Restricts (r' r : Report) (kept removed : List String) : Prop where
  projectPath : r'.projectPath = r.projectPath
  findings : r'.findings = r.findings.filter (·.path ∈ kept)
  errors : r'.errors = r.errors.filter (·.path ∈ kept)
  filesAnalyzed : r'.filesAnalyzed = r.filesAnalyzed - removed.length

theorem restricts_ofResults {own : String → FileResult} (hown : ∀ file, (own file).Own file)
    {files kept removed : List String} (hkept : files.filter (· ∈ kept) = kept)
    (hcount : files.length = kept.length + removed.length) (project : String) :
    (Report.ofResults project (kept.map own)).Restricts (.ofResults project (files.map own))
      kept removed := by
  constructor
  · rfl
  · rw [findings_ofResults, findings_ofResults,
      filter_flatMap_key (fun file => (hown file).findings) files (· ∈ kept), hkept]
  · rw [errors_ofResults, errors_ofResults,
      filter_flatMap_key (fun file => (hown file).path_error) files (· ∈ kept), hkept]
  · simp [Report.ofResults, hcount]

theorem filter_mem_map {path : List String → String} {files : List (List String)}
    (hnodup : (files.map path).Nodup) (keep : List String → Bool) :
    (files.map path).filter (· ∈ (files.filter keep).map path) = (files.filter keep).map path := by
  rw [List.filter_map]
  congr 1
  refine List.filter_congr fun names hnames => ?_
  rw [Function.comp_apply, Bool.eq_iff_iff, decide_eq_true_iff, List.mem_map]
  constructor
  · rintro ⟨other, hother, heq⟩
    obtain ⟨hmem, hkeep⟩ := List.mem_filter.mp hother
    rwa [List.inj_on_of_nodup_map hnodup hmem hnames heq] at hkeep
  · exact fun hkeep => ⟨names, List.mem_filter.mpr ⟨hnames, hkeep⟩, rfl⟩

namespace Checker

variable {fs : FileSystem}

theorem restricts_excluding (k : Checker) (hp : Proper fs.root) {c : Config}
    {files : List (List String)}
    (hall : fs.collect c directory = files.map (·.foldl Path.join directory))
    (hspared : fs.collect (c.excluding patterns) directory =
      (files.filter (Glob.Spares patterns ·)).map (·.foldl Path.join directory))
    (project : String) :
    (Report.ofResults project (fs.checkAll (k.reader c) (c.excluding patterns) directory)).Restricts
      (.ofResults project (fs.checkAll (k.reader c) c directory))
      ((files.filter (Glob.Spares patterns ·)).map (·.foldl Path.join directory))
      ((files.filter (¬ Glob.Spares patterns ·)).map (·.foldl Path.join directory)) := by
  have hnodup : (files.map (·.foldl Path.join directory)).Nodup := by
    rw [← hall]
    exact (FileSystem.nodup_absolute hp c directory).of_map
  rw [FileSystem.checkAll, FileSystem.checkAll, hspared, hall]
  refine restricts_ofResults (fs.own_check _ _ _) (filter_mem_map hnodup _) ?_ project
  simpa using List.length_eq_length_filter_add (Glob.Spares patterns ·)

theorem run_result (k : Checker) (env : Config.Environment)
    (hd : fs.projectDirectory? project = some directory)
    (hload : (Config.load fs env none (some directory)).result = .ok c) :
    (k.run fs env project).result = k.runWith fs project c := by
  rw [run, runWith, hd]
  simp only [hload]

/-- The patterns of the variable come after those of the configuration. Under them, a run says the
same as without, on the files that they spare. -/
theorem variable_excludes (k : Checker) (fs : FileSystem) (hp : Proper fs.root)
    (hd : fs.projectDirectory? project = some directory)
    (henv : env.lookup Config.excludeVariable = none)
    (henv' : env'.lookup Config.excludeVariable = some (ShellWords.quoteAll patterns)) :
    (∀ path base c, (Config.load fs env path base).result = .ok c →
      (Config.load fs env' path base).result =
        .ok { c with exclude := c.exclude ++ patterns }) ∧
    ∀ c : Config, ∃ files : List (List String), (∀ names ∈ files, ∀ name ∈ names, IsName name) ∧
      fs.collect c directory = files.map (·.foldl Path.join directory) ∧
      fs.collect { c with exclude := c.exclude ++ patterns } directory =
        (files.filter (Glob.Spares patterns ·)).map (·.foldl Path.join directory) ∧
      ∃ r r' results results',
        k.runWith fs project c = .ok (r, results) ∧
        k.runWith fs project { c with exclude := c.exclude ++ patterns } = .ok (r', results') ∧
        ((Config.load fs env none (some directory)).result = .ok c →
          (k.run fs env project).result = .ok (r, results) ∧
          (k.run fs env' project).result = .ok (r', results')) ∧
        r'.Restricts r
          ((files.filter (Glob.Spares patterns ·)).map (·.foldl Path.join directory))
          ((files.filter (¬ Glob.Spares patterns ·)).map (·.foldl Path.join directory)) := by
  have hload {path base : Option String} {c : Config}
      (h : (Config.load fs env path base).result = .ok c) :
      (Config.load fs env' path base).result = .ok (c.excluding patterns) :=
    Config.load_excluding henv henv' h
  refine ⟨fun path base c => hload, fun c => ?_⟩
  obtain ⟨files, hnames, hall, hspared⟩ := FileSystem.collect_narrowed hp
    (fun _ _ => c.selects_excluding patterns) directory
  have hrun := k.runWith_eq hd c
  have hrun' := k.runWith_eq hd (c.excluding patterns)
  refine ⟨files, hnames, hall, hspared, _, _, _, _, hrun, hrun', fun h => ?_,
    k.restricts_excluding hp hall hspared project⟩
  exact ⟨(k.run_result env hd h).trans hrun, (k.run_result env' hd (hload h)).trans hrun'⟩

def awkwardPatterns : List String := ["obj", "it\x27s here", ""]

def awkwardEnvironment : Config.Environment :=
  [(Config.excludeVariable, "\x27obj\x27 \x27it\x27\x22\x27\x22\x27s here\x27 \x27\x27")]

open FileSystem (mixedProject mixedEntries mixedProject_proper)

theorem mixedProject_collect {c : Config} (hsources : sourcesIn c "" "p" mixedEntries =
    [⟨"b/x.CS", "p/b/x.CS"⟩, ⟨"b.cs", "p/b.cs"⟩]) :
    mixedProject.collect c "p" = ["p/b.cs", "p/b/x.CS"] := by
  have hlookup : mixedProject.lookup "p" = .ok (.directory mixedEntries) := rfl
  have hlater : ¬ Path.absolute mixedProject.working "p/b/x.CS" ≤
      Path.absolute mixedProject.working "p/b.cs" := by decide +kernel
  rw [FileSystem.collect, hlookup]
  simp [hsources, List.mergeSort, List.MergeSort.Internal.splitInTwo, hlater]

theorem awkward_collect :
    mixedProject.collect { exclude := awkwardPatterns } "p" = ["p/b.cs", "p/b/x.CS"] :=
  mixedProject_collect (by decide +kernel)

/-- Three patterns, of which one has a quote and a blank and one is empty. -/
theorem awkward_excluded :
    awkwardEnvironment.lookup Config.excludeVariable =
      some (ShellWords.quoteAll awkwardPatterns) ∧
    (Config.load mixedProject awkwardEnvironment none (some "p")).result =
      .ok { exclude := awkwardPatterns } ∧
    ∃ r r' results results' removed,
      (barren.run mixedProject [] "p").result = .ok (r, results) ∧
      (barren.run mixedProject awkwardEnvironment "p").result = .ok (r', results') ∧
      r'.Restricts r ["p/b.cs", "p/b/x.CS"] removed := by
  have hd : mixedProject.projectDirectory? "p" = some "p" := rfl
  have henv : awkwardEnvironment.lookup Config.excludeVariable =
      some (ShellWords.quoteAll awkwardPatterns) := by decide +kernel
  have hload : (Config.load mixedProject [] none (some "p")).result = .ok {} := by
    rw [Config.load_result]
    rfl
  have hunset : ([] : Config.Environment).lookup Config.excludeVariable = none := rfl
  obtain ⟨hloads, hruns⟩ :=
    variable_excludes barren mixedProject mixedProject_proper hd hunset henv
  obtain ⟨files, -, -, hspared, r, r', results, results', -, -, hrun, hrestricts⟩ := hruns {}
  obtain ⟨hrun, hrun'⟩ := hrun hload
  rw [← hspared] at hrestricts
  rw [← awkward_collect]
  exact ⟨henv, hloads none (some "p") {} hload, r, r', results, results', _, hrun, hrun',
    hrestricts⟩

end Checker

end CategoryAudit
