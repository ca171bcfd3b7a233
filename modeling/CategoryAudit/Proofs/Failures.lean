import Mathlib
import CategoryAudit.CommandLine

/-!
# Failures of configuration

A configuration that cannot be loaded should be told as an error of the configuration, and a call
should then end with code 2. Five things escape this: a null character in the path, a file that is
not UTF-8, a scalar without a value of its type, a key with too many digits to be shown, and a
variable that does not split into words. `failures_reported` says that everything else is told.
-/

namespace CategoryAudit

namespace Config

open Yaml (Scalar Value)

-- ---------------------------------------------------------------------------
-- Keys that cannot be shown
-- ---------------------------------------------------------------------------

/-- A mapping, or the mapping of its markers, has a whole number with too many digits as a key. -/
inductive HasEndlessKey (m : Mapping) : Prop
  | top (n : Int) (v : Value) : (.int n, v) ∈ m → Nat.pow 10 Yaml.digitLimit ≤ n.natAbs →
      HasEndlessKey m
  | marker (n : Int) (v : Value) (entries : Mapping) :
      Yaml.lookup? markersKey m = some (.map entries) → (.int n, v) ∈ entries →
      Nat.pow 10 Yaml.digitLimit ≤ n.natAbs → HasEndlessKey m

theorem isShowable_eq_false {key : Scalar} : key.isShowable = false ↔
    ∃ n : Int, key = .int n ∧ Nat.pow 10 Yaml.digitLimit ≤ n.natAbs := by
  cases key <;> simp [Scalar.isShowable]

theorem isShowable_unknownKey (key : Scalar) :
    (Warning.unknownKey key).isShowable = key.isShowable := rfl

theorem isShowable_unknownMarker (name : Scalar) :
    (Warning.unknownMarker name).isShowable = name.isShowable := rfl

theorem not_endless_readKey {α : Type} {read : Value → Option α} {warning : String → Warning}
    (hw : ∀ key, (warning key).isShowable = true) (key : String) (default : α) (m : Mapping) :
    ∀ w ∈ (readKey read warning key default m).2, w.isShowable = true := by
  intro w hmem
  unfold readKey at hmem
  split at hmem
  · cases hmem
  · split at hmem
    · cases hmem
    · rw [List.mem_singleton.mp hmem]
      exact hw key

theorem endless_markers {m : Mapping} :
    (∃ w ∈ (readMarkers m).2, w.isShowable = false) ↔ ∃ n v entries,
      Yaml.lookup? markersKey m = some (.map entries) ∧ (Scalar.int n, v) ∈ entries ∧
        Nat.pow 10 Yaml.digitLimit ≤ n.natAbs := by
  constructor
  · rintro ⟨w, hmem, hw⟩
    unfold readMarkers at hmem
    split at hmem
    · cases hmem
    · cases hmem
    · rename_i entries hm
      obtain ⟨⟨key, v⟩, hentry, hwarning⟩ := List.mem_filterMap.mp hmem
      simp only [markerWarning?] at hwarning
      split at hwarning
      · cases hwarning
        rw [isShowable_unknownMarker] at hw
        obtain ⟨n, rfl, hn⟩ := isShowable_eq_false.mp hw
        exact ⟨n, v, entries, hm, hentry, hn⟩
      · split at hwarning
        · cases hwarning
        · cases hwarning
          cases hw
    · rw [List.mem_singleton.mp hmem] at hw
      cases hw
  · rintro ⟨n, v, entries, hm, hentry, hn⟩
    have hw : (Warning.unknownMarker (.int n)).isShowable = false := by
      rw [isShowable_unknownMarker]
      exact isShowable_eq_false.mpr ⟨n, rfl, hn⟩
    refine ⟨_, ?_, hw⟩
    rw [readMarkers, hm]
    exact List.mem_filterMap.mpr ⟨(.int n, v), hentry, rfl⟩

theorem endless_iff {m : Mapping} :
    (∃ w ∈ (ofMapping m).2, w.isShowable = false) ↔ HasEndlessKey m := by
  constructor
  · rintro ⟨w, hmem, hw⟩
    simp only [ofMapping, List.mem_append] at hmem
    rcases hmem with ((((hmem | hmem) | hmem) | hmem) | hmem) | hmem
    · obtain ⟨⟨key, v⟩, hentry, hwarning⟩ := List.mem_filterMap.mp hmem
      simp only at hwarning
      split at hwarning
      · cases hwarning
      · cases hwarning
        rw [isShowable_unknownKey] at hw
        obtain ⟨n, rfl, hn⟩ := isShowable_eq_false.mp hw
        exact .top n v hentry hn
    · obtain ⟨n, v, entries, hm, hentry, hn⟩ := endless_markers.mp ⟨w, hmem, hw⟩
      exact .marker n v entries hm hentry hn
    all_goals
      rw [not_endless_readKey (fun _ => rfl) _ _ _ w hmem] at hw
      cases hw
  · intro h
    cases h with
    | top n v hentry hn =>
      have hw : (Warning.unknownKey (.int n)).isShowable = false := by
        rw [isShowable_unknownKey]
        exact isShowable_eq_false.mpr ⟨n, rfl, hn⟩
      refine ⟨_, ?_, hw⟩
      simp only [ofMapping, List.mem_append]
      exact .inl (.inl (.inl (.inl (.inl (List.mem_filterMap.mpr ⟨(.int n, v), hentry, rfl⟩)))))
    | marker n v entries hm hentry hn =>
      obtain ⟨w, hmem, hw⟩ := endless_markers.mpr ⟨n, v, entries, hm, hentry, hn⟩
      refine ⟨w, ?_, hw⟩
      simp only [ofMapping, List.mem_append]
      exact .inl (.inl (.inl (.inl (.inr hmem))))

-- ---------------------------------------------------------------------------
-- Failures to load
-- ---------------------------------------------------------------------------

def unified (text : String) : String := String.ofList (unifyBreaks text.toList)

def mappingOf (path : String) : Except Yaml.Fault Value → Except LoadError Mapping
  | .error .malformed => .error (.malformed path)
  | .error fault => .error (.badScalar fault)
  | .ok (.scalar .null) => .ok []
  | .ok (.map entries) => .ok entries
  | .ok _ => .error (.notMapping path)

theorem mappingOf_escapes {path : String} {loaded : Except Yaml.Fault Value} :
    (∃ e, mappingOf path loaded = .error e ∧ e.isConfigError = false) ↔
      ∃ fault, loaded = .error fault ∧ fault ≠ .malformed := by
  constructor
  · rintro ⟨e, h, he⟩
    unfold mappingOf at h
    split at h
    · cases h; cases he
    · rename_i fault hfault
      exact ⟨fault, rfl, hfault⟩
    · cases h
    · cases h
    · cases h; cases he
  · rintro ⟨fault, rfl, hfault⟩
    exact ⟨.badScalar fault, by rw [mappingOf]; exact hfault, rfl⟩

theorem readMapping_eq (fs : FileSystem) (path : String) : readMapping fs path =
    if '\x00' ∈ path.toList then .error .nullInPath
    else match fs.read path with
      | .error .noSuchFile => .error (.notFound path)
      | .error e => .error (.unreadable path e)
      | .ok bytes =>
        match Text.Utf8.decode bytes with
        | .error e => .error (decodeError bytes e)
        | .ok text => mappingOf path (Yaml.load (unified text)) := by
  unfold readMapping
  by_cases hnull : '\x00' ∈ path.toList
  · rw [if_pos (List.contains_iff_mem.mpr hnull), if_pos hnull]
    rfl
  · rw [if_neg (by simpa using hnull), if_neg hnull]
    cases fs.read path with
    | error e => cases e <;> rfl
    | ok bytes =>
      simp only [pure, Except.pure, bind, Except.bind]
      cases Text.Utf8.decode bytes with
      | error e => rfl
      | ok text =>
        simp only [unified]
        rcases Yaml.load (String.ofList (unifyBreaks text.toList)) with fault | ⟨s | _ | _ | _⟩
        · cases fault <;> rfl
        · cases s <;> rfl
        all_goals rfl

inductive ReadEscapes (fs : FileSystem) (path : String) : Prop
  | nullInPath : '\x00' ∈ path.toList → ReadEscapes fs path
  | undecodable : fs.read path = .ok bytes → Text.Utf8.decode bytes = .error e → ReadEscapes fs path
  | badScalar : fs.read path = .ok bytes → Text.Utf8.decode bytes = .ok text →
      Yaml.load (unified text) = .error fault → fault ≠ .malformed → ReadEscapes fs path

theorem readMapping_escapes {fs : FileSystem} {path : String} :
    (∃ e, readMapping fs path = .error e ∧ e.isConfigError = false) ↔ ReadEscapes fs path := by
  rw [readMapping_eq]
  by_cases hnull : '\x00' ∈ path.toList
  · rw [if_pos hnull]
    exact ⟨fun _ => .nullInPath hnull, fun _ => ⟨_, rfl, rfl⟩⟩
  rw [if_neg hnull]
  constructor
  · rintro ⟨e, h, he⟩
    split at h
    · cases h; cases he
    · cases h; cases he
    · rename_i bytes hread
      split at h
      · rename_i fault hdecode
        exact .undecodable hread hdecode
      · rename_i text hdecode
        obtain ⟨fault, hload, hfault⟩ := mappingOf_escapes.mp ⟨e, h, he⟩
        exact .badScalar hread hdecode hload hfault
  · rintro (h | ⟨hread, hdecode⟩ | ⟨hread, hdecode, hload, hfault⟩)
    · exact absurd h hnull
    · rw [hread]
      simp only [hdecode]
      exact ⟨_, rfl, rfl⟩
    · rw [hread]
      simp only [hdecode]
      exact mappingOf_escapes.mpr ⟨_, hload, hfault⟩

section
variable {fs : FileSystem} {env : Environment} {path project : Option String}

/-- The mapping that a configuration is made from. It is empty without a file. -/
def rawMapping (fs : FileSystem) (path project : Option String) : Except LoadError Mapping :=
  match source? fs path project with
  | none => .ok []
  | some file => readMapping fs file

/-- Loading builds a configuration from the mapping that is read, and then adds the patterns of the
environment. -/
theorem load_eq_build (fs : FileSystem) (env : Environment) (path project : Option String) :
    load fs env path project = match rawMapping fs path project with
      | .error e => ⟨.error e, ""⟩
      | .ok m => ⟨(build m).result >>= withVariable env, String.join ((build m).told.map fun w =>
          reportLine (w.message ((source? fs path project).getD "<defaults>")))⟩ := by
  unfold load rawMapping
  cases source? fs path project with
  | none => rfl
  | some file =>
    simp only [Option.mapM_some]
    cases readMapping fs file <;> rfl

theorem load_result : (load fs env path project).result =
    match rawMapping fs path project with
    | .error e => .error e
    | .ok m => if (ofMapping m).2.all (·.isShowable) then withVariable env (ofMapping m).1
        else .error .endlessKey := by
  rw [load_eq_build]
  cases rawMapping fs path project with
  | error e => rfl
  | ok m =>
    simp only [build]
    split <;> rfl

/-- Loading a configuration ends in an error that is not told as one of the configuration. -/
inductive Escapes (fs : FileSystem) (env : Environment) (path project : Option String) : Prop
  | reading : source? fs path project = some file → ReadEscapes fs file →
      Escapes fs env path project
  | endlessKey : rawMapping fs path project = .ok m → HasEndlessKey m →
      Escapes fs env path project
  | badVariable : rawMapping fs path project = .ok m → env.lookup excludeVariable = some extra →
      ShellWords.split extra = .error fault → Escapes fs env path project

theorem withVariable_error {c : Config} (h : withVariable env c = .error e) :
    ∃ extra fault, env.lookup excludeVariable = some extra ∧
      ShellWords.split extra = .error fault ∧ e = .badVariable fault := by
  unfold withVariable at h
  split at h
  · cases h
  · rename_i extra henv
    split at h
    · cases h
    · rename_i fault hsplit
      cases h
      exact ⟨extra, fault, henv, hsplit, rfl⟩

theorem load_escapes : (∃ e, (load fs env path project).result = .error e ∧
    e.isConfigError = false) ↔ Escapes fs env path project := by
  rw [load_result]
  constructor
  · rintro ⟨e, h, he⟩
    split at h
    · rename_i e' hraw
      cases h
      unfold rawMapping at hraw
      split at hraw
      · cases hraw
      · rename_i file hsource
        exact .reading hsource (readMapping_escapes.mp ⟨e, hraw, he⟩)
    · rename_i m hraw
      split at h
      · obtain ⟨extra, fault, henv, hsplit, -⟩ := withVariable_error h
        exact .badVariable hraw henv hsplit
      · rename_i hall
        refine .endlessKey hraw (endless_iff.mp ?_)
        simpa using hall
  · intro h
    cases h with
    | reading hsource hread =>
      obtain ⟨e, hfile, he⟩ := readMapping_escapes.mpr hread
      refine ⟨e, ?_, he⟩
      simp only [rawMapping, hsource, hfile]
    | @endlessKey m hraw hkey =>
      have hall : (ofMapping m).2.all (·.isShowable) = false := by
        simpa using endless_iff.mpr hkey
      refine ⟨.endlessKey, ?_, rfl⟩
      rw [hraw]
      simp only [hall]
      rfl
    | @badVariable m extra fault hraw henv hsplit =>
      rw [hraw]
      simp only
      split
      · exact ⟨.badVariable fault, by rw [withVariable, henv]; simp only [hsplit], rfl⟩
      · exact ⟨.endlessKey, rfl, rfl⟩

end

end Config

-- ---------------------------------------------------------------------------
-- Codes of calls
-- ---------------------------------------------------------------------------

namespace CommandLine

open Config (Environment Escapes)

/-- The report can be written where the options say. -/
def Options.CanWrite (o : Options) (fs : FileSystem) : Prop :=
  ∀ path, o.out = some path → path ≠ "" → ∀ bytes, ∃ files, fs.write path bytes = .ok files

theorem Options.canWrite_screen {o : Options} (hout : o.out = none) (fs : FileSystem) :
    o.CanWrite fs := by
  intro path hpath
  rw [hout] at hpath
  cases hpath

theorem Options.canWrite_file {o : Options} {fs : FileSystem} (hout : o.out = some path)
    (hwrite : ∀ bytes, ∃ files, fs.write path bytes = .ok files) : o.CanWrite fs := by
  intro path' hpath _
  cases hout.symm.trans hpath
  exact hwrite

/-- The project is not there, or no configuration can be loaded for it. -/
inductive CannotStart (fs : FileSystem) (env : Environment) (o : Options) : Prop
  | notFound : fs.projectDirectory? o.project = none → CannotStart fs env o
  | noConfig : fs.projectDirectory? o.project = some directory →
      (Config.load fs env o.config (some directory)).result = .error e → CannotStart fs env o

/-- A call ends with one of the codes 0, 1 and 2, and with 2 exactly if it cannot start. -/
def Answered (outcome : Outcome) (cannotStart : Prop) : Prop :=
  ∃ code, outcome.result = .ok code ∧ code ≤ exitUsage ∧ (code = exitUsage ↔ cannotStart)

theorem emit_code (h : o.CanWrite fs) (markers : Markers) (report : Report) (stderr : String) :
    ∃ code, (emit fs o markers report stderr).result = .ok code ∧ code < exitUsage := by
  have hcode : (if report.isClean then exitOk else exitFindings) < exitUsage := by
    split <;> decide
  refine ⟨_, ?_, hcode⟩
  unfold emit
  simp only
  split
  · rfl
  · rename_i path hout
    obtain ⟨hout, hpath⟩ := Option.filter_eq_some_iff.mp hout
    obtain ⟨files, hwrite⟩ := h path hout (by simpa using hpath)
      (report.render o.format markers).toUTF8.data.toList
    rw [hwrite]

theorem answered_iff {fs : FileSystem} (h : o.CanWrite fs) (grammar : String → Concrete.Tree)
    (env : Environment) : Answered (check grammar fs env o) (CannotStart fs env o) ↔
      ∀ directory, fs.projectDirectory? o.project = some directory →
        ¬ Escapes fs env o.config (some directory) := by
  unfold check
  cases hd : fs.projectDirectory? o.project with
  | none =>
    refine ⟨fun _ => nofun, fun _ => ⟨exitUsage, rfl, Nat.le_refl _, ?_⟩⟩
    exact ⟨fun _ => .notFound hd, fun _ => rfl⟩
  | some directory =>
    simp only [Option.some.injEq, forall_eq']
    rw [← Config.load_escapes]
    cases hl : (Config.load fs env o.config (some directory)).result with
    | error e =>
      have hstart : CannotStart fs env o := .noConfig hd hl
      cases he : e.isConfigError with
      | true =>
        refine ⟨fun _ => ?_, fun _ => ⟨exitUsage, ?_, Nat.le_refl _, fun _ => hstart, fun _ => rfl⟩⟩
        · rintro ⟨e', h, he'⟩
          cases h
          rw [he] at he'
          cases he'
        · simp [he]
      | false =>
        refine ⟨?_, fun h => absurd ⟨e, rfl, he⟩ h⟩
        rintro ⟨code, hcode, -⟩
        simp [he] at hcode
    | ok c =>
      refine ⟨fun _ => ?_, fun _ => ?_⟩
      · rintro ⟨e, h, -⟩
        cases h
      obtain ⟨code, hcode, hlt⟩ := emit_code h _ _ _
      refine ⟨code, hcode, Nat.le_of_lt hlt, fun heq => absurd heq (Nat.ne_of_lt hlt), ?_⟩
      rintro (hnone | ⟨hsome, herror⟩)
      · rw [hd] at hnone
        cases hnone
      · rw [hd] at hsome
        cases hsome
        rw [hl] at herror
        cases herror

/-- Every failure to load a configuration is told as one of the configuration, and every call that
checks a project ends with a code, unless something escapes. Texts are taken to be without lone
surrogates: an escape in a configuration that asks for one (`Yaml.Scan.escape`) would let it load,
but end a call that has to print it in UTF-8. -/
theorem failures_reported (grammar : String → Concrete.Tree) (fs : FileSystem) (env : Environment)
    (hparse : parse arguments = .ok (.check o)) (hwrite : o.CanWrite fs) :
    (∀ path project, (∀ e, (Config.load fs env path project).result = .error e →
      e.isConfigError = true) ↔ ¬ Escapes fs env path project) ∧
    (Answered (run grammar fs env arguments) (CannotStart fs env o) ↔
      ∀ directory, fs.projectDirectory? o.project = some directory →
        ¬ Escapes fs env o.config (some directory)) := by
  refine ⟨fun path project => ?_, ?_⟩
  · rw [← Config.load_escapes]
    simp
  · rw [run, hparse]
    exact answered_iff hwrite grammar env

def bareProject : FileSystem := { root := [("p", .directory [])] }

theorem not_escapes_bareProject : ¬ Escapes bareProject [] none (some "p") := by
  have hsource : Config.source? bareProject none (some "p") = none := rfl
  have hraw : Config.rawMapping bareProject none (some "p") = .ok [] := rfl
  intro h
  cases h with
  | reading hfile _ =>
    rw [hsource] at hfile
    cases hfile
  | endlessKey hmapping hkey =>
    rw [hraw] at hmapping
    cases hmapping
    rcases hkey with ⟨n, v, hmem, -⟩ | ⟨n, v, entries, hmarkers, -⟩
    · cases hmem
    · cases hmarkers
  | badVariable _ henv _ => cases henv

def toFile : Options := { project := "p", out := some "r.txt" }

def configured (bytes : List UInt8) : FileSystem :=
  { root := [("p", .directory [(Config.defaultName, .file bytes)])] }

def fault? : Except ε α → Option ε
  | .error e => some e
  | .ok _ => none

theorem eq_error_of_fault? {x : Except ε α} (h : fault? x = some e) : x = .error e := by
  cases x with
  | error e' => rw [Option.some.inj h]
  | ok a => cases h

def unclosedBracket : List UInt8 := "exclude: [".toUTF8.data.toList

theorem load_unclosedBracket :
    (Config.load (configured unclosedBracket) [] none (some "p")).result =
      .error (.malformed "p/.catlint.yaml") :=
  eq_error_of_fault? (by decide +kernel)

def listed : List UInt8 := "- exclude".toUTF8.data.toList

theorem load_listed :
    (Config.load (configured listed) [] none (some "p")).result =
      .error (.notMapping "p/.catlint.yaml") :=
  eq_error_of_fault? (by decide +kernel)

/-- A project without files or configuration, with its report on the screen and in a file; and a
project with a configuration that is malformed, or else no mapping, answered with code 2. -/
theorem bareProject_answered :
    parse ["p"] = .ok (.check { project := "p" }) ∧
    Options.CanWrite { project := "p" } bareProject ∧
    Answered (run (fun _ => default) bareProject [] ["p"])
      (CannotStart bareProject [] { project := "p" }) ∧
    parse ["p", "--out", "r.txt"] = .ok (.check toFile) ∧
    toFile.CanWrite bareProject ∧
    Answered (run (fun _ => default) bareProject [] ["p", "--out", "r.txt"])
      (CannotStart bareProject [] toFile) ∧
    (run (fun _ => default) bareProject [] ["p", "--out", "r.txt"]).files.read "r.txt" =
      .ok ("Analyzing project: 'p'\n\n" ++
        "All TestMethods have the [TestCategory] attribute.\n").toUTF8.data.toList ∧
    (run (fun _ => default) (configured unclosedBracket) [] ["p"]).result = .ok exitUsage ∧
    (run (fun _ => default) (configured listed) [] ["p"]).result = .ok exitUsage := by
  have hparse : parse ["p"] = .ok (.check { project := "p" }) := rfl
  have hparseFile : parse ["p", "--out", "r.txt"] = .ok (.check toFile) := rfl
  have hscreen : ∀ fs, Options.CanWrite { project := "p" } fs := Options.canWrite_screen rfl
  have hfile : toFile.CanWrite bareProject := Options.canWrite_file rfl fun _ => ⟨_, rfl⟩
  have hbare : ∀ directory, bareProject.projectDirectory? "p" = some directory →
      ¬ Escapes bareProject [] none (some directory) := by
    intro directory hd
    have hp : bareProject.projectDirectory? "p" = some "p" := rfl
    cases hp.symm.trans hd
    exact not_escapes_bareProject
  have hrefused {bytes : List UInt8} {e : Config.LoadError}
      (hload : (Config.load (configured bytes) [] none (some "p")).result = .error e)
      (he : e.isConfigError = true) :
      (run (fun _ => default) (configured bytes) [] ["p"]).result = .ok exitUsage := by
    obtain ⟨htold, hanswered⟩ :=
      failures_reported (fun _ => default) (configured bytes) [] hparse (hscreen _)
    have hescapes : ¬ Escapes (configured bytes) [] none (some "p") := by
      refine (htold none (some "p")).mp fun e' he' => ?_
      cases hload.symm.trans he'
      exact he
    have hd : (configured bytes).projectDirectory? "p" = some "p" := rfl
    obtain ⟨code, hcode, -, husage⟩ := hanswered.mpr fun directory hdirectory => by
      cases hd.symm.trans hdirectory
      exact hescapes
    rw [hcode, husage.mpr (.noConfig hd hload)]
  exact ⟨hparse, hscreen _, (failures_reported _ bareProject [] hparse (hscreen _)).2.mpr hbare,
    hparseFile, hfile, (failures_reported _ bareProject [] hparseFile hfile).2.mpr hbare,
    by decide +kernel, hrefused load_unclosedBracket rfl, hrefused load_listed rfl⟩

def unclosedQuote : Environment := [(Config.excludeVariable, "'")]

def impossibleDate : List UInt8 := "2001-99-99".toUTF8.data.toList

theorem load_impossibleDate :
    Yaml.load (Config.unified "2001-99-99") = .error (.outOfRange "month must be in 1..12") :=
  eq_error_of_fault? (by decide +kernel)

/-- A quote that is not closed in the variable, and files that are not UTF-8 or hold a date that
does not exist, end a call without a code. -/
theorem failures_escaping :
    (Config.load bareProject unclosedQuote none (some "p")).result =
      .error (.badVariable .unclosedQuote) ∧
    Config.LoadError.isConfigError (.badVariable .unclosedQuote) = false ∧
    ¬ Answered (run (fun _ => default) bareProject unclosedQuote ["p"])
      (CannotStart bareProject unclosedQuote { project := "p" }) ∧
    ¬ Answered (run (fun _ => default) (configured [0xff]) [] ["p"])
      (CannotStart (configured [0xff]) [] { project := "p" }) ∧
    ¬ Answered (run (fun _ => default) (configured impossibleDate) [] ["p"])
      (CannotStart (configured impossibleDate) [] { project := "p" }) := by
  have hnot {fs : FileSystem} {env : Environment} (hd : fs.projectDirectory? "p" = some "p")
      (h : Escapes fs env none (some "p")) : ¬ Answered (run (fun _ => default) fs env ["p"])
        (CannotStart fs env { project := "p" }) := by
    have hparse : parse ["p"] = .ok (.check { project := "p" }) := rfl
    rw [run, hparse]
    exact fun ha => (answered_iff (Options.canWrite_screen rfl fs) _ env).mp ha "p" hd h
  refine ⟨?_, rfl, hnot rfl (.badVariable (m := []) rfl rfl rfl), hnot rfl ?_, hnot rfl ?_⟩
  · rw [Config.load_result]
    rfl
  · have hdecode : Text.Utf8.decode [0xff] = .error ⟨.invalidStart, 0⟩ := by cbv
    exact .reading rfl (.undecodable rfl hdecode)
  · have hdecode : Text.Utf8.decode impossibleDate = .ok "2001-99-99" := by cbv
    exact .reading rfl (.badScalar rfl hdecode load_impossibleDate (by simp))

end CommandLine

end CategoryAudit
