import CategoryAudit.Proofs.Files.PartialParse
import CategoryAudit.Proofs.Presentation
import CategoryAudit.Proofs.Text.Strip

/-!
# The command line and the checker

A project can be checked from the command line or by the checker itself, which looks for the project
and its configuration on its own. The two agree: a call prints the report that the checker returns,
and refuses the projects that the checker refuses (`entry_points_agree`).
-/

namespace CategoryAudit

def Config.ofProject (fs : FileSystem) (env : Config.Environment) (project : String) :
    Except ProjectError Config :=
  match fs.projectDirectory? project with
  | none => .error (.notFound (Text.strip project))
  | some directory => (Config.load fs env none (some directory)).result.mapError .config

def ProjectError.isTold : ProjectError → Bool
  | .notFound _ => true
  | .config e => e.isConfigError

theorem FileSystem.projectDirectory?_strip (fs : FileSystem) (project : String) :
    fs.projectDirectory? (Text.strip project) = fs.projectDirectory? project := by
  rw [projectDirectory?, Text.strip_strip, projectDirectory?]

theorem Config.ofProject_strip (fs : FileSystem) (env : Config.Environment) (project : String) :
    Config.ofProject fs env (Text.strip project) = Config.ofProject fs env project := by
  rw [ofProject, Text.strip_strip, fs.projectDirectory?_strip, ofProject]

theorem Checker.run_ofProject (k : Checker) (fs : FileSystem) (env : Config.Environment)
    (project : String) : (k.run fs env project).result =
      Config.ofProject fs env project >>= k.runWith fs project := by
  unfold run Config.ofProject
  cases hd : fs.projectDirectory? project with
  | none => rfl
  | some directory =>
    cases hl : (Config.load fs env none (some directory)).result with
    | error e => simp only [hl]; rfl
    | ok c =>
      have hrun : k.runWith fs project c = .ok (k.runIn fs project directory c) := by
        rw [runWith, hd]
      simp only [hl]
      exact hrun.symm

namespace CommandLine

open Config (Environment)

-- ---------------------------------------------------------------------------
-- The arguments
-- ---------------------------------------------------------------------------

theorem text_eq_of_plain {c : Prop} [Decidable c] {s : String}
    (h : (pure (if c then .plain s else .unknown s) : Except UsageError Argument) =
      .ok (.plain text)) : text = s := by
  split at h <;> cases h
  rfl

theorem plain_of_classifyShortened (h : classifyShortened s = .ok (.plain text)) : text = s := by
  unfold classifyShortened at h
  generalize splitEquals s = parts at h
  simp only at h
  split at h
  · cases h
  · split at h
    · cases h
    · exact text_eq_of_plain h
    · cases h
  · exact text_eq_of_plain h

theorem plain_of_classify (h : classify s = .ok (.plain text)) : text = s := by
  unfold classify at h
  split at h
  · cases h
    rfl
  · simp only at h
    split at h
    · cases h
    · split at h
      · cases h
      · split at h
        · cases h
        · exact plain_of_classifyShortened h

theorem afterHelp_ne_check (more : List Char) (o : Options) :
    afterHelp more ≠ .ok (.check o) := by
  fun_induction afterHelp more <;> simp_all

theorem parse_json (h : parse [project, "--format", "json"] = .ok (.check o)) :
    classify project = .ok (.plain project) ∧ o = { project, format := .json } := by
  have hrest : classifyAll ["--format", "json"] = .ok [.option .format none, .plain "json"] := rfl
  rw [parse, classifyAll, hrest] at h
  cases hc : classify project with
  | error e => rw [hc] at h; cases h
  | ok argument =>
    rw [hc] at h
    cases argument with
    | plain text =>
      obtain rfl := plain_of_classify hc
      cases h
      exact ⟨rfl, rfl⟩
    | dashes => cases h
    | unknown text => cases h
    | letters more => exact absurd h (afterHelp_ne_check more o)
    | option flag value =>
      -- Without a project, whatever the option does, the call is refused.
      cases value with
      | none => cases flag <;> cases h
      | some value =>
        cases flag with
        | format =>
          change ((Reading.withValue {} .format value) >>= fun r =>
            readAll r [.option .format none, .plain "json"]) = _ at h
          rw [Reading.withValue] at h
          cases hformat : format? value <;> rw [hformat] at h <;> cases h
        | _ => cases h

theorem parse_partial (h : classify project = .ok (.plain project)) :
    parse [project, "--format", "json", "--allow-partial-parse"] =
      .ok (.check { project, format := .json, allowPartialParse := true }) := by
  have hrest : classifyAll ["--format", "json", "--allow-partial-parse"] =
      .ok [.option .format none, .plain "json", .option .allowPartialParse none] := rfl
  rw [parse, classifyAll, h, hrest]
  rfl

-- ---------------------------------------------------------------------------
-- The report of a call
-- ---------------------------------------------------------------------------

/-- A call ends as a run of the checker does: it prints the report with the code for it, ends with
code 2 for an error of the project or its configuration, and is ended by any other error. -/
structure Agrees (outcome : Outcome) (own : Except ProjectError (Report × List FileResult)) :
    Prop where
  prints : ∀ report results, own = .ok (report, results) →
    outcome.result = .ok (codeOf report) ∧ outcome.stdout = report.toJson.render ++ "\n"
  refuses : outcome.result = .ok exitUsage ↔ ∃ e, own = .error e ∧ e.isTold
  escapes : ∀ e, own = .error (.config e) → e.isConfigError = false →
    outcome.result = .error (.config e)

theorem codeOf_ne_usage (r : Report) : codeOf r ≠ exitUsage := by
  rcases codeOf_cases r with ⟨h, -⟩ | ⟨h, -⟩ <;> simp [h, exitUsage]

theorem Agrees.of_report (hresult : outcome.result = .ok (codeOf report))
    (hstdout : outcome.stdout = report.toJson.render ++ "\n") :
    Agrees outcome (.ok (report, results)) := by
  refine ⟨fun r _ h => ?_, iff_of_false (fun h => ?_) nofun, nofun⟩
  · cases h
    exact ⟨hresult, hstdout⟩
  · exact codeOf_ne_usage report (Except.ok.inj (hresult.symm.trans h))

theorem Agrees.of_told {e : ProjectError} (hresult : outcome.result = .ok exitUsage)
    (he : e.isTold) : Agrees outcome (.error e) := by
  refine ⟨nofun, iff_of_true hresult ⟨e, rfl, he⟩, fun e' h hescapes => ?_⟩
  cases h
  exact absurd (he.symm.trans hescapes) nofun

theorem Agrees.of_escaped {e : Config.LoadError} (hresult : outcome.result = .error (.config e))
    (he : e.isConfigError = false) : Agrees outcome (.error (.config e)) := by
  refine ⟨nofun, iff_of_false (by simp [hresult]) ?_, fun e' h _ => ?_⟩
  · rintro ⟨_, h, htold⟩
    cases h
    exact absurd (he.symm.trans htold) nofun
  · cases h
    exact hresult

theorem check_agrees (grammar : String → Concrete.Tree) (fs : FileSystem) (env : Environment)
    {o : Options} (hconfig : o.config = none) (hout : o.outFile? = none)
    (hformat : o.format = .json) :
    Agrees (check grammar fs env o) (Config.ofProject fs env o.project >>= fun c =>
      Checker.runWith ⟨grammar, none⟩ fs (Text.strip o.project) (o.configure c)) := by
  cases hd : fs.projectDirectory? o.project with
  | none =>
    rw [Config.ofProject, hd]
    exact .of_told (by rw [check, hd]) rfl
  | some directory =>
    cases hl : (Config.load fs env none (some directory)).result with
    | error e =>
      have hcheck : (check grammar fs env o).result =
          if e.isConfigError then .ok exitUsage else .error (.config e) := by
        simp only [check, hd, hconfig, hl]
        split <;> rfl
      rw [Config.ofProject, hd]
      simp only [hl]
      cases he : e.isConfigError with
      | true => exact .of_told (by simp [hcheck, he]) he
      | false => exact .of_escaped (by simp [hcheck, he]) he
    | ok c =>
      have hs : Starts fs env o directory c := ⟨hd, hconfig ▸ hl⟩
      obtain ⟨stderr, hcheck⟩ := check_started grammar hs
      have hproject : Config.ofProject fs env o.project = pure c := by
        rw [Config.ofProject, hd]
        simp only [hl]
        rfl
      have hrun : Checker.runWith ⟨grammar, none⟩ fs (Text.strip o.project) (o.configure c) =
          .ok (o.report grammar fs directory c, fs.checkAll
            (Checker.reader ⟨grammar, none⟩ (o.configure c)) (o.configure c) directory) :=
        Checker.runWith_eq _ ((fs.projectDirectory?_strip o.project).trans hd) _
      have hnone : o.out.filter (· != "") = none := hout
      rw [hproject, pure_bind, hrun, hcheck, emit, hformat, hnone]
      exact .of_report rfl rfl

/-- A call for the report of a project in JSON agrees with the checker on that project; and with
broken files read in part, it agrees with the checker under the configuration of the project in
which only this is changed. -/
theorem entry_points_agree (grammar : String → Concrete.Tree) (fs : FileSystem) (env : Environment)
    (h : parse [project, "--format", "json"] = .ok (.check o)) :
    Agrees (run grammar fs env [project, "--format", "json"])
      (Checker.run ⟨grammar, none⟩ fs env (Text.strip project)).result ∧
    Agrees (run grammar fs env [project, "--format", "json", "--allow-partial-parse"])
      (Config.ofProject fs env (Text.strip project) >>= fun c =>
        Checker.runWith ⟨grammar, none⟩ fs (Text.strip project)
          { c with allowPartialParse := true }) := by
  obtain ⟨hplain, rfl⟩ := parse_json h
  rw [run, run, h, parse_partial hplain, Checker.run_ofProject, Config.ofProject_strip]
  exact ⟨check_agrees grammar fs env rfl rfl rfl, check_agrees grammar fs env rfl rfl rfl⟩

open Checker (soleFile brokenGrammar brokenBytes)

/-- A project with blanks around it, whose only file is broken: the call prints the report of the
checker, and the test method of the file is in it only if broken files are read in part. -/
theorem soleFile_agrees : ∃ own inPart : Report,
    parse [" p ", "--format", "json"] = .ok (.check { project := " p ", format := .json }) ∧
    (run brokenGrammar (soleFile brokenBytes) [] [" p ", "--format", "json"]).stdout =
      own.toJson.render ++ "\n" ∧
    (run brokenGrammar (soleFile brokenBytes) []
      [" p ", "--format", "json", "--allow-partial-parse"]).stdout =
        inPart.toJson.render ++ "\n" ∧
    own.findings = [] ∧ inPart.findings = [⟨"N.C.M", "p/a.cs", 1⟩] := by
  have hparse : parse [" p ", "--format", "json"] =
      .ok (.check { project := " p ", format := .json }) := rfl
  have hstrip : Text.strip " p " = "p" := rfl
  have hd : (soleFile brokenBytes).projectDirectory? "p" = some "p" := rfl
  have hproject : Config.ofProject (soleFile brokenBytes) [] "p" = pure {} := by
    rw [Config.ofProject, hd]
    simp only [Config.load_result]
    rfl
  have hown := Checker.runWith_partial brokenGrammar {} hd false
  have hinPart := Checker.runWith_partial brokenGrammar {} hd true
  obtain ⟨hplain, hforced⟩ := entry_points_agree brokenGrammar (soleFile brokenBytes) [] hparse
  rw [hstrip, Checker.run_ofProject, hproject, pure_bind] at hplain
  rw [hstrip, hproject, pure_bind] at hforced
  exact ⟨_, _, hparse, (hplain.prints _ _ hown).2, (hforced.prints _ _ hinPart).2,
    Checker.soleFile_findings false hown, Checker.soleFile_findings true hinPart⟩

end CommandLine

end CategoryAudit
