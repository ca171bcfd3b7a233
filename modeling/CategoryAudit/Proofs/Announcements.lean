import CategoryAudit.Proofs.Files.PartialParse
import CategoryAudit.Proofs.Presentation
import CategoryAudit.Proofs.Success

/-!
# Announcements

What a call announces on the way is what its report says in the end: one line for each finding, in
the order of the report. A line takes the name of a finding apart again at its last point, which
gives back the method and the class that the name was put together from exactly if the name of the
method has no point (`announcements_mirror`).
-/

namespace CategoryAudit

-- ---------------------------------------------------------------------------
-- The last point
-- ---------------------------------------------------------------------------

theorem splitLastPoint_join (front : String) {last : String} (h : '.' ∉ last.toList) :
    splitLastPoint (front ++ "." ++ last) = (front, last) := by
  have hlast : ∀ c ∈ last.toList.reverse, (c != '.') = true := by
    intro c hc
    exact bne_iff_ne.mpr fun heq => h (heq ▸ List.mem_reverse.mp hc)
  have hchars : (front ++ "." ++ last).toList.reverse =
      last.toList.reverse ++ '.' :: front.toList.reverse := by
    simp
  rw [splitLastPoint, hchars, List.takeWhile_append_of_pos hlast,
    List.dropWhile_append_of_pos hlast]
  simp

theorem no_point_after_last (s : String) : '.' ∉ (splitLastPoint s).2.toList := by
  unfold splitLastPoint
  intro h
  dsimp only at h
  split at h
  · simp only [String.toList_ofList, List.mem_reverse] at h
    simpa using List.mem_takeWhile_imp h
  · rename_i hnone
    rw [List.dropWhile_eq_nil_iff] at hnone
    simpa using hnone '.' (List.mem_reverse.mpr h)

-- ---------------------------------------------------------------------------
-- What findings are made for
-- ---------------------------------------------------------------------------

structure Uncategorized where
  scope : String
  owner : String
  method : String
  path : String
  line : Int

namespace Uncategorized

def finding (u : Uncategorized) : Finding :=
  ⟨u.scope ++ "." ++ u.owner ++ "." ++ u.method, u.path, u.line⟩

theorem split_finding_iff (u : Uncategorized) :
    splitLastPoint u.finding.qualifiedName = (u.scope ++ "." ++ u.owner, u.method) ↔
      '.' ∉ u.method.toList := by
  refine ⟨fun h => ?_, splitLastPoint_join _⟩
  have hnone := no_point_after_last u.finding.qualifiedName
  rwa [h] at hnone

def announcement (u : Uncategorized) (category : String) : String :=
  s!"  - Method '{u.method}' in class '{u.scope}.{u.owner}' is missing [{category}] attribute.\n"

theorem announcement_finding (u : Uncategorized) (h : '.' ∉ u.method.toList) (markers : Markers) :
    u.finding.announcement markers = u.announcement markers.testCategory := by
  unfold Finding.announcement announcement
  rw [u.split_finding_iff.mpr h]
  simp [toString, String.append_assoc]

end Uncategorized

namespace Outline

open Declaration (preorderAll perMethod)

/-- The test methods without a category of a file, in pre-order of their classes. -/
def uncategorized (o : Outline) (markers : Markers) (counts : Bool) : List Uncategorized :=
  (preorderAll o.declarations).flatMap <| perMethod fun kind owner method =>
    if owner.isTestClass markers kind && method.lacksCategory markers then
      some ⟨o.firstScope counts, owner.name.getD "", method.name.getD "", o.path, method.line⟩
    else none

theorem map_perMethod (f : α → β) (g : String → Header → Header → Option α) (d : Declaration) :
    (perMethod g d).map f = perMethod (fun kind owner method => (g kind owner method).map f) d := by
  cases d with
  | type kind owner members => rw [perMethod, perMethod, List.map_filterMap]
  | _ => rfl

theorem findings_analysis (o : Outline) (markers : Markers) (counts : Bool) :
    (o.analysis markers counts).findings =
      (o.uncategorized markers counts).map Uncategorized.finding := by
  rw [analysis, localFindings, uncategorized, List.map_flatMap, List.map_flatMap]
  refine List.flatMap_congr fun d _ => ?_
  rw [map_perMethod, map_perMethod]
  congr 1
  funext kind owner method
  unfold Header.finding?
  split <;> simp [Finding.within, Header.finding, Uncategorized.finding, String.append_assoc]

end Outline

def FileSystem.uncategorized (fs : FileSystem) (reader : SourceReader) (markers : Markers)
    (counts : Bool) (file : String) : List Uncategorized :=
  match fs.outline reader file with
  | .error _ => []
  | .ok o =>
    match o.analyze markers counts with
    | .error _ => []
    | .ok _ => o.uncategorized markers counts

theorem FileSystem.check_findings (fs : FileSystem) (reader : SourceReader) (markers : Markers)
    (counts : Bool) (file : String) :
    (fs.check reader markers counts file).findings =
      (fs.uncategorized reader markers counts file).map Uncategorized.finding := by
  unfold check FileResult.ofOutline uncategorized
  cases fs.outline reader file with
  | error e => rfl
  | ok o =>
    cases ha : o.analyze markers counts with
    | error e => simp only [ha, List.map_nil]
    | ok a =>
      obtain ⟨-, rfl⟩ := Outline.analyze_ok_iff.mp ha
      simp only [ha, Outline.findings_analysis]

-- ---------------------------------------------------------------------------
-- Calls
-- ---------------------------------------------------------------------------

namespace CommandLine

open Config (Environment)

variable {fs : FileSystem} {env : Environment} {o : Options}

/-- The test methods without a category of a project, file by file in the order of the files. -/
def Options.uncategorized (o : Options) (grammar : String → Concrete.Tree) (fs : FileSystem)
    (directory : String) (c : Config) : List Uncategorized :=
  (fs.collect (o.configure c) directory).flatMap
    (fs.uncategorized ((Checker.mk grammar none).reader (o.configure c)) c.markers
      c.fileScopedNamespaces)

theorem stderr_emit (fs : FileSystem) (o : Options) (markers : Markers) (report : Report)
    (stderr : String) : (emit fs o markers report stderr).stderr = stderr := by
  unfold emit
  dsimp only
  split
  · rfl
  · split <;> rfl

theorem join_announcements (markers : Markers) (results : List FileResult) :
    String.join (results.map (·.announcements markers)) =
      String.join ((results.flatMap (·.findings)).map (·.announcement markers)) := by
  induction results with
  | nil => rfl
  | cons r rest ih =>
    rw [List.map_cons, String.join_cons, ih, FileResult.announcements, ← String.join_append,
      ← List.map_append, ← List.flatMap_cons]

theorem Options.findings_report (o : Options) (grammar : String → Concrete.Tree)
    (fs : FileSystem) (directory : String) (c : Config) :
    (o.report grammar fs directory c).findings =
      (o.uncategorized grammar fs directory c).map Uncategorized.finding := by
  have hcounts : (o.configure c).fileScopedNamespaces = c.fileScopedNamespaces := by
    unfold Options.configure
    split <;> rfl
  unfold Options.report Options.uncategorized Checker.runIn FileSystem.checkAll
  dsimp only
  rw [findings_ofResults, List.map_flatMap, o.markers_configure, hcounts]
  exact List.flatMap_congr fun file _ => fs.check_findings _ _ _ file

theorem Options.said_verbose (hverbose : o.verbose = true) (grammar : String → Concrete.Tree)
    (fs : FileSystem) (env : Environment) (directory : String) (c : Config) :
    o.said grammar fs env directory c =
      (Config.load fs env o.config (some directory)).reported ++
        String.join
          ((o.report grammar fs directory c).findings.map (·.announcement c.markers)) := by
  rw [Options.said, if_pos hverbose, join_announcements]
  rfl

/-- A call that announces what it finds writes, after what it reports on the configuration, one line
for each finding of its report, in their order. A finding is made for a method of a class in a file
with a namespace; its line takes its name apart into these exactly if the name of the method has no
point, and then names the method and its class with the namespace. If the call gets that far, the
report is what it delivers. -/
theorem announcements_mirror (grammar : String → Concrete.Tree)
    (hparse : parse arguments = .ok (.check o)) (hverbose : o.verbose = true)
    (hs : Starts fs env o directory c) :
    (run grammar fs env arguments).stderr =
      (Config.load fs env o.config (some directory)).reported ++
        String.join ((o.report grammar fs directory c).findings.map (·.announcement c.markers)) ∧
    (o.report grammar fs directory c).findings =
      (o.uncategorized grammar fs directory c).map Uncategorized.finding ∧
    (∀ u ∈ o.uncategorized grammar fs directory c,
      (splitLastPoint u.finding.qualifiedName = (u.scope ++ "." ++ u.owner, u.method) ↔
        '.' ∉ u.method.toList) ∧
      ('.' ∉ u.method.toList →
        u.finding.announcement c.markers = u.announcement c.markers.testCategory)) ∧
    ((∀ u ∈ o.uncategorized grammar fs directory c, '.' ∉ u.method.toList) →
      (run grammar fs env arguments).stderr =
        (Config.load fs env o.config (some directory)).reported ++
          String.join ((o.uncategorized grammar fs directory c).map
            (·.announcement c.markers.testCategory))) ∧
    ∀ code, (run grammar fs env arguments).result = .ok code →
      Delivered fs o ((o.report grammar fs directory c).render o.format c.markers)
        (run grammar fs env arguments) := by
  have hrun : run grammar fs env arguments = check grammar fs env o := by rw [run, hparse]
  have hstderr : (run grammar fs env arguments).stderr =
      (Config.load fs env o.config (some directory)).reported ++
        String.join
          ((o.report grammar fs directory c).findings.map (·.announcement c.markers)) := by
    rw [hrun, check_eq grammar hs, stderr_emit, Options.said_verbose hverbose]
  refine ⟨hstderr, o.findings_report grammar fs directory c,
    fun u _ => ⟨u.split_finding_iff, fun h => u.announcement_finding h _⟩, fun hpoints => ?_,
    fun code hcode => ?_⟩
  · have hlines : ((o.uncategorized grammar fs directory c).map Uncategorized.finding).map
          (·.announcement c.markers) =
        (o.uncategorized grammar fs directory c).map
          (·.announcement c.markers.testCategory) := by
      rw [List.map_map]
      exact List.map_congr_left fun u hu => u.announcement_finding (hpoints u hu) _
    rw [hstderr, o.findings_report, hlines]
  · rw [hrun] at hcode ⊢
    exact (check_delivers hs hcode).2

open Checker (soleFile brokenGrammar brokenBytes soleFile_collect soleFile_check)

def aloud : Options := { project := "p", verbose := true, allowPartialParse := true }

theorem starts_aloud : Starts (soleFile brokenBytes) [] aloud "p" {} := by
  refine ⟨rfl, ?_⟩
  rw [Config.load_result]
  rfl

theorem findings_aloud :
    (aloud.report brokenGrammar (soleFile brokenBytes) "p" {}).findings =
      [⟨"N.C.M", "p/a.cs", 1⟩] := by
  have hcollect : (soleFile brokenBytes).collect (aloud.configure {}) "p" = ["p/a.cs"] := by
    rw [← soleFile_collect brokenBytes]
    exact FileSystem.collect_congr rfl rfl _ _
  unfold Options.report Checker.runIn FileSystem.checkAll
  dsimp only
  rw [findings_ofResults, hcollect, List.flatMap_singleton]
  exact soleFile_check.2

/-- The one finding of a project, announced on the way to the report. -/
theorem aloud_announced :
    (run brokenGrammar (soleFile brokenBytes) []
      ["p", "--verbose", "--allow-partial-parse"]).stderr =
        "  - Method 'M' in class 'N.C' is missing [TestCategory] attribute.\n" ∧
    aloud.uncategorized brokenGrammar (soleFile brokenBytes) "p" {} ≠ [] := by
  have hparse : parse ["p", "--verbose", "--allow-partial-parse"] = .ok (.check aloud) := rfl
  obtain ⟨hstderr, hfound, -⟩ :=
    announcements_mirror brokenGrammar hparse rfl starts_aloud
  have hreported : (Config.load (soleFile brokenBytes) [] aloud.config (some "p")).reported = "" :=
    rfl
  rw [findings_aloud] at hstderr hfound
  have hline : String.join
      ([(⟨"N.C.M", "p/a.cs", 1⟩ : Finding)].map (·.announcement ({} : Config).markers)) =
        "  - Method 'M' in class 'N.C' is missing [TestCategory] attribute.\n" := by
    rw [List.map_singleton, String.join_cons, String.join_nil, String.append_empty]
    exact Uncategorized.announcement_finding ⟨"N", "C", "M", "p/a.cs", 1⟩ (by decide) {}
  refine ⟨?_, fun hnone => ?_⟩
  · rw [hstderr, hline, hreported, String.empty_append]
  · rw [hnone] at hfound
    cases hfound

end CommandLine

end CategoryAudit
