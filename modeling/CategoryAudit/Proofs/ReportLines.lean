import CategoryAudit.Proofs.Announcements
import CategoryAudit.Proofs.WellFormed

/-!
# The lines of a report

The names of findings have no line breaks, so each stands on a line of its own in the text form of a
report, one after the other from the fourth line on. This holds of every run, whatever its files
hold (`names_on_lines`).
-/

namespace CategoryAudit

open Text (Blankless)

-- ---------------------------------------------------------------------------
-- Lines
-- ---------------------------------------------------------------------------

namespace Text

def lines (s : String) : List String := (s.toList.splitOn '\n').map String.ofList

theorem lines_intercalate {front : List String} (hne : front ≠ [])
    (h : ∀ l ∈ front, '\n' ∉ l.toList) (rest : String) :
    lines ("\n".intercalate front ++ "\n" ++ rest) = front ++ lines rest := by
  have hchars : ("\n".intercalate front ++ "\n" ++ rest).toList =
      ['\n'].intercalate (front.map String.toList) ++ '\n' :: rest.toList := by
    simp [String.toList_append, String.toList_intercalate]
  have hfront : ∀ l ∈ front.map String.toList, '\n' ∉ l := by
    simpa using h
  rw [lines, hchars, List.splitOn_append_cons_self, List.splitOn_intercalate _ hfront (by simpa),
    List.map_append, List.map_map]
  simp [lines, Function.comp_def]

theorem mem_of_mem_strip {s : String} (h : c ∈ (strip s).toList) : c ∈ s.toList := by
  simp only [strip, String.toList_ofList, stripChars, List.mem_reverse] at h
  have hfront := (List.dropWhile_sublist isBlank).subset h
  exact (List.dropWhile_sublist isBlank).subset (List.mem_reverse.mp hfront)

theorem Blankless.no_line_break (h : Blankless s) : '\n' ∉ s.toList :=
  fun hmem => absurd (h '\n' hmem) (by decide)

end Text

-- ---------------------------------------------------------------------------
-- The text form
-- ---------------------------------------------------------------------------

namespace Report

/-- The lines of a report with findings before those of its errors. -/
def findingLines (r : Report) (markers : Markers) : List String :=
  [s!"Analyzing project: '{r.projectPath}'", "",
    s!"Methods Missing [{markers.testCategory}] Attribute:"] ++
    r.findings.map fun f => s!"- {f.qualifiedName}"

theorem render_text (r : Report) (markers : Markers) (h : r.findings ≠ []) :
    ∃ rest, r.render .text markers =
      "\n".intercalate (r.findingLines markers) ++ "\n" ++ rest := by
  obtain ⟨errors, hlines⟩ : ∃ errors, r.textLines markers = r.findingLines markers ++ errors := by
    rw [textLines, if_neg (by simpa using h)]
    exact ⟨_, rfl⟩
  simp only [render, toText, hlines]
  by_cases herrors : errors = []
  · exact ⟨"", by simp [herrors]⟩
  · refine ⟨"\n".intercalate errors ++ "\n", ?_⟩
    rw [String.intercalate_append_of_ne_nil (by simp [findingLines]) herrors, String.append_assoc]

theorem lines_render {r : Report} {markers : Markers} (hne : r.findings ≠ [])
    (hnames : ∀ f ∈ r.findings, Blankless f.qualifiedName) (hpath : '\n' ∉ r.projectPath.toList)
    (hcategory : '\n' ∉ markers.testCategory.toList) :
    ((Text.lines (r.render .text markers)).drop 3).take r.findings.length =
      r.findings.map fun f => "- " ++ f.qualifiedName := by
  obtain ⟨rest, hrest⟩ := r.render_text markers hne
  rw [hrest, Text.lines_intercalate (by simp [findingLines])]
  · simp [findingLines, toString]
  · intro l hl
    simp only [findingLines, List.cons_append, List.nil_append, List.mem_cons, List.mem_map] at hl
    rcases hl with rfl | rfl | rfl | ⟨f, hf, rfl⟩
    · simpa [toString] using hpath
    · simp
    · simpa [toString] using hcategory
    · simpa [toString] using (hnames f hf).no_line_break

end Report

-- ---------------------------------------------------------------------------
-- Runs
-- ---------------------------------------------------------------------------

namespace FileSystem

variable {fs : FileSystem} {reader : SourceReader}

theorem outline_ofTree {path : String} (h : fs.outline reader path = .ok o) :
    ∃ source, Outline.ofTree reader.allowPartial source path (reader.grammar source) = .ok o := by
  unfold outline at h
  split at h
  · unfold SourceReader.outlineOfBytes at h
    split at h
    · exact ⟨_, h⟩
    · cases h
  · cases h

theorem blankless_check (fs : FileSystem) (reader : SourceReader) (markers : Markers)
    (counts : Bool) (path : String) :
    ∀ f ∈ (fs.check reader markers counts path).findings, Blankless f.qualifiedName := by
  unfold check FileResult.ofOutline
  split
  · nofun
  · rename_i o ho
    split
    · nofun
    · rename_i a ha
      obtain ⟨source, htree⟩ := outline_ofTree ho
      exact Outline.blankless_of_analyze (Outline.wellFormed_of_ofTree htree) ha

end FileSystem

theorem Checker.blankless_runIn (k : Checker) (fs : FileSystem) (project directory : String)
    (c : Config) : ∀ f ∈ (k.runIn fs project directory c).1.findings,
      Blankless f.qualifiedName := by
  intro f hf
  unfold runIn FileSystem.checkAll at hf
  dsimp only at hf
  rw [findings_ofResults] at hf
  obtain ⟨file, -, hf⟩ := List.mem_flatMap.mp hf
  exact fs.blankless_check _ _ _ file f hf

open CommandLine (Starts Delivered)

/-- Whatever is read off a tree is well formed at every depth, so an analysis of it meets no foreign
value and finds names without blanks. In the text form of the report of any run, these names
stand on the lines from the fourth on, one for each finding, if the path of the project and the
category marker have no line break. This form is what a call delivers. -/
theorem names_on_lines :
    (∀ allowPartial source path tree o, Outline.ofTree allowPartial source path tree = .ok o →
      (∀ d ∈ o.declarations, d.WellFormed source.toUTF8 tree.root) ∧
      ∀ markers counts,
        (∀ sort, o.analyze markers counts ≠ .error (.obstacle (.foreign sort))) ∧
        ∀ a, o.analyze markers counts = .ok a → ∀ f ∈ a.findings, Blankless f.qualifiedName) ∧
    (∀ (k : Checker) fs project directory c markers,
      let report := (k.runIn fs project directory c).1
      report.findings ≠ [] → '\n' ∉ project.toList → '\n' ∉ markers.testCategory.toList →
      ((Text.lines (report.render .text markers)).drop 3).take report.findings.length =
        report.findings.map fun f => "- " ++ f.qualifiedName) ∧
    (∀ grammar fs env arguments o directory c code,
      CommandLine.parse arguments = .ok (.check o) → o.format = .text →
      Starts fs env o directory c →
      (CommandLine.run grammar fs env arguments).result = .ok code →
      let report := o.report grammar fs directory c
      report.findings ≠ [] → '\n' ∉ o.project.toList → '\n' ∉ c.markers.testCategory.toList →
      ∃ text, Delivered fs o text (CommandLine.run grammar fs env arguments) ∧
        ((Text.lines text).drop 3).take report.findings.length =
          report.findings.map fun f => "- " ++ f.qualifiedName) := by
  refine ⟨fun allowPartial source path tree o h => ?_,
    fun k fs project directory c markers hne hpath hcategory => ?_,
    fun grammar fs env arguments o directory c code hparse hformat hs hcode => ?_⟩
  · have hwell := Outline.wellFormed_of_ofTree h
    exact ⟨hwell, fun markers counts => ⟨Outline.analyze_not_foreign hwell markers counts,
      fun a => Outline.blankless_of_analyze hwell⟩⟩
  · exact Report.lines_render hne (k.blankless_runIn fs project directory c) hpath hcategory
  · intro report hne hpath hcategory
    rw [CommandLine.run, hparse] at hcode ⊢
    have hdelivered := (CommandLine.check_delivers hs hcode).2
    rw [hformat] at hdelivered
    have hnames := Checker.blankless_runIn ⟨grammar, none⟩ fs (Text.strip o.project) directory
      (o.configure c)
    have hstripped : '\n' ∉ (Text.strip o.project).toList :=
      fun h => hpath (Text.mem_of_mem_strip h)
    exact ⟨_, hdelivered, Report.lines_render hne hnames hstripped hcategory⟩

open CommandLine (aloud starts_aloud findings_aloud)
open Checker (soleFile brokenGrammar brokenBytes)

theorem lines_aloud :
    (∀ d ∈ uncategorizedOutline.declarations,
      d.WellFormed uncategorizedText.toUTF8 uncategorizedTree.root) ∧
    ((Text.lines (CommandLine.run brokenGrammar (soleFile brokenBytes) []
      ["p", "--verbose", "--allow-partial-parse"]).stdout).drop 3).take 1 = ["- N.C.M"] := by
  obtain ⟨htree, -, hcall⟩ := names_on_lines
  refine ⟨(htree _ _ _ _ _ ofTree_uncategorized).1, ?_⟩
  have hparse : CommandLine.parse ["p", "--verbose", "--allow-partial-parse"] =
      .ok (.check aloud) := rfl
  have hcode : (CommandLine.run brokenGrammar (soleFile brokenBytes) []
      ["p", "--verbose", "--allow-partial-parse"]).result = .ok (CommandLine.codeOf
        (aloud.report brokenGrammar (soleFile brokenBytes) "p" {})) := by
    rw [CommandLine.run, hparse]
    exact CommandLine.check_result ⟨rfl, rfl, rfl⟩ (CommandLine.Options.canWrite_screen rfl _)
      starts_aloud
  have hfound : (aloud.report brokenGrammar (soleFile brokenBytes) "p" {}).findings ≠ [] := by
    rw [findings_aloud]
    exact List.cons_ne_nil _ _
  obtain ⟨text, hdelivered, hlines⟩ :=
    hcall _ _ _ _ _ _ _ _ hparse rfl starts_aloud hcode hfound (by decide) (by decide)
  rw [findings_aloud] at hlines
  rcases hdelivered with ⟨-, hstdout, -⟩ | ⟨hout, -, -⟩
  · rw [hstdout]
    exact hlines
  · cases hout

end CategoryAudit
