import CategoryAudit.Proofs.Files.PartialParse
import CategoryAudit.Proofs.Text.Utf8

/-!
# Files that are not UTF-8

A file is refused as undecodable exactly if its bytes are not well formed. The place that the error
names is counted behind a leading byte order mark: it is the place in the file at which no character
begins if and only if the file has no such mark (`undecodable_place`).
-/

namespace CategoryAudit

open Text.Utf8 (Fault WellFormed Breaks mark markLength)

theorem Outline.ofTree_ne_notUtf8 (allowPartial : Bool) (source path : String)
    (tree : Concrete.Tree) (fault : Fault) (offset : Nat) :
    ofTree allowPartial source path tree ≠ .error (.notUtf8 fault offset) := by
  intro h
  unfold ofTree at h
  split at h
  · cases h
  · cases hrun : (readAll source.toUTF8 depthLimit tree.root.constructs).run [] with
    | ok left => rw [declarationsOf, hrun] at h; cases h
    | error e =>
      rw [declarationsOf, hrun] at h
      cases h
      rcases readAll_error hrun with he | he <;> cases he

namespace FileSystem

variable {fs : FileSystem} {reader : SourceReader} {path : String} {bytes : List UInt8}

theorem outline_notUtf8_iff (h : fs.read path = .ok bytes) {fault : Fault} {offset : Nat} :
    fs.outline reader path = .error (.notUtf8 fault offset) ↔
      Text.Utf8.decode (Text.Utf8.dropMark bytes) = .error ⟨fault, offset⟩ := by
  rw [outline, h]
  simp only [SourceReader.outlineOfBytes]
  cases hdecode : Text.Utf8.decode (Text.Utf8.dropMark bytes) with
  | ok source =>
    refine iff_of_false (Outline.ofTree_ne_notUtf8 _ source path _ fault offset) fun h => ?_
    cases h
  | error e =>
    cases e
    simp

/-- A file is undecodable exactly if its bytes are ill formed. Then they break at one place, which
is as far behind the mark of the file as the error says, so that the error names the place itself
only if there is no mark; the bytes at the place are as the error says. -/
theorem undecodable_place (reader : SourceReader) (h : fs.read path = .ok bytes) :
    ((∃ fault offset, fs.outline reader path = .error (.notUtf8 fault offset)) ↔
      ¬ WellFormed bytes) ∧
    ∀ fault offset, fs.outline reader path = .error (.notUtf8 fault offset) →
      (∀ markers counts, (fs.check reader markers counts path).error = some ⟨path, .parse,
        s!"file is not valid UTF-8: {fault.message} at byte {offset}"⟩) ∧
      (∀ place, Breaks bytes place ↔ place = markLength bytes + offset) ∧
      (Breaks bytes offset ↔ ¬ mark <+: bytes) ∧
      fault.Explains (bytes.drop (markLength bytes + offset)) := by
  refine ⟨?_, fun fault offset hout => ?_⟩
  · simp only [outline_notUtf8_iff h]
    rw [← Text.Utf8.wellFormed_dropMark, Text.Utf8.not_wellFormed_iff, exists_comm]
    simp only [Text.Utf8.breaks_iff]
  · have hdecode := (outline_notUtf8_iff h).mp hout
    have hbreaks := (Text.Utf8.breaks_iff.mpr ⟨fault, hdecode⟩).of_dropMark
    have hplace (place : Nat) : Breaks bytes place ↔ place = markLength bytes + offset :=
      ⟨fun h => h.unique hbreaks, fun h => h ▸ hbreaks⟩
    refine ⟨fun markers counts => ?_, hplace, ?_, ?_⟩
    · rw [check, hout]
      rfl
    · rw [hplace, ← Text.Utf8.markLength_eq_zero_iff]
      omega
    · rw [Text.Utf8.drop_markLength]
      exact Text.Utf8.explains_of_decode hdecode

end FileSystem

open Checker (soleFile brokenGrammar)

theorem undecodable_cutOff :
    (soleFile [0x61, 0xc3]).read "p/a.cs" = .ok [0x61, 0xc3] ∧ ¬ WellFormed [0x61, 0xc3] ∧
    Breaks [0x61, 0xc3] 1 ∧
    ((soleFile [0x61, 0xc3]).check ⟨brokenGrammar, true⟩ {} false "p/a.cs").error =
      some ⟨"p/a.cs", .parse, "file is not valid UTF-8: unexpected end of data at byte 1"⟩ := by
  have hread : (soleFile [0x61, 0xc3]).read "p/a.cs" = .ok [0x61, 0xc3] := rfl
  have hdecode : Text.Utf8.decode (Text.Utf8.dropMark [0x61, 0xc3]) =
      .error ⟨.unexpectedEnd, 1⟩ := by cbv
  have hout : (soleFile [0x61, 0xc3]).outline ⟨brokenGrammar, true⟩ "p/a.cs" =
      .error (.notUtf8 .unexpectedEnd 1) :=
    (FileSystem.outline_notUtf8_iff hread).mpr hdecode
  obtain ⟨hiff, herror⟩ := FileSystem.undecodable_place ⟨brokenGrammar, true⟩ hread
  obtain ⟨hcheck, hplace, -, -⟩ := herror _ _ hout
  exact ⟨hread, hiff.mp ⟨_, _, hout⟩, (hplace 1).mpr rfl, hcheck {} false⟩

/-- A file with a mark and then a byte that begins no character: the error names the first byte,
where the mark is. -/
theorem undecodable_marked :
    (soleFile [0xef, 0xbb, 0xbf, 0xff]).outline ⟨brokenGrammar, true⟩ "p/a.cs" =
      .error (.notUtf8 .invalidStart 0) ∧
    Breaks [0xef, 0xbb, 0xbf, 0xff] 3 ∧ ¬ Breaks [0xef, 0xbb, 0xbf, 0xff] 0 := by
  have hread : (soleFile [0xef, 0xbb, 0xbf, 0xff]).read "p/a.cs" =
      .ok [0xef, 0xbb, 0xbf, 0xff] := rfl
  have hdecode : Text.Utf8.decode (Text.Utf8.dropMark [0xef, 0xbb, 0xbf, 0xff]) =
      .error ⟨.invalidStart, 0⟩ := by cbv
  have hbreaks : Breaks [0xef, 0xbb, 0xbf, 0xff] 3 :=
    (Text.Utf8.breaks_iff.mpr ⟨_, hdecode⟩).of_dropMark
  refine ⟨(FileSystem.outline_notUtf8_iff hread).mpr hdecode, hbreaks, fun hfirst => ?_⟩
  exact absurd (hfirst.unique hbreaks) (by decide)

end CategoryAudit
