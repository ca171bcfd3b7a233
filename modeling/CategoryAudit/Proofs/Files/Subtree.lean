import CategoryAudit.Proofs.Files.Exclusion

/-!
# Patterns without special characters

A pattern in which no character is special stands for itself only (`accepts_literal`). It is
compared with the relative path and with the name of every entry on the way down to a file, and so
it takes away the files that have it as a name on their way, or as the beginning of it
(`literal_excludes`).
-/

namespace CategoryAudit

namespace Glob

def IsLiteral (pattern : String) : Prop :=
  ∀ c ∈ pattern.toList, c ≠ '*' ∧ c ≠ '?' ∧ c ≠ '['

instance (pattern : String) : Decidable (IsLiteral pattern) :=
  List.decidableBAll _ pattern.toList

theorem parse_literal {cs : List Char} (h : ∀ c ∈ cs, c ≠ '*' ∧ c ≠ '?' ∧ c ≠ '[') :
    parse cs = cs.map .literal := by
  induction cs with
  | nil => rw [parse]; rfl
  | cons c rest ih =>
    obtain ⟨⟨hstar, hany, hbracket⟩, hrest⟩ := List.forall_mem_cons.mp h
    rw [parse, ih hrest, List.map_cons] <;> simp_all

theorem ends_literal (text cs : List Char) :
    ends text (cs.map .literal) = text.tails.map (· == cs) := by
  induction cs generalizing text with
  | nil =>
    rw [List.map_nil, ends]
    induction text with
    | nil => rfl
    | cons c rest ih => simpa [List.replicate_succ] using ih
  | cons d cs ih =>
    rw [List.map_cons, ends, ih]
    · induction text with
      | nil => rfl
      | cons c rest ihRest =>
        have hwhole : rest.tails.map (· == cs) =
            (rest == cs) :: (rest.tails.map (· == cs)).tail := by
          cases rest <;> rfl
        rw [List.tails_cons, List.map_cons, List.tail_cons, hwhole, List.zipWith_cons_cons,
          List.cons_append, ihRest]
        rfl
    · nofun

theorem accepts_literal {pattern : String} (h : IsLiteral pattern) (text : String) :
    accepts pattern text = true ↔ text = pattern := by
  have hhead : (text.toList.tails.map (· == pattern.toList)).head? =
      some (text.toList == pattern.toList) := by
    cases text.toList <;> rfl
  rw [accepts, parse_literal h, ends_literal, hhead, Option.getD_some, beq_iff_eq,
    String.toList_inj]

end Glob

-- ---------------------------------------------------------------------------
-- The files below an entry
-- ---------------------------------------------------------------------------

/-- One of some names is `p`, or the path of an entry on the way along them is. -/
def Path.Meets (p : String) (names : List String) : Prop :=
  p ∈ names ∨ ∃ front ∈ names.inits, front ≠ [] ∧ "/".intercalate front = p

instance (p : String) (names : List String) : Decidable (Path.Meets p names) :=
  inferInstanceAs (Decidable (_ ∨ _))

theorem mem_iff_getLastD {names : List String} :
    p ∈ names ↔ ∃ front ∈ names.inits, front ≠ [] ∧ front.getLastD "" = p := by
  constructor
  · intro h
    obtain ⟨before, after, rfl⟩ := List.append_of_mem h
    refine ⟨before ++ [p], (List.mem_inits _ _).mpr ⟨after, by simp⟩, by simp, by simp⟩
  · rintro ⟨front, hfront, hne, rfl⟩
    rw [List.getLastD_eq_getLast?, List.getLast?_eq_some_getLast hne, Option.getD_some]
    exact ((List.mem_inits _ _).mp hfront).subset (List.getLast_mem hne)

theorem spares_literal (h : Glob.IsLiteral p) (names : List String) :
    Glob.Spares [p] names ↔ ¬ Path.Meets p names := by
  have haccepts (text : String) : Glob.accepts p text = false ↔ text ≠ p := by
    rw [← Bool.not_eq_true, Glob.accepts_literal h]
  have hspares : Glob.Spares [p] names ↔ ∀ front ∈ names.inits, front ≠ [] →
      "/".intercalate front ≠ p ∧ front.getLastD "" ≠ p := by
    simp only [Glob.Spares, List.mem_singleton, forall_eq, haccepts]
  rw [hspares, Path.Meets, mem_iff_getLastD]
  constructor
  · rintro hnone (⟨front, hfront, hne, hname⟩ | ⟨front, hfront, hne, hpath⟩)
    · exact (hnone front hfront hne).2 hname
    · exact (hnone front hfront hne).1 hpath
  · intro hnone front hfront hne
    exact ⟨fun hpath => hnone (.inr ⟨front, hfront, hne, hpath⟩),
      fun hname => hnone (.inl ⟨front, hfront, hne, hname⟩)⟩

namespace Config

theorem selects_of_perm {c : Config} {exclude exclude' : List String}
    (hperm : exclude'.Perm exclude) :
    ({ c with exclude := exclude' } : Config).Selects entries names ↔
      ({ c with exclude := exclude } : Config).Selects entries names :=
  ⟨fun ⟨hfile, hsuffix, hkept⟩ => ⟨hfile, hsuffix, fun front hne hfront pattern hp =>
      hkept front hne hfront pattern (hperm.mem_iff.mpr hp)⟩,
    fun ⟨hfile, hsuffix, hkept⟩ => ⟨hfile, hsuffix, fun front hne hfront pattern hp =>
      hkept front hne hfront pattern (hperm.mem_iff.mp hp)⟩⟩

theorem selects_literal (h : Glob.IsLiteral p) (c : Config) (before after : List String) :
    ({ c with exclude := before ++ p :: after } : Config).Selects entries names ↔
      ({ c with exclude := before ++ after } : Config).Selects entries names ∧
        ¬ Path.Meets p names := by
  have hlast : (before ++ p :: after).Perm (before ++ after ++ [p]) :=
    List.perm_middle.trans (List.perm_append_singleton p (before ++ after)).symm
  rw [selects_of_perm hlast, ← spares_literal h]
  exact selects_excluding { c with exclude := before ++ after } [p]

end Config

namespace FileSystem

variable {fs : FileSystem}

/-- A further pattern without special characters takes away exactly the files that have it as a
component of their relative path, or as one or more whole components at its beginning. All others
stay, in the same order. The empty pattern takes nothing away. -/
theorem literal_excludes (hp : Proper fs.root) (h : Glob.IsLiteral p) (c : Config)
    (before after : List String) (directory : String) :
    ∃ files : List (List String), (∀ names ∈ files, ∀ name ∈ names, IsName name) ∧
      fs.collect { c with exclude := before ++ after } directory =
        files.map (·.foldl Path.join directory) ∧
      fs.collect { c with exclude := before ++ p :: after } directory =
        (files.filter (¬ Path.Meets p ·)).map (·.foldl Path.join directory) :=
  collect_narrowed hp (fun _ _ => Config.selects_literal h c before after) directory

/-- Without `b`, the file in the directory goes, but not the one whose name only begins so. -/
theorem mixedProject_withoutB :
    mixedProject.collect { exclude := ["obj", "*.txt"] } "p" = ["p/b.cs", "p/b/x.CS"] ∧
    mixedProject.collect { exclude := ["obj", "b", "*.txt"] } "p" = ["p/b.cs"] ∧
    ∃ files : List (List String), files.map (·.foldl Path.join "p") = ["p/b.cs", "p/b/x.CS"] ∧
      (files.filter (¬ Path.Meets "b" ·)).map (·.foldl Path.join "p") = ["p/b.cs"] := by
  have hall : mixedProject.collect { exclude := ["obj", "*.txt"] } "p" =
      ["p/b.cs", "p/b/x.CS"] := Checker.mixedProject_collect (by decide +kernel)
  have hless : mixedProject.collect { exclude := ["obj", "b", "*.txt"] } "p" = ["p/b.cs"] := by
    have hlookup : mixedProject.lookup "p" = .ok (.directory mixedEntries) := rfl
    have hsources : sourcesIn { exclude := ["obj", "b", "*.txt"] } "" "p" mixedEntries =
        [⟨"b.cs", "p/b.cs"⟩] := by decide +kernel
    rw [collect, hlookup]
    simp [hsources]
  have hliteral : Glob.IsLiteral "b" := by decide +kernel
  obtain ⟨files, -, hfiles, hkept⟩ :=
    literal_excludes mixedProject_proper hliteral {} ["obj"] ["*.txt"] "p"
  rw [List.singleton_append] at hfiles hkept
  exact ⟨hall, hless, files, hfiles.symm.trans hall, hkept.symm.trans hless⟩

end FileSystem

end CategoryAudit
