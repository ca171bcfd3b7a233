import Mathlib.Data.List.Basic
import CategoryAudit.Proofs.Files.Tree

/-!
# Writing a file

A file that is written can be read under the path it was written to, and nothing changes at any
other place of the tree (`written_of_write`).
-/

namespace CategoryAudit

namespace FileSystem

-- ---------------------------------------------------------------------------
-- Changes of a tree
-- ---------------------------------------------------------------------------

theorem lookup_put (name n : String) (e : Entry) (entries : List (String × Entry)) :
    (put name e entries).lookup n = if n = name then some e else entries.lookup n := by
  induction entries with
  | nil =>
    rw [put, List.lookup_cons]
    split <;> simp_all
  | cons first rest ih =>
    obtain ⟨m, d⟩ := first
    rw [put]
    by_cases hm : m = name
    · rw [if_pos (beq_iff_eq.mpr hm), List.lookup_cons, List.lookup_cons, hm]
      split <;> simp_all
    · rw [if_neg (by simpa using hm), List.lookup_cons, List.lookup_cons, ih]
      split <;> simp_all

/-- One tree is the other with the given file at a place where no directory was. -/
structure HasFile (spot : List String) (bytes : List UInt8) (top top' : Entry) : Prop where
  noDirectory : top.sight spot ≠ .directory
  here : top'.at? spot = some (.file bytes)
  elsewhere : ∀ others, others ≠ spot → top'.sight others = top.sight others

theorem hasFile_put (h : ∀ nested, entries.lookup name ≠ some (.directory nested)) :
    HasFile [name] bytes (.directory entries) (.directory (put name (.file bytes) entries)) := by
  have hold : entries.lookup name = none ∨ ∃ old, entries.lookup name = some (.file old) := by
    rcases hl : entries.lookup name with _ | ⟨old | nested⟩
    · exact .inl rfl
    · exact .inr ⟨old, rfl⟩
    · exact absurd hl (h nested)
  constructor
  · rcases hold with hl | ⟨old, hl⟩ <;> simp [Entry.sight, Entry.at?, hl, Sight.ofFound]
  · simp [Entry.at?, lookup_put]
  · intro others hne
    cases others with
    | nil => rfl
    | cons n rest =>
      rw [Entry.sight, Entry.sight, Entry.at?, Entry.at?, lookup_put]
      by_cases hn : n = name
      · subst hn
        cases rest with
        | nil => exact absurd rfl hne
        | cons _ _ => rcases hold with hl | ⟨old, hl⟩ <;> simp [Entry.at?, hl]
      · rw [if_neg hn]

theorem HasFile.within (h : HasFile spot bytes (.directory nested) (.directory nested'))
    (hl : entries.lookup name = some (.directory nested)) :
    HasFile (name :: spot) bytes (.directory entries)
      (.directory (put name (.directory nested') entries)) := by
  constructor
  · simpa [Entry.sight, Entry.at?, hl] using h.noDirectory
  · simpa [Entry.at?, lookup_put] using h.here
  · intro others hne
    cases others with
    | nil => rfl
    | cons n rest =>
      by_cases hn : n = name
      · subst hn
        have hrest := h.elsewhere rest fun heq => hne (by rw [heq])
        simpa [Entry.sight, Entry.at?, lookup_put, hl] using hrest
      · simp [Entry.sight, Entry.at?, lookup_put, hn]

/-- A file is put in place: under its name in its directory, and on the way there each directory is
put back with what changed in it. -/
inductive Placed (bytes : List UInt8) :
    List String → List (String × Entry) → List (String × Entry) → Prop
  | here {entries : List (String × Entry)} {name : String} :
      (∀ nested, entries.lookup name ≠ some (.directory nested)) →
      Placed bytes [name] entries (put name (.file bytes) entries)
  | within {entries nested nested' : List (String × Entry)} {name : String} {rest : List String} :
      entries.lookup name = some (.directory nested) → Placed bytes rest nested nested' →
      Placed bytes (name :: rest) entries (put name (.directory nested') entries)

theorem Placed.ne_nil (h : Placed bytes spot entries entries') : spot ≠ [] := by
  cases h <;> simp

theorem placed_of_change (hne : spot ≠ [])
    (h : change false (overwrite bytes) spot entries = .ok entries') :
    Placed bytes spot entries entries' := by
  induction spot generalizing entries entries' with
  | nil => exact absurd rfl hne
  | cons name rest ih =>
    cases rest with
    | nil =>
      rcases hl : entries.lookup name with _ | ⟨old | nested⟩ <;>
        simp only [change, hl, overwrite, bind, Except.bind] at h
      · cases h
        exact .here (by simp [hl])
      · cases h
        exact .here (by simp [hl])
      · cases h
    | cons next rest =>
      rcases hl : entries.lookup name with _ | ⟨old | nested⟩ <;>
        simp only [change, hl, bind, Except.bind] at h
      · cases h
      · cases h
      · split at h
        · cases h
        · rename_i nested' hnested
          cases h
          exact .within hl (ih (by simp) hnested)

theorem Placed.hasFile (h : Placed bytes spot entries entries') :
    HasFile spot bytes (.directory entries) (.directory entries') := by
  induction h with
  | here hno => exact hasFile_put hno
  | within hl _ ih => exact ih.within hl

-- ---------------------------------------------------------------------------
-- Paths that can be written to
-- ---------------------------------------------------------------------------

end FileSystem

theorem Path.slash_not_mem_splitChars (cs : List Char) : ∀ part ∈ splitChars cs, '/' ∉ part := by
  induction cs with
  | nil => simp [splitChars]
  | cons c rest ih =>
    rw [splitChars]
    split
    · rename_i part parts hsplit
      rw [hsplit] at ih
      simp only [List.forall_mem_cons] at ih
      by_cases hc : c = '/'
      · simpa [hc] using ih
      · simpa [hc, Ne.symm hc] using ih
    · rename_i hsplit
      exact absurd hsplit (splitChars_ne_nil rest)

namespace FileSystem

variable {fs fs' : FileSystem}

theorem components_of_not_namesDirectory (h : namesDirectory path = false) :
    ∃ front name, Path.components path = front ++ [name] ∧ IsName name := by
  unfold namesDirectory at h
  split at h
  · rename_i name hlast
    obtain ⟨front, hfront⟩ := List.getLast?_eq_some_iff.mp hlast
    simp only [Bool.or_eq_false_iff, beq_eq_false_iff_ne] at h
    refine ⟨front, name, hfront, h.1.1, h.1.2, h.2, ?_⟩
    have hmem : name ∈ Path.components path := by simp [hfront]
    obtain ⟨part, hpart, rfl⟩ := List.mem_map.mp hmem
    rw [String.toList_ofList]
    exact Path.slash_not_mem_splitChars _ part hpart
  · cases h

theorem withoutSlashes_name (front : List String) (h : IsName name) :
    withoutSlashes (front ++ [name]) = front ++ [name] := by
  simp [withoutSlashes, h.ne_empty]

structure Writable (fs : FileSystem) (path : String) (front : List String) (name : String) :
    Prop where
  ne_empty : path ≠ ""
  noNull : '\x00' ∉ path.toList
  short : path.utf8ByteSize ≤ pathLimit
  components : Path.components path = front ++ [name]
  isName : IsName name
  shortName : name.utf8ByteSize ≤ nameLimit
  directory : ∃ entries above,
    follow fs.top [] (fs.start path ++ front) = .ok (.directory entries, above)

theorem write_ok (h : fs.write path bytes = .ok fs') :
    ∃ front name, fs.Writable path front name ∧
      fs.update path false (overwrite bytes) = .ok fs' := by
  unfold write at h
  by_cases hrefused : path = "" ∨ '\x00' ∈ path.toList
  · rw [if_pos (by simpa using hrefused)] at h
    cases h
  rw [if_neg (by simpa using hrefused)] at h
  obtain ⟨hempty, hnull⟩ := not_or.mp hrefused
  by_cases hlong : pathLimit < path.utf8ByteSize
  · rw [if_pos hlong] at h
    cases h
  rw [if_neg hlong] at h
  simp only [bind, Except.bind] at h
  split at h
  · cases h
  rename_i found hfollow
  obtain ⟨e, above⟩ := found
  cases e with
  | file _ => cases h
  | directory entries =>
    cases hdir : namesDirectory path with
    | true =>
      simp only [hdir] at h
      cases h
    | false =>
      obtain ⟨front, name, hcomps, hname⟩ := components_of_not_namesDirectory hdir
      rw [hcomps, ← List.append_assoc, withoutSlashes_name _ hname] at h hfollow
      simp only [hdir] at h
      by_cases hshort : nameLimit < name.utf8ByteSize
      · simp [hshort] at h
      · rw [List.dropLast_concat] at hfollow
        refine ⟨front, name, ⟨hempty, hnull, Nat.le_of_not_lt hlong, hcomps, hname,
          Nat.le_of_not_lt hshort, entries, above, hfollow⟩, ?_⟩
        simpa [hshort] using h

theorem Writable.names (h : fs.Writable path front name) :
    fs.names path = Path.normalize [] (fs.start path ++ front) ++ [name] := by
  rw [FileSystem.names, h.components, ← List.append_assoc, Path.normalize_name _ _ h.isName]

theorem placed_of_write (h : fs.write path bytes = .ok fs') :
    Placed bytes (fs.names path) fs.root fs'.root ∧ fs'.working = fs.working := by
  obtain ⟨front, name, hwritable, hupdate⟩ := write_ok h
  unfold update at hupdate
  cases hchange : change false (overwrite bytes) (fs.names path) fs.root with
  | error e =>
    rw [hchange] at hupdate
    cases hupdate
  | ok root' =>
    rw [hchange] at hupdate
    cases hupdate
    exact ⟨placed_of_change (by simp [hwritable.names]) hchange, rfl⟩

-- ---------------------------------------------------------------------------
-- Reading what was written
-- ---------------------------------------------------------------------------

theorem start_of_working (hw : fs'.working = fs.working) (path : String) :
    fs'.start path = fs.start path := by
  rw [start, start, hw]

theorem names_of_working (hw : fs'.working = fs.working) (path : String) :
    fs'.names path = fs.names path := by
  rw [names, names, start_of_working hw]

theorem follow_append (here : Entry) (above : List Entry) (comps rest : List String) :
    follow here above (comps ++ rest) =
      (follow here above comps).bind fun (e, a) => follow e a rest := by
  induction comps generalizing here above with
  | nil => rfl
  | cons c comps ih =>
    cases here with
    | file _ => rfl
    | directory entries =>
      simp only [List.cons_append, follow]
      split
      · rfl
      split
      · exact ih _ _
      split
      · cases above with
        | nil => exact ih _ _
        | cons up more => exact ih _ _
      cases entries.lookup c with
      | none => rfl
      | some e => exact ih _ _

theorem at?_of_follow {top : Entry} (ht : Trail top done here above)
    (h : follow here above comps = .ok (e, a)) : top.at? (Path.normalize done comps) = some e := by
  have hs : top.SameShape top := fun names => .refl _
  rcases follow_trail hs ht ht comps with
    ⟨err, hfollow, -⟩ | ⟨done₂, e₂, a₂, -, -, hfollow, -, ht₂, -, hplace⟩
  · cases h.symm.trans hfollow
  · cases h.symm.trans hfollow
    rw [hplace]
    exact ht₂.at?

def KeepsDirectories (top top' : Entry) : Prop :=
  ∀ others, top.sight others = .directory → top'.sight others = .directory

theorem HasFile.keepsDirectories {top top' : Entry} (h : HasFile spot bytes top top') :
    KeepsDirectories top top' := by
  intro others hdir
  by_cases hspot : others = spot
  · exact absurd (hspot ▸ hdir) h.noDirectory
  · rw [h.elsewhere others hspot, hdir]

theorem KeepsDirectories.at? {top top' : Entry} {names : List String}
    (hk : KeepsDirectories top top')
    (h : top.at? names = some (.directory es)) : ∃ es', top'.at? names = some (.directory es') := by
  have hsight : top'.sight names = .directory := hk _ (by rw [Entry.sight, h, Sight.ofFound])
  rw [Entry.sight] at hsight
  rcases hfound : top'.at? names with _ | ⟨_ | es'⟩ <;> rw [hfound] at hsight
  · cases hsight
  · cases hsight
  · exact ⟨es', rfl⟩

theorem KeepsDirectories.of_trail {top top' : Entry} (hk : KeepsDirectories top top')
    (ht : Trail top done (.directory es) above) (ht' : Trail top' done here' above') :
    ∃ es', here' = .directory es' := by
  obtain ⟨es', hes'⟩ := hk.at? ht.at?
  exact ⟨es', Option.some.inj (ht'.at?.symm.trans hes')⟩

/-- A way to a place stays one in a tree that keeps all directories and has something there. -/
theorem KeepsDirectories.follow {top top' : Entry} (hk : KeepsDirectories top top')
    (ht : Trail top done here above) (ht' : Trail top' done here' above')
    (h : FileSystem.follow here above comps = .ok (e, a))
    (hthere : top'.at? (Path.normalize done comps) ≠ none) :
    ∃ done₂ e' a', FileSystem.follow here' above' comps = .ok (e', a') ∧
      Trail top done₂ e a ∧ Trail top' done₂ e' a' ∧
      Path.normalize done comps = done₂.reverse := by
  induction comps generalizing done here above here' above' with
  | nil =>
    cases h
    exact ⟨done, here', above', rfl, ht, ht', rfl⟩
  | cons c rest ih =>
    cases here with
    | file _ => cases h
    | directory entries =>
      obtain ⟨entries', rfl⟩ := hk.of_trail ht ht'
      simp only [FileSystem.follow, Path.normalize] at h hthere ⊢
      by_cases hlong : nameLimit < c.utf8ByteSize
      · rw [if_pos hlong] at h
        cases h
      rw [if_neg hlong] at h ⊢
      by_cases hhere : (c == "" || c == ".") = true
      · rw [if_pos hhere] at h hthere
        rw [if_pos hhere, if_pos hhere]
        exact ih ht ht' h hthere
      rw [if_neg hhere] at h hthere
      rw [if_neg hhere, if_neg hhere]
      by_cases hup : (c == "..") = true
      · rw [if_pos hup] at h hthere
        rw [if_pos hup, if_pos hup]
        cases ht with
        | root =>
          cases ht' with
          | root => exact ih .root .root h hthere
        | into ht _ =>
          cases ht' with
          | into ht' _ => exact ih ht ht' h hthere
      rw [if_neg hup] at h hthere
      rw [if_neg hup, if_neg hup]
      cases hl : entries.lookup c with
      | none =>
        rw [hl] at h
        cases h
      | some next =>
        rw [hl] at h
        -- What comes next is a directory, which the other tree keeps, or the file at the end.
        have hnext : top'.at? (done.reverse ++ [c]) ≠ none := by
          cases next with
          | directory nested =>
            obtain ⟨nested', hnested'⟩ := hk.at? (Trail.into ht hl).at?
            rw [List.reverse_cons] at hnested'
            simp [hnested']
          | file _ =>
            cases rest with
            | nil => simpa [Path.normalize] using hthere
            | cons _ _ => cases h
        rw [Entry.at?_append, ht'.at?, Option.bind_some, Entry.at?] at hnext
        cases hl' : entries'.lookup c with
        | none => simp [hl'] at hnext
        | some next' => exact ih (.into ht hl) (.into ht' hl') h hthere

theorem KeepsDirectories.follow_directory {top top' : Entry} (hk : KeepsDirectories top top')
    (ht : Trail top done here above) (ht' : Trail top' done here' above')
    (h : FileSystem.follow here above comps = .ok (.directory es, a)) :
    ∃ done₂ es' a', FileSystem.follow here' above' comps = .ok (.directory es', a') ∧
      Trail top' done₂ (.directory es') a' ∧ Path.normalize done comps = done₂.reverse := by
  obtain ⟨es', hthere⟩ := hk.at? (at?_of_follow ht h)
  obtain ⟨done₂, e', a', hfollow, htrail, htrail', hplace⟩ := hk.follow ht ht' h (by simp [hthere])
  obtain ⟨es', rfl⟩ := hk.of_trail htrail htrail'
  exact ⟨done₂, es', a', hfollow, htrail', hplace⟩

/-- What writing a file does: it can be read under its path, and what is at any other place is
there as before. -/
structure Written (fs fs' : FileSystem) (path : String) (bytes : List UInt8) : Prop where
  working : fs'.working = fs.working
  readBack : fs'.read path = .ok bytes
  elsewhere : ∀ spot, spot ≠ fs.names path → fs'.top.sight spot = fs.top.sight spot

theorem written_of_write (h : fs.write path bytes = .ok fs') : Written fs fs' path bytes := by
  obtain ⟨front, name, hwritable, -⟩ := write_ok h
  obtain ⟨hplaced, hworking⟩ := placed_of_write h
  have hfile : HasFile (fs.names path) bytes fs.top fs'.top := hplaced.hasFile
  refine ⟨hworking, ?_, hfile.elsewhere⟩
  obtain ⟨entries, above, hfollow⟩ := hwritable.directory
  obtain ⟨done, es', above', hfollow', htrail, hplace⟩ :=
    hfile.keepsDirectories.follow_directory .root .root hfollow
  have hlookup : es'.lookup name = some (.file bytes) := by
    have hhere := hfile.here
    rw [hwritable.names, hplace, Entry.at?_append, htrail.at?, Option.bind_some, Entry.at?] at hhere
    cases hl : es'.lookup name with
    | none => simp [hl] at hhere
    | some e => simpa [hl, Entry.at?] using hhere
  have hname := hwritable.isName
  have hlast : follow (.directory es') above' [name] =
      .ok (.file bytes, .directory es' :: above') := by
    simp [follow, Nat.not_lt.mpr hwritable.shortName, hname.ne_empty, hname.ne_here, hname.ne_up,
      hlookup]
  have hfound : fs'.lookup path = .ok (.file bytes) := by
    rw [lookup, if_neg (by simpa using hwritable.ne_empty),
      if_neg (Nat.not_lt.mpr hwritable.short), start_of_working hworking, hwritable.components,
      ← List.append_assoc, follow_append, ← top, hfollow']
    simp only [Except.bind, hlast]
    rfl
  rw [read, hfound]
  rfl

end FileSystem

end CategoryAudit
