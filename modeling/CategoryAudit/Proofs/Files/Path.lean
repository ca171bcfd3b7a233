import CategoryAudit.FileSystem

/-!
# Names joined to paths

A path that is put together from a directory and names leads to the names below the place of the
directory (`names_join`), and its absolute form tells the names (`absolute_join_inj`). A path
relative to a directory is its names between slashes (`below_eq_intercalate`).
-/

namespace CategoryAudit

structure IsName (name : String) : Prop where
  ne_empty : name ≠ ""
  ne_here : name ≠ "."
  ne_up : name ≠ ".."
  no_slash : '/' ∉ name.toList

instance (name : String) : Decidable (IsName name) :=
  decidable_of_iff (name ≠ "" ∧ name ≠ "." ∧ name ≠ ".." ∧ '/' ∉ name.toList)
    ⟨fun ⟨he, hh, hu, hs⟩ => ⟨he, hh, hu, hs⟩, fun ⟨he, hh, hu, hs⟩ => ⟨he, hh, hu, hs⟩⟩

namespace Path

-- ---------------------------------------------------------------------------
-- Components
-- ---------------------------------------------------------------------------

theorem splitChars_ne_nil (cs : List Char) : splitChars cs ≠ [] := by
  cases cs with
  | nil => simp [splitChars]
  | cons c rest =>
    rw [splitChars]
    split
    · split <;> simp
    · simp

theorem splitChars_slash (cs : List Char) : splitChars ('/' :: cs) = [] :: splitChars cs := by
  rw [splitChars]
  cases h : splitChars cs with
  | nil => exact absurd h (splitChars_ne_nil cs)
  | cons part parts => simp

theorem splitChars_append_slash (front back : List Char) :
    splitChars (front ++ '/' :: back) = splitChars front ++ splitChars back := by
  induction front with
  | nil => rw [List.nil_append, splitChars_slash]; rfl
  | cons c front ih =>
    rw [List.cons_append, splitChars, splitChars, ih]
    cases h : splitChars front with
    | nil => exact absurd h (splitChars_ne_nil front)
    | cons part parts => by_cases hc : (c == '/') = true <;> simp [hc]

theorem splitChars_no_slash (h : '/' ∉ cs) : splitChars cs = [cs] := by
  induction cs with
  | nil => rfl
  | cons c rest ih =>
    simp only [List.mem_cons, not_or] at h
    rw [splitChars, ih h.2]
    have hc : (c == '/') = false := beq_false_of_ne (Ne.symm h.1)
    simp [hc]

theorem components_slash (directory name : String) (h : IsName name) :
    components (directory ++ "/" ++ name) = components directory ++ [name] := by
  have hchars : (directory ++ "/" ++ name).toList = directory.toList ++ '/' :: name.toList := by
    simp [String.toList_append]
  rw [components, hchars, splitChars_append_slash, splitChars_no_slash h.no_slash, List.map_append,
    List.map_singleton, String.ofList_toList]
  rfl

theorem components_append (h : IsName name) (hend : endsInSlash directory = true) :
    ∃ front, components directory = front ++ [""] ∧
      components (directory ++ name) = front ++ [name] := by
  obtain ⟨front, hfront⟩ := List.getLast?_eq_some_iff.mp (beq_iff_eq.mp hend)
  refine ⟨(splitChars front).map String.ofList, ?_, ?_⟩
  · rw [components, hfront, splitChars_append_slash, List.map_append]
    rfl
  · have hchars : (directory ++ name).toList = front ++ '/' :: name.toList := by
      rw [String.toList_append, hfront]; simp
    rw [components, hchars, splitChars_append_slash, splitChars_no_slash h.no_slash,
      List.map_append, List.map_singleton, String.ofList_toList]

-- ---------------------------------------------------------------------------
-- Names below a directory
-- ---------------------------------------------------------------------------

theorem normalize_empty (done front rest : List String) :
    normalize done (front ++ "" :: rest) = normalize done (front ++ rest) := by
  induction front generalizing done with
  | nil => simp [normalize]
  | cons c front ih =>
    simp only [List.cons_append, normalize]
    split
    · exact ih done
    · split
      · exact ih done.tail
      · exact ih (c :: done)

theorem normalize_name (done front : List String) (h : IsName name) :
    normalize done (front ++ [name]) = normalize done front ++ [name] := by
  induction front generalizing done with
  | nil => simp [normalize, h.ne_empty, h.ne_here, h.ne_up]
  | cons c front ih =>
    simp only [List.cons_append, normalize]
    split
    · exact ih done
    · split
      · exact ih done.tail
      · exact ih (c :: done)

theorem join_ne_empty (h : directory ≠ "") (name : String) : join directory name ≠ "" := by
  rw [join]
  split <;> simp [h, String.append_eq_empty_iff]

theorem isAbsolute_join (h : directory ≠ "") (name : String) :
    isAbsolute (join directory name) = isAbsolute directory := by
  obtain ⟨c, rest, hc⟩ : ∃ c rest, directory.toList = c :: rest :=
    List.exists_cons_of_ne_nil (by simpa using h)
  rw [join]
  split <;> simp [isAbsolute, String.toList_append, hc]

end Path

namespace FileSystem

open CategoryAudit.Path (join)

variable (fs : FileSystem)

theorem names_join_one (hd : directory ≠ "") (h : IsName name) :
    fs.names (join directory name) = fs.names directory ++ [name] := by
  have hstart : fs.start (join directory name) = fs.start directory := by
    rw [start, start, Path.isAbsolute_join hd]
  rw [names, names, hstart, join]
  cases hend : Path.endsInSlash directory with
  | true =>
    obtain ⟨front, hfront, hname⟩ := Path.components_append h hend
    rw [if_pos (by simp), hfront, hname, ← List.append_assoc, ← List.append_assoc,
      Path.normalize_empty, List.append_nil, Path.normalize_name _ _ h]
  | false =>
    rw [if_neg (by simp [hd]), Path.components_slash _ _ h, ← List.append_assoc,
      Path.normalize_name _ _ h]

/-- The place of names joined to a directory is the names below the place of the directory. -/
theorem names_join (hd : directory ≠ "") (h : ∀ name ∈ below, IsName name) :
    fs.names (below.foldl join directory) = fs.names directory ++ below := by
  induction below generalizing directory with
  | nil => simp
  | cons name rest ih =>
    rw [List.foldl_cons, ih (Path.join_ne_empty hd name) fun n hn => h n (by simp [hn]),
      fs.names_join_one hd (h name (by simp)), List.append_assoc]
    rfl

end FileSystem

namespace Path

-- ---------------------------------------------------------------------------
-- Names between slashes
-- ---------------------------------------------------------------------------

theorem below_ne_empty (relative : String) (h : IsName name) : below relative name ≠ "" := by
  rw [below]
  split
  · exact h.ne_empty
  · simp [String.append_eq_empty_iff]

theorem below_eq_intercalate (h : ∀ name ∈ names, IsName name) :
    names.foldl below "" = "/".intercalate names := by
  have further (front : String) (hf : front ≠ "") (rest : List String)
      (hr : ∀ name ∈ rest, IsName name) :
      rest.foldl below front = "/".intercalate (front :: rest) := by
    induction rest generalizing front with
    | nil => simp
    | cons name rest ih =>
      have hname := hr name (by simp)
      rw [List.foldl_cons, ih _ (below_ne_empty front hname) fun n hn => hr n (by simp [hn]), below,
        if_neg (by simpa using hf), String.intercalate_cons_append, String.intercalate_cons_cons]
  cases names with
  | nil => rfl
  | cons name rest =>
    have hname := h name (by simp)
    exact further name hname.ne_empty rest fun n hn => h n (by simp [hn])

theorem components_intercalate (hne : names ≠ []) (h : ∀ name ∈ names, IsName name) :
    components ("/".intercalate names) = names := by
  induction names with
  | nil => exact absurd rfl hne
  | cons name rest ih =>
    have hname := (h name (by simp)).no_slash
    cases rest with
    | nil => simp [components, splitChars_no_slash hname]
    | cons next rest =>
      have hchars : ("/".intercalate (name :: next :: rest)).toList =
          name.toList ++ '/' :: ("/".intercalate (next :: rest)).toList := by
        simp [String.toList_append]
      have hrest := ih (by simp) fun n hn => h n (by simp [hn])
      rw [components] at hrest
      rw [components, hchars, splitChars_append_slash, splitChars_no_slash hname, List.map_append,
        hrest]
      simp

/-- Names below a place are told by the text of the whole. -/
theorem intercalate_append_inj (hx : xs ≠ []) (hy : ys ≠ []) (hxs : ∀ name ∈ xs, IsName name)
    (hys : ∀ name ∈ ys, IsName name)
    (h : "/".intercalate (front ++ xs) = "/".intercalate (front ++ ys)) : xs = ys := by
  have hback : "/".intercalate xs = "/".intercalate ys := by
    by_cases hf : front = []
    · simpa [hf] using h
    · rw [String.intercalate_append_of_ne_nil hf hx, String.intercalate_append_of_ne_nil hf hy] at h
      simpa using h
  rw [← components_intercalate hx hxs, ← components_intercalate hy hys, hback]

end Path

namespace FileSystem

theorem absolute_eq (fs : FileSystem) (path : String) :
    Path.absolute fs.working path = "/" ++ "/".intercalate (fs.names path) := rfl

theorem absolute_join_inj (fs : FileSystem) (hd : directory ≠ "") (hx : xs ≠ []) (hy : ys ≠ [])
    (hxs : ∀ name ∈ xs, IsName name) (hys : ∀ name ∈ ys, IsName name)
    (h : Path.absolute fs.working (xs.foldl Path.join directory) =
      Path.absolute fs.working (ys.foldl Path.join directory)) : xs = ys := by
  rw [absolute_eq, absolute_eq, fs.names_join hd hxs, fs.names_join hd hys] at h
  exact Path.intercalate_append_inj hx hy hxs hys (by simpa using h)

end FileSystem

end CategoryAudit
