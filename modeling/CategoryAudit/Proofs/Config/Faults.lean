import CategoryAudit.Proofs.Failures
import CategoryAudit.Proofs.Text.Strip

/-!
# Faults of a mapping

Every setting of a configuration is read from one entry of a mapping (`of_ofMapping`), by rules of
its own. Whatever is unknown or of the wrong type is told once and changes nothing else. This fails
for a single kind of mapping, in which a key to be told has too many digits: then there is no
configuration at all (`faults_ignored_iff`).
-/

namespace CategoryAudit

namespace Config

open Yaml (Scalar Value lookup?)

-- ---------------------------------------------------------------------------
-- Mappings as tables
-- ---------------------------------------------------------------------------

theorem sameKey_comm (a b : Scalar) : a.sameKey b = b.sameKey a := by
  unfold Scalar.sameKey
  cases a.whole? <;> cases b.whole?
  case some.some => exact BEq.comm
  case none.none =>
    by_cases h : a = b
    · rw [h]
    · rw [beq_false_of_ne h, beq_false_of_ne (Ne.symm h), Bool.false_and, Bool.false_and]
  all_goals rfl

theorem sameKey_text (a b : String) : (Scalar.text a).sameKey (.text b) = (a == b) := by
  simp [Scalar.sameKey, Scalar.whole?, Scalar.isNaN]

def KeysDistinct (m : Mapping) : Prop := m.Pairwise fun a b => a.1.sameKey b.1 = false

instance (m : Mapping) : Decidable (KeysDistinct m) := inferInstanceAs (Decidable (m.Pairwise _))

section
variable {m m' : Mapping}

theorem KeysDistinct.perm (h : KeysDistinct m) (hp : m.Perm m') : KeysDistinct m' :=
  List.Pairwise.perm h hp fun hab => by rwa [sameKey_comm]

theorem lookup?_cons (name : String) (key : Scalar) (v : Value) (rest : Mapping) :
    lookup? name ((key, v) :: rest) = if key = .text name then some v else lookup? name rest := by
  by_cases h : key = .text name
  · simp [lookup?, h]
  · rw [lookup?, lookup?, List.find?_cons_of_neg (by simpa using h), if_neg h]

theorem lookup?_eq_some_iff (h : KeysDistinct m) :
    lookup? name m = some v ↔ (.text name, v) ∈ m := by
  induction m with
  | nil => simp [lookup?]
  | cons e rest ih =>
    obtain ⟨key, w⟩ := e
    obtain ⟨hkey, hrest⟩ := List.pairwise_cons.mp h
    rw [lookup?_cons, List.mem_cons, Prod.mk.injEq, eq_comm (a := Scalar.text name)]
    by_cases hname : key = .text name
    · have hfresh : (Scalar.text name, v) ∉ rest := fun hmem => by
        have hsame := hkey _ hmem
        rw [hname, sameKey_text, beq_self_eq_true] at hsame
        cases hsame
      rw [if_pos hname, Option.some.injEq, or_iff_left hfresh, and_iff_right hname, eq_comm]
    · rw [if_neg hname, ih hrest, or_iff_right fun heq => hname heq.1]

theorem lookup?_perm (h : KeysDistinct m) (hp : m.Perm m') (name : String) :
    lookup? name m' = lookup? name m := by
  ext v
  rw [lookup?_eq_some_iff h, lookup?_eq_some_iff (h.perm hp), hp.mem_iff]

end

-- ---------------------------------------------------------------------------
-- Settings
-- ---------------------------------------------------------------------------

inductive Role where
  | testClass
  | testMethod
  | testCategory
  deriving DecidableEq, Repr

namespace Role

def key : Role → String
  | testClass => testClassKey
  | testMethod => testMethodKey
  | testCategory => testCategoryKey

def of (m : Markers) : Role → String
  | testClass => m.testClass
  | testMethod => m.testMethod
  | testCategory => m.testCategory

end Role

def markerEntries (m : Mapping) : Mapping :=
  match lookup? markersKey m with
  | some (.map entries) => entries
  | _ => []

inductive Setting where
  | marker (role : Role)
  | extensions
  | exclude
  | allowPartialParse
  | fileScopedNamespaces
  deriving DecidableEq, Repr

inductive Content where
  | text (s : String)
  | texts (l : List String)
  | flag (b : Bool)
  deriving DecidableEq, Repr

namespace Setting

def of (c : Config) : Setting → Content
  | marker role => .text (role.of c.markers)
  | extensions => .texts c.extensions
  | exclude => .texts c.exclude
  | allowPartialParse => .flag c.allowPartialParse
  | fileScopedNamespaces => .flag c.fileScopedNamespaces

def entry? (m : Mapping) : Setting → Option Value
  | marker role => lookup? role.key (markerEntries m)
  | extensions => lookup? extensionsKey m
  | exclude => lookup? excludeKey m
  | allowPartialParse => lookup? allowPartialParseKey m
  | fileScopedNamespaces => lookup? fileScopedNamespacesKey m

def content? : Setting → Value → Option Content
  | marker _, v => (marker? v).map .text
  | extensions, v => (texts? v).map fun l => .texts (l.map extension)
  | exclude, v => (texts? v).map .texts
  | allowPartialParse, v | fileScopedNamespaces, v => (flag? v).map .flag

theorem ext_of {c c' : Config} (h : ∀ s : Setting, s.of c' = s.of c) : c' = c := by
  have hclass := h (marker .testClass)
  have hmethod := h (marker .testMethod)
  have hcategory := h (marker .testCategory)
  have hextensions := h extensions
  have hexclude := h exclude
  have hpartial := h allowPartialParse
  have hscoped := h fileScopedNamespaces
  obtain ⟨⟨_, _, _⟩, _, _, _, _⟩ := c
  obtain ⟨⟨_, _, _⟩, _, _, _, _⟩ := c'
  cases hclass
  cases hmethod
  cases hcategory
  cases hextensions
  cases hexclude
  cases hpartial
  cases hscoped
  rfl

end Setting

-- ---------------------------------------------------------------------------
-- Types
-- ---------------------------------------------------------------------------

def isText : Value → Bool
  | .scalar (.text _) => true
  | _ => false

def isTexts : Value → Bool
  | .list items => items.all isText
  | v => isText v

def isFlag : Value → Bool
  | .scalar (.bool _) => true
  | _ => false

def isMarker : Value → Bool
  | .scalar (.text s) => s.toList.any (!Text.isBlank ·)
  | _ => false

/-- A mapping, or the empty value, which is as good as no value. -/
def isMarkers : Value → Bool
  | .map _ | .scalar .null => true
  | _ => false

def isTyped (key : String) : Value → Bool :=
  if key = markersKey then isMarkers
  else if key = extensionsKey ∨ key = excludeKey then isTexts
  else isFlag

def Setting.admits : Setting → Value → Bool
  | marker _ => isMarker
  | extensions | exclude => isTexts
  | allowPartialParse | fileScopedNamespaces => isFlag

theorem text?_isSome (v : Value) : v.text?.isSome = isText v := by
  cases v with
  | scalar s => cases s <;> rfl
  | list | map | other => rfl

theorem mapM_text?_isSome (items : List Value) :
    (items.mapM Value.text?).isSome = items.all isText := by
  induction items with
  | nil => rfl
  | cons v rest ih =>
    rw [List.mapM_cons, List.all_cons, ← text?_isSome, ← ih]
    cases v.text? <;> cases rest.mapM Value.text? <;> rfl

theorem texts?_isSome (v : Value) : (texts? v).isSome = isTexts v := by
  unfold texts? isTexts
  split
  · rfl
  · exact mapM_text?_isSome _
  · split <;> simp_all [isText]

theorem flag?_isSome (v : Value) : (flag? v).isSome = isFlag v := by
  cases v with
  | scalar s => cases s <;> rfl
  | list | map | other => rfl

theorem marker?_text (s : String) : marker? (.scalar (.text s)) =
    if s.toList.any (!Text.isBlank ·) then some (Text.strip s) else none := by
  have hblank : Text.strip s = "" ↔ ¬ s.toList.any (!Text.isBlank ·) := by
    rw [Text.strip_eq_empty_iff]
    simp
  by_cases h : s.toList.any (!Text.isBlank ·) = true
  · rw [if_pos h]
    exact if_neg (by simpa [hblank] using h)
  · rw [if_neg h]
    exact if_pos (beq_iff_eq.mpr (hblank.mpr h))

theorem marker?_isSome (v : Value) : (marker? v).isSome = isMarker v := by
  cases v with
  | scalar s =>
    cases s with
    | text s =>
      rw [marker?_text, isMarker]
      split <;> simp_all
    | _ => rfl
  | list | map | other => rfl

theorem content?_isSome (s : Setting) (v : Value) : (s.content? v).isSome = s.admits v := by
  cases s <;> simp only [Setting.content?, Setting.admits, Option.isSome_map, marker?_isSome,
    texts?_isSome, flag?_isSome]

-- ---------------------------------------------------------------------------
-- Reading, setting by setting
-- ---------------------------------------------------------------------------

section
variable {m : Mapping}

theorem readKey_eq {α : Type} (read : Value → Option α) (warning : String → Warning)
    (key : String) (default : α) (m : Mapping) :
    readKey read warning key default m = (((lookup? key m).bind read).getD default,
      if (lookup? key m).any (fun v => !(read v).isSome) then [warning key] else []) := by
  unfold readKey
  cases lookup? key m with
  | none => rfl
  | some v => cases h : read v <;> simp [h]

theorem readMarkers_eq (m : Mapping) : readMarkers m =
    (markersFrom (markerEntries m), (markerEntries m).filterMap markerWarning? ++
      if (lookup? markersKey m).any (!isMarkers ·) then [.markersNotMapping] else []) := by
  unfold readMarkers markerEntries
  cases lookup? markersKey m with
  | none => rfl
  | some v =>
    cases v with
    | scalar s => cases s <;> rfl
    | list | other => rfl
    | map entries => simp [isMarkers]

/-- A setting is what the entry that belongs to it says, and its default if there is no entry or one
of the wrong type. -/
theorem of_ofMapping (s : Setting) (m : Mapping) :
    s.of (ofMapping m).1 = ((s.entry? m).bind s.content?).getD (s.of {}) := by
  have hof {α : Type} (f : α → Content) (read : Value → Option α) (v? : Option Value)
      (default : α) : f ((v?.bind read).getD default) =
        (v?.bind fun v => (read v).map f).getD (f default) := by
    cases v? with
    | none => rfl
    | some v => cases h : read v <;> simp [h]
  cases s with
  | marker role =>
    have hmarkers : (ofMapping m).1.markers = markersFrom (markerEntries m) := by
      rw [ofMapping, readMarkers_eq]
    rw [Setting.of, hmarkers]
    cases role <;> exact hof .text marker? _ _
  | extensions | exclude | allowPartialParse | fileScopedNamespaces =>
    rw [Setting.of, ofMapping]
    simp only [readKey_eq, hof, Option.map_map]
    rfl

end

-- ---------------------------------------------------------------------------
-- What is told
-- ---------------------------------------------------------------------------

def isKnown (names : List String) (key : Scalar) : Bool := (names.map Scalar.text).contains key

theorem knownName?_isSome (names : List String) (key : Scalar) :
    (knownName? names key).isSome = isKnown names key := by
  cases key with
  | text s =>
    rw [knownName?, isKnown, Bool.eq_iff_iff]
    split <;> simp_all
  | _ => simp [knownName?, isKnown]

/-- The unknown keys, the unknown markers, the markers that are blank or no texts, and those of the
known keys whose value has the wrong type. -/
def faultCount (m : Mapping) : Nat :=
  m.countP (fun e => !isKnown knownKeys e.1) +
    (markerEntries m).countP (fun e => !isKnown knownMarkers e.1) +
    (markerEntries m).countP (fun e => isKnown knownMarkers e.1 && !isMarker e.2) +
    knownKeys.countP fun key => (lookup? key m).any (!isTyped key ·)

theorem length_filterMap_markerWarning? (entries : Mapping) :
    (entries.filterMap markerWarning?).length =
      entries.countP (fun e => !isKnown knownMarkers e.1) +
        entries.countP fun e => isKnown knownMarkers e.1 && !isMarker e.2 := by
  induction entries with
  | nil => rfl
  | cons e rest ih =>
    obtain ⟨key, v⟩ := e
    rw [List.filterMap_cons, List.countP_cons, List.countP_cons, markerWarning?,
      ← knownName?_isSome, ← marker?_isSome]
    cases knownName? knownMarkers key with
    | none => simp [ih]; omega
    | some name => cases marker? v <;> simp [ih]; omega

def unknownKey? (e : Scalar × Value) : Option Warning :=
  if isKnown knownKeys e.1 then none else some (.unknownKey e.1)

def typeWarning (m : Mapping) (key : String) (w : Warning) : List Warning :=
  if (lookup? key m).any (!isTyped key ·) then [w] else []

theorem warnings_eq (m : Mapping) : (ofMapping m).2 =
    m.filterMap unknownKey? ++
      ((markerEntries m).filterMap markerWarning? ++ typeWarning m markersKey .markersNotMapping) ++
      typeWarning m extensionsKey (.notStrings extensionsKey) ++
      typeWarning m excludeKey (.notStrings excludeKey) ++
      typeWarning m allowPartialParseKey (.notFlag allowPartialParseKey) ++
      typeWarning m fileScopedNamespacesKey (.notFlag fileScopedNamespacesKey) := by
  simp only [ofMapping, readMarkers_eq, readKey_eq, knownName?_isSome, Option.isSome_map,
    texts?_isSome, flag?_isSome]
  rfl

theorem length_warnings (m : Mapping) : (ofMapping m).2.length = faultCount m := by
  have hunknown : (m.filterMap unknownKey?).length =
      m.countP fun e => !isKnown knownKeys e.1 := by
    rw [List.length_filterMap_eq_countP]
    refine List.countP_congr fun e _ => ?_
    cases h : isKnown knownKeys e.1 <;> simp [unknownKey?, h]
  have htyped (key : String) (w : Warning) : (typeWarning m key w).length =
      if (lookup? key m).any (!isTyped key ·) then 1 else 0 := by
    rw [typeWarning]
    split <;> rfl
  simp only [warnings_eq, List.length_append, hunknown, length_filterMap_markerWarning?, htyped,
    faultCount, knownKeys, List.countP_cons, List.countP_nil]
  omega

-- ---------------------------------------------------------------------------
-- Another order
-- ---------------------------------------------------------------------------

/-- No key occurs twice, in a mapping and in that of its markers. -/
structure Unambiguous (m : Mapping) : Prop where
  keys : KeysDistinct m
  markers : KeysDistinct (markerEntries m)

/-- The same entry, but for the order of the markers. -/
inductive SameEntry : Scalar × Value → Scalar × Value → Prop
  | refl : SameEntry e e
  | markers : entries.Perm entries' →
      SameEntry (.text markersKey, .map entries) (.text markersKey, .map entries')

/-- The same entries in any order, and the markers in any order. -/
def Reordered (m m' : Mapping) : Prop :=
  ∃ between, m.Perm between ∧ List.Forall₂ SameEntry between m'

section
variable {m m' : Mapping}

theorem Reordered.of_perm (h : m.Perm m') : Reordered m m' :=
  ⟨m', h, List.forall₂_same.mpr fun _ _ => .refl⟩

theorem SameEntry.key (h : SameEntry e e') : e'.1 = e.1 := by cases h <;> rfl

theorem keys_sameEntries (h : List.Forall₂ SameEntry m m') : m'.map (·.1) = m.map (·.1) := by
  induction h with
  | nil => rfl
  | cons he _ ih => rw [List.map_cons, List.map_cons, he.key, ih]

theorem lookup?_sameEntries (h : List.Forall₂ SameEntry m m') (hname : name ≠ markersKey) :
    lookup? name m' = lookup? name m := by
  induction h with
  | nil => rfl
  | cons he _ ih =>
    cases he with
    | refl => rw [lookup?_cons, lookup?_cons, ih]
    | markers =>
      have hkey : Scalar.text markersKey ≠ .text name := fun heq => hname (Scalar.text.inj heq).symm
      rw [lookup?_cons, lookup?_cons, if_neg hkey, if_neg hkey, ih]

theorem markers_sameEntries (h : List.Forall₂ SameEntry m m') :
    lookup? markersKey m' = lookup? markersKey m ∨ ∃ entries entries',
      entries.Perm entries' ∧ lookup? markersKey m = some (.map entries) ∧
        lookup? markersKey m' = some (.map entries') := by
  induction h with
  | nil => exact .inl rfl
  | cons he _ ih =>
    cases he with
    | refl =>
      rw [lookup?_cons, lookup?_cons]
      split
      · exact .inl rfl
      · exact ih
    | markers hp =>
      exact .inr ⟨_, _, hp, by rw [lookup?_cons, if_pos rfl], by rw [lookup?_cons, if_pos rfl]⟩

/-- All that reading a mapping depends on is the same, but for the order. -/
structure Alike (m m' : Mapping) : Prop where
  keys : (m.map (·.1)).Perm (m'.map (·.1))
  value : ∀ name, name ≠ markersKey → lookup? name m' = lookup? name m
  entries : (markerEntries m).Perm (markerEntries m')
  typed : (lookup? markersKey m').any (!isMarkers ·) = (lookup? markersKey m).any (!isMarkers ·)

theorem Reordered.alike (hm : KeysDistinct m) (h : Reordered m m') : Alike m m' := by
  obtain ⟨between, hperm, hsame⟩ := h
  have hlookup (name : String) : lookup? name between = lookup? name m := lookup?_perm hm hperm name
  constructor
  · rw [keys_sameEntries hsame]
    exact hperm.map _
  · intro name hname
    rw [lookup?_sameEntries hsame hname, hlookup]
  all_goals
    have hmarkers := markers_sameEntries hsame
    rw [hlookup] at hmarkers
    rcases hmarkers with heq | ⟨entries, entries', hp, heq, heq'⟩
  · rw [markerEntries, markerEntries, heq]
  · rwa [markerEntries, markerEntries, heq, heq']
  · rw [heq]
  · rw [heq, heq']; rfl

theorem Alike.ofMapping_fst (h : Alike m m') (hm : KeysDistinct (markerEntries m)) :
    (ofMapping m').1 = (ofMapping m).1 := by
  refine Setting.ext_of fun s => ?_
  have hentry : s.entry? m' = s.entry? m := by
    cases s with
    | marker role => exact lookup?_perm hm h.entries role.key
    | extensions | exclude | allowPartialParse | fileScopedNamespaces =>
      exact h.value _ (by decide)
  rw [of_ofMapping, of_ofMapping, hentry]

theorem Alike.ofMapping_snd (h : Alike m m') : (ofMapping m).2.Perm (ofMapping m').2 := by
  have hunknown (m : Mapping) : m.filterMap unknownKey? = (m.map (·.1)).filterMap fun key =>
      if isKnown knownKeys key then none else some (.unknownKey key) := by
    rw [List.filterMap_map]
    rfl
  have hmarkers (w : Warning) : typeWarning m' markersKey w = typeWarning m markersKey w := by
    have htyped : isTyped markersKey = isMarkers := rfl
    rw [typeWarning, typeWarning, htyped, h.typed]
  have hvalue (name : String) (hname : name ≠ markersKey) (w : Warning) :
      typeWarning m' name w = typeWarning m name w := by
    rw [typeWarning, typeWarning, h.value name hname]
  rw [warnings_eq, warnings_eq, hunknown, hunknown, hmarkers,
    hvalue extensionsKey (by decide), hvalue excludeKey (by decide),
    hvalue allowPartialParseKey (by decide), hvalue fileScopedNamespacesKey (by decide)]
  have hunknowns := h.keys.filterMap fun key =>
    if isKnown knownKeys key then none else some (Warning.unknownKey key)
  have hfront := hunknowns.append ((h.entries.filterMap markerWarning?).append_right
    (typeWarning m markersKey .markersNotMapping))
  exact (((hfront.append_right _).append_right _).append_right _).append_right _

end

-- ---------------------------------------------------------------------------
-- Without the faults
-- ---------------------------------------------------------------------------

def isSoundMarker (e : Scalar × Value) : Bool := isKnown knownMarkers e.1 && isMarker e.2

def withoutFaultyMarkers : Value → Value
  | .map entries => .map (entries.filter isSoundMarker)
  | v => v

def isSound : Scalar × Value → Bool
  | (.text name, v) => knownKeys.contains name && isTyped name v
  | _ => false

/-- A mapping without all that is unknown or of the wrong type, also among its markers. -/
def withoutFaults (m : Mapping) : Mapping :=
  (m.filter isSound).map fun e => (e.1, withoutFaultyMarkers e.2)

section
variable {m : Mapping}

theorem lookup?_filter (h : KeysDistinct m) (keep : Scalar × Value → Bool) (name : String) :
    lookup? name (m.filter keep) = (lookup? name m).filter fun v => keep (.text name, v) := by
  ext v
  rw [lookup?_eq_some_iff (List.Pairwise.filter _ h), List.mem_filter, Option.filter_eq_some_iff,
    lookup?_eq_some_iff h]

theorem lookup?_map (f : Value → Value) (name : String) (m : Mapping) :
    lookup? name (m.map fun e => (e.1, f e.2)) = (lookup? name m).map f := by
  induction m with
  | nil => rfl
  | cons e rest ih =>
    rw [List.map_cons, lookup?_cons, ih, ← Prod.eta e, lookup?_cons]
    split <;> rfl

theorem lookup?_withoutFaults (h : KeysDistinct m) (hname : name ∈ knownKeys) :
    lookup? name (withoutFaults m) =
      ((lookup? name m).filter (isTyped name)).map withoutFaultyMarkers := by
  have hsound : (fun v => isSound (.text name, v)) = isTyped name := by
    funext v
    rw [isSound, List.contains_iff_mem.mpr hname, Bool.true_and]
  rw [withoutFaults, lookup?_map, lookup?_filter h, hsound]

theorem markerEntries_withoutFaults (h : KeysDistinct m) :
    markerEntries (withoutFaults m) = (markerEntries m).filter isSoundMarker := by
  have htyped : isTyped markersKey = isMarkers := rfl
  rw [markerEntries, markerEntries, lookup?_withoutFaults h (by decide), htyped]
  cases lookup? markersKey m with
  | none => rfl
  | some v =>
    cases v with
    | scalar s => cases s <;> rfl
    | list | map | other => rfl

theorem withoutFaultyMarkers_of_admits {s : Setting} {v : Value} (h : s.admits v = true) :
    withoutFaultyMarkers v = v := by
  cases v with
  | map entries => cases s <;> cases h
  | scalar | list | other => rfl

theorem entry?_withoutFaults (hm : Unambiguous m) (s : Setting) :
    s.entry? (withoutFaults m) = (s.entry? m).filter s.admits := by
  have hentry {name : String} (hname : name ∈ knownKeys) (s : Setting)
      (htyped : isTyped name = s.admits) :
      lookup? name (withoutFaults m) = (lookup? name m).filter s.admits := by
    rw [lookup?_withoutFaults hm.keys hname, htyped]
    refine (Option.map_congr fun v hv => ?_).trans Option.map_id'
    exact withoutFaultyMarkers_of_admits (Option.filter_eq_some_iff.mp hv).2
  cases s with
  | marker role =>
    have hsound : (fun v => isSoundMarker (.text role.key, v)) = isMarker := by
      funext v
      cases role <;> rfl
    rw [Setting.entry?, markerEntries_withoutFaults hm.keys, lookup?_filter hm.markers, hsound]
    rfl
  | extensions => exact hentry (by decide) .extensions rfl
  | exclude => exact hentry (by decide) .exclude rfl
  | allowPartialParse => exact hentry (by decide) .allowPartialParse rfl
  | fileScopedNamespaces => exact hentry (by decide) .fileScopedNamespaces rfl

theorem bind_filter {f : Value → Option α} {p : Value → Bool} (h : ∀ v, (f v).isSome = p v)
    (v? : Option Value) : (v?.filter p).bind f = v?.bind f := by
  cases v? with
  | none => rfl
  | some v =>
    rw [Option.filter_some, ← h]
    cases hv : f v <;> simp [hv]

theorem isTyped_withoutFaultyMarkers (key : String) (v : Value) :
    isTyped key (withoutFaultyMarkers v) = isTyped key v := by
  cases v with
  | map entries =>
    rw [withoutFaultyMarkers, isTyped]
    split
    · rfl
    · split <;> rfl
  | scalar | list | other => rfl

theorem isKnown_of_isSound (h : isSound e = true) : isKnown knownKeys e.1 = true := by
  obtain ⟨key, v⟩ := e
  cases key with
  | text name =>
    have hname := (Bool.and_eq_true_iff.mp h).1
    simpa [isKnown] using hname
  | _ => cases h

theorem faultCount_withoutFaults (hm : Unambiguous m) : faultCount (withoutFaults m) = 0 := by
  have hunknown : (withoutFaults m).countP (fun e => !isKnown knownKeys e.1) = 0 := by
    refine List.countP_eq_zero.mpr fun e he => ?_
    obtain ⟨e, hmem, rfl⟩ := List.mem_map.mp he
    simp [isKnown_of_isSound (List.mem_filter.mp hmem).2]
  have hsound : ∀ e ∈ markerEntries (withoutFaults m),
      isKnown knownMarkers e.1 = true ∧ isMarker e.2 = true := by
    intro e he
    rw [markerEntries_withoutFaults hm.keys] at he
    exact Bool.and_eq_true_iff.mp (List.mem_filter.mp he).2
  have hmarkers : (markerEntries (withoutFaults m)).countP
      (fun e => !isKnown knownMarkers e.1) = 0 :=
    List.countP_eq_zero.mpr fun e he => by simp [hsound e he]
  have hblank : (markerEntries (withoutFaults m)).countP
      (fun e => isKnown knownMarkers e.1 && !isMarker e.2) = 0 :=
    List.countP_eq_zero.mpr fun e he => by simp [hsound e he]
  have htyped : knownKeys.countP
      (fun key => (lookup? key (withoutFaults m)).any (!isTyped key ·)) = 0 := by
    refine List.countP_eq_zero.mpr fun key hkey => ?_
    rw [lookup?_withoutFaults hm.keys hkey]
    simp only [Option.any_map, isTyped_withoutFaultyMarkers]
    cases lookup? key m with
    | none => exact Bool.false_ne_true
    | some v => cases hv : isTyped key v <;> simp [Option.filter_some, hv]
  rw [faultCount, hunknown, hmarkers, hblank, htyped]

theorem ofMapping_withoutFaults (hm : Unambiguous m) :
    ofMapping (withoutFaults m) = ((ofMapping m).1, []) := by
  refine Prod.ext (Setting.ext_of fun s => ?_) (List.eq_nil_of_length_eq_zero ?_)
  · rw [of_ofMapping, of_ofMapping, entry?_withoutFaults hm, bind_filter (content?_isSome s)]
  · rw [length_warnings, faultCount_withoutFaults hm]

end

-- ---------------------------------------------------------------------------
-- The law
-- ---------------------------------------------------------------------------

theorem build_of_not_endless (h : ¬ HasEndlessKey m) :
    build m = ⟨.ok (ofMapping m).1, (ofMapping m).2⟩ := by
  have hall : ∀ w ∈ (ofMapping m).2, w.isShowable = true := by
    rw [← endless_iff] at h
    simpa using h
  rw [build, if_pos (List.all_eq_true.mpr hall), List.takeWhile_eq_self_iff.mpr hall]

theorem not_endless_of_build (h : (build m).result = .ok c) :
    ¬ HasEndlessKey m ∧ c = (ofMapping m).1 := by
  rw [build] at h
  split at h
  · rename_i hall
    refine ⟨fun hendless => ?_, (Except.ok.inj h).symm⟩
    obtain ⟨w, hw, hshow⟩ := endless_iff.mpr hendless
    rw [List.all_eq_true.mp hall w hw] at hshow
    cases hshow
  · cases h

/-- Faults of a mapping are told and else ignored: it gives the configuration `c` all the same. -/
structure FaultsIgnored (m : Mapping) (c : Config) : Prop where
  result : (build m).result = .ok c
  /-- The order of the keys and of the markers does not matter. -/
  order : ∀ m', Reordered m m' → (build m').result = .ok c ∧ (build m).told.Perm (build m').told
  /-- No setting depends on anything but the entry that belongs to it. -/
  own : ∀ m' c', (build m').result = .ok c' → ∀ s : Setting,
    s.entry? m' = s.entry? m → s.of c' = s.of c
  /-- A setting without an entry, or with one of the wrong type, has its default. -/
  default : ∀ s : Setting, (s.entry? m).all (!s.admits ·) = true → s.of c = s.of {}
  deleted : build (withoutFaults m) = ⟨.ok c, []⟩
  counted : (build m).told.length = faultCount m

theorem faultsIgnored_of_not_endless (hm : Unambiguous m) (h : ¬ HasEndlessKey m) :
    FaultsIgnored m (ofMapping m).1 where
  result := by rw [build_of_not_endless h]
  order m' hm' := by
    have halike := hm'.alike hm.keys
    have hperm := halike.ofMapping_snd
    have h' : ¬ HasEndlessKey m' := by
      rw [← endless_iff] at h ⊢
      rintro ⟨w, hw, hshow⟩
      exact h ⟨w, hperm.mem_iff.mpr hw, hshow⟩
    rw [build_of_not_endless h, build_of_not_endless h', halike.ofMapping_fst hm.markers]
    exact ⟨rfl, hperm⟩
  own m' c' hc' s hentry := by
    rw [(not_endless_of_build hc').2, of_ofMapping, of_ofMapping, hentry]
  default s hentry := by
    rw [of_ofMapping]
    cases hv : s.entry? m with
    | none => rfl
    | some v =>
      have hnone : s.content? v = none := by
        rw [← Option.not_isSome_iff_eq_none, content?_isSome]
        simpa [hv] using hentry
      rw [Option.bind_some, hnone, Option.getD_none]
  deleted := by
    have h' : ¬ HasEndlessKey (withoutFaults m) := by
      rw [← endless_iff, ofMapping_withoutFaults hm]
      simp
    rw [build_of_not_endless h', ofMapping_withoutFaults hm]
  counted := by rw [build_of_not_endless h, length_warnings]

/-- The faults of a mapping are told and else ignored, unless one of its keys, or of those of its
markers, is a whole number with too many digits. -/
theorem faults_ignored_iff (hm : Unambiguous m) :
    (∃ c, FaultsIgnored m c) ↔ ¬ HasEndlessKey m :=
  ⟨fun ⟨_, h⟩ => (not_endless_of_build h.result).1, fun h => ⟨_, faultsIgnored_of_not_endless hm h⟩⟩

def faulty : Mapping :=
  [(.text "markers", .map [(.text "test_class", .scalar (.text " Suite ")),
      (.text "test_method", .scalar (.text " ")), (.bool true, .list [])]),
    (.int 7, .other),
    (.text "extensions", .list [.scalar (.text "CSX"), .scalar .null]),
    (.text "allow_partial_parse", .scalar (.int 1)),
    (.text "exclude", .scalar (.text "obj"))]

theorem faulty_ignored : Unambiguous faulty ∧ ¬ HasEndlessKey faulty ∧
    FaultsIgnored faulty { markers := { testClass := "Suite" }, exclude := ["obj"] } ∧
    faultCount faulty = 5 := by
  have hm : Unambiguous faulty := ⟨by decide, by decide⟩
  have h : ¬ HasEndlessKey faulty := by
    rw [← endless_iff]
    decide +kernel
  have hc : (ofMapping faulty).1 = { markers := { testClass := "Suite" }, exclude := ["obj"] } := by
    decide +kernel
  obtain ⟨c, hfaults⟩ := (faults_ignored_iff hm).mpr h
  rw [(not_endless_of_build hfaults.result).2, hc] at hfaults
  exact ⟨hm, h, hfaults, by decide +kernel⟩

def endless : Mapping := [(.int (Nat.pow 10 Yaml.digitLimit), .scalar .null)]

/-- There is one fault, but it is not told, and there is no configuration. -/
theorem endless_not_ignored : Unambiguous endless ∧ faultCount endless = 1 ∧
    build endless = ⟨.error .endlessKey, []⟩ ∧ ¬ ∃ c, FaultsIgnored endless c := by
  have hm : Unambiguous endless := ⟨List.pairwise_singleton _ _, .nil⟩
  have hwarnings : (ofMapping endless).2 =
      [.unknownKey (.int (Nat.pow 10 Yaml.digitLimit))] := rfl
  have hshow : (Warning.unknownKey (.int (Nat.pow 10 Yaml.digitLimit))).isShowable = false := by
    rw [isShowable_unknownKey]
    exact isShowable_eq_false.mpr ⟨_, rfl, (Int.natAbs_natCast _).ge⟩
  have hbuild : build endless = ⟨.error .endlessKey, []⟩ := by
    rw [build, hwarnings, List.all_cons, hshow, List.takeWhile_cons, hshow]
    rfl
  refine ⟨hm, by rw [← length_warnings, hwarnings]; rfl, hbuild, ?_⟩
  rintro ⟨c, h⟩
  have hresult := h.result
  rw [hbuild] at hresult
  cases hresult

end Config

end CategoryAudit
