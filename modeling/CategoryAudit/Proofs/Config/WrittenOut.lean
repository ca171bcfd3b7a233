import CategoryAudit.Proofs.Config.Faults
import CategoryAudit.Proofs.Text.Lowercase

/-!
# Configurations written out

What a setting is under a value can be written as a value, and that value is read as the same again
(`content?_value`), for stripping and lower-casing change nothing the second time. So a
configuration that comes of a mapping is also what comes of the mapping that spells it out
(`build_toMapping`).
-/

namespace CategoryAudit.Config

open Yaml (Scalar Value lookup?)

-- ---------------------------------------------------------------------------
-- Extensions
-- ---------------------------------------------------------------------------

theorem small_point : Text.Small '.' := Text.small_of_settled (by decide +kernel)

theorem toList_extension (s : String) :
    ∃ cs, (extension s).toList = '.' :: cs ∧ ∀ c ∈ cs, Text.Small c := by
  unfold extension
  split
  · rename_i hpoint
    obtain ⟨rest, hs⟩ := List.head?_eq_some_iff.mp (beq_iff_eq.mp hpoint)
    refine ⟨Text.lowerChars ['.'] rest, ?_, Text.small_lowerChars _ _⟩
    rw [Text.lower, String.toList_ofList, hs, Text.lowerChars,
      if_neg (by decide), if_neg (by decide), small_point.table]
    rfl
  · exact ⟨(Text.lower s).toList, String.toList_append, Text.small_lower s⟩

theorem extension_extension (s : String) : extension (extension s) = extension s := by
  obtain ⟨cs, hs, hsmall⟩ := toList_extension s
  have hpoint : ((extension s).toList.head? == some '.') = true := by rw [hs]; rfl
  have hall : ∀ c ∈ (extension s).toList, Text.Small c := by
    rw [hs]
    exact List.forall_mem_cons.mpr ⟨small_point, hsmall⟩
  -- The point keeps a second one from being put in front.
  conv_lhs => rw [extension]
  rw [if_pos hpoint, Text.lower_of_small hall]

-- ---------------------------------------------------------------------------
-- Values of settings
-- ---------------------------------------------------------------------------

def Content.value : Content → Value
  | text s => .scalar (.text s)
  | texts l => .list (l.map fun s => .scalar (.text s))
  | flag b => .scalar (.bool b)

theorem mapM_text?_map (l : List String) :
    (l.map fun s => Value.scalar (.text s)).mapM Value.text? = some l := by
  induction l with
  | nil => rfl
  | cons s rest ih => rw [List.map_cons, List.mapM_cons, ih]; rfl

theorem marker?_again (h : marker? v = some x) : marker? (.scalar (.text x)) = some x := by
  unfold marker? at h
  split at h
  · rename_i s hs
    by_cases hblank : Text.strip s = ""
    · rw [hblank] at h
      cases h
    · obtain rfl : Text.strip s = x := by simpa [hblank] using h
      rw [marker?, Value.text?]
      simp [Text.strip_strip, hblank]
  · cases h

/-- What is read from a value is read again from the value that says it. -/
theorem content?_value (s : Setting) (h : s.content? v = some x) : s.content? x.value = some x := by
  cases s with
  | marker role =>
    obtain ⟨name, hname, rfl⟩ := Option.map_eq_some_iff.mp h
    rw [Content.value, Setting.content?, marker?_again hname, Option.map_some]
  | extensions =>
    obtain ⟨l, -, rfl⟩ := Option.map_eq_some_iff.mp h
    have hsame : (l.map extension).map extension = l.map extension := by
      rw [List.map_map]
      exact List.map_congr_left fun s _ => extension_extension s
    simp only [Setting.content?, Content.value, texts?, mapM_text?_map, Option.map_some, hsame]
  | exclude =>
    obtain ⟨l, -, rfl⟩ := Option.map_eq_some_iff.mp h
    simp only [Setting.content?, Content.value, texts?, mapM_text?_map, Option.map_some]
  | allowPartialParse | fileScopedNamespaces =>
    obtain ⟨b, -, rfl⟩ := Option.map_eq_some_iff.mp h
    rfl

theorem content?_default (s : Setting) : s.content? (s.of {}).value = some (s.of {}) := by
  cases s with
  | marker role => cases role <;> decide +kernel
  | extensions | exclude | allowPartialParse | fileScopedNamespaces => decide +kernel

/-- What a configuration from a mapping has for a setting is what is read from the value that
says it. -/
theorem content?_of_ofMapping (s : Setting) (m : Mapping) :
    s.content? (s.of (ofMapping m).1).value = some (s.of (ofMapping m).1) := by
  rw [of_ofMapping]
  cases h : (s.entry? m).bind s.content? with
  | none => exact content?_default s
  | some x =>
    obtain ⟨v, -, hv⟩ := Option.bind_eq_some_iff.mp h
    exact content?_value s hv

-- ---------------------------------------------------------------------------
-- The mapping of a configuration
-- ---------------------------------------------------------------------------

def toMapping (c : Config) : Mapping :=
  let value (s : Setting) : Value := (s.of c).value
  [(.text markersKey, .map [
      (.text testClassKey, value (.marker .testClass)),
      (.text testMethodKey, value (.marker .testMethod)),
      (.text testCategoryKey, value (.marker .testCategory))]),
    (.text extensionsKey, value .extensions),
    (.text excludeKey, value .exclude),
    (.text allowPartialParseKey, value .allowPartialParse),
    (.text fileScopedNamespacesKey, value .fileScopedNamespaces)]

theorem entry?_toMapping (s : Setting) (c : Config) :
    s.entry? c.toMapping = some (s.of c).value := by
  cases s with
  | marker role => cases role <;> rfl
  | extensions | exclude | allowPartialParse | fileScopedNamespaces => rfl

theorem keys_toMapping (c : Config) : c.toMapping.map (·.1) = knownKeys.map .text := rfl

theorem markers_toMapping (c : Config) :
    (markerEntries c.toMapping).map (·.1) = knownMarkers.map .text := rfl

section
variable {m : Mapping} {names : List String}

theorem keysDistinct_of_names (h : m.map (·.1) = names.map .text) (hnames : names.Nodup) :
    KeysDistinct m := by
  have hkeys : (m.map (·.1)).Pairwise fun a b => a.sameKey b = false := by
    rw [h, List.pairwise_map]
    exact hnames.imp fun hne => by rwa [sameKey_text, beq_eq_false_iff_ne]
  exact List.pairwise_map.mp hkeys

theorem unknown_of_names (h : m.map (·.1) = names.map .text) :
    m.countP (fun e => !isKnown names e.1) = 0 := by
  refine List.countP_eq_zero.mpr fun e he => ?_
  have hkey : e.1 ∈ names.map Scalar.text := h ▸ List.mem_map_of_mem he
  simp [isKnown, hkey]

end

theorem unambiguous_toMapping (c : Config) : Unambiguous c.toMapping :=
  ⟨keysDistinct_of_names (keys_toMapping c) (by decide),
    keysDistinct_of_names (markers_toMapping c) (by decide)⟩

theorem faultCount_toMapping (h : ∀ s : Setting, (s.content? (s.of c).value).isSome = true) :
    faultCount c.toMapping = 0 := by
  have hadmits (s : Setting) : s.admits (s.of c).value = true := by rw [← content?_isSome, h]
  have hmarker : ∀ e ∈ markerEntries c.toMapping, isMarker e.2 = true :=
    List.forall_mem_cons.mpr ⟨hadmits (.marker .testClass),
      List.forall_mem_cons.mpr ⟨hadmits (.marker .testMethod),
        List.forall_mem_singleton.mpr (hadmits (.marker .testCategory))⟩⟩
  have hblank : (markerEntries c.toMapping).countP
      (fun e => isKnown knownMarkers e.1 && !isMarker e.2) = 0 :=
    List.countP_eq_zero.mpr fun e he => by simp [hmarker e he]
  have hvalue {key : String} (s : Setting)
      (hkey : lookup? key c.toMapping = s.entry? c.toMapping) (htyped : isTyped key = s.admits) :
      ¬ (lookup? key c.toMapping).any (!isTyped key ·) = true := by
    rw [hkey, entry?_toMapping, htyped]
    simp [hadmits]
  have htyped : knownKeys.countP
      (fun key => (lookup? key c.toMapping).any (!isTyped key ·)) = 0 := by
    refine List.countP_eq_zero.mpr ?_
    simp only [knownKeys, List.forall_mem_cons]
    exact ⟨Bool.false_ne_true, hvalue .extensions rfl rfl, hvalue .exclude rfl rfl,
      hvalue .allowPartialParse rfl rfl, hvalue .fileScopedNamespaces rfl rfl,
      List.forall_mem_nil _⟩
  rw [faultCount, unknown_of_names (keys_toMapping c), unknown_of_names (markers_toMapping c),
    hblank, htyped]

theorem ofMapping_toMapping (m : Mapping) :
    ofMapping (ofMapping m).1.toMapping = ((ofMapping m).1, []) := by
  have hread (s : Setting) := content?_of_ofMapping s m
  refine Prod.ext (Setting.ext_of fun s => ?_) (List.eq_nil_of_length_eq_zero ?_)
  · rw [of_ofMapping, entry?_toMapping, Option.bind_some, hread, Option.getD_some]
  · rw [length_warnings]
    exact faultCount_toMapping fun s => by rw [hread, Option.isSome_some]

/-- A configuration that is built from a mapping is built again, and without a word, from every
mapping that spells it out: normalising a marker or an extension a second time changes nothing. -/
theorem build_toMapping (h : (build m).result = .ok c) :
    (∀ m', Reordered c.toMapping m' → build m' = ⟨.ok c, []⟩) ∧
      (∀ s, Text.strip (Text.strip s) = Text.strip s) ∧
      (∀ s, Text.lower (Text.lower s) = Text.lower s) ∧
      ∀ s, extension (extension s) = extension s := by
  refine ⟨fun m' hm' => ?_, Text.strip_strip, Text.lower_lower, extension_extension⟩
  obtain ⟨-, rfl⟩ := not_endless_of_build h
  have hm := unambiguous_toMapping (ofMapping m).1
  have halike := hm'.alike hm.keys
  have hsettings : (ofMapping m').1 = (ofMapping m).1 := by
    rw [halike.ofMapping_fst hm.markers, ofMapping_toMapping]
  have hnone : (ofMapping m').2 = [] := by
    have hperm := halike.ofMapping_snd
    rw [ofMapping_toMapping] at hperm
    exact hperm.symm.eq_nil
  have hshow : ¬ HasEndlessKey m' := by
    rw [← endless_iff, hnone]
    simp
  rw [build_of_not_endless hshow, hsettings, hnone]

/-- A mapping with a fault, and with texts that are normalised. The last letter of the second
extension is one that depends on its place. -/
def untidy : Mapping :=
  [(.text "tests", .scalar .null),
    (.text "extensions", .list [.scalar (.text "CSX"), .scalar (.text ".ΟΔΟΣ")]),
    (.text "markers", .map [(.text "test_class", .scalar (.text " Suite "))])]

def tidied : Config := { markers := { testClass := "Suite" }, extensions := [".csx", ".οδος"] }

theorem tidied_built : (build untidy).result = .ok tidied ∧
    build tidied.toMapping.reverse = ⟨.ok tidied, []⟩ := by
  have hshow : ¬ HasEndlessKey untidy := by
    rw [← endless_iff]
    decide +kernel
  have htidied : (ofMapping untidy).1 = tidied := by decide +kernel
  have hbuilt : (build untidy).result = .ok tidied := by
    rw [build_of_not_endless hshow, htidied]
  exact ⟨hbuilt, (build_toMapping hbuilt).1 _ (.of_perm (List.reverse_perm _).symm)⟩

end CategoryAudit.Config
