import CategoryAudit.Analysis
import CategoryAudit.Text.Blank
import CategoryAudit.Text.Lowercase
import CategoryAudit.Yaml.Value

/-!
# Configuration

A configuration is read from a mapping. Every key is read on its own: unknown keys and values of
the wrong type are reported and otherwise ignored.
-/

namespace CategoryAudit

structure Config where
  markers : Markers := {}
  extensions : List String := [".cs"]
  exclude : List String := []
  allowPartialParse : Bool := false
  fileScopedNamespaces : Bool := false
  deriving BEq, DecidableEq, Repr, Inhabited

namespace Config

open Yaml (Scalar Value)

abbrev Mapping := List (Scalar × Value)

/-- What is ignored in a mapping. -/
inductive Warning where
  | unknownKey (key : Scalar)
  | unknownMarker (name : Scalar)
  | badMarker (name : String)
  | markersNotMapping
  | notStrings (key : String)
  | notFlag (key : String)
  deriving BEq, DecidableEq, Repr

def Warning.message (origin : String) : Warning → String
  | .unknownKey key => s!"Ignoring unknown key '{key.shown}' in {origin}."
  | .unknownMarker name => s!"Ignoring unknown marker '{name.shown}' in {origin}."
  | .badMarker name => s!"Ignoring marker '{name}' in {origin}: expected a non-empty string."
  | .markersNotMapping => s!"Ignoring 'markers' in {origin}: expected a mapping."
  | .notStrings key => s!"Ignoring '{key}' in {origin}: expected a string or list of strings."
  | .notFlag key => s!"Ignoring '{key}' in {origin}: expected true or false."

def Warning.isShowable : Warning → Bool
  | .unknownKey key => key.isShowable
  | .unknownMarker name => name.isShowable
  | _ => true

def markersKey : String := "markers"
def extensionsKey : String := "extensions"
def excludeKey : String := "exclude"
def allowPartialParseKey : String := "allow_partial_parse"
def fileScopedNamespacesKey : String := "file_scoped_namespaces"

def knownKeys : List String :=
  [markersKey, extensionsKey, excludeKey, allowPartialParseKey, fileScopedNamespacesKey]

def testClassKey : String := "test_class"
def testMethodKey : String := "test_method"
def testCategoryKey : String := "test_category"

def knownMarkers : List String := [testClassKey, testMethodKey, testCategoryKey]

def knownName? (names : List String) : Scalar → Option String
  | .text s => if names.contains s then some s else none
  | _ => none

/-! ## Values of each type -/

/-- A marker: a text that is not blank, without the blanks around it. -/
def marker? (v : Value) : Option String :=
  match v.text? with
  | some s => let s := Text.strip s; if s == "" then none else some s
  | none => none

def texts? : Value → Option (List String)
  | .scalar (.text s) => some [s]
  | .list items => items.mapM Value.text?
  | _ => none

def flag? : Value → Option Bool
  | .scalar (.bool b) => some b
  | _ => none

def extension (s : String) : String :=
  if s.toList.head? == some '.' then Text.lower s else "." ++ Text.lower s

/-! ## Reading a mapping -/

def markerUnder (key default : String) (entries : Mapping) : String :=
  ((Yaml.lookup? key entries).bind marker?).getD default

def markersFrom (entries : Mapping) : Markers :=
  let default : Markers := {}
  { testClass := markerUnder testClassKey default.testClass entries
    testMethod := markerUnder testMethodKey default.testMethod entries
    testCategory := markerUnder testCategoryKey default.testCategory entries }

def markerWarning? : Scalar × Value → Option Warning
  | (key, value) =>
    match knownName? knownMarkers key with
    | none => some (.unknownMarker key)
    | some name => if (marker? value).isSome then none else some (.badMarker name)

/-- The markers of a mapping; no value and the empty value are the same. -/
def readMarkers (m : Mapping) : Markers × List Warning :=
  match Yaml.lookup? markersKey m with
  | none | some (.scalar .null) => ({}, [])
  | some (.map entries) => (markersFrom entries, entries.filterMap markerWarning?)
  | some _ => ({}, [.markersNotMapping])

/-- The value under a key, read by `read`; the default if it is absent or of the wrong type. -/
def readKey {α : Type} (read : Value → Option α) (warning : String → Warning) (key : String)
    (default : α) (m : Mapping) : α × List Warning :=
  match Yaml.lookup? key m with
  | none => (default, [])
  | some v =>
    match read v with
    | some a => (a, [])
    | none => (default, [warning key])

/-- The configuration of a mapping, and what was ignored in it. -/
def ofMapping (m : Mapping) : Config × List Warning :=
  let default : Config := {}
  let unknown := m.filterMap fun (key, _) =>
    if (knownName? knownKeys key).isSome then none else some (Warning.unknownKey key)
  let markers := readMarkers m
  let extensions := readKey (fun v => (texts? v).map (·.map extension)) .notStrings extensionsKey
    default.extensions m
  let exclude := readKey texts? .notStrings excludeKey default.exclude m
  let partialParse := readKey flag? .notFlag allowPartialParseKey default.allowPartialParse m
  let fileScoped := readKey flag? .notFlag fileScopedNamespacesKey default.fileScopedNamespaces m
  ({ markers := markers.1
     extensions := extensions.1
     exclude := exclude.1
     allowPartialParse := partialParse.1
     fileScopedNamespaces := fileScoped.1 },
   unknown ++ markers.2 ++ extensions.2 ++ exclude.2 ++ partialParse.2 ++ fileScoped.2)

end Config

end CategoryAudit
