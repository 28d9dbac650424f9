import SmallGateway.Composition
import SmallGateway.GatewaySets

/-!
From a resolved config repo to a flat config (`gatewayctl/src/render.rs`). The fragments of the repo are assembled to
one document, the GatewaySets that match a node are stamped onto it, and the canonical text of the result has to be a
config that a node accepts. The side files of the repo are read here as well.

The reader and the writer of the file format, and the hash, are taken as given.
-/

namespace SmallGateway

namespace Text

/-- `str::from_utf8`. -/
def fromUtf8? (bytes : List UInt8) : Option String := String.fromUTF8? bytes.toByteArray

theorem toList_loop (bytes : ByteArray) (i : Nat) (read : List UInt8) :
    ByteArray.toList.loop bytes i read = read.reverse ++ bytes.data.toList.drop i := by
  induction i, read using ByteArray.toList.loop.induct bytes with
  | case1 i read inside ih =>
    have next : bytes.data.toList.drop i = bytes.get! i :: bytes.data.toList.drop (i + 1) := by
      rw [List.drop_eq_getElem_cons (by simpa using inside)]
      simp [ByteArray.get!, inside]
    rw [ByteArray.toList.loop, if_pos inside, ih, next, List.reverse_cons, List.append_assoc, List.singleton_append]
  | case2 i read done =>
    rw [ByteArray.toList.loop, if_neg done, List.drop_of_length_le (by simpa using done), List.append_nil]

/-- The bytes of a text read as the text. -/
theorem fromUtf8?_bytes (text : String) : fromUtf8? text.toUTF8.toList = some text := by
  have listed : text.toByteArray.toList = text.toByteArray.data.toList := by
    rw [ByteArray.toList, toList_loop, List.reverse_nil, List.nil_append, List.drop_zero]
  have bytes : text.toUTF8.toList.toByteArray = text.toByteArray := by
    rw [String.toUTF8_eq_toByteArray, listed]
    exact ByteArray.ext (by rw [List.data_toByteArray, Array.toArray_toList])
  rw [fromUtf8?, bytes, String.fromUTF8?, dif_pos text.isValidUTF8]
  rfl

theorem bytes_injective {text other : String} (same : text.toUTF8.toList = other.toUTF8.toList) : text = other := by
  have read := fromUtf8?_bytes text
  rw [same, fromUtf8?_bytes] at read
  exact (Option.some.inj read).symm

end Text

/-! ### Canonical documents -/

namespace Yaml

/-- The text a key is sorted by. -/
def Key.text : Key → String
  | .string text => text
  | .other shown => shown

mutual

/-- The document with the entries of every mapping in the order of their keys. Sequences keep their order. -/
def sortedValue : Value → Value
  | .mapping entries => .mapping ((sortedEntries entries).insertionSort fun a b => a.1.text ≤ b.1.text)
  | .sequence items => .sequence (sortedItems items)
  | scalar => scalar
termination_by structural value => value

def sortedEntries : List (Key × Value) → List (Key × Value)
  | [] => []
  | entry :: rest => sortedEntry entry :: sortedEntries rest
termination_by structural entries => entries

def sortedEntry : Key × Value → Key × Value
  | (key, value) => (key, sortedValue value)
termination_by structural entry => entry

def sortedItems : List Value → List Value
  | [] => []
  | item :: rest => sortedValue item :: sortedItems rest
termination_by structural items => items

end

end Yaml

open Yaml (Mapping)

/-- What rendering takes from other libraries: the file format, as documents and as the files of a fixed shape, the
    message for bytes that are no text, the `{:?}` form of a document, what a config compiles, and the hash of a
    text. -/
structure RepoLibrary (Expr : Type) where
  parse : String → Except String Yaml.Value
  write : Yaml.Value → Except String String
  readConfig : String → Except String Config
  readWaves : String → Except String (List WaveEntry)
  readSets : String → Except String (List GatewaySetEntry)
  readCanary : String → Except String CanaryFile
  utf8Error : List UInt8 → String
  debugValue : Yaml.Value → String
  compilers : Config.Compilers Expr
  contentHash : String → String

/-- The files of a repo by path, in the order of the paths. -/
abbrev RepoFiles := List (String × List UInt8)

namespace RepoFiles

/-- The files below a directory, by their path from there. -/
def entriesUnder (files : RepoFiles) (dir : String) : RepoFiles :=
  files.filterMap fun (path, bytes) =>
    match (dir ++ "/").toList.isPrefixOf? path.toList with
    | some (c :: rest) => some (String.ofList (c :: rest), bytes)
    | _ => none

/-- The project directories, in the order of their names. -/
def projectNames (files : RepoFiles) : List String :=
  let names := (files.entriesUnder "projects").filterMap fun (rel, _) =>
    if rel.toList.contains '/' then some (String.ofList (rel.toList.takeWhile (· != '/'))) else none
  names.eraseDups.insertionSort (· ≤ ·)

/-- The files of the routes, in the order of their names. -/
def routeFiles (files : RepoFiles) : RepoFiles :=
  ((files.entriesUnder "routes").filter fun (rel, _) => ".route.yaml".toList.isSuffixOf rel.toList).insertionSort
    fun a b => a.1 ≤ b.1

end RepoFiles

/-- `RenderError::Io`, as it is shown. -/
def ioError (reason : String) : String := "config repo IO error: " ++ reason

/-- `RenderError::Invalid`, as it is shown. -/
def invalidError (reason : String) : String := "rendered config invalid: " ++ reason

/-- `ConfigError::Invalid`, as it is shown. -/
def invalidConfig (errors : List String) : String :=
  "invalid config:\n" ++ String.join (errors.map fun e => "  - " ++ e ++ "\n")

/-- A part of a document under its name, when there is one. -/
def insertPart (doc : Mapping) (name : String) (part : Option Yaml.Value) : Mapping :=
  match part with
  | none => doc
  | some value => Yaml.insert doc (.string name) value

namespace RepoLibrary

variable {Expr : Type} (lib : RepoLibrary Expr)

/-! ### Assembly -/

def parseYamlValue (bytes : List UInt8) (what : String) : Except String Yaml.Value :=
  match Text.fromUtf8? bytes with
  | none => .error (ioError (what ++ ": not utf-8: " ++ lib.utf8Error bytes))
  | some text => Except.mapError (fun e => ioError (what ++ ": parse: " ++ e)) (lib.parse text)

/-- A file that holds a mapping, when it is there, in canonical order. -/
def readYamlMapping (files : RepoFiles) (rel : String) : Except String (Option Yaml.Value) :=
  match files.lookup rel with
  | none => .ok none
  | some bytes => do
    match ← lib.parseYamlValue bytes rel with
    | .mapping entries => .ok (some (Yaml.sortedValue (.mapping entries)))
    | other => .error (ioError (rel ++ ": expected a mapping, got " ++ lib.debugValue other))

def readRequired (files : RepoFiles) (rel : String) : Except String Yaml.Value := do
  match ← lib.readYamlMapping files rel with
  | some value => .ok value
  | none => .error (ioError ("config repo has no " ++ rel))

/-- The scopes of the projects that have one. -/
def readProjects (files : RepoFiles) : Except String Mapping := do
  let scopes ← files.projectNames.mapM fun name =>
    (lib.readYamlMapping files ("projects/" ++ name ++ "/base.chain.yaml")).map fun scope =>
      scope.map fun scope => (Yaml.Key.string name, scope)
  return scopes.reduceOption

def readRoutes (files : RepoFiles) : Except String (List Yaml.Value) :=
  files.routeFiles.mapM fun (rel, bytes) => (lib.parseYamlValue bytes ("routes/" ++ rel)).map Yaml.sortedValue

/-- The fragments of a repo as one document. -/
def assembleFlatDoc (files : RepoFiles) : Except String Mapping := do
  let providers ← lib.readRequired files "providers.yaml"
  let fleet ← lib.readYamlMapping files "fleet/base.chain.yaml"
  let projects ← lib.readProjects files
  let routes ← lib.readRoutes files
  if routes.isEmpty then .error (ioError "config repo has no routes/*.route.yaml files")
  else
    let apps ← lib.readYamlMapping files "apps.yaml"
    let rejections ← lib.readRequired files "rejections.yaml"
    let auth ← lib.readYamlMapping files "auth.yaml"
    let doc := insertPart [] "providers" (some providers)
    let doc := insertPart doc "fleet" fleet
    let doc := insertPart doc "projects" (if projects.isEmpty then none else some (.mapping projects))
    let doc := insertPart doc "routes" (some (.sequence routes))
    let doc := insertPart doc "apps" apps
    let doc := insertPart doc "rejections" (some rejections)
    return insertPart doc "auth" auth

/-! ### Rendering -/

/-- `Config::from_yaml`. -/
def fromYaml (text : String) : Except String (Config.Finalized Expr) :=
  match lib.readConfig text with
  | .error e => .error ("cannot parse config: " ++ e)
  | .ok cfg => Except.mapError invalidConfig (Config.finalize lib.compilers cfg)

/-- The canonical text of a document. -/
def canonicalText (doc : Mapping) : Except String String :=
  Except.mapError (fun e => ioError ("serializing flat config: " ++ e)) (lib.write (Yaml.sortedValue (.mapping doc)))

/-- The canonical text of a document that is a config. -/
def validText (doc : Mapping) : Except String String := do
  let flat ← lib.canonicalText doc
  let _ ← Except.mapError invalidError (lib.fromYaml flat)
  return flat

def finalize (doc : Mapping) (resolved : ResolvedRepo) : Except String Rendered :=
  (lib.validText doc).map fun flat => ⟨flat.toUTF8.toList, lib.contentHash flat, resolved.sourceCommit⟩

/-- The render that every node without a matching set gets. -/
def renderResolved (resolved : ResolvedRepo) : Except String Rendered := do
  lib.finalize (← lib.assembleFlatDoc resolved.files) resolved

/-- The render with the overlays of all sets that match the labels. -/
def renderResolvedForNode (resolved : ResolvedRepo) (sets : List GatewaySet) (labels : Labels) :
    Except String Rendered := do
  lib.finalize (stamp sets (← lib.assembleFlatDoc resolved.files) labels) resolved

/-! ### Side files -/

/-- What a side file holds. -/
def readSideFile {α : Type} (files : RepoFiles) (rel : String) (absent : α) (parse : String → Except String α) :
    Except String α :=
  match files.lookup rel with
  | none => .ok absent
  | some bytes =>
    match Text.fromUtf8? bytes with
    | none => .error (ioError (rel ++ ": not utf-8: " ++ lib.utf8Error bytes))
    | some text => Except.mapError invalidError (parse text)

def readGatewaysets (files : RepoFiles) : Except String (List GatewaySet) :=
  lib.readSideFile files "gatewaysets.yaml" [] (parseGatewaysets lib.readSets)

def readWavePlan (files : RepoFiles) : Except String WavePlan :=
  lib.readSideFile files "waves.yaml" .single (parseWavePlan lib.readWaves)

def readCanaryPolicy (files : RepoFiles) : Except String CanaryPolicy :=
  lib.readSideFile files "canary.yaml" defaultCanaryPolicy (parseCanaryPolicy lib.readCanary)

section

variable {lib : RepoLibrary Expr} {files : RepoFiles} {rel : String}

theorem parseYamlValue_text {text what : String} {value : Yaml.Value} (parsed : lib.parse text = .ok value) :
    lib.parseYamlValue text.toUTF8.toList what = .ok value := by
  rw [parseYamlValue, Text.fromUtf8?_bytes]
  simp only [parsed, Except.mapError]

theorem readYamlMapping_text {text : String} {entries : Mapping} (there : files.lookup rel = some text.toUTF8.toList)
    (parsed : lib.parse text = .ok (.mapping entries)) :
    lib.readYamlMapping files rel = .ok (some (Yaml.sortedValue (.mapping entries))) := by
  rw [readYamlMapping, there]
  simp only [parseYamlValue_text parsed]
  rfl

theorem readYamlMapping_absent (absent : files.lookup rel = none) : lib.readYamlMapping files rel = .ok none := by
  rw [readYamlMapping, absent]

theorem readSideFile_text {α : Type} {text : String} {absent : α} {parse : String → Except String α}
    (there : files.lookup rel = some text.toUTF8.toList) :
    lib.readSideFile files rel absent parse = Except.mapError invalidError (parse text) := by
  rw [readSideFile, there]
  simp only [Text.fromUtf8?_bytes]

end

/-! ### The renders of the fleet -/

/-- What the fleet renders with. The sets are those of the repo, or none where they cannot be read. -/
def texts : RenderTexts where
  flatFor files labels := do
    let doc ← lib.assembleFlatDoc files
    lib.validText (match labels with
      | none => doc
      | some labels => stamp ((lib.readGatewaysets files).toOption.getD []) doc labels)
  contentHash := lib.contentHash

variable {lib}

theorem texts_renderResolved (resolved : ResolvedRepo) :
    lib.texts.renderResolved resolved = lib.renderResolved resolved := by
  simp only [RenderTexts.renderResolved, renderResolved, texts]
  cases lib.assembleFlatDoc resolved.files with
  | error e => rfl
  | ok doc => rfl

/-- Where the sets can be read the fleet renders with them. -/
theorem texts_renderResolvedForNode {resolved : ResolvedRepo} {sets : List GatewaySet}
    (read : lib.readGatewaysets resolved.files = .ok sets) (labels : Labels) :
    lib.texts.renderResolvedForNode resolved labels = lib.renderResolvedForNode resolved sets labels := by
  simp only [RenderTexts.renderResolvedForNode, renderResolvedForNode, texts, read]
  cases lib.assembleFlatDoc resolved.files with
  | error e => rfl
  | ok doc => rfl

/-- A render is the bytes of the text of a config that is accepted. -/
theorem finalize_ok {doc : Mapping} {resolved : ResolvedRepo} {rendered : Rendered} :
    lib.finalize doc resolved = .ok rendered ↔
      ∃ flat finalized, lib.canonicalText doc = .ok flat ∧ lib.fromYaml flat = .ok finalized ∧
        rendered = ⟨flat.toUTF8.toList, lib.contentHash flat, resolved.sourceCommit⟩ := by
  unfold finalize validText
  cases lib.canonicalText doc with
  | error e => simp [bind, Except.bind, Except.map]
  | ok flat =>
    cases accepted : lib.fromYaml flat with
    | error e => simp [accepted, bind, Except.bind, Except.map, Except.mapError]
    | ok finalized =>
      simp [accepted, bind, Except.bind, Except.map, Except.mapError, pure, Except.pure, eq_comm]

end RepoLibrary

end SmallGateway
