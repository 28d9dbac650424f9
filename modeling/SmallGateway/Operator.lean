import SmallGateway.Lib.Flattening
import SmallGateway.Lib.Json
import SmallGateway.Lib.Sha256
import SmallGateway.Text
import Mathlib.Data.List.Sort
import Std.Data.TreeMap.Basic

/-!
The operator renders a custom resource into the fragments of a config repo (`Render` in
`deploy/operator/internal/render/render.go`), puts them into a ConfigMap under flattened paths (`ensureRepoConfigMap`,
`flattenPath`), and an init container writes the files back (`unpackScript`). Marshalling to YAML is the business of a
library of its own.
-/

namespace SmallGateway.Operator

/-! ### The custom resource -/

structure Upstream where
  host : String
  port : Int
  tls : Bool
  sni : String

structure Provider where
  kind : String
  upstream : Upstream

structure Attribution where
  requiredKeys : List String
  headers : Std.TreeMap String String
  pinned : Std.TreeMap String String
  models : List String

structure Scope where
  attribution : Option Attribution

structure Route where
  name : String
  pathPrefix : String
  provider : String
  project : String
  condition : String
  attribution : Option Attribution

structure StreamingRejection where
  event : String
  data : String

structure RejectionTemplate where
  status : Int
  contentType : String
  body : String
  streaming : Option StreamingRejection

structure Rejections where
  defaultResponse : Option RejectionTemplate
  unknownRoute : Option RejectionTemplate

structure SpendCap where
  key : String
  value : String
  limitTokens : Int
  window : String
  alertAt : Int

structure SpendCaps where
  caps : List SpendCap

/-- What the operator renders of a custom resource. -/
structure LLMGatewaySpec where
  providers : Std.TreeMap String Provider
  fleet : Option Scope
  routes : List Route
  projects : Std.TreeMap String Scope
  rejections : Option Rejections
  spendCaps : Option SpendCaps

/-! ### Values -/

/-- A map from names to values, marshalled in the order of its names. -/
abbrev Fields := Std.TreeMap String Json.Value

namespace Fields

def of (entries : List (String × Json.Value)) : Fields :=
  entries.foldl (fun fields entry => fields.insert entry.1 entry.2) ∅

def set (fields : Fields) (name : String) (value : Json.Value) : Fields := fields.insert name value

/-- A field is set when there is something to set. -/
def setIf (fields : Fields) (given : Bool) (name : String) (value : Json.Value) : Fields :=
  if given then fields.set name value else fields

def value (fields : Fields) : Json.Value := .object fields.toList

end Fields

def integer (n : Int) : Json.Value := .number (if 0 ≤ n then .posInt n.toNat else .negInt n)

def strings (items : List String) : Json.Value := .array (items.map .string)

def stringMap (entries : Std.TreeMap String String) : Json.Value :=
  Fields.value (entries.map fun _ text => .string text)

/-! ### The parts of a repo -/

def renderProvider (p : Provider) : Json.Value :=
  let up := Fields.of [("host", .string p.upstream.host), ("port", integer p.upstream.port)]
  let up := up.setIf p.upstream.tls "tls" (.bool true)
  let up := up.setIf (!p.upstream.sni.isEmpty) "sni" (.string p.upstream.sni)
  (Fields.of [("kind", .string p.kind), ("upstream", up.value)]).value

def renderAttribution (a : Attribution) : Fields :=
  let out := Fields.of []
  let out := out.setIf (!a.requiredKeys.isEmpty) "required_keys" (strings a.requiredKeys)
  let out := out.setIf (!a.headers.isEmpty) "headers" (stringMap a.headers)
  let out := out.setIf (!a.pinned.isEmpty) "pinned" (stringMap a.pinned)
  out.setIf (!a.models.isEmpty) "models" (strings a.models)

def renderStreaming (streaming : StreamingRejection) : Json.Value :=
  let s := Fields.of [("data", .string streaming.data)]
  (s.setIf (!streaming.event.isEmpty) "event" (.string streaming.event)).value

def renderTemplate (t : RejectionTemplate) : Json.Value :=
  let out := Fields.of
    [("status", integer t.status), ("content_type", .string t.contentType), ("body", .string t.body)]
  (t.streaming.elim out fun streaming => out.set "streaming" (renderStreaming streaming)).value

def defaultRejectionResponse : Json.Value :=
  renderTemplate ⟨428, "application/json",
    "\x7b\"error\":\"attribution_required\",\"missing\":\"\x7b\x7bkey\x7d\x7d\",\"route\":\"\x7b\x7broute\x7d\x7d\"\x7d",
    some ⟨"error", "\x7b\"error\":\"attribution_required\",\"missing\":\"\x7b\x7bkey\x7d\x7d\"\x7d"⟩⟩

def defaultUnknown : Json.Value :=
  renderTemplate ⟨404, "application/json", "\x7b\"error\":\"unknown_route\",\"path\":\"\x7b\x7broute\x7d\x7d\"\x7d",
    none⟩

def renderRejections (r : Option Rejections) : Json.Value :=
  let response := (r.bind (·.defaultResponse)).elim defaultRejectionResponse renderTemplate
  let unknown := (r.bind (·.unknownRoute)).elim defaultUnknown renderTemplate
  (Fields.of [("default_response", response), ("unknown_route", unknown)]).value

/-- The caps of one attribution key. -/
structure KeyCaps where
  overrides : Fields
  window : Option String
  alertAt : Option Int

/-- One more cap of a key: the last window and the last threshold win. -/
def KeyCaps.add (spec : KeyCaps) (c : SpendCap) : KeyCaps where
  overrides := spec.overrides.insert c.value (integer c.limitTokens)
  window := if c.window.isEmpty then spec.window else some c.window
  alertAt := if c.alertAt = 0 then spec.alertAt else some c.alertAt

def KeyCaps.value (spec : KeyCaps) : Json.Value :=
  let fields := Fields.of [("overrides", spec.overrides.value)]
  let fields := spec.window.elim fields fun window => fields.set "window" (.string window)
  (spec.alertAt.elim fields fun percent => fields.set "alert_at" (integer percent)).value

def renderSpendCaps (caps : List SpendCap) : Json.Value :=
  let byKey : Std.TreeMap String KeyCaps :=
    caps.foldl (fun byKey c => byKey.insert c.key ((byKey[c.key]?.getD ⟨∅, none, none⟩).add c)) ∅
  Fields.value (byKey.map fun _ spec => spec.value)

/-- The attribution of the fleet, with the spend caps of the resource. -/
def renderFleet (spec : LLMGatewaySpec) : Fields :=
  let fleetAttr := (spec.fleet.bind (·.attribution)).elim ∅ renderAttribution
  let caps := spec.spendCaps.elim [] (·.caps)
  fleetAttr.setIf (!caps.isEmpty) "spend_caps" (renderSpendCaps caps)

def renderProject (sc : Scope) : Json.Value :=
  let chain := Fields.of []
  (sc.attribution.elim chain fun attribution => chain.set "attribution" (renderAttribution attribution).value).value

def renderRoute (r : Route) : Json.Value :=
  let route := Fields.of [("prefix", .string r.pathPrefix), ("provider", .string r.provider)]
  let route := route.setIf (!r.project.isEmpty) "project" (.string r.project)
  let route := route.setIf (!r.condition.isEmpty) "match" (.string r.condition)
  (r.attribution.elim route fun attribution => route.set "attribution" (renderAttribution attribution).value).value

/-! ### Rendering -/

/-- One file of the repo. -/
structure Fragment where
  path : String
  bytes : List UInt8
  deriving DecidableEq

structure Result where
  fragments : List Fragment
  hash : String

section

variable (marshal : Json.Value → Except String (List UInt8))

/-- A value marshalled to the file of a path; an error says what was marshalled. -/
def fragment (what path : String) (value : Json.Value) : Except String Fragment :=
  ((marshal value).mapError (what ++ ": " ++ ·)).map (⟨path, ·⟩)

/-- The fragment of the fleet's scope, when it has anything to say. -/
def fleetFragments (spec : LLMGatewaySpec) : Except String (List Fragment) :=
  let fleetAttr := renderFleet spec
  if fleetAttr.isEmpty then .ok []
  else
    (fragment marshal "fleet chain" "fleet/base.chain.yaml"
      (Fields.of [("attribution", fleetAttr.value)]).value).map ([·])

def projectFragment (project : String × Scope) : Except String Fragment :=
  fragment marshal ("project " ++ project.1 ++ " chain") ("projects/" ++ project.1 ++ "/base.chain.yaml")
    (renderProject project.2)

def routeFragment (r : Route) : Except String Fragment :=
  fragment marshal ("route " ++ r.name) ("routes/" ++ r.name ++ ".route.yaml") (renderRoute r)

/-- The hash over the paths and the bytes of the fragments. -/
def fragmentsHash (fragments : List Fragment) : String :=
  Text.hex (Sha256.sha256 (fragments.flatMap fun f => f.path.toUTF8.toList ++ [0] ++ f.bytes ++ [0]))

/-- The fragments of a resource, in the order of their paths. -/
def render (spec : LLMGatewaySpec) : Except String Result := do
  let providers ← fragment marshal "providers" "providers.yaml"
    (Fields.value (spec.providers.map fun _ p => renderProvider p))
  let rejections ← fragment marshal "rejections" "rejections.yaml" (renderRejections spec.rejections)
  let fleet ← fleetFragments marshal spec
  let projects ← spec.projects.toList.mapM (projectFragment marshal)
  let routes ← spec.routes.mapM (routeFragment marshal)
  let frags := ([providers, rejections] ++ fleet ++ projects ++ routes).insertionSort (·.path ≤ ·.path)
  return ⟨frags, fragmentsHash frags⟩

end

/-! ### The ConfigMap -/

def flattenPath (p : String) : String := String.ofList (Flattening.flatten '/' '_' p.toList)

/-- The annotation and the data of the ConfigMap that holds the repo. -/
structure RepoConfigMap where
  configHash : String
  data : Std.TreeMap String (List UInt8)

def ensureRepoConfigMap (res : Result) : RepoConfigMap where
  configHash := res.hash
  data := res.fragments.foldl (fun data f => data.insert (flattenPath f.path) f.bytes) ∅

/-- The path that the init container makes of a key. -/
def unflattenKey (key : String) : String := String.ofList (Flattening.unflatten '/' '_' key.toList)

/-- The repo that the init container makes of the data: every file that is not hidden, under its path. A file is known
    by the text of its path, and a later one replaces an earlier one of the same path. -/
def unpack (data : Std.TreeMap String (List UInt8)) : Std.TreeMap String (List UInt8) :=
  (data.toList.filter fun entry => entry.1.toList.head? != some '.').foldl
    (fun repo entry => repo.insert (unflattenKey entry.1) entry.2) ∅

end SmallGateway.Operator
