import SmallGateway.Fleet
import SmallGateway.Text

/-!
The files beside the config in a config repo (`gatewayctl/src/{waves,gatewayset,canary}.rs`): the plan of the waves,
the GatewaySets with the overlays they stamp onto the config of the nodes that match, and the canary policy. The
reader of the file format gives their entries; here is what is made of them.
-/

namespace SmallGateway

/-! ### Documents -/

namespace Yaml

/-- A key of a mapping. One that is no string is told from others by its `{:?}` form. -/
inductive Key where
  | string (text : String)
  | other (shown : String)
  deriving DecidableEq

/-- A document. The entries of a mapping stand under different keys, in the order in which they were put in. -/
inductive Value where
  | null
  | bool (value : Bool)
  | number (text : String)
  | string (text : String)
  | sequence (items : List Value)
  | mapping (entries : List (Key × Value))
  | tagged (tag : String) (value : Value)

abbrev Mapping := List (Key × Value)

/-- Puts a value under a key, in the place of one that is there. -/
def insert : Mapping → Key → Value → Mapping
  | [], key, value => [(key, value)]
  | (first, held) :: rest, key, value =>
    if first = key then (first, value) :: rest else (first, held) :: insert rest key value

end Yaml

open Yaml (Mapping)

/-! ### Selectors -/

/-- A selector value as it is written: one accepted value or several. -/
inductive SelectorValue where
  | one (value : String)
  | many (values : List String)

/-- The terms of a selector as it is written, in the order of their labels. `what` names its owner. -/
def selectorTerms (what : String) (selector : Std.TreeMap String SelectorValue) : Except String (List SelectorTerm) :=
  selector.toList.mapM fun (label, value) =>
    match value with
    | .one value => .ok ⟨label, [value]⟩
    | .many [] => .error (what ++ " selector " ++ Text.debugStr label ++ " has an empty value list")
    | .many values => .ok ⟨label, values⟩

/-- The first name that is there twice, given the names before. -/
def duplicateName : List String → List String → Option String
  | _, [] => none
  | seen, name :: rest => if seen.contains name then some name else duplicateName (name :: seen) rest

/-! ### `waves.yaml` -/

structure WaveEntry where
  name : String
  selector : Std.TreeMap String SelectorValue

def WaveEntry.wave (entry : WaveEntry) : Except String Wave :=
  if Text.isBlank entry.name then .error "a wave has an empty name"
  else if entry.name = implicitFinalWave then
    .error ("the wave name " ++ Text.debugStr implicitFinalWave ++ " is reserved for the implicit final wave")
  else (selectorTerms ("wave " ++ Text.debugStr entry.name) entry.selector).map fun terms => ⟨entry.name, ⟨terms⟩⟩

/-- A file without waves is the plan of one wave. -/
def parseWavePlan (readWaves : String → Except String (List WaveEntry)) (yaml : String) : Except String WavePlan :=
  if Text.isBlank yaml then .ok .single
  else
    Except.mapError ("invalid waves.yaml: " ++ ·) do
      let entries ← readWaves yaml
      if entries.isEmpty then .ok .single
      else
        let waves ← entries.mapM WaveEntry.wave
        match duplicateName [] (waves.map (·.name)) with
        | some name => .error ("duplicate wave name " ++ Text.debugStr name)
        | none => .ok ⟨waves⟩

/-! ### `gatewaysets.yaml` -/

/-- An overlay for the nodes that a selector matches. -/
structure GatewaySet where
  name : String
  selector : Selector
  overlay : Mapping

structure GatewaySetEntry where
  name : String
  selector : Std.TreeMap String SelectorValue
  overlay : Mapping

def GatewaySetEntry.gatewaySet (entry : GatewaySetEntry) : Except String GatewaySet :=
  if Text.isBlank entry.name then .error "a gatewayset has an empty name"
  else
    (selectorTerms ("gatewayset " ++ Text.debugStr entry.name) entry.selector).map fun terms =>
      ⟨entry.name, ⟨terms⟩, entry.overlay⟩

/-- The sets in the order of their names. -/
def parseGatewaysets (readSets : String → Except String (List GatewaySetEntry)) (yaml : String) :
    Except String (List GatewaySet) :=
  if Text.isBlank yaml then .ok []
  else
    Except.mapError ("invalid gatewaysets.yaml: " ++ ·) do
      let entries ← readSets yaml
      let sets ← entries.mapM GatewaySetEntry.gatewaySet
      let sets := sets.insertionSort fun a b => a.name ≤ b.name
      match duplicateName [] (sets.map (·.name)) with
      | some name => .error ("duplicate gatewayset name " ++ Text.debugStr name)
      | none => .ok sets

/-- The sets that match the labels of a node, in the order of their names. -/
def matchingSets (sets : List GatewaySet) (labels : Labels) : List GatewaySet :=
  sets.filter fun set => set.selector.matches labels

mutual

/-- Merges an overlay into a document, entry by entry. -/
def deepMergeMapping : Mapping → List (Yaml.Key × Yaml.Value) → Mapping
  | base, [] => base
  | base, entry :: rest => deepMergeMapping (mergeEntry base entry) rest
termination_by structural _ entries => entries

def mergeEntry : Mapping → Yaml.Key × Yaml.Value → Mapping
  | base, (key, value) => mergeValue base key value
termination_by structural _ entry => entry

/-- Two mappings under one key are merged; any other value of the overlay takes the place of what is there. -/
def mergeValue : Mapping → Yaml.Key → Yaml.Value → Mapping
  | base, key, .mapping entries =>
    match base.lookup key with
    | some (.mapping child) => Yaml.insert base key (.mapping (deepMergeMapping child entries))
    | _ => Yaml.insert base key (.mapping entries)
  | base, key, value => Yaml.insert base key value
termination_by structural _ _ value => value

end

/-- The document with the overlays of all sets that match. -/
def stamp (sets : List GatewaySet) (doc : Mapping) (labels : Labels) : Mapping :=
  (matchingSets sets labels).foldl (fun doc set => deepMergeMapping doc set.overlay) doc

/-! ### `canary.yaml` -/

/-- The file as far as the policy and its checks go. What is measured, and for how long, is left out. -/
structure CanaryFile where
  enabled : Bool
  maxErrorRateIncrease : Option Float
  maxP99Factor : Option Float
  maxSpendFactor : Option Float
  spendZscore : Option Float
  manualGateAfter : List String

def defaultMaxErrorRateIncrease : Float := 0.05
def defaultMaxP99Factor : Float := 1.5
def defaultMaxSpendFactor : Float := 2.0
def defaultSpendZscore : Float := 3.0

/-- Without a policy the analysis is off. -/
def defaultCanaryPolicy : CanaryPolicy := ⟨false, []⟩

def CanaryFile.policy (file : CanaryFile) : Except String CanaryPolicy :=
  let increase := file.maxErrorRateIncrease.getD defaultMaxErrorRateIncrease
  if file.maxP99Factor.getD defaultMaxP99Factor ≤ 0.0 then .error "max_p99_factor must be > 0"
  else if file.maxSpendFactor.getD defaultMaxSpendFactor ≤ 0.0 then .error "max_spend_factor must be > 0"
  else if ¬ (0.0 ≤ increase ∧ increase ≤ 1.0) then .error "max_error_rate_increase must be in [0, 1]"
  else if file.spendZscore.getD defaultSpendZscore ≤ 0.0 then .error "spend_zscore must be > 0"
  else .ok ⟨file.enabled, file.manualGateAfter⟩

def parseCanaryPolicy (readCanary : String → Except String CanaryFile) (yaml : String) : Except String CanaryPolicy :=
  if Text.isBlank yaml then .ok defaultCanaryPolicy
  else Except.mapError ("invalid canary.yaml: " ++ ·) ((readCanary yaml).bind CanaryFile.policy)

end SmallGateway
