import SmallGateway.Fleet
import SmallGateway.Sessions

/-!
The control plane between two rollouts (`gatewayctl/src/{server,reconcile}.rs`): the streams of the nodes, the
bootstrap push that every stream begins with, and the reconciler, which compares for one node after the other what
is desired, delivered and observed, and pushes the desired render again where they differ. A tick is taken in
single steps, so that the streams go on between the look at a node and the push to it.
-/

namespace SmallGateway

/-- After this many refusals in a row a node is left alone. -/
def persistentNackThreshold : Nat := 3

inductive DriftCase
  | inSync
  | deliveryStale
  | nodeDrifted
  | breakGlassTolerated (expiry : Nat)
  | persistentlyDivergent (nacks : Nat)
  | observedUnknown
  deriving DecidableEq

def DriftCase.healsByRepush : DriftCase → Bool
  | .deliveryStale | .nodeDrifted => true
  | _ => false

/-- What is known of a node, against the hash that is desired for it. An override is tolerated before anything
    else, and a node that keeps refusing comes before one that was not delivered. -/
def classify (node : NodeState) (desired : String) (now : Nat) : DriftCase :=
  if node.breakGlassActive now then .breakGlassTolerated (node.breakGlassUntil.getD now)
  else if persistentNackThreshold ≤ node.consecutiveNacks then .persistentlyDivergent node.consecutiveNacks
  else
    match node.lastAckedHash with
    | none => .deliveryStale
    | some delivered =>
      if delivered ≠ desired then .deliveryStale
      else
        match node.observedHash with
        | none => .observedUnknown
        | some observed => if observed = desired then .inSync else .nodeDrifted

/-- The bootstrap of a stream: the labels it was admitted with, the render it was given, and whether that was
    pushed. -/
structure Bootstrap where
  labels : Labels
  rendered : Option Rendered
  pushed : Bool

/-- Where the reconciler is: between ticks, at the nodes still to look at, or about to push to one whose labels it
    read. -/
inductive Reconciler
  | idle
  | ticking (now : Nat) (queue : List String)
  | healing (now : Nat) (queue : List String) (nodeId : String) (labels : Labels)

inductive PushCause
  | bootstrap
  | heal
  deriving DecidableEq

/-- A push outside of a rollout, with the labels that led to it. -/
structure NodePush where
  cause : PushCause
  labels : Labels
  snapshot : RenderedSnapshot
  delivered : Bool

structure ControlPlane where
  fleet : Fleet
  server : Server
  bootstraps : List Bootstrap
  reconciler : Reconciler
  wavesInFlight : Nat
  pushes : List NodePush

namespace ControlPlane

inductive Action
  | session (action : Server.Action)
  | breakGlass (nodeId : String) (expiry : Nat)
  /-- A stream that is entered gets the desired render for its labels. -/
  | render (i : Nat)
  | bootstrapPush (i : Nat)
  | tick (now : Nat)
  | inspect
  | heal

/-- The stream's sender is in the table. -/
def Sends (server : Server) (i : Nat) : Bool := server.streams[i]?.any fun stream => stream.phase != .connected

/-- Mints a version and puts the render on the node's stream, where it has one. -/
def push (cp : ControlPlane) (cause : PushCause) (nodeId : String) (labels : Labels) (rendered : Rendered) :
    ControlPlane :=
  let (version, fleet) := cp.fleet.nextVersionFor nodeId rendered.renderHash
  { cp with
    fleet
    pushes := cp.pushes ++
      [⟨cause, labels, rendered.toSnapshot nodeId version, cp.server.sessions[nodeId]?.isSome⟩] }

/-- The node's own desired render, by the labels that it has now. -/
def desiredForNode (texts : RenderTexts) (cp : ControlPlane) (nodeId : String) : Rendered × ControlPlane :=
  match cp.server.store.nodes[nodeId]? with
  | none => (cp.fleet.applied, cp)
  | some node =>
    let (rendered, fleet) := cp.fleet.desiredFor texts node.labels
    (rendered, { cp with fleet })

/-- The node with the delivered hash of the fleet, where it has not acknowledged anything. -/
def withDelivered (node : NodeState) (delivered : Option String) : NodeState :=
  if node.lastAckedHash.isNone then { node with lastAckedHash := delivered } else node

/-- One node of a tick. A node that would be pushed to is left to a wave in flight, and to its own wave while that
    waits. -/
def inspectNode (texts : RenderTexts) (cp : ControlPlane) (now : Nat) (nodeId : String) (queue : List String) :
    ControlPlane :=
  match cp.server.store.nodes[nodeId]? with
  | none => { cp with reconciler := .ticking now queue }
  | some node =>
    let (desired, fleet) := cp.fleet.desiredFor texts node.labels
    let seen := withDelivered node (fleet.deliveredHash nodeId)
    let heals := (classify seen desired.renderHash now).healsByRepush && cp.wavesInFlight == 0 &&
      !fleet.nodePendingInUnappliedWave node.labels
    { cp with
      fleet, reconciler := if heals then .healing now queue nodeId node.labels else .ticking now queue }

def step (texts : RenderTexts) (cp : ControlPlane) : Action → Option ControlPlane
  | .session action =>
    (cp.server.step action).map fun server =>
      match action with
      | .connect _ labels => { cp with server, bootstraps := cp.bootstraps ++ [⟨labels, none, false⟩] }
      | _ => { cp with server }
  | .breakGlass nodeId expiry =>
    some { cp with server := { cp.server with store := cp.server.store.setBreakGlass nodeId expiry } }
  | .render i =>
    match cp.bootstraps[i]? with
    | none => none
    | some bootstrap =>
      if Sends cp.server i && bootstrap.rendered.isNone then
        let (rendered, fleet) := cp.fleet.desiredFor texts bootstrap.labels
        some { cp with fleet, bootstraps := cp.bootstraps.set i { bootstrap with rendered } }
      else none
  | .bootstrapPush i =>
    match cp.bootstraps[i]?, cp.server.streams[i]? with
    | some ⟨labels, some rendered, false⟩, some stream =>
      some (push { cp with bootstraps := cp.bootstraps.set i ⟨labels, some rendered, true⟩ } .bootstrap stream.node
        labels rendered)
    | _, _ => none
  | .tick now =>
    match cp.reconciler with
    | .idle => some { cp with reconciler := .ticking now (cp.server.store.connectedNodes.map (·.1)) }
    | _ => none
  | .inspect =>
    match cp.reconciler with
    | .ticking _ [] => some { cp with reconciler := .idle }
    | .ticking now (nodeId :: queue) => some (inspectNode texts cp now nodeId queue)
    | _ => none
  | .heal =>
    match cp.reconciler with
    | .healing now queue nodeId labels =>
      let (rendered, cp) := desiredForNode texts cp nodeId
      some { push cp .heal nodeId labels rendered with reconciler := .ticking now queue }
    | _ => none

end ControlPlane

end SmallGateway
