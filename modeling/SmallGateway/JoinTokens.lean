import SmallGateway.Lib.Runs
import SmallGateway.Sessions

/-!
The join tokens (`gatewayctl/src/token.rs`) and the streams that they open (`session` in `gatewayctl/src/server.rs`). A
node presents a secret with the id that it gives itself. A token that nobody has used is burned and bound to that id, and
a burned one admits the id that it is bound to. Whether the id has been admitted with another token is not asked: an
established node keeps its id, and with it its session, exactly when nobody presents an unused token under it
(`exclusive_iff`).
-/

namespace SmallGateway

structure JoinToken where
  labels : Labels
  /-- The first second at which the token is no longer valid. -/
  expiresAt : Nat
  used : Bool
  /-- The node that first used it. -/
  boundNode : Option String

inductive AuthError
  | unknown
  | expired
  | alreadyUsed
  deriving DecidableEq

inductive Admission
  | freshJoin
  | reconnect
  deriving DecidableEq

structure JoinTokens where
  tokens : Std.TreeMap String JoinToken
  defaultTtlSecs : Nat

namespace JoinTokens

def new (defaultTtlSecs : Nat) : JoinTokens := ⟨∅, defaultTtlSecs⟩

/-- Seconds saturate at 64 bits. A token of the same secret is replaced. -/
def mintWithTtl (tokens : JoinTokens) (now : Nat) (secret : String) (labels : Labels) (ttlSecs : Nat) : JoinTokens :=
  { tokens with
    tokens := tokens.tokens.insert secret ⟨labels, min (now + ttlSecs) (2 ^ 64 - 1), false, none⟩ }

def mint (tokens : JoinTokens) (now : Nat) (secret : String) (labels : Labels) : JoinTokens :=
  tokens.mintWithTtl now secret labels tokens.defaultTtlSecs

/-- A join burns the token and binds it to the node; a reconnect is the same node with its burned token. A refusal
    burns nothing. -/
def authorize (tokens : JoinTokens) (now : Nat) (nodeId secret : String) :
    Except AuthError (Labels × Admission) × JoinTokens :=
  match tokens.tokens[secret]? with
  | none => (.error .unknown, tokens)
  | some token =>
    if token.used then
      if token.boundNode = some nodeId then (.ok (token.labels, .reconnect), tokens)
      else (.error .alreadyUsed, tokens)
    else if token.expiresAt ≤ now then (.error .expired, tokens)
    else
      (.ok (token.labels, .freshJoin),
        { tokens with tokens := tokens.tokens.insert secret { token with used := true, boundNode := some nodeId } })

/-- A node that was admitted, the secret that it presented, and the labels that it got. -/
structure Admitted where
  nodeId : String
  secret : String
  labels : Labels

end JoinTokens

/-- The tokens and the streams, with a record of who was admitted. The streams are named by the order of their
    admissions. -/
structure JoinLog where
  tokens : JoinTokens
  admitted : List JoinTokens.Admitted
  server : Server

namespace JoinLog

inductive Action
  | mint (now : Nat) (secret : String) (labels : Labels)
  | mintWithTtl (now : Nat) (secret : String) (labels : Labels) (ttlSecs : Nat)
  | authorize (now : Nat) (nodeId secret : String)
  /-- A stream that was admitted goes on, or ends. -/
  | stream (action : Server.Action)

def start (defaultTtlSecs : Nat) : JoinLog := ⟨.new defaultTtlSecs, [], .new⟩

/-- The streams that an admission opens, and that nothing else does. -/
def Opens : Server.Action → Prop
  | .connect _ _ => True
  | _ => False

instance : DecidablePred Opens
  | .connect _ _ => isTrue trivial
  | .insert _ | .receive _ _ | .disconnect _ | .remove _ | .forget _ => isFalse id

def step (log : JoinLog) : Action → Option JoinLog
  | .mint now secret labels => some { log with tokens := log.tokens.mint now secret labels }
  | .mintWithTtl now secret labels ttlSecs =>
    some { log with tokens := log.tokens.mintWithTtl now secret labels ttlSecs }
  | .authorize now nodeId secret =>
    match log.tokens.authorize now nodeId secret with
    | (.ok (labels, _), tokens) =>
      (log.server.step (.connect nodeId labels)).map fun server =>
        ⟨tokens, log.admitted ++ [⟨nodeId, secret, labels⟩], server⟩
    | (.error _, tokens) => some { log with tokens }
  | .stream action => if Opens action then none else (log.server.step action).map fun server => { log with server }

/-- Whom the call admits has not been admitted with another token. -/
def Exclusive (log : JoinLog) : Action → Prop
  | .authorize now nodeId secret => ∀ admission, (log.tokens.authorize now nodeId secret).1 = .ok admission →
      ∀ earlier ∈ log.admitted, earlier.nodeId = nodeId → earlier.secret = secret
  | _ => True

instance (log : JoinLog) (action : Action) : Decidable (log.Exclusive action) :=
  match action with
  | .mint _ _ _ | .mintWithTtl _ _ _ _ | .stream _ => isTrue trivial
  | .authorize now nodeId secret =>
    match call : (log.tokens.authorize now nodeId secret).1 with
    | .error _ => isTrue fun _ admits => by cases call.symm.trans admits
    | .ok admission =>
      decidable_of_iff (∀ earlier ∈ log.admitted, earlier.nodeId = nodeId → earlier.secret = secret)
        ⟨fun own _ _ => own, fun exclusive => exclusive admission call⟩

/-- A token that is valid and unused is not presented under the id of a node that was admitted with another token. -/
def Unclaimed (log : JoinLog) : Action → Prop
  | .authorize now nodeId secret => ∀ token ∈ log.tokens.tokens[secret]?, token.used = false → now < token.expiresAt →
      ∀ earlier ∈ log.admitted, earlier.nodeId = nodeId → earlier.secret = secret
  | _ => True

instance (log : JoinLog) (action : Action) : Decidable (log.Unclaimed action) :=
  match action with
  | .mint _ _ _ | .mintWithTtl _ _ _ _ | .stream _ => isTrue trivial
  | .authorize now nodeId secret =>
    inferInstanceAs (Decidable (∀ token ∈ log.tokens.tokens[secret]?, token.used = false → now < token.expiresAt →
      ∀ earlier ∈ log.admitted, earlier.nodeId = nodeId → earlier.secret = secret))

/-- Whoever a token is bound to was admitted with it, and nobody was admitted with two. -/
structure Bound (log : JoinLog) : Prop where
  bound : ∀ secret token nodeId, log.tokens.tokens[secret]? = some token → token.boundNode = some nodeId →
    ∃ admission ∈ log.admitted, admission.nodeId = nodeId ∧ admission.secret = secret
  once : ∀ first ∈ log.admitted, ∀ second ∈ log.admitted, first.nodeId = second.nodeId → first.secret = second.secret

theorem bound_start (defaultTtlSecs : Nat) : (start defaultTtlSecs).Bound :=
  ⟨fun _ _ _ found => (by simp [start, JoinTokens.new] at found), List.forall_mem_nil _⟩

/-- What one call of a presented secret comes to. -/
theorem authorize_cases (tokens : JoinTokens) (now : Nat) (nodeId secret : String) :
    (∃ token, tokens.tokens[secret]? = some token ∧ token.used = true ∧ token.boundNode = some nodeId ∧
        tokens.authorize now nodeId secret = (.ok (token.labels, .reconnect), tokens)) ∨
      (∃ token, tokens.tokens[secret]? = some token ∧ token.used = false ∧ now < token.expiresAt ∧
        tokens.authorize now nodeId secret = (.ok (token.labels, .freshJoin),
          { tokens with
            tokens := tokens.tokens.insert secret { token with used := true, boundNode := some nodeId } })) ∨
      ((∀ token, tokens.tokens[secret]? = some token → ¬ (token.used = false ∧ now < token.expiresAt)) ∧
        ∃ reason, tokens.authorize now nodeId secret = (.error reason, tokens)) := by
  unfold JoinTokens.authorize
  cases found : tokens.tokens[secret]? with
  | none => exact .inr (.inr ⟨fun _ none => (by cases none), .unknown, rfl⟩)
  | some token =>
    cases used : token.used with
    | true =>
      by_cases own : token.boundNode = some nodeId
      · refine .inl ⟨token, rfl, used, own, ?_⟩
        simp [used, own]
      · refine .inr (.inr ⟨fun other same => ?_, .alreadyUsed, ?_⟩)
        · obtain rfl := Option.some.inj same
          simp [used]
        · simp [used, own]
    | false =>
      by_cases live : now < token.expiresAt
      · refine .inr (.inl ⟨token, rfl, used, live, ?_⟩)
        simp [used, live]
      · refine .inr (.inr ⟨fun other same => ?_, .expired, ?_⟩)
        · obtain rfl := Option.some.inj same
          simp [live]
        · simp [used, live]

theorem Bound.mint {log : JoinLog} (bound : log.Bound) (now : Nat) (secret : String) (labels : Labels) (ttlSecs : Nat) :
    Bound { log with tokens := log.tokens.mintWithTtl now secret labels ttlSecs } := by
  refine ⟨fun other token nodeId found binds => ?_, bound.once⟩
  simp only [JoinTokens.mintWithTtl, Std.TreeMap.getElem?_insert] at found
  split at found
  · obtain rfl := Option.some.inj found
    cases binds
  · exact bound.bound other token nodeId found binds

/-- A node that is admitted with the token of its earlier admissions. -/
theorem Bound.admit {log : JoinLog} (bound : log.Bound) (last : JoinTokens.Admitted)
    (own : ∀ earlier ∈ log.admitted, earlier.nodeId = last.nodeId → earlier.secret = last.secret) :
    ∀ first ∈ log.admitted ++ [last], ∀ second ∈ log.admitted ++ [last],
      first.nodeId = second.nodeId → first.secret = second.secret := by
  intro first inFirst second inSecond same
  rcases List.mem_append.mp inFirst with before | isLast
  · rcases List.mem_append.mp inSecond with beforeToo | isLastToo
    · exact bound.once first before second beforeToo same
    · rw [List.mem_singleton.mp isLastToo] at same ⊢
      exact own first before same
  · rw [List.mem_singleton.mp isLast] at same ⊢
    rcases List.mem_append.mp inSecond with beforeToo | isLastToo
    · exact (own second beforeToo same.symm).symm
    · rw [List.mem_singleton.mp isLastToo]

/-- A call admits nobody under two tokens exactly when it presents no unclaimed token under an id that has one. -/
theorem exclusive_iff_unclaimed {log : JoinLog} (bound : log.Bound) (action : Action) :
    log.Exclusive action ↔ log.Unclaimed action := by
  cases action with
  | mint | mintWithTtl | stream => exact Iff.rfl
  | authorize now nodeId secret =>
    unfold Exclusive Unclaimed
    dsimp only
    rcases authorize_cases log.tokens now nodeId secret with
      ⟨token, found, used, own, call⟩ | ⟨token, found, unused, live, call⟩ | ⟨refused, reason, call⟩
    · -- A reconnect is under the token that the node was admitted with.
      refine iff_of_true (fun _ _ earlier inside same => ?_) (fun other known unused => ?_)
      · obtain ⟨admission, before, sameNode, sameSecret⟩ := bound.bound secret token nodeId found own
        rw [← sameSecret]
        exact bound.once earlier inside admission before (same.trans sameNode.symm)
      · obtain rfl := Option.some.inj (found.symm.trans known)
        cases used.symm.trans unused
    · rw [call, found]
      simp [unused, live]
    · rw [call]
      refine iff_of_true (fun _ admits => by cases admits) (fun token known unused live => ?_)
      exact absurd ⟨unused, live⟩ (refused token known)

/-- An admission opens the node's stream. -/
theorem step_admitted {log after : JoinLog} {now : Nat} {nodeId secret : String} {labels : Labels}
    {admission : Admission} {tokens : JoinTokens}
    (call : log.tokens.authorize now nodeId secret = (.ok (labels, admission), tokens))
    (stepped : log.step (.authorize now nodeId secret) = some after) :
    ∃ server, log.server.step (.connect nodeId labels) = some server ∧
      after = ⟨tokens, log.admitted ++ [⟨nodeId, secret, labels⟩], server⟩ := by
  unfold step at stepped
  dsimp only at stepped
  rw [call] at stepped
  obtain ⟨server, opened, rfl⟩ := Option.map_eq_some_iff.mp stepped
  exact ⟨server, opened, rfl⟩

/-- A refusal changes nothing. -/
theorem step_refused {log after : JoinLog} {now : Nat} {nodeId secret : String} {reason : AuthError}
    (call : log.tokens.authorize now nodeId secret = (.error reason, log.tokens))
    (stepped : log.step (.authorize now nodeId secret) = some after) : after = log := by
  unfold step at stepped
  dsimp only at stepped
  rw [call] at stepped
  exact (Option.some.inj stepped).symm

/-- A step of a stream changes no token and admits nobody. -/
theorem step_stream {log after : JoinLog} {action : Server.Action} (stepped : log.step (.stream action) = some after) :
    ¬ Opens action ∧ ∃ server, log.server.step action = some server ∧ after = { log with server } := by
  unfold step at stepped
  dsimp only at stepped
  split at stepped
  · cases stepped
  · rename_i admitted
    obtain ⟨server, goesOn, rfl⟩ := Option.map_eq_some_iff.mp stepped
    exact ⟨admitted, server, goesOn, rfl⟩

theorem bound_step {log after : JoinLog} {action : Action} (bound : log.Bound) (exclusive : log.Exclusive action)
    (stepped : log.step action = some after) : after.Bound := by
  cases action with
  | mint now secret labels =>
    obtain rfl := Option.some.inj stepped
    exact bound.mint now secret labels _
  | mintWithTtl now secret labels ttlSecs =>
    obtain rfl := Option.some.inj stepped
    exact bound.mint now secret labels ttlSecs
  | stream action =>
    obtain ⟨-, server, -, rfl⟩ := step_stream stepped
    exact ⟨bound.bound, bound.once⟩
  | authorize now nodeId secret =>
    unfold Exclusive at exclusive
    dsimp only at exclusive
    rcases authorize_cases log.tokens now nodeId secret with
      ⟨token, found, used, own, call⟩ | ⟨token, found, unused, live, call⟩ | ⟨refused, reason, call⟩
    · obtain ⟨server, -, rfl⟩ := step_admitted call stepped
      rw [call] at exclusive
      refine ⟨fun other held node known binds => ?_, bound.admit _ (exclusive _ rfl)⟩
      obtain ⟨admission, before, same⟩ := bound.bound other held node known binds
      exact ⟨admission, List.mem_append_left _ before, same⟩
    · obtain ⟨server, -, rfl⟩ := step_admitted call stepped
      rw [call] at exclusive
      refine ⟨fun other held node known binds => ?_, bound.admit _ (exclusive _ rfl)⟩
      dsimp only at known
      rw [Std.TreeMap.getElem?_insert] at known
      split at known
      · rename_i same
        obtain rfl := Std.LawfulEqCmp.compare_eq_iff_eq.mp same
        obtain rfl := Option.some.inj known
        obtain rfl := Option.some.inj binds
        exact ⟨_, List.mem_append_right _ (List.mem_singleton_self _), rfl, rfl⟩
      · obtain ⟨admission, before, same⟩ := bound.bound other held node known binds
        exact ⟨admission, List.mem_append_left _ before, same⟩
    · obtain rfl := step_refused call stepped
      exact bound

/-! ### Sessions -/

/-- The stream at a place is that of the admission at the place, a sender in the table belongs to its node, and a node
    has the labels of one of its admissions. -/
structure Streamed (log : JoinLog) : Prop where
  streams : log.server.streams.map NodeStream.node = log.admitted.map JoinTokens.Admitted.nodeId
  senders : ∀ (nodeId : String) (i : Nat), log.server.sessions[nodeId]? = some i →
    (log.admitted.map JoinTokens.Admitted.nodeId)[i]? = some nodeId
  labels : ∀ (nodeId : String) (labels : Labels), log.server.store.nodes[nodeId]?.map NodeState.labels = some labels →
    ∃ admission ∈ log.admitted, admission.nodeId = nodeId ∧ admission.labels = labels

/-- A stream that goes on leaves the streams to their nodes and the labels alone, and enters a sender under its own node
    only. -/
theorem server_step_keeps {s t : Server} {action : Server.Action} (stepped : s.step action = some t)
    (goesOn : ¬ Opens action) :
    t.streams.map NodeStream.node = s.streams.map NodeStream.node ∧
      (∀ (nodeId : String) (i : Nat), t.sessions[nodeId]? = some i →
        s.sessions[nodeId]? = some i ∨ (s.streams.map NodeStream.node)[i]? = some nodeId) ∧
      ∀ nodeId : String, t.store.nodes[nodeId]?.map NodeState.labels = s.store.nodes[nodeId]?.map NodeState.labels := by
  have moved {i : Nat} {stream next : NodeStream} (found : s.streams[i]? = some stream)
      (same : next.node = stream.node) :
      (s.streams.set i next).map NodeStream.node = s.streams.map NodeStream.node := by
    obtain ⟨bound, rfl⟩ := List.getElem?_eq_some_iff.mp found
    have inside : i < (s.streams.map NodeStream.node).length := by rwa [List.length_map]
    have own : s.streams[i].node = (s.streams.map NodeStream.node)[i] :=
      (List.getElem_map NodeStream.node).symm
    rw [List.map_set, same, own, List.set_getElem_self]
  cases action with
  | connect node labels => exact absurd trivial goesOn
  | insert i =>
    simp only [Server.step] at stepped
    obtain ⟨stream, found, -, rfl⟩ := Server.advance_spec stepped
    refine ⟨moved found rfl, fun nodeId j entered => ?_, fun _ => rfl⟩
    rw [Std.TreeMap.getElem?_insert] at entered
    split at entered
    · rename_i same
      obtain rfl := Std.LawfulEqCmp.compare_eq_iff_eq.mp same
      obtain rfl := Option.some.inj entered
      exact .inr (by rw [List.getElem?_map, found, Option.map_some])
    · exact .inl entered
  | receive i message =>
    simp only [Server.step] at stepped
    obtain ⟨stream, found, -, rfl⟩ := Server.advance_spec stepped
    obtain ⟨streams, sessions, -⟩ := Server.handle_spec
      { s with streams := s.streams.set i { stream with reported := stream.reported || message.reports } }
      stream.node message
    refine ⟨by rw [streams]; exact moved found rfl, fun nodeId j entered => .inl (by rwa [sessions] at entered), ?_⟩
    intro nodeId
    cases message with
    | ack | nack | status => exact s.store.update_labels stream.node nodeId fun _ => rfl
    | usage spenders => rfl
  | disconnect i =>
    simp only [Server.step] at stepped
    obtain ⟨stream, found, -, rfl⟩ := Server.advance_spec stepped
    refine ⟨moved found rfl, fun _ _ entered => .inl entered, fun nodeId => ?_⟩
    exact s.store.update_labels stream.node nodeId fun _ => rfl
  | remove i =>
    simp only [Server.step] at stepped
    obtain ⟨stream, found, -, rfl⟩ := Server.advance_spec stepped
    refine ⟨moved found rfl, fun nodeId j entered => .inl ?_, fun _ => rfl⟩
    rw [Std.TreeMap.getElem?_erase] at entered
    split at entered
    · cases entered
    · exact entered
  | forget i =>
    simp only [Server.step] at stepped
    obtain ⟨stream, found, -, rfl⟩ := Server.advance_spec stepped
    exact ⟨moved found rfl, fun _ _ entered => .inl entered, fun _ => rfl⟩

theorem Streamed.admit {log : JoinLog} (streamed : log.Streamed) {nodeId : String} {labels : Labels} {server : Server}
    (opened : log.server.step (.connect nodeId labels) = some server) (tokens : JoinTokens) (secret : String) :
    Streamed ⟨tokens, log.admitted ++ [⟨nodeId, secret, labels⟩], server⟩ := by
  obtain rfl := Option.some.inj opened
  refine ⟨?_, fun node i entered => ?_, fun node known found => ?_⟩
  · simpa using streamed.streams
  · have before := streamed.senders node i entered
    rw [List.map_append, List.getElem?_append_left (List.getElem?_eq_some_iff.mp before).1]
    exact before
  · by_cases same : node = nodeId
    · subst same
      rw [RuntimeStore.connect_labels, Option.some.injEq] at found
      exact ⟨_, List.mem_append_right _ (List.mem_singleton_self _), rfl, found⟩
    · rw [RuntimeStore.connect_other _ _ same] at found
      obtain ⟨admission, before, own⟩ := streamed.labels node known found
      exact ⟨admission, List.mem_append_left _ before, own⟩

theorem streamed_step : Runs.Preserves step Streamed := by
  intro log action after streamed stepped
  cases action with
  | mint | mintWithTtl =>
    obtain rfl := Option.some.inj stepped
    exact ⟨streamed.streams, streamed.senders, streamed.labels⟩
  | stream action =>
    obtain ⟨goesOn, server, moves, rfl⟩ := step_stream stepped
    obtain ⟨streams, senders, labels⟩ := server_step_keeps moves goesOn
    refine ⟨streams.trans streamed.streams, fun nodeId i entered => ?_, fun nodeId known found => ?_⟩
    · rcases senders nodeId i entered with before | own
      · exact streamed.senders nodeId i before
      · exact streamed.streams ▸ own
    · exact streamed.labels nodeId known (by rw [← labels, found])
  | authorize now nodeId secret =>
    rcases authorize_cases log.tokens now nodeId secret with
      ⟨token, -, -, -, call⟩ | ⟨token, -, -, -, call⟩ | ⟨-, reason, call⟩
    · obtain ⟨server, opened, rfl⟩ := step_admitted call stepped
      exact streamed.admit opened _ secret
    · obtain ⟨server, opened, rfl⟩ := step_admitted call stepped
      exact streamed.admit opened _ secret
    · obtain rfl := step_refused call stepped
      exact streamed

theorem streamed_start (defaultTtlSecs : Nat) : (start defaultTtlSecs).Streamed :=
  ⟨rfl, fun _ _ entered => (by simp [start, Server.new] at entered),
    fun _ _ found => (by simp [start, Server.new, RuntimeStore.new] at found)⟩

/-- A node that was admitted is reached, and labelled, through admissions with the same token. -/
def Undisturbed (log : JoinLog) : Prop :=
  ∀ established ∈ log.admitted,
    (∀ i : Nat, log.server.sessions[established.nodeId]? = some i → ∃ admission, log.admitted[i]? = some admission ∧
      admission.nodeId = established.nodeId ∧ admission.secret = established.secret) ∧
    ∀ labels, log.server.store.nodes[established.nodeId]?.map NodeState.labels = some labels →
      ∃ admission ∈ log.admitted, admission.nodeId = established.nodeId ∧ admission.secret = established.secret ∧
        admission.labels = labels

theorem Bound.undisturbed {log : JoinLog} (bound : log.Bound) (streamed : log.Streamed) : log.Undisturbed := by
  intro established inside
  refine ⟨fun i entered => ?_, fun labels found => ?_⟩
  · have own := streamed.senders _ i entered
    rw [List.getElem?_map] at own
    obtain ⟨admission, present, sameNode⟩ := Option.map_eq_some_iff.mp own
    exact ⟨admission, present, sameNode, bound.once _ (List.mem_of_getElem? present) _ inside sameNode⟩
  · obtain ⟨admission, before, sameNode, sameLabels⟩ := streamed.labels _ labels found
    exact ⟨admission, before, sameNode, bound.once _ before _ inside sameNode, sameLabels⟩

/-- Over every sequence of mints, of calls with any ids and secrets and of steps of the streams: nobody is admitted under
    the id of a node that was admitted with another token, if and only if no token that is valid and unused is presented
    under such an id. The nodes then keep their sessions and their labels. -/
theorem exclusive_iff (defaultTtlSecs : Nat) (actions : List Action) (log : JoinLog)
    (executed : Runs.exec step (start defaultTtlSecs) actions = some log) :
    (Runs.Along step Exclusive (start defaultTtlSecs) actions ↔
        Runs.Along step Unclaimed (start defaultTtlSecs) actions) ∧
      (Runs.Along step Unclaimed (start defaultTtlSecs) actions → log.Undisturbed) := by
  have agrees : Runs.Along step Exclusive (start defaultTtlSecs) actions ↔
      Runs.Along step Unclaimed (start defaultTtlSecs) actions :=
    Runs.along_iff_along _ (fun _ _ _ bound exclusive stepped => bound_step bound exclusive stepped)
      (fun _ action _ bound _ => exclusive_iff_unclaimed bound action) (bound_start defaultTtlSecs) executed
  refine ⟨agrees, fun unclaimed => ?_⟩
  have bound : log.Bound := Runs.exec_preserves_along
    (fun _ _ _ bound exclusive stepped => bound_step bound exclusive stepped) (bound_start defaultTtlSecs)
    (agrees.mpr unclaimed) executed
  exact bound.undisturbed (Runs.exec_preserves streamed_step (streamed_start defaultTtlSecs) executed)

/-! ### Two nodes and two tokens -/

/-- Each node joins with its own token, and one comes back. -/
def ownTokens : List Action :=
  [.mint 0 "t0" (.ofList [("env", "prod")]), .mint 0 "t1" (.ofList [("env", "edge")]), .authorize 1 "n1" "t0",
    .stream (.insert 0), .authorize 2 "n2" "t1", .stream (.insert 1), .authorize 90 "n1" "t0", .stream (.insert 2)]

theorem ownTokens_exclusive : Runs.Along step Exclusive (start 60) ownTokens :=
  (exclusive_iff 60 ownTokens ((Runs.exec step (start 60) ownTokens).getD (start 60))
    (Runs.exec_eq_getD step (start 60) ownTokens (by decide) (start 60))).1.mpr (by decide)

/-- The holder of the second token gives itself the first node's id. -/
def takenOver : List Action :=
  [.mint 0 "t0" (.ofList [("env", "prod")]), .mint 0 "t1" (.ofList [("env", "edge")]), .authorize 1 "n1" "t0",
    .stream (.insert 0), .authorize 2 "n1" "t1", .stream (.insert 1)]

/-- It is admitted, the node's session is that of its stream, and the node's labels are those of its token. -/
theorem second_token_takes_over : ∃ log : JoinLog, Runs.exec step (start 60) takenOver = some log ∧
    ¬ Runs.Along step Exclusive (start 60) takenOver ∧
    log.admitted.map (fun admission => (admission.nodeId, admission.secret)) = [("n1", "t0"), ("n1", "t1")] ∧
    log.server.sessions["n1"]? = some 1 ∧
    (log.server.store.nodes["n1"]?.map fun node => node.labels.toList) = some [("env", "edge")] := by
  exact ⟨(Runs.exec step (start 60) takenOver).getD (start 60),
    Runs.exec_eq_getD step (start 60) takenOver (by decide) (start 60), by decide, by decide,
    by decide, by decide⟩

end JoinLog

end SmallGateway
