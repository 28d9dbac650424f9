import SmallGateway.JoinTokens

/-!
The calls on the join tokens, one after the other (`mint_with_ttl` and `authorize` in `gatewayctl/src/token.rs`). From
one mint of a secret to the next the calls that succeed with it are of one node: the first of them joins, before the
token expires, and all others reconnect, whenever they come (`single_use`).
-/

namespace SmallGateway.JoinTokens

/-- A call on the tokens, at a time. -/
inductive Call where
  | mint (now : Nat) (secret : String) (labels : Labels)
  | mintWithTtl (now : Nat) (secret : String) (labels : Labels) (ttlSecs : Nat)
  | authorize (now : Nat) (nodeId secret : String)

/-- The secret that a call mints. -/
def Call.mints : Call → Option String
  | mint _ secret _ => some secret
  | mintWithTtl _ secret _ _ => some secret
  | authorize _ _ _ => none

/-- A call of a node, with what it was answered. -/
structure Answered where
  now : Nat
  nodeId : String
  secret : String
  answer : Except AuthError (Labels × Admission)

/-- The answers to the nodes in a sequence of calls, in their order. -/
def answers : JoinTokens → List Call → List Answered
  | _, [] => []
  | tokens, .mint now secret labels :: rest => answers (tokens.mint now secret labels) rest
  | tokens, .mintWithTtl now secret labels ttlSecs :: rest =>
    answers (tokens.mintWithTtl now secret labels ttlSecs) rest
  | tokens, .authorize now nodeId secret :: rest =>
    ⟨now, nodeId, secret, (tokens.authorize now nodeId secret).1⟩ ::
      answers (tokens.authorize now nodeId secret).2 rest

/-- A call that succeeded. -/
structure Success where
  now : Nat
  nodeId : String
  labels : Labels
  admission : Admission

/-- The call as one that succeeded with the secret, if it is one. -/
def Answered.success (secret : String) (answered : Answered) : Option Success :=
  match answered.answer with
  | .ok (labels, admission) =>
    if answered.secret = secret then some ⟨answered.now, answered.nodeId, labels, admission⟩ else none
  | .error _ => none

/-- The calls that succeed with a secret. -/
def successes (secret : String) (tokens : JoinTokens) (calls : List Call) : List Success :=
  (answers tokens calls).filterMap (·.success secret)

/-- The first second at which a token is no longer valid. -/
def expiry (now ttlSecs : Nat) : Nat := min (now + ttlSecs) (2 ^ 64 - 1)

/-- The token of a secret, with the node that it is bound to when it is burned. -/
def Holds (tokens : JoinTokens) (secret : String) (labels : Labels) (expiresAt : Nat) (owner : Option String) : Prop :=
  tokens.tokens[secret]? = some ⟨labels, expiresAt, owner.isSome, owner⟩

section

variable {tokens : JoinTokens} {secret : String} {labels : Labels} {expiresAt : Nat} {owner : Option String}

theorem holds_minted (tokens : JoinTokens) (now : Nat) (secret : String) (labels : Labels) (ttlSecs : Nat) :
    (tokens.mintWithTtl now secret labels ttlSecs).Holds secret labels (expiry now ttlSecs) none := by
  rw [Holds, mintWithTtl, Std.TreeMap.getElem?_insert_self]
  rfl

theorem Holds.mint (held : tokens.Holds secret labels expiresAt owner) (now : Nat) {other : String}
    (apart : other ≠ secret) (others : Labels) (ttlSecs : Nat) :
    (tokens.mintWithTtl now other others ttlSecs).Holds secret labels expiresAt owner := by
  rw [Holds, mintWithTtl, Std.TreeMap.getElem?_insert, if_neg (by simpa using apart)]
  exact held

/-- A call that fails leaves every token as it is. -/
theorem authorize_error {now : Nat} {nodeId : String} {reason : AuthError}
    (failed : (tokens.authorize now nodeId secret).1 = .error reason) :
    (tokens.authorize now nodeId secret).2 = tokens := by
  rcases JoinLog.authorize_cases tokens now nodeId secret with
    ⟨token, -, -, -, call⟩ | ⟨token, -, -, -, call⟩ | ⟨-, other, call⟩
  · rw [call]
  · rw [call] at failed
    cases failed
  · rw [call]

/-- A call with another secret leaves the token as it is. -/
theorem Holds.other (held : tokens.Holds secret labels expiresAt owner) {now : Nat} {nodeId other : String}
    (apart : other ≠ secret) : (tokens.authorize now nodeId other).2.Holds secret labels expiresAt owner := by
  rcases JoinLog.authorize_cases tokens now nodeId other with
    ⟨token, -, -, -, call⟩ | ⟨token, -, -, -, call⟩ | ⟨-, reason, call⟩
  · rw [call]
    exact held
  · rw [call, Holds, Std.TreeMap.getElem?_insert, if_neg (by simpa using apart)]
    exact held
  · rw [call]
    exact held

/-- A call with the secret of a burned token reconnects the node it is bound to, or fails. -/
theorem Holds.burned {node : String} (held : tokens.Holds secret labels expiresAt (some node)) (now : Nat)
    (nodeId : String) :
    (tokens.authorize now nodeId secret).2 = tokens ∧
      ((nodeId = node ∧ (tokens.authorize now nodeId secret).1 = .ok (labels, .reconnect)) ∨
        ∃ reason, (tokens.authorize now nodeId secret).1 = .error reason) := by
  rw [authorize, held]
  by_cases own : nodeId = node
  · subst own
    exact ⟨by simp, .inl ⟨rfl, by simp⟩⟩
  · exact ⟨by simp [Ne.symm own], .inr ⟨.alreadyUsed, by simp [Ne.symm own]⟩⟩

/-- A call with the secret of an unused token burns it before it expires, or fails. -/
theorem Holds.unused (held : tokens.Holds secret labels expiresAt none) (now : Nat) (nodeId : String) :
    (now < expiresAt ∧ (tokens.authorize now nodeId secret).1 = .ok (labels, .freshJoin) ∧
      (tokens.authorize now nodeId secret).2.Holds secret labels expiresAt (some nodeId)) ∨
    ((tokens.authorize now nodeId secret).2 = tokens ∧
      ∃ reason, (tokens.authorize now nodeId secret).1 = .error reason) := by
  rw [authorize, held]
  by_cases dead : expiresAt ≤ now
  · exact .inr ⟨by simp [dead], .expired, by simp [dead]⟩
  · exact .inl ⟨Nat.not_le.mp dead, by simp [dead], by simp [dead, Holds]⟩

theorem successes_authorize (now : Nat) (nodeId presented : String) (rest : List Call) :
    successes secret tokens (.authorize now nodeId presented :: rest) =
      (Answered.success secret ⟨now, nodeId, presented, (tokens.authorize now nodeId presented).1⟩).toList ++
        successes secret (tokens.authorize now nodeId presented).2 rest := by
  rw [successes, answers, List.filterMap_cons]
  cases Answered.success secret ⟨now, nodeId, presented, (tokens.authorize now nodeId presented).1⟩ <;> rfl

theorem success_ok {now : Nat} {nodeId : String} {admission : Admission} {answer : Except AuthError (Labels × Admission)}
    (ok : answer = .ok (labels, admission)) :
    Answered.success secret ⟨now, nodeId, secret, answer⟩ = some ⟨now, nodeId, labels, admission⟩ := by
  rw [ok]
  exact if_pos rfl

theorem success_error {now : Nat} {nodeId presented : String} {reason : AuthError}
    {answer : Except AuthError (Labels × Admission)} (error : answer = .error reason) :
    Answered.success secret ⟨now, nodeId, presented, answer⟩ = none := by
  rw [error]
  rfl

theorem success_other {now : Nat} {nodeId presented : String} {answer : Except AuthError (Labels × Admission)}
    (apart : presented ≠ secret) : Answered.success secret ⟨now, nodeId, presented, answer⟩ = none := by
  cases answer with
  | error reason => rfl
  | ok admitted => exact if_neg apart

/-- With a burned token only the node it is bound to succeeds, and reconnects. -/
theorem burned_successes {node : String} (held : tokens.Holds secret labels expiresAt (some node)) {calls : List Call}
    (kept : ∀ call ∈ calls, call.mints ≠ some secret) :
    ∀ success ∈ successes secret tokens calls,
      success.nodeId = node ∧ success.labels = labels ∧ success.admission = .reconnect := by
  induction calls generalizing tokens with
  | nil => simp [successes, answers]
  | cons call rest ih =>
    obtain ⟨own, keptRest⟩ := List.forall_mem_cons.mp kept
    cases call with
    | mint now other others => exact ih (held.mint now (fun same => own (congrArg some same)) others _) keptRest
    | mintWithTtl now other others ttlSecs =>
      exact ih (held.mint now (fun same => own (congrArg some same)) others ttlSecs) keptRest
    | authorize now nodeId presented =>
      rw [successes_authorize]
      by_cases same : presented = secret
      · subst same
        obtain ⟨unchanged, ⟨rfl, ok⟩ | ⟨reason, error⟩⟩ := held.burned now nodeId
        · rw [success_ok ok, unchanged]
          exact List.forall_mem_cons.mpr ⟨⟨rfl, rfl, rfl⟩, ih held keptRest⟩
        · rw [success_error error, unchanged]
          exact ih held keptRest
      · rw [success_other same]
        exact ih (held.other same) keptRest

/-- With an unused token nobody succeeds, or a node joins before the token expires and then reconnects. -/
theorem unused_successes (held : tokens.Holds secret labels expiresAt none) {calls : List Call}
    (kept : ∀ call ∈ calls, call.mints ≠ some secret) :
    successes secret tokens calls = [] ∨
      ∃ now node later, successes secret tokens calls = ⟨now, node, labels, .freshJoin⟩ :: later ∧ now < expiresAt ∧
        ∀ success ∈ later, success.nodeId = node ∧ success.labels = labels ∧ success.admission = .reconnect := by
  induction calls generalizing tokens with
  | nil => exact .inl rfl
  | cons call rest ih =>
    obtain ⟨own, keptRest⟩ := List.forall_mem_cons.mp kept
    cases call with
    | mint now other others => exact ih (held.mint now (fun same => own (congrArg some same)) others _) keptRest
    | mintWithTtl now other others ttlSecs =>
      exact ih (held.mint now (fun same => own (congrArg some same)) others ttlSecs) keptRest
    | authorize now nodeId presented =>
      rw [successes_authorize]
      by_cases same : presented = secret
      · subst same
        rcases held.unused now nodeId with ⟨live, ok, burned⟩ | ⟨unchanged, reason, error⟩
        · rw [success_ok ok]
          exact .inr ⟨now, nodeId, _, rfl, live, burned_successes burned keptRest⟩
        · rw [success_error error, unchanged]
          exact ih held keptRest
      · rw [success_other same]
        exact ih (held.other same) keptRest

end

/-- After any mint of a secret, and up to the next one: all calls that succeed with the secret are of one node and
    return the labels of the mint, the first joins before the token expires, and all others reconnect. A call that
    fails leaves every token as it is. -/
theorem single_use (tokens : JoinTokens) (minted : Nat) (secret : String) (labels : Labels) (ttlSecs : Nat)
    (calls : List Call) (kept : ∀ call ∈ calls, call.mints ≠ some secret) :
    (successes secret (tokens.mintWithTtl minted secret labels ttlSecs) calls = [] ∨
      ∃ now node later,
        successes secret (tokens.mintWithTtl minted secret labels ttlSecs) calls =
          ⟨now, node, labels, .freshJoin⟩ :: later ∧ now < expiry minted ttlSecs ∧
        ∀ success ∈ later, success.nodeId = node ∧ success.labels = labels ∧ success.admission = .reconnect) ∧
    ∀ (other : JoinTokens) (now : Nat) (nodeId presented : String) (reason : AuthError),
      (other.authorize now nodeId presented).1 = .error reason → (other.authorize now nodeId presented).2 = other :=
  ⟨unused_successes (holds_minted tokens minted secret labels ttlSecs) kept, fun _ _ _ _ _ => authorize_error⟩

/-- A join at the last second, a replay by another node, and two reconnects, one long after the token has expired. -/
theorem single_use_replayed :
    let calls : List Call :=
      [.authorize 399 "a" "s", .authorize 399 "b" "s", .authorize 400 "a" "s", .mint 500 "t" ∅, .authorize 9000 "a" "s"]
    ∃ now node later,
      successes "s" ((new 300).mintWithTtl 100 "s" ∅ 300) calls = ⟨now, node, ∅, .freshJoin⟩ :: later ∧
      now < expiry 100 300 ∧
      ∀ success ∈ later, success.nodeId = node ∧ success.labels = ∅ ∧ success.admission = .reconnect := by
  intro calls
  have once := (single_use (new 300) 100 "s" ∅ 300 calls (by simp [calls, Call.mints])).1
  refine once.resolve_left fun none => ?_
  have joins : (((new 300).mintWithTtl 100 "s" ∅ 300).authorize 399 "a" "s").1 = .ok (∅, .freshJoin) := by
    rw [authorize, holds_minted]
    rfl
  rw [successes_authorize, success_ok joins] at none
  exact absurd none (List.cons_ne_nil _ _)

end SmallGateway.JoinTokens
