import SmallGateway.CredentialExchange

/-!
The gateway that makes its exchanges with the mock STS. What a request has sent reaches the server at some time, and the
answer arrives later, or never, in any order among those of other requests. The credentials of every exchange carry the
tags that it was made for, no two exchanges share an access key, and a request fails for what was lost on the way alone
(`attribution_rides_credentials`).
-/

namespace SmallGateway.Aws

open Config (StsConfig BaseHop)

/-! ### Steps of the exchanges -/

namespace Exchanges

variable {parseRfc3339 : String → Except String Int} {s t : Exchanges} {event : Event}

/-- A request stays where it is, and all but its phase stays as it was. -/
theorem kept_moves (moves : Moves parseRfc3339 s event t) {i : Nat} {call : CredentialCall}
    (there : s.calls[i]? = some call) : ∃ phase, t.calls[i]? = some { call with phase } := by
  have found : (t.calls.map shape)[i]? = some (shape call) := by
    obtain ⟨rest, whole⟩ := shapes_moves moves
    have within := (List.getElem?_eq_some_iff.mp there).1
    rw [← whole, List.getElem?_append_left (by simpa using within), List.getElem?_map, there, Option.map_some]
  rw [List.getElem?_map] at found
  obtain ⟨later, own, same⟩ := Option.map_eq_some_iff.mp found
  have fields : { (shape later).1 with phase := later.phase } = { (shape call).1 with phase := later.phase } := by
    rw [same]
  exact ⟨later.phase, own.trans (congrArg some fields)⟩

/-- What does not depend on the phase of a request holds of all when it holds of those that come. -/
theorem forall_calls_moves {P : CredentialCall → Prop} (keeps : ∀ call phase, P call → P { call with phase })
    (all : ∀ call ∈ s.calls, P call) (moves : Moves parseRfc3339 s event t)
    (asks : ∀ sts roleArn sessionName sessionTags nowUnix phase,
      event = .ask sts roleArn sessionName sessionTags nowUnix →
        P ⟨sts, roleArn, sessionName, sessionTags, nowUnix, phase⟩) : ∀ call ∈ t.calls, P call := by
  have advanced {i : Nat} {call : CredentialCall} {phase : Phase} (there : s.calls[i]? = some call) :
      ∀ other ∈ s.calls.set i { call with phase }, P other := by
    intro other listed
    rcases List.mem_or_eq_of_mem_set listed with before | rfl
    · exact all other before
    · exact keeps call phase (all call (List.mem_of_getElem? there))
  cases moves with
  | asked sts roleArn sessionName sessionTags nowUnix =>
    intro call listed
    rcases List.mem_append.mp listed with before | new_
    · exact all call before
    · obtain rfl := List.mem_singleton.mp new_
      exact asks sts roleArn sessionName sessionTags nowUnix _ rfl
  | baseHit there waits hops found => exact advanced there
  | baseMiss there waits => exact advanced there
  | failed there waits => exact advanced there
  | baseMinted there waits hops answers => exact advanced there
  | minted there out answers => exact advanced there

/-- The base hop of a request is found or is to be exchanged. -/
theorem base_eq {i : Nat} (stepped : step parseRfc3339 s (.base i) = some t) :
    ∃ call phase, s.calls[i]? = some call ∧ (∀ error, phase ≠ .failed error) ∧ t = s.advance i call phase := by
  simp only [step] at stepped
  split at stepped
  · rename_i call hop found
    obtain ⟨there, -, -⟩ := at?_some found
    split at stepped
    · exact ⟨call, _, there, fun _ => Phase.noConfusion, (Option.some.inj stepped).symm⟩
    · exact ⟨call, _, there, fun _ => Phase.noConfusion, (Option.some.inj stepped).symm⟩
  · cases stepped

/-- A base hop that was answered is minted. -/
theorem token_eq {i : Nat} {token : String} {bytes : List UInt8} {creds : Credentials}
    (stepped : step parseRfc3339 s (.token i (.ok token) (.ok bytes)) = some t)
    (answers : answered parseRfc3339 "STS AssumeRoleWithWebIdentity" (.ok bytes) = .ok creds) :
    ∃ call hop, s.calls[i]? = some call ∧
      t = (s.mint (.base call.sts hop creds)).advance i call (.called (some creds)) := by
  simp only [step] at stepped
  split at stepped
  · rename_i call hop found
    obtain ⟨there, -, -⟩ := at?_some found
    simp only [Except.bind, answers] at stepped
    exact ⟨call, hop, there, (Option.some.inj stepped).symm⟩
  · cases stepped

/-- A request that was answered is served. -/
theorem reply_eq {i : Nat} {bytes : List UInt8} {creds : Credentials}
    (stepped : step parseRfc3339 s (.reply i (.ok bytes)) = some t)
    (answers : answered parseRfc3339 "STS" (.ok bytes) = .ok creds) :
    ∃ call signer, s.calls[i]? = some call ∧ t = (s.mint (.session call.sts call.roleArn call.sessionName
      call.sessionTags signer creds)).advance i call (.served creds false) := by
  simp only [step] at stepped
  split at stepped
  · rename_i call signer hop found
    obtain ⟨there, -, -⟩ := at?_some found
    simp only [answers] at stepped
    exact ⟨call, signer, there, (Option.some.inj stepped).symm⟩
  · cases stepped

/-- A request whose base hop or whose call is lost fails with what it was lost for. -/
theorem lost_eq {i : Nat} {error : String}
    (stepped : step parseRfc3339 s (.token i (.error error) (.error error)) = some t ∨
      step parseRfc3339 s (.reply i (.error error)) = some t) :
    ∃ call, s.calls[i]? = some call ∧ t = s.advance i call (.failed error) := by
  have none_ : answered parseRfc3339 "STS" (.error error) = .error error := rfl
  rcases stepped with stepped | stepped
  · simp only [step] at stepped
    split at stepped
    · rename_i call hop found
      obtain ⟨there, -, -⟩ := at?_some found
      simp only [Except.bind] at stepped
      exact ⟨call, there, (Option.some.inj stepped).symm⟩
    · cases stepped
  · simp only [step] at stepped
    split at stepped
    · rename_i call signer hop found
      obtain ⟨there, -, -⟩ := at?_some found
      simp only [none_] at stepped
      exact ⟨call, there, (Option.some.inj stepped).symm⟩
    · cases stepped

/-- No request fails by a step that has no error. -/
theorem unfailed_advance {i : Nat} {call : CredentialCall} {phase : Phase} {lost : List String}
    (all : ∀ call ∈ s.calls, ∀ error, call.phase = .failed error → error ∈ lost)
    (fine : ∀ error, phase = .failed error → error ∈ lost) :
    ∀ other ∈ (s.advance i call phase).calls, ∀ error, other.phase = .failed error → error ∈ lost := by
  intro other listed
  rcases List.mem_or_eq_of_mem_set listed with before | rfl
  · exact all other before
  · exact fine

end Exchanges

/-! ### The two together -/

/-- An answer on its way to a request: to its base hop, under the token that was sent, or to its own call. How many
    credentials had been issued with it is kept for the proofs only. -/
structure Answer where
  call : Nat
  token : Option String
  bytes : List UInt8
  number : Nat

/-- The step that the arrival of an answer is. -/
def Answer.event (answer : Answer) : Event :=
  match answer.token with
  | some token => .token answer.call (.ok token) (.ok answer.bytes)
  | none => .reply answer.call (.ok answer.bytes)

/-- The requests, the credentials issued so far, the answers on their way, and what was lost for which errors. -/
structure Traffic where
  exchanges : Exchanges
  issued : Nat
  answers : List Answer
  lost : List String

inductive Deed where
  /-- A request comes. -/
  | ask (sts : StsConfig) (roleArn sessionName : String) (sessionTags : List (String × String)) (nowUnix : Nat)
  /-- A request looks up its base hop. -/
  | base (i : Nat)
  /-- What a request sends, with the token and the region of its base hop, reaches the server at a time of its clock. -/
  | send (i : Nat) (token stsRegion : String) (nowUnix : Nat)
  /-- One of the answers arrives. -/
  | receive (k : Nat)
  /-- A call is lost, or its answer. -/
  | lose (i : Nat) (error : String)

/-- The body of the call of a base hop (`base_credentials_for`). -/
def hopBody (hop : BaseHop) (token : String) : String :=
  assumeRoleWithWebIdentityBody hop.roleArn hop.sessionName token (.ofNat baseHopDurationSecs)

namespace Traffic

variable (server : MockSts) (amzDate : Nat → String) (parseRfc3339 : String → Except String Int)

def new : Traffic := ⟨.new, 0, [], []⟩

/-- A step of the requests alone. -/
def within (t : Traffic) (event : Event) : Option Traffic :=
  (t.exchanges.step parseRfc3339 event).map fun exchanges => { t with exchanges }

/-- The server answers. -/
def sent (t : Traffic) (i : Nat) (token : Option String) (bytes : List UInt8) (nowUnix : Nat) : Traffic :=
  let (answer, issued) := server.handle bytes t.issued nowUnix
  { t with issued, answers := t.answers ++ [⟨i, token, answer, issued⟩] }

def step (t : Traffic) : Deed → Option Traffic
  | .ask sts roleArn sessionName sessionTags nowUnix =>
    t.within parseRfc3339 (.ask sts roleArn sessionName sessionTags nowUnix)
  | .base i => t.within parseRfc3339 (.base i)
  | .send i token stsRegion nowUnix =>
    match t.exchanges.at? i with
    | some (call, .token, some hop) =>
      some (t.sent server i (some token)
        (httpPostFormRequest call.sts.endpoint "/" (hopBody hop token) []) nowUnix)
    | some (call, .called signer, _) =>
      some (t.sent server i none (call.bytes server.hash amzDate stsRegion signer) nowUnix)
    | _ => none
  | .receive k =>
    t.answers[k]?.bind fun answer =>
      (t.within parseRfc3339 answer.event).map fun u => { u with answers := t.answers.eraseIdx k }
  | .lose i error =>
    let event := match (t.exchanges.calls[i]?).map (·.phase) with
      | some .token => Event.token i (.error error) (.error error)
      | _ => Event.reply i (.error error)
    (t.within parseRfc3339 event).map fun u => { u with lost := error :: u.lost }

/-! ### What has to be plain -/

/-- The text of a time can be written into an answer and read again. -/
def Dated (expirationUnix : Nat) : Prop :=
  '<' ∉ (server.rfc3339 expirationUnix).toList ∧
    parseRfc3339 (server.rfc3339 expirationUnix) = .ok expirationUnix

/-- A request can be written on the lines of a head, and it is signed where the server asks for it. -/
structure CallPlain (call : CredentialCall) : Prop where
  host : '\n' ∉ call.sts.endpoint.host.toList
  few : call.sessionTags.length < 2 ^ 64
  small : (Text.utf8Bytes call.body).length < 2 ^ 64
  date : (amzDate call.nowUnix).toList.all isDateChar = true
  long : 8 ≤ (amzDate call.nowUnix).toList.length
  signed : server.requireSignedChain = true → call.sts.base ≠ none

/-- What is sent for a request can be read, and what it is answered. -/
structure SendPlain (call : CredentialCall) (token stsRegion : String) (nowUnix : Nat) : Prop where
  filled : token ≠ ""
  region : '\n' ∉ stsRegion.toList ∧ ',' ∉ stsRegion.toList ∧ '/' ∉ stsRegion.toList
  small : ∀ hop, call.sts.base = some hop → (Text.utf8Bytes (hopBody hop token)).length < 2 ^ 64
  baseDate : call.sts.base ≠ none → Dated server parseRfc3339 (nowUnix + (UInt32.ofNat baseHopDurationSecs).toNat)
  date : Dated server parseRfc3339 (nowUnix + (UInt32.ofNat call.sts.durationSecs).toNat)

def Plain (t : Traffic) : Deed → Prop
  | .ask sts roleArn sessionName sessionTags nowUnix =>
    CallPlain server amzDate ⟨sts, roleArn, sessionName, sessionTags, nowUnix, .base⟩
  | .send i token stsRegion nowUnix =>
    ∀ call, t.exchanges.calls[i]? = some call → SendPlain server parseRfc3339 call token stsRegion nowUnix
  | _ => True

/-! ### Invariants -/

/-- The tags that the credentials of an answer carry. -/
def tagsOf (answer : Answer) (call : CredentialCall) : List (String × String) :=
  if answer.token.isSome then [] else call.sessionTags

/-- Whom an answer is for, in the texts of errors. -/
def whatOf (answer : Answer) : String := if answer.token.isSome then "STS AssumeRoleWithWebIdentity" else "STS"

/-- An answer gives the credentials of its number, with the tags of its request. -/
def AnswerSound (s : Exchanges) (answer : Answer) : Prop :=
  ∃ call expirationUnix, s.calls[answer.call]? = some call ∧
    answered parseRfc3339 (whatOf answer) (.ok answer.bytes) =
      .ok (server.mockCreds answer.number (tagsOf answer call) expirationUnix)

/-- The credentials of an exchange are those of a number, with the tags that it was made for. -/
def Carried (exchange : Exchange) : Prop :=
  ∃ n expirationUnix, exchange.creds = server.mockCreds n exchange.request.tags expirationUnix

def accessKeyOf (answer : Answer) : String := mockAccessKeyId answer.number

/-- The access keys of the exchanges, and those of the answers on their way. -/
def keys (t : Traffic) : List String :=
  t.exchanges.done.map (·.creds.accessKeyId) ++ t.answers.map accessKeyOf

structure Sound (t : Traffic) : Prop where
  exchanges : Exchanges.Sound parseRfc3339 t.exchanges
  plain : ∀ call ∈ t.exchanges.calls, CallPlain server amzDate call
  carried : ∀ exchange ∈ t.exchanges.done, Carried server exchange
  answers : ∀ answer ∈ t.answers, AnswerSound server parseRfc3339 t.exchanges answer
  distinct : t.keys.Nodup
  numbered : ∀ key ∈ t.keys, ∃ n ≤ t.issued, key = mockAccessKeyId n
  failed : ∀ call ∈ t.exchanges.calls, ∀ error, call.phase = .failed error → error ∈ t.lost

variable {server amzDate parseRfc3339} {t u : Traffic} {s : Exchanges} {event : Event} {answer : Answer}
  {call : CredentialCall}

theorem AnswerSound.moves (sound : AnswerSound server parseRfc3339 s answer) {later : Exchanges}
    (moves : Exchanges.Moves parseRfc3339 s event later) : AnswerSound server parseRfc3339 later answer := by
  obtain ⟨call, expirationUnix, there, answers⟩ := sound
  obtain ⟨phase, kept⟩ := Exchanges.kept_moves moves there
  exact ⟨_, expirationUnix, kept, answers⟩

theorem CallPlain.phase (plain : CallPlain server amzDate call) (phase : Phase) :
    CallPlain server amzDate { call with phase } :=
  ⟨plain.host, plain.few, plain.small, plain.date, plain.long, plain.signed⟩

/-- A step without an exchange keeps all. -/
theorem Sound.quiet (sound : Sound server amzDate parseRfc3339 t)
    (moves : Exchanges.Moves parseRfc3339 t.exchanges event s) (same : s.done = t.exchanges.done)
    (plain : ∀ call ∈ s.calls, CallPlain server amzDate call) {lost : List String}
    (failed : ∀ call ∈ s.calls, ∀ error, call.phase = .failed error → error ∈ lost) :
    Sound server amzDate parseRfc3339 { t with exchanges := s, lost } := by
  have keys_ : keys { t with exchanges := s, lost } = t.keys := by simp only [keys, same]
  refine ⟨sound.exchanges.moves moves, plain, ?_, fun answer listed => (sound.answers answer listed).moves moves, ?_,
    ?_, failed⟩
  · rw [same]
    exact sound.carried
  · rw [keys_]
    exact sound.distinct
  · rw [keys_]
    exact sound.numbered

/-- The server has issued the credentials of the next number. -/
theorem Sound.sent (sound : Sound server amzDate parseRfc3339 t) {i : Nat} (there : t.exchanges.calls[i]? = some call)
    {token : Option String} {bytes : List UInt8} {nowUnix expirationUnix : Nat} {action : String}
    (known : action ∈ ["AssumeRole", "AssumeRoleWithWebIdentity"]) {tags : List (String × String)}
    (dated : Dated server parseRfc3339 expirationUnix)
    (answers : server.handle bytes t.issued nowUnix =
      (MockSts.respond 200 (server.credentialsXml action (t.issued + 1) tags expirationUnix), t.issued + 1))
    (own : tags = if token.isSome then [] else call.sessionTags) :
    Sound server amzDate parseRfc3339 (t.sent server i token bytes nowUnix) := by
  have after : t.sent server i token bytes nowUnix = { t with
      issued := t.issued + 1
      answers := t.answers ++ [⟨i, token, MockSts.respond 200 (server.credentialsXml action (t.issued + 1) tags
        expirationUnix), t.issued + 1⟩] } := by
    simp only [Traffic.sent, answers]
  have keys_ : keys { t with
      issued := t.issued + 1
      answers := t.answers ++ [⟨i, token, MockSts.respond 200 (server.credentialsXml action (t.issued + 1) tags
        expirationUnix), t.issued + 1⟩] } = t.keys ++ [mockAccessKeyId (t.issued + 1)] := by
    simp only [keys, List.map_append, List.map_cons, List.map_nil, List.append_assoc, accessKeyOf]
  rw [after]
  refine ⟨sound.exchanges, sound.plain, sound.carried, fun answer listed => ?_, ?_, fun key listed => ?_, sound.failed⟩
  · rcases List.mem_append.mp listed with before | new_
    · exact sound.answers answer before
    · obtain rfl := List.mem_singleton.mp new_
      refine ⟨call, expirationUnix, there, ?_⟩
      rw [MockSts.answered_respond known (t.issued + 1) tags dated.1 dated.2]
      simp only [tagsOf, own]
  · rw [keys_]
    refine List.nodup_append.mpr ⟨sound.distinct, List.nodup_singleton _, ?_⟩
    intro key before other new_ same
    obtain ⟨n, small, number⟩ := sound.numbered key before
    have next := MockSts.mockAccessKeyId_injective (number.symm.trans (same.trans (List.mem_singleton.mp new_)))
    omega
  · rw [keys_] at listed
    rcases List.mem_append.mp listed with before | new_
    · obtain ⟨n, small, number⟩ := sound.numbered key before
      exact ⟨n, by show n ≤ t.issued + 1; omega, number⟩
    · exact ⟨t.issued + 1, Nat.le_refl _, List.mem_singleton.mp new_⟩

/-- An exchange is done with the answer that has arrived. -/
theorem Sound.minted (sound : Sound server amzDate parseRfc3339 t) {k : Nat} (found : t.answers[k]? = some answer)
    (moves : Exchanges.Moves parseRfc3339 t.exchanges event s) {exchange : Exchange}
    (grown : s.done = exchange :: t.exchanges.done) {expirationUnix : Nat}
    (creds : exchange.creds = server.mockCreds answer.number exchange.request.tags expirationUnix)
    (plain : ∀ call ∈ s.calls, CallPlain server amzDate call)
    (failed : ∀ call ∈ s.calls, ∀ error, call.phase = .failed error → error ∈ t.lost) :
    Sound server amzDate parseRfc3339 { t with exchanges := s, answers := t.answers.eraseIdx k } := by
  have key : exchange.creds.accessKeyId = accessKeyOf answer := congrArg Credentials.accessKeyId creds
  obtain ⟨within, own⟩ := List.getElem?_eq_some_iff.mp found
  have taken : (answer :: t.answers.eraseIdx k).Perm t.answers := by
    rw [← own]
    exact List.getElem_cons_eraseIdx_perm within
  have mapped : (accessKeyOf answer :: (t.answers.eraseIdx k).map accessKeyOf).Perm (t.answers.map accessKeyOf) :=
    taken.map accessKeyOf
  have moved : (keys { t with exchanges := s, answers := t.answers.eraseIdx k }).Perm t.keys := by
    rw [keys, keys, grown, List.map_cons, key, List.cons_append]
    exact List.perm_middle.symm.trans (mapped.append_left _)
  refine ⟨sound.exchanges.moves moves, plain, ?_, fun other listed => ?_, moved.nodup_iff.mpr sound.distinct,
    fun other listed => sound.numbered other (moved.subset listed), failed⟩
  · rw [grown]
    exact List.forall_mem_cons.mpr ⟨⟨_, _, creds⟩, sound.carried⟩
  · exact (sound.answers other (List.mem_of_mem_eraseIdx listed)).moves moves

theorem looked_ne_failed (sts : StsConfig) (found : Option Credentials) (error : String) :
    Exchanges.looked sts found ≠ .failed error := by
  unfold Exchanges.looked
  cases found with
  | some creds => exact Phase.noConfusion
  | none => cases sts.base <;> exact Phase.noConfusion

/-- The credentials of the server sign a call that can be read. -/
theorem CallPlain.signable (plain : CallPlain server amzDate call) {stsRegion : String}
    (region : '\n' ∉ stsRegion.toList ∧ ',' ∉ stsRegion.toList ∧ '/' ∉ stsRegion.toList) (n : Nat)
    (tags : List (String × String)) (expirationUnix : Nat) :
    Signable amzDate call.sts.endpoint stsRegion (server.mockCreds n tags expirationUnix) call.nowUnix where
  host := plain.host
  region := region
  accessKeyId := ⟨MockSts.not_mem_mockAccessKeyId (by decide) (by decide) n,
    MockSts.not_mem_mockAccessKeyId (by decide) (by decide) n,
    MockSts.not_mem_mockAccessKeyId (by decide) (by decide) n⟩
  sessionToken := MockSts.not_mem_sessionToken (by decide) _ _
  date := plain.date
  long := plain.long

/-- The call of a request is answered with credentials that carry its tags. -/
theorem Sound.handles (sound : Sound server amzDate parseRfc3339 t) (listed : call ∈ t.exchanges.calls)
    {signer : Option Credentials} (out : call.phase = .called signer) {stsRegion : String}
    (region : '\n' ∉ stsRegion.toList ∧ ',' ∉ stsRegion.toList ∧ '/' ∉ stsRegion.toList) (nowUnix : Nat) :
    server.handle (call.bytes server.hash amzDate stsRegion signer) t.issued nowUnix =
      (MockSts.respond 200 (server.credentialsXml "AssumeRole" (t.issued + 1) call.sessionTags
        (nowUnix + (UInt32.ofNat call.sts.durationSecs).toNat)), t.issued + 1) := by
  have plain := sound.plain call listed
  have behind := sound.exchanges.calls call listed
  rw [Exchanges.CallSound, out] at behind
  cases signer with
  | none =>
    have reads := MockSts.readRequest_unsigned plain.host plain.small
    exact MockSts.handle_assumeRole plain.few reads fun required => absurd behind (plain.signed required)
  | some creds =>
    obtain ⟨hop, hops, minted⟩ := behind
    obtain ⟨exchange, among, entry⟩ := List.mem_map.mp minted
    obtain ⟨n, expirationUnix, issued⟩ := sound.carried exchange among
    obtain rfl : creds = server.mockCreds n exchange.request.tags expirationUnix :=
      (Prod.mk.inj entry).2.symm.trans issued
    have signable := plain.signable region n exchange.request.tags expirationUnix
    have reads := @readRequest_chained server.hash amzDate call.sts.endpoint stsRegion _ call.body call.nowUnix signable
      plain.small
    exact MockSts.handle_assumeRole plain.few reads fun _ => (verifyChainSignature_iff signable _).mpr ⟨rfl, rfl⟩

/-- What is plain of the requests stays so when those that come are plain. -/
theorem plain_moves (plain : ∀ call ∈ t.exchanges.calls, CallPlain server amzDate call)
    (moves : Exchanges.Moves parseRfc3339 t.exchanges event s)
    (asks : ∀ sts roleArn sessionName sessionTags nowUnix phase,
      event = .ask sts roleArn sessionName sessionTags nowUnix →
        CallPlain server amzDate ⟨sts, roleArn, sessionName, sessionTags, nowUnix, phase⟩) :
    ∀ call ∈ s.calls, CallPlain server amzDate call :=
  Exchanges.forall_calls_moves (fun _ phase own => CallPlain.phase own phase) plain moves asks

theorem Sound.receives (sound : Sound server amzDate parseRfc3339 t) {k : Nat} (found : t.answers[k]? = some answer)
    (executed : t.exchanges.step parseRfc3339 answer.event = some s) :
    Sound server amzDate parseRfc3339 { t with exchanges := s, answers := t.answers.eraseIdx k } := by
  obtain ⟨call, expirationUnix, there, answers⟩ := sound.answers answer (List.mem_of_getElem? found)
  have moves := Exchanges.moves_of_step executed
  cases token : answer.token with
  | none =>
    have event : answer.event = .reply answer.call (.ok answer.bytes) := by rw [Answer.event, token]
    simp only [whatOf, tagsOf, token, Option.isSome_none, Bool.false_eq_true, if_false] at answers
    rw [event] at executed moves
    obtain ⟨own, signer, thereToo, rfl⟩ := Exchanges.reply_eq executed answers
    obtain rfl : call = own := Option.some.inj (there.symm.trans thereToo)
    have plain := plain_moves sound.plain moves
      fun _ _ _ _ _ _ other => Event.noConfusion other
    have creds : (Exchange.session call.sts call.roleArn call.sessionName call.sessionTags signer
        (server.mockCreds answer.number call.sessionTags expirationUnix)).creds = server.mockCreds answer.number
          call.sessionTags expirationUnix := rfl
    exact sound.minted found moves rfl creds plain
      (Exchanges.unfailed_advance sound.failed fun _ other => Phase.noConfusion other)
  | some token_ =>
    have event : answer.event = .token answer.call (.ok token_) (.ok answer.bytes) := by rw [Answer.event, token]
    simp only [whatOf, tagsOf, token, Option.isSome_some, if_true] at answers
    rw [event] at executed moves
    obtain ⟨own, hop, thereToo, rfl⟩ := Exchanges.token_eq executed answers
    have plain := plain_moves sound.plain moves
      fun _ _ _ _ _ _ other => Event.noConfusion other
    have creds : (Exchange.base own.sts hop (server.mockCreds answer.number [] expirationUnix)).creds =
        server.mockCreds answer.number [] expirationUnix := rfl
    exact sound.minted found moves rfl creds plain
      (Exchanges.unfailed_advance sound.failed fun _ other => Phase.noConfusion other)

theorem Sound.step (sound : Sound server amzDate parseRfc3339 t) {deed : Deed}
    (plain : Plain server amzDate parseRfc3339 t deed)
    (stepped : Traffic.step server amzDate parseRfc3339 t deed = some u) : Sound server amzDate parseRfc3339 u := by
  cases deed with
  | ask sts roleArn sessionName sessionTags nowUnix =>
    simp only [Traffic.step, within] at stepped
    obtain ⟨s, asked, rfl⟩ := Option.map_eq_some_iff.mp stepped
    have moves := Exchanges.moves_of_step asked
    obtain rfl := Option.some.inj asked
    refine sound.quiet moves rfl (plain_moves sound.plain moves ?_) fun call listed => ?_
    · intro _ _ _ _ _ phase same
      cases same
      exact CallPlain.phase plain phase
    · rcases List.mem_append.mp listed with before | new_
      · exact sound.failed call before
      · obtain rfl := List.mem_singleton.mp new_
        exact fun error fails => absurd fails (looked_ne_failed _ _ error)
  | base i =>
    simp only [Traffic.step, within] at stepped
    obtain ⟨s, based, rfl⟩ := Option.map_eq_some_iff.mp stepped
    have moves := Exchanges.moves_of_step based
    obtain ⟨call, phase, there, fine, rfl⟩ := Exchanges.base_eq based
    exact sound.quiet moves rfl (plain_moves sound.plain moves fun _ _ _ _ _ _ other => Event.noConfusion other)
        (Exchanges.unfailed_advance sound.failed fun error fails => absurd fails (fine error))
  | send i token stsRegion nowUnix =>
    simp only [Traffic.step] at stepped
    split at stepped
    · rename_i call hop found
      obtain ⟨there, -, hops⟩ := Exchanges.at?_some found
      obtain rfl := Option.some.inj stepped
      have sends := plain call there
      have own := sound.plain call (List.mem_of_getElem? there)
      have reads := MockSts.readRequest_unsigned own.host (sends.small hop hops)
      have answers := @MockSts.handle_webIdentity server _ _ hop.roleArn hop.sessionName (.ofNat baseHopDurationSecs)
        t.issued nowUnix token reads
      rw [if_neg sends.filled] at answers
      have based : call.sts.base ≠ none := by
        rw [hops]
        exact Option.some_ne_none hop
      exact sound.sent there (by decide) (sends.baseDate based) answers rfl
    · rename_i call signer hop found
      obtain ⟨there, out, -⟩ := Exchanges.at?_some found
      obtain rfl := Option.some.inj stepped
      have sends := plain call there
      have answers := sound.handles (List.mem_of_getElem? there) out sends.region nowUnix
      exact sound.sent there (by decide) sends.date answers rfl
    · cases stepped
  | receive k =>
    simp only [Traffic.step, within] at stepped
    obtain ⟨answer, found, arrived⟩ := Option.bind_eq_some_iff.mp stepped
    obtain ⟨v, moved, rfl⟩ := Option.map_eq_some_iff.mp arrived
    obtain ⟨s, executed, rfl⟩ := Option.map_eq_some_iff.mp moved
    exact sound.receives found executed
  | lose i error =>
    simp only [Traffic.step, within] at stepped
    obtain ⟨v, moved, rfl⟩ := Option.map_eq_some_iff.mp stepped
    obtain ⟨s, executed, rfl⟩ := Option.map_eq_some_iff.mp moved
    have moves := Exchanges.moves_of_step executed
    obtain ⟨call, there, rfl⟩ : ∃ call, t.exchanges.calls[i]? = some call ∧
        s = t.exchanges.advance i call (.failed error) := by
      revert executed
      split
      · exact fun lost => Exchanges.lost_eq (.inl lost)
      · exact fun lost => Exchanges.lost_eq (.inr lost)
    refine sound.quiet moves rfl (plain_moves sound.plain moves ?_) ?_
    · intro _ _ _ _ _ _ other
      split at other <;> cases other
    · refine Exchanges.unfailed_advance (fun call listed other fails => ?_) fun other fails => ?_
      · exact List.mem_cons_of_mem _ (sound.failed call listed other fails)
      · obtain rfl := Phase.failed.inj fails
        exact List.mem_cons_self

theorem sound_new : Sound server amzDate parseRfc3339 new :=
  ⟨Exchanges.sound_new, List.forall_mem_nil _, List.forall_mem_nil _, List.forall_mem_nil _, List.nodup_nil,
    List.forall_mem_nil _, List.forall_mem_nil _⟩

theorem sound_run {deeds : List Deed} (plain : Runs.Along (Traffic.step server amzDate parseRfc3339)
      (Plain server amzDate parseRfc3339) new deeds)
    (ran : Runs.exec (Traffic.step server amzDate parseRfc3339) new deeds = some t) :
    Sound server amzDate parseRfc3339 t :=
  Runs.exec_preserves_along (fun _ _ _ sound plain stepped => sound.step plain stepped) sound_new plain ran

end Traffic

namespace Traffic

variable {server : MockSts} {amzDate : Nat → String} {parseRfc3339 : String → Except String Int} {sts : StsConfig}
  {roleArn sessionName token stsRegion : String} {sessionTags : List (String × String)} {nowUnix laterUnix : Nat}

/-- The first request of all, its answer, and the arrival of it. -/
def firstDeeds (sts : StsConfig) (roleArn sessionName : String) (sessionTags : List (String × String)) (nowUnix : Nat)
    (token stsRegion : String) (laterUnix : Nat) : List Deed :=
  [.ask sts roleArn sessionName sessionTags nowUnix, .send 0 token stsRegion laterUnix, .receive 0]

/-- The first request of all is served, where no call has to be signed. -/
theorem first_executed (plain : CallPlain server amzDate ⟨sts, roleArn, sessionName, sessionTags, nowUnix, .base⟩)
    (direct : sts.base = none) (sends : SendPlain server parseRfc3339
      ⟨sts, roleArn, sessionName, sessionTags, nowUnix, .called none⟩ token stsRegion laterUnix) :
    Runs.Along (Traffic.step server amzDate parseRfc3339) (Plain server amzDate parseRfc3339) new
        (firstDeeds sts roleArn sessionName sessionTags nowUnix token stsRegion laterUnix) ∧
      Runs.exec (Traffic.step server amzDate parseRfc3339) new
          (firstDeeds sts roleArn sessionName sessionTags nowUnix token stsRegion laterUnix) =
        some ⟨Exchanges.afterFirst sts roleArn sessionName sessionTags nowUnix (server.mockCreds 1 sessionTags
          (laterUnix + (UInt32.ofNat sts.durationSecs).toNat)), 1, [], []⟩ := by
  have missed : Exchanges.new.cache.get (credentialsFor sts roleArn sessionName sessionTags).cacheKey nowUnix =
      none := by
    simp [Exchanges.new, CredentialCache.get, CredentialCache.new]
  have asked : Traffic.step server amzDate parseRfc3339 new (.ask sts roleArn sessionName sessionTags nowUnix) =
      some ⟨⟨.new, [⟨sts, roleArn, sessionName, sessionTags, nowUnix, .called none⟩], []⟩, 0, [], []⟩ := by
    simp only [Traffic.step, within, new, Exchanges.step, missed, Exchanges.looked, direct]
    rfl
  have reads := MockSts.readRequest_unsigned plain.host plain.small
  have handled : server.handle (httpPostFormRequest sts.endpoint "/" (CredentialCall.body ⟨sts, roleArn, sessionName,
      sessionTags, nowUnix, .called none⟩) []) 0 laterUnix = (MockSts.respond 200 (server.credentialsXml "AssumeRole" 1
        sessionTags (laterUnix + (UInt32.ofNat sts.durationSecs).toNat)), 1) :=
    MockSts.handle_assumeRole plain.few reads fun required => absurd direct (plain.signed required)
  have sent : Traffic.step server amzDate parseRfc3339
      ⟨⟨.new, [⟨sts, roleArn, sessionName, sessionTags, nowUnix, .called none⟩], []⟩, 0, [], []⟩
        (.send 0 token stsRegion laterUnix) =
      some ⟨⟨.new, [⟨sts, roleArn, sessionName, sessionTags, nowUnix, .called none⟩], []⟩, 1,
        [⟨0, none, MockSts.respond 200 (server.credentialsXml "AssumeRole" 1 sessionTags
          (laterUnix + (UInt32.ofNat sts.durationSecs).toNat)), 1⟩], []⟩ := by
    simp only [Traffic.step, Exchanges.at?, List.getElem?_cons_zero, Option.map_some, Traffic.sent,
      CredentialCall.bytes, handled, List.nil_append]
  have answers := @MockSts.answered_respond server parseRfc3339 "AssumeRole" _ (by decide) 1 sessionTags sends.date.1
    sends.date.2 "STS"
  have received : Traffic.step server amzDate parseRfc3339
      ⟨⟨.new, [⟨sts, roleArn, sessionName, sessionTags, nowUnix, .called none⟩], []⟩, 1,
        [⟨0, none, MockSts.respond 200 (server.credentialsXml "AssumeRole" 1 sessionTags
          (laterUnix + (UInt32.ofNat sts.durationSecs).toNat)), 1⟩], []⟩ (.receive 0) =
      some ⟨Exchanges.afterFirst sts roleArn sessionName sessionTags nowUnix (server.mockCreds 1 sessionTags
        (laterUnix + (UInt32.ofNat sts.durationSecs).toNat)), 1, [], []⟩ := by
    simp only [Traffic.step, within, Answer.event, Exchanges.step, Exchanges.at?, List.getElem?_cons_zero,
      Option.map_some, Option.bind_some, answers]
    rfl
  refine ⟨⟨plain, fun t first => ⟨?_, fun u second => ⟨trivial, fun _ _ => trivial⟩⟩⟩, ?_⟩
  · obtain rfl := Option.some.inj (asked.symm.trans first)
    intro call there
    obtain rfl := Option.some.inj there
    exact sends
  · exact Runs.exec_cons.mpr ⟨_, asked, Runs.exec_cons.mpr ⟨_, sent, Runs.exec_cons.mpr ⟨_, received, Runs.exec_nil _⟩⟩⟩

end Traffic

/-- A server that does not ask for signatures. -/
def openMock : MockSts := { plainMock with requireSignedChain := false }

/-- The tagged request can be written whenever it comes. -/
theorem taggedCall_plain (nowUnix : Nat) : Traffic.CallPlain openMock (fun _ => "20010909T014640Z")
    ⟨taggedSts, "arn:aws:iam::1:role/ml", "gw", [("team", "ml=x")], nowUnix, .base⟩ := by
  have now : Traffic.CallPlain openMock (fun _ => "20010909T014640Z")
      ⟨taggedSts, "arn:aws:iam::1:role/ml", "gw", [("team", "ml=x")], 1000000000, .base⟩ :=
    { host := by decide, few := by decide, small := by decide +kernel, date := by decide, long := by decide,
      signed := fun required => Bool.noConfusion required }
  exact ⟨now.host, now.few, now.small, now.date, now.long, now.signed⟩

/-- What is sent for the tagged request is read. -/
theorem taggedCall_sends : Traffic.SendPlain openMock plainDate
    ⟨taggedSts, "arn:aws:iam::1:role/ml", "gw", [("team", "ml=x")], 1000000000, .called none⟩ "jwt" "us-east-1"
      1000000000 := by
  have dated (n : Nat) (same : n = 1000000900) : Traffic.Dated openMock plainDate n := by
    subst same
    exact ⟨by decide, rfl⟩
  exact
    { filled := by decide, region := by decide, small := fun hop hops => absurd hops (by simp [taggedSts]),
      baseDate := fun based => absurd rfl based, date := dated _ (by decide) }

end SmallGateway.Aws
