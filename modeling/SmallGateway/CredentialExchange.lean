import SmallGateway.Lib.ExpiringCache
import SmallGateway.Lib.Runs
import SmallGateway.MockSts

/-!
The exchange of attribution for credentials (`credentials_for`, `assume_role` and `base_credentials_for` in
`gatewayd/src/aws_auth.rs`), for requests that share one cache and take their steps in any order. A request that is
served has what an exchange of its own key was answered (`served_by_exchange`), it makes an exchange exactly when what
the last exchange of its key was answered is at its end (`cached_iff_lasting`), and no call that a base hop signs is
refused (`chained_calls_accepted`). The answers of the service and the texts of dates are parameters.
-/

namespace SmallGateway.Aws

open Config (StsConfig BaseHop)

section

variable (parseRfc3339 : String → Except String Int)

/-! ### Requests -/

/-- Where a request is: before its base hop, waiting for the answer to the token of its base hop, waiting for the answer
    to its own call, or done. -/
inductive Phase where
  | base
  | token
  | called (signer : Option Credentials)
  | served (creds : Credentials) (cached : Bool)
  | failed (error : String)

/-- The request was served without an exchange. -/
def Phase.cached : Phase → Bool
  | .served _ cached => cached
  | _ => false

/-- A request for credentials, its role and tags resolved. -/
structure CredentialCall where
  sts : StsConfig
  roleArn : String
  sessionName : String
  sessionTags : List (String × String)
  nowUnix : Nat
  phase : Phase

namespace CredentialCall

def request (call : CredentialCall) : CredentialRequest :=
  credentialsFor call.sts call.roleArn call.sessionName call.sessionTags

def body (call : CredentialCall) : String :=
  assumeRoleBody call.roleArn call.sessionName (.ofNat call.sts.durationSecs) call.sessionTags

/-- The bytes of the call of a request, signed by what its base hop has given (`assume_role`). -/
def bytes (hash : SignatureHash) (amzDate : Nat → String) (stsRegion : String) (call : CredentialCall) :
    Option Credentials → List UInt8
  | none => httpPostFormRequest call.sts.endpoint "/" call.body []
  | some creds => chainedCall hash amzDate call.sts.endpoint stsRegion creds call.body call.nowUnix

end CredentialCall

/-- An exchange that was answered with credentials: of a base hop, or of a request, under the credentials that signed
    it. -/
inductive Exchange where
  | base (sts : StsConfig) (hop : BaseHop) (creds : Credentials)
  | session (sts : StsConfig) (roleArn sessionName : String) (sessionTags : List (String × String))
      (signer : Option Credentials) (creds : Credentials)

namespace Exchange

def request : Exchange → CredentialRequest
  | .base sts hop _ => baseCredentialsFor sts hop
  | .session sts roleArn sessionName sessionTags _ _ => credentialsFor sts roleArn sessionName sessionTags

def creds : Exchange → Credentials
  | .base _ _ creds => creds
  | .session _ _ _ _ _ creds => creds

/-- What an exchange puts into the cache. -/
def entry (exchange : Exchange) : String × Credentials := (exchange.request.cacheKey, exchange.creds)

end Exchange

/-- The cache, the requests in the order in which they have come, and the exchanges so far, the newest first. The code
    keeps the cache only. -/
structure Exchanges where
  cache : CredentialCache
  calls : List CredentialCall
  done : List Exchange

inductive Event where
  /-- A request comes, and looks up its key. -/
  | ask (sts : StsConfig) (roleArn sessionName : String) (sessionTags : List (String × String)) (nowUnix : Nat)
  /-- A request looks up the key of its base hop. -/
  | base (i : Nat)
  /-- The token of a base hop has been read and exchanged. -/
  | token (i : Nat) (token : Except String String) (reply : Reply)
  /-- The call of a request has been answered. -/
  | reply (i : Nat) (reply : Reply)

namespace Exchanges

def new : Exchanges := ⟨.new, [], []⟩

/-- A request in its next phase. -/
def advance (s : Exchanges) (i : Nat) (call : CredentialCall) (phase : Phase) : Exchanges :=
  { s with calls := s.calls.set i { call with phase } }

/-- An exchange is done. -/
def mint (s : Exchanges) (exchange : Exchange) : Exchanges :=
  { s with cache := s.cache.put exchange.request.cacheKey exchange.creds, done := exchange :: s.done }

/-- The phase of a request that has looked up its key. -/
def looked (sts : StsConfig) (found : Option Credentials) : Phase :=
  match found, sts.base with
  | some creds, _ => .served creds true
  | none, none => .called none
  | none, some _ => .base

/-- The request that a step is about. -/
def at? (s : Exchanges) (i : Nat) : Option (CredentialCall × Phase × Option BaseHop) :=
  s.calls[i]?.map fun call => (call, call.phase, call.sts.base)

def step (s : Exchanges) : Event → Option Exchanges
  | .ask sts roleArn sessionName sessionTags nowUnix =>
    let found := s.cache.get (credentialsFor sts roleArn sessionName sessionTags).cacheKey nowUnix
    some { s with calls := s.calls ++ [⟨sts, roleArn, sessionName, sessionTags, nowUnix, looked sts found⟩] }
  | .base i =>
    match s.at? i with
    | some (call, .base, some base) =>
      match s.cache.get (baseCredentialsFor call.sts base).cacheKey call.nowUnix with
      | some creds => some (s.advance i call (.called (some creds)))
      | none => some (s.advance i call .token)
    | _ => none
  | .token i token reply =>
    match s.at? i with
    | some (call, .token, some base) =>
      match token.bind fun _ => answered parseRfc3339 "STS AssumeRoleWithWebIdentity" reply with
      | .error e => some (s.advance i call (.failed e))
      | .ok creds => some ((s.mint (.base call.sts base creds)).advance i call (.called (some creds)))
    | _ => none
  | .reply i reply =>
    match s.at? i with
    | some (call, .called signer, _) =>
      match answered parseRfc3339 "STS" reply with
      | .error e => some (s.advance i call (.failed e))
      | .ok creds =>
        some ((s.mint (.session call.sts call.roleArn call.sessionName call.sessionTags signer creds)).advance i call
          (.served creds false))
    | _ => none

/-! ### What a step can do -/

/-- The moves of the exchanges. -/
inductive Moves (s : Exchanges) : Event → Exchanges → Prop where
  | asked (sts : StsConfig) (roleArn sessionName : String) (sessionTags : List (String × String)) (nowUnix : Nat) :
    Moves s (.ask sts roleArn sessionName sessionTags nowUnix)
      { s with calls := s.calls ++ [⟨sts, roleArn, sessionName, sessionTags, nowUnix,
        looked sts (s.cache.get (credentialsFor sts roleArn sessionName sessionTags).cacheKey nowUnix)⟩] }
  | baseHit {i : Nat} {call : CredentialCall} {hop : BaseHop} {creds : Credentials} (there : s.calls[i]? = some call)
    (waits : call.phase.cached = false) (hops : call.sts.base = some hop)
    (found : s.cache.get (baseCredentialsFor call.sts hop).cacheKey call.nowUnix = some creds) :
    Moves s (.base i) (s.advance i call (.called (some creds)))
  | baseMiss {i : Nat} {call : CredentialCall} (there : s.calls[i]? = some call) (waits : call.phase.cached = false) :
    Moves s (.base i) (s.advance i call .token)
  | failed {event : Event} {i : Nat} {call : CredentialCall} {error : String} (there : s.calls[i]? = some call)
    (waits : call.phase.cached = false) : Moves s event (s.advance i call (.failed error))
  | baseMinted {i : Nat} {call : CredentialCall} {hop : BaseHop} {creds : Credentials} {token : Except String String}
    {reply : Reply} (there : s.calls[i]? = some call) (waits : call.phase.cached = false)
    (hops : call.sts.base = some hop)
    (answers : answered parseRfc3339 "STS AssumeRoleWithWebIdentity" reply = .ok creds) :
    Moves s (.token i token reply) ((s.mint (.base call.sts hop creds)).advance i call (.called (some creds)))
  | minted {i : Nat} {call : CredentialCall} {signer : Option Credentials} {creds : Credentials} {reply : Reply}
    (there : s.calls[i]? = some call) (out : call.phase = .called signer)
    (answers : answered parseRfc3339 "STS" reply = .ok creds) :
    Moves s (.reply i reply) ((s.mint (.session call.sts call.roleArn call.sessionName call.sessionTags signer
      creds)).advance i call (.served creds false))

variable {parseRfc3339}
variable {s t : Exchanges} {event : Event}

theorem at?_some {i : Nat} {call : CredentialCall} {phase : Phase} {hop : Option BaseHop}
    (found : s.at? i = some (call, phase, hop)) :
    s.calls[i]? = some call ∧ call.phase = phase ∧ call.sts.base = hop := by
  obtain ⟨own, there, same⟩ := Option.map_eq_some_iff.mp found
  obtain ⟨rfl, rfl, rfl⟩ : own = call ∧ own.phase = phase ∧ own.sts.base = hop := by
    simpa only [Prod.mk.injEq] using same
  exact ⟨there, rfl, rfl⟩

theorem moves_of_step (stepped : step parseRfc3339 s event = some t) : Moves parseRfc3339 s event t := by
  cases event with
  | ask sts roleArn sessionName sessionTags nowUnix =>
    obtain rfl := Option.some.inj stepped
    exact .asked sts roleArn sessionName sessionTags nowUnix
  | base i =>
    simp only [step] at stepped
    split at stepped
    · rename_i call hop found
      obtain ⟨there, phase, hops⟩ := at?_some found
      have waits : call.phase.cached = false := by rw [phase]; rfl
      split at stepped
      · rename_i creds cached
        obtain rfl := Option.some.inj stepped
        exact .baseHit there waits hops cached
      · obtain rfl := Option.some.inj stepped
        exact .baseMiss there waits
    · cases stepped
  | token i token reply =>
    simp only [step] at stepped
    split at stepped
    · rename_i call hop found
      obtain ⟨there, phase, hops⟩ := at?_some found
      have waits : call.phase.cached = false := by rw [phase]; rfl
      split at stepped
      · obtain rfl := Option.some.inj stepped
        exact .failed there waits
      · rename_i creds minted
        obtain rfl := Option.some.inj stepped
        obtain ⟨read, -, answers⟩ := Fallible.bind_ok.mp minted
        exact .baseMinted there waits hops answers
    · cases stepped
  | reply i reply =>
    simp only [step] at stepped
    split at stepped
    · rename_i call signer hop found
      obtain ⟨there, out, -⟩ := at?_some found
      have waits : call.phase.cached = false := by rw [out]; rfl
      split at stepped
      · obtain rfl := Option.some.inj stepped
        exact .failed there waits
      · rename_i creds answers
        obtain rfl := Option.some.inj stepped
        exact .minted there out answers
    · cases stepped

/-! ### Invariants -/

/-- The credentials that sign a call are those of an exchange of the key of its base hop, and there are none without
    one. -/
def SignedBy (done : List Exchange) (sts : StsConfig) : Option Credentials → Prop
  | none => sts.base = none
  | some creds => ∃ hop, sts.base = some hop ∧ ((baseCredentialsFor sts hop).cacheKey, creds) ∈ done.map Exchange.entry

/-- What stands behind the phase of a request. -/
def CallSound (done : List Exchange) (call : CredentialCall) : Prop :=
  match call.phase with
  | .called signer => SignedBy done call.sts signer
  | .served creds true => (call.request.cacheKey, creds) ∈ done.map Exchange.entry ∧
      call.nowUnix + refreshMarginSecs < creds.expirationUnix
  | .served creds false => ∃ signer,
      .session call.sts call.roleArn call.sessionName call.sessionTags signer creds ∈ done
  | _ => True

variable (parseRfc3339) in
/-- What stands behind an exchange: the credentials that have signed it, and the answer that it had. -/
def ExchangeSound (done : List Exchange) : Exchange → Prop
  | .base _ _ creds => ∃ reply, answered parseRfc3339 "STS AssumeRoleWithWebIdentity" reply = .ok creds
  | .session sts _ _ _ signer creds => SignedBy done sts signer ∧ ∃ reply, answered parseRfc3339 "STS" reply = .ok creds

/-- The exchange is one that the request makes, for itself or for its base hop. -/
def MadeBy (exchange : Exchange) (call : CredentialCall) : Prop :=
  exchange.request = call.request ∨ ∃ hop, call.sts.base = some hop ∧ exchange.request = baseCredentialsFor call.sts hop

variable (parseRfc3339) in
structure Sound (s : Exchanges) : Prop where
  held : ExpiringCache.Holds s.cache.inner (s.done.map Exchange.entry)
  calls : ∀ call ∈ s.calls, CallSound s.done call
  done : ∀ exchange ∈ s.done, ExchangeSound parseRfc3339 s.done exchange
  made : ∀ exchange ∈ s.done, ∃ call ∈ s.calls, MadeBy exchange call

variable {done more : List Exchange} {call : CredentialCall} {exchange : Exchange}

theorem SignedBy.mono {sts : StsConfig} {signer : Option Credentials} (grows : done ⊆ more)
    (signed : SignedBy done sts signer) : SignedBy more sts signer := by
  cases signer with
  | none => exact signed
  | some creds =>
    obtain ⟨hop, hops, minted⟩ := signed
    exact ⟨hop, hops, List.map_subset _ grows minted⟩

theorem CallSound.mono (grows : done ⊆ more) (sound : CallSound done call) : CallSound more call := by
  unfold CallSound at sound ⊢
  split at sound
  · exact sound.mono grows
  · exact ⟨List.map_subset _ grows sound.1, sound.2⟩
  · obtain ⟨signer, listed⟩ := sound
    exact ⟨signer, grows listed⟩
  · trivial

theorem ExchangeSound.mono (grows : done ⊆ more) (sound : ExchangeSound parseRfc3339 done exchange) :
    ExchangeSound parseRfc3339 more exchange := by
  cases exchange with
  | base sts hop creds => exact sound
  | session sts roleArn sessionName sessionTags signer creds => exact ⟨sound.1.mono grows, sound.2⟩

/-- A request advances to a phase behind which stands what has to. -/
theorem Sound.advance {i : Nat} {phase : Phase} (sound : Sound parseRfc3339 s) (there : s.calls[i]? = some call)
    (now : CallSound s.done { call with phase }) : Sound parseRfc3339 (s.advance i call phase) := by
  refine ⟨sound.held, fun other listed => ?_, sound.done, fun exchange listed => ?_⟩
  · rcases List.mem_or_eq_of_mem_set listed with before | rfl
    · exact sound.calls other before
    · exact now
  · obtain ⟨maker, among, made⟩ := sound.made exchange listed
    obtain ⟨j, inside, own⟩ := List.mem_iff_getElem.mp among
    obtain ⟨within, same⟩ := List.getElem?_eq_some_iff.mp there
    by_cases here : i = j
    · -- The request that advances stays the same request.
      subst here
      have maker_ : maker = call := own.symm.trans same
      exact ⟨{ call with phase }, List.mem_set within _, maker_ ▸ made⟩
    · refine ⟨maker, List.mem_iff_getElem.mpr ⟨j, by simpa [Exchanges.advance] using inside, ?_⟩, made⟩
      simp only [Exchanges.advance]
      rw [List.getElem_set_ne here, own]

/-- An exchange is done that a request makes, with an answer, under credentials that have been minted. -/
theorem Sound.mint (sound : Sound parseRfc3339 s) (behind : ExchangeSound parseRfc3339 s.done exchange)
    (maker : ∃ call ∈ s.calls, MadeBy exchange call) : Sound parseRfc3339 (s.mint exchange) := by
  have grows : s.done ⊆ exchange :: s.done := List.subset_cons_self _ _
  refine ⟨sound.held.insert _ _, fun call listed => (sound.calls call listed).mono grows, fun other listed => ?_,
    fun other listed => ?_⟩
  · rcases List.mem_cons.mp listed with rfl | before
    · exact behind.mono grows
    · exact (sound.done other before).mono grows
  · rcases List.mem_cons.mp listed with rfl | before
    · exact maker
    · exact sound.made other before

/-- What a lookup in the cache finds is the newest of its key. -/
theorem Sound.get (sound : Sound parseRfc3339 s) (key : String) (nowUnix : Nat) :
    s.cache.get key nowUnix = ExpiringCache.find? Credentials.expirationUnix refreshMarginSecs
      (s.done.map Exchange.entry) key nowUnix :=
  sound.held.find? _ _ key nowUnix

theorem Sound.of_get (sound : Sound parseRfc3339 s) {key : String} {nowUnix : Nat} {creds : Credentials}
    (found : s.cache.get key nowUnix = some creds) :
    (key, creds) ∈ s.done.map Exchange.entry ∧ nowUnix + refreshMarginSecs < creds.expirationUnix := by
  rw [sound.get, ExpiringCache.find?_eq_some_iff] at found
  exact ⟨ExpiringCache.mem_of_lookup found.1, found.2⟩

theorem sound_new : Sound parseRfc3339 new :=
  ⟨ExpiringCache.holds_empty, List.forall_mem_nil _, List.forall_mem_nil _, List.forall_mem_nil _⟩

theorem Sound.moves (sound : Sound parseRfc3339 s) (moves : Moves parseRfc3339 s event t) : Sound parseRfc3339 t := by
  cases moves with
  | asked sts roleArn sessionName sessionTags nowUnix =>
    refine ⟨sound.held, fun call listed => ?_, sound.done, fun exchange listed => ?_⟩
    · rcases List.mem_append.mp listed with before | new_
      · exact sound.calls call before
      · obtain rfl := List.mem_singleton.mp new_
        unfold CallSound looked
        cases found : s.cache.get (credentialsFor sts roleArn sessionName sessionTags).cacheKey nowUnix with
        | some creds => exact sound.of_get found
        | none =>
          cases hops : sts.base with
          | none => simp only [SignedBy, hops]
          | some hop => trivial
    · obtain ⟨maker, among, made⟩ := sound.made exchange listed
      exact ⟨maker, List.mem_append_left _ among, made⟩
  | baseHit there waits hops found => exact sound.advance there ⟨_, hops, (sound.of_get found).1⟩
  | baseMiss there waits => exact sound.advance there trivial
  | failed there waits => exact sound.advance there trivial
  | @baseMinted i call hop creds token reply there waits hops answers =>
    have behind : ExchangeSound parseRfc3339 s.done (.base call.sts hop creds) := ⟨reply, answers⟩
    refine (sound.mint behind ⟨call, List.mem_of_getElem? there, .inr ⟨hop, hops, rfl⟩⟩).advance there ⟨hop, hops, ?_⟩
    exact List.mem_map.mpr ⟨_, List.mem_cons_self, rfl⟩
  | @minted i call signer creds reply there out answers =>
    have signed : SignedBy s.done call.sts signer := by
      have sound := sound.calls call (List.mem_of_getElem? there)
      rwa [CallSound, out] at sound
    have behind : ExchangeSound parseRfc3339 s.done (.session call.sts call.roleArn call.sessionName call.sessionTags
        signer creds) := ⟨signed, reply, answers⟩
    exact (sound.mint behind ⟨call, List.mem_of_getElem? there, .inl rfl⟩).advance there ⟨signer, List.mem_cons_self⟩

theorem sound_run {events : List Event} (ran : Runs.exec (step parseRfc3339) new events = some s) :
    Sound parseRfc3339 s :=
  Runs.exec_preserves (fun _ _ _ sound stepped => sound.moves (moves_of_step stepped)) sound_new ran

/-! ### What a request is served -/

/-- Behind every request that is served stands an exchange of its key. -/
theorem Sound.served (sound : Sound parseRfc3339 s) (listed : call ∈ s.calls) {creds : Credentials} {cached : Bool}
    (served : call.phase = .served creds cached) : ∃ exchange ∈ s.done, exchange.creds = creds ∧
      exchange.request.cacheKey = call.request.cacheKey ∧
      (cached = true → call.nowUnix + refreshMarginSecs < creds.expirationUnix) ∧
      (cached = false → exchange.request = call.request) := by
  have behind := sound.calls call listed
  rw [CallSound, served] at behind
  cases cached with
  | true =>
    obtain ⟨minted, lasts⟩ := behind
    obtain ⟨exchange, among, entry⟩ := List.mem_map.mp minted
    obtain ⟨key, same⟩ := Prod.mk.inj entry
    exact ⟨exchange, among, same, key, fun _ => lasts, fun other => Bool.noConfusion other⟩
  | false =>
    obtain ⟨signer, among⟩ := behind
    exact ⟨_, among, rfl, rfl, fun other => Bool.noConfusion other, fun _ => rfl⟩

/-! ### What a request keeps -/

theorem looked_cached (sts : StsConfig) (found : Option Credentials) : (looked sts found).cached = found.isSome := by
  unfold looked
  cases found with
  | some creds => rfl
  | none => cases sts.base <;> rfl

/-- What a request keeps from when it has looked up its key. -/
def shape (call : CredentialCall) : CredentialCall × Bool := ({ call with phase := .base }, call.phase.cached)

/-- A request that has found nothing advances without finding anything. -/
theorem shapes_set {calls : List CredentialCall} {i : Nat} {phase : Phase} (there : calls[i]? = some call)
    (waits : call.phase.cached = false) (waitsToo : phase.cached = false) :
    calls.map shape <+: (calls.set i { call with phase }).map shape := by
  have kept : (calls.set i { call with phase }).map shape = calls.map shape := by
    refine List.ext_getElem? fun j => ?_
    rw [List.getElem?_map, List.getElem?_map, List.getElem?_set]
    by_cases here : i = j
    · subst here
      have within := (List.getElem?_eq_some_iff.mp there).1
      have same : shape { call with phase } = shape call := Prod.ext rfl (waitsToo.trans waits.symm)
      rw [if_pos rfl, if_pos within, there, Option.map_some, Option.map_some, same]
    · rw [if_neg here]
  rw [kept]

/-- No step changes what a request has found. -/
theorem shapes_moves (moves : Moves parseRfc3339 s event t) : s.calls.map shape <+: t.calls.map shape := by
  cases moves with
  | asked sts roleArn sessionName sessionTags nowUnix =>
    rw [List.map_append]
    exact List.prefix_append _ _
  | @baseHit i call hop creds there waits hops found => exact @shapes_set call s.calls i (.called _) there waits rfl
  | @baseMiss i call there waits => exact @shapes_set call s.calls i .token there waits rfl
  | @failed event i call error there waits => exact @shapes_set call s.calls i (.failed error) there waits rfl
  | @baseMinted i call hop creds token reply there waits hops answers =>
    exact @shapes_set call s.calls i (.called _) there waits rfl
  | @minted i call signer creds reply there out answers =>
    have waits : call.phase.cached = false := by
      rw [out]
      rfl
    exact @shapes_set call s.calls i (.served creds false) there waits rfl

theorem shapes_run {events : List Event} (ran : Runs.exec (step parseRfc3339) s events = some t) :
    s.calls.map shape <+: t.calls.map shape := by
  have kept : Runs.Preserves (step parseRfc3339) fun u => s.calls.map shape <+: u.calls.map shape :=
    fun u event v sofar stepped => sofar.trans (shapes_moves (moves_of_step stepped))
  exact Runs.exec_preserves kept List.prefix_rfl ran

end Exchanges

end

/-! ### A run -/

namespace Exchanges

variable {parseRfc3339 : String → Except String Int} {sts : StsConfig} {roleArn sessionName : String}
  {sessionTags : List (String × String)} {nowUnix laterUnix : Nat} {reply : Reply} {creds : Credentials}

/-- After the first request of all, answered. -/
def afterFirst (sts : StsConfig) (roleArn sessionName : String) (sessionTags : List (String × String)) (nowUnix : Nat)
    (creds : Credentials) : Exchanges :=
  ⟨CredentialCache.new.put (credentialsFor sts roleArn sessionName sessionTags).cacheKey creds,
    [⟨sts, roleArn, sessionName, sessionTags, nowUnix, .served creds false⟩],
    [.session sts roleArn sessionName sessionTags none creds]⟩

/-- The first request of all makes an exchange, which no base hop signs. -/
theorem first_executed (direct : sts.base = none) (answers : answered parseRfc3339 "STS" reply = .ok creds) :
    Runs.exec (step parseRfc3339) new [.ask sts roleArn sessionName sessionTags nowUnix, .reply 0 reply] =
      some (afterFirst sts roleArn sessionName sessionTags nowUnix creds) := by
  have missed : new.cache.get (credentialsFor sts roleArn sessionName sessionTags).cacheKey nowUnix = none := by
    simp [new, CredentialCache.get, CredentialCache.new]
  refine Runs.exec_cons.mpr ⟨⟨.new, [⟨sts, roleArn, sessionName, sessionTags, nowUnix, .called none⟩], []⟩, ?_, ?_⟩
  · simp only [step, missed, looked, direct]
    rfl
  · refine Runs.exec_cons.mpr ⟨_, ?_, Runs.exec_nil _⟩
    simp only [step, at?, List.getElem?_cons_zero, Option.map_some, answers]
    rfl

/-- The same request finds what the first was answered, for as long as it lasts. -/
theorem second_executed (lasts : laterUnix + refreshMarginSecs < creds.expirationUnix) :
    Runs.exec (step parseRfc3339) (afterFirst sts roleArn sessionName sessionTags nowUnix creds)
        [.ask sts roleArn sessionName sessionTags laterUnix] =
      some { afterFirst sts roleArn sessionName sessionTags nowUnix creds with
        calls := [⟨sts, roleArn, sessionName, sessionTags, nowUnix, .served creds false⟩,
          ⟨sts, roleArn, sessionName, sessionTags, laterUnix, .served creds true⟩] } := by
  have found : (afterFirst sts roleArn sessionName sessionTags nowUnix creds).cache.get
      (credentialsFor sts roleArn sessionName sessionTags).cacheKey laterUnix = some creds := by
    simp [afterFirst, CredentialCache.get, CredentialCache.put, lasts]
  refine Runs.exec_cons.mpr ⟨_, ?_, Runs.exec_nil _⟩
  simp only [step, found, looked]
  rfl

/-- The base hop of the first request of all is exchanged, and its credentials are to sign the call. -/
theorem base_executed {hop : BaseHop} (chained : sts.base = some hop) (token : String)
    (answers : answered parseRfc3339 "STS AssumeRoleWithWebIdentity" reply = .ok creds) :
    ∃ s, Runs.exec (step parseRfc3339) new [.ask sts roleArn sessionName sessionTags nowUnix, .base 0,
        .token 0 (.ok token) reply] = some s ∧
      ⟨sts, roleArn, sessionName, sessionTags, nowUnix, .called (some creds)⟩ ∈ s.calls := by
  have missed (key : String) : CredentialCache.new.get key nowUnix = none := by
    simp [CredentialCache.get, CredentialCache.new]
  have asked : step parseRfc3339 new (.ask sts roleArn sessionName sessionTags nowUnix) =
      some ⟨.new, [⟨sts, roleArn, sessionName, sessionTags, nowUnix, .base⟩], []⟩ := by
    simp only [step, new, missed, looked, chained]
    rfl
  have based : step parseRfc3339 ⟨.new, [⟨sts, roleArn, sessionName, sessionTags, nowUnix, .base⟩], []⟩ (.base 0) =
      some ⟨.new, [⟨sts, roleArn, sessionName, sessionTags, nowUnix, .token⟩], []⟩ := by
    simp only [step, at?, List.getElem?_cons_zero, Option.map_some, chained, missed]
    rfl
  have minted : step parseRfc3339 ⟨.new, [⟨sts, roleArn, sessionName, sessionTags, nowUnix, .token⟩], []⟩
      (.token 0 (.ok token) reply) = some ((mint ⟨.new, [⟨sts, roleArn, sessionName, sessionTags, nowUnix, .token⟩], []⟩
        (.base sts hop creds)).advance 0 ⟨sts, roleArn, sessionName, sessionTags, nowUnix, .token⟩
          (.called (some creds))) := by
    simp only [step, at?, List.getElem?_cons_zero, Option.map_some, chained, Except.bind, answers]
  have ran := Runs.exec_cons.mpr ⟨_, asked, Runs.exec_cons.mpr ⟨_, based, Runs.exec_cons.mpr ⟨_, minted,
    Runs.exec_nil _⟩⟩⟩
  exact ⟨_, ran, List.mem_cons_self⟩

end Exchanges

/-- What the mock STS writes into the token of one tag. -/
def tokenJson : JsonText :=
  ⟨fun _ => .error "", fun _ => .error "", fun _ => "null",
    fun _ => Text.utf8Bytes "\x7b\"tags\":\x7b\"team\":\"ml=x\"\x7d\x7d"⟩

/-- A server at the time 1000000000, for fifteen minutes. -/
def plainMock : MockSts := ⟨sha256Hash, tokenJson, fun _ => "2001-09-09T02:01:40Z", true⟩

def plainDate (_ : String) : Except String Int := .ok 1000000900

def taggedSts : StsConfig :=
  ⟨⟨"sts", 80⟩, .bare "arn:aws:iam::1:role/ml", .bare "gw", 900, [⟨"team", some "ml=x", none⟩], none, none⟩

/-- The credentials of the first answer, and the answer. -/
def firstCreds : Credentials := plainMock.mockCreds 1 [("team", "ml=x")] 1000000900

def firstReply : Reply :=
  .ok (MockSts.respond 200 (plainMock.credentialsXml "AssumeRole" 1 [("team", "ml=x")] 1000000900))

theorem firstReply_answers (what : String) : answered plainDate what firstReply = .ok firstCreds :=
  MockSts.answered_respond (by decide) 1 _ (by decide) rfl what

/-- Whatever comes before and after, a request is served without an exchange of its own exactly when, at the time when
    it came, what the last exchange of its key was answered lasted for longer than the margin. -/
theorem cached_iff_lasting (parseRfc3339 : String → Except String Int) {sts : StsConfig} {roleArn sessionName : String}
    {sessionTags : List (String × String)} {nowUnix : Nat} {before after : List Event} {u s : Exchanges}
    (reached : Runs.exec (Exchanges.step parseRfc3339) .new before = some u)
    (ran : Runs.exec (Exchanges.step parseRfc3339) u
      (.ask sts roleArn sessionName sessionTags nowUnix :: after) = some s) :
    ∃ call, s.calls[u.calls.length]? = some call ∧
      call.request = credentialsFor sts roleArn sessionName sessionTags ∧
      (call.phase.cached = true ↔
        ∃ creds, (u.done.map Exchange.entry).lookup call.request.cacheKey = some creds ∧
          nowUnix + refreshMarginSecs < creds.expirationUnix) := by
  have sound := Exchanges.sound_run reached
  obtain ⟨t, asked, later⟩ := Runs.exec_cons.mp ran
  obtain rfl := Option.some.inj asked
  obtain ⟨rest, whole⟩ := Exchanges.shapes_run later
  have found : (s.calls.map Exchanges.shape)[u.calls.length]? =
      some (⟨sts, roleArn, sessionName, sessionTags, nowUnix, .base⟩, (Exchanges.looked sts
        (u.cache.get (credentialsFor sts roleArn sessionName sessionTags).cacheKey nowUnix)).cached) := by
    rw [← whole, List.map_append, List.append_assoc, List.getElem?_append_right (by simp)]
    simp [Exchanges.shape]
  rw [List.getElem?_map] at found
  obtain ⟨call, there, same⟩ := Option.map_eq_some_iff.mp found
  obtain ⟨asked, cached⟩ := Prod.mk.inj same
  have request : call.request = credentialsFor sts roleArn sessionName sessionTags :=
    congrArg CredentialCall.request asked
  refine ⟨call, there, request, ?_⟩
  rw [cached, Exchanges.looked_cached, request, sound.get, Option.isSome_iff_exists]
  simp only [ExpiringCache.find?_eq_some_iff]

/-- A request a second later finds the answer of the first. -/
theorem second_cached :
    ∃ s, Runs.exec (Exchanges.step plainDate) (Exchanges.afterFirst taggedSts "arn:aws:iam::1:role/ml" "gw"
        [("team", "ml=x")] 1000000000 firstCreds) [.ask taggedSts "arn:aws:iam::1:role/ml" "gw" [("team", "ml=x")]
        1000000001] = some s ∧
      ∃ call, s.calls[1]? = some call ∧ call.phase.cached = true := by
  have first := @Exchanges.first_executed plainDate taggedSts "arn:aws:iam::1:role/ml" "gw" [("team", "ml=x")]
    1000000000 _ _ rfl (firstReply_answers "STS")
  have second := @Exchanges.second_executed plainDate taggedSts "arn:aws:iam::1:role/ml" "gw" [("team", "ml=x")]
    1000000000 1000000001 firstCreds (by decide)
  obtain ⟨call, there, request, cached⟩ := cached_iff_lasting plainDate first second
  refine ⟨_, second, call, there, cached.mpr ⟨firstCreds, ?_, by decide⟩⟩
  rw [request]
  simp [Exchanges.afterFirst, Exchange.entry, Exchange.request, Exchange.creds]

/-- The answers of a server that gives each access key the secret that it computes. -/
def Issued (hash : SignatureHash) (parseRfc3339 : String → Except String Int) : Event → Prop
  | .token _ _ reply => ∀ creds, answered parseRfc3339 "STS AssumeRoleWithWebIdentity" reply = .ok creds →
      creds.secretAccessKey = secretFor hash creds.accessKeyId
  | .reply _ reply => ∀ creds, answered parseRfc3339 "STS" reply = .ok creds →
      creds.secretAccessKey = secretFor hash creds.accessKeyId
  | _ => True

namespace Exchanges

variable {hash : SignatureHash} {parseRfc3339 : String → Except String Int} {s t : Exchanges} {event : Event}

/-- Every exchange was answered with the secret of its access key. -/
def AllIssued (hash : SignatureHash) (s : Exchanges) : Prop :=
  ∀ exchange ∈ s.done, exchange.creds.secretAccessKey = secretFor hash exchange.creds.accessKeyId

theorem AllIssued.moves (all : AllIssued hash s) (issued : Issued hash parseRfc3339 event)
    (moves : Moves parseRfc3339 s event t) : AllIssued hash t := by
  cases moves with
  | asked sts roleArn sessionName sessionTags nowUnix => exact all
  | baseHit there waits hops found => exact all
  | baseMiss there waits => exact all
  | failed there waits => exact all
  | baseMinted there waits hops answers => exact List.forall_mem_cons.mpr ⟨issued _ answers, all⟩
  | minted there out answers => exact List.forall_mem_cons.mpr ⟨issued _ answers, all⟩

end Exchanges

/-- Under a server that gives each access key the secret that it computes, no chained call is refused: it is read as it
    was meant, and its signature is accepted. -/
theorem chained_calls_accepted (hash : SignatureHash) (parseRfc3339 : String → Except String Int)
    (amzDate : Nat → String) (stsRegion : String) {events : List Event} {s : Exchanges}
    (ran : Runs.exec (Exchanges.step parseRfc3339) .new events = some s)
    (issued : ∀ event ∈ events, Issued hash parseRfc3339 event) {call : CredentialCall} (listed : call ∈ s.calls)
    {creds : Credentials} (out : call.phase = .called (some creds))
    (signable : Signable amzDate call.sts.endpoint stsRegion creds call.nowUnix)
    (small : (Text.utf8Bytes call.body).length < 2 ^ 64) :
    ∃ headers, readRequest (call.bytes hash amzDate stsRegion (some creds)) =
        .ok (headers, Text.utf8Bytes call.body) ∧
      verifyChainSignature hash headers (Text.utf8Bytes call.body) = .ok () := by
  have along : Runs.Along (Exchanges.step parseRfc3339) (fun _ event => Issued hash parseRfc3339 event) .new events :=
    Runs.along_of_forall fun _ event inside => issued event inside
  have kept : Runs.PreservesWhen (Exchanges.step parseRfc3339) (fun _ event => Issued hash parseRfc3339 event)
      (Exchanges.AllIssued hash) := fun s event t all own stepped => all.moves own (Exchanges.moves_of_step stepped)
  have none_ : Exchanges.AllIssued hash .new := List.forall_mem_nil _
  have all : Exchanges.AllIssued hash s := Runs.exec_preserves_along kept none_ along ran
  have sound := (Exchanges.sound_run ran).calls call listed
  rw [Exchanges.CallSound, out] at sound
  obtain ⟨hop, hops, minted⟩ := sound
  obtain ⟨exchange, among, entry⟩ := List.mem_map.mp minted
  have secret : creds.secretAccessKey = secretFor hash creds.accessKeyId := (Prod.mk.inj entry).2 ▸ all exchange among
  refine ⟨_, readRequest_chained signable small, (verifyChainSignature_iff signable _).mpr ⟨rfl, ?_⟩⟩
  rw [secret]

/-- A base hop in front of the call. -/
def baseHop : BaseHop := ⟨⟨none, some "TOKEN"⟩, "arn:aws:iam::1:role/base", "gw-base"⟩

def chainedSts : StsConfig := { taggedSts with base := some baseHop }

/-- The answer to the token of the base hop. -/
def baseReply : Reply :=
  .ok (MockSts.respond 200 (plainMock.credentialsXml "AssumeRoleWithWebIdentity" 1 [] 1000000900))

theorem baseReply_answers (what : String) :
    answered plainDate what baseReply = .ok (plainMock.mockCreds 1 [] 1000000900) :=
  MockSts.answered_respond (by decide) 1 _ (by decide) rfl what

/-- The call of a request behind its base hop. -/
def chainedFirst (phase : Phase) : CredentialCall :=
  ⟨chainedSts, "arn:aws:iam::1:role/ml", "gw", [("team", "ml=x")], 1000000000, phase⟩

/-- The signed call of a request behind its base hop is accepted. -/
theorem chained_first_accepted :
    ∃ headers, readRequest ((chainedFirst .base).bytes sha256Hash (fun _ => "20010909T014640Z") "us-east-1"
        (some (plainMock.mockCreds 1 [] 1000000900))) = .ok (headers, Text.utf8Bytes (chainedFirst .base).body) ∧
      verifyChainSignature sha256Hash headers (Text.utf8Bytes (chainedFirst .base).body) = .ok () := by
  obtain ⟨s, ran, listed⟩ := @Exchanges.base_executed plainDate chainedSts "arn:aws:iam::1:role/ml" "gw"
    [("team", "ml=x")] 1000000000 baseReply _ baseHop rfl "jwt" (baseReply_answers _)
  refine chained_calls_accepted sha256Hash plainDate (fun _ => "20010909T014640Z") "us-east-1" ran ?_ listed rfl
    { host := by decide, region := by decide, accessKeyId := ?_, sessionToken := ?_, date := by decide,
      long := by decide } (by decide +kernel)
  · intro event among
    simp only [List.mem_cons, List.not_mem_nil, or_false] at among
    rcases among with rfl | rfl | rfl
    · trivial
    · trivial
    · intro creds answers
      rw [baseReply_answers] at answers
      exact Except.ok.inj answers ▸ rfl
  · exact ⟨MockSts.not_mem_mockAccessKeyId (by decide) (by decide) 1,
      MockSts.not_mem_mockAccessKeyId (by decide) (by decide) 1,
      MockSts.not_mem_mockAccessKeyId (by decide) (by decide) 1⟩
  · exact MockSts.not_mem_sessionToken (by decide) _ _

end SmallGateway.Aws
