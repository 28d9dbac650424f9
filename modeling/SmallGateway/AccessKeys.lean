import SmallGateway.AttributedCredentials

/-!
What an access key tells about the cache. The mock STS numbers the credentials that it issues. Two requests that are
served with one access key were served by one exchange: they have one cache key, and one of them at most was not served
from the cache (`access_key_tells_exchange`).
-/

namespace SmallGateway.Aws

open Config (StsConfig)

/-- The access key of a request that was served by an exchange of its own. -/
def Phase.ownKey? : Phase → Option String
  | .served creds false => some creds.accessKeyId
  | _ => none

namespace Exchanges

variable {parseRfc3339 : String → Except String Int} {s t : Exchanges} {event : Event} {i j : Nat}
  {call : CredentialCall} {phase : Phase} {key : String}

/-- The access key of the exchange that a request made for itself. -/
def ownKeyAt (s : Exchanges) (i : Nat) : Option String := s.calls[i]?.bind fun call => call.phase.ownKey?

/-- No two requests have made exchanges for themselves with one access key. -/
def OwnKeys (s : Exchanges) : Prop :=
  ∀ i j key, s.ownKeyAt i = some key → s.ownKeyAt j = some key → i = j

theorem ownKeyAt_some (own : s.ownKeyAt i = some key) :
    ∃ call creds, s.calls[i]? = some call ∧ call.phase = .served creds false ∧ creds.accessKeyId = key := by
  obtain ⟨call, there, same⟩ := Option.bind_eq_some_iff.mp own
  unfold Phase.ownKey? at same
  split at same
  · rename_i creds served
    exact ⟨call, creds, there, served, Option.some.inj same⟩
  · cases same

theorem ownKeyAt_served {creds : Credentials} (there : s.calls[i]? = some call)
    (served : call.phase = .served creds false) : s.ownKeyAt i = some creds.accessKeyId := by
  rw [ownKeyAt, there, Option.bind_some, served]
  rfl

theorem ownKeyAt_advance (there : s.calls[i]? = some call) (j : Nat) :
    (s.advance i call phase).ownKeyAt j = if i = j then phase.ownKey? else s.ownKeyAt j := by
  have within := (List.getElem?_eq_some_iff.mp there).1
  by_cases here : i = j
  · subst here
    simp only [ownKeyAt, advance, List.getElem?_set_self within, Option.bind_some, if_true]
  · simp only [ownKeyAt, advance, List.getElem?_set_ne here, if_neg here]

/-- A request that comes makes no exchange at once. -/
theorem ownKeyAt_asked {c : CredentialCall} (none_ : c.phase.ownKey? = none) (j : Nat) :
    ownKeyAt { s with calls := s.calls ++ [c] } j = s.ownKeyAt j := by
  rcases Nat.lt_trichotomy j s.calls.length with below | rfl | above
  · simp only [ownKeyAt, List.getElem?_append_left below]
  · simp [ownKeyAt, none_]
  · have past : (s.calls ++ [c]).length ≤ j := by simp; omega
    simp only [ownKeyAt, List.getElem?_eq_none past, List.getElem?_eq_none above.le]

theorem ownKey?_looked (sts : StsConfig) (found : Option Credentials) : (looked sts found).ownKey? = none := by
  unfold looked
  cases found with
  | some creds => rfl
  | none => cases sts.base <;> rfl

/-- The exchange that a request made for itself is among those that are done. -/
theorem Sound.ownKeyAt_mem (sound : Sound parseRfc3339 s) (own : s.ownKeyAt i = some key) :
    key ∈ s.done.map fun exchange => exchange.creds.accessKeyId := by
  obtain ⟨call, creds, there, served, rfl⟩ := ownKeyAt_some own
  obtain ⟨exchange, among, same, -⟩ := sound.served (List.mem_of_getElem? there) served
  exact List.mem_map.mpr ⟨exchange, among, congrArg Credentials.accessKeyId same⟩

/-- A step after which no new exchange is a request's own. -/
theorem OwnKeys.advance (own : OwnKeys s) (there : s.calls[i]? = some call) (none_ : phase.ownKey? = none) :
    OwnKeys (s.advance i call phase) := by
  intro j k key first second
  rw [ownKeyAt_advance there] at first second
  split at first
  · exact absurd (none_.symm.trans first) (Option.some_ne_none key).symm
  · split at second
    · exact absurd (none_.symm.trans second) (Option.some_ne_none key).symm
    · exact own j k key first second

/-- The access keys that are new are not those of requests that were served before. -/
theorem OwnKeys.moves (own : OwnKeys s) (sound : Sound parseRfc3339 s) (moves : Moves parseRfc3339 s event t)
    (distinct : (t.done.map fun exchange => exchange.creds.accessKeyId).Nodup) : OwnKeys t := by
  cases moves with
  | asked sts roleArn sessionName sessionTags nowUnix =>
    intro i j key first second
    rw [ownKeyAt_asked (ownKey?_looked _ _)] at first second
    exact own i j key first second
  | baseHit there waits hops found => exact own.advance there rfl
  | baseMiss there waits => exact own.advance there rfl
  | failed there waits => exact own.advance there rfl
  | baseMinted there waits hops answers => exact OwnKeys.advance (s := mint s _) own there rfl
  | @minted i call signer creds reply there out answers =>
    have fresh : creds.accessKeyId ∉ s.done.map fun exchange => exchange.creds.accessKeyId :=
      (List.nodup_cons.mp distinct).1
    intro j k key first second
    rw [ownKeyAt_advance (s := mint s _) there] at first second
    have before {l : Nat} (earlier : s.ownKeyAt l = some key) : creds.accessKeyId ≠ key :=
      fun same => fresh (same ▸ sound.ownKeyAt_mem earlier)
    split at first
    · rename_i here
      split at second
      · rename_i hereToo
        exact here.symm.trans hereToo
      · exact absurd (Option.some.inj first) (before second)
    · split at second
      · exact absurd (Option.some.inj second) (before first)
      · exact own j k key first second

end Exchanges

namespace Traffic

variable {server : MockSts} {amzDate : Nat → String} {parseRfc3339 : String → Except String Int} {t u : Traffic}

/-- What is sent changes nothing before it is answered. -/
theorem exchanges_sent (i : Nat) (token : Option String) (bytes : List UInt8) (nowUnix : Nat) :
    (t.sent server i token bytes nowUnix).exchanges = t.exchanges := by
  unfold Traffic.sent
  generalize server.handle bytes t.issued nowUnix = handled
  rfl

/-- The exchanges see of a step what is a step of theirs, if any. -/
theorem exchanges_step {deed : Deed} (stepped : Traffic.step server amzDate parseRfc3339 t deed = some u) :
    u.exchanges = t.exchanges ∨ ∃ event, Exchanges.Moves parseRfc3339 t.exchanges event u.exchanges := by
  have within_ {event : Event} {v : Traffic} (moved : t.within parseRfc3339 event = some v) :
      Exchanges.Moves parseRfc3339 t.exchanges event v.exchanges := by
    simp only [within] at moved
    obtain ⟨s, executed, rfl⟩ := Option.map_eq_some_iff.mp moved
    exact Exchanges.moves_of_step executed
  cases deed with
  | ask sts roleArn sessionName sessionTags nowUnix => exact .inr ⟨_, within_ stepped⟩
  | base i => exact .inr ⟨_, within_ stepped⟩
  | send i token stsRegion nowUnix =>
    left
    simp only [Traffic.step] at stepped
    split at stepped
    · exact (congrArg Traffic.exchanges (Option.some.inj stepped)).symm.trans (exchanges_sent _ _ _ _)
    · exact (congrArg Traffic.exchanges (Option.some.inj stepped)).symm.trans (exchanges_sent _ _ _ _)
    · cases stepped
  | receive k =>
    simp only [Traffic.step] at stepped
    obtain ⟨answer, found, arrived⟩ := Option.bind_eq_some_iff.mp stepped
    obtain ⟨v, moved, rfl⟩ := Option.map_eq_some_iff.mp arrived
    have moves := within_ moved
    exact .inr ⟨_, moves⟩
  | lose i error =>
    simp only [Traffic.step] at stepped
    obtain ⟨v, moved, rfl⟩ := Option.map_eq_some_iff.mp stepped
    have moves := within_ moved
    exact .inr ⟨_, moves⟩

theorem Sound.distinctDone (sound : Sound server amzDate parseRfc3339 t) :
    (t.exchanges.done.map fun exchange => exchange.creds.accessKeyId).Nodup :=
  (List.nodup_append.mp sound.distinct).1

theorem ownKeys_run {deeds : List Deed} (plain : Runs.Along (Traffic.step server amzDate parseRfc3339)
      (Plain server amzDate parseRfc3339) new deeds)
    (ran : Runs.exec (Traffic.step server amzDate parseRfc3339) new deeds = some t) :
    Sound server amzDate parseRfc3339 t ∧ t.exchanges.OwnKeys := by
  have kept : Runs.PreservesWhen (Traffic.step server amzDate parseRfc3339) (Plain server amzDate parseRfc3339)
      fun t => Sound server amzDate parseRfc3339 t ∧ t.exchanges.OwnKeys := by
    rintro t deed u ⟨sound, own⟩ plain stepped
    have later := sound.step plain stepped
    refine ⟨later, ?_⟩
    rcases exchanges_step stepped with same | ⟨event, moves⟩
    · rw [same]
      exact own
    · exact own.moves sound.exchanges moves later.distinctDone
  have none_ : new.exchanges.OwnKeys := by
    intro i j key first
    obtain ⟨call, creds, there, -⟩ := Exchanges.ownKeyAt_some first
    cases there
  exact Runs.exec_preserves_along kept ⟨sound_new, none_⟩ plain ran

/-- A run goes on by one deed. -/
theorem run_append {deeds : List Deed} {deed : Deed}
    (along : Runs.Along (Traffic.step server amzDate parseRfc3339) (Plain server amzDate parseRfc3339) new deeds)
    (ran : Runs.exec (Traffic.step server amzDate parseRfc3339) new deeds = some t)
    (stepped : Traffic.step server amzDate parseRfc3339 t deed = some u)
    (plain : Plain server amzDate parseRfc3339 t deed) :
    Runs.Along (Traffic.step server amzDate parseRfc3339) (Plain server amzDate parseRfc3339) new (deeds ++ [deed]) ∧
      Runs.exec (Traffic.step server amzDate parseRfc3339) new (deeds ++ [deed]) = some u := by
  constructor
  · refine Runs.along_append.mpr ⟨along, fun s reached => ?_⟩
    obtain rfl := Option.some.inj (ran.symm.trans reached)
    exact ⟨plain, fun _ _ => trivial⟩
  · rw [← Runs.foldlM_eq_exec, List.foldlM_append, Runs.foldlM_eq_exec, ran, Option.bind_eq_bind, Option.bind_some,
      Runs.foldlM_eq_exec]
    exact Runs.exec_cons.mpr ⟨u, stepped, Runs.exec_nil u⟩

/-- The same request again, served from the cache, and nothing sent for it. -/
theorem second_executed {sts : StsConfig} {roleArn sessionName : String} {sessionTags : List (String × String)}
    {nowUnix laterUnix issued : Nat} {creds : Credentials}
    (lasts : laterUnix + refreshMarginSecs < creds.expirationUnix) :
    Traffic.step server amzDate parseRfc3339
        ⟨Exchanges.afterFirst sts roleArn sessionName sessionTags nowUnix creds, issued, [], []⟩
          (.ask sts roleArn sessionName sessionTags laterUnix) =
      some ⟨{ Exchanges.afterFirst sts roleArn sessionName sessionTags nowUnix creds with
        calls := [⟨sts, roleArn, sessionName, sessionTags, nowUnix, .served creds false⟩,
          ⟨sts, roleArn, sessionName, sessionTags, laterUnix, .served creds true⟩] }, issued, [], []⟩ := by
  obtain ⟨s, asked, same⟩ := Runs.exec_cons.mp (@Exchanges.second_executed parseRfc3339 sts roleArn sessionName
    sessionTags nowUnix laterUnix creds lasts)
  obtain rfl := Option.some.inj same
  simp only [Traffic.step, within, asked, Option.map_some]

end Traffic

/-- Two requests that are served with one access key were served by one exchange: with the same credentials, for the
    same cache key, and if neither was served from the cache, they are one request. -/
theorem access_key_tells_exchange (server : MockSts) (amzDate : Nat → String)
    (parseRfc3339 : String → Except String Int) {deeds : List Deed} {t : Traffic}
    (plain : Runs.Along (Traffic.step server amzDate parseRfc3339) (Traffic.Plain server amzDate parseRfc3339) .new
      deeds)
    (ran : Runs.exec (Traffic.step server amzDate parseRfc3339) .new deeds = some t) {i j : Nat}
    {first second : CredentialCall} (there : t.exchanges.calls[i]? = some first)
    (thereToo : t.exchanges.calls[j]? = some second) {creds others : Credentials} {cached again : Bool}
    (served : first.phase = .served creds cached) (servedToo : second.phase = .served others again)
    (same : creds.accessKeyId = others.accessKeyId) :
    creds = others ∧ first.request.cacheKey = second.request.cacheKey ∧ (cached = false → again = false → i = j) := by
  obtain ⟨sound, own⟩ := Traffic.ownKeys_run plain ran
  obtain ⟨exchange, among, issued, key, -⟩ := sound.exchanges.served (List.mem_of_getElem? there) served
  obtain ⟨other, amongToo, issuedToo, keyToo, -⟩ := sound.exchanges.served (List.mem_of_getElem? thereToo) servedToo
  have one : exchange = other :=
    List.inj_on_of_nodup_map sound.distinctDone among amongToo (by rw [issued, issuedToo, same])
  subst one
  refine ⟨issued.symm.trans issuedToo, key.symm.trans keyToo, ?_⟩
  rintro rfl rfl
  exact own i j _ (Exchanges.ownKeyAt_served there served)
    (same ▸ Exchanges.ownKeyAt_served thereToo servedToo)

/-- The first request and the same again are served with one access key. -/
theorem second_told :
    ∃ t, Runs.exec (Traffic.step openMock (fun _ => "20010909T014640Z") plainDate) .new
        (Traffic.firstDeeds taggedSts "arn:aws:iam::1:role/ml" "gw" [("team", "ml=x")] 1000000000 "jwt" "us-east-1"
          1000000000 ++ [.ask taggedSts "arn:aws:iam::1:role/ml" "gw" [("team", "ml=x")] 1000000001]) = some t ∧
      ∃ first second creds others, t.exchanges.calls = [first, second] ∧ first.phase = .served creds false ∧
        second.phase = .served others true ∧ creds = others ∧ first.request.cacheKey = second.request.cacheKey := by
  obtain ⟨along, ran⟩ := Traffic.first_executed (taggedCall_plain 1000000000) rfl taggedCall_sends
  have lasts : 1000000001 + refreshMarginSecs < (openMock.mockCreds 1 [("team", "ml=x")]
      (1000000000 + (UInt32.ofNat taggedSts.durationSecs).toNat)).expirationUnix := by decide
  have again := @Traffic.second_executed openMock (fun _ => "20010909T014640Z") plainDate taggedSts
    "arn:aws:iam::1:role/ml" "gw" [("team", "ml=x")] 1000000000 1000000001 1 _ lasts
  obtain ⟨alongOn, ranOn⟩ := Traffic.run_append along ran again (taggedCall_plain 1000000001)
  refine ⟨_, ranOn, _, _, _, _, rfl, rfl, rfl, ?_⟩
  obtain ⟨alike, key, -⟩ := @access_key_tells_exchange openMock _ plainDate _ _ alongOn ranOn 0 1 _ _ rfl rfl _ _ _ _
    rfl rfl rfl
  exact ⟨alike, key⟩

end SmallGateway.Aws
