import SmallGateway.CallerRaw
import SmallGateway.Lib.Records
import SmallGateway.Lib.Sorting
import Mathlib.Data.Prod.Lex
import Mathlib.Data.String.Basic

/-!
The keys of the credential cache (`cache_key` and `sanitize_session_name` in `gateway-core/src/aws.rs`, `credentials_for`
and `base_credentials_for` in `gatewayd/src/aws_auth.rs`). A key is the parts of a request with separators between them,
of which a role and an endpoint may hold the bar and the key of a session tag the equals sign. Two requests of an accepted
config that have one key are for one identity exactly when their roles have equally many bars, and the keys of their
sorted tags equally many equals signs (`cacheKey_separates_iff`).
-/

namespace SmallGateway

open Config (StsConfig BaseHop)

/-! ### Requests and their keys -/

/-- What credentials are minted for. -/
structure CredentialRequest where
  roleArn : String
  sessionName : String
  durationSecs : Nat
  endpoint : String
  tags : List (String × String)
  deriving DecidableEq, Repr

namespace CredentialRequest

def sortedTags (r : CredentialRequest) : List (String × String) := Sorting.sortBy toLex r.tags

def cacheKey (r : CredentialRequest) : String :=
  r.roleArn ++ "|" ++ r.sessionName ++ "|" ++ Nat.repr r.durationSecs ++ "|" ++ r.endpoint ++ "|" ++
    String.intercalate "," (r.sortedTags.map fun (key, value) => key ++ "=" ++ value)

/-- The parts are the same, and the tags up to their order. -/
structure SameIdentity (r s : CredentialRequest) : Prop where
  roleArn : r.roleArn = s.roleArn
  sessionName : r.sessionName = s.sessionName
  durationSecs : r.durationSecs = s.durationSecs
  endpoint : r.endpoint = s.endpoint
  tags : r.tags.Perm s.tags

/-- How many bars the role has. -/
def roleBars (r : CredentialRequest) : Nat := r.roleArn.toList.count '|'

/-- How many equals signs the keys of the sorted tags have. -/
def tagEquals (r : CredentialRequest) : List Nat := r.sortedTags.map fun tag => tag.1.toList.count '='

end CredentialRequest

def baseHopDurationSecs : Nat := 3600

/-- The endpoint of an exchange as it is written. -/
def StsConfig.endpointText (sts : StsConfig) : String := sts.endpoint.host ++ ":" ++ Nat.repr sts.endpoint.port

/-- What the credentials of a request are asked for, once its role and its tags are resolved. -/
def credentialsFor (sts : StsConfig) (roleArn sessionName : String) (sessionTags : List (String × String)) :
    CredentialRequest :=
  ⟨roleArn, sessionName, sts.durationSecs, StsConfig.endpointText sts, sessionTags⟩

/-- What the credentials of the first hop are asked for. -/
def baseCredentialsFor (sts : StsConfig) (base : BaseHop) : CredentialRequest :=
  ⟨base.roleArn, base.sessionName, baseHopDurationSecs, StsConfig.endpointText sts, []⟩

/-- The requests that a config can make: those of an exchange, for any tags that resolve, and those of its first hop. -/
inductive Config.Asks (cfg : Config) : CredentialRequest → Prop where
  | session {name : String} {provider : Config.Provider} {sts : StsConfig} {tags : List Tag} {roleArn sessionName : String}
      {sessionTags : List (String × String)} (known : cfg.providers[name]? = some provider)
      (exchanges : provider.sts = some sts) (role : resolveRoleIdentity sts tags = .ok (roleArn, sessionName))
      (resolved : resolveSessionTags sts tags = .ok sessionTags) :
      Asks cfg (credentialsFor sts roleArn sessionName sessionTags)
  | base {name : String} {provider : Config.Provider} {sts : StsConfig} {base : BaseHop}
      (known : cfg.providers[name]? = some provider) (exchanges : provider.sts = some sts)
      (chained : sts.base = some base) : Asks cfg (baseCredentialsFor sts base)

/-! ### What the parts hold -/

theorem trimDashes_subset (chars : List Char) : trimDashes chars ⊆ chars := by
  intro c inside
  have turned : c ∈ chars.reverse.dropWhile fun c => c == '-' || c == '_' := by simpa [trimDashes] using inside
  simpa using (List.dropWhile_sublist _).subset turned

/-- A session name holds the characters that a session name may hold. -/
theorem sanitizeSessionName_chars (raw : String) :
    ∀ c ∈ (sanitizeSessionName raw).toList, Config.sessionNameChar c = true := by
  intro c inside
  unfold sanitizeSessionName at inside
  dsimp only at inside
  split at inside
  · have fallback : "gatewayd".toList.all Config.sessionNameChar = true := by decide
    exact List.all_eq_true.mp fallback c inside
  · rw [String.toList_ofList] at inside
    obtain ⟨d, -, rfl⟩ := List.mem_map.mp (List.take_subset _ _ (trimDashes_subset _ inside))
    split
    · assumption
    · decide

/-- What the config makes sure of: the name of the session and the tags hold the characters that they may hold. -/
structure CredentialRequest.Sound (r : CredentialRequest) : Prop where
  sessionName : ∀ c ∈ r.sessionName.toList, Config.sessionNameChar c = true
  tags : ∀ tag ∈ r.tags, (∀ c ∈ tag.1.toList, Config.awsTagChar c = true) ∧ ∀ c ∈ tag.2.toList, Config.awsTagChar c = true

/-- What is not too short or too long and has only characters of a kind is accepted. -/
theorem all_of_accepted {text : String} {kind : Char → Bool} {long : Prop} [Decidable long] {tooLong odd : String}
    (valid : (if long then .error tooLong else if !text.toList.all kind then .error odd else .ok () :
      Except String Unit) = .ok ()) : ∀ c ∈ text.toList, kind c = true := by
  split at valid
  · cases valid
  · split at valid
    · cases valid
    · rename_i all
      simpa using all

theorem validateSessionTagKey_ok {key : String} (valid : Config.validateSessionTagKey key = .ok ()) :
    ∀ c ∈ key.toList, Config.awsTagChar c = true :=
  all_of_accepted valid

theorem validateSessionTagValue_ok {value : String} (valid : Config.validateSessionTagValue value = .ok ()) :
    ∀ c ∈ value.toList, Config.awsTagChar c = true :=
  all_of_accepted valid

theorem validateSessionName_ok {name : String} (valid : Config.validateSessionName name = .ok ()) :
    ∀ c ∈ name.toList, Config.sessionNameChar c = true :=
  all_of_accepted valid

theorem refused_nil {α : Type} {ctx : String} {checked : Except String α} (none : Config.refused ctx checked = []) :
    ∃ a, checked = .ok a := by
  cases checked with
  | error e => cases none
  | ok a => exact ⟨a, rfl⟩

/-- A session tag of an accepted exchange has the key and the value of its charset. -/
theorem sessionTagValue_sound {spec : Config.SessionTag} {ctx : String} {tags : List Tag} {pair : String × String}
    (key : Config.refused ctx (Config.validateSessionTagKey spec.key) = []) (source : Config.validateTagSource spec ctx = [])
    (resolved : sessionTagValue tags spec = .ok pair) :
    (∀ c ∈ pair.1.toList, Config.awsTagChar c = true) ∧ ∀ c ∈ pair.2.toList, Config.awsTagChar c = true := by
  obtain ⟨⟨⟩, keyed⟩ := refused_nil key
  have chars := validateSessionTagKey_ok keyed
  unfold sessionTagValue at resolved
  cases written : spec.value with
  | some value =>
    simp only [written] at resolved
    obtain rfl := Except.ok.inj resolved
    cases sourced : spec.fromAttribution with
    | some key => simp [Config.validateTagSource, written, sourced] at source
    | none =>
      simp only [Config.validateTagSource, written, sourced] at source
      obtain ⟨⟨⟩, valued⟩ := refused_nil source
      exact ⟨chars, validateSessionTagValue_ok valued⟩
  | none =>
    cases sourced : spec.fromAttribution with
    | none => simp [written, sourced] at resolved
    | some name =>
      simp only [written, sourced] at resolved
      split at resolved
      · cases resolved
      · split at resolved
        · cases resolved
        · split at resolved
          · cases resolved
          · rename_i valued
            obtain rfl := Except.ok.inj resolved
            exact ⟨chars, validateSessionTagValue_ok valued⟩

section

variable {Expr : Type} {lib : Config.Compilers Expr} {cfg : Config} {r s : CredentialRequest}

theorem Config.Asks.sound (accepted : Config.configErrors lib cfg = []) (asks : cfg.Asks r) : r.Sound := by
  cases asks with
  | @session name provider sts tags roleArn sessionName sessionTags known exchanges role resolved =>
    have own := Config.validateSts_nil accepted known exchanges
    simp only [Config.validateSts, List.append_eq_nil_iff] at own
    obtain ⟨-, -, raw, -, rfl⟩ := resolveRoleIdentity_ok role
    refine ⟨sanitizeSessionName_chars raw, fun tag listed => ?_⟩
    obtain ⟨spec, among, one⟩ := Fallible.exists_of_mapM_ok resolved tag listed
    obtain ⟨ctx, key, source⟩ := validateTags_nil own.2 spec among
    exact sessionTagValue_sound key source one
  | @base name provider sts base known exchanges chained =>
    have own := Config.validateSts_nil accepted known exchanges
    simp only [Config.validateSts, chained, Config.validateBase, List.append_eq_nil_iff] at own
    obtain ⟨⟨⟩, named⟩ := refused_nil own.1.1.1.1.1.2.1.2
    exact ⟨validateSessionName_ok named, List.forall_mem_nil _⟩

/-! ### What a key tells -/

theorem repr_injective {n m : Nat} (same : Nat.repr n = Nat.repr m) : n = m := by
  have digits : Nat.toDigits 10 n = Nat.toDigits 10 m := by rw [← Nat.toList_repr, same, Nat.toList_repr]
  rw [← Nat.ofDigitChars_toDigits (by decide) (le_refl 10) (n := n), digits,
    Nat.ofDigitChars_toDigits (by decide) (le_refl 10)]

namespace CredentialRequest

/-- The text of a tag. -/
def tagText (tag : String × String) : List Char := tag.1.toList ++ '=' :: tag.2.toList

theorem cacheKey_toList (r : CredentialRequest) :
    r.cacheKey.toList = (r.roleArn.toList ++ '|' :: (r.sessionName.toList ++ '|' :: ((Nat.repr r.durationSecs).toList ++
      '|' :: r.endpoint.toList))) ++ '|' :: [','].intercalate (r.sortedTags.map tagText) := by
  have pieces : (r.sortedTags.map fun (key, value) => key ++ "=" ++ value).map String.toList = r.sortedTags.map tagText := by
    simp [tagText]
  rw [cacheKey, String.toList_append, String.toList_intercalate, pieces]
  simp

theorem mem_sortedTags {tag : String × String} : tag ∈ r.sortedTags ↔ tag ∈ r.tags :=
  (Sorting.sortBy_perm toLex r.tags).mem_iff

/-- The order of the tags does not count. -/
theorem sortedTags_of_perm (perm : r.tags.Perm s.tags) : r.sortedTags = s.sortedTags :=
  Sorting.sortBy_eq_of_perm (fun _ _ _ _ same => toLex.injective same) perm

/-- Tags of one text are the same where the equals sign between key and value is. -/
theorem eq_of_tagText {tags others : List (String × String)} (texts : tags.map tagText = others.map tagText)
    (signs : tags.map (fun tag => tag.1.toList.count '=') = others.map fun tag => tag.1.toList.count '=') :
    tags = others := by
  induction tags generalizing others with
  | nil => exact (List.map_eq_nil_iff.mp texts.symm).symm
  | cons tag rest ih =>
    cases others with
    | nil => cases texts
    | cons other restToo =>
      rw [List.map_cons, List.map_cons, List.cons.injEq] at texts signs
      obtain ⟨keys, values⟩ := Records.split_of_count signs.1 texts.1
      rw [Prod.ext (String.toList_inj.mp keys) (String.toList_inj.mp values), ih texts.2 signs.2]

/-- The parts that a key shows: the texts of the tags, and what stands before them. -/
theorem parts_of_cacheKey (sound : r.Sound) (soundToo : s.Sound) (same : r.cacheKey = s.cacheKey) :
    r.sortedTags.map tagText = s.sortedTags.map tagText ∧
      r.roleArn.toList ++ '|' :: (r.sessionName.toList ++ '|' :: ((Nat.repr r.durationSecs).toList ++
        '|' :: r.endpoint.toList)) = s.roleArn.toList ++ '|' :: (s.sessionName.toList ++ '|' ::
          ((Nat.repr s.durationSecs).toList ++ '|' :: s.endpoint.toList)) := by
  have noBar : Config.awsTagChar '|' = false := by decide
  have noComma : Config.awsTagChar ',' = false := by decide
  have plain {c : Char} (other : Config.awsTagChar c = false) (sign : c ≠ '=') {r : CredentialRequest} (sound : r.Sound) :
      ∀ piece ∈ r.sortedTags.map tagText, c ∉ piece := by
    intro piece listed inside
    obtain ⟨tag, among, rfl⟩ := List.mem_map.mp listed
    obtain ⟨key, value⟩ := sound.tags tag (mem_sortedTags.mp among)
    rcases List.mem_append.mp inside with first | later
    · exact absurd (key c first) (by simp [other])
    · rcases List.mem_cons.mp later with equal | second
      · exact sign equal
      · exact absurd (value c second) (by simp [other])
  have filled {r : CredentialRequest} : ∀ piece ∈ r.sortedTags.map tagText, piece ≠ [] := by
    intro piece listed
    obtain ⟨tag, -, rfl⟩ := List.mem_map.mp listed
    simp [tagText]
  have text := congrArg String.toList same
  rw [cacheKey_toList, cacheKey_toList] at text
  obtain ⟨before, after⟩ := Records.split_last
    (Records.not_mem_intercalate (by decide) (plain noBar (by decide) sound))
    (Records.not_mem_intercalate (by decide) (plain noBar (by decide) soundToo)) text
  refine ⟨Records.intercalate_injective ?_ ?_ after, before⟩
  · exact fun piece listed => ⟨plain noComma (by decide) sound piece listed, filled piece listed⟩
  · exact fun piece listed => ⟨plain noComma (by decide) soundToo piece listed, filled piece listed⟩

/-- Two sound requests of one key are for one identity exactly when the bars of their roles and the equals signs of the
    keys of their tags are as many. -/
theorem sameIdentity_iff (sound : r.Sound) (soundToo : s.Sound) (same : r.cacheKey = s.cacheKey) :
    r.SameIdentity s ↔ r.roleBars = s.roleBars ∧ r.tagEquals = s.tagEquals := by
  constructor
  · intro identity
    rw [roleBars, roleBars, tagEquals, tagEquals, identity.roleArn, sortedTags_of_perm identity.tags]
    exact ⟨rfl, rfl⟩
  · rintro ⟨bars, signs⟩
    obtain ⟨texts, before⟩ := parts_of_cacheKey sound soundToo same
    have noBar {r : CredentialRequest} (sound : r.Sound) : '|' ∉ r.sessionName.toList :=
      fun inside => absurd (sound.sessionName '|' inside) (by decide)
    obtain ⟨role, rest⟩ := Records.split_of_count bars before
    obtain ⟨session, rest⟩ := Records.split_injective (noBar sound) (noBar soundToo) rest
    have digits (n : Nat) : '|' ∉ (Nat.repr n).toList := Text.not_mem_repr (by decide) n
    obtain ⟨duration, endpoint⟩ := Records.split_injective (digits _) (digits _) rest
    refine ⟨String.toList_inj.mp role, String.toList_inj.mp session, repr_injective (String.toList_inj.mp duration),
      String.toList_inj.mp endpoint, ?_⟩
    have sorted := eq_of_tagText texts signs
    have perm := (Sorting.sortBy_perm toLex r.tags).symm
    rw [← sortedTags, sorted] at perm
    exact perm.trans (Sorting.sortBy_perm toLex s.tags)

end CredentialRequest

/-- Two requests of an accepted config that have one key are for one identity exactly when their roles have equally many
    bars, and the keys of their sorted tags equally many equals signs. -/
theorem cacheKey_separates_iff (accepted : Config.configErrors lib cfg = []) (first : cfg.Asks r) (second : cfg.Asks s)
    (same : r.cacheKey = s.cacheKey) :
    r.SameIdentity s ↔ r.roleBars = s.roleBars ∧ r.tagEquals = s.tagEquals :=
  CredentialRequest.sameIdentity_iff (first.sound accepted) (second.sound accepted) same

end

/-! ### The cache -/

structure Credentials where
  accessKeyId : String
  secretAccessKey : String
  sessionToken : String
  expirationUnix : Nat

def refreshMarginSecs : Nat := 30

/-- The credentials that have been minted, each under its key. -/
structure CredentialCache where
  inner : Named Credentials

namespace CredentialCache

def new : CredentialCache := ⟨∅⟩

def get (cache : CredentialCache) (key : String) (nowUnix : Nat) : Option Credentials :=
  cache.inner[key]?.filter fun creds => nowUnix + refreshMarginSecs < creds.expirationUnix

def put (cache : CredentialCache) (key : String) (creds : Credentials) : CredentialCache := ⟨cache.inner.insert key creds⟩

/-- The cache after some exchanges, the last one last. -/
def minted (exchanges : List (CredentialRequest × Credentials)) : CredentialCache :=
  exchanges.foldl (fun cache (asked, creds) => cache.put asked.cacheKey creds) new

variable {Expr : Type} {lib : Config.Compilers Expr} {cfg : Config} {r : CredentialRequest} {creds : Credentials}

/-- What is held under a key has been minted for a request of the key. -/
theorem inner_minted (exchanges : List (CredentialRequest × Credentials)) {key : String}
    (held : (minted exchanges).inner[key]? = some creds) : ∃ asked, (asked, creds) ∈ exchanges ∧ asked.cacheKey = key := by
  induction exchanges using List.reverseRecOn with
  | nil => simp [minted, new] at held
  | append_singleton before exchange ih =>
    obtain ⟨asked, made⟩ := exchange
    have step : minted (before ++ [(asked, made)]) = (minted before).put asked.cacheKey made := by
      rw [minted, List.foldl_append]
      rfl
    rw [step, put, Std.TreeMap.getElem?_insert] at held
    split at held
    · rename_i own
      obtain rfl := Option.some.inj held
      exact ⟨asked, by simp, by simpa using own⟩
    · obtain ⟨other, listed, same⟩ := ih held
      exact ⟨other, List.mem_append_left _ listed, same⟩

/-- Credentials that are served have been minted for the identity that asks, where the roles and the tags of the requests
    of its key have as many separators. -/
theorem served_to_own (accepted : Config.configErrors lib cfg = []) {exchanges : List (CredentialRequest × Credentials)}
    (asked : ∀ exchange ∈ exchanges, cfg.Asks exchange.1) (asks : cfg.Asks r)
    (apart : ∀ exchange ∈ exchanges, exchange.1.cacheKey = r.cacheKey →
      exchange.1.roleBars = r.roleBars ∧ exchange.1.tagEquals = r.tagEquals) {nowUnix : Nat}
    (served : (minted exchanges).get r.cacheKey nowUnix = some creds) :
    ∃ own, (own, creds) ∈ exchanges ∧ own.SameIdentity r := by
  obtain ⟨held, -⟩ := Option.filter_eq_some_iff.mp served
  obtain ⟨own, listed, same⟩ := inner_minted exchanges held
  exact ⟨own, listed, (CredentialRequest.sameIdentity_iff ((asked _ listed).sound accepted) (asks.sound accepted) same).mpr
    (apart _ listed same)⟩

end CredentialCache

/-! ### Two tag sets of one key -/

/-- One role and one tag. -/
def taggedProvider (key value : String) : Config.Provider where
  kind := .bedrock
  upstream := ⟨"bedrock", 80⟩
  inject := none
  auth := none
  locations := none
  sts := some ⟨⟨"sts", 80⟩, .bare "arn:aws:iam::1:role/ml", .bare "gw", 900, [⟨key, some value, none⟩], none, none⟩

/-- Two providers whose tags have one text. -/
def taggedConfig : Config where
  providers := ((∅ : Named Config.Provider).insert "b" (taggedProvider "team=ml" "x")).insert "c"
    (taggedProvider "team" "ml=x")
  fleet := none
  projects := ∅
  routes := [gatedRoute]
  apps := none
  rejections := ⟨⟨400, "text", "", none⟩, ⟨404, "text", "", none⟩, none, none, none⟩
  jwt := none
  otlp := none
  webhook := none
  wasm := ⟨[], false⟩

def taggedRequest (key value : String) : CredentialRequest :=
  ⟨"arn:aws:iam::1:role/ml", "gw", 900, "sts:80", [(key, value)]⟩

theorem taggedConfig_asks :
    taggedConfig.Asks (taggedRequest "team=ml" "x") ∧ taggedConfig.Asks (taggedRequest "team" "ml=x") := by
  have first : taggedConfig.providers["b"]? = some (taggedProvider "team=ml" "x") := by
    rw [taggedConfig, Std.TreeMap.getElem?_insert, if_neg (by decide), Std.TreeMap.getElem?_insert_self]
  have second : taggedConfig.providers["c"]? = some (taggedProvider "team" "ml=x") := by simp [taggedConfig]
  exact ⟨@Config.Asks.session taggedConfig "b" _ _ [] _ _ _ first rfl (by decide +kernel) (by decide),
    @Config.Asks.session taggedConfig "c" _ _ [] _ _ _ second rfl (by decide +kernel) (by decide)⟩

/-- A request is for its own identity. -/
theorem tagged_request_alike :
    (taggedRequest "team" "ml=x").SameIdentity (taggedRequest "team" "ml=x") ↔
      (taggedRequest "team" "ml=x").roleBars = (taggedRequest "team" "ml=x").roleBars ∧
        (taggedRequest "team" "ml=x").tagEquals = (taggedRequest "team" "ml=x").tagEquals := by
  have accepted : Config.configErrors noExpressions taggedConfig = [] := by decide +kernel
  exact cacheKey_separates_iff accepted taggedConfig_asks.2 taggedConfig_asks.2 rfl

/-- The key of one tag set is that of another, and so they are not told apart. -/
theorem tag_sets_share_key :
    Config.configErrors noExpressions taggedConfig = [] ∧
      taggedConfig.Asks (taggedRequest "team=ml" "x") ∧ taggedConfig.Asks (taggedRequest "team" "ml=x") ∧
      (taggedRequest "team=ml" "x").cacheKey = (taggedRequest "team" "ml=x").cacheKey ∧
      ¬ (taggedRequest "team=ml" "x").SameIdentity (taggedRequest "team" "ml=x") := by
  have other : ¬ [("team=ml", "x")].Perm [("team", "ml=x")] := by decide
  exact ⟨by decide +kernel, taggedConfig_asks.1, taggedConfig_asks.2, by decide, fun same => other same.tags⟩

end SmallGateway
