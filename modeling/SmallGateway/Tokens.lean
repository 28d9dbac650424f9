import SmallGateway.AppSelection
import SmallGateway.Lib.Base64
import SmallGateway.SignedRequest

/-!
Signed tokens (`gateway-core/src/jwt.rs`) and the claims that a request proves by one (`verified_claims` in
`gatewayd/src/proxy_support.rs`). A token is accepted exactly when it is the compact form of a header that names the
algorithm, a payload that is an object and has not expired, and a signature of these two. So under an accepted config a
key that is mapped from a claim has the value that such a token says, and no other (`proven_value_iff`).
-/

namespace SmallGateway.Jwt

open Json (Value)

inductive JwtError where
  | malformed (what : String)
  | wrongAlg (alg : String)
  | badSignature
  | expired
  deriving DecidableEq

/-! ### Verification -/

/-- What is signed: the header and the payload as they are written. -/
def signingInput (headerB64 payloadB64 : List Char) : List UInt8 :=
  Text.utf8Bytes (String.ofList (headerB64 ++ '.' :: payloadB64))

def decodeB64 (what : String) (text : List Char) : Except JwtError (List UInt8) :=
  match Base64.decode Base64.urlSafe text with
  | some bytes => .ok bytes
  | none => .error (.malformed what)

section

variable (json : JsonText)

def decodeJson (text : List Char) (what : String) : Except JwtError Value := do
  let bytes ← decodeB64 what text
  (json.fromSlice bytes).mapError fun _ => .malformed what

/-- The algorithm is pinned before the signature is looked at. -/
def pinAlg (alg : String) (header : Value) : Except JwtError Unit :=
  match (header.get "alg").asStr with
  | some named => if named = alg then .ok () else .error (.wrongAlg named)
  | none => .error (.malformed "header has no alg")

/-- The time of expiry, where the claims have one that is an unsigned integer. -/
def expiry (claims : Claims) : Option Nat := (claims.lookup "exp").bind Value.asU64

def currentClaims (payload : Value) (nowUnix : Nat) : Except JwtError Claims :=
  match payload with
  | .object claims => if (expiry claims).any (· < nowUnix) then .error .expired else .ok claims
  | _ => .error (.malformed "payload is not a JSON object")

/-- The verification of a token of one algorithm. The signature is judged by the header and what is signed. -/
def verify (alg : String) (check : Value → List UInt8 → List UInt8 → Except JwtError Unit) (token : String)
    (nowUnix : Nat) : Except JwtError Claims :=
  match token.toList.splitOn '.' with
  | [headerB64, payloadB64, sigB64] => do
    let header ← decodeJson json headerB64 "header"
    pinAlg alg header
    let sig ← decodeB64 "signature is not base64url" sigB64
    check header (signingInput headerB64 payloadB64) sig
    let payload ← decodeJson json payloadB64 "payload"
    currentClaims payload nowUnix
  | _ => .error (.malformed "expected three dot-separated parts")

/-- The signature is the keyed hash, in full. -/
def checkHmac (secret : List UInt8) (_header : Value) (message sig : List UInt8) : Except JwtError Unit :=
  if sig = Sha256.hmac secret message then .ok () else .error .badSignature

def verifyHs256 (token : String) (secret : List UInt8) (nowUnix : Nat) : Except JwtError Claims :=
  verify json "HS256" (checkHmac secret) token nowUnix

def hs256Header : List UInt8 := Text.utf8Bytes "\x7b\"alg\":\"HS256\",\"typ\":\"JWT\"\x7d"

def signHs256 (claims : Claims) (secret : List UInt8) : String :=
  let header := Base64.encode Base64.urlSafe hs256Header
  let payload := Base64.encode Base64.urlSafe (json.toVec (.object claims))
  let sig := Base64.encode Base64.urlSafe (Sha256.hmac secret (signingInput header payload))
  String.ofList (header ++ '.' :: (payload ++ '.' :: sig))

end

/-! ### Key sets -/

/-- The library for RSA: keys from a modulus and an exponent, and signatures over the hash of a message. -/
structure Rsa (Key Signature : Type) where
  new : Nat → Nat → Except String Key
  signature : List UInt8 → Option Signature
  verify : Key → List UInt8 → Signature → Bool

/-- The keys of an identity provider, with their names. There is one. -/
structure Jwks (Key : Type) where
  keys : List (Option String × Key)
  filled : keys ≠ []

section

variable {Key Signature : Type}

namespace Jwks

def keyText (index : Nat) (field : String) (entry : Value) : Except String String :=
  match (entry.get field).asStr with
  | some text => .ok text
  | none => .error ("jwks key " ++ toString index ++ ": no \"" ++ field ++ "\"")

def keyBytes (index : Nat) (field text : String) : Except String (List UInt8) :=
  match Base64.decode Base64.urlSafe text.toList with
  | some bytes => .ok bytes
  | none => .error ("jwks key " ++ toString index ++ ": \"" ++ field ++ "\" is not base64url")

def parseKey (rsa : Rsa Key Signature) (index : Nat) (entry : Value) : Except String (Option String × Key) := do
  let n ← keyText index "n" entry
  let e ← keyText index "e" entry
  let n ← keyBytes index "n" n
  let e ← keyBytes index "e" e
  let key ← (rsa.new (BigEndian.decode n) (BigEndian.decode e)).mapError fun err =>
    "jwks key " ++ toString index ++ ": invalid RSA key: " ++ err
  .ok ((entry.get "kid").asStr, key)

/-- The entries that are for RSA, with their places. -/
def rsaEntries (entries : List Value) : List (Value × Nat) :=
  entries.zipIdx.filter fun entry => (entry.1.get "kty").asStr == some "RSA"

def entriesOf (document : Value) : Except String (List Value) :=
  match document.get "keys" with
  | .array entries => .ok entries
  | _ => .error "jwks has no \"keys\" array"

def parse (json : JsonText) (rsa : Rsa Key Signature) (text : String) : Except String (Jwks Key) := do
  let document ← (json.fromStr text).mapError fun err => "jwks is not JSON: " ++ err
  let entries ← entriesOf document
  let keys ← (rsaEntries entries).mapM fun entry => parseKey rsa entry.2 entry.1
  if filled : keys ≠ [] then .ok ⟨keys, filled⟩ else .error "jwks contains no usable RSA keys"

/-- The keys of the name, or all of them when no key has it. -/
def candidates (jwks : Jwks Key) (kid : Option String) : List Key :=
  let matched := jwks.keys.filter fun key => kid.isSome && key.1 == kid
  (if matched.isEmpty then jwks.keys else matched).map (·.2)

end Jwks

def checkRsa (rsa : Rsa Key Signature) (jwks : Jwks Key) (header : Value) (message sig : List UInt8) :
    Except JwtError Unit :=
  match rsa.signature sig with
  | none => .error (.malformed "signature is not an RSA signature")
  | some sig =>
    if (jwks.candidates (header.get "kid").asStr).any (rsa.verify · message sig) then .ok () else .error .badSignature

def verifyRs256 (json : JsonText) (rsa : Rsa Key Signature) (token : String) (jwks : Jwks Key) (nowUnix : Nat) :
    Except JwtError Claims :=
  verify json "RS256" (checkRsa rsa jwks) token nowUnix

end

/-! ### Requests -/

/-- The token of a header value. -/
def bearer (raw : String) : Option String :=
  ((raw.toList.dropPrefix? "Bearer ".toList).or (raw.toList.dropPrefix? "bearer ".toList)).map fun token =>
    Text.trim (String.ofList token)

/-- The token that a request brings under the header that the config names. -/
def bearerToken (auth : Config.JwtAuth) (head : RequestHead) : Option String :=
  ((head.headers.lookup auth.header.toLower).bind headerText).bind bearer

section

variable {Key Signature : Type} (json : JsonText) (rsa : Rsa Key Signature)

/-- The key set of a config, read when the config is loaded. -/
def compiledJwks (auth : Config.JwtAuth) : Option (Jwks Key) :=
  auth.jwks.bind fun text => (Jwks.parse json rsa text).toOption

def verifiedClaims (cfg : Config) (head : RequestHead) (nowUnix : Nat) : Option Claims :=
  cfg.jwt.bind fun auth =>
    (bearerToken auth head).bind fun token =>
      match auth.hs256Secret, compiledJwks json rsa auth with
      | some secret, _ => (verifyHs256 json token (Text.utf8Bytes secret) nowUnix).toOption
      | none, some jwks => (verifyRs256 json rsa token jwks nowUnix).toOption
      | none, none => none

/-- The loading of a config with this reading of key sets. -/
def compilers {Expr : Type} (compile : String → Config.ExprKind → Except String Expr) : Config.Compilers Expr where
  compile := compile
  parseJwks text := (Jwks.parse json rsa text).map fun _ => ()

end

/-! ### The compact form -/

/-- A signed token before it is written: the bytes of its parts. -/
structure Jws where
  header : List UInt8
  payload : List UInt8
  signature : List UInt8

namespace Jws

def input (jws : Jws) : List UInt8 :=
  signingInput (Base64.encode Base64.urlSafe jws.header) (Base64.encode Base64.urlSafe jws.payload)

def compact (jws : Jws) : List Char :=
  Base64.encode Base64.urlSafe jws.header ++
    '.' :: (Base64.encode Base64.urlSafe jws.payload ++ '.' :: Base64.encode Base64.urlSafe jws.signature)

/-- The header names the algorithm, and the payload holds the claims, which have not expired. -/
structure Carries (jws : Jws) (json : JsonText) (alg : String) (header : Value) (claims : Claims) (nowUnix : Nat) :
    Prop where
  reads : json.fromSlice jws.header = .ok header
  named : (header.get "alg").asStr = some alg
  holds : json.fromSlice jws.payload = .ok (.object claims)
  current : ∀ exp, expiry claims = some exp → nowUnix ≤ exp

end Jws

theorem dot_not_mem (bytes : List UInt8) : '.' ∉ Base64.encode Base64.urlSafe bytes := by
  intro inside
  have listed := Base64.encode_mem bytes '.' inside
  revert listed
  decide

/-- A token falls into its parts. -/
theorem splitOn_compact (jws : Jws) : jws.compact.splitOn '.' =
    [Base64.encode Base64.urlSafe jws.header, Base64.encode Base64.urlSafe jws.payload,
      Base64.encode Base64.urlSafe jws.signature] := by
  have joined : ['.'].intercalate [Base64.encode Base64.urlSafe jws.header, Base64.encode Base64.urlSafe jws.payload,
      Base64.encode Base64.urlSafe jws.signature] = jws.compact := by
    simp [Jws.compact, List.intercalate]
  rw [← joined]
  refine List.splitOn_intercalate '.' (fun part listed => ?_) (by simp)
  simp only [List.mem_cons, List.not_mem_nil, or_false] at listed
  rcases listed with rfl | rfl | rfl
  · exact dot_not_mem jws.header
  · exact dot_not_mem jws.payload
  · exact dot_not_mem jws.signature

theorem eq_of_splitOn {text first second third : List Char} (parts : text.splitOn '.' = [first, second, third]) :
    text = first ++ '.' :: (second ++ '.' :: third) := by
  have joined : ['.'].intercalate (text.splitOn '.') = text := List.intercalate_splitOn '.'
  rw [parts] at joined
  rw [← joined]
  simp [List.intercalate]

/-! ### What is accepted -/

section

variable {json : JsonText}

theorem decodeB64_ok {what : String} {text : List Char} {bytes : List UInt8} :
    decodeB64 what text = .ok bytes ↔ text = Base64.encode Base64.urlSafe bytes := by
  rw [← Base64.decode_eq_some_iff, decodeB64]
  cases Base64.decode Base64.urlSafe text with
  | none => simp
  | some found => simp

theorem decodeJson_ok {text : List Char} {what : String} {value : Value} :
    decodeJson json text what = .ok value ↔
      ∃ bytes, text = Base64.encode Base64.urlSafe bytes ∧ json.fromSlice bytes = .ok value := by
  simp only [decodeJson, Fallible.bind_ok, decodeB64_ok, Fallible.mapError_ok]

theorem pinAlg_ok {alg : String} {header : Value} :
    pinAlg alg header = .ok () ↔ (header.get "alg").asStr = some alg := by
  rw [pinAlg]
  cases (header.get "alg").asStr with
  | none => simp
  | some named => simp

theorem currentClaims_ok {payload : Value} {nowUnix : Nat} {claims : Claims} :
    currentClaims payload nowUnix = .ok claims ↔
      payload = .object claims ∧ ∀ exp, expiry claims = some exp → nowUnix ≤ exp := by
  cases payload with
  | object found =>
    have fresh : (expiry found).any (· < nowUnix) = false ↔ ∀ exp, expiry found = some exp → nowUnix ≤ exp := by
      cases expiry found with
      | none => simp
      | some exp => simp
    rw [currentClaims, ← Bool.not_eq_true] at *
    by_cases late : (expiry found).any (· < nowUnix) = true
    · rw [if_pos late]
      constructor
      · intro found
        cases found
      · rintro ⟨same, current⟩
        obtain rfl := Value.object.inj same
        exact absurd late (fresh.mpr current)
    · rw [if_neg late]
      constructor
      · intro same
        obtain rfl := Except.ok.inj same
        exact ⟨rfl, fresh.mp late⟩
      · rintro ⟨same, -⟩
        rw [Value.object.inj same]
  | _ => simp [currentClaims]

/-- A token is accepted exactly when it is the compact form of a header, a payload and a signature that pass. -/
theorem verify_ok_iff {alg : String} {check : Value → List UInt8 → List UInt8 → Except JwtError Unit} {token : String}
    {nowUnix : Nat} {claims : Claims} :
    verify json alg check token nowUnix = .ok claims ↔
      ∃ (jws : Jws) (header : Value), token.toList = jws.compact ∧ jws.Carries json alg header claims nowUnix ∧
        check header jws.input jws.signature = .ok () := by
  constructor
  · intro accepted
    unfold verify at accepted
    split at accepted
    · rename_i headerB64 payloadB64 sigB64 parts
      simp only [Fallible.bind_ok, decodeJson_ok, decodeB64_ok] at accepted
      obtain ⟨header, ⟨headerBytes, rfl, readsHeader⟩, _, pinned, sig, rfl, _, signed, payload,
        ⟨payloadBytes, rfl, readsPayload⟩, current⟩ := accepted
      obtain ⟨rfl, fresh⟩ := currentClaims_ok.mp current
      exact ⟨⟨headerBytes, payloadBytes, sig⟩, header, eq_of_splitOn parts,
        ⟨readsHeader, pinAlg_ok.mp pinned, readsPayload, fresh⟩, signed⟩
    · cases accepted
  · rintro ⟨jws, header, written, carries, signed⟩
    unfold verify
    rw [written, splitOn_compact]
    simp only [Fallible.bind_ok, decodeJson_ok, decodeB64_ok]
    exact ⟨header, ⟨jws.header, rfl, carries.reads⟩, (), pinAlg_ok.mpr carries.named, jws.signature, rfl, (), signed,
      .object claims, ⟨jws.payload, rfl, carries.holds⟩, currentClaims_ok.mpr ⟨rfl, carries.current⟩⟩

end

/-! ### Shared secrets -/

section

variable (json : JsonText)

/-- With a shared secret a token is accepted exactly when its signature is the keyed hash of its own header and payload,
    so under one secret these two have no second token. -/
theorem verifyHs256_ok_iff (token : String) (secret : List UInt8) (nowUnix : Nat) (claims : Claims) :
    verifyHs256 json token secret nowUnix = .ok claims ↔
      ∃ (jws : Jws) (header : Value), token.toList = jws.compact ∧ jws.Carries json "HS256" header claims nowUnix ∧
        jws.signature = Sha256.hmac secret jws.input := by
  rw [verifyHs256, verify_ok_iff]
  simp only [checkHmac, ite_eq_left_iff, reduceCtorEq, imp_false, not_not]

/-- The token that is minted for claims. -/
def minted (claims : Claims) (secret : List UInt8) : Jws :=
  let header := hs256Header
  let payload := json.toVec (.object claims)
  ⟨header, payload, Sha256.hmac secret (Jws.input ⟨header, payload, []⟩)⟩

theorem minted_signature (claims : Claims) (secret : List UInt8) :
    (minted json claims secret).signature = Sha256.hmac secret (minted json claims secret).input := rfl

theorem signHs256_toList (claims : Claims) (secret : List UInt8) :
    (signHs256 json claims secret).toList = (minted json claims secret).compact := String.toList_ofList

theorem compact_injective {jws other : Jws} (same : jws.compact = other.compact) : jws = other := by
  have parts := congrArg (List.splitOn '.') same
  rw [splitOn_compact, splitOn_compact] at parts
  simp only [List.cons.injEq, and_true, Base64.encode_injective.eq_iff] at parts
  obtain ⟨header, payload, signature⟩ := parts
  cases jws
  cases other
  simp_all

/-- What is minted under one secret is accepted under another exactly when the two sign it alike and it has not expired,
    and then for the claims that it was minted for. -/
theorem verify_sign_iff {header : Value} (readsHeader : json.fromSlice hs256Header = .ok header)
    (named : (header.get "alg").asStr = some "HS256") {claims : Claims}
    (readsBack : json.fromSlice (json.toVec (.object claims)) = .ok (.object claims)) (secret other : List UInt8)
    (nowUnix : Nat) (found : Claims) :
    verifyHs256 json (signHs256 json claims secret) other nowUnix = .ok found ↔
      found = claims ∧ (∀ exp, expiry claims = some exp → nowUnix ≤ exp) ∧
        Sha256.hmac secret (minted json claims secret).input = Sha256.hmac other (minted json claims secret).input := by
  rw [verifyHs256, verify_ok_iff, signHs256_toList]
  simp only [checkHmac, ite_eq_left_iff, reduceCtorEq, imp_false, not_not]
  constructor
  · rintro ⟨jws, read, written, carries, signed⟩
    obtain rfl := compact_injective written
    have same := carries.holds.symm.trans readsBack
    obtain rfl := Value.object.inj (Except.ok.inj same)
    exact ⟨rfl, carries.current, signed⟩
  · rintro ⟨rfl, current, signed⟩
    exact ⟨minted json found secret, header, rfl, ⟨readsHeader, named, readsBack, current⟩, signed⟩

end

/-! ### Key sets -/

section

variable {Key Signature : Type} {json : JsonText} {rsa : Rsa Key Signature}

namespace Jwks

/-- A key that a token of the name may be signed with: one of the name, or any when no key has it. -/
def Offers (jwks : Jwks Key) (kid : Option String) (key : Key) : Prop :=
  (∃ name, kid = some name ∧ (some name, key) ∈ jwks.keys) ∨
    (∀ name other, kid = some name → (some name, other) ∉ jwks.keys) ∧ ∃ name, (name, key) ∈ jwks.keys

/-- The entry is for RSA, and the key is made of its modulus and its exponent. -/
structure IsKey (rsa : Rsa Key Signature) (entry : Value) (key : Option String × Key) : Prop where
  name : key.1 = (entry.get "kid").asStr
  numbers : ∃ n e : List UInt8,
    entry.get "n" = .string (String.ofList (Base64.encode Base64.urlSafe n)) ∧
      entry.get "e" = .string (String.ofList (Base64.encode Base64.urlSafe e)) ∧
        rsa.new (BigEndian.decode n) (BigEndian.decode e) = .ok key.2

theorem mem_candidates {jwks : Jwks Key} {kid : Option String} {key : Key} :
    key ∈ jwks.candidates kid ↔ jwks.Offers kid key := by
  have listed (entry : Option String × Key) :
      entry ∈ jwks.keys.filter (fun key => kid.isSome && key.1 == kid) ↔
        entry ∈ jwks.keys ∧ kid.isSome ∧ entry.1 = kid := by
    rw [List.mem_filter, Bool.and_eq_true, beq_iff_eq]
  have none_iff : jwks.keys.filter (fun key => kid.isSome && key.1 == kid) = [] ↔
      ∀ name other, kid = some name → (some name, other) ∉ jwks.keys := by
    constructor
    · rintro none name other rfl inside
      have among := (listed (some name, other)).mpr ⟨inside, rfl, rfl⟩
      rw [none] at among
      cases among
    · intro absent
      refine List.eq_nil_iff_forall_not_mem.mpr fun entry among => ?_
      obtain ⟨inside, isSome, same⟩ := (listed entry).mp among
      obtain ⟨name, known⟩ := Option.isSome_iff_exists.mp isSome
      exact absent name entry.2 known (by rw [← known, ← same]; exact inside)
  rw [candidates, Offers, ← none_iff]
  by_cases none : jwks.keys.filter (fun key => kid.isSome && key.1 == kid) = []
  · have unnamed : ¬ ∃ name, kid = some name ∧ (some name, key) ∈ jwks.keys := by
      rintro ⟨name, known, inside⟩
      exact none_iff.mp none name key known inside
    simp [none, unnamed]
  · simp only [List.isEmpty_iff, none, if_false, false_and, or_false, List.mem_map, listed, Prod.exists]
    constructor
    · rintro ⟨name, held, ⟨inside, isSome, same⟩, rfl⟩
      obtain ⟨wanted, known⟩ := Option.isSome_iff_exists.mp isSome
      exact ⟨wanted, known, by rw [← known, ← same]; exact inside⟩
    · rintro ⟨name, rfl, inside⟩
      exact ⟨some name, key, ⟨inside, rfl, rfl⟩, rfl⟩

theorem keyText_ok {index : Nat} {field text : String} {entry : Value} :
    keyText index field entry = .ok text ↔ entry.get field = .string text := by
  rw [keyText]
  cases entry.get field <;> simp [Value.asStr]

theorem keyBytes_ok {index : Nat} {field text : String} {bytes : List UInt8} :
    keyBytes index field text = .ok bytes ↔ text = String.ofList (Base64.encode Base64.urlSafe bytes) := by
  have written : text.toList = Base64.encode Base64.urlSafe bytes ↔
      text = String.ofList (Base64.encode Base64.urlSafe bytes) := by
    rw [← String.toList_inj, String.toList_ofList]
  rw [← written, ← Base64.decode_eq_some_iff, keyBytes]
  cases Base64.decode Base64.urlSafe text.toList with
  | none => simp
  | some found => simp

theorem parseKey_ok {index : Nat} {entry : Value} {key : Option String × Key} :
    parseKey rsa index entry = .ok key ↔ IsKey rsa entry key := by
  simp only [parseKey, Fallible.bind_ok, keyText_ok, keyBytes_ok, Fallible.mapError_ok]
  constructor
  · rintro ⟨_, hasN, _, hasE, n, rfl, e, rfl, made, new, same⟩
    obtain rfl := Except.ok.inj same
    exact ⟨rfl, n, e, hasN, hasE, new⟩
  · rintro ⟨name, n, e, hasN, hasE, new⟩
    exact ⟨_, hasN, _, hasE, n, rfl, e, rfl, key.2, new, by rw [← name]⟩

theorem entriesOf_ok {document : Value} {entries : List Value} :
    entriesOf document = .ok entries ↔ document.get "keys" = .array entries := by
  rw [entriesOf]
  cases document.get "keys" <;> simp

/-- The keys of a document are those of its entries for RSA, in their order, of which there has to be one. -/
theorem parse_ok_iff {text : String} {jwks : Jwks Key} :
    parse json rsa text = .ok jwks ↔
      ∃ document entries, json.fromStr text = .ok document ∧ document.get "keys" = .array entries ∧
        List.Forall₂ (fun entry key => IsKey rsa entry.1 key) (rsaEntries entries) jwks.keys := by
  simp only [parse, Fallible.bind_ok, Fallible.mapError_ok, entriesOf_ok]
  constructor
  · rintro ⟨document, reads, entries, listed, keys, mapped, made⟩
    split at made
    · obtain rfl := Except.ok.inj made
      exact ⟨document, entries, reads, listed, (Fallible.forall₂_of_mapM_ok mapped).imp fun _ _ => parseKey_ok.mp⟩
    · cases made
  · rintro ⟨document, entries, reads, listed, each⟩
    refine ⟨document, reads, entries, listed, jwks.keys, Fallible.mapM_ok_of_forall₂ ?_, dif_pos jwks.filled⟩
    exact each.imp fun _ _ => parseKey_ok.mpr

end Jwks

/-- With a key set a token is accepted exactly when a key that the set offers to its name verifies its signature. -/
theorem verifyRs256_ok_iff (json : JsonText) (rsa : Rsa Key Signature) (token : String) (jwks : Jwks Key)
    (nowUnix : Nat) (claims : Claims) :
    verifyRs256 json rsa token jwks nowUnix = .ok claims ↔
      ∃ (jws : Jws) (header : Value), token.toList = jws.compact ∧ jws.Carries json "RS256" header claims nowUnix ∧
        ∃ key sig, jwks.Offers (header.get "kid").asStr key ∧ rsa.signature jws.signature = some sig ∧
          rsa.verify key jws.input sig = true := by
  have signed (jws : Jws) (header : Value) : checkRsa rsa jwks header jws.input jws.signature = .ok () ↔
      ∃ key sig, jwks.Offers (header.get "kid").asStr key ∧ rsa.signature jws.signature = some sig ∧
        rsa.verify key jws.input sig = true := by
    rw [checkRsa]
    cases rsa.signature jws.signature with
    | none => simp
    | some sig => simp [Jwks.mem_candidates]
  rw [verifyRs256, verify_ok_iff]
  simp only [signed]

/-! ### What a request proves -/

/-- What vouches for the claims of a token under a config: its one secret, or a key of its one key set. -/
inductive Vouched (json : JsonText) (rsa : Rsa Key Signature) (auth : Config.JwtAuth) (nowUnix : Nat) (token : String)
    (claims : Claims) : Prop
  | secret (secret : String) (jws : Jws) (header : Value) (configured : auth.hs256Secret = some secret)
      (only : auth.jwks = none) (filled : secret ≠ "") (written : token.toList = jws.compact)
      (carries : jws.Carries json "HS256" header claims nowUnix)
      (signed : jws.signature = Sha256.hmac (Text.utf8Bytes secret) jws.input)
  | key (text : String) (jwks : Jwks Key) (jws : Jws) (header : Value) (key : Key) (sig : Signature)
      (configured : auth.jwks = some text) (only : auth.hs256Secret = none)
      (parses : Jwks.parse json rsa text = .ok jwks)
      (written : token.toList = jws.compact) (carries : jws.Carries json "RS256" header claims nowUnix)
      (offered : jwks.Offers (header.get "kid").asStr key) (reads : rsa.signature jws.signature = some sig)
      (signed : rsa.verify key jws.input sig = true)

variable {Expr : Type} {compile : String → Config.ExprKind → Except String Expr} {cfg : Config}

/-- An accepted config verifies in one way: by a secret that is not empty, or by a key set that is read. -/
theorem accepted_jwt (accepted : Config.configErrors (compilers json rsa compile) cfg = []) {auth : Config.JwtAuth}
    (configured : cfg.jwt = some auth) :
    (∃ secret, auth.hs256Secret = some secret ∧ auth.jwks = none ∧ secret ≠ "") ∨
      ∃ text jwks, auth.hs256Secret = none ∧ auth.jwks = some text ∧ Jwks.parse json rsa text = .ok jwks := by
  have own : Config.validateAuth (compilers json rsa compile).parseJwks cfg = [] := by
    simp only [Config.configErrors, List.append_eq_nil_iff] at accepted
    exact accepted.1.1.1.1.1.1.1.2
  simp only [Config.validateAuth, configured, List.append_eq_nil_iff] at own
  have verifier := own.1
  cases shared : auth.hs256Secret with
  | some secret =>
    cases set : auth.jwks with
    | some text => simp [shared, set] at verifier
    | none =>
      simp only [shared, set, Config.refuseIf_nil] at verifier
      refine .inl ⟨secret, rfl, rfl, ?_⟩
      rintro rfl
      cases verifier
  | none =>
    cases set : auth.jwks with
    | none => simp [shared, set] at verifier
    | some text =>
      cases parsed : Jwks.parse json rsa text with
      | ok keys => exact .inr ⟨text, keys, rfl, rfl, parsed⟩
      | error err => simp [shared, set, compilers, parsed, Config.refused, Except.map] at verifier

/-- Under an accepted config a request has the claims of a token that it brings and that is vouched for, no others. -/
theorem verifiedClaims_iff (accepted : Config.configErrors (compilers json rsa compile) cfg = []) (head : RequestHead)
    (nowUnix : Nat) (claims : Claims) :
    verifiedClaims json rsa cfg head nowUnix = some claims ↔
      ∃ auth token, cfg.jwt = some auth ∧ bearerToken auth head = some token ∧
        Vouched json rsa auth nowUnix token claims := by
  have toOption_iff (result : Except JwtError Claims) : result.toOption = some claims ↔ result = .ok claims := by
    cases result <;> simp [Except.toOption]
  simp only [verifiedClaims, Option.bind_eq_some_iff]
  refine exists_congr fun auth => ?_
  rw [exists_and_left]
  refine and_congr_right fun configured => exists_congr fun token => and_congr_right fun _ => ?_
  rcases accepted_jwt accepted configured with ⟨secret, known, only, filled⟩ | ⟨text, jwks, only, known, parses⟩
  · simp only [known, toOption_iff, verifyHs256_ok_iff]
    constructor
    · rintro ⟨jws, header, written, carries, signed⟩
      exact .secret secret jws header known only filled written carries signed
    · rintro (⟨found, jws, header, configured, -, -, written, carries, signed⟩ | ⟨text, _, _, _, _, _, configured⟩)
      · obtain rfl := Option.some.inj (known.symm.trans configured)
        exact ⟨jws, header, written, carries, signed⟩
      · cases only.symm.trans configured
  · have compiled : compiledJwks json rsa auth = some jwks := by
      rw [compiledJwks, known, Option.bind_some, parses]
      rfl
    simp only [only, compiled, toOption_iff, verifyRs256_ok_iff]
    constructor
    · rintro ⟨jws, header, written, carries, key, sig, offered, reads, signed⟩
      exact .key text jwks jws header key sig known only parses written carries offered reads signed
    · rintro (⟨found, jws, header, configured⟩ |
        ⟨found, keys, jws, header, key, sig, configured, -, parsed, written, carries, offered, reads, signed⟩)
      · cases only.symm.trans configured
      · obtain rfl := Option.some.inj (known.symm.trans configured)
        obtain rfl := Except.ok.inj (parses.symm.trans parsed)
        exact ⟨jws, header, written, carries, key, sig, offered, reads, signed⟩

end

section

open Config (EffectivePolicy CompiledRoute OneOrigin)
open Attribution (resolveKey resolvePolicy resolve_tagFor resolveWithAppScope_serves attributed)

variable {Expr : Type} {json : JsonText} {eval : Evaluator Expr} {policy : EffectivePolicy Expr} {caller : Named String}
  {claims : Option Claims} {ctx : EvalCtx} {key : String}

/-- A key that is mapped from a claim resolves to what the claims say under its name. -/
theorem resolvePolicy_claim (origins : OneOrigin policy) {name : String}
    (mapped : policy.fromClaims[key]? = some name) :
    tagFor (resolvePolicy json eval policy caller claims ctx).tags key =
      ((claims.bind (·.lookup name)).bind (Attribution.claimString json)).map (⟨key, ·, .proven⟩) := by
  have claimed : key ∈ policy.fromClaims := by
    rw [Std.TreeMap.mem_iff_isSome_getElem?, mapped]
    rfl
  have unpinned : policy.pinned[key]? = none := by
    refine Std.TreeMap.getElem?_eq_none fun pinned =>
      origins.pinned_claims (Std.TreeMap.mem_keys.mpr pinned) (Std.TreeMap.mem_keys.mpr claimed)
  have inside : key ∈ policy.keyUniverse := by
    refine Config.mem_keyUniverse.mpr (.inr ?_)
    simp [EffectivePolicy.established, Std.TreeMap.contains_iff_mem.mpr claimed]
  rw [resolvePolicy, resolve_tagFor, if_pos inside, resolveKey, unpinned, mapped]

/-- A proven tag is of a key that is mapped from a claim. -/
theorem resolvePolicy_proven {tag : Tag} (inside : tag ∈ (resolvePolicy json eval policy caller claims ctx).tags)
    (proven : tag.origin = .proven) : tag.key ∈ policy.fromClaims := by
  obtain ⟨key, -, resolved⟩ := List.mem_filterMap.mp inside
  have same := Attribution.resolveKey_key resolved
  unfold resolveKey at resolved
  split at resolved
  · obtain rfl := Option.some.inj resolved
    cases proven
  · split at resolved
    · rename_i mapped
      rw [same, Std.TreeMap.mem_iff_isSome_getElem?, mapped]
      rfl
    · split at resolved
      all_goals
        obtain ⟨_, -, rfl⟩ := Option.map_eq_some_iff.mp resolved
        cases proven

end

section

open Attribution (attributed)

/-- Under an accepted config, a key of the policy that a request is held to which is mapped from a claim has a value
    exactly when the request brings a token that is vouched for and has not expired, and then the one that the token
    says. No other key is proven. -/
theorem proven_value_iff {Expr Key Signature : Type} (json : JsonText) (rsa : Rsa Key Signature)
    (compile : String → Config.ExprKind → Except String Expr) (eval : Evaluator Expr) (cfg : Config)
    (finalized : Config.Finalized Expr) (accepted : Config.finalize (compilers json rsa compile) cfg = .ok finalized)
    (route : Config.Route) (compiled : Config.CompiledRoute Expr) (listed : (route, compiled) ∈ finalized.routes)
    (head : RequestHead) (path : String) (nowUnix : Nat) :
    let held := attributed json eval compiled cfg.apps head path (verifiedClaims json rsa cfg head nowUnix)
    (∀ key name value, held.1.fromClaims[key]? = some name →
        (held.2.value key = some value ↔
          ∃ auth token claims claim, cfg.jwt = some auth ∧ bearerToken auth head = some token ∧
            Vouched json rsa auth nowUnix token claims ∧ claims.lookup name = some claim ∧
              Attribution.claimString json claim = some value)) ∧
      ∀ tag ∈ held.2.tags, tag.origin = .proven → tag.key ∈ held.1.fromClaims := by
  intro held
  obtain ⟨serves, resolved⟩ : compiled.Serves held.1 ∧ held.2 = Attribution.resolvePolicy json eval held.1
      (callerAttrs head compiled.effective.headers) (verifiedClaims json rsa cfg head nowUnix)
      (evalCtx head path (verifiedClaims json rsa cfg head nowUnix)) :=
    Attribution.resolveWithAppScope_serves json eval compiled cfg.apps _ _ _
  obtain ⟨chain, ctx, -, composed, clean⟩ := Config.accepted_composed accepted listed serves
  have origins : Config.OneOrigin held.1 := composed ▸ Config.compose_one_origin clean
  refine ⟨fun key name value mapped => ?_, fun tag inside proven => ?_⟩
  · have none := (Config.finalize_ok accepted).1
    rw [Attribution.Resolution.value, resolved, resolvePolicy_claim origins mapped, Option.map_map]
    simp only [Function.comp_def, Option.map_eq_some_iff, Option.bind_eq_some_iff, verifiedClaims_iff none,
      exists_eq_right]
    constructor
    · rintro ⟨claim, ⟨claims, ⟨auth, token, configured, brings, vouched⟩, said⟩, read⟩
      exact ⟨auth, token, claims, claim, configured, brings, vouched, said, read⟩
    · rintro ⟨auth, token, claims, claim, configured, brings, vouched, said, read⟩
      exact ⟨claim, ⟨claims, ⟨auth, token, configured, brings, vouched⟩, said⟩, read⟩
  · rw [resolved] at inside
    exact resolvePolicy_proven inside proven

end

/-! ### A request with a token -/

/-- A text that is visible ASCII is read back from the bytes of a header value. -/
theorem headerText_visible {text : String} (visible : ∀ c ∈ text.toList, 32 ≤ c.toNat ∧ c.toNat < 127) :
    headerText (Text.utf8Bytes text) = some text := by
  have bytes : Text.utf8Bytes text = text.toList.map fun c => UInt8.ofNat c.toNat := by
    rw [Text.utf8Bytes, List.map_eq_flatMap]
    refine List.flatMap_congr fun c inside => ?_
    rw [Text.utf8Encode, if_pos (by have := visible c inside; omega)]
  have inRange : (Text.utf8Bytes text).all (fun byte => (32 ≤ byte && byte < 127) || byte == 9) = true := by
    rw [bytes, List.all_map, List.all_eq_true]
    intro c inside
    obtain ⟨low, high⟩ := visible c inside
    have small : (UInt8.ofNat c.toNat).toNat = c.toNat := UInt8.toNat_ofNat_of_lt' (by show c.toNat < 256; omega)
    simp [UInt8.le_iff_toNat_le, UInt8.lt_iff_toNat_lt, small, low, high]
  rw [headerText, if_pos inRange, bytes, List.map_map]
  have back : text.toList.map (fun c => Char.ofNat (UInt8.ofNat c.toNat).toNat) = text.toList := by
    refine (List.map_congr_left fun c inside => ?_).trans (List.map_id _)
    obtain ⟨low, high⟩ := visible c inside
    have small : (UInt8.ofNat c.toNat).toNat = c.toNat := UInt8.toNat_ofNat_of_lt' (by show c.toNat < 256; omega)
    rw [small, Char.ofNat_toNat]
    rfl
  rw [Function.comp_def, back, String.ofList_toList]

theorem compact_mem (jws : Jws) : ∀ c ∈ jws.compact, c ∈ '.' :: Base64.urlSafe.symbols := by
  intro c inside
  have part (bytes : List UInt8) (listed : c ∈ Base64.encode Base64.urlSafe bytes) :
      c ∈ '.' :: Base64.urlSafe.symbols := List.mem_cons_of_mem _ (Base64.encode_mem bytes c listed)
  simp only [Jws.compact, List.mem_append, List.mem_cons] at inside
  rcases inside with header | rfl | payload | rfl | signature
  · exact part jws.header header
  · exact List.mem_cons_self
  · exact part jws.payload payload
  · exact List.mem_cons_self
  · exact part jws.signature signature

def isVisible (c : Char) : Bool := 32 ≤ c.toNat && c.toNat < 127

theorem isVisible_iff {c : Char} : isVisible c = true ↔ 32 ≤ c.toNat ∧ c.toNat < 127 := by
  simp [isVisible]

theorem symbol_plain : ∀ c ∈ '.' :: Base64.urlSafe.symbols, isVisible c = true ∧ Text.isWhitespace c = false := by
  have all : ('.' :: Base64.urlSafe.symbols).all (fun c => isVisible c && !Text.isWhitespace c) = true := by decide
  intro c inside
  have plain := List.all_eq_true.mp all c inside
  rwa [Bool.and_eq_true, Bool.not_eq_true'] at plain

theorem word_visible : ∀ c ∈ "Bearer ".toList, isVisible c = true :=
  List.all_eq_true.mp (by decide)

/-- A token is brought by a request that has it in its header after the word. -/
theorem bearerToken_compact (auth : Config.JwtAuth) (method : String) (jws : Jws) :
    bearerToken auth ⟨method, [(auth.header.toLower, Text.utf8Bytes ("Bearer " ++ String.ofList jws.compact))]⟩ =
      some (String.ofList jws.compact) := by
  have written : ("Bearer " ++ String.ofList jws.compact).toList = "Bearer ".toList ++ jws.compact :=
    String.toList_append.trans (congrArg _ String.toList_ofList)
  have visible : ∀ c ∈ ("Bearer " ++ String.ofList jws.compact).toList, 32 ≤ c.toNat ∧ c.toNat < 127 := by
    intro c inside
    rw [written, List.mem_append] at inside
    rcases inside with word | token
    · exact isVisible_iff.mp (word_visible c word)
    · exact isVisible_iff.mp (symbol_plain c (compact_mem jws c token)).1
  have kept : Text.trim (String.ofList jws.compact) = String.ofList jws.compact :=
    trim_of_plain fun c inside => (symbol_plain c (compact_mem jws c (by simpa using inside))).2
  have stripped : ("Bearer " ++ String.ofList jws.compact).toList.dropPrefix? "Bearer ".toList = some jws.compact := by
    rw [written]
    exact List.dropPrefix?_append_of_beq jws.compact (beq_self_eq_true _)
  rw [bearerToken, List.lookup_cons_self, Option.bind_some, headerText_visible visible, Option.bind_some, bearer,
    stripped, Option.some_or, Option.map_some, kept]

def mlClaims : Claims := [("groups", .string "ml")]

def mlPayload : List UInt8 := Text.utf8Bytes "\x7b\"groups\":\"ml\"\x7d"

def mintedHeader : Value := .object [("alg", .string "HS256"), ("typ", .string "JWT")]

/-- A JSON library on the two parts of one token. -/
def mlJson : JsonText where
  fromStr _ := .error "expected value at line 1 column 1"
  fromSlice bytes :=
    if bytes = hs256Header then .ok mintedHeader
    else if bytes = mlPayload then .ok (.object mlClaims)
    else .error "expected value at line 1 column 1"
  toText _ := "null"
  toVec _ := mlPayload

/-- A library that has no keys. -/
def noKeys : Rsa Empty Empty where
  new _ _ := .error "invalid modulus"
  signature _ := none
  verify key _ _ := nomatch key

theorem mlJson_header : mlJson.fromSlice hs256Header = .ok mintedHeader := by
  simp [mlJson]

theorem mlJson_payload : mlJson.fromSlice mlPayload = .ok (.object mlClaims) := by
  have other : mlPayload ≠ hs256Header := by decide
  simp [mlJson, other]

/-- What is minted is accepted under the same secret. -/
theorem ml_verifies :
    verifyHs256 mlJson (signHs256 mlJson mlClaims (Text.utf8Bytes "secret")) (Text.utf8Bytes "secret") 0 = .ok mlClaims :=
  (verify_sign_iff mlJson mlJson_header rfl mlJson_payload (Text.utf8Bytes "secret") (Text.utf8Bytes "secret") 0
    mlClaims).mpr
    ⟨rfl, (by intro exp known; cases known), rfl⟩

def mlToken : Jws := minted mlJson mlClaims (Text.utf8Bytes "secret")

/-- A request of the team with its token. -/
def mlHead : RequestHead :=
  ⟨"POST", [("authorization".toLower, Text.utf8Bytes ("Bearer " ++ String.ofList mlToken.compact))]⟩

def claimedAuth : Config.JwtAuth := ⟨some "secret", none, "authorization"⟩

theorem mlToken_vouched :
    Vouched mlJson noKeys claimedAuth 0 (String.ofList mlToken.compact) mlClaims :=
  .secret "secret" mlToken mintedHeader rfl rfl (by decide) String.toList_ofList
    ⟨mlJson_header, rfl, mlJson_payload, (by intro exp known; cases known)⟩ (minted_signature _ _ _)

def claimedRoutes : Config.CompiledRoute Empty :=
  Config.compileRoute (compilers mlJson noKeys fun _ _ => .error "empty CEL expression") Config.claimedConfig
    Config.claimedRoute

/-- The team of a request is the one that its token says, and no other key is proven. -/
theorem mlHead_proves :
    let held := Attribution.attributed mlJson noValues claimedRoutes Config.claimedConfig.apps mlHead "/"
      (verifiedClaims mlJson noKeys Config.claimedConfig mlHead 0)
    held.2.value "team" = some "ml" ∧ ∀ tag ∈ held.2.tags, tag.origin = .proven → tag.key ∈ held.1.fromClaims := by
  have accepted : Config.finalize (compilers mlJson noKeys fun _ _ => .error "empty CEL expression")
      Config.claimedConfig = .ok ⟨Config.claimedConfig, [(Config.claimedRoute, claimedRoutes)]⟩ :=
    if_pos (by decide +kernel)
  have brings : bearerToken claimedAuth mlHead = some (String.ofList mlToken.compact) :=
    bearerToken_compact claimedAuth "POST" mlToken
  have verified : verifiedClaims mlJson noKeys Config.claimedConfig mlHead 0 = some mlClaims :=
    (verifiedClaims_iff (Config.finalize_ok accepted).1 mlHead 0 mlClaims).mpr
      ⟨claimedAuth, _, rfl, brings, mlToken_vouched⟩
  obtain ⟨values, proven⟩ := proven_value_iff mlJson noKeys _ noValues Config.claimedConfig _ accepted
    Config.claimedRoute claimedRoutes List.mem_cons_self mlHead "/" 0
  refine ⟨(values "team" "groups" "ml" ?_).mpr
    ⟨claimedAuth, _, mlClaims, .string "ml", rfl, brings, mlToken_vouched, rfl, rfl⟩, proven⟩
  rw [verified]
  decide

end SmallGateway.Jwt
