import SmallGateway.Labels
import SmallGateway.OperatorValue

/-!
The way of a request body to the upstream (`gatewayd/src/proxy.rs`). A body that must be signed, or that names
the model a route gates on, is read whole before anything is forwarded; every other body passes the streaming
filter, which buffers it when labels or forced fields have to go in. The main result says when the body that
is forwarded holds the operator's forced fields (`forced_fields_held_iff`).

What a request goes through before its labels are resolved, and the credentials minted in between, can only
refuse it; here it has passed them.
-/

namespace SmallGateway

open Json (Value)

/-- One forced header. -/
structure ForcedHeader where
  name : String
  value : OperatorValueSpec

/-- One forced field of a JSON body at a dotted path. -/
structure ForcedBodyField where
  path : String
  value : OperatorValueSpec
  ifAbsent : Bool

/-- What the operator stamps onto every request to a provider. -/
structure Injection where
  headers : List ForcedHeader
  body : List ForcedBodyField

/-- A provider as far as its request bodies are concerned: its dialect, whether the gateway signs for it with
    exchanged credentials, and what it forces. -/
structure Provider where
  kind : ProviderKind
  sts : Bool
  inject : Option Injection

/-- The header names that signing and transport own. -/
def reservedHeaders : List String :=
  ["host", "authorization", "content-length", "transfer-encoding", "x-amz-date", "x-amz-security-token",
    "x-amz-content-sha256"]

/-- An attribution key as templates may name it. -/
def checkKey (key : String) : Bool :=
  !key.isEmpty && key.toList.all fun c => c.isLower || c.isDigit || c == '-' || c == '_'

/-- The specification names one template, all of whose placeholders are attribution keys. -/
def validOperatorValue (spec : OperatorValueSpec) (checkTemplate : String → Bool) : Bool :=
  match spec.asTemplate with
  | none => false
  | some template =>
    (match Template.placeholders template with
      | .error _ => false
      | .ok keys => keys.all checkKey) && checkTemplate template

/-- The config check of what a provider forces. -/
def validInjection (provider : Provider) : Bool :=
  match provider.inject with
  | none => true
  | some inject =>
    !(provider.kind == .bedrock && !provider.sts) &&
      (inject.headers.all fun header =>
        !Text.isBlank header.name && !header.name.toList.any Text.isWhitespace &&
          !reservedHeaders.contains header.name.toLower &&
          validOperatorValue header.value fun template => !template.isEmpty) &&
      inject.body.all fun field =>
        !Text.isBlank field.path &&
          ((ResolvedBodyField.mk field.path "" false).segments.all fun segment => !Text.isBlank segment) &&
          validOperatorValue field.value fun _ => true

/-- What a provider forces, resolved for one request. -/
structure ResolvedInjection where
  headers : List (String × String)
  body : List ResolvedBodyField
  deriving DecidableEq

def resolveHeader (tags : List Tag) (header : ForcedHeader) : Except (String × String) (String × String) :=
  (renderOperatorTemplate header.value header.name tags none).map fun value => (header.name.toLower, value)

def resolveBodyField (tags : List Tag) (field : ForcedBodyField) :
    Except (String × String) ResolvedBodyField :=
  (renderOperatorTemplate field.value field.path tags none).map fun value =>
    ⟨field.path, value, field.ifAbsent⟩

/-- Renders every header and then every body field. The caller never picks a value. -/
def resolveInjection (inject : Injection) (tags : List Tag) :
    Except (String × String) ResolvedInjection :=
  match inject.headers.mapM (resolveHeader tags) with
  | .error e => .error e
  | .ok headers =>
    match inject.body.mapM (resolveBodyField tags) with
    | .error e => .error e
    | .ok body => .ok ⟨headers, body⟩

/-! ### The model gate -/

/-- The model a request path names: none for dialects whose path has no model. -/
def modelFromPath (kind : ProviderKind) (path : String) : Option String :=
  let segment (marker : String) (terminators : List Char) : Option String :=
    match Text.after? marker.toList path.toList with
    | none => none
    | some rest =>
      let model := rest.takeWhile fun c => !terminators.contains c
      if model = [] then none else some (String.ofList model)
  match kind with
  | .bedrock => segment "/model/" ['/']
  | .vertex => segment "/models/" [':', '/']
  | _ => none

/-- The model a JSON body names. -/
def modelFromBody (json : JsonText) (body : List UInt8) : Option String :=
  match json.fromSlice body with
  | .error _ => none
  | .ok value => (value.get? "model").bind (·.asStr)

/-- The allow-list admits the model: by its name, or by a pattern that ends in a star. -/
def modelAllowed (allow : List String) (model : String) : Bool :=
  allow.any fun pattern =>
    if pattern.toList.getLast? = some '*' then pattern.toList.dropLast.isPrefixOf model.toList
    else pattern == model

/-- The gate refuses a model that is not admitted, or that is not named. -/
def gateModel (allow : List String) (model : Option String) : Bool :=
  match model with
  | none => false
  | some model => modelAllowed allow model

/-! ### The request filter and the body filter -/

/-- A request whose route is known: its path, the tags it resolved to, what its vertex labels resolve to, and
    the pieces its body arrives in. -/
structure Request where
  path : String
  tags : List Tag
  vertexLabels : Except String (List (String × String))
  pieces : List (Option (List UInt8))

/-- The policy of the route: the models it admits, when it gates on them, and whether it has labels. -/
structure RoutePolicy where
  models : Option (List String)
  labelled : Bool

/-- Why a request is refused from its labels on. -/
inductive Refusal where
  | label (reason : String)
  | injection (key reason : String)
  | model (shown : String)
  | body (reason : String)
  deriving DecidableEq, Repr

/-- What a request carries from the request filter to the body filter. -/
structure BodyCtx where
  vertexLabels : Option (List (String × String))
  forced : Option ResolvedInjection
  bodyBuf : List UInt8
  signedBody : Option (List UInt8)

/-- The bytes of a body, in whatever pieces. -/
def bytesOf (pieces : List (Option (List UInt8))) : List UInt8 := pieces.flatMap fun piece => piece.getD []

/-- The forced body fields, none without an injection. -/
def BodyCtx.forcedBody (ctx : BodyCtx) : List ResolvedBodyField := (ctx.forced.map (·.body)).getD []

/-- The gateway signs the body, so it must be final before the request is. -/
def signedPayload (provider : Provider) : Bool := provider.kind == .bedrock && provider.sts

/-- The model stands in the body, which must be read before the request may pass. -/
def bodyModelGate (provider : Provider) (policy : RoutePolicy) : Bool :=
  policy.models.isSome && (provider.kind == .openai || provider.kind == .anthropic)

variable (json : JsonText)

def resolveLabelsOf (provider : Provider) (policy : RoutePolicy) (request : Request) :
    Except Refusal (Option (List (String × String))) :=
  if provider.kind = .vertex ∧ policy.labelled = true then
    match request.vertexLabels with
    | .error reason => .error (.label reason)
    | .ok labels => .ok (some labels)
  else .ok none

def resolveForced (provider : Provider) (request : Request) : Except Refusal (Option ResolvedInjection) :=
  match provider.inject with
  | none => .ok none
  | some inject =>
    match resolveInjection inject request.tags with
    | .error (key, reason) => .error (.injection key reason)
    | .ok resolved => .ok (some resolved)

/-- The gate on a model in the path. -/
def gatePath (provider : Provider) (policy : RoutePolicy) (path : String) : Except Refusal Unit :=
  match policy.models with
  | none => .ok ()
  | some allow =>
    if provider.kind = .bedrock ∨ provider.kind = .vertex then
      let model := modelFromPath provider.kind path
      if gateModel allow model then .ok () else .error (.model (model.getD "-"))
    else .ok ()

/-- The early read: the gate on a model in the body, and the final body when it is to be signed. A body read
    only for the gate is kept as it came. -/
def readEarly (provider : Provider) (policy : RoutePolicy) (forcedBody : List ResolvedBodyField)
    (buf : List UInt8) : Except Refusal (List UInt8) :=
  let model := modelFromBody json buf
  if bodyModelGate provider policy && !gateModel (policy.models.getD []) model then
    .error (.model (model.getD "-"))
  else if !signedPayload provider || forcedBody = [] || buf = [] then .ok buf
  else
    match injectIntoBody json buf forcedBody with
    | .ok merged => .ok merged
    | .error e => .error (.body e)

/-- The request filter from the labels on. -/
def requestFilter (provider : Provider) (policy : RoutePolicy) (request : Request) :
    Except Refusal BodyCtx := do
  let vertexLabels ← resolveLabelsOf provider policy request
  let forced ← resolveForced provider request
  gatePath provider policy request.path
  let ctx : BodyCtx := ⟨vertexLabels, forced, [], none⟩
  if signedPayload provider || bodyModelGate provider policy then
    let signed ← readEarly json provider policy ctx.forcedBody (bytesOf request.pieces)
    pure { ctx with signedBody := some signed }
  else pure ctx

/-- Labels first, then the forced fields. -/
def rewriteBody (ctx : BodyCtx) (body : List UInt8) : Except String (List UInt8) :=
  match ctx.vertexLabels with
  | none => injectIntoBody json body ctx.forcedBody
  | some operatorLabels =>
    match mergeIntoBody json body operatorLabels with
    | .error e => .error e
    | .ok merged => injectIntoBody json merged ctx.forcedBody

/-- The body filter on one piece: what goes upstream in its place, and what is carried on. A body that was
    finalized early replaces what it is called with. -/
def requestBodyFilter (ctx : BodyCtx) (body : Option (List UInt8)) (endOfStream : Bool) :
    Except Refusal (Option (List UInt8) × BodyCtx) :=
  match ctx.signedBody with
  | some signed => .ok (some signed, { ctx with signedBody := none })
  | none =>
    if ctx.vertexLabels.isNone && ctx.forcedBody.isEmpty then .ok (body, ctx)
    else
      let ctx := { ctx with bodyBuf := ctx.bodyBuf ++ body.getD [] }
      if !endOfStream then .ok (none, ctx)
      else
        match rewriteBody json ctx ctx.bodyBuf with
        | .ok merged => .ok (some merged, { ctx with bodyBuf := [] })
        | .error e => .error (.body ("request body must be a JSON object: " ++ e))

/-- The pump: the filter is called on each piece, the last one marked. -/
def sendBody (ctx : BodyCtx) : List (Option (List UInt8)) → Except Refusal (List UInt8)
  | [] => .ok []
  | piece :: rest =>
    match requestBodyFilter json ctx piece rest.isEmpty with
    | .error refusal => .error refusal
    | .ok (sent, ctx) => (sendBody ctx rest).map fun later => sent.getD [] ++ later

/-- The body that goes upstream. One that was read early is replayed in one piece. -/
def upstreamBody (provider : Provider) (policy : RoutePolicy) (request : Request) :
    Except Refusal (List UInt8) :=
  match requestFilter json provider policy request with
  | .error refusal => .error refusal
  | .ok ctx =>
    sendBody json ctx
      (if ctx.signedBody.isSome then [some (bytesOf request.pieces)] else request.pieces)

/-! ### What goes upstream -/

variable {json}

section

variable {ctx : BodyCtx} {piece : Option (List UInt8)}

/-- A piece that is not the last is kept back. -/
theorem requestBodyFilter_keeps (unsigned : ctx.signedBody = none)
    (rewrites : (ctx.vertexLabels.isNone && ctx.forcedBody.isEmpty) = false) :
    requestBodyFilter json ctx piece false =
      .ok (none, { ctx with bodyBuf := ctx.bodyBuf ++ piece.getD [] }) := by
  simp [requestBodyFilter, unsigned, rewrites]

/-- The last piece sends the rewritten whole, or nothing is forwarded. -/
theorem requestBodyFilter_last (unsigned : ctx.signedBody = none)
    (rewrites : (ctx.vertexLabels.isNone && ctx.forcedBody.isEmpty) = false) :
    (∃ merged after, rewriteBody json ctx (ctx.bodyBuf ++ piece.getD []) = .ok merged ∧
        requestBodyFilter json ctx piece true = .ok (some merged, after)) ∨
      ∃ refusal, requestBodyFilter json ctx piece true = .error refusal := by
  obtain ⟨labels, forced, buf, signed⟩ := ctx
  obtain rfl : signed = none := unsigned
  have same : rewriteBody json ⟨labels, forced, buf ++ piece.getD [], none⟩ (buf ++ piece.getD []) =
      rewriteBody json ⟨labels, forced, buf, none⟩ (buf ++ piece.getD []) := rfl
  rcases result : rewriteBody json ⟨labels, forced, buf, none⟩ (buf ++ piece.getD []) with e | merged
  · refine Or.inr ⟨.body ("request body must be a JSON object: " ++ e), ?_⟩
    rw [result] at same
    simp [requestBodyFilter, rewrites, same]
  · refine Or.inl ⟨merged, ⟨labels, forced, [], none⟩, rfl, ?_⟩
    rw [result] at same
    simp [requestBodyFilter, rewrites, same]

end

/-- A buffered body is rewritten as a whole, in whatever pieces it came. -/
theorem sendBody_rewrites {ctx : BodyCtx} {pieces : List (Option (List UInt8))} {sent : List UInt8}
    (unsigned : ctx.signedBody = none)
    (rewrites : (ctx.vertexLabels.isNone && ctx.forcedBody.isEmpty) = false) (some_ : pieces ≠ [])
    (forwarded : sendBody json ctx pieces = .ok sent) :
    rewriteBody json ctx (ctx.bodyBuf ++ bytesOf pieces) = .ok sent := by
  induction pieces generalizing ctx sent with
  | nil => exact absurd rfl some_
  | cons piece rest ih =>
    have all : bytesOf (piece :: rest) = piece.getD [] ++ bytesOf rest := rfl
    rw [all, ← List.append_assoc]
    cases rest with
    | nil =>
      rcases @requestBodyFilter_last json ctx piece unsigned rewrites with
        ⟨merged, after, result, sends⟩ | ⟨refusal, refuses⟩
      · rw [sendBody, List.isEmpty_nil, sends] at forwarded
        obtain rfl : merged ++ [] = sent := by simpa [sendBody, Except.map] using forwarded
        simpa [bytesOf] using result
      · rw [sendBody, List.isEmpty_nil, refuses] at forwarded
        cases forwarded
    | cons next rest =>
      rw [sendBody, List.isEmpty_cons, requestBodyFilter_keeps unsigned rewrites] at forwarded
      cases later : sendBody json { ctx with bodyBuf := ctx.bodyBuf ++ piece.getD [] } (next :: rest) with
      | error refusal =>
        simp only [later] at forwarded
        cases forwarded
      | ok whole =>
        simp only [later] at forwarded
        obtain rfl : whole = sent := by simpa [Except.map] using forwarded
        exact @ih { ctx with bodyBuf := ctx.bodyBuf ++ piece.getD [] } whole unsigned rewrites (by simp) later

/-- A body that was finalized early is what goes upstream. -/
theorem sendBody_signed {ctx : BodyCtx} {signed : List UInt8} (final : ctx.signedBody = some signed)
    (piece : Option (List UInt8)) : sendBody json ctx [piece] = .ok signed := by
  simp [sendBody, requestBodyFilter, final, Except.map]

/-- The model gate reads bodies of dialects that are not signed. -/
theorem bodyModelGate_unsigned {provider : Provider} {policy : RoutePolicy}
    (gated : bodyModelGate provider policy = true) : signedPayload provider = false := by
  simp only [bodyModelGate, Bool.and_eq_true, Bool.or_eq_true, beq_iff_eq] at gated
  rcases gated.2 with openai | anthropic
  · simp [signedPayload, openai]
  · simp [signedPayload, anthropic]

/-- A body read for the model gate is kept as it came. -/
theorem readEarly_gated {provider : Provider} {policy : RoutePolicy} {fields : List ResolvedBodyField}
    {buf signed : List UInt8} (gated : bodyModelGate provider policy = true)
    (read : readEarly json provider policy fields buf = .ok signed) : signed = buf := by
  simp only [readEarly, gated, bodyModelGate_unsigned gated] at read
  split at read
  · cases read
  · simpa [eq_comm] using read

/-- A body that is to be signed is injected before. -/
theorem readEarly_signed {provider : Provider} {policy : RoutePolicy} {fields : List ResolvedBodyField}
    {buf signed : List UInt8} (signs : signedPayload provider = true) (some_ : fields ≠ []) (full : buf ≠ [])
    (read : readEarly json provider policy fields buf = .ok signed) :
    injectIntoBody json buf fields = .ok signed := by
  have ungated : bodyModelGate provider policy = false := by
    by_contra gated
    rw [bodyModelGate_unsigned (Bool.not_eq_false _ ▸ gated)] at signs
    cases signs
  simp only [readEarly, ungated, signs, some_, full, Bool.false_and, Bool.false_eq_true, if_false,
    Bool.not_true, decide_false, Bool.or_self] at read
  cases injected : injectIntoBody json buf fields with
  | error e =>
    rw [injected] at read
    cases read
  | ok merged =>
    rw [injected] at read
    rw [Except.ok.inj read]

/-- A body that is rewritten as a whole has been injected last. -/
theorem rewriteBody_injects {ctx : BodyCtx} {body out : List UInt8}
    (rewritten : rewriteBody json ctx body = .ok out) :
    ∃ merged, injectIntoBody json merged ctx.forcedBody = .ok out := by
  unfold rewriteBody at rewritten
  split at rewritten
  · exact ⟨body, rewritten⟩
  · split at rewritten
    · cases rewritten
    · exact ⟨_, rewritten⟩

/-- A computation that may fail, made of two, succeeds when both do. -/
private theorem bind_ok {ε α β : Type} {first : Except ε α} {second : α → Except ε β} {result : β} :
    (first >>= second) = .ok result ↔ ∃ value, first = .ok value ∧ second value = .ok result := by
  cases first with
  | error e => simp [bind, Except.bind]
  | ok value => simp [bind, Except.bind]

/-- What the request filter hands to the body filter. -/
theorem requestFilter_ok {provider : Provider} {policy : RoutePolicy} {request : Request} {ctx : BodyCtx}
    (passed : requestFilter json provider policy request = .ok ctx) :
    resolveForced provider request = .ok ctx.forced ∧ ctx.bodyBuf = [] ∧
      (if signedPayload provider || bodyModelGate provider policy then
        ∃ signed, ctx.signedBody = some signed ∧
          readEarly json provider policy ctx.forcedBody (bytesOf request.pieces) = .ok signed
      else ctx.signedBody = none) := by
  unfold requestFilter at passed
  obtain ⟨labels, -, passed⟩ := bind_ok.mp passed
  obtain ⟨forced, resolved, passed⟩ := bind_ok.mp passed
  obtain ⟨-, -, passed⟩ := bind_ok.mp passed
  by_cases early : (signedPayload provider || bodyModelGate provider policy) = true
  · rw [if_pos early] at passed
    obtain ⟨signed, read, passed⟩ := bind_ok.mp passed
    obtain rfl := Except.ok.inj passed
    rw [if_pos early]
    exact ⟨resolved, rfl, signed, rfl, read⟩
  · rw [if_neg early] at passed
    obtain rfl := Except.ok.inj passed
    rw [if_neg early]
    exact ⟨resolved, rfl, rfl⟩

/-- A body that came out of an injection is the written form of a root with the fields in it. -/
theorem injectIntoBody_ok {body out : List UInt8} {fields : List ResolvedBodyField} (some_ : fields ≠ [])
    (injected : injectIntoBody json body fields = .ok out) :
    ∃ root, out = json.toVec (.object (fields.foldl injectField root)) := by
  unfold injectIntoBody at injected
  rw [if_neg some_] at injected
  split at injected
  · cases injected
  · rename_i root parsed
    exact ⟨root, (Except.ok.inj injected).symm⟩
  · cases injected

/-- How the upstream reads the body it is sent: where the library has written it, with the texts of the value
    written at the same paths. The library parses no value from nothing. -/
structure ReadsTexts (json : JsonText) (reads : List UInt8 → Option Value) (sent : List UInt8) : Prop where
  written : ∀ value, sent = json.toVec value → ∀ path text,
    (reads sent).bind (·.at? path) = some (.string text) ↔ value.at? path = some (.string text)
  nothing : ∀ value, json.fromSlice [] ≠ .ok value

/-- The body holds the field's value at its path. -/
def ResolvedBodyField.HeldIn (reads : List UInt8 → Option Value) (field : ResolvedBodyField)
    (body : List UInt8) : Prop :=
  (reads body).bind (·.at? field.segments) = some (.string field.value)

/-- An injected body holds the forced fields exactly when they are consistent. -/
theorem injected_heldIn {reads : List UInt8 → Option Value} {body out : List UInt8}
    (readsTexts : ReadsTexts json reads out) {fields : List ResolvedBodyField} (some_ : fields ≠ [])
    (injected : injectIntoBody json body fields = .ok out) :
    (∀ f ∈ forcedOf fields, f.HeldIn reads out) ↔ Consistent fields := by
  obtain ⟨root, written⟩ := injectIntoBody_ok some_ injected
  rw [← injected_iff_consistent root fields]
  exact forall_congr' fun f => imp_congr_right fun _ => readsTexts.written _ written _ _

/-- The forwarded body holds every field the operator forces exactly when the fields are consistent, or, on a
    route that gates on a model in the body of a request it does not sign, when the caller's own body holds
    them already. -/
theorem forced_fields_held_iff (json : JsonText) (reads : List UInt8 → Option Value)
    (provider : Provider) (policy : RoutePolicy) (request : Request) (inject : Injection)
    (sent : List UInt8) (root : List (String × Value)) (readsTexts : ReadsTexts json reads sent)
    (configured : provider.inject = some inject)
    (isObject : json.fromSlice (bytesOf request.pieces) = .ok (.object root))
    (forwarded : upstreamBody json provider policy request = .ok sent) :
    ∃ resolved, resolveInjection inject request.tags = .ok resolved ∧
      ((∀ f ∈ forcedOf resolved.body, f.HeldIn reads sent) ↔
        if bodyModelGate provider policy = true then
          ∀ f ∈ forcedOf resolved.body, f.HeldIn reads (bytesOf request.pieces)
        else Consistent resolved.body) := by
  unfold upstreamBody at forwarded
  cases passed : requestFilter json provider policy request with
  | error refusal =>
    rw [passed] at forwarded
    cases forwarded
  | ok ctx =>
    rw [passed] at forwarded
    obtain ⟨forced, buf, early⟩ := requestFilter_ok passed
    simp only [resolveForced, configured] at forced
    cases result : resolveInjection inject request.tags with
    | error e =>
      rw [result] at forced
      cases forced
    | ok resolved =>
      rw [result] at forced
      have forced := Except.ok.inj forced
      have body : ctx.forcedBody = resolved.body := by simp [BodyCtx.forcedBody, ← forced]
      refine ⟨resolved, rfl, ?_⟩
      rw [← body]
      by_cases some_ : ctx.forcedBody = []
      · simp [some_, forcedOf, Consistent, Agree, Restored]
      by_cases gated : bodyModelGate provider policy = true
      · rw [if_pos (by simp [gated])] at early
        obtain ⟨signed, final, read⟩ := early
        simp only [final, Option.isSome_some, if_true, sendBody_signed final, Except.ok.injEq] at forwarded
        rw [if_pos gated, ← forwarded, readEarly_gated gated read]
      rw [if_neg gated]
      by_cases signs : signedPayload provider = true
      · rw [if_pos (by simp [signs])] at early
        obtain ⟨signed, final, read⟩ := early
        simp only [final, Option.isSome_some, if_true, sendBody_signed final, Except.ok.injEq] at forwarded
        have full : bytesOf request.pieces ≠ [] := by
          intro none
          rw [none] at isObject
          exact readsTexts.nothing _ isObject
        subst forwarded
        exact injected_heldIn readsTexts some_ (readEarly_signed signs some_ full read)
      · rw [if_neg (by simp [signs, gated])] at early
        have pieces : request.pieces ≠ [] := by
          intro none
          rw [none] at isObject
          exact readsTexts.nothing _ isObject
        simp only [early, Option.isSome_none, Bool.false_eq_true, if_false] at forwarded
        have rewritten := sendBody_rewrites early (by simp [some_]) pieces forwarded
        obtain ⟨merged, injected⟩ := rewriteBody_injects rewritten
        exact injected_heldIn readsTexts some_ injected

/-- The bytes of an ASCII text. -/
def asciiBytes (text : String) : List UInt8 := text.toList.map fun c => UInt8.ofNat c.toNat

/-- A body that names a model. -/
def modelText : String := "\x7b\"model\":\"gpt-4\"\x7d"

/-- The same body with a forced field in it. -/
def modelUserText : String := "\x7b\"model\":\"gpt-4\",\"user\":\"ops\"\x7d"

/-- What the two bodies parse to. -/
def modelParse (body : List UInt8) : Except String Value :=
  if body = asciiBytes modelText then .ok (.object [("model", .string "gpt-4")])
  else if body = asciiBytes modelUserText then
    .ok (.object [("model", .string "gpt-4"), ("user", .string "ops")])
  else .error "expected value at line 1 column 1"

/-- What is written for the second one. -/
def modelWrite : Value → List UInt8
  | .object [("model", .string "gpt-4"), ("user", .string "ops")] => asciiBytes modelUserText
  | _ => asciiBytes "null"

/-- A JSON library on these two bodies. -/
def modelJson : JsonText where
  fromStr _ := .error "expected value at line 1 column 1"
  fromSlice := modelParse
  toText _ := "null"
  toVec := modelWrite

/-- Its reading of a body. -/
def modelReads (body : List UInt8) : Option Value := (modelParse body).toOption

/-- An OpenAI provider whose operator forces the user field. -/
def forcedUser : Provider :=
  ⟨.openai, false, some ⟨[], [⟨"user", .bare "ops", false⟩]⟩⟩

/-- A request that names a model in its body. -/
def modelRequest : Request := ⟨"/v1/chat/completions", [], .ok [], [some (asciiBytes modelText)]⟩

private theorem modelParse_model :
    modelParse (asciiBytes modelText) = .ok (.object [("model", .string "gpt-4")]) := if_pos rfl

private theorem modelParse_modelUser :
    modelParse (asciiBytes modelUserText) =
      .ok (.object [("model", .string "gpt-4"), ("user", .string "ops")]) := by
  rw [modelParse, if_neg (by decide), if_pos rfl]

private theorem modelParse_nothing (value : Value) : modelParse [] ≠ .ok value := by
  rw [modelParse, if_neg (by decide), if_neg (by decide)]
  exact nofun

/-- What is written is read with the texts it was written with. -/
private theorem modelReads_texts : ReadsTexts modelJson modelReads (asciiBytes modelUserText) where
  nothing := modelParse_nothing
  written := by
    intro value written path text
    have whole : value = .object [("model", .string "gpt-4"), ("user", .string "ops")] := by
      change asciiBytes modelUserText = modelWrite value at written
      unfold modelWrite at written
      split at written
      · rfl
      · exact absurd written (by decide)
    rw [whole, modelReads, modelParse_modelUser]
    rfl

private theorem forcedUser_resolves :
    resolveInjection ⟨[], [⟨"user", .bare "ops", false⟩]⟩ [] = .ok ⟨[], [⟨"user", "ops", false⟩]⟩ := by
  decide

/-- On a route without a model gate the forced user arrives. -/
theorem forced_user_held_ungated :
    ∃ resolved, resolveInjection ⟨[], [⟨"user", .bare "ops", false⟩]⟩ [] = .ok resolved ∧
      ∀ f ∈ forcedOf resolved.body, f.HeldIn modelReads (asciiBytes modelUserText) := by
  have forwarded : upstreamBody modelJson forcedUser ⟨none, false⟩ modelRequest =
      .ok (asciiBytes modelUserText) := by decide
  obtain ⟨resolved, rendered, held⟩ := forced_fields_held_iff modelJson modelReads forcedUser ⟨none, false⟩
    modelRequest _ _ _ modelReads_texts rfl modelParse_model forwarded
  refine ⟨resolved, rendered, held.mpr ?_⟩
  obtain rfl := Except.ok.inj (forcedUser_resolves.symm.trans rendered)
  rw [if_neg (by decide)]
  decide

/-- On a route that gates on the model, the body is read early, found allowed and forwarded as it came: the
    forced user is not in it. -/
theorem gated_body_misses_forced_field :
    ¬ ∀ (json : JsonText) (reads : List UInt8 → Option Value) (provider : Provider) (policy : RoutePolicy)
        (request : Request) (inject : Injection) (sent : List UInt8) (root : List (String × Value)),
      validInjection provider = true → ReadsTexts json reads sent → provider.inject = some inject →
        inject.body ≠ [] → json.fromSlice (bytesOf request.pieces) = .ok (.object root) →
          upstreamBody json provider policy request = .ok sent →
            ∃ resolved, resolveInjection inject request.tags = .ok resolved ∧
              ∀ f ∈ forcedOf resolved.body, f.HeldIn reads sent := by
  intro claimed
  have forwarded : upstreamBody modelJson forcedUser ⟨some ["gpt-4"], false⟩ modelRequest =
      .ok (asciiBytes modelText) := by decide
  have readsTexts : ReadsTexts modelJson modelReads (asciiBytes modelText) := by
    refine ⟨fun value written => ?_, modelParse_nothing⟩
    change asciiBytes modelText = modelWrite value at written
    unfold modelWrite at written
    split at written
    · exact absurd written (by decide)
    · exact absurd written (by decide)
  obtain ⟨resolved, rendered, held⟩ := claimed modelJson modelReads forcedUser ⟨some ["gpt-4"], false⟩
    modelRequest _ _ _ (by decide) readsTexts rfl (List.cons_ne_nil _ _) modelParse_model forwarded
  obtain rfl := Except.ok.inj (forcedUser_resolves.symm.trans rendered)
  have user := held ⟨"user", "ops", false⟩ (by decide)
  have segments : (ResolvedBodyField.mk "user" "ops" false).segments = ["user"] := by decide
  rw [ResolvedBodyField.HeldIn, modelReads, modelParse_model, segments] at user
  exact absurd user (by simp [Except.toOption, Value.at?, Value.get?, List.lookup_cons])

end SmallGateway
