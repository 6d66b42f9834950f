/-
  CREDENTIAL HEADERS do not influence accepted deliveries (`bondry-webhook-ingress`, `route.rs`).

  Two runs of `begin` on requests that differ in their credentials only.  The argument follows what a
  request is asked for: `SameFor P r r'` says that two requests cannot be told apart by anyone who reads
  the headers in `P`, and every function of the route is a lemma about the headers it reads.

  * VERIFICATION reads the verifier's headers, credentials among them, so two accepted requests can have
    different results: a Stripe timestamp is part of the credential.  What the route takes from a result
    is a key and a policy, and there the timestamp is gone (`claims_same`).
  * MAPPING reads `content-type` and the metadata headers.  `WebhookRoute::new` refuses metadata headers
    that hold credentials (`new_eq_ok`), and no verifier has its credential in `content-type`.

  With `P` the headers the server selects, the same lemmas say that selection hides nothing.
-/
import Bondry.Http.RawBodyRead
import Bondry.Webhook.Ownership

namespace Bondry.Webhook

/-! ## From the checks to the dispatch -/

/-- What the services behind the checks answer in the state they are in. -/
structure Services where
  claim : DedupKey → DedupClaimPolicy → Nat → Except DedupStoreError DedupClaim
  releaseClaim : DedupKey → Except DedupStoreError Unit
  generate : Option InvocationId

/-- A dispatch that `begin` has created: its invocation, and the key it holds with the time of the
    claim. -/
structure WebhookDispatch where
  invocation : Invocation
  claim : Option (DedupKey × Nat)
  successStatus : Nat

/-- `DedupGuard::release`. -/
def Services.released (services : Services) (key : DedupKey) : Bool :=
  match services.releaseClaim key with
  | .ok _ => true
  | .error _ => false

/-- `prepare` from the claim on. -/
def WebhookRoute.createDispatch (route : WebhookRoute) (services : Services) (now : WebhookIngressTime)
    (prepared : Prepared) : Except WebhookIngressResponse WebhookDispatch := do
  match prepared.claim with
  | some (key, policy) => route.claimed (services.claim key policy now.unixMilliseconds)
  | none => pure ()
  match services.generate with
  | none =>
    if prepared.claim.any fun claim => !services.released claim.1 then
      .error (retryable "dedup_store_unavailable")
    else .error (retryable "identifier_generation_unavailable")
  | some id =>
    pure ⟨⟨id, webhookAdapter, route.configuration.principal, route.configuration.capability,
      prepared.input⟩, prepared.claim.map fun claim => (claim.1, now.unixMilliseconds),
      route.configuration.successStatus⟩

/-- `WebhookRoute::begin`: the response or the dispatch, and the limiter it leaves. -/
def WebhookRoute.begin (crypto : Crypto) (parseJson : Bytes → Option Json) (route : WebhookRoute)
    (request : VerificationRequest) (now : WebhookIngressTime) (secrets : SecretAnswer)
    (limiter : AuthenticatedRequestLimiter) (services : Services) :
    Except WebhookIngressResponse WebhookDispatch × AuthenticatedRequestLimiter :=
  let prepared := route.prepare crypto parseJson request now secrets limiter
  (prepared.1 >>= route.createDispatch services now, prepared.2)

/-! ## Requests that look the same -/

/-- The requests agree on everything but the headers outside `P`. -/
structure SameFor (P : HeaderName → Prop) (r r' : VerificationRequest) : Prop where
  method : r.method = r'.method
  target : r.target = r'.target
  body : r.body = r'.body
  headers : ∀ name, P name → r.headerValues name = r'.headerValues name

section

variable {crypto : Crypto} {parseJson : Bytes → Option Json} {P : HeaderName → Prop}
  {r r' : VerificationRequest} {route : WebhookRoute}

variable {name : HeaderName}

theorem exactlyOneHeader_same (h : SameFor P r r') (hname : P name) :
    exactlyOneHeader r name = exactlyOneHeader r' name := by
  rw [exactlyOneHeader, exactlyOneHeader, h.headers name hname]

theorem verify_same {verifier : WebhookVerifier} (h : SameFor P r r')
    (hread : ∀ name ∈ verifier.selectedHeaders, P name) (secrets : SecretAnswer) (now : Int) :
    verifier.verify crypto r secrets now = verifier.verify crypto r' secrets now := by
  have hone : ∀ name ∈ verifier.selectedHeaders, exactlyOneHeader r name = exactlyOneHeader r' name :=
    fun name hname => exactlyOneHeader_same h (hread name hname)
  cases verifier with
  | bearer =>
    have hauthorization := hone "authorization" (by decide)
    show verifyBearer r secrets = verifyBearer r' secrets
    rw [verifyBearer, verifyBearer, hauthorization]
  | bondryHmac tolerance =>
    have hid := hone "x-bondry-delivery-id" (by simp [WebhookVerifier.selectedHeaders])
    have htimestamp := hone "x-bondry-timestamp" (by simp [WebhookVerifier.selectedHeaders])
    have hsignature := hone "x-bondry-signature" (by simp [WebhookVerifier.selectedHeaders])
    show verifyBondryHmac crypto tolerance r secrets now = verifyBondryHmac crypto tolerance r' secrets now
    rw [verifyBondryHmac, verifyBondryHmac, hid, htimestamp, hsignature, h.body]
  | gitHub =>
    have hsignature := hone "x-hub-signature-256" (by decide)
    show verifyGitHub crypto r secrets = verifyGitHub crypto r' secrets
    rw [verifyGitHub, verifyGitHub, hsignature, h.body]
  | stripe tolerance =>
    have hsignature := hone "stripe-signature" (by simp [WebhookVerifier.selectedHeaders])
    show verifyStripe crypto tolerance r secrets now = verifyStripe crypto tolerance r' secrets now
    rw [verifyStripe, verifyStripe, hsignature, h.body]

theorem hasJsonContentType_same (h : SameFor P r r') (hcontent : P "content-type") :
    hasJsonContentType r = hasJsonContentType r' := by
  rw [hasJsonContentType, hasJsonContentType, h.headers _ hcontent]

theorem metadataMember_same (h : SameFor P r r') (hname : P name) :
    metadataMember r name = metadataMember r' name := by
  rw [metadataMember, metadataMember, h.headers name hname]

theorem headerCharge_same (h : SameFor P r r') (hname : P name) (charge : Nat) :
    headerCharge r charge name = headerCharge r' charge name := by
  rw [headerCharge, headerCharge, h.headers name hname]

theorem retainedCharge_same {mapping : PayloadMapping} (h : SameFor P r r')
    (hread : ∀ name ∈ mapping.metadataHeaders, P name) :
    retainedCharge mapping r = retainedCharge mapping r' := by
  have hmetadata : metadataCharge mapping r = metadataCharge mapping r' := by
    cases mapping with
    | jsonBody => rfl
    | envelope metadataHeaders =>
      have hfold : ∀ charge, metadataHeaders.foldlM (headerCharge r) charge =
          metadataHeaders.foldlM (headerCharge r') charge :=
        foldlM_congr fun charge name hname => headerCharge_same h (hread name hname) charge
      simp only [metadataCharge, hfold]
  rw [retainedCharge, retainedCharge, h.body, hmetadata]

theorem mapPayload_same {mapping : PayloadMapping} {limits : WebhookIngressLimits}
    (h : SameFor P r r') (hread : ∀ name ∈ mapping.metadataHeaders, P name) :
    mapPayload parseJson mapping r limits = mapPayload parseJson mapping r' limits := by
  rw [mapPayload, mapPayload, retainedCharge_same h hread, h.body]
  cases mapping with
  | jsonBody => rfl
  | envelope metadataHeaders =>
    have hmembers : metadataHeaders.mapM (metadataMember r) =
        metadataHeaders.mapM (metadataMember r') :=
      mapM_congr fun name hname => metadataMember_same h (hread name hname)
    dsimp only
    rw [hmembers]

theorem mapDelivery_same (h : SameFor P r r') (hcontent : P "content-type")
    (hread : ∀ name ∈ route.configuration.mapping.metadataHeaders, P name) :
    route.mapDelivery parseJson r = route.mapDelivery parseJson r' := by
  rw [WebhookRoute.mapDelivery, WebhookRoute.mapDelivery, hasJsonContentType_same h hcontent,
    mapPayload_same h hread]

/-- `prepare` reads the verifier's headers, `content-type` and the metadata headers. -/
theorem prepare_same (h : SameFor P r r') (hverifier : ∀ name ∈ route.verifier.selectedHeaders, P name)
    (hcontent : P "content-type") (hmetadata : ∀ name ∈ route.configuration.mapping.metadataHeaders, P name)
    (now : WebhookIngressTime) (secrets : SecretAnswer) (limiter : AuthenticatedRequestLimiter) :
    route.prepare crypto parseJson r now secrets limiter =
      route.prepare crypto parseJson r' now secrets limiter := by
  have hverify : route.verifyDelivery crypto r now secrets = route.verifyDelivery crypto r' now secrets := by
    rw [WebhookRoute.verifyDelivery, WebhookRoute.verifyDelivery, h.method, verify_same h hverifier]
  rw [WebhookRoute.prepare, WebhookRoute.prepare, hverify, mapDelivery_same h hcontent hmetadata]

/-! ## What the route takes from a verification -/

theorem bodyIdentity_eq {verifier : VerifierNamespace} {body : Bytes}
    {freshness : Option VerifiedFreshness} {identity : TrustedDeliveryIdentity}
    (h : bodyIdentity crypto verifier body freshness = .ok identity) :
    identity = ⟨verifier, ⟨crypto.sha256 (crypto.sha256 body), crypto.sha256_length _⟩, freshness⟩ := by
  unfold bodyIdentity fromNormalized at h
  split at h
  · next hsome =>
    cases h
    split at hsome <;> cases hsome
    rfl
  · cases h

theorem identifies_same (h : SameFor (· ∉ route.verifier.credentialHeaders) r r') {now now' : Int}
    {i i' : TrustedDeliveryIdentity} (hi : Identifies crypto r now route.verifier i)
    (hi' : Identifies crypto r' now' route.verifier i') :
    route.key i = route.key i' ∧ route.policy i = route.policy i' := by
  generalize hverifier : route.verifier = verifier at h hi hi'
  cases hi with
  | bondryHmac hid hheader htime _ hident =>
    cases hi' with
    | bondryHmac hid' hheader' htime' _ hident' =>
      -- the identity is made from headers that are no credentials
      rw [exactlyOneHeader_same h (by simp [WebhookVerifier.credentialHeaders]), hid'] at hid
      rw [exactlyOneHeader_same h (by simp [WebhookVerifier.credentialHeaders]), hheader'] at hheader
      cases hid
      cases hheader
      rw [htime'] at htime
      cases htime
      rw [hident'] at hident
      cases hident
      exact ⟨rfl, rfl⟩
  | gitHub hident =>
    cases hi' with
    | gitHub hident' =>
      rw [h.body, hident'] at hident
      cases hident
      exact ⟨rfl, rfl⟩
  | stripe hheader hparsed _ hident =>
    cases hi' with
    | stripe hheader' hparsed' _ hident' =>
      -- the timestamps may differ; the policy only asks whether there is one
      rw [bodyIdentity_eq hident, bodyIdentity_eq hident', h.body]
      simp [WebhookRoute.key, WebhookRoute.policy]

variable {secrets : SecretAnswer} {v v' : VerificationResult}

theorem claims_same (h : SameFor (· ∉ route.verifier.credentialHeaders) r r') {now now' : Int}
    {secrets' : SecretAnswer} (hv : route.verifier.verify crypto r secrets now = .ok v)
    (hv' : route.verifier.verify crypto r' secrets' now' = .ok v') :
    (v.identity.map fun identity => (route.key identity, route.policy identity)) =
      v'.identity.map fun identity => (route.key identity, route.policy identity) := by
  rcases verify_result hv with ⟨hbearer, hnone⟩ | ⟨i, rfl, hi⟩
  · rcases verify_result hv' with ⟨_, hnone'⟩ | ⟨i', _, hi'⟩
    · rw [hnone, hnone']
    · rw [hbearer] at hi'
      cases hi'
  · rcases verify_result hv' with ⟨hbearer, _⟩ | ⟨i', rfl, hi'⟩
    · rw [hbearer] at hi
      cases hi
    · obtain ⟨hkey, hpolicy⟩ := identifies_same h hi hi'
      simp only [Option.map_some, hkey, hpolicy]

theorem verifyDelivery_accepted (h : SameFor (· ∉ route.verifier.credentialHeaders) r r')
    {now : WebhookIngressTime}
    (hv : route.verifier.verify crypto r secrets (now.unixMilliseconds / 1000 : Nat) = .ok v)
    (hv' : route.verifier.verify crypto r' secrets (now.unixMilliseconds / 1000 : Nat) = .ok v') :
    (∃ response, route.verifyDelivery crypto r now secrets = .error response ∧
      route.verifyDelivery crypto r' now secrets = .error response) ∨
      (route.verifyDelivery crypto r now secrets = .ok v ∧
        route.verifyDelivery crypto r' now secrets = .ok v') := by
  have hnone : v.identity = none ↔ v'.identity = none := by
    have hclaims := congrArg Option.isNone (claims_same h hv hv')
    rw [Option.isNone_map, Option.isNone_map] at hclaims
    rw [← Option.isNone_iff_eq_none, ← Option.isNone_iff_eq_none, hclaims]
  have hsome : v.identity.isSome = v'.identity.isSome := by
    rw [Bool.eq_iff_iff, Option.isSome_iff_ne_none, Option.isSome_iff_ne_none, Ne, hnone]
  simp only [WebhookRoute.verifyDelivery, hv, hv', h.method, hnone, hsome]
  -- every check is now the same question for both
  split
  · exact .inl ⟨_, rfl, rfl⟩
  · split
    · exact .inl ⟨_, rfl, rfl⟩
    · split
      · exact .inl ⟨_, rfl, rfl⟩
      · split
        · exact .inl ⟨_, rfl, rfl⟩
        · exact .inr ⟨rfl, rfl⟩

/-- **Two accepted deliveries are prepared alike.** -/
theorem prepare_accepted (h : SameFor (· ∉ route.verifier.credentialHeaders) r r')
    (hmetadata : ∀ name ∈ route.configuration.mapping.metadataHeaders,
      name ∉ route.verifier.credentialHeaders) {now : WebhookIngressTime}
    (hv : route.verifier.verify crypto r secrets (now.unixMilliseconds / 1000 : Nat) = .ok v)
    (hv' : route.verifier.verify crypto r' secrets (now.unixMilliseconds / 1000 : Nat) = .ok v')
    (limiter : AuthenticatedRequestLimiter) : route.prepare crypto parseJson r now secrets limiter =
      route.prepare crypto parseJson r' now secrets limiter := by
  have hcontent : "content-type" ∉ route.verifier.credentialHeaders := by
    cases route.verifier <;> simp [WebhookVerifier.credentialHeaders]
  have hmap : route.mapDelivery parseJson r = route.mapDelivery parseJson r' :=
    mapDelivery_same h hcontent hmetadata
  rcases verifyDelivery_accepted h hv hv' with ⟨response, hr, hr'⟩ | ⟨hr, hr'⟩
  · rw [WebhookRoute.prepare, WebhookRoute.prepare, hr, hr']
  · rw [WebhookRoute.prepare, WebhookRoute.prepare, hr, hr', hmap]
    dsimp only
    rw [claims_same h hv hv']

end

/-! ## What a route selects -/

section

variable {α : Type} [DecidableEq α]

theorem keepFirst_spec (names : List α) : ∀ kept : List α, kept.Nodup →
    let selected := names.foldl (fun kept name => if name ∈ kept then kept else kept ++ [name]) kept
    selected.Nodup ∧ ∀ name, name ∈ selected ↔ name ∈ kept ∨ name ∈ names := by
  induction names with
  | nil =>
    intro kept hkept
    exact ⟨hkept, fun name => by simp⟩
  | cons first rest ih =>
    intro kept hkept
    dsimp only [List.foldl_cons]
    by_cases hfirst : first ∈ kept
    · rw [if_pos hfirst]
      obtain ⟨hnodup, hmem⟩ := ih kept hkept
      refine ⟨hnodup, fun name => ?_⟩
      rw [hmem name, List.mem_cons]
      constructor
      · rintro (h | h)
        · exact .inl h
        · exact .inr (.inr h)
      · rintro (h | rfl | h)
        · exact .inl h
        · exact .inl hfirst
        · exact .inr h
    · rw [if_neg hfirst]
      have hnext : (kept ++ [first]).Nodup :=
        List.nodup_append.mpr ⟨hkept, List.nodup_singleton first, by
          intro a ha b hb
          rw [List.mem_singleton] at hb
          rintro rfl
          exact hfirst (hb ▸ ha)⟩
      obtain ⟨hnodup, hmem⟩ := ih (kept ++ [first]) hnext
      refine ⟨hnodup, fun name => ?_⟩
      rw [hmem name, List.mem_append, List.mem_singleton, List.mem_cons, or_assoc]

end

/-- What `selected_headers` has checked, and what it selects. -/
theorem selectedHeaders_eq_ok {mapping : PayloadMapping} {verifier : WebhookVerifier}
    {selected : List HeaderName} (h : selectedHeaders mapping verifier = .ok selected) :
    (∀ name ∈ mapping.metadataHeaders, name ∉ verifier.credentialHeaders) ∧ selected.Nodup ∧
      ∀ name, name ∈ selected ↔
        name ∈ verifier.selectedHeaders ∨ name = "content-type" ∨ name ∈ mapping.metadataHeaders := by
  unfold selectedHeaders at h
  dsimp only at h
  split_ifs at h with _ _ _ hoverlap
  cases h
  obtain ⟨hnodup, hmem⟩ := keepFirst_spec
    (verifier.selectedHeaders ++ ["content-type"] ++ mapping.metadataHeaders) [] List.nodup_nil
  refine ⟨fun name hname hcredential => hoverlap ?_, hnodup, fun name => ?_⟩
  · exact List.any_eq_true.mpr ⟨name, hname, decide_eq_true hcredential⟩
  · rw [hmem name]
    simp

theorem WebhookRoute.new_eq_ok {configuration : WebhookRouteConfiguration} {verifier : WebhookVerifier}
    {capabilities : Option (List CapabilityDescriptor)} {durability : StoreDurability}
    {route : WebhookRoute} (h : WebhookRoute.new configuration verifier capabilities durability = .ok route) :
    route.configuration = configuration ∧ route.verifier = verifier ∧
      Webhook.selectedHeaders configuration.mapping verifier = .ok route.selectedHeaders := by
  revert h
  fun_cases WebhookRoute.new configuration verifier capabilities durability <;> intro h <;> try cases h
  obtain ⟨_, _, h⟩ := bind_ok h
  split_ifs at h
  obtain ⟨selected, hselected, h⟩ := bind_ok h
  split_ifs at h
  cases h
  exact ⟨rfl, rfl, hselected⟩

/-- **Credentials do not influence accepted deliveries, and selection hides nothing.** -/
theorem credentials_do_not_influence {configuration : WebhookRouteConfiguration}
    {verifier : WebhookVerifier} {capabilities : Option (List CapabilityDescriptor)}
    {durability : StoreDurability} {route : WebhookRoute}
    (hnew : WebhookRoute.new configuration verifier capabilities durability = .ok route)
    (crypto : Crypto) (parseJson : Bytes → Option Json) :
    (∀ (r r' : VerificationRequest) (now : WebhookIngressTime) (secrets : SecretAnswer)
        (limiter : AuthenticatedRequestLimiter) (services : Services) (v v' : VerificationResult),
        SameFor (· ∉ verifier.credentialHeaders) r r' →
        verifier.verify crypto r secrets (now.unixMilliseconds / 1000 : Nat) = .ok v →
        verifier.verify crypto r' secrets (now.unixMilliseconds / 1000 : Nat) = .ok v' →
        route.prepare crypto parseJson r now secrets limiter =
            route.prepare crypto parseJson r' now secrets limiter ∧
          route.begin crypto parseJson r now secrets limiter services =
            route.begin crypto parseJson r' now secrets limiter services) ∧ route.selectedHeaders.Nodup ∧
      (∀ name, name ∈ route.selectedHeaders ↔ name ∈ verifier.selectedHeaders ∨
        name = "content-type" ∨ name ∈ configuration.mapping.metadataHeaders) ∧
      ∀ (limits : Http.RawBodyHandlerLimits) (r : VerificationRequest)
        (selected : List (HeaderName × Bytes)) (now : WebhookIngressTime) (secrets : SecretAnswer)
        (limiter : AuthenticatedRequestLimiter) (services : Services),
        Http.selectRawBodyHeaders limits route.selectedHeaders r.headers = some selected →
        route.begin crypto parseJson { r with headers := selected } now secrets limiter services =
          route.begin crypto parseJson r now secrets limiter services := by
  obtain ⟨rfl, rfl, hselected⟩ := WebhookRoute.new_eq_ok hnew
  obtain ⟨hmetadata, hnodup, hmem⟩ := selectedHeaders_eq_ok hselected
  refine ⟨?_, hnodup, hmem, ?_⟩
  · intro r r' now secrets limiter services v v' hsame hv hv'
    have hprepare : route.prepare crypto parseJson r now secrets limiter =
        route.prepare crypto parseJson r' now secrets limiter :=
      prepare_accepted hsame hmetadata hv hv' limiter
    exact ⟨hprepare, by rw [WebhookRoute.begin, WebhookRoute.begin, hprepare]⟩
  · intro limits r selected now secrets limiter services hselect
    have hsame : SameFor (· ∈ route.selectedHeaders) { r with headers := selected } r :=
      ⟨rfl, rfl, rfl, fun name hname => Http.selected_values hnodup hselect hname⟩
    rw [WebhookRoute.begin, WebhookRoute.begin, prepare_same hsame]
    · exact fun name hname => (hmem name).mpr (.inl hname)
    · exact (hmem _).mpr (.inr (.inl rfl))
    · exact fun name hname => (hmem name).mpr (.inr (.inr hname))

/-- A delivery of an empty object, signed in the first or the second second. -/
def stripeRequest (second : String) : VerificationRequest where
  method := "POST"
  target := "/hook"
  headers := [("stripe-signature", Encoding.ascii ("t=" ++ second ++ ",v1=" ++
      if second = "1" then "1122767b193110cfec322b6f199b599edbf608ed087f2d27afb0b97d99523908"
      else "f22d1ec8af589711cd384ec8d9c0de1f6b612833cc985dd3bf1d170d89689a28")),
    ("content-type", Encoding.ascii "application/json"), ("x-event", Encoding.ascii "push")]
  body := Encoding.ascii "\x7b\x7d"

/-- A non-idempotent route to `deploy` that copies one metadata header. -/
def stripeConfiguration : WebhookRouteConfiguration :=
  { (sampleRoute (.stripe .standard) rfl).configuration with mapping := .envelope ["x-event"] }

def stripeRoute : WebhookRoute where
  configuration := stripeConfiguration
  verifier := .stripe .standard
  selectedHeaders := ["stripe-signature", "content-type", "x-event"]
  identity_required _ := rfl

theorem stripeRoute_new : WebhookRoute.new stripeConfiguration (.stripe .standard)
    (some sampleRegistry.capabilities) .persistent = .ok stripeRoute := by
  decide +kernel

/-- Two timestamps, two credentials, one delivery. -/
theorem stripe_timestamp_does_not_influence :
    WebhookRoute.new stripeConfiguration (.stripe .standard) (some sampleRegistry.capabilities)
        .persistent = .ok stripeRoute ∧ stripeRequest "1" ≠ stripeRequest "2" ∧
      stripeRoute.prepare sampleCrypto sampleHost.parseJson (stripeRequest "1") ⟨1000, 0⟩ sampleSecrets
          .standard =
        stripeRoute.prepare sampleCrypto sampleHost.parseJson (stripeRequest "2") ⟨1000, 0⟩ sampleSecrets
          .standard := by
  have haccepts : ∀ second ∈ ["1", "2"], ∃ v, WebhookVerifier.verify sampleCrypto (.stripe .standard)
      (stripeRequest second) sampleSecrets (1000 / 1000 : Nat) = .ok v := by
    intro second hsecond
    have hok : (WebhookVerifier.verify sampleCrypto (.stripe .standard) (stripeRequest second)
        sampleSecrets (1000 / 1000 : Nat)).isOk = true := by
      revert second
      decide +kernel
    cases hverify : WebhookVerifier.verify sampleCrypto (.stripe .standard) (stripeRequest second)
        sampleSecrets (1000 / 1000 : Nat) with
    | error e =>
      rw [hverify] at hok
      cases hok
    | ok v => exact ⟨v, rfl⟩
  obtain ⟨v, hv⟩ := haccepts "1" (by decide)
  obtain ⟨v', hv'⟩ := haccepts "2" (by decide)
  have hsame : SameFor (· ∉ (WebhookVerifier.stripe .standard).credentialHeaders) (stripeRequest "1")
      (stripeRequest "2") := by
    refine ⟨rfl, rfl, rfl, fun name hname => ?_⟩
    have hne : "stripe-signature" ≠ name := by
      rintro rfl
      exact hname (by decide)
    simp [VerificationRequest.headerValues, Encoding.fieldValues, stripeRequest, hne]
  have hrun := (credentials_do_not_influence stripeRoute_new sampleCrypto sampleHost.parseJson).1
    (stripeRequest "1") (stripeRequest "2") ⟨1000, 0⟩ sampleSecrets .standard
    ⟨fun _ _ _ => .ok .claimed, fun _ => .ok (), none⟩ v v' hsame hv hv'
  exact ⟨stripeRoute_new, by decide +kernel, hrun.1⟩

end Bondry.Webhook
