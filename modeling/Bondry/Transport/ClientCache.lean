/-
  CONNECTION POOLS (`bondry-transport-net`, `http.rs`).

  A client is built for one endpoint and one policy and serves every request with the same POOL KEY: the
  scheme, the port and the policy as they are, and the host in lower case.  A request looks its key up, and
  where there is nothing builds a client outside the lock and comes back to insert it; other requests can do
  the same in between, so a run here is any sequence of the two steps of any number of requests.

  The platform's TLS verifier and the network are outside the repository: what they answer is an argument.  A
  poisoned lock is left out, and so is a build without the `tls` feature.
-/
import Bondry.Egress.EndpointPolicy
import Bondry.Lib.Lru
import Bondry.Lib.Run

namespace Bondry.Transport

open Egress Encoding

/-! ## Clients -/

/-- The roots a TLS configuration verifies against, besides those of the platform. -/
structure TlsConfig where
  extraRoots : List AdditionalTrustAnchor
  deriving DecidableEq

/-- `PooledClient`: what its `PolicyConnector` holds. -/
structure PooledClient where
  endpoint : UriEndpoint
  policy : EndpointPolicy
  tlsConfig : Option TlsConfig
  deriving DecidableEq

/-- `NetHttpTransport::tls_config`; a verifier with additional roots may fail to build. -/
def tlsConfig (verifierBuilds : Bool) (policy : EndpointPolicy) : Except TransportError TlsConfig :=
  if policy.additionalTrustAnchors = [] then .ok ⟨[]⟩
  else if verifierBuilds then .ok ⟨policy.additionalTrustAnchors⟩
  else .error .tlsFailed

def buildClient (verifierBuilds : Bool) (endpoint : UriEndpoint) (policy : EndpointPolicy) :
    Except TransportError PooledClient :=
  match endpoint.scheme with
  | .https => (tlsConfig verifierBuilds policy).map fun config => ⟨endpoint, policy, some config⟩
  | .http => .ok ⟨endpoint, policy, none⟩
  | .webSocket | .webSocketSecure => .error .unsupportedEndpoint

/-- `same_origin` of the connector. -/
def sameOrigin (rules : UriRules) (uri : Uri) (endpoint : UriEndpoint) : Bool :=
  (uri.scheme = some endpoint.scheme.asStr.toList) &&
    (uri.authority.map rules.host).any (fun host => eqIgnoreAsciiCase host (endpoint.host rules)) &&
    ((uri.authority.bind rules.port).getD endpoint.scheme.defaultPort = endpoint.port rules)

/-! ## The cache -/

structure PoolKey where
  scheme : NetworkScheme
  host : Text
  port : UInt16
  policy : EndpointPolicy
  deriving DecidableEq

def PoolKey.new (rules : UriRules) (endpoint : UriEndpoint) (policy : EndpointPolicy) : PoolKey :=
  ⟨endpoint.scheme, (endpoint.host rules).map Char.toLower, endpoint.port rules, policy⟩

def maxHttpPoolPartitions : Nat := 256

structure PoolRequest (rules : UriRules) where
  endpoint : UriEndpoint
  policy : EndpointPolicy
  accepted : UriEndpoint.new rules endpoint.uri = .ok endpoint

def PoolRequest.key {rules : UriRules} (request : PoolRequest rules) : PoolKey :=
  PoolKey.new rules request.endpoint request.policy

/-- How far `client_for` is for a request. -/
inductive Phase where
  | idle
  | building
  | served (client : PooledClient)
  | failed (error : TransportError)
  deriving DecidableEq

/-- `NetHttpTransport` with the requests on their way.  `uses` is a ghost: the keys of the clients handed out,
    the last one first. -/
structure Pool where
  entries : List (PoolKey × PooledClient)
  uses : List PoolKey
  phase : Nat → Phase

def Pool.empty : Pool := ⟨[], [], fun _ => .idle⟩

/-- The two critical sections of `client_for`. -/
inductive Action where
  | lookup (id : Nat)
  | finish (id : Nat) (verifierBuilds : Bool)

/-- One step of `client_for` for one of the requests. -/
def step {rules : UriRules} (requests : Nat → PoolRequest rules) (s : Pool) (action : Action) : Pool :=
  match action with
  | .lookup id =>
    if s.phase id = .idle then
      match Lru.get s.entries (requests id).key with
      | some (client, entries) =>
        ⟨entries, (requests id).key :: s.uses, Function.update s.phase id (.served client)⟩
      | none => { s with phase := Function.update s.phase id .building }
    else s
  | .finish id verifierBuilds =>
    if s.phase id = .building then
      match buildClient verifierBuilds (requests id).endpoint (requests id).policy with
      | .error error => { s with phase := Function.update s.phase id (.failed error) }
      | .ok built =>
        let (client, entries) := Lru.insert maxHttpPoolPartitions s.entries (requests id).key built
        ⟨entries, (requests id).key :: s.uses, Function.update s.phase id (.served client)⟩
    else s

/-! ## Decisions do not see case -/

abbrev lower (text : Text) : Text := text.map Char.toLower

theorem toLower_eq_iff {c d : Char} (hd : d.isAlpha = false) : c.toLower = d ↔ c = d := by
  by_cases hc : c.isAlpha = true
  · have hlower : c.toLower.isAlpha = true := by rw [Char.isAlpha_toLower_eq_isAlpha, hc]
    constructor
    · rintro rfl
      rw [hlower] at hd
      cases hd
    · rintro rfl
      rw [hc] at hd
      cases hd
  · rw [Char.toLower_eq_of_not_isUpper fun hupper => hc (by rw [Char.isAlpha, hupper, Bool.true_or])]

theorem lower_lower (text : Text) : lower (lower text) = lower text := by
  simp [lower]

theorem getLast?_lower {text : Text} {d : Char} (hd : d.isAlpha = false) :
    (lower text).getLast? = some d ↔ text.getLast? = some d := by
  simp [toLower_eq_iff hd]

theorem eq_of_lower {a b : Text} (ha : ∀ c ∈ a, c.isAlpha = false) (h : lower b = a) : b = a := by
  induction a generalizing b with
  | nil => exact List.map_eq_nil_iff.mp h
  | cons c rest ih =>
    obtain ⟨first, others, rfl, hfirst, hothers⟩ := List.map_eq_cons_iff.mp h
    rw [(toLower_eq_iff (ha c (List.mem_cons_self ..))).mp hfirst,
      ih (fun c hc => ha c (List.mem_cons_of_mem _ hc)) hothers]

theorem lower_of_no_letters {a : Text} (ha : ∀ c ∈ a, c.isAlpha = false) : lower a = a := by
  rw [lower, List.map_congr_left fun c hc => (toLower_eq_iff (ha c hc)).mpr rfl]
  exact List.map_id' a

theorem unbracketedHost_lower (host : Text) : unbracketedHost (lower host) = lower (unbracketedHost host) := by
  rcases host with _ | ⟨first, rest⟩
  · rfl
  have hcheck : (first.toLower = '[' ∧ (lower rest).getLast? = some ']') ↔
      (first = '[' ∧ rest.getLast? = some ']') := by
    rw [toLower_eq_iff (by decide), getLast?_lower (by decide)]
  show (if first.toLower = '[' ∧ (lower rest).getLast? = some ']' then (lower rest).dropLast else _) = _
  rw [unbracketedHost]
  simp only [hcheck]
  split_ifs
  · exact (List.map_dropLast ..).symm
  · rfl

theorem stripDot_lower (host : Text) : stripDot (lower host) = lower (stripDot host) := by
  rw [stripDot, stripDot]
  simp only [getLast?_lower (d := '.') (by decide)]
  split_ifs
  · exact (List.map_dropLast ..).symm
  · rfl

theorem eqIgnoreAsciiCase_lower (a b : Text) : eqIgnoreAsciiCase (lower a) b = eqIgnoreAsciiCase a b := by
  rw [eqIgnoreAsciiCase, eqIgnoreAsciiCase, ← lower, ← lower, lower_lower]

theorem digit_not_letter {c : Char} (h : c.isDigit = true) : c.isAlpha = false := by
  simp only [Char.isDigit, Char.isAlpha, Char.isUpper, Char.isLower, ge_iff_le, UInt32.le_iff_toNat_le,
    Bool.and_eq_true, decide_eq_true_eq, Bool.or_eq_false_iff, Bool.and_eq_false_iff, decide_eq_false_iff_not,
    not_and_or, Char.reduceVal, UInt32.reduceToNat] at h ⊢
  omega

theorem canonicalIpv4_letters {host : Text} {address : Vector UInt8 4} (h : canonicalIpv4 host = some address) :
    ∀ c ∈ host, c.isAlpha = false := by
  obtain ⟨first, second, third, fourth, hparts, ha, hb, hc, hd⟩ := canonicalIpv4_iff.mp h
  have hoctet : ∀ {part : Text} {b : UInt8}, OctetText part b → ∀ c ∈ part, c.isAlpha = false := by
    rintro part b (rfl | ⟨digits, rfl, -, hdigits, -⟩) c hmem
    · exact digit_not_letter (Nat.isDigit_of_mem_toDigits (by decide) (by decide) hmem)
    · rcases List.mem_cons.mp hmem with rfl | hmem
      · decide
      · exact digit_not_letter (List.all_eq_true.mp hdigits c hmem)
  have hhost : ['.'].intercalate (host.splitOn '.') = host := List.intercalate_splitOn '.'
  rw [hparts] at hhost
  intro c hmem
  rw [← hhost] at hmem
  simp only [List.intercalate, List.intersperse, List.flatten_cons, List.flatten_nil, List.mem_append,
    List.append_nil, List.mem_singleton] at hmem
  rcases hmem with hmem | rfl | hmem | rfl | hmem | rfl | hmem
  · exact hoctet ha c hmem
  · decide
  · exact hoctet hb c hmem
  · decide
  · exact hoctet hc c hmem
  · decide
  · exact hoctet hd c hmem

theorem canonicalIpv4_lower (host : Text) : canonicalIpv4 (lower host) = canonicalIpv4 host := by
  rcases hlower : canonicalIpv4 (lower host) with _ | address
  · rcases hhost : canonicalIpv4 host with _ | address
    · rfl
    · rw [lower_of_no_letters (canonicalIpv4_letters hhost), hhost] at hlower
      cases hlower
  · rw [eq_of_lower (canonicalIpv4_letters hlower) rfl, hlower]

theorem loopbackIntent_lower (host : Text) : loopbackIntent (lower host) = loopbackIntent host := by
  have hone : lower (unbracketedHost host) = "::1".toList ↔ unbracketedHost host = "::1".toList := by
    constructor
    · refine eq_of_lower ?_
      intro c hc
      rcases List.mem_cons.mp hc with rfl | hc
      · rfl
      · rcases List.mem_cons.mp hc with rfl | hc
        · rfl
        · rw [List.mem_singleton.mp hc]
          rfl
    · exact fun h => by rw [h]; rfl
  rw [loopbackIntent, loopbackIntent]
  simp only [unbracketedHost_lower, stripDot_lower, eqIgnoreAsciiCase_lower, canonicalIpv4_lower, hone, ne_eq,
    getLast?_lower (d := '.') (by decide)]

theorem looksLikeIpLiteral_lower (host : Text) : looksLikeIpLiteral (lower host) = looksLikeIpLiteral host := by
  have hchar : ∀ c : Char, (c.toLower.isDigit || c.toLower == '.') = (c.isDigit || c == '.') := by
    intro c
    by_cases hc : c.isAlpha = true
    · have hlower : c.toLower.isAlpha = true := by rw [Char.isAlpha_toLower_eq_isAlpha, hc]
      have hnot : ∀ d : Char, d.isAlpha = true → (d.isDigit || d == '.') = false := by
        intro d hd
        rw [Bool.or_eq_false_iff]
        constructor
        · exact Bool.eq_false_iff.mpr fun hdigit => by rw [digit_not_letter hdigit] at hd; cases hd
        · exact beq_eq_false_iff_ne.mpr fun heq => by rw [heq] at hd; cases hd
      rw [hnot c hc, hnot _ hlower]
    · rw [(toLower_eq_iff (Bool.eq_false_iff.mpr hc)).mpr rfl]
  have hcolon : (lower (unbracketedHost host)).contains ':' = (unbracketedHost host).contains ':' := by
    simp [toLower_eq_iff (d := ':') (by decide)]
  rw [looksLikeIpLiteral, looksLikeIpLiteral]
  simp only [unbracketedHost_lower, hcolon]
  simp only [lower, List.all_map, Function.comp_def, hchar]

theorem serverNamesMatch_lower (host name : Text) :
    serverNamesMatch (lower host) name = serverNamesMatch host name := by
  have htrim : (lower host).rdropWhile (· = '.') = lower (host.rdropWhile (· = '.')) := by
    rw [List.rdropWhile, List.rdropWhile, lower, ← List.map_reverse, List.dropWhile_map, lower, List.map_reverse]
    simp [Function.comp_def, toLower_eq_iff (d := '.') (by decide)]
  rw [serverNamesMatch, htrim, eqIgnoreAsciiCase_lower, serverNamesMatch]

theorem verifyConnection_key {rules : UriRules} {policy : EndpointPolicy} {a b : UriEndpoint}
    (hscheme : a.scheme = b.scheme) (hhost : lower (a.host rules) = lower (b.host rules))
    (hport : a.port rules = b.port rules) (evidence : ConnectionEvidence) :
    policy.verifyConnection rules a evidence = policy.verifyConnection rules b evidence := by
  have hcongr : ∀ {α : Type} (f : Text → α), (∀ host, f (lower host) = f host) → f (a.host rules) = f (b.host rules) :=
    fun f hf => by rw [← hf (a.host rules), hhost, hf]
  have hmatch : ∀ name, serverNamesMatch (a.host rules) name = serverNamesMatch (b.host rules) name :=
    fun name => hcongr (serverNamesMatch · name) (serverNamesMatch_lower · name)
  have hpeer : ∀ peer, policy.verifyPeer (a.host rules) (b.port rules) peer =
      policy.verifyPeer (b.host rules) (b.port rules) peer := by
    intro peer
    rw [EndpointPolicy.verifyPeer, hcongr loopbackIntent loopbackIntent_lower,
      hcongr looksLikeIpLiteral looksLikeIpLiteral_lower, ← EndpointPolicy.verifyPeer]
  simp only [EndpointPolicy.verifyConnection.eq_def, hscheme, hport, hmatch, hpeer]

theorem sameOrigin_key {rules : UriRules} {a b : UriEndpoint} (haccepted : UriEndpoint.new rules a.uri = .ok a)
    (hscheme : a.scheme = b.scheme) (hhost : lower (a.host rules) = lower (b.host rules))
    (hport : a.port rules = b.port rules) : sameOrigin rules a.uri b = true := by
  obtain ⟨-, -, hkind, authority, hauthority, -⟩ := UriEndpoint.new_eq_ok.mp haccepted
  have hname := networkScheme_eq_some hkind
  have hown : a.host rules = rules.host authority := by rw [UriEndpoint.host, hauthority]; rfl
  rw [hown] at hhost
  rw [sameOrigin, hname, hauthority, ← hscheme, ← hport, UriEndpoint.port, hauthority]
  simp [eqIgnoreAsciiCase, hhost]

/-! ## Runs -/

/-- A client that was built for an endpoint and a policy with a key. -/
def BuiltFor (rules : UriRules) (key : PoolKey) (client : PooledClient) : Prop :=
  ∃ endpoint policy verifierBuilds, buildClient verifierBuilds endpoint policy = .ok client ∧
    PoolKey.new rules endpoint policy = key

/-- The invariant: the queue is in order, and every client was built for the key it is under. -/
structure Pooled {rules : UriRules} (requests : Nat → PoolRequest rules) (s : Pool) : Prop where
  ordered : Lru.Ordered maxHttpPoolPartitions s.uses s.entries
  entries : ∀ entry ∈ s.entries, BuiltFor rules entry.1 entry.2
  served : ∀ id client, s.phase id = .served client → BuiltFor rules (requests id).key client

theorem pooled_empty {rules : UriRules} (requests : Nat → PoolRequest rules) : Pooled requests .empty :=
  ⟨Lru.ordered_nil _ _, fun _ hmem => absurd hmem List.not_mem_nil, fun _ _ h => nomatch h⟩

section

variable {rules : UriRules} {requests : Nat → PoolRequest rules} {s : Pool}

theorem Pooled.phase (h : Pooled requests s) {id : Nat} {phase : Phase}
    (hphase : ∀ client, phase = .served client → BuiltFor rules (requests id).key client) (id' : Nat)
    (client : PooledClient) (hserved : Function.update s.phase id phase id' = .served client) :
    BuiltFor rules (requests id').key client := by
  by_cases hid : id' = id
  · rw [hid, Function.update_self] at hserved
    rw [hid]
    exact hphase client hserved
  · rw [Function.update_of_ne hid] at hserved
    exact h.served id' client hserved

theorem Pooled.step (h : Pooled requests s) (action : Action) : Pooled requests (step requests s action) := by
  rcases action with id | ⟨id, verifierBuilds⟩
  · rw [Transport.step]
    split_ifs with hidle
    · rcases hget : Lru.get s.entries (requests id).key with _ | ⟨client, entries⟩
      · exact ⟨h.ordered, h.entries, h.phase fun _ heq => nomatch heq⟩
      · have hbuilt := h.entries _ (Lru.mem_of_get hget)
        refine ⟨h.ordered.get hget, fun entry hentry => h.entries entry ((Lru.get_mem hget entry).mp hentry), ?_⟩
        exact h.phase fun _ heq => Phase.served.inj heq ▸ hbuilt
    · exact h
  · rw [Transport.step]
    split_ifs with hbuilding
    · rcases hbuild : buildClient verifierBuilds (requests id).endpoint (requests id).policy with error | built
      · exact ⟨h.ordered, h.entries, h.phase fun _ heq => nomatch heq⟩
      have hown : BuiltFor rules (requests id).key built := ⟨_, _, _, hbuild, rfl⟩
      refine ⟨h.ordered.insert (by decide) _ _, ?_, h.phase ?_⟩
      · intro entry hentry
        rcases Lru.insert_mem hentry with hold | rfl
        · exact h.entries entry hold
        · exact hown
      · intro client heq
        obtain rfl := Phase.served.inj heq
        rcases Lru.insert_value (requests id).key built with hold | hnew
        · exact h.entries _ hold
        · rw [hnew]
          exact hown
    · exact h

theorem Pooled.run (actions : List Action) : Pooled requests (run (Transport.step requests) .empty actions) :=
  All.run (C := fun _ _ => True) (Pooled requests) (fun _ action h _ => h.step action) (pooled_empty requests)
    (All.always fun _ _ => trivial)

theorem Pooled.evicts (h : Pooled requests s) {action : Action} {entry : PoolKey × PooledClient}
    (hentry : entry ∈ s.entries) (hgone : entry ∉ (Transport.step requests s action).entries) :
    ∀ other ∈ s.entries, other ≠ entry → Lru.age s.uses other.1 < Lru.age s.uses entry.1 := by
  rcases action with id | ⟨id, verifierBuilds⟩
  · rw [Transport.step] at hgone
    split_ifs at hgone with hidle
    · rcases hget : Lru.get s.entries (requests id).key with _ | ⟨client, entries⟩
      · rw [hget] at hgone
        exact absurd hentry hgone
      · rw [hget] at hgone
        exact absurd ((Lru.get_mem hget entry).mpr hentry) hgone
    · exact absurd hentry hgone
  · rw [Transport.step] at hgone
    split_ifs at hgone with hbuilding
    · rcases hbuild : buildClient verifierBuilds (requests id).endpoint (requests id).policy with error | built
      · rw [hbuild] at hgone
        exact absurd hentry hgone
      · rw [hbuild] at hgone
        exact h.ordered.insert_evicts hentry hgone
    · exact absurd hentry hgone

end

/-! ## Connections -/

/-- CONNECTION POOLS NEVER MIX POLICIES.  However the steps of the requests interleave, the client a request
    is served with was built for its own policy and an endpoint that the connector and the policy do not tell
    from its own; the cache has no key twice and no more than its capacity, and drops the entry used longest ago. -/
theorem pools_never_mix {rules : UriRules} (requests : Nat → PoolRequest rules) (actions : List Action) :
    (∀ id client, (run (step requests) .empty actions).phase id = .served client →
      ∃ endpoint policy verifierBuilds, buildClient verifierBuilds endpoint policy = .ok client ∧
        policy = (requests id).policy ∧ sameOrigin rules (requests id).endpoint.uri endpoint = true ∧
        ∀ evidence, policy.verifyConnection rules endpoint evidence =
          (requests id).policy.verifyConnection rules (requests id).endpoint evidence) ∧
    ((run (step requests) .empty actions).entries.map (·.1)).Nodup ∧
    (run (step requests) .empty actions).entries.length ≤ maxHttpPoolPartitions ∧
    ∀ action, ∀ entry ∈ (run (step requests) .empty actions).entries,
      entry ∉ (run (step requests) .empty (actions ++ [action])).entries →
      ∀ other ∈ (run (step requests) .empty actions).entries, other ≠ entry →
        Lru.age (run (step requests) .empty actions).uses other.1 <
          Lru.age (run (step requests) .empty actions).uses entry.1 := by
  have hpooled : Pooled requests (run (step requests) .empty actions) := Pooled.run actions
  refine ⟨?_, hpooled.ordered.nodup, hpooled.ordered.bounded, ?_⟩
  · intro id client hserved
    obtain ⟨endpoint, policy, verifierBuilds, hbuild, hkey⟩ := hpooled.served id client hserved
    have hscheme : endpoint.scheme = (requests id).endpoint.scheme := congrArg PoolKey.scheme hkey
    have hhost : lower (endpoint.host rules) = lower ((requests id).endpoint.host rules) :=
      congrArg PoolKey.host hkey
    have hport : endpoint.port rules = (requests id).endpoint.port rules := congrArg PoolKey.port hkey
    obtain rfl : policy = (requests id).policy := congrArg PoolKey.policy hkey
    exact ⟨endpoint, _, verifierBuilds, hbuild, rfl,
      sameOrigin_key (requests id).accepted hscheme.symm hhost.symm hport.symm,
      fun evidence => verifyConnection_key hscheme hhost hport evidence⟩
  · intro action entry hentry hgone
    rw [run_append] at hgone
    exact hpooled.evicts hentry hgone

end Bondry.Transport
