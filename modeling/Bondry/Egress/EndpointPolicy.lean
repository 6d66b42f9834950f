/-
  THE ENDPOINT POLICY (`bondry-transport`, `policy.rs`).

  What a route demands of the connection that will carry its bytes: an authenticated name under TLS, and for
  cleartext a peer of a class the host or the route asked for.  The ADDRESS side of the decision is a table of
  octets in the source and of NETWORKS here (`InNetwork`, an address and the number of its leading bits); the HOST
  side is a text in the source and a set of texts here (`LoopbackHost`, `HostName`).

  * `classifyIp_networks` — the table is membership in networks;
  * `canonicalIpv4_text` — which texts are taken for an address.  They are not only the canonical ones: the
    octets are read by `str::parse::<u8>`, which takes a plus sign in front of the digits (`SignedText`);
  * `verifyPeer_iff` — what follows for connections.  Exactly the `Misread` ones are decided otherwise than by
    the peer's network, the host's text and the opt-ins.
-/
import Bondry.Egress.Endpoint

namespace Bondry.Egress

open Search Encoding

/-! ## Addresses -/

/-- The bytes of an address, in network order. -/
inductive IpAddress where
  | v4 (bytes : Vector UInt8 4)
  | v6 (bytes : Vector UInt8 16)
  deriving DecidableEq

/-- `IpAddress::normalized`: an IPv4-mapped address is the IPv4 address. -/
def IpAddress.normalized : IpAddress → IpAddress
  | .v6 bytes =>
    if bytes[0] = 0 ∧ bytes[1] = 0 ∧ bytes[2] = 0 ∧ bytes[3] = 0 ∧ bytes[4] = 0 ∧ bytes[5] = 0 ∧
        bytes[6] = 0 ∧ bytes[7] = 0 ∧ bytes[8] = 0 ∧ bytes[9] = 0 ∧ bytes[10] = 0xff ∧
        bytes[11] = 0xff then
      .v4 #v[bytes[12], bytes[13], bytes[14], bytes[15]]
    else .v6 bytes
  | address => address

inductive IpAddressClass where
  | loopback
  | privateNetwork
  | linkLocal
  | carrierGradeNat
  | unspecified
  | multicast
  | documentation
  | reserved
  | publicUnicast
  deriving DecidableEq, Repr

/-- `classify_ipv4`: a table of octets, the first row that fits. -/
def classifyIpv4 (bytes : Vector UInt8 4) : IpAddressClass :=
  if bytes[0] = 127 then .loopback
  else if bytes = #v[0, 0, 0, 0] then .unspecified
  else if bytes[0] = 10 ∨ (bytes[0] = 172 ∧ bytes[1] ≥ 16 ∧ bytes[1] ≤ 31) ∨
      (bytes[0] = 192 ∧ bytes[1] = 168) then .privateNetwork
  else if bytes[0] = 169 ∧ bytes[1] = 254 then .linkLocal
  else if bytes[0] = 100 ∧ bytes[1] ≥ 64 ∧ bytes[1] ≤ 127 then .carrierGradeNat
  else if bytes[0] ≥ 224 ∧ bytes[0] ≤ 239 then .multicast
  else if (bytes[0] = 192 ∧ bytes[1] = 0 ∧ bytes[2] = 2) ∨ (bytes[0] = 198 ∧ bytes[1] = 51 ∧ bytes[2] = 100) ∨
      (bytes[0] = 203 ∧ bytes[1] = 0 ∧ bytes[2] = 113) then .documentation
  else if bytes[0] = 0 ∨ bytes[0] ≥ 240 ∨ (bytes[0] = 192 ∧ bytes[1] = 0 ∧ bytes[2] = 0) ∨
      (bytes[0] = 192 ∧ bytes[1] = 88 ∧ bytes[2] = 99) ∨
      (bytes[0] = 198 ∧ (bytes[1] = 18 ∨ bytes[1] = 19)) then .reserved
  else .publicUnicast

/-- `classify_ipv6`. -/
def classifyIpv6 (bytes : Vector UInt8 16) : IpAddressClass :=
  if bytes = #v[0, 0, 0, 0, 0, 0, 0, 0, 0, 0, 0, 0, 0, 0, 0, 1] then .loopback
  else if bytes = Vector.replicate 16 0 then .unspecified
  else if bytes[0] &&& 0xfe = 0xfc then .privateNetwork
  else if bytes[0] = 0xfe ∧ bytes[1] &&& 0xc0 = 0x80 then .linkLocal
  else if bytes[0] = 0xff then .multicast
  else if (bytes[0] = 0x20 ∧ bytes[1] = 0x01 ∧ bytes[2] = 0x0d ∧ bytes[3] = 0xb8) ∨
      (bytes[0] = 0x3f ∧ bytes[1] = 0xff ∧ bytes[2] &&& 0xf0 = 0) then .documentation
  else if bytes[0] &&& 0xe0 ≠ 0x20 ∨
      (bytes[0] = 0x20 ∧ bytes[1] = 0x01 ∧ (bytes[2] = 0x00 ∨ bytes[2] = 0x02)) then .reserved
  else .publicUnicast

def classifyIp (address : IpAddress) : IpAddressClass :=
  match address.normalized with
  | .v4 bytes => classifyIpv4 bytes
  | .v6 bytes => classifyIpv6 bytes

/-! ## Hosts -/

/-- A host without the brackets of an IPv6 literal. -/
def unbracketedHost (host : Text) : Text :=
  match host with
  | [] => host
  | first :: rest => if first = '[' ∧ rest.getLast? = some ']' then rest.dropLast else host

/-- `str::parse::<u8>`: digits behind an optional plus sign. -/
def parseU8 (part : Text) : Option UInt8 :=
  let digits := if part.head? = some '+' then part.tail else part
  if digits ≠ [] ∧ digits.all Char.isDigit = true ∧ Nat.ofDigitChars 10 digits 0 < 256 then
    some (UInt8.ofNat (Nat.ofDigitChars 10 digits 0))
  else none

/-- No empty octet and no leading zero; what is left goes to `str::parse`. -/
def canonicalOctet (part : Text) : Option UInt8 :=
  if part = [] ∨ (1 < part.length ∧ part.head? = some '0') then none else parseU8 part

/-- Four octets between dots. -/
def canonicalIpv4 (host : Text) : Option (Vector UInt8 4) :=
  match host.splitOn '.' with
  | [first, second, third, fourth] => do
      let a ← canonicalOctet first
      let b ← canonicalOctet second
      let c ← canonicalOctet third
      let d ← canonicalOctet fourth
      some #v[a, b, c, d]
  | _ => none

/-- `host.strip_suffix('.').unwrap_or(host)`. -/
def stripDot (host : Text) : Text := if host.getLast? = some '.' then host.dropLast else host

/-- The host itself asks for loopback. -/
def loopbackIntent (host : Text) : Bool :=
  let host := unbracketedHost host
  let hostname := stripDot host
  if hostname.getLast? ≠ some '.' ∧ eqIgnoreAsciiCase hostname "localhost".toList = true then true
  else if host = "::1".toList then true
  else (canonicalIpv4 host).any fun address => address[0] = 127

/-- A colon, or only digits and dots. -/
def looksLikeIpLiteral (host : Text) : Bool :=
  let host := unbracketedHost host
  host.contains ':' || host.all fun c => c.isDigit || c == '.'

/-- Equal but for case and for dots at the end. -/
def serverNamesMatch (endpoint verified : Text) : Bool :=
  eqIgnoreAsciiCase (endpoint.rdropWhile (· = '.')) (verified.rdropWhile (· = '.'))

/-! ## Decisions -/

structure AdditionalTrustAnchor where
  der : Bytes
  nonempty : der ≠ []
  bounded : der.length ≤ 16 * 1024
  deriving DecidableEq

inductive RedirectPolicy where
  | deny
  deriving DecidableEq, Repr

def maxAdditionalTrustAnchors : Nat := 8

def maxAdditionalTrustAnchorAggregateBytes : Nat := 64 * 1024

def aggregateBytes (anchors : List AdditionalTrustAnchor) : Nat := (anchors.map (·.der.length)).sum

/-- What a route opts into, with the roots it adds. -/
structure EndpointPolicy where
  allowHostnameLoopbackCleartext : Bool
  allowPrivateCleartext : Bool
  allowLinkLocalCleartext : Bool
  redirects : RedirectPolicy
  additionalTrustAnchors : List AdditionalTrustAnchor
  anchors_length : additionalTrustAnchors.length ≤ maxAdditionalTrustAnchors
  anchors_bytes : aggregateBytes additionalTrustAnchors ≤ maxAdditionalTrustAnchorAggregateBytes
  deriving DecidableEq

/-- `EndpointPolicy::default`: no opt-ins and no roots of its own. -/
def EndpointPolicy.default : EndpointPolicy := ⟨false, false, false, .deny, [], by decide, by decide⟩

structure PeerAddress where
  address : IpAddress
  port : UInt16
  interfaceScope : Option UInt32
  deriving DecidableEq

def PeerAddress.ip (peer : PeerAddress) : IpAddress := peer.address.normalized

/-- What a connector knows of a connection. -/
inductive ConnectionEvidence where
  | missing
  | tls (serverName : Text)
  | cleartext (peer : PeerAddress)
  deriving DecidableEq

structure VerifiedConnection where
  evidence : ConnectionEvidence
  deriving DecidableEq

inductive PolicyError where
  | missingEvidence
  | evidenceMismatch
  | tlsIdentityMismatch
  | loopbackIntentRequired
  | privateCleartextDenied
  | linkLocalCleartextDenied
  | linkLocalScopeRequired
  | cleartextDenied
  deriving DecidableEq, Repr

def NetworkScheme.requiresTls : NetworkScheme → Bool
  | .https | .webSocketSecure => true
  | .http | .webSocket => false

def NetworkScheme.defaultPort : NetworkScheme → UInt16
  | .http | .webSocket => 80
  | .https | .webSocketSecure => 443

def UriEndpoint.host (rules : UriRules) (endpoint : UriEndpoint) : Text :=
  (endpoint.uri.authority.map rules.host).getD []

def UriEndpoint.port (rules : UriRules) (endpoint : UriEndpoint) : UInt16 :=
  (endpoint.uri.authority.bind rules.port).getD endpoint.scheme.defaultPort

/-- The cleartext part of `verify_connection`. -/
def EndpointPolicy.verifyPeer (policy : EndpointPolicy) (host : Text) (port : UInt16) (peer : PeerAddress) :
    Except PolicyError VerifiedConnection :=
  let verified := VerifiedConnection.mk (.cleartext peer)
  if peer.port ≠ port then .error .evidenceMismatch
  else match classifyIp peer.ip with
    | .loopback =>
      if loopbackIntent host then .ok verified
      else if policy.allowHostnameLoopbackCleartext && !looksLikeIpLiteral host then .ok verified
      else .error .loopbackIntentRequired
    | .privateNetwork => if policy.allowPrivateCleartext then .ok verified else .error .privateCleartextDenied
    | .linkLocal =>
      if policy.allowLinkLocalCleartext && peer.interfaceScope.isSome then .ok verified
      else if policy.allowLinkLocalCleartext then .error .linkLocalScopeRequired
      else .error .linkLocalCleartextDenied
    | _ => .error .cleartextDenied

/-- `verify_connection`: TLS by the name, cleartext by the peer. -/
def EndpointPolicy.verifyConnection (rules : UriRules) (policy : EndpointPolicy) (endpoint : UriEndpoint)
    (evidence : ConnectionEvidence) : Except PolicyError VerifiedConnection :=
  if endpoint.scheme.requiresTls then
    match evidence with
    | .tls serverName =>
      if serverNamesMatch (endpoint.host rules) serverName then .ok ⟨evidence⟩
      else .error .tlsIdentityMismatch
    | .missing => .error .missingEvidence
    | .cleartext _ => .error .evidenceMismatch
  else match evidence with
    | .cleartext peer => policy.verifyPeer (endpoint.host rules) (endpoint.port rules) peer
    | .missing => .error .missingEvidence
    | .tls _ => .error .evidenceMismatch

/-! ## Networks -/

/-- The number an address is. -/
def bigEndian (bytes : List UInt8) : Nat := bytes.foldl (fun value b => 256 * value + b.toNat) 0

/-- An address with the leading bits of another: `base/length`. -/
def InNetwork {n : Nat} (bytes base : Vector UInt8 n) (length : Nat) : Prop :=
  bigEndian bytes.toList / 2 ^ (8 * n - length) = bigEndian base.toList / 2 ^ (8 * n - length)

/-- 127.0.0.0/8 and ::1. -/
def IpAddress.IsLoopback : IpAddress → Prop
  | .v4 bytes => InNetwork bytes #v[127, 0, 0, 0] 8
  | .v6 bytes => InNetwork bytes #v[0, 0, 0, 0, 0, 0, 0, 0, 0, 0, 0, 0, 0, 0, 0, 1] 128

/-- RFC 1918 and fc00::/7. -/
def IpAddress.IsPrivate : IpAddress → Prop
  | .v4 bytes => InNetwork bytes #v[10, 0, 0, 0] 8 ∨ InNetwork bytes #v[172, 16, 0, 0] 12 ∨
      InNetwork bytes #v[192, 168, 0, 0] 16
  | .v6 bytes => InNetwork bytes #v[0xfc, 0, 0, 0, 0, 0, 0, 0, 0, 0, 0, 0, 0, 0, 0, 0] 7

/-- 169.254.0.0/16 and fe80::/10. -/
def IpAddress.IsLinkLocal : IpAddress → Prop
  | .v4 bytes => InNetwork bytes #v[169, 254, 0, 0] 16
  | .v6 bytes => InNetwork bytes #v[0xfe, 0x80, 0, 0, 0, 0, 0, 0, 0, 0, 0, 0, 0, 0, 0, 0] 10

/-- The bytes are digits to the base 256, the most significant one first. -/
theorem bigEndian_eq (bytes : List UInt8) :
    bigEndian bytes = Nat.ofDigits 256 (bytes.reverse.map UInt8.toNat) := by
  induction bytes using List.reverseRecOn with
  | nil => rfl
  | append_singleton bytes b ih =>
    rw [bigEndian, List.foldl_append, ← bigEndian, ih]
    simp [Nat.ofDigits_cons, Nat.add_comm]

theorem bigEndian_cons (b : UInt8) (rest : List UInt8) :
    bigEndian (b :: rest) = b.toNat * 256 ^ rest.length + bigEndian rest := by
  simp [bigEndian_eq, Nat.ofDigits_append, Nat.add_comm, Nat.mul_comm]

theorem digits_lt {bytes : List UInt8} {d : Nat} (h : d ∈ bytes.reverse.map UInt8.toNat) : d < 256 := by
  obtain ⟨b, -, rfl⟩ := List.mem_map.mp h
  exact b.toNat_lt

theorem bigEndian_lt (bytes : List UInt8) : bigEndian bytes < 256 ^ bytes.length := by
  have hdigits : ∀ d ∈ bytes.reverse.map UInt8.toNat, d < 256 := fun _ => digits_lt
  rw [bigEndian_eq]
  simpa using Nat.ofDigits_lt_base_pow_length (by decide) hdigits

theorem bigEndian_injective {a b : List UInt8} (hlength : a.length = b.length)
    (h : bigEndian a = bigEndian b) : a = b := by
  rw [bigEndian_eq, bigEndian_eq] at h
  have hdigits := Nat.ofDigits_inj_of_len_eq (by decide) (by simpa using hlength) (fun _ => digits_lt)
    (fun _ => digits_lt) h
  exact List.reverse_injective (List.map_injective_iff.mpr (fun _ _ => UInt8.toNat_inj.mp) hdigits)

theorem vector_four (bytes : Vector UInt8 4) : bytes = #v[bytes[0], bytes[1], bytes[2], bytes[3]] := by
  ext i hi
  match i, hi with
  | 0, _ => rfl
  | 1, _ => rfl
  | 2, _ => rfl
  | 3, _ => rfl

theorem bigEndian_four (bytes : Vector UInt8 4) :
    bigEndian bytes.toList = 256 * (256 * (256 * bytes[0].toNat + bytes[1].toNat) + bytes[2].toNat) +
      bytes[3].toNat := by
  rw [vector_four bytes]
  simp [bigEndian]

theorem bigEndian_sixteen (bytes : Vector UInt8 16) :
    bigEndian bytes.toList / 2 ^ 112 = 256 * bytes[0].toNat + bytes[1].toNat := by
  obtain ⟨rest, hlist⟩ : ∃ rest, bytes.toList = bytes[0] :: bytes[1] :: rest := by
    rcases hlist : bytes.toList with _ | ⟨a, _ | ⟨b, rest⟩⟩
    · exact absurd (congrArg List.length hlist) (by simp)
    · exact absurd (congrArg List.length hlist) (by simp)
    · refine ⟨rest, ?_⟩
      have h0 : bytes[0] = bytes.toList[0] := rfl
      have h1 : bytes[1] = bytes.toList[1] := rfl
      simp [h0, h1, hlist]
  have hlength : rest.length = 14 := by
    have := congrArg List.length hlist
    simp at this
    omega
  have hrest := bigEndian_lt rest
  rw [hlength] at hrest
  rw [hlist, bigEndian_cons, bigEndian_cons, List.length_cons, hlength]
  omega

/-- The rows of the three classes that decide about cleartext; no row before them takes their addresses. -/
theorem classifyIpv4_iff (bytes : Vector UInt8 4) : (classifyIpv4 bytes = .loopback ↔ bytes[0] = 127) ∧
    (classifyIpv4 bytes = .privateNetwork ↔
      bytes[0] = 10 ∨ (bytes[0] = 172 ∧ bytes[1] ≥ 16 ∧ bytes[1] ≤ 31) ∨ (bytes[0] = 192 ∧ bytes[1] = 168)) ∧
    (classifyIpv4 bytes = .linkLocal ↔ bytes[0] = 169 ∧ bytes[1] = 254) := by
  have hzero : bytes = #v[0, 0, 0, 0] → bytes[0] = 0 := fun h => by rw [h]; rfl
  rw [classifyIpv4]
  split_ifs <;> grind

/-- The same three rows for IPv6. -/
theorem classifyIpv6_iff (bytes : Vector UInt8 16) :
    (classifyIpv6 bytes = .loopback ↔ bytes = #v[0, 0, 0, 0, 0, 0, 0, 0, 0, 0, 0, 0, 0, 0, 0, 1]) ∧
    (classifyIpv6 bytes = .privateNetwork ↔ bytes[0] &&& 0xfe = 0xfc) ∧
    (classifyIpv6 bytes = .linkLocal ↔ bytes[0] = 0xfe ∧ bytes[1] &&& 0xc0 = 0x80) := by
  have hone : bytes = #v[0, 0, 0, 0, 0, 0, 0, 0, 0, 0, 0, 0, 0, 0, 0, 1] → bytes[0] = 0 :=
    fun h => by rw [h]; rfl
  have hmask : bytes[0] = 0 ∨ bytes[0] = 0xfe → ¬ bytes[0] &&& 0xfe = 0xfc := by
    rintro (h | h)
    · rw [h]
      decide
    · rw [h]
      decide
  rw [classifyIpv6]
  split_ifs <;> grind

theorem classifyIpv4_networks (bytes : Vector UInt8 4) :
    (classifyIpv4 bytes = .loopback ↔ (IpAddress.v4 bytes).IsLoopback) ∧
    (classifyIpv4 bytes = .privateNetwork ↔ (IpAddress.v4 bytes).IsPrivate) ∧
    (classifyIpv4 bytes = .linkLocal ↔ (IpAddress.v4 bytes).IsLinkLocal) := by
  obtain ⟨hloopback, hprivate, hlink⟩ := classifyIpv4_iff bytes
  rw [hloopback, hprivate, hlink]
  simp only [IpAddress.IsLoopback, IpAddress.IsPrivate, IpAddress.IsLinkLocal, InNetwork, bigEndian_four,
    ← UInt8.toNat_inj, ge_iff_le, UInt8.le_iff_toNat_le]
  have h1 := bytes[1].toNat_lt
  have h2 := bytes[2].toNat_lt
  have h3 := bytes[3].toNat_lt
  simp
  omega

theorem masks (b : UInt8) : (b &&& 0xfe = 0xfc ↔ b.toNat / 2 = 126) ∧ (b &&& 0xc0 = 0x80 ↔ b.toNat / 64 = 2) := by
  have htest := forall_byte (p := fun b => decide ((b &&& 0xfe = 0xfc ↔ b.toNat / 2 = 126) ∧
    (b &&& 0xc0 = 0x80 ↔ b.toNat / 64 = 2))) (by decide +kernel) b
  exact of_decide_eq_true htest

theorem classifyIpv6_networks (bytes : Vector UInt8 16) :
    (classifyIpv6 bytes = .loopback ↔ (IpAddress.v6 bytes).IsLoopback) ∧
    (classifyIpv6 bytes = .privateNetwork ↔ (IpAddress.v6 bytes).IsPrivate) ∧
    (classifyIpv6 bytes = .linkLocal ↔ (IpAddress.v6 bytes).IsLinkLocal) := by
  obtain ⟨hloopback, hprivate, hlink⟩ := classifyIpv6_iff bytes
  rw [hloopback, hprivate, hlink, (masks _).1, (masks _).2, ← UInt8.toNat_inj]
  have h1 := bytes[1].toNat_lt
  have hlead := bigEndian_sixteen bytes
  refine ⟨?_, ?_, ?_⟩
  · constructor
    · intro h
      rw [h]
      rfl
    · intro h
      simp only [IpAddress.IsLoopback, InNetwork, Nat.reduceMul, Nat.sub_self, pow_zero, Nat.div_one] at h
      exact Vector.toList_inj.mp (bigEndian_injective (by simp) h)
  · show _ ↔ _ / 2 ^ 121 = 126
    omega
  · show _ ↔ _ / 2 ^ 118 = 1018
    show bytes[0].toNat = 254 ∧ _ ↔ _
    omega

theorem normalized_normalized (address : IpAddress) : address.normalized.normalized = address.normalized := by
  rcases address with bytes | bytes
  · rfl
  · rw [IpAddress.normalized]
    split_ifs with hmapped
    · rfl
    · rw [IpAddress.normalized, if_neg hmapped]

theorem classifyIp_networks (address : IpAddress) :
    (classifyIp address = .loopback ↔ address.normalized.IsLoopback) ∧
    (classifyIp address = .privateNetwork ↔ address.normalized.IsPrivate) ∧
    (classifyIp address = .linkLocal ↔ address.normalized.IsLinkLocal) := by
  rw [classifyIp]
  rcases address.normalized with bytes | bytes
  · exact classifyIpv4_networks bytes
  · exact classifyIpv6_networks bytes

/-- The IPv4-mapped address. -/
def mapped (bytes : Vector UInt8 4) : IpAddress :=
  .v6 #v[0, 0, 0, 0, 0, 0, 0, 0, 0, 0, 0xff, 0xff, bytes[0], bytes[1], bytes[2], bytes[3]]

theorem normalized_mapped (bytes : Vector UInt8 4) : (mapped bytes).normalized = .v4 bytes := by
  exact congrArg IpAddress.v4 (vector_four bytes).symm

/-! ## Octets and addresses as text -/

/-- The texts an octet is read from: its decimal text, or digits behind a plus sign. -/
def OctetText (part : Text) (b : UInt8) : Prop :=
  part = Nat.toDigits 10 b.toNat ∨
    ∃ digits, part = '+' :: digits ∧ digits ≠ [] ∧ digits.all Char.isDigit = true ∧
      Nat.ofDigitChars 10 digits 0 = b.toNat

/-- The canonical text of an address. -/
def dottedDecimal (address : Vector UInt8 4) : Text :=
  ['.'].intercalate (address.toList.map fun b => Nat.toDigits 10 b.toNat)

variable {b : UInt8}

/-- What `str::parse` asks of the digits of an octet: its value is below 256. -/
theorem parseU8_digits {digits : Text} :
    (digits ≠ [] ∧ digits.all Char.isDigit = true ∧ Nat.ofDigitChars 10 digits 0 < 256) ∧
      UInt8.ofNat (Nat.ofDigitChars 10 digits 0) = b ↔
    digits ≠ [] ∧ digits.all Char.isDigit = true ∧ Nat.ofDigitChars 10 digits 0 = b.toNat := by
  constructor
  · rintro ⟨⟨hne, hall, hsmall⟩, rfl⟩
    exact ⟨hne, hall, by simp [Nat.mod_eq_of_lt hsmall]⟩
  · rintro ⟨hne, hall, hvalue⟩
    rw [hvalue]
    exact ⟨⟨hne, hall, b.toNat_lt⟩, UInt8.ofNat_toNat⟩

/-- **The texts of an octet.** -/
theorem canonicalOctet_iff {part : Text} : canonicalOctet part = some b ↔ OctetText part b := by
  rw [canonicalOctet]
  by_cases hplus : part.head? = some '+'
  · -- a plus sign: neither check of the source looks behind it
    obtain ⟨digits, rfl⟩ := List.head?_eq_some_iff.mp hplus
    have hcheck : ¬ ('+' :: digits = [] ∨ (1 < ('+' :: digits).length ∧ ('+' :: digits).head? = some '0')) := by
      simp
    have hdecimal : '+' :: digits ≠ Nat.toDigits 10 b.toNat := by
      intro heq
      have := Nat.isDigit_of_mem_toDigits (b := 10) (by decide) (by decide) (heq ▸ List.mem_cons_self ..)
      exact absurd this (by decide)
    rw [if_neg hcheck, parseU8, if_pos hplus, List.tail_cons, Option.ite_none_right_eq_some, Option.some_inj,
      parseU8_digits, OctetText]
    simp [hdecimal]
  · have hnoplus : ∀ digits, part ≠ '+' :: digits := fun digits heq => hplus (by rw [heq]; rfl)
    have htext : OctetText part b ↔ part = Nat.toDigits 10 b.toNat := by
      simp [OctetText, hnoplus]
    rw [htext]
    split_ifs with hcheck
    · constructor
      · exact nofun
      · rintro rfl
        obtain ⟨first, rest, hdigits, -, hzero⟩ := toDigits_cons b.toNat
        rw [hdigits] at hcheck
        rcases hcheck with hnil | ⟨hlong, hhead⟩
        · cases hnil
        · rw [hzero (by simpa using hhead)] at hlong
          exact absurd hlong (by simp)
    · obtain ⟨hne, hzero⟩ := not_or.mp hcheck
      rw [parseU8, if_neg hplus, Option.ite_none_right_eq_some, Option.some_inj, parseU8_digits]
      constructor
      · rintro ⟨-, hall, hvalue⟩
        rw [← hvalue]
        refine (toDigits_ofDigitChars hne (List.all_eq_true.mp hall) fun hhead => ?_).symm
        have := List.length_pos_of_ne_nil hne
        have hshort : ¬ 1 < part.length := fun hlong => hzero ⟨hlong, hhead⟩
        omega
      · rintro rfl
        exact ⟨hne, List.all_eq_true.mpr fun c hc => Nat.isDigit_of_mem_toDigits (by decide) (by decide) hc,
          Nat.ofDigitChars_ten_toDigits⟩

variable {host : Text}

variable {address : Vector UInt8 4}

/-- The texts an address is read from: four octets with dots between them. -/
def AddressText (host : Text) (address : Vector UInt8 4) : Prop :=
  ∃ first second third fourth, host.splitOn '.' = [first, second, third, fourth] ∧
    OctetText first address[0] ∧ OctetText second address[1] ∧ OctetText third address[2] ∧
    OctetText fourth address[3]

theorem canonicalIpv4_iff : canonicalIpv4 host = some address ↔ AddressText host address := by
  simp only [AddressText, ← canonicalOctet_iff]
  constructor
  · intro h
    rw [canonicalIpv4] at h
    split at h
    · rename_i first second third fourth hparts
      simp only [bind, Option.bind_eq_some_iff, Option.some.injEq] at h
      obtain ⟨a, ha, b, hb, c, hc, d, hd, rfl⟩ := h
      exact ⟨first, second, third, fourth, hparts, ha, hb, hc, hd⟩
    · cases h
  · rintro ⟨first, second, third, fourth, hparts, ha, hb, hc, hd⟩
    rw [canonicalIpv4, hparts]
    simp only [ha, hb, hc, hd, bind, Option.bind_some]
    rw [← vector_four address]

/-- A text that is taken for an address and is not its canonical text: an octet has a plus sign. -/
def SignedText (host : Text) (address : Vector UInt8 4) : Prop := AddressText host address ∧ '+' ∈ host

theorem octetText_plain {part : Text} (hplain : '+' ∉ part) (h : OctetText part b) :
    part = Nat.toDigits 10 b.toNat := by
  rcases h with heq | ⟨digits, rfl, -⟩
  · exact heq
  · exact absurd List.mem_cons_self hplain

/-- An octet is read from digits and plus signs. -/
theorem OctetText.digits {part : Text} (h : OctetText part b) {c : Char} (hc : c ∈ part) :
    c.isDigit = true ∨ c = '+' := by
  rcases h with rfl | ⟨digits, rfl, -, hall, -⟩
  · exact .inl (Nat.isDigit_of_mem_toDigits (by decide) (by decide) hc)
  · rcases List.mem_cons.mp hc with rfl | hc
    · exact .inr rfl
    · exact .inl (List.all_eq_true.mp hall c hc)

theorem dottedDecimal_eq (address : Vector UInt8 4) :
    dottedDecimal address = ['.'].intercalate [Nat.toDigits 10 address[0].toNat,
      Nat.toDigits 10 address[1].toNat, Nat.toDigits 10 address[2].toNat, Nat.toDigits 10 address[3].toNat] := by
  rw [vector_four address]
  rfl

theorem splitOn_dottedDecimal (address : Vector UInt8 4) :
    (dottedDecimal address).splitOn '.' = [Nat.toDigits 10 address[0].toNat,
      Nat.toDigits 10 address[1].toNat, Nat.toDigits 10 address[2].toNat, Nat.toDigits 10 address[3].toNat] := by
  have hdot : ∀ n : Nat, '.' ∉ Nat.toDigits 10 n := fun n hmem =>
    absurd (Nat.isDigit_of_mem_toDigits (by decide) (by decide) hmem) (by decide)
  rw [dottedDecimal_eq]
  refine List.splitOn_intercalate '.' ?_ (by simp)
  simp [hdot]

theorem plus_not_mem_dottedDecimal (address : Vector UInt8 4) : '+' ∉ dottedDecimal address := by
  have hdigits : ∀ n : Nat, '+' ∉ Nat.toDigits 10 n := fun n hmem =>
    absurd (Nat.isDigit_of_mem_toDigits (by decide) (by decide) hmem) (by decide)
  rw [dottedDecimal_eq]
  simp [List.intercalate, hdigits]

theorem mem_splitOn_four {first second third fourth : Text}
    (h : host.splitOn '.' = [first, second, third, fourth]) (c : Char) :
    c ∈ host ↔ c ∈ first ∨ c ∈ second ∨ c ∈ third ∨ c ∈ fourth ∨ c = '.' := by
  have hhost : host = ['.'].intercalate [first, second, third, fourth] := by rw [← h, List.intercalate_splitOn]
  rw [hhost]
  simp only [List.intercalate, List.intersperse, List.flatten_cons, List.flatten_nil, List.append_nil,
    List.mem_append, List.mem_singleton]
  tauto

/-- **The texts of an address**: the canonical one, and those with a plus sign. -/
theorem canonicalIpv4_text :
    canonicalIpv4 host = some address ↔ host = dottedDecimal address ∨ SignedText host address := by
  rw [canonicalIpv4_iff]
  constructor
  · intro h
    by_cases hsigned : '+' ∈ host
    · exact .inr ⟨h, hsigned⟩
    · obtain ⟨first, second, third, fourth, hparts, ha, hb, hc, hd⟩ := h
      simp only [mem_splitOn_four hparts, not_or] at hsigned
      obtain ⟨hpa, hpb, hpc, hpd, -⟩ := hsigned
      refine .inl ?_
      rw [dottedDecimal_eq, ← octetText_plain hpa ha, ← octetText_plain hpb hb, ← octetText_plain hpc hc,
        ← octetText_plain hpd hd, ← hparts, List.intercalate_splitOn]
  · rintro (rfl | hsigned)
    · exact ⟨_, _, _, _, splitOn_dottedDecimal address, .inl rfl, .inl rfl, .inl rfl, .inl rfl⟩
    · exact hsigned.1

theorem AddressText.chars (h : AddressText host address) {c : Char} (hc : c ∈ host) :
    c.isDigit = true ∨ c = '+' ∨ c = '.' := by
  obtain ⟨first, second, third, fourth, hparts, ha, hb, hc', hd⟩ := h
  rw [mem_splitOn_four hparts] at hc
  rcases hc with h | h | h | h | h
  · exact (ha.digits h).imp_right .inl
  · exact (hb.digits h).imp_right .inl
  · exact (hc'.digits h).imp_right .inl
  · exact (hd.digits h).imp_right .inl
  · exact .inr (.inr h)

/-- `canonical_ipv4` is right about a text exactly if it is no signed one. -/
theorem canonicalIpv4_exact (host : Text) :
    (∀ address, canonicalIpv4 host = some address ↔ host = dottedDecimal address) ↔
      ∀ address, ¬ SignedText host address := by
  constructor
  · intro h address hsigned
    have heq := (h address).mp (canonicalIpv4_text.mpr (.inr hsigned))
    exact plus_not_mem_dottedDecimal address (heq ▸ hsigned.2)
  · intro h address
    rw [canonicalIpv4_text, or_iff_left (h address)]

/-! ## Hosts that ask for loopback -/

/-- `localhost` in any case, with at most one dot behind it. -/
def IsLocalhost (host : Text) : Prop :=
  ∃ name, name.map Char.toLower = "localhost".toList ∧ (host = name ∨ host = name ++ ['.'])

/-- A canonical text that asks for loopback. -/
def LoopbackHost (host : Text) : Prop :=
  IsLocalhost host ∨ host = "::1".toList ∨ ∃ address : Vector UInt8 4, address[0] = 127 ∧ host = dottedDecimal address

/-- A text that looks like a name. -/
def HostName (host : Text) : Prop := ':' ∉ host ∧ ∃ c ∈ host, c.isDigit = false ∧ c ≠ '.'

/-- A name that is `localhost` in some case does not end in a dot. -/
theorem localhost_getLast {name : Text} (h : name.map Char.toLower = "localhost".toList) :
    name.getLast? ≠ some '.' := by
  intro hlast
  have hmap := congrArg List.getLast? h
  rw [List.getLast?_map, hlast] at hmap
  exact absurd hmap (by decide)

theorem localhost_iff (host : Text) :
    (stripDot host).getLast? ≠ some '.' ∧ eqIgnoreAsciiCase (stripDot host) "localhost".toList = true ↔
      IsLocalhost host := by
  have hlower : eqIgnoreAsciiCase (stripDot host) "localhost".toList = true ↔
      (stripDot host).map Char.toLower = "localhost".toList := by
    rw [eqIgnoreAsciiCase, beq_iff_eq]
    exact Iff.rfl
  rw [hlower]
  constructor
  · rintro ⟨-, hname⟩
    refine ⟨stripDot host, hname, ?_⟩
    rw [stripDot]
    split_ifs with hdot
    · exact .inr (List.dropLast_append_getLast? '.' hdot).symm
    · exact .inl rfl
  · rintro ⟨name, hname, rfl | rfl⟩
    · have hstrip : stripDot host = host := if_neg (localhost_getLast hname)
      rw [hstrip]
      exact ⟨localhost_getLast hname, hname⟩
    · have hstrip : stripDot (name ++ ['.']) = name := by simp [stripDot]
      rw [hstrip]
      exact ⟨localhost_getLast hname, hname⟩

/-- A signed text of an address in 127/8. -/
def SignedLoopback (host : Text) : Prop := ∃ address : Vector UInt8 4, address[0] = 127 ∧ SignedText host address

theorem loopbackIntent_iff : loopbackIntent host = true ↔
    LoopbackHost (unbracketedHost host) ∨ SignedLoopback (unbracketedHost host) := by
  have haddress : (canonicalIpv4 (unbracketedHost host)).any (fun address => address[0] = 127) = true ↔
      (∃ address : Vector UInt8 4, address[0] = 127 ∧ unbracketedHost host = dottedDecimal address) ∨
        SignedLoopback (unbracketedHost host) := by
    rw [Option.any_eq_true]
    simp only [canonicalIpv4_text, decide_eq_true_eq, or_and_right, exists_or, SignedLoopback, and_comm]
  rw [loopbackIntent, LoopbackHost, ← localhost_iff, or_assoc, or_assoc, ← haddress]
  split_ifs with hlocal hone
  · exact ⟨fun _ => .inl hlocal, fun _ => rfl⟩
  · exact ⟨fun _ => .inr (.inl hone), fun _ => rfl⟩
  · exact ⟨fun h => .inr (.inr h), fun h => (h.resolve_left hlocal).resolve_left hone⟩

/-- A signed text is no canonical loopback host, and looks like a name. -/
theorem SignedLoopback.named (h : SignedLoopback host) : ¬ LoopbackHost host ∧ HostName host := by
  obtain ⟨address, -, htext, hplus⟩ := h
  refine ⟨?_, fun hcolon => ?_, '+', hplus, by decide, by decide⟩
  · rintro (⟨name, hname, rfl | rfl⟩ | rfl | ⟨other, -, rfl⟩)
    · have hlower := List.mem_map_of_mem (f := Char.toLower) hplus
      rw [hname] at hlower
      exact absurd hlower (by decide)
    · have hlower := List.mem_map_of_mem (f := Char.toLower) ((List.mem_append.mp hplus).resolve_right (by simp))
      rw [hname] at hlower
      exact absurd hlower (by decide)
    · exact absurd hplus (by decide)
    · exact plus_not_mem_dottedDecimal other hplus
  · rcases htext.chars hcolon with h | h | h <;> exact absurd h (by decide)

theorem looksLikeIpLiteral_iff (host : Text) :
    looksLikeIpLiteral host = false ↔ HostName (unbracketedHost host) := by
  rw [looksLikeIpLiteral, HostName, Bool.or_eq_false_iff, List.all_eq_false]
  refine and_congr ?_ ?_
  · rw [← Bool.not_eq_true, List.contains_iff_mem]
  · refine exists_congr fun c => and_congr_right fun _ => ?_
    simp

/-! ## The decision -/

structure CleartextAllowed (policy : EndpointPolicy) (host : Text) (port : UInt16) (peer : PeerAddress) : Prop where
  port_eq : peer.port = port
  allowed :
    (peer.address.normalized.IsLoopback ∧ LoopbackHost (unbracketedHost host)) ∨
    (peer.address.normalized.IsLoopback ∧ policy.allowHostnameLoopbackCleartext = true ∧
      HostName (unbracketedHost host)) ∨
    (peer.address.normalized.IsPrivate ∧ policy.allowPrivateCleartext = true) ∨
    (peer.address.normalized.IsLinkLocal ∧ policy.allowLinkLocalCleartext = true ∧
      peer.interfaceScope.isSome = true)

def accepted {ε α : Type} (result : Except ε α) : Bool := result.toBool

/-- What `verify_connection` does with a cleartext peer, class by class. -/
theorem verifyPeer_accepted (policy : EndpointPolicy) (host : Text) (port : UInt16) (peer : PeerAddress) :
    accepted (policy.verifyPeer host port peer) = true ↔ peer.port = port ∧
      ((classifyIp peer.address = .loopback ∧ (loopbackIntent host = true ∨
          (policy.allowHostnameLoopbackCleartext = true ∧ looksLikeIpLiteral host = false))) ∨
        (classifyIp peer.address = .privateNetwork ∧ policy.allowPrivateCleartext = true) ∨
        (classifyIp peer.address = .linkLocal ∧ policy.allowLinkLocalCleartext = true ∧
          peer.interfaceScope.isSome = true)) := by
  have hclass : classifyIp peer.ip = classifyIp peer.address := by
    rw [classifyIp, PeerAddress.ip, normalized_normalized, ← classifyIp]
  rw [EndpointPolicy.verifyPeer, hclass]
  by_cases hport : peer.port = port
  · cases classifyIp peer.address <;> dsimp only <;> (try split_ifs) <;> simp_all [accepted, Except.toBool]
  · simp [accepted, Except.toBool, hport]

/-- A loopback peer that is accepted for a host which is not what it is taken for. -/
structure Misread (policy : EndpointPolicy) (host : Text) (port : UInt16) (peer : PeerAddress) : Prop where
  port_eq : peer.port = port
  loopback : peer.address.normalized.IsLoopback
  closed : policy.allowHostnameLoopbackCleartext = false
  signed : SignedLoopback (unbracketedHost host)

/-- What is accepted besides the allowed: any loopback peer of a signed host. -/
theorem verifyPeer_signed (policy : EndpointPolicy) (host : Text) (port : UInt16) (peer : PeerAddress) :
    accepted (policy.verifyPeer host port peer) = true ↔ CleartextAllowed policy host port peer ∨
      (peer.port = port ∧ peer.address.normalized.IsLoopback ∧ SignedLoopback (unbracketedHost host)) := by
  obtain ⟨hloopback, hprivate, hlink⟩ := classifyIp_networks peer.address
  rw [verifyPeer_accepted, hloopback, hprivate, hlink, loopbackIntent_iff, looksLikeIpLiteral_iff]
  constructor
  · rintro ⟨hport, ⟨haddress, (hintent | hsigned) | hname⟩ | hrest⟩
    · exact .inl ⟨hport, .inl ⟨haddress, hintent⟩⟩
    · exact .inr ⟨hport, haddress, hsigned⟩
    · exact .inl ⟨hport, .inr (.inl ⟨haddress, hname⟩)⟩
    · exact .inl ⟨hport, .inr (.inr hrest)⟩
  · rintro (⟨hport, ⟨haddress, hintent⟩ | ⟨haddress, hname⟩ | hrest⟩ | ⟨hport, haddress, hsigned⟩)
    · exact ⟨hport, .inl ⟨haddress, .inl (.inl hintent)⟩⟩
    · exact ⟨hport, .inl ⟨haddress, .inr hname⟩⟩
    · exact ⟨hport, .inr hrest⟩
    · exact ⟨hport, .inl ⟨haddress, .inl (.inr hsigned)⟩⟩

theorem Misread.not_allowed {policy : EndpointPolicy} {port : UInt16} {peer : PeerAddress}
    (h : Misread policy host port peer) : ¬ CleartextAllowed policy host port peer := by
  obtain ⟨hloopback, hprivate, hlink⟩ := classifyIp_networks peer.address
  have hclass := hloopback.mpr h.loopback
  rintro ⟨-, ⟨-, hhost⟩ | ⟨-, hopt, -⟩ | ⟨haddress, -⟩ | ⟨haddress, -⟩⟩
  · exact h.signed.named.1 hhost
  · exact absurd (h.closed.symm.trans hopt) (by decide)
  · exact absurd (hclass.symm.trans (hprivate.mpr haddress)) (by decide)
  · exact absurd (hclass.symm.trans (hlink.mpr haddress)) (by decide)

/-- **The decision is the allowed one exactly where nothing is misread.** -/
theorem verifyPeer_iff (policy : EndpointPolicy) (host : Text) (port : UInt16) (peer : PeerAddress) :
    (accepted (policy.verifyPeer host port peer) = true ↔ CleartextAllowed policy host port peer) ↔
      ¬ Misread policy host port peer := by
  rw [verifyPeer_signed]
  constructor
  · intro h hmisread
    exact hmisread.not_allowed (h.mp (.inr ⟨hmisread.port_eq, hmisread.loopback, hmisread.signed⟩))
  · intro hright
    refine or_iff_left_of_imp fun ⟨hport, haddress, hsigned⟩ => ?_
    -- with the opt-in the host passes for a name anyway
    cases hopt : policy.allowHostnameLoopbackCleartext with
    | false => exact absurd ⟨hport, haddress, hopt, hsigned⟩ hright
    | true => exact ⟨hport, .inr (.inl ⟨haddress, hopt, hsigned.named.2⟩)⟩

/-- A policy that allows whatever another one does. -/
structure EndpointPolicy.Le (policy wider : EndpointPolicy) : Prop where
  hostname : policy.allowHostnameLoopbackCleartext = true → wider.allowHostnameLoopbackCleartext = true
  privateNetwork : policy.allowPrivateCleartext = true → wider.allowPrivateCleartext = true
  linkLocal : policy.allowLinkLocalCleartext = true → wider.allowLinkLocalCleartext = true

theorem verifyPeer_mono {policy wider : EndpointPolicy} (hle : policy.Le wider) {port : UInt16}
    {peer : PeerAddress} (h : accepted (policy.verifyPeer host port peer) = true) :
    accepted (wider.verifyPeer host port peer) = true := by
  rw [verifyPeer_accepted] at h ⊢
  obtain ⟨hport, ⟨hclass, hintent | ⟨hopt, hname⟩⟩ | ⟨hclass, hopt⟩ | ⟨hclass, hopt, hscope⟩⟩ := h
  · exact ⟨hport, .inl ⟨hclass, .inl hintent⟩⟩
  · exact ⟨hport, .inl ⟨hclass, .inr ⟨hle.hostname hopt, hname⟩⟩⟩
  · exact ⟨hport, .inr (.inl ⟨hclass, hle.privateNetwork hopt⟩)⟩
  · exact ⟨hport, .inr (.inr ⟨hclass, hle.linkLocal hopt, hscope⟩)⟩

/-- The connection is decided on by the normalized address only. -/
theorem verifyPeer_normalized (policy : EndpointPolicy) (host : Text) (port : UInt16) {peer peer' : PeerAddress}
    (haddress : peer.address.normalized = peer'.address.normalized) (hport : peer.port = peer'.port)
    (hscope : peer.interfaceScope = peer'.interfaceScope) :
    (policy.verifyPeer host port peer).map (fun _ => ()) = (policy.verifyPeer host port peer').map fun _ => () := by
  rw [EndpointPolicy.verifyPeer, EndpointPolicy.verifyPeer, PeerAddress.ip, PeerAddress.ip, haddress, hport,
    hscope]
  by_cases hmatch : peer'.port ≠ port
  · rw [if_pos hmatch, if_pos hmatch]
  · cases classifyIp peer'.address.normalized <;> dsimp only <;> (try split_ifs) <;> rfl

/-- CLEARTEXT IS DECIDED BY THE PEER'S NETWORK, THE HOST'S TEXT AND THE OPT-INS, except exactly where a text
    with a plus sign is taken for an address in 127/8; an address and its IPv4-mapped form, and a policy and a
    wider one, agree; and `canonical_ipv4` is right about exactly the texts that are no signed ones. -/
theorem cleartext_policy (rules : UriRules) (endpoint : UriEndpoint) (hscheme : endpoint.scheme.requiresTls = false) :
    (∀ policy peer,
      (accepted (EndpointPolicy.verifyConnection rules policy endpoint (.cleartext peer)) = true ↔
        CleartextAllowed policy (endpoint.host rules) (endpoint.port rules) peer) ↔
      ¬ Misread policy (endpoint.host rules) (endpoint.port rules) peer) ∧
    (∀ policy bytes port scope,
      (EndpointPolicy.verifyConnection rules policy endpoint (.cleartext ⟨.v4 bytes, port, scope⟩)).map (fun _ => ()) =
      (EndpointPolicy.verifyConnection rules policy endpoint (.cleartext ⟨mapped bytes, port, scope⟩)).map
        fun _ => ()) ∧ (∀ policy wider peer, EndpointPolicy.Le policy wider →
      accepted (EndpointPolicy.verifyConnection rules policy endpoint (.cleartext peer)) = true →
      accepted (EndpointPolicy.verifyConnection rules wider endpoint (.cleartext peer)) = true) ∧
    ∀ host, (∀ address, canonicalIpv4 host = some address ↔ host = dottedDecimal address) ↔
      ∀ address, ¬ SignedText host address := by
  have hverify : ∀ policy peer, EndpointPolicy.verifyConnection rules policy endpoint (.cleartext peer) =
      policy.verifyPeer (endpoint.host rules) (endpoint.port rules) peer := by
    intro policy peer
    rw [EndpointPolicy.verifyConnection, if_neg (by rw [hscheme]; decide)]
  refine ⟨?_, ?_, ?_, ?_⟩
  · intro policy peer
    rw [hverify]
    exact verifyPeer_iff policy _ _ peer
  · intro policy bytes port scope
    rw [hverify, hverify]
    exact verifyPeer_normalized policy _ _ (normalized_mapped bytes).symm rfl rfl
  · intro policy wider peer hle h
    rw [hverify] at h ⊢
    exact verifyPeer_mono hle h
  · exact canonicalIpv4_exact

def plusUrl : Text := "http://127.0.0.+1/".toList

def loopbackPeer : PeerAddress := ⟨.v4 #v[127, 0, 0, 1], 80, none⟩

/-- A host that is no canonical address is taken for one: with no opt-in, the connection is accepted. -/
theorem plus_sign_accepted :
    ∃ uri endpoint, lenientRules.parse plusUrl = some uri ∧ UriEndpoint.new lenientRules uri = .ok endpoint ∧
      endpoint.scheme.requiresTls = false ∧
      EndpointPolicy.verifyConnection lenientRules .default endpoint (.cleartext loopbackPeer) =
        .ok ⟨.cleartext loopbackPeer⟩ ∧
      ¬ CleartextAllowed .default (endpoint.host lenientRules) (endpoint.port lenientRules) loopbackPeer ∧
      canonicalIpv4 (endpoint.host lenientRules) = some #v[127, 0, 0, 1] ∧
      endpoint.host lenientRules ≠ dottedDecimal #v[127, 0, 0, 1] := by
  let uri : Uri := ⟨some "http".toList, some "127.0.0.+1".toList, "/".toList, none⟩
  let endpoint : UriEndpoint := ⟨uri, .http⟩
  have hsigned : SignedText (unbracketedHost (endpoint.host lenientRules)) #v[127, 0, 0, 1] :=
    ⟨⟨"127".toList, "0".toList, "0".toList, "+1".toList, by decide +kernel, .inl (by decide +kernel),
      .inl (by decide +kernel), .inl (by decide +kernel),
      .inr ⟨"1".toList, by decide +kernel, by decide, by decide, by decide⟩⟩, by decide +kernel⟩
  have hmisread : Misread .default (endpoint.host lenientRules) (endpoint.port lenientRules) loopbackPeer :=
    ⟨rfl, rfl, rfl, _, rfl, hsigned⟩
  exact ⟨uri, endpoint, by decide +kernel, by decide +kernel, rfl, by decide +kernel, hmisread.not_allowed,
    by decide +kernel, by decide +kernel⟩

/-- Without an opt-in: `127.0.0.1` is accepted, and `a.+b`, which has a plus sign too, is not. -/
theorem canonical_host_accepted :
    ∃ canonical named : UriEndpoint, canonical.host lenientRules = dottedDecimal #v[127, 0, 0, 1] ∧
      named.host lenientRules = "a.+b".toList ∧ canonical.scheme.requiresTls = false ∧
      named.scheme.requiresTls = false ∧
      accepted (EndpointPolicy.verifyConnection lenientRules .default canonical (.cleartext loopbackPeer)) = true ∧
      ¬ CleartextAllowed .default (named.host lenientRules) (named.port lenientRules) loopbackPeer := by
  let canonical : UriEndpoint := ⟨⟨some "http".toList, some (dottedDecimal #v[127, 0, 0, 1]), "/".toList, none⟩, .http⟩
  let named : UriEndpoint := ⟨⟨some "http".toList, some "a.+b".toList, "/".toList, none⟩, .http⟩
  have hcanonical : ¬ Misread .default (canonical.host lenientRules) (canonical.port lenientRules) loopbackPeer := by
    rintro ⟨-, -, -, address, -, -, hplus⟩
    exact absurd hplus (by decide +kernel)
  have hnamed : ¬ Misread .default (named.host lenientRules) (named.port lenientRules) loopbackPeer := by
    rintro ⟨-, -, -, address, -, htext, -⟩
    have ha : 'a' ∈ unbracketedHost (named.host lenientRules) := by decide +kernel
    exact absurd (htext.chars ha) (by decide)
  refine ⟨canonical, named, rfl, rfl, rfl, rfl, ?_, fun hallowed => ?_⟩
  · exact ((cleartext_policy lenientRules canonical rfl).1 _ _ |>.mpr hcanonical).mpr
      ⟨rfl, .inl ⟨rfl, .inr (.inr ⟨#v[127, 0, 0, 1], rfl, by decide +kernel⟩)⟩⟩
  · have haccepted := ((cleartext_policy lenientRules named rfl).1 _ _ |>.mpr hnamed).mpr hallowed
    exact absurd haccepted (by decide +kernel)

end Bondry.Egress
