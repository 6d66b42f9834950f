/-
  SIGNED MESSAGES.

  A verifier authenticates a MESSAGE, the bytes it feeds to the HMAC.  Two things could go wrong with
  that, and neither does:

  * two different deliveries could be the same message.  The canonical form announces the length of
    every untrusted field, and a Stripe timestamp is digits in front of the first dot, so what was signed
    can be read off the message (`canonicalWebhookBytes_injective`, `stripe_message_inj`);
  * two different messages could have the same tag.  That is up to the HMAC.

  No function with 32-byte results is injective, so the assumption is made where it is used: the HMAC
  keeps the two messages at hand apart under one key.  During a rotation a verifier holds TWO keys, and a
  tag under one of them may be a tag of another message under the other.
-/
import Bondry.Webhook.Verify

namespace Bondry

/-! ## What a signature authenticates -/

def ResolvedSecret.values (secrets : ResolvedSecret) : List SecretValue :=
  secrets.current :: secrets.previous.toList

/-- The HMAC under this key keeps the two messages apart. -/
def Crypto.Separates (crypto : Crypto) (key : SecretValue) (m m' : Bytes) : Prop :=
  crypto.hmacSha256 key.bytes m = crypto.hmacSha256 key.bytes m' → m = m'

/-- The two values of a rotation give the two messages one tag. -/
def Crypto.Crosses (crypto : Crypto) (secrets : ResolvedSecret) (m m' : Bytes) : Prop :=
  ∃ previous, secrets.previous = some previous ∧
    (crypto.hmacSha256 secrets.current.bytes m = crypto.hmacSha256 previous.bytes m' ∨
      crypto.hmacSha256 previous.bytes m = crypto.hmacSha256 secrets.current.bytes m')

/-- The signature is the tag of the message under a value the verifier accepts. -/
def Authenticates (crypto : Crypto) (secrets : ResolvedSecret) (message : Bytes)
    (signature : HmacSignature) : Prop :=
  ∃ key ∈ secrets.values, crypto.hmacSha256 key.bytes message = signature.bytes

theorem signComponents_eq {crypto : Crypto} {key : SecretValue} {components : List Bytes}
    {signature : HmacSignature} : signComponents crypto key components = signature ↔
      crypto.hmacSha256 key.bytes components.flatten = signature.bytes := by
  obtain ⟨bytes, hbytes⟩ := signature
  simp [signComponents]

theorem verifyWebhook_iff {crypto : Crypto} {secrets : ResolvedSecret} {input : WebhookSigningInput}
    {signature : HmacSignature} : verifyWebhook crypto secrets input signature = true ↔
      Authenticates crypto secrets (canonicalWebhookBytes input) signature := by
  simp only [verifyWebhook, signWebhook, signComponents_eq, components_flatten, Authenticates,
    ResolvedSecret.values]
  cases secrets.previous <;> simp

theorem verifyHmacSha256_iff {crypto : Crypto} {secrets : ResolvedSecret} {components : List Bytes}
    {signatures : List HmacSignature} : verifyHmacSha256 crypto secrets components signatures = true ↔
      ∃ signature ∈ signatures, Authenticates crypto secrets components.flatten signature := by
  simp only [verifyHmacSha256, signComponents_eq, Authenticates, ResolvedSecret.values]
  cases secrets.previous with
  | none => simp
  | some previous => simp [and_or_left, exists_or]

/-- **One signature, one message**, up to a tag that two keys share. -/
theorem Authenticates.unique {crypto : Crypto} {secrets : ResolvedSecret} {m m' : Bytes}
    {signature : HmacSignature} (h : Authenticates crypto secrets m signature)
    (h' : Authenticates crypto secrets m' signature)
    (hapart : ∀ key ∈ secrets.values, crypto.Separates key m m') : m = m' ∨ crypto.Crosses secrets m m' := by
  obtain ⟨key, hkey, htag⟩ := h
  obtain ⟨key', hkey', htag'⟩ := h'
  have hboth := htag.trans htag'.symm
  rcases List.mem_cons.mp hkey with rfl | hprevious
  · rcases List.mem_cons.mp hkey' with rfl | hprevious'
    · exact .inl (hapart _ hkey hboth)
    · exact .inr ⟨key', Option.mem_toList.mp hprevious', .inl hboth⟩
  · rcases List.mem_cons.mp hkey' with rfl | hprevious'
    · exact .inr ⟨key, Option.mem_toList.mp hprevious, .inr hboth⟩
    · -- there is at most one previous value
      have hsame : some key = some key' :=
        (Option.mem_toList.mp hprevious).symm.trans (Option.mem_toList.mp hprevious')
      cases hsame
      exact .inl (hapart _ hkey hboth)

namespace Webhook

open Encoding

/-! ## The timestamp of a Stripe header -/

theorem parseCanonicalTimestamp_ok {value : Bytes} {timestamp : Int}
    (h : parseCanonicalTimestamp value = .ok timestamp) : 0 ≤ timestamp ∧ value = decimal timestamp := by
  unfold parseCanonicalTimestamp at h
  split at h
  · cases h
  · split at h
    · cases h
    · next hnot =>
      cases h
      obtain ⟨hneg, hsame⟩ := not_or.mp hnot
      exact ⟨Int.not_lt.mp hneg, (not_ne_iff.mp hsame).symm⟩

/-- The timestamp of the components read so far is printed the one way it is printed. -/
def Canonical (parts : StripeParts) : Prop :=
  ∀ timestamp bytes, parts.1 = some (timestamp, bytes) → 0 ≤ timestamp ∧ bytes = decimal timestamp

theorem stripeComponent_canonical {parts parts' : StripeParts} {component : Bytes}
    (h : stripeComponent parts component = .ok parts') (hparts : Canonical parts) : Canonical parts' := by
  revert h
  fun_cases stripeComponent parts component <;> intro h <;> try cases h
  case case3 =>
    obtain ⟨timestamp, htime, h⟩ := bind_ok h
    cases h
    rintro _ _ ⟨⟩
    exact parseCanonicalTimestamp_ok htime
  case case5 =>
    obtain ⟨signature, _, h⟩ := bind_ok h
    cases h
    exact hparts
  case case6.refl => exact hparts

theorem stripeComponents_canonical {components : List Bytes} {parts parts' : StripeParts}
    (h : components.foldlM stripeComponent parts = .ok parts') (hparts : Canonical parts) :
    Canonical parts' := by
  induction components generalizing parts with
  | nil =>
    cases h
    exact hparts
  | cons component rest ih =>
    rw [List.foldlM_cons] at h
    obtain ⟨next, hnext, h⟩ := bind_ok h
    exact ih h (stripeComponent_canonical hnext hparts)

/-- **The timestamp of an accepted header is canonical.** -/
theorem parseStripeHeader_canonical {header : Bytes} {parsed : StripeHeader}
    (h : parseStripeHeader header = .ok parsed) :
    0 ≤ parsed.timestamp ∧ parsed.timestampBytes = decimal parsed.timestamp := by
  unfold parseStripeHeader at h
  obtain ⟨⟨timestamp, signatures⟩, hparts, h⟩ := bind_ok h
  have hcanonical := stripeComponents_canonical hparts (fun _ _ hnone => nomatch hnone)
  dsimp only at h
  split at h
  · cases h
  · next time bytes =>
    split at h
    · cases h
    · cases h
      exact hcanonical time bytes rfl

def stripeMessage (parsed : StripeHeader) (body : Bytes) : Bytes :=
  [parsed.timestampBytes, ascii ".", body].flatten

theorem dot_notMem_timestamp {header : Bytes} {parsed : StripeHeader}
    (h : parseStripeHeader header = .ok parsed) : (0x2E : UInt8) ∉ parsed.timestampBytes := by
  obtain ⟨hpos, hbytes⟩ := parseStripeHeader_canonical h
  rw [hbytes, decimal, if_neg (Int.not_lt.mpr hpos)]
  exact fun hmem => absurd (isDigit_of_mem_toDecimal hmem) (by decide)

/-- **Equal Stripe messages have equal timestamps and bodies.** -/
theorem stripe_message_inj {header header' : Bytes} {parsed parsed' : StripeHeader}
    (h : parseStripeHeader header = .ok parsed) (h' : parseStripeHeader header' = .ok parsed')
    {body body' : Bytes} (hsame : stripeMessage parsed body = stripeMessage parsed' body') :
    parsed.timestamp = parsed'.timestamp ∧ body = body' := by
  have hdot : ascii "." = [0x2E] := by decide
  simp only [stripeMessage, hdot, List.flatten_cons, List.flatten_nil, List.append_nil,
    List.singleton_append] at hsame
  obtain ⟨htime, hbody⟩ := append_cons_inj (dot_notMem_timestamp h) (dot_notMem_timestamp h') hsame
  rw [(parseStripeHeader_canonical h).2, (parseStripeHeader_canonical h').2] at htime
  exact ⟨decimal_injective htime, hbody⟩

/-! ## The theorem -/

/-- **Signed messages are unambiguous.**  Equal canonical bytes have equal fields, the signed components
    concatenate to them, and equal Stripe messages have equal timestamps and bodies.  Hence one signature
    authenticates one message, unless the two values of a rotation share a tag. -/
theorem signed_messages_unambiguous (crypto : Crypto) :
    (∀ input input', canonicalWebhookBytes input = canonicalWebhookBytes input' → input = input') ∧
      (∀ input : WebhookSigningInput, input.components.flatten = canonicalWebhookBytes input) ∧
      (∀ header header' parsed parsed', parseStripeHeader header = .ok parsed →
        parseStripeHeader header' = .ok parsed' → ∀ body body',
          [parsed.timestampBytes, ascii ".", body].flatten =
            [parsed'.timestampBytes, ascii ".", body'].flatten →
          parsed.timestamp = parsed'.timestamp ∧ parsed.timestampBytes = parsed'.timestampBytes ∧
            body = body') ∧
      (∀ secrets input input' signature, verifyWebhook crypto secrets input signature = true →
        verifyWebhook crypto secrets input' signature = true →
        (∀ key ∈ secrets.values, crypto.Separates key (canonicalWebhookBytes input)
          (canonicalWebhookBytes input')) → input = input' ∨
          crypto.Crosses secrets (canonicalWebhookBytes input) (canonicalWebhookBytes input')) ∧
      ∀ secrets header header' parsed parsed', parseStripeHeader header = .ok parsed →
        parseStripeHeader header' = .ok parsed' → ∀ body body' signature,
          verifyHmacSha256 crypto secrets [parsed.timestampBytes, ascii ".", body] [signature] = true →
          verifyHmacSha256 crypto secrets [parsed'.timestampBytes, ascii ".", body'] [signature] = true →
          (∀ key ∈ secrets.values, crypto.Separates key (stripeMessage parsed body)
            (stripeMessage parsed' body')) → (parsed.timestamp = parsed'.timestamp ∧ body = body') ∨
            crypto.Crosses secrets (stripeMessage parsed body) (stripeMessage parsed' body') := by
  refine ⟨fun _ _ => (canonicalWebhookBytes_injective ·), components_flatten, ?_, ?_, ?_⟩
  · intro header header' parsed parsed' h h' body body' hsame
    obtain ⟨htime, hbody⟩ := stripe_message_inj h h' hsame
    refine ⟨htime, ?_, hbody⟩
    rw [(parseStripeHeader_canonical h).2, (parseStripeHeader_canonical h').2, htime]
  · intro secrets input input' signature h h' hapart
    rcases (verifyWebhook_iff.mp h).unique (verifyWebhook_iff.mp h') hapart with hsame | hcross
    · exact .inl (canonicalWebhookBytes_injective hsame)
    · exact .inr hcross
  · intro secrets header header' parsed parsed' h h' body body' signature hv hv' hapart
    have hone : ∀ {m : List Bytes}, verifyHmacSha256 crypto secrets m [signature] = true →
        Authenticates crypto secrets m.flatten signature := fun hm => by
      obtain ⟨signature', hmem, hauth⟩ := verifyHmacSha256_iff.mp hm
      rw [List.mem_singleton] at hmem
      exact hmem ▸ hauth
    rcases (hone hv).unique (hone hv') hapart with hsame | hcross
    · exact .inl (stripe_message_inj h h' hsame)
    · exact .inr hcross

/-! ## A tag that two keys share -/

namespace SharedTag

def pad (message : Bytes) : Bytes :=
  (UInt8.ofNat message.length :: (message ++ List.replicate 31 0)).take 32

theorem pad_length (message : Bytes) : (pad message).length = 32 := by
  simp [pad]

/-- The key is added to the byte that tells two identifiers apart. -/
def tag (key message : Bytes) : Bytes := pad (message.modify 22 (· + key.headD 0))

/-- An HMAC that keeps all short messages apart under every key. -/
def crypto : Crypto where
  sha256 := fun message => pad message
  sha256_length := pad_length
  hmacSha256 := tag
  hmacSha256_length := fun _ _ => pad_length _

theorem pad_injective {m m' : Bytes} (h : m.length ≤ 31) (h' : m'.length ≤ 31)
    (hpad : pad m = pad m') : m = m' := by
  simp only [pad, List.take_succ_cons] at hpad
  obtain ⟨hlength, hbytes⟩ := List.cons.inj hpad
  have hlength : m.length = m'.length := by
    have hnat := congrArg UInt8.toNat hlength
    simp only [UInt8.toNat_ofNat'] at hnat
    omega
  have hfront : ∀ {m : Bytes}, m.length ≤ 31 →
      ((m ++ List.replicate 31 0).take 31).take m.length = m := fun hm => by
    rw [List.take_take, Nat.min_eq_left hm, List.take_left]
  rw [← hfront h, ← hfront h', hbytes, hlength]

theorem tag_injective (key : Bytes) {m m' : Bytes} (h : m.length ≤ 31) (h' : m'.length ≤ 31)
    (htag : tag key m = tag key m') : m = m' := by
  have hmodified := pad_injective (by simpa using h) (by simpa using h') htag
  have hback : ∀ m : Bytes,
      (m.modify 22 (· + key.headD 0)).modify 22 (· - key.headD 0) = m := fun m => by
    rw [List.modify_modify_eq]
    have hid : ((fun x : UInt8 => x - key.headD 0) ∘ fun x => x + key.headD 0) = id := by
      funext x
      simp
    rw [hid, List.modify_id]
  rw [← hback m, ← hback m', hmodified]

/-- A rotation from the secret `2` to the secret `1`. -/
def secrets : ResolvedSecret :=
  ⟨⟨[1], by decide, by decide⟩, some ⟨[2], by decide, by decide⟩⟩

def input (id : String) : WebhookSigningInput := ⟨0, ascii id, []⟩

/-- The tag of the delivery `b` under the secret `1`, and of the delivery `a` under the secret `2`. -/
def signature : HmacSignature := ⟨tag [1] (canonicalWebhookBytes (input "b")), pad_length _⟩

theorem inputs_differ : input "a" ≠ input "b" := fun heq =>
  absurd (congrArg WebhookSigningInput.deliveryId heq) (by decide)

theorem accepts_both : verifyWebhook crypto secrets (input "a") signature = true ∧
    verifyWebhook crypto secrets (input "b") signature = true := by
  constructor
  · exact verifyWebhook_iff.mpr ⟨⟨[2], by decide, by decide⟩, by simp [ResolvedSecret.values, secrets],
      by decide⟩
  · exact verifyWebhook_iff.mpr ⟨secrets.current, List.mem_cons_self .., rfl⟩

end SharedTag

open SharedTag in
/-- One signature is accepted for two deliveries during a rotation: their tags cross. -/
theorem signed_messages_unambiguous_rotation : input "a" ≠ input "b" ∧
    crypto.Crosses secrets (canonicalWebhookBytes (input "a")) (canonicalWebhookBytes (input "b")) := by
  refine ⟨inputs_differ, ((signed_messages_unambiguous crypto).2.2.2.1 secrets _ _ signature accepts_both.1
    accepts_both.2 fun key _ => ?_).resolve_left inputs_differ⟩
  exact tag_injective key.bytes (by decide) (by decide)

open SharedTag in
/-- **Keeping messages apart under each key alone is not enough for a verifier with two keys**: no key
    gives two messages of up to 31 bytes one tag, and yet one signature is accepted for two of them. -/
theorem rotation_shares_a_tag : input "a" ≠ input "b" ∧ (canonicalWebhookBytes (input "a")).length ≤ 31 ∧
      (canonicalWebhookBytes (input "b")).length ≤ 31 ∧ (∀ key m m', m.length ≤ 31 → m'.length ≤ 31 →
        crypto.hmacSha256 key m = crypto.hmacSha256 key m' → m = m') ∧
      verifyWebhook crypto secrets (input "a") signature = true ∧
      verifyWebhook crypto secrets (input "b") signature = true :=
  ⟨inputs_differ, by decide, by decide, fun key m m' h h' => tag_injective key h h', accepts_both⟩

end Webhook

end Bondry
