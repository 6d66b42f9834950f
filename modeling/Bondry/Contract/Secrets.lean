/-
  SECRETS AND SIGNATURES (`bondry-secrets`).

  SHA-256 and HMAC-SHA-256 are code outside the repository: a `Crypto` is any pair of functions with
  32-byte results, and every result holds for all of them.  A host resolves a secret anew for every
  request, so what it answers is an argument of the functions that need it.
-/
import Bondry.Contract.Identifier
import Bondry.Lib.Encoding

namespace Bondry

open Encoding

structure Crypto where
  sha256 : Bytes → Bytes
  sha256_length : ∀ message, (sha256 message).length = 32
  hmacSha256 : Bytes → Bytes → Bytes
  hmacSha256_length : ∀ key message, (hmacSha256 key message).length = 32

/-! ## Secret material -/

def maxSecretBytes : Nat := 1024

structure SecretValue where
  bytes : Bytes
  nonempty : bytes ≠ []
  bounded : bytes.length ≤ maxSecretBytes

structure ResolvedSecret where
  current : SecretValue
  previous : Option SecretValue

inductive SecretProviderError where
  | notFound
  | unavailable
  | invalidMaterial
  deriving DecidableEq, Repr

abbrev SecretAnswer := Except SecretProviderError ResolvedSecret

/-! ## Signatures -/

/-- A fixed-size HMAC-SHA-256 signature. -/
@[ext] structure HmacSignature where
  bytes : Bytes
  length_eq : bytes.length = 32

instance : DecidableEq HmacSignature := fun a b =>
  decidable_of_iff (a.bytes = b.bytes) HmacSignature.ext_iff.symm

/-- `HmacSignature::from_hex`: exactly 64 hexadecimal digits of either case. -/
def HmacSignature.fromHex (value : Bytes) : Option HmacSignature :=
  if hlen : value.length = 64 then
    match hdec : decodeHex value with
    | some bytes => some ⟨bytes, by have := decodeHex_length hdec; omega⟩
    | none => none
  else none

def HmacSignature.toHex (signature : HmacSignature) : Bytes := encodeHex signature.bytes

theorem HmacSignature.fromHex_toHex (signature : HmacSignature) :
    HmacSignature.fromHex signature.toHex = some signature := by
  have hlen : signature.toHex.length = 64 := by
    rw [toHex, encodeHex_length, signature.length_eq]
  have hdec : decodeHex signature.toHex = some signature.bytes := decodeHex_encodeHex _
  unfold fromHex
  rw [dif_pos hlen]
  split
  · next bytes hbytes =>
    rw [hdec] at hbytes
    cases hbytes
    rfl
  · next hnone =>
    rw [hdec] at hnone
    cases hnone

def constantTimeEq (left right : Bytes) : Bool := decide (left = right)

section

variable (crypto : Crypto)

/-- `sign_components`: the HMAC of the concatenated components. -/
def signComponents (secret : SecretValue) (components : List Bytes) : HmacSignature :=
  ⟨crypto.hmacSha256 secret.bytes components.flatten, crypto.hmacSha256_length _ _⟩

structure WebhookSigningInput where
  timestampUnixSeconds : Int
  deliveryId : Bytes
  body : Bytes

/-- An `i64` in decimal (`to_string`). -/
def decimal (value : Int) : Bytes :=
  if value < 0 then ascii "-" ++ toDecimal value.natAbs else toDecimal value.natAbs

def canonicalWebhookBytes (input : WebhookSigningInput) : Bytes :=
  ascii "bondry-webhook-v1\n" ++ decimal input.timestampUnixSeconds ++ [0x0A] ++
    toDecimal input.deliveryId.length ++ [0x0A] ++ input.deliveryId ++ [0x0A] ++
    toDecimal input.body.length ++ [0x0A] ++ input.body

/-- The components `sign` feeds to the HMAC: every untrusted field behind its length. -/
def WebhookSigningInput.components (input : WebhookSigningInput) : List Bytes :=
  [ascii "bondry-webhook-v1\n", decimal input.timestampUnixSeconds, ascii "\n",
    toDecimal input.deliveryId.length, ascii "\n", input.deliveryId, ascii "\n",
    toDecimal input.body.length, ascii "\n", input.body]

def signWebhook (secret : SecretValue) (input : WebhookSigningInput) : HmacSignature :=
  signComponents crypto secret input.components

/-- `verify_hmac_sha256`: some candidate is the signature under one of the accepted values. -/
def verifyHmacSha256 (secrets : ResolvedSecret) (components : List Bytes)
    (candidates : List HmacSignature) : Bool :=
  candidates.any (fun c => signComponents crypto secrets.current components = c) ||
    secrets.previous.any fun previous =>
      candidates.any fun c => signComponents crypto previous components = c

def verifyWebhook (secrets : ResolvedSecret) (input : WebhookSigningInput)
    (candidate : HmacSignature) : Bool :=
  decide (signWebhook crypto secrets.current input = candidate) ||
    secrets.previous.any fun previous => signWebhook crypto previous input = candidate

/-- `matches_secret` of the bearer verifier. -/
def matchesSecret (secrets : ResolvedSecret) (candidate : Bytes) : Bool :=
  constantTimeEq secrets.current.bytes candidate ||
    secrets.previous.any fun previous => constantTimeEq previous.bytes candidate

end

/-! ## The canonical form is unambiguous -/

theorem decimal_natCast (n : Nat) : decimal n = toDecimal n := by
  rw [decimal, if_neg (by omega)]
  rfl

theorem newline_notMem_toDecimal (n : Nat) : (0x0A : UInt8) ∉ toDecimal n := fun hmem =>
  absurd (isDigit_of_mem_toDecimal hmem) (by decide)

theorem newline_notMem_decimal (value : Int) : (0x0A : UInt8) ∉ decimal value := by
  unfold decimal
  split
  · intro hmem
    rcases List.mem_append.mp hmem with hsign | hdigits
    · exact absurd hsign (by decide)
    · exact newline_notMem_toDecimal _ hdigits
  · exact newline_notMem_toDecimal _

theorem minus_ne_toDecimal (m n : Nat) : ascii "-" ++ toDecimal m ≠ toDecimal n := fun heq => by
  have hmem : (0x2D : UInt8) ∈ toDecimal n := heq ▸ List.mem_cons_self ..
  exact absurd (isDigit_of_mem_toDecimal hmem) (by decide)

theorem decimal_injective : Function.Injective decimal := by
  intro a b h
  unfold decimal at h
  split at h
  · split at h
    · have habs := toDecimal_injective (List.append_cancel_left h)
      omega
    · exact absurd h (minus_ne_toDecimal _ _)
  · split at h
    · exact absurd h.symm (minus_ne_toDecimal _ _)
    · have habs := toDecimal_injective h
      omega

/-- **Equal canonical bytes have equal fields**, whatever bytes the identifier and the body contain:
    each printed number ends at the first newline, and the identifier has the length it announced. -/
theorem canonicalWebhookBytes_injective : Function.Injective canonicalWebhookBytes := by
  rintro ⟨time, id, body⟩ ⟨time', id', body'⟩ h
  simp only [canonicalWebhookBytes, List.append_assoc, List.singleton_append] at h
  have h := List.append_cancel_left h
  obtain ⟨htime, h⟩ := append_cons_inj (newline_notMem_decimal _) (newline_notMem_decimal _) h
  obtain ⟨hlength, h⟩ := append_cons_inj (newline_notMem_toDecimal _) (newline_notMem_toDecimal _) h
  obtain ⟨hid, h⟩ := List.append_inj h (toDecimal_injective hlength)
  obtain ⟨-, h⟩ := List.cons.inj h
  obtain ⟨-, hbody⟩ := append_cons_inj (newline_notMem_toDecimal _) (newline_notMem_toDecimal _) h
  rw [decimal_injective htime, hid, hbody]

/-- **What is signed is the canonical form.** -/
theorem components_flatten (input : WebhookSigningInput) :
    input.components.flatten = canonicalWebhookBytes input := by
  have hnewline : ascii "\n" = [0x0A] := by decide
  simp [WebhookSigningInput.components, canonicalWebhookBytes, hnewline]

end Bondry
