/-
  ACCESS TOKENS (`bondry-auth`, `token.rs` and `client.rs`).

  A token is known by a public identifier and proved by a secret.  The host is given one text,
  `bondry_v1.token_<identifier>.<secret>`, and keeps the SHA-256 digest of the secret.  Both parts
  are base64 of fixed length, so the text can be taken apart in one way only:

    `parse` accepts a text  ↔  the text is `tokenText id secret`, and it yields `id` with the digest of
    `secret` (`PresentedToken.parse_iff`).

  Random bytes come from outside: what a source filled in is an argument, `none` where it failed.
-/
import Bondry.Contract.Dispatch
import Bondry.Contract.Secrets
import Bondry.Lib.Base64

namespace Bondry.Auth

open Base64 Encoding

/-- `[u8; N]`. -/
abbrev U8Array (n : Nat) := { bytes : Bytes // bytes.length = n }

/-! ## Display texts -/

inductive DisplayTextError where
  | empty
  | tooLong
  deriving DecidableEq, Repr

structure DisplayText (maximum : Nat) where
  text : Text
  trimmed : trim text = text
  nonempty : text ≠ []
  bounded : utf8Len text ≤ maximum
  deriving DecidableEq

/-- The constructors of `TokenLabel` and `ClientName`. -/
def DisplayText.new (maximum : Nat) (value : Text) : Except DisplayTextError (DisplayText maximum) :=
  if hempty : trim value = [] then .error .empty
  else if hlong : maximum < utf8Len (trim value) then .error .tooLong
  else .ok ⟨trim value, trim_trim value, hempty, Nat.not_lt.mp hlong⟩

theorem DisplayText.new_text {maximum : Nat} (value : DisplayText maximum) :
    DisplayText.new maximum value.text = .ok value := by
  obtain ⟨text, trimmed, nonempty, bounded⟩ := value
  unfold DisplayText.new
  simp only [trimmed, dif_neg nonempty, dif_neg (Nat.not_lt.mpr bounded)]

def maxTokenLabelLength : Nat := 128

def maxClientNameLength : Nat := 128

abbrev TokenLabel := DisplayText maxTokenLabelLength

abbrev ClientName := DisplayText maxClientNameLength

structure Client where
  id : PrincipalId
  name : ClientName
  enabled : Bool
  createdAt : Int

/-! ## Token identifiers -/

def tokenFormat : Text := "bondry_v1".toList

def tokenIdPrefix : Text := "token_".toList

def tokenIdRandomBytes : Nat := 16

def tokenSecretBytes : Nat := 32

def stripPrefix (start text : Text) : Option Text :=
  if start <+: text then some (text.drop start.length) else none

theorem stripPrefix_eq_some {start text rest : Text} :
    stripPrefix start text = some rest ↔ text = start ++ rest := by
  unfold stripPrefix
  constructor
  · intro h
    split at h
    · next hprefix =>
      cases h
      obtain ⟨rest, rfl⟩ := hprefix
      rw [List.drop_left]
    · cases h
  · rintro rfl
    rw [if_pos (List.prefix_append _ _), List.drop_left]

/-- The check of `TokenId::new`. -/
def isTokenId (value : Text) : Bool :=
  match stripPrefix tokenIdPrefix value with
  | none => false
  | some encoded =>
    match urlSafeNoPad.decode encoded with
    | none => false
    | some bytes => decide (bytes.length = tokenIdRandomBytes)

theorem isTokenId_iff {value : Text} : isTokenId value = true ↔
    ∃ bytes : U8Array tokenIdRandomBytes, value = tokenIdPrefix ++ urlSafeNoPad.encode bytes := by
  unfold isTokenId
  constructor
  · intro h
    split at h
    · cases h
    · next encoded hencoded =>
      split at h
      · cases h
      · next bytes hbytes =>
        refine ⟨⟨bytes, of_decide_eq_true h⟩, ?_⟩
        rw [stripPrefix_eq_some.mp hencoded, Engine.decode_iff.mp hbytes]
  · rintro ⟨bytes, rfl⟩
    rw [stripPrefix_eq_some.mpr rfl]
    simp only [Engine.decode_encode]
    exact decide_eq_true bytes.2

structure TokenId where
  text : Text
  valid : isTokenId text = true
  deriving DecidableEq

inductive TokenIdError where
  | invalid
  deriving DecidableEq, Repr

namespace TokenId

theorem text_injective : Function.Injective TokenId.text := by
  rintro ⟨a, ha⟩ ⟨b, hb⟩ h
  cases h
  rfl

def new (value : Text) : Except TokenIdError TokenId :=
  if h : isTokenId value = true then .ok ⟨value, h⟩ else .error .invalid

theorem new_text (id : TokenId) : new id.text = .ok id := by
  unfold new
  rw [dif_pos id.valid]

theorem text_of_new {value : Text} {id : TokenId} (h : new value = .ok id) : id.text = value := by
  unfold new at h
  split at h
  · cases h
    rfl
  · cases h

def fromRandomBytes (bytes : U8Array tokenIdRandomBytes) : Except TokenIdError TokenId :=
  new (tokenIdPrefix ++ urlSafeNoPad.encode bytes)

theorem dot_notMem (id : TokenId) : '.' ∉ id.text := by
  obtain ⟨bytes, hbytes⟩ := isTokenId_iff.mp id.valid
  rw [hbytes, List.mem_append]
  rintro (h | h)
  · exact absurd h (by decide)
  · rcases Engine.mem_encode h with h | ⟨h, -⟩
    · exact absurd h (by decide)
    · cases h

end TokenId

/-! ## Secrets and digests -/

abbrev TokenDigest := U8Array 32

def TokenDigest.fromSecret (crypto : Crypto) (secret : Bytes) : TokenDigest :=
  ⟨crypto.sha256 secret, crypto.sha256_length secret⟩

def tokenText (id : TokenId) (secret : U8Array tokenSecretBytes) : Text :=
  tokenFormat ++ '.' :: (id.text ++ '.' :: urlSafeNoPad.encode secret)

structure GeneratedToken where
  id : TokenId
  digest : TokenDigest
  secret : Text

/-- `GeneratedToken::generate`, with what the random source filled in. -/
def GeneratedToken.generate (crypto : Crypto)
    (random : Option (U8Array tokenIdRandomBytes × U8Array tokenSecretBytes)) : Option GeneratedToken :=
  match random with
  | none => none
  | some (idBytes, secretBytes) =>
    match TokenId.fromRandomBytes idBytes with
    | .error _ => none
    | .ok id =>
      some ⟨id, .fromSecret crypto secretBytes, tokenText id secretBytes⟩

theorem GeneratedToken.generate_eq {crypto : Crypto}
    {random : Option (U8Array tokenIdRandomBytes × U8Array tokenSecretBytes)}
    {generated : GeneratedToken} (h : generate crypto random = some generated) :
    ∃ secret, generated.digest = .fromSecret crypto secret.1 ∧
      generated.secret = tokenText generated.id secret := by
  unfold generate at h
  split at h
  · cases h
  · next idBytes secretBytes =>
    split at h
    · cases h
    · cases h
      exact ⟨secretBytes, rfl, rfl⟩

structure PresentedToken where
  id : TokenId
  digest : TokenDigest

namespace PresentedToken

def parse (crypto : Crypto) (value : Text) : Option PresentedToken :=
  match value.splitOn '.' with
  | [format, id, encodedSecret] =>
    if format ≠ tokenFormat then none
    else match TokenId.new id, urlSafeNoPad.decode encodedSecret with
      | .ok id, some secret =>
        if secret.length ≠ tokenSecretBytes then none else some ⟨id, .fromSecret crypto secret⟩
      | _, _ => none
  | _ => none

theorem splitOn_tokenText (id : TokenId) (secret : U8Array tokenSecretBytes) :
    (tokenText id secret).splitOn '.' = [tokenFormat, id.text, urlSafeNoPad.encode secret] := by
  have htext : tokenText id secret =
      ['.'].intercalate [tokenFormat, id.text, urlSafeNoPad.encode secret] := by
    simp [tokenText, List.intercalate]
  rw [htext]
  refine List.splitOn_intercalate '.' (fun part hpart => ?_) (by simp)
  simp only [List.mem_cons, List.not_mem_nil, or_false] at hpart
  rcases hpart with rfl | rfl | rfl
  · decide
  · exact id.dot_notMem
  · intro h
    rcases Engine.mem_encode h with h | ⟨h, -⟩
    · exact absurd h (by decide)
    · cases h

theorem tokenText_id {id id' : TokenId} {secret secret' : U8Array tokenSecretBytes}
    (h : tokenText id secret = tokenText id' secret') : id = id' := by
  have hparts := congrArg (List.splitOn '.') h
  rw [splitOn_tokenText, splitOn_tokenText] at hparts
  simp only [List.cons.injEq] at hparts
  exact TokenId.text_injective hparts.2.1

/-- **A text is accepted if and only if it is the text of an identifier and a secret.** -/
theorem parse_iff {crypto : Crypto} {value : Text} {presented : PresentedToken} :
    parse crypto value = some presented ↔ ∃ secret : U8Array tokenSecretBytes,
      value = tokenText presented.id secret ∧ presented.digest = .fromSecret crypto secret.1 := by
  constructor
  · fun_cases parse crypto value <;> intro h <;> cases h
    next hparts hformat _ secret hsecret hid hlength =>
      refine ⟨⟨secret, not_not.mp hlength⟩, ?_, rfl⟩
      have hvalue : List.intercalate ['.'] (value.splitOn '.') = value := List.intercalate_splitOn '.'
      rw [hparts] at hvalue
      rw [← hvalue, tokenText, TokenId.text_of_new hid, ← Engine.decode_iff.mp hsecret, ← not_not.mp hformat]
      simp [List.intercalate]
  · rintro ⟨secret, rfl, hdigest⟩
    unfold parse
    rw [splitOn_tokenText]
    simp only [ne_eq, not_true_eq_false, if_false, TokenId.new_text, Engine.decode_encode, secret.2]
    rw [← hdigest]

end PresentedToken

/-! ## Records -/

structure TokenRecord where
  id : TokenId
  client : PrincipalId
  label : Option TokenLabel
  digest : TokenDigest
  createdAt : Int
  expiresAt : Option Int
  revokedAt : Option Int

def TokenRecord.isActiveAt (token : TokenRecord) (unixSeconds : Int) : Bool :=
  token.revokedAt.isNone && token.expiresAt.all fun expiresAt => decide (unixSeconds < expiresAt)

structure TokenMetadata where
  id : TokenId
  client : PrincipalId
  label : Option TokenLabel
  createdAt : Int
  expiresAt : Option Int
  revokedAt : Option Int

def TokenRecord.metadata (token : TokenRecord) : TokenMetadata :=
  ⟨token.id, token.client, token.label, token.createdAt, token.expiresAt, token.revokedAt⟩

structure IssuedToken where
  metadata : TokenMetadata
  secret : Text

end Bondry.Auth
