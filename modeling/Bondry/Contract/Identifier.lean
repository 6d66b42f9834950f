/-
  IDENTIFIERS (`bondry-delivery-store` and `bondry-core`, `identifier.rs`).

  Routes, deliveries, principals, capabilities and the rest are named by bounded portable ASCII text.
  The Rust types of a crate come from one macro, and the two macros make the same check, so here they
  are one type `Identifier kind` whose `kind` fixes the length bound and keeps them apart.  An
  `Identifier` carries the proof that `validate` accepted its text: text that the constructor rejects
  cannot be an identifier.

  Text is a list of characters.  Rust orders `str` by its UTF-8 bytes, which is the lexicographic
  order of the code points, so the map order of the source is `List Char`'s own order.
-/
import Mathlib

namespace Bondry

abbrev Text := List Char

instance : LawfulBEq Text := inferInstance

abbrev Bytes := List UInt8

/-- The UTF-8 encoded length of a text (`str::len`). -/
def utf8Len (text : Text) : Nat := (text.map fun c => c.utf8Size).sum

def eqIgnoreAsciiCase (a b : Text) : Bool := a.map Char.toLower == b.map Char.toLower

inductive PersistenceIdentifierError where
  | empty
  | tooLong (maximum : Nat)
  | invalidCharacter (index : Nat) (character : Char)
  deriving DecidableEq, Repr

def isAllowed (character : Char) : Bool :=
  character.isAlphanum || character == '.' || character == ':' || character == '_' ||
    character == '-'

/-- The first character outside the portable set, with its byte offset (`char_indices().find`). -/
def findInvalid : Nat → Text → Option (Nat × Char)
  | _, [] => none
  | index, c :: rest =>
    if isAllowed c then findInvalid (index + c.utf8Size) rest else some (index, c)

def validate (value : Text) (maximum : Nat) : Except PersistenceIdentifierError Unit :=
  if value = [] then .error .empty
  else if maximum < utf8Len value then .error (.tooLong maximum)
  else match findInvalid 0 value with
    | some (index, character) => .error (.invalidCharacter index character)
    | none => .ok ()

theorem findInvalid_none {index : Nat} {text : Text} (h : findInvalid index text = none) :
    ∀ c ∈ text, isAllowed c = true := by
  induction text generalizing index with
  | nil => exact fun c hc => nomatch hc
  | cons first rest ih =>
    unfold findInvalid at h
    split at h
    · next hfirst =>
      intro c hc
      rcases List.mem_cons.mp hc with rfl | hrest
      · exact hfirst
      · exact ih h c hrest
    · cases h

theorem isAllowed_visible {c : Char} (h : isAllowed c = true) : 0x20 < c.toNat ∧ c.toNat < 0x7F := by
  simp only [isAllowed, Char.isAlphanum, Char.isAlpha, Char.isUpper, Char.isLower, Char.isDigit,
    Bool.or_eq_true, Bool.and_eq_true, beq_iff_eq, decide_eq_true_eq, ge_iff_le,
    UInt32.le_iff_toNat_le] at h
  rcases h with (((((⟨hlo, hhi⟩ | ⟨hlo, hhi⟩) | ⟨hlo, hhi⟩) | rfl) | rfl) | rfl) | rfl
  · exact ⟨Nat.lt_of_lt_of_le (by decide) hlo, Nat.lt_of_le_of_lt hhi (by decide)⟩
  · exact ⟨Nat.lt_of_lt_of_le (by decide) hlo, Nat.lt_of_le_of_lt hhi (by decide)⟩
  · exact ⟨Nat.lt_of_lt_of_le (by decide) hlo, Nat.lt_of_le_of_lt hhi (by decide)⟩
  all_goals decide

theorem utf8EncodeChar_ascii {c : Char} (h : isAllowed c = true) :
    String.utf8EncodeChar c = [UInt8.ofNat c.toNat] := by
  have hsmall : c.val.toNat ≤ 127 := by
    have hvisible := (isAllowed_visible h).2
    exact Nat.le_of_lt (Nat.lt_of_lt_of_le hvisible (by decide))
  unfold String.utf8EncodeChar
  exact if_pos hsmall

inductive IdentifierKind where
  | route
  | delivery
  | verifierNamespace
  | adapter
  | capability
  | handlerErrorCode
  | invocation
  | principal
  deriving DecidableEq, Repr

/-- `MAX_ROUTE_ID_BYTES`, `MAX_DELIVERY_ID_BYTES` and `MAX_VERIFIER_NAMESPACE_BYTES` of the store,
    `MAX_IDENTIFIER_LENGTH` of the core. -/
def IdentifierKind.maximum : IdentifierKind → Nat
  | .route | .delivery | .verifierNamespace => 128
  | .adapter | .capability | .handlerErrorCode | .invocation | .principal => 128

/-- A bounded portable identifier: text that `validate` accepts. -/
structure Identifier (kind : IdentifierKind) where
  text : Text
  valid : validate text kind.maximum = .ok ()
  deriving DecidableEq

abbrev RouteId := Identifier .route
abbrev DeliveryId := Identifier .delivery
abbrev VerifierNamespace := Identifier .verifierNamespace
abbrev AdapterId := Identifier .adapter
abbrev CapabilityId := Identifier .capability
abbrev HandlerErrorCode := Identifier .handlerErrorCode
abbrev InvocationId := Identifier .invocation
abbrev PrincipalId := Identifier .principal

namespace Identifier

variable {kind : IdentifierKind}

/-- `as_str().len()`. -/
def len (id : Identifier kind) : Nat := utf8Len id.text

theorem text_injective : Function.Injective (@Identifier.text kind) := by
  rintro ⟨a, ha⟩ ⟨b, hb⟩ h
  cases h
  rfl

/-- The derived `Ord` of the source: the order of the text. -/
instance : LinearOrder (Identifier kind) := LinearOrder.lift' Identifier.text text_injective

/-- An identifier never exceeds its kind's bound, so adding its length to a charge cannot
    overflow. -/
theorem len_le (id : Identifier kind) : id.len ≤ kind.maximum := by
  have h := id.valid
  unfold validate at h
  by_cases he : id.text = []
  · rw [if_pos he] at h
    exact absurd h (by simp)
  · rw [if_neg he] at h
    by_cases hl : kind.maximum < utf8Len id.text
    · rw [if_pos hl] at h
      exact absurd h (by simp)
    · exact Nat.not_lt.mp hl

/-! ## Identifiers are visible ASCII -/

theorem text_ne_nil (id : Identifier kind) : id.text ≠ [] := by
  have h := id.valid
  unfold validate at h
  split at h
  · cases h
  · next hne => exact hne

theorem allowed (id : Identifier kind) {c : Char} (hc : c ∈ id.text) : isAllowed c = true := by
  have hvalid := id.valid
  revert hvalid
  fun_cases validate id.text kind.maximum <;> intro h <;> cases h
  next hnone => exact findInvalid_none hnone c hc

/-- `as_str().as_bytes()`. -/
def bytes (id : Identifier kind) : Bytes := id.text.flatMap String.utf8EncodeChar

theorem bytes_length (id : Identifier kind) : id.bytes.length = id.len := by
  simp [bytes, len, utf8Len, List.length_flatMap]

theorem bytes_eq_map (id : Identifier kind) : id.bytes = id.text.map fun c => UInt8.ofNat c.toNat := by
  have hall : ∀ text : Text, (∀ c ∈ text, isAllowed c = true) →
      text.flatMap String.utf8EncodeChar = text.map fun c => UInt8.ofNat c.toNat := by
    intro text h
    induction text with
    | nil => rfl
    | cons c rest ih =>
      rw [List.flatMap_cons, List.map_cons, utf8EncodeChar_ascii (h c (List.mem_cons_self ..)),
        ih fun c hc => h c (List.mem_cons_of_mem _ hc)]
      rfl
  exact hall id.text fun c hc => id.allowed hc

theorem visible (id : Identifier kind) {b : UInt8} (hb : b ∈ id.bytes) : 0x20 < b ∧ b < 0x7F := by
  rw [bytes_eq_map, List.mem_map] at hb
  obtain ⟨c, hc, rfl⟩ := hb
  obtain ⟨hlow, hhigh⟩ := isAllowed_visible (id.allowed hc)
  rw [UInt8.lt_iff_toNat_lt, UInt8.lt_iff_toNat_lt, UInt8.toNat_ofNat',
    Nat.mod_eq_of_lt (show c.toNat < 2 ^ 8 by omega)]
  exact ⟨hlow, hhigh⟩

theorem bytes_ne_nil (id : Identifier kind) : id.bytes ≠ [] := by
  rw [bytes_eq_map]
  simpa using id.text_ne_nil

theorem text_of_bytes (id : Identifier kind) : id.bytes.map (fun b => Char.ofNat b.toNat) = id.text := by
  rw [bytes_eq_map, List.map_map]
  refine (List.map_congr_left fun c hc => ?_).trans (List.map_id id.text)
  have hsmall := (isAllowed_visible (id.allowed hc)).2
  show Char.ofNat (UInt8.ofNat c.toNat).toNat = c
  rw [UInt8.toNat_ofNat', Nat.mod_eq_of_lt (by omega), Char.ofNat_toNat]

theorem bytes_injective : Function.Injective (@Identifier.bytes kind) := by
  intro a b h
  refine text_injective ?_
  rw [← text_of_bytes a, ← text_of_bytes b, h]

end Identifier

end Bondry
