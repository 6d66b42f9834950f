/-
  BASE64, over any alphabet.

  Three bytes are four SEXTETS; a text writes one character for each, and ends with padding where the
  engine wants it.  The decoder is strict: the padding must be the one the encoder writes, and the
  bits that the last character does not need must be zero.  So it is not only a left inverse: a text
  decodes to some bytes if and only if it is THE encoding of these bytes (`Engine.decode_iff`).
-/
import Mathlib

namespace Bondry.Base64

/-! ## Sextets -/

def sextets : List UInt8 → List Nat
  | a :: b :: c :: rest =>
    a.toNat / 4 :: (a.toNat % 4 * 16 + b.toNat / 16) :: (b.toNat % 16 * 4 + c.toNat / 64) ::
      c.toNat % 64 :: sextets rest
  | [a, b] => [a.toNat / 4, a.toNat % 4 * 16 + b.toNat / 16, b.toNat % 16 * 4]
  | [a] => [a.toNat / 4, a.toNat % 4 * 16]
  | [] => []

/-- The bytes of a sequence of sextets, if no bits are left over. -/
def ofSextets : List Nat → Option (List UInt8)
  | w :: x :: y :: z :: rest =>
    (ofSextets rest).map fun bytes =>
      UInt8.ofNat (w * 4 + x / 16) :: UInt8.ofNat (x % 16 * 16 + y / 4) ::
        UInt8.ofNat (y % 4 * 64 + z) :: bytes
  | [w, x, y] =>
    if y % 4 = 0 then some [UInt8.ofNat (w * 4 + x / 16), UInt8.ofNat (x % 16 * 16 + y / 4)]
    else none
  | [w, x] => if x % 16 = 0 then some [UInt8.ofNat (w * 4 + x / 16)] else none
  | [_] => none
  | [] => some []

theorem sextets_lt (bytes : List UInt8) : ∀ s ∈ sextets bytes, s < 64 := by
  induction bytes using sextets.induct with
  | case1 a b c rest ih =>
    have ha := a.toNat_lt
    have hb := b.toNat_lt
    have hc := c.toNat_lt
    intro s hs
    simp only [sextets, List.mem_cons] at hs
    rcases hs with rfl | rfl | rfl | rfl | hs
    · omega
    · omega
    · omega
    · omega
    · exact ih s hs
  | case2 a b =>
    have ha := a.toNat_lt
    have hb := b.toNat_lt
    intro s hs
    simp only [sextets, List.mem_cons, List.not_mem_nil, or_false] at hs
    omega
  | case3 a =>
    have ha := a.toNat_lt
    intro s hs
    simp only [sextets, List.mem_cons, List.not_mem_nil, or_false] at hs
    omega
  | case4 => simp [sextets]

theorem ofNat_eq {n : Nat} {b : UInt8} (h : n = b.toNat) : UInt8.ofNat n = b := by
  rw [h, UInt8.ofNat_toNat]

theorem toNat_ofNat_small {n : Nat} (h : n < 256) : (UInt8.ofNat n).toNat = n :=
  UInt8.toNat_ofNat_of_lt' h

theorem ofSextets_sextets (bytes : List UInt8) : ofSextets (sextets bytes) = some bytes := by
  induction bytes using sextets.induct with
  | case1 a b c rest ih =>
    have hb := b.toNat_lt
    have hc := c.toNat_lt
    rw [sextets, ofSextets, ih, ofNat_eq (b := a) (by omega), ofNat_eq (b := b) (by omega),
      ofNat_eq (b := c) (by omega)]
    rfl
  | case2 a b =>
    have hb := b.toNat_lt
    rw [sextets, ofSextets, if_pos (by omega), ofNat_eq (b := a) (by omega),
      ofNat_eq (b := b) (by omega)]
  | case3 a =>
    rw [sextets, ofSextets, if_pos (by omega), ofNat_eq (b := a) (by omega)]
  | case4 => rfl

theorem sextets_of_ofSextets {values : List Nat} {bytes : List UInt8} (hlt : ∀ s ∈ values, s < 64)
    (h : ofSextets values = some bytes) : values = sextets bytes := by
  induction values using ofSextets.induct generalizing bytes with
  | case1 w x y z rest ih =>
    obtain ⟨tail, htail, rfl⟩ := Option.map_eq_some_iff.mp h
    have hw := hlt w (by simp)
    have hx := hlt x (by simp)
    have hy := hlt y (by simp)
    have hz := hlt z (by simp)
    rw [sextets, ← ih (fun s hs => hlt s (by simp [hs])) htail]
    rw [toNat_ofNat_small (show w * 4 + x / 16 < 256 by omega),
      toNat_ofNat_small (show x % 16 * 16 + y / 4 < 256 by omega),
      toNat_ofNat_small (show y % 4 * 64 + z < 256 by omega)]
    congr 1
    · omega
    · congr 1
      · omega
      · congr 1
        · omega
        · congr 1
          omega
  | case2 w x y hzero =>
    have hw := hlt w (by simp)
    have hx := hlt x (by simp)
    have hy := hlt y (by simp)
    rw [ofSextets, if_pos hzero] at h
    cases h
    rw [sextets,
      toNat_ofNat_small (show w * 4 + x / 16 < 256 by omega),
      toNat_ofNat_small (show x % 16 * 16 + y / 4 < 256 by omega)]
    simp only [List.cons.injEq, and_true]
    omega
  | case3 w x y hzero =>
    rw [ofSextets, if_neg hzero] at h
    cases h
  | case4 w x hzero =>
    have hw := hlt w (by simp)
    have hx := hlt x (by simp)
    rw [ofSextets, if_pos hzero] at h
    cases h
    rw [sextets,
      toNat_ofNat_small (show w * 4 + x / 16 < 256 by omega)]
    simp only [List.cons.injEq, and_true]
    omega
  | case5 w x hzero =>
    rw [ofSextets, if_neg hzero] at h
    cases h
  | case6 => cases h
  | case7 =>
    cases h
    rfl

/-! ## Texts -/

/-- An alphabet of 64 characters, and whether texts are padded to a multiple of four. -/
structure Engine where
  alphabet : List Char
  length_eq : alphabet.length = 64
  nodup : alphabet.Nodup
  pad_notMem : '=' ∉ alphabet
  padded : Bool

namespace Engine

variable (e : Engine)

def symbol (value : Nat) : Char := e.alphabet.getD value '='

def value (c : Char) : Option Nat :=
  if c ∈ e.alphabet then some (e.alphabet.idxOf c) else none

def padding (length : Nat) : List Char :=
  if e.padded then List.replicate ((4 - length % 4) % 4) '=' else []

def encode (bytes : List UInt8) : List Char :=
  (sextets bytes).map e.symbol ++ e.padding (sextets bytes).length

def decode (text : List Char) : Option (List UInt8) :=
  let body := text.takeWhile (· ≠ '=')
  if text.drop body.length = e.padding body.length then (body.mapM e.value).bind ofSextets else none

variable {e}

theorem symbol_eq {value : Nat} (h : value < 64) :
    ∃ h' : value < e.alphabet.length, e.symbol value = e.alphabet[value] := by
  have h' : value < e.alphabet.length := by
    rw [e.length_eq]
    exact h
  exact ⟨h', List.getD_eq_getElem _ _ h'⟩

theorem symbol_mem {value : Nat} (h : value < 64) : e.symbol value ∈ e.alphabet := by
  obtain ⟨h', heq⟩ := symbol_eq (e := e) h
  rw [heq]
  exact List.getElem_mem h'

theorem value_eq_some {c : Char} {value : Nat} :
    e.value c = some value ↔ value < 64 ∧ c = e.symbol value := by
  unfold Engine.value
  constructor
  · intro h
    split at h
    · next hmem =>
      cases h
      have hlt : e.alphabet.idxOf c < e.alphabet.length := List.idxOf_lt_length_iff.mpr hmem
      have hsmall : e.alphabet.idxOf c < 64 := e.length_eq ▸ hlt
      obtain ⟨h', heq⟩ := symbol_eq (e := e) hsmall
      exact ⟨hsmall, by rw [heq, List.getElem_idxOf]⟩
    · cases h
  · rintro ⟨hlt, rfl⟩
    obtain ⟨h', heq⟩ := symbol_eq (e := e) hlt
    rw [if_pos (symbol_mem hlt), heq, e.nodup.idxOf_getElem]

theorem mapM_value {text : List Char} {values : List Nat} :
    text.mapM e.value = some values ↔ (∀ s ∈ values, s < 64) ∧ text = values.map e.symbol := by
  induction text generalizing values with
  | nil =>
    constructor
    · intro h
      cases h
      simp
    · rintro ⟨-, h⟩
      rw [List.map_eq_nil_iff.mp h.symm]
      rfl
  | cons c rest ih =>
    rw [List.mapM_cons]
    constructor
    · intro h
      obtain ⟨value, hvalue, h⟩ := Option.bind_eq_some_iff.mp h
      obtain ⟨others, hothers, h⟩ := Option.bind_eq_some_iff.mp h
      cases h
      obtain ⟨hlt, rfl⟩ := value_eq_some.mp hvalue
      obtain ⟨hall, rfl⟩ := ih.mp hothers
      exact ⟨by simpa using ⟨hlt, hall⟩, rfl⟩
    · rintro ⟨hall, h⟩
      obtain ⟨value, others, rfl, rfl, hrest⟩ := List.map_eq_cons_iff.mp h.symm
      have hothers := ih.mpr ⟨fun s hs => hall s (by simp [hs]), hrest.symm⟩
      rw [value_eq_some.mpr ⟨hall value (by simp), rfl⟩, hothers]
      rfl

theorem takeWhile_encode (bytes : List UInt8) :
    (e.encode bytes).takeWhile (· ≠ '=') = (sextets bytes).map e.symbol := by
  have hbody : ∀ c ∈ (sextets bytes).map e.symbol, decide (c ≠ '=') = true := by
    intro c hc
    obtain ⟨value, hvalue, rfl⟩ := List.mem_map.mp hc
    rw [decide_eq_true_eq]
    intro hpad
    exact e.pad_notMem (hpad ▸ symbol_mem (sextets_lt bytes value hvalue))
  rw [Engine.encode, List.takeWhile_append_of_pos hbody]
  rcases hpadding : e.padding (sextets bytes).length with _ | ⟨c, rest⟩
  · simp
  · have hc : c = '=' := by
      have hmem : c ∈ e.padding (sextets bytes).length := by simp [hpadding]
      unfold padding at hmem
      split at hmem
      · exact List.eq_of_mem_replicate hmem
      · cases hmem
    simp [hc]

/-- **A text decodes to the bytes it is the encoding of, and no other text decodes.** -/
theorem decode_iff {text : List Char} {bytes : List UInt8} :
    e.decode text = some bytes ↔ text = e.encode bytes := by
  constructor
  · intro h
    unfold decode at h
    dsimp only at h
    split at h
    · next hpadding =>
      obtain ⟨values, hvalues, hbytes⟩ := Option.bind_eq_some_iff.mp h
      obtain ⟨hlt, hbody⟩ := mapM_value.mp hvalues
      have hlength : (text.takeWhile (· ≠ '=')).length = values.length := by
        rw [hbody, List.length_map]
      calc text = text.takeWhile (· ≠ '=') ++ text.drop (text.takeWhile (· ≠ '=')).length := by
            conv_lhs => rw [← List.take_append_drop (text.takeWhile (· ≠ '=')).length text]
            rw [← List.prefix_iff_eq_take.mp (List.takeWhile_prefix _)]
        _ = values.map e.symbol ++ e.padding values.length := by rw [hpadding, hlength, hbody]
        _ = e.encode bytes := by rw [encode, ← sextets_of_ofSextets hlt hbytes]
    · cases h
  · rintro rfl
    unfold decode
    dsimp only
    rw [takeWhile_encode, List.length_map, if_pos]
    · rw [mapM_value.mpr ⟨sextets_lt bytes, rfl⟩]
      exact ofSextets_sextets bytes
    · rw [encode, List.drop_left' (List.length_map _)]

theorem decode_encode (bytes : List UInt8) : e.decode (e.encode bytes) = some bytes :=
  decode_iff.mpr rfl

theorem mem_encode {bytes : List UInt8} {c : Char} (h : c ∈ e.encode bytes) :
    c ∈ e.alphabet ∨ e.padded = true ∧ c = '=' := by
  rcases List.mem_append.mp h with hbody | hpad
  · obtain ⟨value, hvalue, rfl⟩ := List.mem_map.mp hbody
    exact .inl (symbol_mem (sextets_lt bytes value hvalue))
  · unfold padding at hpad
    split at hpad
    · next hpadded => exact .inr ⟨hpadded, List.eq_of_mem_replicate hpad⟩
    · cases hpad

theorem length_sextets (bytes : List UInt8) : (sextets bytes).length = (4 * bytes.length + 2) / 3 := by
  induction bytes using sextets.induct with
  | case1 a b c rest ih =>
    simp only [sextets, List.length_cons, ih]
    omega
  | case2 | case3 | case4 => simp [sextets]

theorem length_encode (h : e.padded = true) (bytes : List UInt8) :
    (e.encode bytes).length = 4 * ((bytes.length + 2) / 3) := by
  simp only [encode, List.length_append, List.length_map, padding, h, if_true, List.length_replicate,
    length_sextets]
  omega

end Engine

def alphanumeric : String := "ABCDEFGHIJKLMNOPQRSTUVWXYZabcdefghijklmnopqrstuvwxyz0123456789"

theorem alphanumeric_toList : alphanumeric.toList =
    ['A', 'B', 'C', 'D', 'E', 'F', 'G', 'H', 'I', 'J', 'K', 'L', 'M', 'N', 'O', 'P', 'Q', 'R',
    'S', 'T', 'U', 'V', 'W', 'X', 'Y', 'Z', 'a', 'b', 'c', 'd', 'e', 'f', 'g', 'h', 'i', 'j',
    'k', 'l', 'm', 'n', 'o', 'p', 'q', 'r', 's', 't', 'u', 'v', 'w', 'x', 'y', 'z', '0', '1',
    '2', '3', '4', '5', '6', '7', '8', '9'] := rfl

def standard : Engine where
  alphabet := alphanumeric.toList ++ ['+', '/']
  length_eq := by
    rw [alphanumeric_toList]
    rfl
  nodup := by
    rw [alphanumeric_toList]
    decide +kernel
  pad_notMem := by
    rw [alphanumeric_toList]
    decide +kernel
  padded := true

def urlSafeNoPad : Engine where
  alphabet := alphanumeric.toList ++ ['-', '_']
  length_eq := by
    rw [alphanumeric_toList]
    rfl
  nodup := by
    rw [alphanumeric_toList]
    decide +kernel
  pad_notMem := by
    rw [alphanumeric_toList]
    decide +kernel
  padded := false

end Bondry.Base64
