/-
  UTF-8 IN BOTH DIRECTIONS.

  `decodeUtf8` is strict: it refuses overlong forms, surrogates and truncated characters.  So bytes
  decode to a text if and only if they are THE encoding of that text (`decodeUtf8_iff`), and a text read
  from bytes is as long as the bytes were.  One character is read and written by the standard library.
-/
import Bondry.Lib.Encoding

namespace Bondry.Encoding

def encodeUtf8 (text : List Char) : List UInt8 := text.flatMap String.utf8EncodeChar

@[simp] theorem encodeUtf8_nil : encodeUtf8 [] = [] := rfl

@[simp] theorem encodeUtf8_cons (c : Char) (text : List Char) :
    encodeUtf8 (c :: text) = String.utf8EncodeChar c ++ encodeUtf8 text := rfl

@[simp] theorem encodeUtf8_append (a b : List Char) :
    encodeUtf8 (a ++ b) = encodeUtf8 a ++ encodeUtf8 b := List.flatMap_append

variable {bytes : List UInt8} {text : List Char}

/-- The character in front is the one whose encoding is in front. -/
theorem decodeChar_iff {c : Char} : (bytes.take 4).toByteArray.utf8DecodeChar? 0 = some c ↔
    ∃ rest, bytes = String.utf8EncodeChar c ++ rest := by
  have hsize := c.utf8Size_le_four
  constructor
  · intro h
    have hextract := String.toByteArray_utf8EncodeChar_of_utf8DecodeChar?_eq_some h
    have hlist : String.utf8EncodeChar c = bytes.take c.utf8Size := by
      have hdata := congrArg (fun array : ByteArray => array.data.toList) hextract
      simpa [List.take_take, hsize] using hdata
    exact ⟨bytes.drop c.utf8Size, by rw [hlist, List.take_append_drop]⟩
  · rintro ⟨rest, rfl⟩
    rw [List.take_append, List.take_of_length_le (by rw [String.length_utf8EncodeChar]; exact hsize),
      List.toByteArray_append]
    exact ByteArray.utf8DecodeChar?_utf8EncodeChar_append

theorem decodeChars_iff {count : Nat} (h : bytes.length ≤ count) :
    decodeChars count bytes = some text ↔ bytes = encodeUtf8 text := by
  induction count generalizing bytes text with
  | zero =>
    obtain rfl := List.length_eq_zero_iff.mp (Nat.le_zero.mp h)
    cases text <;> simp [decodeChars, String.utf8EncodeChar_ne_nil]
  | succ count ih =>
    rcases hbytes : bytes with _ | ⟨b, rest⟩
    · cases text <;> simp [decodeChars, String.utf8EncodeChar_ne_nil]
    rw [decodeChars, ← hbytes, Option.bind_eq_some_iff]
    have hrest : ∀ {c : Char} {rest : List UInt8}, bytes = String.utf8EncodeChar c ++ rest →
        bytes.drop c.utf8Size = rest ∧ rest.length ≤ count := by
      rintro c rest rfl
      have hpos := c.utf8Size_pos
      rw [List.length_append, String.length_utf8EncodeChar] at h
      exact ⟨List.drop_left' (String.length_utf8EncodeChar c), by omega⟩
    constructor
    · rintro ⟨c, hc, hmap⟩
      obtain ⟨tail, htail, rfl⟩ := Option.map_eq_some_iff.mp hmap
      obtain ⟨rest, hfront⟩ := decodeChar_iff.mp hc
      obtain ⟨hdrop, hlength⟩ := hrest hfront
      rw [hdrop, ih hlength] at htail
      rw [hfront, htail, encodeUtf8_cons]
    · rintro heq
      rcases text with _ | ⟨c, tail⟩
      · rw [heq] at hbytes
        cases hbytes
      · obtain ⟨hdrop, hlength⟩ := hrest heq
        exact ⟨c, decodeChar_iff.mpr ⟨_, heq⟩, by rw [hdrop, (ih hlength).mpr rfl, Option.map_some]⟩

/-- **Bytes decode to the text they are the encoding of, and no other bytes decode.** -/
theorem decodeUtf8_iff : decodeUtf8 bytes = some text ↔ bytes = encodeUtf8 text := decodeChars_iff le_rfl

theorem encodeUtf8_ascii (h : ∀ c ∈ text, c.toNat < 128) :
    encodeUtf8 text = text.map fun c => UInt8.ofNat c.toNat := by
  induction text with
  | nil => rfl
  | cons c rest ih =>
    have hc : c.val.toNat ≤ 127 := Nat.le_of_lt_succ (h c (List.mem_cons_self ..))
    have hone : String.utf8EncodeChar c = [UInt8.ofNat c.toNat] := by
      simp only [String.utf8EncodeChar]
      rw [if_pos hc]
      rfl
    rw [encodeUtf8_cons, hone, ih fun d hd => h d (List.mem_cons_of_mem _ hd)]
    rfl

theorem decodeUtf8_encodeUtf8 (text : List Char) : decodeUtf8 (encodeUtf8 text) = some text :=
  decodeUtf8_iff.mpr rfl

end Bondry.Encoding
