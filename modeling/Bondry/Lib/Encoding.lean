/-
  BYTES AND TEXT: the encodings a wire format is read with.

  * `ascii` — the bytes of a literal;
  * `decodeUtf8` — text from bytes, refusing overlong forms, surrogates and truncated characters;
  * `trim` — text without the white space around it;
  * `toDecimal` and `parseI64` — integers as a program prints them, and as it accepts them (an
    optional sign, at least one digit, no overflow of 64 bits);
  * `encodeHex` and `decodeHex` — pairs of hexadecimal digits.
-/
import Mathlib

namespace Bondry.Encoding

def ascii (text : String) : List UInt8 := text.toList.map fun c => UInt8.ofNat c.toNat

/-- The values of a field in a list of header fields, in their order. -/
def fieldValues (fields : List (String × List UInt8)) (name : String) : List (List UInt8) :=
  (fields.filter fun field => field.1 = name).map Prod.snd

/-- A hexadecimal digit, of either case. -/
def isHexDigit (b : UInt8) : Bool :=
  decide (0x30 ≤ b ∧ b ≤ 0x39) || decide (0x41 ≤ b ∧ b ≤ 0x46) || decide (0x61 ≤ b ∧ b ≤ 0x66)

/-! ## White space -/

/-- The Unicode property White_Space. -/
def isWhitespace (c : Char) : Bool :=
  (0x9 ≤ c.toNat && c.toNat ≤ 0xD) || (0x2000 ≤ c.toNat && c.toNat ≤ 0x200A) ||
    c.toNat ∈ [0x20, 0x85, 0xA0, 0x1680, 0x2028, 0x2029, 0x202F, 0x205F, 0x3000]

/-- The text without the white space at its ends. -/
def trim (text : List Char) : List Char := (text.dropWhile isWhitespace).rdropWhile isWhitespace

theorem trim_trim (text : List Char) : trim (trim text) = trim text := by
  have hfirst : (trim text).dropWhile isWhitespace = trim text := by
    rcases htrim : trim text with _ | ⟨c, rest⟩
    · rfl
    -- what is left begins with the character the first pass stopped at
    obtain ⟨tail, htail⟩ := List.rdropWhile_prefix isWhitespace (text.dropWhile isWhitespace)
    rw [show (text.dropWhile isWhitespace).rdropWhile isWhitespace = c :: rest from htrim,
      List.cons_append] at htail
    have hc : isWhitespace c ≠ true := by
      have hhead := List.head_dropWhile_not isWhitespace (l := text) (by simp [← htail])
      simpa [← htail] using hhead
    exact List.dropWhile_cons_of_neg hc
  unfold trim at hfirst ⊢
  rw [hfirst, List.rdropWhile_idempotent]

/-! ## UTF-8 -/

/-- Text from bytes, of at most so many characters. -/
def decodeChars : Nat → List UInt8 → Option (List Char)
  | _, [] => some []
  | 0, _ :: _ => none
  | count + 1, b :: rest => (((b :: rest).take 4).toByteArray.utf8DecodeChar? 0).bind fun c =>
      (decodeChars count ((b :: rest).drop c.utf8Size)).map (c :: ·)

/-- Text from bytes, or `none` when they are not UTF-8: overlong forms, surrogates and truncated
    characters are refused. -/
def decodeUtf8 (bytes : List UInt8) : Option (List Char) := decodeChars bytes.length bytes

theorem forall_byte {p : UInt8 → Bool} (h : (List.range 256).all (fun n => p (UInt8.ofNat n)) = true)
    (b : UInt8) : p b = true := by
  have hmem : b.toNat ∈ List.range 256 := List.mem_range.mpr b.toNat_lt
  have htest := List.all_eq_true.mp h _ hmem
  rwa [UInt8.ofNat_toNat] at htest

/-! ## Decimal integers -/

def isDigit (b : UInt8) : Bool := decide (0x30 ≤ b) && decide (b ≤ 0x39)

def toDecimal (n : Nat) : List UInt8 := (Nat.toDigits 10 n).map fun c => UInt8.ofNat c.toNat

def readDigits : Nat → List UInt8 → Option Nat
  | acc, [] => some acc
  | acc, b :: rest => if isDigit b then readDigits (acc * 10 + (b.toNat - 48)) rest else none

def parseNat (value : List UInt8) : Option Nat :=
  if value = [] then none else readDigits 0 value

/-- A signed 64-bit integer: `+` and `-` are accepted in front of the digits. -/
def parseI64 (value : List UInt8) : Option Int :=
  match value with
  | [] => none
  | sign :: digits =>
    if sign = 0x2D then
      (parseNat digits).bind fun n => if n ≤ 2 ^ 63 then some (-(n : Int)) else none
    else
      (parseNat (if sign = 0x2B then digits else value)).bind fun n =>
        if n < 2 ^ 63 then some (n : Int) else none

theorem digit_byte {c : Char} (h : c.isDigit = true) :
    isDigit (UInt8.ofNat c.toNat) = true ∧ (UInt8.ofNat c.toNat).toNat = c.toNat := by
  have hc : 48 ≤ c.toNat ∧ c.toNat ≤ 57 := Char.isDigit_iff_toNat.mp h
  have hsmall : c.toNat < 256 := by omega
  have htoNat : (UInt8.ofNat c.toNat).toNat = c.toNat := by simp [Nat.mod_eq_of_lt hsmall]
  refine ⟨?_, htoNat⟩
  simp only [isDigit, UInt8.le_iff_toNat_le, htoNat, Bool.and_eq_true, decide_eq_true_eq]
  exact hc

theorem isDigit_of_mem_toDecimal {n : Nat} {b : UInt8} (h : b ∈ toDecimal n) : isDigit b = true := by
  obtain ⟨c, hc, rfl⟩ := List.mem_map.mp h
  exact (digit_byte (Nat.isDigit_of_mem_toDigits (by decide) (by decide) hc)).1

theorem toDecimal_ne_nil (n : Nat) : toDecimal n ≠ [] := by
  simp [toDecimal, Nat.toDigits_ne_nil]

theorem toDecimal_length_le {n k : Nat} (hk : 0 < k) (h : n < 10 ^ k) : (toDecimal n).length ≤ k := by
  rw [toDecimal, List.length_map]
  exact (Nat.length_toDigits_le_iff (by decide) hk).mpr h

theorem readDigits_chars {digits : List Char} (h : ∀ c ∈ digits, c.isDigit = true) (acc : Nat) :
    readDigits acc (digits.map fun c => UInt8.ofNat c.toNat) = some (Nat.ofDigitChars 10 digits acc) := by
  induction digits generalizing acc with
  | nil => simp [readDigits]
  | cons c rest ih =>
    obtain ⟨hdigit, hvalue⟩ := digit_byte (h c (List.mem_cons_self ..))
    rw [List.map_cons, readDigits, if_pos hdigit, ih fun c hc => h c (List.mem_cons_of_mem _ hc),
      hvalue, Nat.ofDigitChars_eq_foldl, Nat.ofDigitChars_eq_foldl, List.foldl_cons,
      Nat.mul_comm acc 10]
    rfl

/-- **A number is read back as it was printed.** -/
theorem parseNat_toDecimal (n : Nat) : parseNat (toDecimal n) = some n := by
  rw [parseNat, if_neg (toDecimal_ne_nil n), toDecimal,
    readDigits_chars fun c hc => Nat.isDigit_of_mem_toDigits (by decide) (by decide) hc,
    Nat.ofDigitChars_ten_toDigits]

theorem toDecimal_injective : Function.Injective toDecimal := by
  intro m n h
  have hparsed := parseNat_toDecimal m
  rw [h, parseNat_toDecimal] at hparsed
  exact (Option.some.inj hparsed).symm

/-- A number below `2 ^ 63` is read back as a signed integer. -/
theorem parseI64_toDecimal {n : Nat} (h : n < 2 ^ 63) : parseI64 (toDecimal n) = some (n : Int) := by
  cases hdec : toDecimal n with
  | nil => exact absurd hdec (toDecimal_ne_nil n)
  | cons first rest =>
    have hfirst : isDigit first = true :=
      isDigit_of_mem_toDecimal (n := n) (by rw [hdec]; exact List.mem_cons_self ..)
    have hminus : first ≠ 0x2D := fun heq => by rw [heq] at hfirst; exact absurd hfirst (by decide)
    have hplus : first ≠ 0x2B := fun heq => by rw [heq] at hfirst; exact absurd hfirst (by decide)
    rw [parseI64, if_neg hminus, if_neg hplus, ← hdec, parseNat_toDecimal, Option.bind_some, if_pos h]

theorem toDigits_cons (n : Nat) : ∃ first rest, Nat.toDigits 10 n = first :: rest ∧
    first.isDigit = true ∧ (first = '0' → rest = []) := by
  induction n using Nat.strongRecOn with
  | ind n ih =>
    by_cases hsmall : n < 10
    · refine ⟨n.digitChar, [], Nat.toDigits_of_lt_base hsmall, ?_, fun _ => rfl⟩
      simpa using hsmall
    have hstep := Nat.toDigits_of_base_le (b := 10) (by decide) (Nat.not_lt.mp hsmall)
    obtain ⟨first, rest, hdigits, hfirst, hzero⟩ := ih (n / 10) (by omega)
    refine ⟨first, rest ++ [(n % 10).digitChar], by rw [hstep, hdigits]; rfl, hfirst, ?_⟩
    -- a quotient that begins with a zero is zero, and `n` is at least ten
    rintro rfl
    have hvalue : Nat.ofDigitChars 10 (Nat.toDigits 10 (n / 10)) 0 = n / 10 := Nat.ofDigitChars_ten_toDigits
    rw [hdigits, hzero rfl] at hvalue
    have : n / 10 = 0 := hvalue.symm
    omega

theorem digitChar_toNat : ∀ n < 10, n.digitChar.toNat = 48 + n := by decide

/-- Digits without a leading zero are what their value is printed as. -/
theorem toDigits_ofDigitChars {digits : List Char} (hne : digits ≠ [])
    (hdigits : ∀ c ∈ digits, c.isDigit = true) (hzero : digits.head? = some '0' → digits.length = 1) :
    Nat.toDigits 10 (Nat.ofDigitChars 10 digits 0) = digits := by
  -- the last digit comes off the end, and what is left has no leading zero either
  induction digits using List.reverseRecOn with
  | nil => exact absurd rfl hne
  | append_singleton front c ih =>
    have hc : 48 ≤ c.toNat ∧ c.toNat ≤ 57 := Char.isDigit_iff_toNat.mp (hdigits c (by simp))
    have hvalue : ∀ value, Nat.ofDigitChars 10 [c] value = 10 * value + (c.toNat - 48) := fun value => by
      rw [Nat.ofDigitChars_cons, Nat.ofDigitChars_nil]
      rfl
    have hlast : Nat.toDigits 10 (c.toNat - 48) = [c] := by
      rw [Nat.toDigits_of_lt_base (by omega)]
      refine congrArg (· :: []) (Char.toNat_inj.mp ?_)
      rw [digitChar_toNat _ (by omega)]
      omega
    rw [Nat.ofDigitChars_append, hvalue]
    by_cases hfront : front = []
    · rw [hfront]
      simpa using hlast
    have hlong : front.head? ≠ some '0' := by
      intro hhead
      have hlength := hzero (by rw [List.head?_append, hhead]; rfl)
      have := List.length_pos_of_ne_nil hfront
      rw [List.length_append, List.length_singleton] at hlength
      omega
    have hdigits' := ih hfront (fun c hc => hdigits c (by simp [hc])) (fun hhead => absurd hhead hlong)
    have hpos : 0 < Nat.ofDigitChars 10 front 0 := by
      rcases Nat.eq_zero_or_pos (Nat.ofDigitChars 10 front 0) with heq | hpos
      · rw [heq, Nat.toDigits_zero] at hdigits'
        exact absurd (by rw [← hdigits']; rfl) hlong
      · exact hpos
    rw [← Nat.toDigits_append_toDigits (by decide) hpos (by omega), hdigits', hlast]

/-! ## Fields behind a separator -/

/-- **Fields that do not contain the separator are read off uniquely.** -/
theorem append_cons_inj {α : Type} {sep : α} {xs ys : List α} (hx : sep ∉ xs) (hy : sep ∉ ys)
    {as bs : List α} (h : xs ++ sep :: as = ys ++ sep :: bs) : xs = ys ∧ as = bs := by
  induction xs generalizing ys with
  | nil =>
    cases ys with
    | nil => exact ⟨rfl, (List.cons.inj h).2⟩
    | cons y ys =>
      obtain ⟨rfl, -⟩ := List.cons.inj h
      exact absurd (List.mem_cons_self ..) hy
  | cons x xs ih =>
    cases ys with
    | nil =>
      obtain ⟨rfl, -⟩ := List.cons.inj h
      exact absurd (List.mem_cons_self ..) hx
    | cons y ys =>
      obtain ⟨rfl, hrest⟩ := List.cons.inj h
      obtain ⟨rfl, htail⟩ := ih (fun hmem => hx (List.mem_cons_of_mem _ hmem))
        (fun hmem => hy (List.mem_cons_of_mem _ hmem)) hrest
      exact ⟨rfl, htail⟩

/-! ## Hexadecimal -/

def decodeNibble (b : UInt8) : Option UInt8 :=
  if 0x30 ≤ b ∧ b ≤ 0x39 then some (b - 0x30)
  else if 0x61 ≤ b ∧ b ≤ 0x66 then some (b - 0x61 + 10)
  else if 0x41 ≤ b ∧ b ≤ 0x46 then some (b - 0x41 + 10)
  else none

def decodeHex : List UInt8 → Option (List UInt8)
  | [] => some []
  | [_] => none
  | high :: low :: rest =>
    (decodeNibble high).bind fun h => (decodeNibble low).bind fun l =>
      (decodeHex rest).map ((h <<< 4 ||| l) :: ·)

def encodeNibble (value : UInt8) : UInt8 := if value < 10 then 0x30 + value else 0x61 + (value - 10)

def encodeHex : List UInt8 → List UInt8
  | [] => []
  | b :: rest => encodeNibble (b >>> 4) :: encodeNibble (b &&& 0x0f) :: encodeHex rest

theorem decodeNibble_encode : ∀ b : UInt8, decodeNibble (encodeNibble (b >>> 4)) = some (b >>> 4) ∧
      decodeNibble (encodeNibble (b &&& 0x0f)) = some (b &&& 0x0f) ∧
      ((b >>> 4) <<< 4 ||| b &&& 0x0f) = b := by
  decide +kernel

/-- **Bytes are read back as they were printed.** -/
theorem decodeHex_encodeHex (bytes : List UInt8) : decodeHex (encodeHex bytes) = some bytes := by
  induction bytes with
  | nil => rfl
  | cons b rest ih =>
    obtain ⟨hhigh, hlow, hboth⟩ := decodeNibble_encode b
    rw [encodeHex, decodeHex, hhigh, Option.bind_some, hlow, Option.bind_some, ih, Option.map_some,
      hboth]

theorem decodeHex_length {value bytes : List UInt8} (h : decodeHex value = some bytes) :
    value.length = 2 * bytes.length := by
  induction value using decodeHex.induct generalizing bytes with
  | case1 =>
    cases h
    rfl
  | case2 => cases h
  | case3 high low rest ih =>
    rw [decodeHex, Option.bind_eq_some_iff] at h
    obtain ⟨x, _, h⟩ := h
    rw [Option.bind_eq_some_iff] at h
    obtain ⟨y, _, h⟩ := h
    obtain ⟨tail, htail, rfl⟩ := Option.map_eq_some_iff.mp h
    simp only [List.length_cons, ih htail]
    omega

theorem encodeHex_length (bytes : List UInt8) : (encodeHex bytes).length = 2 * bytes.length :=
  decodeHex_length (decodeHex_encodeHex bytes)

end Bondry.Encoding
