/-
  THE TWO DIRECTIONS OF THE JSON LEXER.

  * `lex_write` — the text that is written for a document lexes to the document's tokens.  A number is
    ended by what follows it, so the induction carries that the rest of the text does not go on with a
    character of a number.
  * `length_le_of_lex` — a text is at least as long as its tokens are when they are written.  A lexer has
    a WEIGHT, the length of what it is in the middle of; a step adds at most the length of its character.
-/
import Bondry.Lib.Json

namespace Bondry.Json

open Encoding

def byteLen (text : List Char) : Nat := (encodeUtf8 text).length

@[simp] theorem byteLen_nil : byteLen [] = 0 := rfl

@[simp] theorem byteLen_cons (c : Char) (text : List Char) :
    byteLen (c :: text) = c.utf8Size + byteLen text := by
  rw [byteLen, encodeUtf8_cons, List.length_append, String.length_utf8EncodeChar]
  rfl

@[simp] theorem byteLen_append (a b : List Char) : byteLen (a ++ b) = byteLen a + byteLen b := by
  rw [byteLen, encodeUtf8_append, List.length_append]
  rfl

/-! ## A text is as long as its tokens -/

def escapedLen (value : List Char) : Nat := byteLen (value.flatMap escape)

@[simp] theorem escapedLen_nil : escapedLen [] = 0 := rfl

@[simp] theorem escapedLen_concat (value : List Char) (c : Char) :
    escapedLen (value ++ [c]) = escapedLen value + byteLen (Json.escape c) := by
  simp [escapedLen]

theorem quote_size : quote.utf8Size = 1 := rfl

theorem backslash_size : backslash.utf8Size = 1 := rfl

theorem hexDigit_size {value : Nat} (h : value < 16) : (hexDigit value).utf8Size = 1 := by
  revert h
  revert value
  decide

theorem byteLen_escape_le (c : Char) : byteLen (Json.escape c) ≤ 6 := by
  have hsize := c.utf8Size_le_four
  unfold Json.escape
  by_cases hcontrol : c.toNat < 32
  · have hhigh : (hexDigit (c.toNat / 16)).utf8Size = 1 := hexDigit_size (by omega)
    have hlow : (hexDigit (c.toNat % 16)).utf8Size = 1 := hexDigit_size (by omega)
    have hunicode : byteLen
        [backslash, 'u', '0', '0', hexDigit (c.toNat / 16), hexDigit (c.toNat % 16)] = 6 := by
      simp only [byteLen_cons, byteLen_nil, backslash_size, hhigh, hlow]
      rfl
    split_ifs <;> first | exact hunicode.le | decide
  · have hraw : byteLen [c] ≤ 6 := by
      simp only [byteLen_cons, byteLen_nil]
      omega
    split_ifs <;> first | exact hraw | decide

variable {c : Char}

theorem byteLen_escape_unescape {d : Char} (h : Lexer.unescape c = some d) : byteLen (Json.escape d) ≤ 2 := by
  unfold Lexer.unescape at h
  by_cases hself : c = quote ∨ c = backslash ∨ c = '/'
  · rw [if_pos hself] at h
    cases h
    rcases hself with rfl | rfl | rfl <;> decide
  · split_ifs at h <;>
      · cases h
        decide

theorem escape_raw (hquote : c ≠ quote) (hbackslash : c ≠ backslash) (h : ¬ c.toNat < 32) :
    Json.escape c = [c] := by
  have hne : ∀ d : Char, d.toNat < 32 → c ≠ d := by
    rintro d hd rfl
    exact h hd
  unfold escape
  rw [if_neg hquote, if_neg hbackslash, if_neg (hne _ (by decide)), if_neg (hne _ (by decide)),
    if_neg (hne _ (by decide)), if_neg (hne _ (by decide)), if_neg (hne _ (by decide)), if_neg h]

/-- The length of what a lexer is in the middle of. -/
def Lexer.weight : Lexer → Nat
  | .idle => 0
  | .word left token => byteLen token.text - left.length
  | .number read => byteLen read
  | .string read => escapedLen read + 1
  | .escape read => escapedLen read + 2
  | .hex read none digits _ => escapedLen read + 3 + digits
  | .hex read (some _) digits _ => escapedLen read + 9 + digits
  | .low read _ => escapedLen read + 7
  | .lowEscape read _ => escapedLen read + 8

def weigh (tokens : List Token) : Nat := byteLen (tokens.flatMap Token.text)

@[simp] theorem weigh_nil : weigh [] = 0 := rfl

@[simp] theorem weigh_cons (token : Token) (rest : List Token) :
    weigh (token :: rest) = byteLen token.text + weigh rest := by
  simp [weigh]

@[simp] theorem weigh_append (a b : List Token) : weigh (a ++ b) = weigh a + weigh b := by
  simp [weigh]

theorem byteLen_string (value : List Char) : byteLen (Token.string value).text = escapedLen value + 2 := by
  show byteLen (quote :: value.flatMap escape ++ [quote]) = _
  simp only [List.cons_append, byteLen_cons, byteLen_append, byteLen_nil, quote_size, escapedLen]
  omega

namespace Lexer

variable {c : Char} {out : List Token} {next : Lexer}

theorem weight_symbol (h : symbol c = some (out, next)) : weigh out + next.weight ≤ 1 := by
  unfold symbol at h
  split at h
  case h_10 => cases h
  all_goals
    cases h
    decide

theorem weight_start (h : start c = some (out, next)) : weigh out + next.weight ≤ c.utf8Size := by
  have hpos := c.utf8Size_pos
  unfold start at h
  split_ifs at h
  · cases h
    simp [weight]
  · cases h
    exact hpos
  · cases h
    simp [weight]
  · have := weight_symbol h
    omega

theorem weight_codeUnit {read : List Char} {high : Option Nat} {value : Nat}
    (h : codeUnit read high value = some next) : next.weight ≤ (Lexer.hex read high 3 value).weight + 1 := by
  have hescape : ∀ c : Char, byteLen (Json.escape c) ≤ 6 := byteLen_escape_le
  cases high with
  | none =>
    simp only [codeUnit] at h
    split_ifs at h with hhigh hlow
    · cases h
      simp [weight]
    · cases h
      have := hescape (Char.ofNat value)
      simp only [weight, escapedLen_concat]
      omega
  | some high =>
    simp only [codeUnit] at h
    split_ifs at h with hlow
    cases h
    have := hescape (Char.ofNat ((high - 0xD800) * 0x400 + (value - 0xDC00) + 0x10000))
    simp only [weight, escapedLen_concat]
    omega

/-- **A step adds at most the length of its character.** -/
theorem weight_step {state : Lexer} (h : state.step c = some (out, next)) :
    weigh out + next.weight ≤ state.weight + c.utf8Size := by
  have hpos := c.utf8Size_pos
  cases state with
  | idle =>
    have := weight_start h
    simpa [weight] using this
  | word left token =>
    cases left with
    | nil => cases h
    | cons d left =>
      simp only [step] at h
      split_ifs at h with hne hlast
      · cases h
        subst hlast
        simp only [weigh_cons, weigh_nil, weight, List.length_cons, List.length_nil]
        omega
      · cases h
        simp only [weigh_nil, weight, List.length_cons]
        omega
  | number read =>
    simp only [step] at h
    split_ifs at h with hmore hend
    · cases h
      simp [weight]
    · obtain ⟨⟨out', next'⟩, hstart, heq⟩ := Option.map_eq_some_iff.mp h
      cases heq
      have := weight_start hstart
      have hout : weigh (.number read :: out') = byteLen read + weigh out' := weigh_cons _ _
      show weigh (.number read :: out') + next'.weight ≤ byteLen read + c.utf8Size
      omega
  | string read =>
    simp only [step] at h
    split_ifs at h with hquote hbackslash hcontrol
    · cases h
      simp only [weigh_cons, weigh_nil, byteLen_string, weight]
      omega
    · cases h
      simp only [weigh_nil, weight]
      omega
    · cases h
      simp only [weigh_nil, weight, escapedLen_concat, escape_raw hquote hbackslash hcontrol,
        byteLen_cons, byteLen_nil]
      omega
  | escape read =>
    simp only [step] at h
    split_ifs at h with hunicode
    · cases h
      simp only [weigh_nil, weight]
      omega
    · obtain ⟨d, hd, heq⟩ := Option.map_eq_some_iff.mp h
      cases heq
      have := byteLen_escape_unescape hd
      simp only [weigh_nil, weight, escapedLen_concat]
      omega
  | hex read high digits value =>
    obtain ⟨d, -, h⟩ := Option.bind_eq_some_iff.mp h
    split_ifs at h with hthree
    · obtain ⟨unit, hunit, heq⟩ := Option.map_eq_some_iff.mp h
      cases heq
      subst hthree
      have := weight_codeUnit hunit
      cases high <;> simp only [weigh_nil, weight] at this ⊢ <;> omega
    · cases h
      cases high <;> simp only [weigh_nil, weight] <;> omega
  | low read high =>
    simp only [step] at h
    split_ifs at h
    cases h
    simp only [weigh_nil, weight]
    omega
  | lowEscape read high =>
    simp only [step] at h
    split_ifs at h
    cases h
    simp only [weigh_nil, weight]
    omega

theorem weight_run {state : Lexer} {text : List Char} (h : state.run text = some out) :
    weigh out ≤ state.weight + byteLen text := by
  induction text generalizing state out with
  | nil =>
    cases state with
    | idle =>
      cases h
      simp
    | number read =>
      simp only [run, finish] at h
      split_ifs at h
      cases h
      simp [weight, Token.text]
    | word | string | escape | hex | low | lowEscape => cases h
  | cons c rest ih =>
    obtain ⟨⟨first, next⟩, hstep, h⟩ := Option.bind_eq_some_iff.mp h
    obtain ⟨later, hlater, rfl⟩ := Option.map_eq_some_iff.mp h
    have hhead := weight_step hstep
    have htail : weigh later ≤ next.weight + byteLen rest := ih hlater
    simp only [weigh_append, byteLen_cons]
    omega

end Lexer

variable {text : List Char}

/-- **A text is at least as long as its tokens are when they are written.** -/
theorem length_le_of_lex {out : List Token} (h : lex text = some out) : weigh out ≤ byteLen text := by
  have := Lexer.weight_run h
  simpa [Lexer.weight] using this

/-! ## The characters of a number -/

theorem isNumberChar_of_isDigit (h : c.isDigit = true) : isNumberChar c = true := by
  simp [isNumberChar, h]

theorem digits_of_isExponent (h : isExponent text = true) : ∀ c ∈ text, isNumberChar c = true := by
  cases text with
  | nil => exact fun c hc => nomatch hc
  | cons e rest =>
    have hdigits : ∀ digits : List Char, digits.all Char.isDigit = true →
        ∀ c ∈ digits, isNumberChar c = true := fun digits hall c hc =>
      isNumberChar_of_isDigit (List.all_eq_true.mp hall c hc)
    unfold isExponent at h
    simp only [Bool.and_eq_true] at h
    obtain ⟨⟨he, -⟩, hall⟩ := h
    intro c hc
    rcases List.mem_cons.mp hc with rfl | hc
    · rw [Bool.or_eq_true, beq_iff_eq, beq_iff_eq] at he
      rcases he with rfl | rfl <;> decide
    split at hall
    · rcases List.mem_cons.mp hc with rfl | hc
      · decide
      · exact hdigits _ hall c hc
    · rcases List.mem_cons.mp hc with rfl | hc
      · decide
      · exact hdigits _ hall c hc
    · exact hdigits _ hall c hc

theorem numberChars_of_dropWhile (h : ∀ c ∈ text.dropWhile Char.isDigit, isNumberChar c = true) :
    ∀ c ∈ text, isNumberChar c = true := by
  intro c hc
  rw [← text.takeWhile_append_dropWhile (p := Char.isDigit)] at hc
  rcases List.mem_append.mp hc with hdigit | hrest
  · exact isNumberChar_of_isDigit (List.mem_takeWhile_imp hdigit)
  · exact h c hrest

theorem digits_of_isFraction (h : isFraction text = true) : ∀ c ∈ text, isNumberChar c = true := by
  unfold isFraction at h
  split at h
  · rw [Bool.and_eq_true] at h
    intro c hc
    rcases List.mem_cons.mp hc with rfl | hc
    · decide
    · exact numberChars_of_dropWhile (digits_of_isExponent h.2) c hc
  · exact digits_of_isExponent h

theorem digits_of_isMagnitude (h : isMagnitude text = true) :
    ∃ first rest, text = first :: rest ∧ first.isDigit = true ∧ ∀ c ∈ rest, isNumberChar c = true := by
  unfold isMagnitude at h
  split at h
  · exact ⟨'0', _, rfl, by decide, digits_of_isFraction h⟩
  · next first rest _ =>
    rw [Bool.and_eq_true] at h
    exact ⟨first, rest, rfl, h.1, numberChars_of_dropWhile (digits_of_isFraction h.2)⟩
  · cases h

theorem digits_of_isNumber (h : isNumber text = true) :
    ∃ first rest, text = first :: rest ∧ (first = '-' ∨ first.isDigit = true) ∧
      ∀ c ∈ rest, isNumberChar c = true := by
  unfold isNumber at h
  split at h
  · next rest =>
    obtain ⟨first, others, rfl, hfirst, hothers⟩ := digits_of_isMagnitude h
    refine ⟨'-', first :: others, rfl, .inl rfl, ?_⟩
    rintro c (_ | ⟨_, hc⟩)
    · exact isNumberChar_of_isDigit hfirst
    · exact hothers c hc
  · obtain ⟨first, rest, rfl, hfirst, hrest⟩ := digits_of_isMagnitude h
    exact ⟨first, rest, rfl, .inr hfirst, hrest⟩

/-! ## What is written lexes to its tokens -/

def Ends (rest : List Char) : Prop := ∀ c ∈ rest.head?, isNumberChar c = false

namespace Lexer

variable {c : Char}

theorem run_silent {state next : Lexer} (h : state.step c = some ([], next)) (rest : List Char) :
    state.run (c :: rest) = next.run rest := by
  rw [run, h]
  simp

variable {token : Token}

theorem run_emit {state next : Lexer} (h : state.step c = some ([token], next)) (rest : List Char) :
    state.run (c :: rest) = (next.run rest).map (token :: ·) := by
  rw [run, h]
  rfl

theorem hexValue_hexDigit {value : Nat} (h : value < 16) : hexValue (hexDigit value) = some value := by
  revert h
  revert value
  decide

/-- A digit of `\uXXXX` in front of the last one. -/
theorem step_hex {read : List Char} {high : Option Nat} {digits value d : Nat}
    (hc : hexValue c = some d) (hdigits : digits ≠ 3) : (Lexer.hex read high digits value).step c =
      some ([], .hex read high (digits + 1) (value * 16 + d)) := by
  rw [step, hc, Option.bind_some, if_neg hdigits]

/-- **A character of a string is read back**, whatever escape it was written with. -/
theorem run_escape (read : List Char) (c : Char) (rest : List Char) :
    (Lexer.string read).run (Json.escape c ++ rest) = (Lexer.string (read ++ [c])).run rest := by
  -- a backslash and one letter
  have hletter : ∀ letter d, letter ≠ 'u' → unescape letter = some d →
      (Lexer.string read).run (backslash :: letter :: rest) = (Lexer.string (read ++ [d])).run rest := by
    intro letter d hne hd
    have hbackslash : (Lexer.string read).step backslash = some ([], .escape read) := rfl
    have hstep : (Lexer.escape read).step letter = some ([], .string (read ++ [d])) := by
      rw [step, if_neg hne, hd]
      rfl
    rw [run_silent hbackslash, run_silent hstep]
  unfold Json.escape
  split_ifs with h₁ h₂ h₃ h₄ h₅ h₆ h₇ hcontrol
  · exact h₁ ▸ hletter quote quote (by decide) rfl
  · exact h₂ ▸ hletter backslash backslash (by decide) rfl
  · exact h₃ ▸ hletter 'b' _ (by decide) rfl
  · exact h₄ ▸ hletter 't' _ (by decide) rfl
  · exact h₅ ▸ hletter 'n' _ (by decide) rfl
  · exact h₆ ▸ hletter 'f' _ (by decide) rfl
  · exact h₇ ▸ hletter 'r' _ (by decide) rfl
  · -- a control character, with four digits
    have hzero : hexValue '0' = some 0 := by decide
    have hhigh := hexValue_hexDigit (show c.toNat / 16 < 16 by omega)
    have hlow := hexValue_hexDigit (show c.toNat % 16 < 16 by omega)
    have hlast : (Lexer.hex read none 3 (c.toNat / 16)).step (hexDigit (c.toNat % 16)) =
        some ([], .string (read ++ [c])) := by
      rw [step, hlow, Option.bind_some, if_pos rfl,
        show c.toNat / 16 * 16 + c.toNat % 16 = c.toNat by omega, codeUnit, if_neg (by omega),
        if_neg (by omega), Char.ofNat_toNat]
      rfl
    have hbackslash : (Lexer.string read).step backslash = some ([], .escape read) := rfl
    have hu : (Lexer.escape read).step 'u' = some ([], .hex read none 0 0) := rfl
    show (Lexer.string read).run (backslash :: 'u' :: '0' :: '0' :: hexDigit (c.toNat / 16) ::
      hexDigit (c.toNat % 16) :: rest) = _
    rw [run_silent hbackslash, run_silent hu, run_silent (step_hex hzero (by decide)),
      run_silent (step_hex hzero (by decide)), run_silent (step_hex hhigh (by decide))]
    simp only [Nat.zero_mul, Nat.zero_add]
    rw [run_silent hlast]
  · have hstep : (Lexer.string read).step c = some ([], .string (read ++ [c])) := by
      rw [step, if_neg h₁, if_neg h₂, if_neg hcontrol]
    exact run_silent hstep rest

theorem run_string (read value rest : List Char) :
    (Lexer.string read).run (value.flatMap Json.escape ++ quote :: rest) =
      (Lexer.idle.run rest).map (.string (read ++ value) :: ·) := by
  induction value generalizing read with
  | nil =>
    have hstep : (Lexer.string read).step quote = some ([.string read], .idle) := rfl
    rw [List.append_nil]
    exact run_emit hstep rest
  | cons c value ih =>
    rw [List.flatMap_cons, List.append_assoc, run_escape, ih, List.append_assoc]
    rfl

theorem run_number (read : List Char) {more : List Char} (h : ∀ c ∈ more, isNumberChar c = true)
    (rest : List Char) : (Lexer.number read).run (more ++ rest) = (Lexer.number (read ++ more)).run rest := by
  induction more generalizing read with
  | nil => simp
  | cons c more ih =>
    have hstep : (Lexer.number read).step c = some ([], .number (read ++ [c])) := by
      rw [step, if_pos (h c (List.mem_cons_self ..))]
    rw [List.cons_append, run_silent hstep, ih _ fun d hd => h d (List.mem_cons_of_mem _ hd),
      List.append_assoc]
    rfl

theorem run_number_end {text rest : List Char} (h : isNumber text = true) (hrest : Ends rest) :
    (Lexer.number text).run rest = (Lexer.idle.run rest).map (.number text :: ·) := by
  cases rest with
  | nil =>
    show (if isNumber text = true then some [Token.number text] else none) = _
    rw [if_pos h]
    rfl
  | cons c rest =>
    have hc : isNumberChar c = false := hrest c rfl
    rw [run, run, step, step, hc, if_neg (by simp), if_pos h]
    cases start c with
    | none => rfl
    | some next => simp [Function.comp_def]

theorem start_number (h : c = '-' ∨ c.isDigit = true) : Lexer.idle.step c = some ([], .number [c]) := by
  have hne : ∀ d : Char, (d = '-' ∨ d.isDigit = true → False) → c ≠ d := by
    rintro d hd rfl
    exact hd h
  have hspace : isSpace c = false := by
    have h₁ := hne ' ' (by decide)
    have h₂ := hne '\x09' (by decide)
    have h₃ := hne '\x0a' (by decide)
    have h₄ := hne '\x0d' (by decide)
    simp [isSpace, h₁, h₂, h₃, h₄]
  rw [step, start, hspace, if_neg (by simp), if_neg (hne quote (by decide)), if_pos h]

theorem run_text (hnumber : ∀ text, token = .number text → isNumber text = true) {rest : List Char}
    (hrest : ∀ text, token = .number text → Ends rest) :
    Lexer.idle.run (token.text ++ rest) = (Lexer.idle.run rest).map (token :: ·) := by
  cases token with
  | leftBrace | rightBrace | leftBracket | rightBracket | colon | comma => exact run_emit rfl rest
  | null =>
    show Lexer.idle.run ('n' :: 'u' :: 'l' :: 'l' :: rest) = _
    rw [run_silent rfl, run_silent rfl, run_silent rfl]
    exact run_emit rfl rest
  | bool value =>
    cases value with
    | true =>
      show Lexer.idle.run ('t' :: 'r' :: 'u' :: 'e' :: rest) = _
      rw [run_silent rfl, run_silent rfl, run_silent rfl]
      exact run_emit rfl rest
    | false =>
      show Lexer.idle.run ('f' :: 'a' :: 'l' :: 's' :: 'e' :: rest) = _
      rw [run_silent rfl, run_silent rfl, run_silent rfl, run_silent rfl]
      exact run_emit rfl rest
  | number text =>
    obtain ⟨first, more, rfl, hfirst, hmore⟩ := digits_of_isNumber (hnumber text rfl)
    show Lexer.idle.run (first :: (more ++ rest)) = _
    rw [run_silent (start_number hfirst), run_number _ hmore]
    exact run_number_end (hnumber _ rfl) (hrest _ rfl)
  | string value =>
    have hopen : Lexer.idle.step quote = some ([], .string []) := rfl
    show Lexer.idle.run (quote :: value.flatMap Json.escape ++ [quote] ++ rest) = _
    rw [List.cons_append, List.cons_append, List.append_assoc, run_silent hopen]
    exact run_string [] value rest

def Readable (tokens : List Token) : Prop := ∀ text, .number text ∈ tokens → isNumber text = true

theorem Readable.append {a b : List Token} : Readable (a ++ b) ↔ Readable a ∧ Readable b := by
  simp only [Readable, List.mem_append]
  constructor
  · exact fun h => ⟨fun text ht => h text (.inl ht), fun text ht => h text (.inr ht)⟩
  · rintro ⟨ha, hb⟩ text (ht | ht)
    · exact ha text ht
    · exact hb text ht

theorem Readable.cons {rest : List Token} (h : Readable (token :: rest)) :
    Readable rest := fun text ht => h text (List.mem_cons_of_mem _ ht)

theorem run_mark (hmark : ∀ text, token ≠ .number text) (rest : List Char) :
    Lexer.idle.run (token.text ++ rest) = (Lexer.idle.run rest).map (token :: ·) :=
  run_text (fun text h => absurd h (hmark text)) fun text h => absurd h (hmark text)

mutual

theorem run_write (v : Json) (h : Readable (tokens v)) (rest : List Char) (hrest : Ends rest) :
    Lexer.idle.run ((tokens v).flatMap Token.text ++ rest) = (Lexer.idle.run rest).map (tokens v ++ ·) := by
  match v with
  | .null | .bool _ | .number _ | .string _ =>
    rw [tokens, List.flatMap_cons, List.flatMap_nil, List.append_nil]
    exact run_text (fun text htext => h text (by simp [tokens, htext])) fun _ _ => hrest
  | .array items =>
    have hinside := run_items items (Readable.append.mp h.cons).1 (Token.rightBracket.text ++ rest)
      (by rintro c ⟨⟩; decide)
    rw [tokens, List.cons_append, List.flatMap_cons, List.flatMap_append, List.append_assoc,
      List.append_assoc, run_mark (by simp)]
    show (Lexer.idle.run ((itemTokens items).flatMap Token.text ++
      (Token.rightBracket.text ++ rest))).map _ = _
    rw [hinside, run_mark (by simp)]
    cases Lexer.idle.run rest <;> simp
  | .object members =>
    rw [tokens, List.cons_append] at h
    have hinside := run_members members (Readable.append.mp h.cons).1
      (Token.rightBrace.text ++ rest) (by rintro c ⟨⟩; decide)
    rw [tokens, List.cons_append, List.flatMap_cons, List.flatMap_append, List.append_assoc,
      List.append_assoc, run_mark (by simp)]
    show (Lexer.idle.run ((memberTokens members).flatMap Token.text ++
      (Token.rightBrace.text ++ rest))).map _ = _
    rw [hinside, run_mark (by simp)]
    cases Lexer.idle.run rest <;> simp

theorem run_items (items : List Json) (h : Readable (itemTokens items)) (rest : List Char)
    (hrest : Ends rest) : Lexer.idle.run ((itemTokens items).flatMap Token.text ++ rest) =
      (Lexer.idle.run rest).map (itemTokens items ++ ·) := by
  match items with
  | [] => simp [itemTokens]
  | [item] =>
    exact run_write item h rest hrest
  | first :: second :: others =>
    rw [itemTokens_cons_cons] at h ⊢
    obtain ⟨hfirst, hothers⟩ := Readable.append.mp h
    have hhead := run_write first hfirst
      (Token.comma.text ++ ((itemTokens (second :: others)).flatMap Token.text ++ rest))
      (by rintro c ⟨⟩; decide)
    have htail := run_items (second :: others) hothers.cons rest hrest
    rw [List.flatMap_append, List.flatMap_cons, List.append_assoc, List.append_assoc, hhead,
      run_mark (by simp), htail]
    cases Lexer.idle.run rest <;> simp

theorem run_members (members : List (List Char × Json)) (h : Readable (memberTokens members))
    (rest : List Char) (hrest : Ends rest) :
    Lexer.idle.run ((memberTokens members).flatMap Token.text ++ rest) =
      (Lexer.idle.run rest).map (memberTokens members ++ ·) := by
  match members with
  | [] => simp [memberTokens]
  | [(name, value)] =>
    rw [memberTokens] at h ⊢
    have hvalue := run_write value h.cons.cons rest hrest
    rw [List.flatMap_cons, List.flatMap_cons, List.append_assoc, List.append_assoc,
      run_mark (by simp), run_mark (by simp), hvalue]
    cases Lexer.idle.run rest <;> simp
  | (name, value) :: second :: others =>
    rw [memberTokens_cons_cons] at h ⊢
    obtain ⟨hvalue, hothers⟩ := Readable.append.mp h
    have hhead := run_write value hvalue.cons.cons
      (Token.comma.text ++ ((memberTokens (second :: others)).flatMap Token.text ++ rest))
      (by rintro c ⟨⟩; decide)
    have htail := run_members (second :: others) hothers.cons rest hrest
    rw [List.flatMap_append, List.flatMap_cons, List.flatMap_cons, List.flatMap_cons]
    simp only [List.append_assoc]
    rw [run_mark (by simp), run_mark (by simp), hhead, run_mark (by simp), htail]
    cases Lexer.idle.run rest <;> simp

end

end Lexer

/-- **The text of a document lexes to its tokens.** -/
theorem lex_write {v : Json} (h : Lexer.Readable (tokens v)) : lex (write v) = some (tokens v) := by
  have hrun := Lexer.run_write v h [] (fun c hc => nomatch hc)
  rw [List.append_nil] at hrun
  rw [lex, write, hrun]
  show some (tokens v ++ []) = _
  rw [List.append_nil]

end Bondry.Json
