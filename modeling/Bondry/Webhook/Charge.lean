/-
  THE CHARGE BEFORE PARSING (`bondry-webhook-ingress`, `payload.rs`).

  A body is charged for the values in it before it is parsed.  The count comes from a flat scanner without a
  grammar: it skips separators, jumps over strings, and takes everything up to the next separator as one
  bare token.  `Scan input n` says what it does to some bytes.
  A text of the grammar is scanned as its values and names, whatever follows it, as long as that begins with a
  separator (`Scan.of_derives`): the scanner would read `1[` as one token, and the grammar never puts two
  values side by side.
-/
import Bondry.Lib.JsonGrammar
import Bondry.Webhook.Ingress

namespace Bondry.Webhook

open Encoding Json Json.Grammar

/-! ## What the scanner does -/

/-- A byte that begins a bare token. -/
def BeginsBare (b : UInt8) : Prop :=
  isSeparator b = false ∧ ¬ (b = 0x7B ∨ b = 0x5B) ∧ b ≠ 0x22

/-- The scanner counts `n` tokens in the bytes. -/
inductive Scan : Bytes → Nat → Prop where
  | nil : Scan [] 0
  | separator {b : UInt8} {rest : Bytes} {n : Nat} (sep : isSeparator b = true) (more : Scan rest n) :
      Scan (b :: rest) n
  | opening {b : UInt8} {rest : Bytes} {n : Nat} (bracket : b = 0x7B ∨ b = 0x5B) (more : Scan rest n) :
      Scan (b :: rest) (n + 1)
  | string {rest behind : Bytes} {n : Nat} (closed : stringEnd rest = some behind)
      (more : Scan behind n) : Scan (0x22 :: rest) (n + 1)
  | bare {b : UInt8} {rest : Bytes} {n : Nat} (begins : BeginsBare b)
      (more : Scan (rest.dropWhile fun c => !isSeparator c) n) : Scan (b :: rest) (n + 1)

/-- What a string can go on with: no quote, unless a backslash is in front of it. -/
inductive Open : Bytes → Prop where
  | nil : Open []
  | plain {b : UInt8} {rest : Bytes} (quote : b ≠ 0x22) (backslash : b ≠ 0x5C) (more : Open rest) :
      Open (b :: rest)
  | escaped {e : UInt8} {rest : Bytes} (more : Open rest) : Open (0x5C :: e :: rest)

/-- The scanner gets to a quote behind which no string ends. -/
inductive Unterminated : Bytes → Prop where
  | separator {b : UInt8} {rest : Bytes} (sep : isSeparator b = true) (more : Unterminated rest) :
      Unterminated (b :: rest)
  | opening {b : UInt8} {rest : Bytes} (bracket : b = 0x7B ∨ b = 0x5B) (more : Unterminated rest) :
      Unterminated (b :: rest)
  | string {rest behind : Bytes} (closed : stringEnd rest = some behind) (more : Unterminated behind) :
      Unterminated (0x22 :: rest)
  | bare {b : UInt8} {rest : Bytes} (begins : BeginsBare b)
      (more : Unterminated (rest.dropWhile fun c => !isSeparator c)) : Unterminated (b :: rest)
  | here {rest : Bytes} (unclosed : ∀ body behind, Open body → rest ≠ body ++ 0x22 :: behind) :
      Unterminated (0x22 :: rest)

theorem stringEnd_quote (rest : Bytes) : stringEnd (0x22 :: rest) = some rest := by
  cases rest <;> rfl

variable {b : UInt8}

theorem stringEnd_plain (hquote : b ≠ 0x22) (hslash : b ≠ 0x5C) (rest : Bytes) :
    stringEnd (b :: rest) = stringEnd rest := by
  cases rest with
  | nil => exact if_neg hquote
  | cons c more => rw [stringEnd, if_neg hquote, if_neg hslash]

theorem stringEnd_escape (e : UInt8) (rest : Bytes) : stringEnd (0x5C :: e :: rest) = stringEnd rest := rfl

theorem stringEnd_slash (rest : Bytes) : stringEnd (0x5C :: rest) = stringEnd (rest.drop 1) := by
  cases rest <;> rfl

variable {input behind : Bytes}

theorem stringEnd_iff :
    stringEnd input = some behind ↔ ∃ body, Open body ∧ input = body ++ 0x22 :: behind := by
  constructor
  · intro h
    induction input using stringEnd.induct with
    | case1 => cases h
    | case2 =>
      cases h
      exact ⟨[], .nil, rfl⟩
    | case3 b hquote =>
      rw [stringEnd, if_neg hquote] at h
      cases h
    | case4 c rest =>
      cases h
      exact ⟨[], .nil, rfl⟩
    | case5 c rest hquote ih =>
      obtain ⟨body, hopen, rfl⟩ := ih h
      exact ⟨0x5C :: c :: body, .escaped hopen, rfl⟩
    | case6 b c rest hquote hslash ih =>
      rw [stringEnd_plain hquote hslash] at h
      obtain ⟨body, hopen, hrest⟩ := ih h
      exact ⟨b :: body, .plain hquote hslash hopen, by rw [hrest]; rfl⟩
  · rintro ⟨body, hopen, rfl⟩
    induction hopen with
    | nil => exact stringEnd_quote behind
    | plain hquote hslash _ ih => rw [List.cons_append, stringEnd_plain hquote hslash, ih]
    | escaped _ ih => exact ih

theorem stringEnd_eq_none :
    stringEnd input = none ↔ ∀ body behind, Open body → input ≠ body ++ 0x22 :: behind := by
  rw [Option.eq_none_iff_forall_not_mem]
  constructor
  · rintro h body behind hopen rfl
    exact h behind (stringEnd_iff.mpr ⟨body, hopen, rfl⟩)
  · intro h behind hbehind
    obtain ⟨body, hopen, hinput⟩ := stringEnd_iff.mp hbehind
    exact h body behind hopen hinput

theorem suffix_stringEnd (h : stringEnd input = some behind) : behind <:+ input := by
  obtain ⟨body, -, rfl⟩ := stringEnd_iff.mp h
  exact (List.suffix_cons _ _).trans (List.suffix_append _ _)

theorem length_stringEnd (h : stringEnd input = some behind) : behind.length < input.length := by
  obtain ⟨body, -, rfl⟩ := stringEnd_iff.mp h
  rw [List.length_append, List.length_cons]
  omega

theorem length_dropBare (rest : Bytes) : (rest.dropWhile fun c => !isSeparator c).length ≤ rest.length :=
  (List.dropWhile_sublist _).length_le

theorem byte_cases (b : UInt8) : isSeparator b = true ∨ (isSeparator b = false ∧ (b = 0x7B ∨ b = 0x5B)) ∨
      (isSeparator b = false ∧ b = 0x22) ∨ BeginsBare b := by
  by_cases hsep : isSeparator b = true
  · exact .inl hsep
  · rw [Bool.not_eq_true] at hsep
    by_cases hbracket : b = 0x7B ∨ b = 0x5B
    · exact .inr (.inl ⟨hsep, hbracket⟩)
    · by_cases hquote : b = 0x22
      · exact .inr (.inr (.inl ⟨hsep, hquote⟩))
      · exact .inr (.inr (.inr ⟨hsep, hbracket, hquote⟩))

/-- **The scanner ends**: behind the last byte, or in a string without an end. -/
theorem scan_or_unterminated (input : Bytes) : (∃ n, Scan input n) ∨ Unterminated input := by
  induction hlength : input.length using Nat.strongRecOn generalizing input with
  | ind length ih =>
    subst hlength
    rcases input with _ | ⟨b, rest⟩
    · exact .inl ⟨0, .nil⟩
    have hrest : rest.length < (b :: rest).length := Nat.lt_succ_self _
    rcases byte_cases b with hsep | ⟨-, hbracket⟩ | ⟨-, rfl⟩ | hbare
    · rcases ih rest.length hrest rest rfl with ⟨n, h⟩ | h
      · exact .inl ⟨n, .separator hsep h⟩
      · exact .inr (.separator hsep h)
    · rcases ih rest.length hrest rest rfl with ⟨n, h⟩ | h
      · exact .inl ⟨n + 1, .opening hbracket h⟩
      · exact .inr (.opening hbracket h)
    · rcases hend : stringEnd rest with _ | behind
      · exact .inr (.here (stringEnd_eq_none.mp hend))
      · rcases ih behind.length ((length_stringEnd hend).trans hrest) behind rfl with ⟨n, h⟩ | h
        · exact .inl ⟨n + 1, .string hend h⟩
        · exact .inr (.string hend h)
    · have hshort := Nat.lt_of_le_of_lt (length_dropBare rest) hrest
      rcases ih _ hshort _ rfl with ⟨n, h⟩ | h
      · exact .inl ⟨n + 1, .bare hbare h⟩
      · exact .inr (.bare hbare h)

/-! ## The count -/

section

variable {fuel count : Nat} {b : UInt8} {rest : Bytes}

theorem countFrom_separator (h : isSeparator b = true) :
    countFrom (fuel + 1) count (b :: rest) = countFrom fuel count rest := by
  rw [countFrom, if_pos h]

theorem countFrom_opening (h : b = 0x7B ∨ b = 0x5B) : countFrom (fuel + 1) count (b :: rest) =
      (checkedAdd count 1).bind fun count => countFrom fuel count rest := by
  have hsep : ¬ isSeparator b = true := by
    rcases h with rfl | rfl <;> decide
  rw [countFrom, if_neg hsep]
  simp only [if_pos h]

theorem countFrom_quote : countFrom (fuel + 1) count (0x22 :: rest) =
      (checkedAdd count 1).bind fun count => (stringEnd rest).bind (countFrom fuel count) := by
  have hbracket : ¬ ((0x22 : UInt8) = 0x7B ∨ (0x22 : UInt8) = 0x5B) := by decide
  rw [countFrom, if_neg (by decide)]
  simp only [if_neg hbracket, if_true]

theorem countFrom_bare (h : BeginsBare b) :
    countFrom (fuel + 1) count (b :: rest) = (checkedAdd count 1).bind fun count =>
      countFrom fuel count (rest.dropWhile fun c => !isSeparator c) := by
  rw [countFrom, if_neg (by simp [h.1])]
  simp only [if_neg h.2.1, if_neg h.2.2]

theorem le_of_checkedAdd {a n sum : Nat} (h : checkedAdd a n = some sum) : sum ≤ u64Max := by
  unfold checkedAdd at h
  split_ifs at h with hle
  cases h
  exact hle

theorem checkedAdd_one_bind {next : Nat → Option Nat} {n : Nat}
    (h : ∀ count ≤ u64Max, next count = checkedAdd count n) :
    (checkedAdd count 1).bind next = checkedAdd count (n + 1) := by
  unfold checkedAdd
  by_cases hone : count + 1 ≤ u64Max
  · rw [if_pos hone, Option.bind_some, h _ hone, checkedAdd, Nat.add_right_comm, Nat.add_assoc]
  · rw [if_neg hone, Option.bind_none, if_neg (by omega)]

end

variable {rest : Bytes} {fuel : Nat}

theorem fuel_succ (h : (b :: rest).length ≤ fuel) : ∃ left, fuel = left + 1 ∧ rest.length ≤ left :=
  ⟨fuel - 1, by rw [List.length_cons] at h; omega, by rw [List.length_cons] at h; omega⟩

variable {n count : Nat}

theorem countFrom_scan (h : Scan input n) (hfuel : input.length ≤ fuel) (hcount : count ≤ u64Max) :
    countFrom fuel count input = checkedAdd count n := by
  induction h generalizing fuel count with
  | nil =>
    rw [checkedAdd, Nat.add_zero, if_pos hcount]
    cases fuel <;> rfl
  | separator hsep _ ih =>
    obtain ⟨left, rfl, hleft⟩ := fuel_succ hfuel
    rw [countFrom_separator hsep]
    exact ih hleft hcount
  | opening hbracket _ ih =>
    obtain ⟨left, rfl, hleft⟩ := fuel_succ hfuel
    rw [countFrom_opening hbracket]
    exact checkedAdd_one_bind fun count hone => ih hleft hone
  | string hend _ ih =>
    obtain ⟨left, rfl, hleft⟩ := fuel_succ hfuel
    rw [countFrom_quote, hend]
    exact checkedAdd_one_bind fun count hone => ih ((length_stringEnd hend).le.trans hleft) hone
  | bare hbare _ ih =>
    obtain ⟨left, rfl, hleft⟩ := fuel_succ hfuel
    rw [countFrom_bare hbare]
    exact checkedAdd_one_bind fun count hone => ih ((length_dropBare _).trans hleft) hone

theorem countFrom_unterminated (h : Unterminated input) (hfuel : input.length ≤ fuel) (count : Nat) :
    countFrom fuel count input = none := by
  induction h generalizing fuel count with
  | separator hsep _ ih =>
    obtain ⟨left, rfl, hleft⟩ := fuel_succ hfuel
    rw [countFrom_separator hsep]
    exact ih hleft count
  | opening hbracket _ ih =>
    obtain ⟨left, rfl, hleft⟩ := fuel_succ hfuel
    rw [countFrom_opening hbracket]
    exact Option.bind_eq_none_iff.mpr fun count _ => ih hleft count
  | string hend _ ih =>
    obtain ⟨left, rfl, hleft⟩ := fuel_succ hfuel
    rw [countFrom_quote, hend]
    exact Option.bind_eq_none_iff.mpr fun count _ =>
      ih ((length_stringEnd hend).le.trans hleft) count
  | bare hbare _ ih =>
    obtain ⟨left, rfl, hleft⟩ := fuel_succ hfuel
    rw [countFrom_bare hbare]
    exact Option.bind_eq_none_iff.mpr fun count _ => ih ((length_dropBare _).trans hleft) count
  | here hend =>
    obtain ⟨left, rfl, hleft⟩ := fuel_succ hfuel
    rw [countFrom_quote, stringEnd_eq_none.mpr hend]
    exact Option.bind_eq_none_iff.mpr fun _ _ => rfl

theorem countJsonValues_scan (h : Scan input n) : countJsonValues input = checkedAdd 0 n :=
  countFrom_scan h (Nat.le_refl _) (Nat.zero_le _)

theorem Scan.le_length (h : Scan input n) : n ≤ input.length := by
  induction h with
  | nil => exact Nat.le_refl _
  | separator _ _ ih => exact ih.trans (Nat.le_succ _)
  | opening _ _ ih => exact Nat.succ_le_succ ih
  | string hend _ ih => exact Nat.succ_le_succ (ih.trans (length_stringEnd hend).le)
  | bare _ _ ih => exact Nat.succ_le_succ (ih.trans (length_dropBare _))

/-! ## Texts of the grammar -/

/-- What follows a value: nothing, or a separator. -/
def Delimited (rest : Bytes) : Prop := ∀ b ∈ rest.head?, isSeparator b = true

theorem isSeparator_ws (h : b ∈ [0x20, 0x09, 0x0A, 0x0D]) : isSeparator b = true := by
  simp only [List.mem_cons, List.not_mem_nil, or_false] at h
  rcases h with rfl | rfl | rfl | rfl <;> rfl

theorem Scan.ws {ws : Bytes} (h : Ws ws) (hrest : Scan rest n) : Scan (ws ++ rest) n := by
  induction ws with
  | nil => exact hrest
  | cons b more ih =>
    have hmore : Ws more := fun c hc => h c (List.mem_cons_of_mem _ hc)
    exact .separator (isSeparator_ws (h b (List.mem_cons_self ..))) (ih hmore)

theorem Delimited.ws {ws : Bytes} (h : Ws ws) (hrest : Delimited rest) : Delimited (ws ++ rest) := by
  rcases ws with _ | ⟨b, more⟩
  · exact hrest
  · rintro c ⟨⟩
    exact isSeparator_ws (h b (List.mem_cons_self ..))

theorem Scan.token {more : Bytes} (hb : BeginsBare b) (hmore : ∀ c ∈ more, isSeparator c = false)
    (hdelimited : Delimited rest) (hrest : Scan rest n) : Scan (b :: more ++ rest) (n + 1) := by
  have hall : ∀ c ∈ more, (!isSeparator c) = true := fun c hc => by simp [hmore c hc]
  have hstop : rest.dropWhile (fun c => !isSeparator c) = rest := by
    rcases rest with _ | ⟨c, others⟩
    · rfl
    · have hc : isSeparator c = true := hdelimited c rfl
      exact List.dropWhile_cons_of_neg (by simp [hc])
  refine .bare hb ?_
  show Scan ((more ++ rest).dropWhile fun c => !isSeparator c) n
  rwa [List.dropWhile_append_of_pos hall, hstop]

theorem open_of_chars {chars : Bytes} (h : Chars chars) : Open chars := by
  have hhex : ∀ b : UInt8, isHexDigit b = true → b ≠ 0x22 ∧ b ≠ 0x5C := by decide +kernel
  have hplain : ∀ {b : UInt8} {rest : Bytes}, isHexDigit b = true → Open rest → Open (b :: rest) :=
    fun hb => .plain (hhex _ hb).1 (hhex _ hb).2
  induction h with
  | nil => exact .nil
  | plain _ hquote hslash _ ih => exact .plain hquote hslash ih
  | escaped _ _ ih => exact .escaped ih
  | unicode hdigits _ ih =>
    obtain ⟨ha, hb, hc, hd⟩ := hdigits
    exact .escaped (hplain ha (hplain hb (hplain hc (hplain hd ih))))

theorem Scan.chars {chars : Bytes} (h : Chars chars) (hrest : Scan rest n) :
    Scan (0x22 :: chars ++ 0x22 :: rest) (n + 1) :=
  .string (stringEnd_iff.mpr ⟨chars, open_of_chars h, rfl⟩) hrest

theorem beginsBare_number {c : Char} (h : isNumberChar c = true) :
    BeginsBare (UInt8.ofNat c.toNat) ∧ c.toNat < 128 := by
  have hbytes : ∀ b : UInt8, (48 ≤ b.toNat ∧ b.toNat ≤ 57) ∨ b.toNat ∈ [45, 43, 46, 101, 69] →
      isSeparator b = false ∧ ¬ (b = 0x7B ∨ b = 0x5B) ∧ b ≠ 0x22 := by decide +kernel
  have hrange : (48 ≤ c.toNat ∧ c.toNat ≤ 57) ∨ c.toNat ∈ [45, 43, 46, 101, 69] := by
    simp only [isNumberChar, Bool.or_eq_true, beq_iff_eq] at h
    rcases h with ((((hdigit | rfl) | rfl) | rfl) | rfl) | rfl
    · simp only [Char.isDigit, Bool.and_eq_true, decide_eq_true_eq] at hdigit
      exact .inl ⟨hdigit.1, hdigit.2⟩
    all_goals exact .inr (by decide)
  have hsmall : c.toNat < 128 := by
    rcases hrange with h | h
    · omega
    · simp only [List.mem_cons, List.not_mem_nil, or_false] at h
      omega
  refine ⟨hbytes _ ?_, hsmall⟩
  rw [UInt8.toNat_ofNat_of_lt' (show c.toNat < 256 by omega)]
  exact hrange

theorem Scan.number {text : List Char} (h : isNumber text = true) (hdelimited : Delimited rest)
    (hrest : Scan rest n) : Scan (encodeUtf8 text ++ rest) (n + 1) := by
  obtain ⟨first, more, rfl, hfirst, hmore⟩ := digits_of_isNumber h
  have hchars : ∀ c ∈ first :: more, isNumberChar c = true := by
    intro c hc
    rcases List.mem_cons.mp hc with rfl | hc
    · rcases hfirst with rfl | hdigit
      · rfl
      · exact isNumberChar_of_isDigit hdigit
    · exact hmore c hc
  rw [encodeUtf8_ascii fun c hc => (beginsBare_number (hchars c hc)).2, List.map_cons]
  refine .token (beginsBare_number (hchars first (List.mem_cons_self ..))).1 (fun b hb => ?_) hdelimited
    hrest
  obtain ⟨c, hc, rfl⟩ := List.mem_map.mp hb
  exact (beginsBare_number (hmore c hc)).1.1

theorem Scan.member {before name after : Bytes} (hfront : Ws before) (hname : Chars name)
    (hback : Ws after) (hrest : Scan rest n) :
    Scan (before ++ 0x22 :: name ++ 0x22 :: after ++ 0x3A :: rest) (n + 1) := by
  have hcolon : Scan (0x3A :: rest) n := .separator rfl hrest
  have hmember : Scan (before ++ (0x22 :: name ++ 0x22 :: (after ++ 0x3A :: rest))) (n + 1) :=
    .ws hfront (.chars hname (.ws hback hcolon))
  simpa using hmember

/-- **A text of the grammar is scanned as its values and names.** -/
theorem Scan.of_derives {kind : Kind} {values names : Nat} {bytes : Bytes}
    (h : Derives kind values names bytes) {m : Nat} (hdelimited : Delimited rest)
    (hrest : Scan rest n) (hm : values + names + n = m) : Scan (bytes ++ rest) m := by
  -- what stands behind an item, a member or the last of them
  have hclosed : ∀ {b : UInt8} {rest : Bytes}, isSeparator b = true → Delimited (b :: rest) :=
    fun hsep c hc => by cases hc; exact hsep
  have hwords : BeginsBare 0x6E ∧ BeginsBare 0x74 ∧ BeginsBare 0x66 := by
    unfold BeginsBare
    decide +kernel
  induction h generalizing rest n m with
  | null =>
    subst hm
    rw [Nat.add_comm]
    exact .token hwords.1 (by decide +kernel) hdelimited hrest
  | isTrue =>
    subst hm
    rw [Nat.add_comm]
    exact .token hwords.2.1 (by decide +kernel) hdelimited hrest
  | isFalse =>
    subst hm
    rw [Nat.add_comm]
    exact .token hwords.2.2 (by decide +kernel) hdelimited hrest
  | number hnumber =>
    subst hm
    rw [Nat.add_comm]
    exact .number hnumber hdelimited hrest
  | string hchars =>
    subst hm
    rw [Nat.add_comm, List.append_assoc]
    exact .chars hchars hrest
  | emptyArray hws =>
    subst hm
    rw [Nat.add_comm, List.append_assoc]
    exact .opening (.inr rfl) (.ws hws (.separator rfl hrest))
  | array _ ih =>
    rw [List.append_assoc, ← hm, Nat.add_right_comm _ 1, Nat.add_right_comm _ 1]
    exact .opening (.inr rfl) (ih (hclosed rfl) (.separator rfl hrest) rfl)
  | emptyObject hws =>
    subst hm
    rw [Nat.add_comm, List.append_assoc]
    exact .opening (.inl rfl) (.ws hws (.separator rfl hrest))
  | object _ ih =>
    rw [List.append_assoc, ← hm, Nat.add_right_comm _ 1, Nat.add_right_comm _ 1]
    exact .opening (.inl rfl) (ih (hclosed rfl) (.separator rfl hrest) rfl)
  | element hfront _ hback ih =>
    rw [List.append_assoc, List.append_assoc]
    exact .ws hfront (ih (hdelimited.ws hback) (.ws hback hrest) hm)
  | item _ ih => exact ih hdelimited hrest hm
  | items _ _ ihfirst ihrest =>
    have hothers := ihrest hdelimited hrest rfl
    rw [List.append_assoc]
    exact ihfirst (hclosed rfl) (.separator rfl hothers) (by omega)
  | @member values names before name after bytes hfront hname hback _ ih =>
    have hvalue := ih hdelimited hrest rfl
    have hmember := Scan.member hfront hname hback hvalue
    rw [← hm, show values + (names + 1) + n = values + names + n + 1 by omega]
    simpa using hmember
  | @members values names values' names' before name after bytes bytes' hfront hname hback _ _ ihvalue
      ihrest =>
    have hothers := ihrest hdelimited hrest rfl
    have hvalue := ihvalue (hclosed rfl) (.separator (b := 0x2C) rfl hothers) rfl
    have hmember := Scan.member hfront hname hback hvalue
    rw [← hm, show values + values' + (names + 1 + names') + n =
      values + names + (values' + names' + n) + 1 by omega]
    simpa using hmember

theorem scan_text {values names : Nat} {bytes : Bytes} (h : IsText values names bytes) :
    Scan bytes (values + names) := by
  have hscan : Scan (bytes ++ []) (values + names) :=
    .of_derives h (fun b hb => nomatch hb) .nil (Nat.add_zero _)
  rwa [List.append_nil] at hscan

/-- A backslash and a quote inside a string, and three values. -/
example : countJsonValues [0x5B, 0x31, 0x2C, 0x22, 0x5C, 0x22, 0x5D, 0x22, 0x5D] = some 3 := by decide

/-! ## The loops over indices -/

/-- A loop over the indices of the input: it has read outside of it, has rounds left, or is done. -/
inductive Scanning (α : Type) where
  | outOfBounds
  | unfinished
  | done (result : α)
  deriving DecidableEq, Repr

/-- `string_end`, as the source has it. -/
def stringEndAt : Nat → Bytes → Nat → Scanning (Option Nat)
  | 0, _, _ => .unfinished
  | fuel + 1, input, index =>
    if index < input.length then
      match input[index]? with
      | none => .outOfBounds
      | some b =>
        if b = 0x22 then .done (checkedAdd index 1)
        else if b = 0x5C then
          match checkedAdd index 2 with
          | none => .done none
          | some next => stringEndAt fuel input next
        else stringEndAt fuel input (index + 1)
    else .done none

/-- The inner loop of `count_json_values`: the end of a bare token. -/
def bareEndAt : Nat → Bytes → Nat → Scanning Nat
  | 0, _, _ => .unfinished
  | fuel + 1, input, index =>
    if index < input.length then
      match input[index]? with
      | none => .outOfBounds
      | some b => if isSeparator b then .done index else bareEndAt fuel input (index + 1)
    else .done index

/-- The loop of `count_json_values`, as the source has it. -/
def countAt : Nat → Bytes → Nat → Nat → Scanning (Option Nat)
  | 0, _, _, _ => .unfinished
  | fuel + 1, input, count, index =>
    if index < input.length then
      match input[index]? with
      | none => .outOfBounds
      | some b =>
        if isSeparator b then countAt fuel input count (index + 1)
        else match checkedAdd count 1 with
          | none => .done none
          | some count =>
            if b = 0x7B ∨ b = 0x5B then countAt fuel input count (index + 1)
            else if b = 0x22 then
              match stringEndAt (input.length + 1) input (index + 1) with
              | .done (some next) => countAt fuel input count next
              | .done none => .done none
              | .outOfBounds => .outOfBounds
              | .unfinished => .unfinished
            else match bareEndAt (input.length + 1) input (index + 1) with
              | .done next => countAt fuel input count next
              | .outOfBounds => .outOfBounds
              | .unfinished => .unfinished
    else .done (some count)

/-- `count_json_values`, with more rounds than bytes for each of its loops. -/
def countIndexed (input : Bytes) : Scanning (Option Nat) := countAt (input.length + 1) input 0 0

/-- Where what is left of the input begins. -/
def offset (input behind : Bytes) : Nat := input.length - behind.length

theorem drop_offset (h : behind <:+ input) :
    input.drop (offset input behind) = behind := (List.suffix_iff_eq_drop.mp h).symm

variable {index : Nat}

theorem drop_at (h : index < input.length) :
    ∃ b, input[index]? = some b ∧ input.drop index = b :: input.drop (index + 1) :=
  ⟨input.get ⟨index, h⟩, List.getElem?_eq_getElem h, List.drop_eq_getElem_cons h⟩

theorem stringEndAt_eq (hlength : input.length + 2 ≤ u64Max)
    (hfuel : input.length + 2 ≤ fuel + index) (hindex : index ≤ input.length + 1) :
    stringEndAt fuel input index = .done ((stringEnd (input.drop index)).map (offset input)) := by
  -- an escape can jump one byte behind the end, so the index may be there
  induction fuel generalizing index with
  | zero => omega
  | succ fuel ih =>
    rw [stringEndAt]
    by_cases hin : index < input.length
    · obtain ⟨b, hb, hdrop⟩ := drop_at hin
      rw [if_pos hin, hb, hdrop]
      dsimp only
      by_cases hquote : b = 0x22
      · subst hquote
        rw [if_pos rfl, stringEnd_quote, Option.map_some, checkedAdd, if_pos (by omega), offset,
          List.length_drop]
        congr 2
        omega
      · by_cases hslash : b = 0x5C
        · subst hslash
          rw [if_neg hquote, if_pos rfl, checkedAdd, if_pos (by omega), stringEnd_slash,
            List.drop_drop]
          exact ih (by omega) (by omega)
        · rw [if_neg hquote, if_neg hslash, stringEnd_plain hquote hslash]
          exact ih (by omega) (by omega)
    · rw [if_neg hin, List.drop_eq_nil_of_le (Nat.le_of_not_lt hin)]
      rfl

theorem bareEndAt_eq (hfuel : input.length + 1 ≤ fuel + index) (hindex : index ≤ input.length) :
    bareEndAt fuel input index =
      .done (offset input ((input.drop index).dropWhile fun c => !isSeparator c)) := by
  induction fuel generalizing index with
  | zero => omega
  | succ fuel ih =>
    rw [bareEndAt]
    by_cases hin : index < input.length
    · obtain ⟨b, hb, hdrop⟩ := drop_at hin
      rw [if_pos hin, hb]
      dsimp only
      by_cases hsep : isSeparator b = true
      · have hstop : (input.drop index).dropWhile (fun c => !isSeparator c) = input.drop index := by
          rw [hdrop]
          exact List.dropWhile_cons_of_neg (by simp [hsep])
        rw [if_pos hsep, hstop, offset, List.length_drop]
        congr 1
        omega
      · rw [if_neg hsep, hdrop, List.dropWhile_cons_of_pos (by simp [hsep])]
        exact ih (by omega) (by omega)
    · rw [if_neg hin, List.drop_eq_nil_of_le (Nat.le_of_not_lt hin)]
      show Scanning.done index = .done (input.length - 0)
      congr 1
      omega

/-- The count with a round for every byte. -/
def countRest (count : Nat) (rest : Bytes) : Option Nat := countFrom rest.length count rest

theorem countFrom_eq_countRest (hcount : count ≤ u64Max) (hfuel : rest.length ≤ fuel) :
    countFrom fuel count rest = countRest count rest := by
  rcases scan_or_unterminated rest with ⟨n, h⟩ | h
  · rw [countRest, countFrom_scan h hfuel hcount, countFrom_scan h (Nat.le_refl _) hcount]
  · rw [countRest, countFrom_unterminated h hfuel, countFrom_unterminated h (Nat.le_refl _)]

theorem offset_next (h : behind <:+ input.drop (index + 1)) (hin : index < input.length) :
    input.drop (offset input behind) = behind ∧ index + 1 ≤ offset input behind ∧
      offset input behind ≤ input.length := by
  have hshort := h.length_le
  rw [List.length_drop] at hshort
  refine ⟨drop_offset (h.trans (List.drop_suffix _ _)), ?_, ?_⟩ <;> unfold offset <;> omega

/-- **The loop over indices** reads inside the input only, ends, and computes the count. -/
theorem countAt_eq (hlength : input.length + 2 ≤ u64Max) (hcount : count ≤ u64Max)
    (hfuel : input.length + 1 ≤ fuel + index) (hindex : index ≤ input.length) :
    countAt fuel input count index = .done (countRest count (input.drop index)) := by
  induction fuel generalizing count index with
  | zero => omega
  | succ fuel ih =>
    rw [countAt]
    by_cases hin : index < input.length
    · obtain ⟨b, hb, hdrop⟩ := drop_at hin
      rw [if_pos hin, hb, hdrop, countRest, List.length_cons]
      dsimp only
      rcases byte_cases b with hsep | ⟨hsep, hbracket⟩ | ⟨hsep, rfl⟩ | hbare
      · rw [if_pos hsep, countFrom_separator hsep]
        exact ih hcount (by omega) (by omega)
      · rw [if_neg (by simp [hsep]), countFrom_opening hbracket]
        rcases hone : checkedAdd count 1 with _ | next
        · rfl
        · dsimp only
          rw [if_pos hbracket]
          exact ih (le_of_checkedAdd hone) (by omega) (by omega)
      · have hbracket : ¬ ((0x22 : UInt8) = 0x7B ∨ (0x22 : UInt8) = 0x5B) := by decide
        rw [if_neg (by simp [hsep]), countFrom_quote]
        rcases hone : checkedAdd count 1 with _ | next
        · rfl
        dsimp only
        rw [if_neg hbracket, if_pos rfl, stringEndAt_eq hlength (by omega) (by omega)]
        rcases hend : stringEnd (input.drop (index + 1)) with _ | behind
        · rfl
        · obtain ⟨hdropped, hlow, hhigh⟩ := offset_next (suffix_stringEnd hend) hin
          have hnext := ih (le_of_checkedAdd hone) (by omega : input.length + 1 ≤
            fuel + offset input behind) hhigh
          rw [hdropped] at hnext
          simp only [Option.map_some, Option.bind_some]
          rw [hnext, countFrom_eq_countRest (le_of_checkedAdd hone) (length_stringEnd hend).le]
      · rw [if_neg (by simp [hbare.1]), countFrom_bare hbare]
        rcases hone : checkedAdd count 1 with _ | next
        · rfl
        · dsimp only
          rw [if_neg hbare.2.1, if_neg hbare.2.2, bareEndAt_eq (by omega) (by omega)]
          obtain ⟨hdropped, hlow, hhigh⟩ := offset_next (List.dropWhile_suffix _) hin
          have hnext := ih (le_of_checkedAdd hone) (by omega) hhigh
          rw [hdropped] at hnext
          simp only [Option.bind_some]
          rw [hnext, countFrom_eq_countRest (le_of_checkedAdd hone) (length_dropBare _)]
    · rw [if_neg hin, List.drop_eq_nil_of_le (Nat.le_of_not_lt hin)]
      rfl

theorem countIndexed_eq (hlength : input.length + 2 ≤ u64Max) :
    countIndexed input = .done (countJsonValues input) :=
  countAt_eq hlength (Nat.zero_le _) (Nat.le_refl _) (Nat.zero_le _)

/-! ## The budget -/

theorem checkedAdd_eq {a b sum : Nat} (h : checkedAdd a b = some sum) : sum = a + b := by
  unfold checkedAdd at h
  split_ifs at h
  cases h
  rfl

theorem checkedMul_eq {a b product : Nat} (h : checkedMul a b = some product) : product = a * b := by
  unfold checkedMul at h
  split_ifs at h
  cases h
  rfl

theorem retainedCharge_eq {mapping : PayloadMapping} {request : VerificationRequest} {charge : Nat}
    (h : retainedCharge mapping request = some charge) :
    ∃ count metadata, countJsonValues request.body = some count ∧
      metadataCharge mapping request = some metadata ∧
      charge = 2 * request.body.length + 128 * count + metadata := by
  obtain ⟨bodyBytes, hbody, h⟩ := Option.bind_eq_some_iff.mp h
  obtain ⟨count, hcount, h⟩ := Option.bind_eq_some_iff.mp h
  obtain ⟨jsonCharge, hjson, h⟩ := Option.bind_eq_some_iff.mp h
  obtain ⟨metadata, hmetadata, h⟩ := Option.bind_eq_some_iff.mp h
  obtain ⟨both, hboth, h⟩ := Option.bind_eq_some_iff.mp h
  refine ⟨count, metadata, hcount, hmetadata, ?_⟩
  rw [checkedAdd_eq h, checkedAdd_eq hboth, checkedMul_eq hbody, checkedMul_eq hjson,
    valueAllocationCharge, Nat.mul_comm 2, Nat.mul_comm 128]

theorem charge_of_parsed {parseJson parseJson' : Bytes → Option Json} {mapping : PayloadMapping}
    {request : VerificationRequest} {limits : WebhookIngressLimits}
    (h : mapPayload parseJson mapping request limits ≠ mapPayload parseJson' mapping request limits) :
    ∃ charge, retainedCharge mapping request = some charge ∧ charge ≤ limits.retainedBytes := by
  unfold mapPayload at h
  rcases hcharge : retainedCharge mapping request with _ | charge
  · exact absurd (by simp only [hcharge]) h
  · refine ⟨charge, rfl, Nat.le_of_not_lt fun hover => h ?_⟩
    simp only [hcharge, if_pos hover]

/-- **The charge counts every value.**  The count of a JSON text is the number of its values and member
    names; the loops behind it read inside the input only and end; they have no answer only for a string
    that does not end; and a body that gets to the parser was within the budget with all its values. -/
theorem json_values_charged :
    (∀ values names (bytes : Bytes), IsText values names bytes → bytes.length ≤ u64Max →
      countJsonValues bytes = some (values + names)) ∧
    (∀ input : Bytes, input.length < 2 ^ 63 → countIndexed input = .done (countJsonValues input)) ∧
    (∀ input : Bytes, countJsonValues input = none → Unterminated input ∨ u64Max < input.length) ∧
    ∀ parseJson parseJson' mapping request limits values names,
      mapPayload parseJson mapping request limits ≠ mapPayload parseJson' mapping request limits →
      IsText values names request.body → ∃ metadata, metadataCharge mapping request = some metadata ∧
          2 * request.body.length + 128 * (values + names) + metadata ≤ limits.retainedBytes := by
  refine ⟨fun values names bytes htext hlength => ?_, fun input hlength => ?_, fun input hnone => ?_, ?_⟩
  · have hscan := scan_text htext
    rw [countJsonValues_scan hscan, checkedAdd, Nat.zero_add, if_pos (hscan.le_length.trans hlength)]
  · exact countIndexed_eq (show input.length + 2 ≤ 2 ^ 64 - 1 by omega)
  · rcases scan_or_unterminated input with ⟨n, hscan⟩ | h
    · refine .inr (Nat.lt_of_not_le fun hlength => ?_)
      rw [countJsonValues_scan hscan, checkedAdd, Nat.zero_add,
        if_pos (hscan.le_length.trans hlength)] at hnone
      cases hnone
    · exact .inl h
  · intro parseJson parseJson' mapping request limits values names hparsed htext
    obtain ⟨charge, hcharge, hle⟩ := charge_of_parsed hparsed
    obtain ⟨count, metadata, hcount, hmetadata, rfl⟩ := retainedCharge_eq hcharge
    rw [countJsonValues_scan (scan_text htext)] at hcount
    have hsum := checkedAdd_eq hcount
    rw [Nat.zero_add] at hsum
    exact ⟨metadata, hmetadata, hsum ▸ hle⟩

end Bondry.Webhook
