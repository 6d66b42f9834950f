/-
  WHAT A RESPONSE IS, and that the parser of the Apple transport returns nothing else
  (`BoundedHTTP1ResponseParser.swift`).

  The first half is a grammar: lines, heads, chunks, and the body a head frames (`IsResponse`).  It names none
  of the parser's loops.

  The second half is one invariant of the machine the parser is.  `Taken bytes s` says what the bytes that left
  the buffer are, in terms of the state: interim heads, and behind a final head chunks.  A step keeps it
  (`Taken.next`), and one that returns a response finds the body complete and the buffer used up (`Taken.done`);
  so no call loses a byte it was given (`Consumed.consume`).
-/
import Bondry.Apple.Segments

namespace Bondry.Apple

open Encoding Search

/-! ## What a response is -/

def IsPrintable (c : Char) : Prop := c = '\t' ∨ (' ' ≤ c ∧ c ≤ '~')

def isBlank (c : Char) : Bool := decide (c = ' ' ∨ c = '\t')

def decimalValue (digits : Text) : Nat := digitsValue 10 (digits.map fun c => c.toNat - 48)

def hexValue (digits : Bytes) : Nat := digitsValue 16 (digits.map hexDigitValue)

/-- The version, a status of three digits and, behind a space, a reason. -/
def IsStatusLine (line : Text) (status : Int) : Prop :=
  ∃ (before between : Nat) (code reason : Text),
    line = List.replicate before ' ' ++ "HTTP/1.1".toList ++ List.replicate (between + 1) ' ' ++ code ++ reason ∧
    code.length = 3 ∧ code.all isAsciiNumber = true ∧ (∀ c, reason.head? = some c → c = ' ') ∧
    status = decimalValue code

/-- A name that is a token, a colon, and a value with blanks around it. -/
def IsHeaderLine (line : Text) (header : Text × Text) : Prop :=
  header.1 ≠ [] ∧ header.1.all isHttpToken = true ∧
  (∀ c, header.2.head? = some c → isBlank c = false) ∧ (∀ c, header.2.getLast? = some c → isBlank c = false) ∧
  ∃ before behind : Text, line = header.1 ++ ':' :: (before ++ header.2 ++ behind) ∧
    before.all isBlank = true ∧ behind.all isBlank = true

def asciiBytes (text : Text) : Bytes := text.map fun c => UInt8.ofNat c.toNat

def joinLines : List Text → Text
  | [] => []
  | [line] => line
  | line :: next :: lines => line ++ '\r' :: '\n' :: joinLines (next :: lines)

/-- A complete head with its terminator: a status line and header lines, all printable. -/
def IsHead (bytes : Bytes) (status : Int) (headers : List (Text × Text)) : Prop :=
  bytes.length ≤ maximumHeaderBytes ∧
  ∃ (statusLine : Text) (lines : List Text),
    bytes = asciiBytes (joinLines (statusLine :: lines)) ++ headEnd ∧
    (∀ line ∈ statusLine :: lines, ∀ c ∈ line, IsPrintable c) ∧
    IsStatusLine statusLine status ∧ List.Forall₂ IsHeaderLine lines headers

def IsInterim (bytes : Bytes) : Prop :=
  ∃ status headers, IsHead bytes status headers ∧ (100 ≤ status ∧ status ≤ 199) ∧ status ≠ 101

def IsFinal (bytes : Bytes) (status : Int) (headers : List (Text × Text)) : Prop :=
  IsHead bytes status headers ∧ ((200 ≤ status ∧ status ≤ 299) ∨ (400 ≤ status ∧ status ≤ 599))

/-- The line of a chunk's size: one to 128 hexadecimal digits. -/
def IsSizeLine (line : Bytes) (size : Nat) : Prop :=
  (1 ≤ line.length ∧ line.length ≤ 128) ∧ line.all isHexDigit = true ∧ hexValue line = size

structure Chunk where
  line : Bytes
  payload : Bytes
  size : IsSizeLine line payload.length
  carries : payload ≠ []

def Chunk.bytes (chunk : Chunk) : Bytes := chunk.line ++ crlf ++ (chunk.payload ++ crlf)

/-- The bytes behind a head are a body that it frames. -/
inductive IsBody (method : String) (status : Int) (headers : List (Text × Text)) : Bytes → Bytes → Prop where
  | none : method = "HEAD" ∨ status = 204 → IsBody method status headers [] []
  | length (value : Text) (body : Bytes) : ¬ (method = "HEAD" ∨ status = 204) →
      fieldValues headers "content-length" = [value] → fieldValues headers "transfer-encoding" = [] →
      value ≠ [] → value.all isAsciiNumber = true → decimalValue value = body.length →
      IsBody method status headers body body
  | chunked (value : Text) (chunks : List Chunk) (zero : Bytes) : ¬ (method = "HEAD" ∨ status = 204) →
      fieldValues headers "content-length" = [] → fieldValues headers "transfer-encoding" = [value] →
      value.map Char.toLower = "chunked".toList → IsSizeLine zero 0 →
      IsBody method status headers (chunks.flatMap Chunk.bytes ++ (zero ++ crlf ++ crlf))
        (chunks.flatMap Chunk.payload)

/-- The bytes are a response to a request with this method: interim heads, a final head, and its body. -/
def IsResponse (method : String) (maximumBodyBytes : Int) (bytes : Bytes) (response : ParsedHTTPResponse) :
    Prop :=
  ∃ (interims : List Bytes) (head rest : Bytes), bytes = interims.flatten ++ head ++ rest ∧
    (∀ interim ∈ interims, IsInterim interim) ∧ IsFinal head response.statusCode response.headers ∧
    IsBody method response.statusCode response.headers rest response.body ∧
    (response.body.length : Int) ≤ maximumBodyBytes

/-! ## Lines -/

theorem asciiBytes_decodeAscii (bytes : Bytes) : asciiBytes (decodeAscii bytes) = bytes := by
  rw [asciiBytes, decodeAscii, List.map_map]
  refine (List.map_congr_left fun b _ => ?_).trans (List.map_id bytes)
  have hvalid : b.toNat.isValidChar := .inl (b.toNat_lt.trans (by decide))
  have hchar : (Char.ofNat b.toNat).toNat = b.toNat := by
    rw [Char.toNat_ofNat, if_pos hvalid]
  show UInt8.ofNat (Char.ofNat b.toNat).toNat = b
  rw [hchar]
  exact UInt8.ofNat_toNat

theorem components_ne_nil (text : Text) : components text ≠ [] := by
  fun_cases components text <;> simp

theorem joinLines_components (text : Text) : joinLines (components text) = text := by
  induction text using components.induct with
  | case1 => rfl
  | case2 c => rfl
  | case3 c d rest hend ih =>
    obtain ⟨rfl, rfl⟩ := hend
    rw [components, if_pos ⟨rfl, rfl⟩]
    obtain ⟨first, others, hlines⟩ := List.exists_cons_of_ne_nil (components_ne_nil rest)
    rw [hlines] at ih ⊢
    rw [joinLines, ih]
    rfl
  | case4 c d rest hend hnil ih => exact absurd hnil (components_ne_nil _)
  | case5 c d rest hend first others hlines ih =>
    rw [components, if_neg hend, hlines]
    rw [hlines] at ih
    cases others with
    | nil => simpa [joinLines] using ih
    | cons next lines => simpa [joinLines] using ih

instance (c : Char) : Decidable (IsPrintable c) := inferInstanceAs (Decidable (_ ∨ _))

theorem printable_ofNat {b : UInt8} (h : b = 0x09 ∨ (0x20 ≤ b ∧ b ≤ 0x7E)) :
    IsPrintable (Char.ofNat b.toNat) ∧ Char.ofNat b.toNat ≠ '\r' := by
  have hall : ∀ n < 127, n = 9 ∨ 32 ≤ n → IsPrintable (Char.ofNat n) ∧ Char.ofNat n ≠ '\r' := by decide +kernel
  rcases h with rfl | ⟨hlow, hhigh⟩
  · exact hall 9 (by decide) (.inl rfl)
  · exact hall b.toNat (Nat.lt_succ_of_le hhigh) (.inr hlow)

theorem components_cons {c : Char} (hc : c ≠ '\r') (text : Text) :
    ∃ first others, components text = first :: others ∧ components (c :: text) = (c :: first) :: others := by
  obtain ⟨first, others, hlines⟩ := List.exists_cons_of_ne_nil (components_ne_nil text)
  refine ⟨first, others, hlines, ?_⟩
  cases text with
  | nil =>
    cases hlines
    rfl
  | cons d rest => rw [components, if_neg (fun h => hc h.1), hlines]

theorem printable_components {head : Bytes} (h : validHeadBytes head = true) :
    ∀ line ∈ components (decodeAscii head), ∀ c ∈ line, IsPrintable c := by
  induction head using validHeadBytes.induct with
  | case1 =>
    intro line hline
    obtain rfl : line = [] := by simpa [decodeAscii, components] using hline
    exact fun c hc => nomatch hc
  | case2 b =>
    intro line hline
    obtain rfl : line = [Char.ofNat b.toNat] := by simpa [decodeAscii, components] using hline
    intro c hc
    obtain rfl := List.mem_singleton.mp hc
    exact (printable_ofNat (of_decide_eq_true h)).1
  | case3 c rest ih =>
    -- a line ends here
    rw [validHeadBytes, if_pos rfl, Bool.and_eq_true, decide_eq_true_eq] at h
    obtain ⟨rfl, hrest⟩ := h
    have hlines : components (decodeAscii (0x0D :: 0x0A :: rest)) = [] :: components (decodeAscii rest) := by
      show components ('\r' :: '\n' :: decodeAscii rest) = _
      rw [components, if_pos ⟨rfl, rfl⟩]
    intro line hline
    rcases List.mem_cons.mp hline with rfl | hline
    · exact fun c hc => nomatch hc
    · exact ih hrest line hline
  | case4 b c rest hb ih =>
    rw [validHeadBytes, if_neg hb, Bool.and_eq_true, decide_eq_true_eq] at h
    obtain ⟨hprintable, hreturn⟩ := printable_ofNat h.1
    obtain ⟨first, others, hrest, hlines⟩ := components_cons hreturn (decodeAscii (c :: rest))
    have ih := ih h.2
    rw [show decodeAscii (b :: c :: rest) = Char.ofNat b.toNat :: decodeAscii (c :: rest) from rfl, hlines]
    rw [hrest] at ih
    intro line hline
    rcases List.mem_cons.mp hline with rfl | hline
    · intro d hd
      rcases List.mem_cons.mp hd with rfl | hd
      · exact hprintable
      · exact ih first (List.mem_cons_self ..) d hd
    · exact ih line (List.mem_cons_of_mem _ hline)

/-! ## Heads -/

theorem takeWhile_eq_replicate (c : Char) (text : Text) :
    text.takeWhile (· = c) = List.replicate (text.takeWhile (· = c)).length c := by
  refine List.eq_replicate_of_mem fun d hd => ?_
  simpa using List.mem_takeWhile_imp hd

theorem splitOmittingEmpty_cons {splits : Nat} {text word : Text} {words : List Text}
    (h : splitOmittingEmpty ' ' (splits + 1) text = word :: words) :
    ∃ before rest, text = List.replicate before ' ' ++ word ++ rest ∧ word ≠ [] ∧ ' ' ∉ word ∧
      (∀ c, rest.head? = some c → c = ' ') ∧ splitOmittingEmpty ' ' splits (rest.drop 1) = words := by
  rw [splitOmittingEmpty] at h
  rcases hrest : text.dropWhile (· = ' ') with _ | ⟨c, rest⟩
  · rw [hrest] at h
    cases h
  rw [hrest] at h
  obtain ⟨rfl, rfl⟩ := h
  have hc : c ≠ ' ' := by
    have hhead := List.head_dropWhile_not (fun d : Char => decide (d = ' ')) (l := text) (by simp [hrest])
    simpa [hrest] using hhead
  refine ⟨(text.takeWhile (· = ' ')).length, (c :: rest).dropWhile (· ≠ ' '), ?_, ?_, ?_, ?_, rfl⟩
  · rw [← takeWhile_eq_replicate, List.append_assoc, List.takeWhile_append_dropWhile, ← hrest,
      List.takeWhile_append_dropWhile]
  · simp [hc]
  · intro hmem
    have := List.mem_takeWhile_imp hmem
    simp at this
  · intro d hd
    have := List.head?_dropWhile_not (fun d : Char => decide (d ≠ ' ')) (c :: rest)
    rw [hd] at this
    simpa using this

theorem parseInt_digits {digits : Text} {value : Int} (hdigits : digits.all isAsciiNumber = true)
    (h : parseInt digits = some value) : digits ≠ [] ∧ value = decimalValue digits := by
  unfold parseInt at h
  dsimp only at h
  split at h
  · next rest => exact absurd hdigits (by simp [isAsciiNumber])
  · next rest => exact absurd hdigits (by simp [isAsciiNumber])
  · obtain ⟨n, hn, rfl⟩ := Option.map_eq_some_iff.mp h
    split_ifs at hn with hempty hbound
    cases hn
    exact ⟨fun heq => hempty (.inl heq), rfl⟩

variable {status : Int}

theorem parseStatusLine_ok {line : Text} (h : parseStatusLine line = .ok status) :
    IsStatusLine line status ∧ (100 ≤ status ∧ status ≤ 599) ∧ ¬ (300 ≤ status ∧ status ≤ 399) := by
  unfold parseStatusLine at h
  split at h
  · next version code tail hwords =>
    split at h
    · cases h
    · next value hvalue =>
      split_ifs at h with hchecks
      cases h
      obtain ⟨rfl, hlength, hdigits, hrange, hredirect⟩ := hchecks
      obtain ⟨before, rest, rfl, -, -, hspace, hwords⟩ := splitOmittingEmpty_cons hwords
      obtain ⟨between, reason, hrest, -, -, hreason, -⟩ := splitOmittingEmpty_cons hwords
      refine ⟨⟨before, between, code, reason, ?_, hlength, hdigits, hreason, ?_⟩, hrange, hredirect⟩
      · -- the words are apart: something of the line is left behind the version, and it begins with a space
        rcases rest with _ | ⟨c, rest⟩
        · have hlengths := congrArg List.length hrest
          simp only [List.drop_nil, List.length_nil, List.length_append, hlength] at hlengths
          omega
        · obtain rfl := hspace c rfl
          rw [show (' ' :: rest).drop 1 = rest from rfl] at hrest
          simp [hrest, List.replicate_succ]
      · exact (parseInt_digits hdigits hvalue).2
  · cases h

theorem dropWhile_blank (text : Text) : ∃ before, text = before ++ text.dropWhile isBlank ∧
    before.all isBlank = true := by
  refine ⟨text.takeWhile isBlank, (List.takeWhile_append_dropWhile ..).symm, ?_⟩
  exact List.all_takeWhile

theorem trimWhitespace_spec (text : Text) : (∀ c, (trimWhitespace text).head? = some c → isBlank c = false) ∧
    (∀ c, (trimWhitespace text).getLast? = some c → isBlank c = false) ∧
    ∃ before behind, text = before ++ trimWhitespace text ++ behind ∧ before.all isBlank = true ∧
      behind.all isBlank = true := by
  have htrim : trimWhitespace text = ((text.dropWhile isBlank).reverse.dropWhile isBlank).reverse := rfl
  obtain ⟨before, htext, hbefore⟩ := dropWhile_blank text
  obtain ⟨behind, hrest, hbehind⟩ := dropWhile_blank (text.dropWhile isBlank).reverse
  have hback : text.dropWhile isBlank = trimWhitespace text ++ behind.reverse := by
    rw [htrim, ← List.reverse_append, ← hrest, List.reverse_reverse]
  refine ⟨fun c hc => ?_, fun c hc => ?_, before, behind.reverse, ?_, hbefore, ?_⟩
  · -- what begins the trimmed text begins the text without its front
    have hfirst : (text.dropWhile isBlank).head? = some c := by
      rw [hback, List.head?_append, hc]
      rfl
    have hnot := List.head?_dropWhile_not isBlank text
    rw [hfirst] at hnot
    simpa using hnot
  · rw [htrim, List.getLast?_reverse] at hc
    have hnot := List.head?_dropWhile_not isBlank (text.dropWhile isBlank).reverse
    rw [hc] at hnot
    simpa using hnot
  · rw [List.append_assoc, ← hback]
    exact htext
  · rw [List.all_reverse]
    exact hbehind

theorem parseHeader_ok {line : Text} {header : Text × Text} (h : parseHeader line = .ok header) :
    IsHeaderLine line header := by
  unfold parseHeader at h
  split_ifs at h
  split at h
  · cases h
  · next name value hfound =>
    split_ifs at h with hname
    cases h
    obtain ⟨hnonempty, htoken⟩ := not_or.mp hname
    obtain ⟨hfirst, hlast, before, behind, hvalue, hbefore, hbehind⟩ := trimWhitespace_spec value
    refine ⟨hnonempty, by simpa using htoken, hfirst, hlast, before, behind, ?_, hbefore, hbehind⟩
    rw [← hvalue, findFirst_eq_some hfound]
    simp

theorem isHead_of_parse {head : Bytes} {statusLine : Text} {lines : List Text}
    {headers : List (Text × Text)} (hvalid : validHeadBytes head = true)
    (hlines : components (decodeAscii head) = statusLine :: lines)
    (hstatus : parseStatusLine statusLine = .ok status) (hheaders : parseHeaders lines = .ok headers)
    (hlength : head.length + headEnd.length ≤ maximumHeaderBytes) :
    IsHead (head ++ headEnd) status headers := by
  refine ⟨by rwa [List.length_append], statusLine, lines, ?_, ?_, (parseStatusLine_ok hstatus).1, ?_⟩
  · rw [← hlines, joinLines_components, asciiBytes_decodeAscii]
  · rw [← hlines]
    exact printable_components hvalid
  · unfold parseHeaders at hheaders
    split_ifs at hheaders
    exact (mapM_ok hheaders).imp fun _ _ => parseHeader_ok

variable {method : String} {limit : Int}

theorem parseHead_ok {head : Bytes} {said : Option (Int × List (Text × Text) × Framing)}
    (hlength : head.length + headEnd.length ≤ maximumHeaderBytes)
    (h : parseHead method limit head = .ok said) : (said = none ∧ IsInterim (head ++ headEnd)) ∨
      ∃ status headers framing, said = some (status, headers, framing) ∧
        IsFinal (head ++ headEnd) status headers ∧
        chooseFraming method status headers limit = .ok framing := by
  unfold parseHead at h
  split_ifs at h with hvalid
  split at h
  · cases h
  · next statusLine lines hlines =>
    obtain ⟨status, hstatus, h⟩ := bind_ok h
    obtain ⟨headers, hheaders, h⟩ := bind_ok h
    have hhead := isHead_of_parse (by simpa using hvalid) hlines hstatus hheaders hlength
    obtain ⟨-, hrange, hredirect⟩ := parseStatusLine_ok hstatus
    split_ifs at h with hinterim hswitching
    · cases h
      exact .inl ⟨rfl, status, headers, hhead, hinterim, hswitching⟩
    · obtain ⟨framing, hframing, h⟩ := bind_ok h
      cases h
      exact .inr ⟨status, headers, framing, rfl, ⟨hhead, by omega⟩, hframing⟩

/-! ## Bodies -/

/-- **The framing that is chosen** is that of the body: what is complete by it is a body of the head. -/
theorem chooseFraming_ok {headers : List (Text × Text)} {framing : Framing}
    (hfinal : (200 ≤ status ∧ status ≤ 299) ∨ (400 ≤ status ∧ status ≤ 599)) :
    chooseFraming method status headers limit = .ok framing → match framing with
    | .empty => IsBody method status headers [] []
    | .contentLength length => (length : Int) ≤ limit ∧
        ∀ body : Bytes, body.length = length → IsBody method status headers body body
    | .chunked => ∀ (chunks : List Chunk) zero, IsSizeLine zero 0 →
        IsBody method status headers (chunks.flatMap Chunk.bytes ++ (zero ++ crlf ++ crlf))
          (chunks.flatMap Chunk.payload) := by
  fun_cases chooseFraming method status headers limit <;> intro h <;> try cases h
  case case1.refl hempty => exact .none (hempty.imp_right fun hstatus => by omega)
  case case6.refl hbody value hencodings hlengths hdigits length hlength hbound =>
    have hall : value.all isAsciiNumber = true := by simpa using hdigits
    obtain ⟨hnonempty, rfl⟩ := parseInt_digits hall hlength
    refine ⟨not_lt.mp hbound, fun body hlength => ?_⟩
    exact .length value body (fun hor => hbody (hor.imp_right (.inr ∘ .inl))) hlengths hencodings hnonempty
      hall hlength.symm
  case case8.refl hbody value hencodings hlengths hchunked =>
    intro chunks zero hzero
    exact .chunked value chunks zero (fun hor => hbody (hor.imp_right (.inr ∘ .inl))) hlengths hencodings
      hchunked hzero

theorem readSize_some {line : Bytes} {size : Nat} (h : readSize line = some size) : IsSizeLine line size := by
  unfold readSize at h
  split_ifs at h with hline
  unfold parseHex at h
  dsimp only at h
  split_ifs at h
  cases h
  simp only [not_or, Bool.not_eq_true', Bool.not_eq_false] at hline
  exact ⟨⟨Nat.one_le_iff_ne_zero.mpr hline.1, Nat.le_of_not_lt hline.2.1⟩, hline.2.2, rfl⟩

theorem readChunk_reads {decoded : Nat} {input content rest : Bytes}
    (h : readChunk limit decoded input = .chunk content rest) :
    ∃ chunk : Chunk, chunk.payload = content ∧ input = chunk.bytes ++ rest ∧
      (decoded + content.length : Int) ≤ limit := by
  revert h
  fun_cases readChunk limit decoded input <;> intro h <;> try cases h
  case case4 line tail hfound size hsize =>
    obtain ⟨htail, -⟩ := readContent_chunk h
    -- the content is as long as the line says
    have hcontent : size ≠ 0 ∧ ¬ limit - decoded < size ∧ content.length = size := by
      unfold readContent at h
      split_ifs at h with hzero hshort hlast hmaximum hshort hend
      cases h
      refine ⟨hzero, hmaximum, ?_⟩
      rw [List.length_take]
      omega
    obtain ⟨hzero, hmaximum, hlength⟩ := hcontent
    have hcarries : content ≠ [] := fun hnil => hzero (by rw [← hlength, hnil]; rfl)
    refine ⟨⟨line, content, hlength ▸ readSize_some hsize, hcarries⟩, rfl, ?_, by omega⟩
    rw [findFirst_eq_some hfound, htail]
    simp only [Chunk.bytes, List.append_assoc]

theorem readChunk_ends {decoded : Nat} {input : Bytes}
    (h : readChunk limit decoded input = .last) :
    ∃ zero, IsSizeLine zero 0 ∧ input = zero ++ crlf ++ crlf := by
  revert h
  fun_cases readChunk limit decoded input <;> intro h <;> try cases h
  case case4 line tail hfound size hsize =>
    unfold readContent at h
    split_ifs at h with hzero hshort hlast
    subst hzero
    refine ⟨line, readSize_some hsize, ?_⟩
    obtain ⟨htake, hlength⟩ := hlast
    rw [findFirst_eq_some hfound, ← htake, List.take_of_length_le hlength.le]

/-! ## What has been taken -/

/-- The bytes that were moved out of the buffer, by what the parser knows of them: interim heads; behind a final
    head also chunks. -/
inductive Taken (method : String) (maximumBodyBytes : Int) : Bytes → Progress → Prop where
  | heads (interims : List Bytes) : (∀ interim ∈ interims, IsInterim interim) →
      Taken method maximumBodyBytes interims.flatten .start
  | body (interims : List Bytes) (head : Bytes) (status : Int) (headers : List (Text × Text))
      (framing : Framing) (chunks : List Chunk) :
      (∀ interim ∈ interims, IsInterim interim) → IsFinal head status headers →
      chooseFraming method status headers maximumBodyBytes = .ok framing →
      (framing ≠ .chunked → chunks = []) →
      ((chunks.flatMap Chunk.payload).length : Int) ≤ maximumBodyBytes →
      Taken method maximumBodyBytes (interims.flatten ++ head ++ chunks.flatMap Chunk.bytes)
        ⟨some status, headers, some framing, chunks.flatMap Chunk.payload⟩

section

variable {method : String} {limit : Int} {taken : Bytes} {s : Progress}

/-- **A step** takes an interim head, the final head or a chunk. -/
theorem Taken.next (hmaximum : 0 ≤ limit) {s' : Progress} {read rest : Bytes}
    (h : Taken method limit taken s)
    (hstep : Progress.step method limit s (read ++ rest) = .next s' rest) :
    Taken method limit (taken ++ read) s' := by
  revert hstep
  fun_cases Progress.step method limit s (read ++ rest) <;> intro hstep <;> try cases hstep
  case case5.refl hframing head hlong hparse hfound =>
    obtain rfl := List.append_cancel_right (findFirst_eq_some hfound)
    obtain ⟨-, hinterim⟩ | ⟨_, _, _, hsome, -⟩ := parseHead_ok (Nat.le_of_not_lt hlong) hparse
    · cases h with
      | body => cases hframing
      | heads interims hinterims =>
        have hall := List.forall_mem_append.mpr ⟨hinterims, List.forall_mem_singleton.mpr hinterim⟩
        simpa using Taken.heads (interims ++ [head ++ headEnd]) hall
    · cases hsome
  case case6.refl hframing head hlong status headers framing hparse hfound =>
    obtain rfl := List.append_cancel_right (findFirst_eq_some hfound)
    obtain ⟨hnone, -⟩ | ⟨_, _, _, hsaid, hfinal, hchosen⟩ := parseHead_ok (Nat.le_of_not_lt hlong) hparse
    · cases hnone
    · cases hsaid
      cases h with
      | body => cases hframing
      | heads interims hinterims =>
        have hbody := Taken.body interims (head ++ headEnd) status headers framing [] hinterims hfinal hchosen
          (fun _ => rfl) (by simpa using hmaximum)
        simpa [Progress.start] using hbody
  case case15.refl status hstatus hframing content hchunk =>
    obtain ⟨chunk, rfl, hread, hroom⟩ := readChunk_reads hchunk
    obtain rfl := List.append_cancel_right hread
    cases h with
    | heads => cases hframing
    | body interims head status headers framing chunks hinterims hfinal hchosen hchunks hfits =>
      cases hframing
      have hmore := Taken.body interims head status headers .chunked (chunks ++ [chunk]) hinterims hfinal hchosen
        (fun hne => absurd rfl hne) (by simpa using hroom)
      simpa using hmore

/-- **The body**: what is returned is complete, and nothing is left over. -/
theorem Taken.done {input : Bytes} {response : ParsedHTTPResponse} (h : Taken method limit taken s)
    (hstep : Progress.step method limit s input = .done response) :
    IsResponse method limit (taken ++ input) response := by
  cases h with
  | heads interims hinterims =>
    revert hstep
    fun_cases Progress.step method limit .start input <;> intro hstep <;> try cases hstep
    all_goals contradiction
  | body interims head status headers framing chunks hinterims hfinal hchosen hchunks hfits =>
    have hbody := chooseFraming_ok hfinal.2 hchosen
    rw [List.append_assoc]
    cases framing with
    | empty =>
      obtain rfl := hchunks (by intro h; cases h)
      simp only [Progress.step] at hstep
      split_ifs at hstep with hempty
      cases hstep
      subst hempty
      exact ⟨interims, head, [], rfl, hinterims, hfinal, hbody, by simpa using hfits⟩
    | contentLength length =>
      obtain rfl := hchunks (by intro h; cases h)
      simp only [Progress.step] at hstep
      split_ifs at hstep with hshort hlength
      cases hstep
      exact ⟨interims, head, input, rfl, hinterims, hfinal, hbody.2 input hlength, hlength ▸ hbody.1⟩
    | chunked =>
      simp only [Progress.step] at hstep
      split at hstep <;> try cases hstep
      next hlast =>
        obtain ⟨zero, hzero, rfl⟩ := readChunk_ends hlast
        exact ⟨interims, head, _, rfl, hinterims, hfinal, hbody chunks zero hzero, hfits⟩

end

/-- All the bytes a parser was given: those it has taken, and its buffer. -/
def Consumed (method : String) (maximumBodyBytes : Int) (bytes : Bytes) (p : ResponseParser) : Prop :=
  ∃ taken s buffer, bytes = taken ++ buffer ∧ Taken method maximumBodyBytes taken s ∧
    p = s.parser method maximumBodyBytes buffer

section

variable {method : String} {limit : Int} {bytes : Bytes} {p p' : ResponseParser}

/-- **A call of `consume`** loses nothing of what it is given, and returns a response only when that is one. -/
theorem Consumed.consume (h : Consumed method limit bytes p) (hmaximum : 0 ≤ limit)
    {data : Bytes} {isComplete : Bool} {response : Option ParsedHTTPResponse}
    (hconsume : p.consume data isComplete = .ok (response, p')) :
    Consumed method limit (bytes ++ data) p' ∧
      ∀ found, response = some found → IsResponse method limit (bytes ++ data) found := by
  obtain ⟨taken, s, buffer, rfl, htaken, rfl⟩ := h
  have hrun := Incremental.advance_rule stable_step (Taken method limit)
    (IsResponse method limit) (Taken.next hmaximum) Taken.done taken s (buffer ++ data) htaken
  rw [consume_advance] at hconsume
  change settle method limit isComplete
    (Incremental.advance (Progress.step method limit) s (buffer ++ data)) = _ at hconsume
  rw [List.append_assoc]
  cases hadvance : Incremental.advance (Progress.step method limit) s (buffer ++ data) with
  | fail e =>
    rw [hadvance] at hconsume
    cases hconsume
  | wait s' held =>
    rw [hadvance] at hconsume hrun
    obtain ⟨read, hread, htaken'⟩ := hrun
    simp only [settle] at hconsume
    split_ifs at hconsume
    cases hconsume
    exact ⟨⟨_, s', held, by rw [hread, List.append_assoc], htaken', rfl⟩, by intro _ h; cases h⟩
  | done r s' held =>
    rw [hadvance] at hconsume hrun
    obtain ⟨hresponse, read, hread, htaken'⟩ := hrun
    cases hconsume
    refine ⟨⟨_, s', held, by rw [hread, List.append_assoc], htaken', rfl⟩, ?_⟩
    rintro found ⟨⟩
    exact hresponse

end

/-! ## Every response is one -/

def ResponseParser.feed : ResponseParser → List (Bytes × Bool) → Except TransportError ResponseParser
  | p, [] => .ok p
  | p, (data, isComplete) :: calls => do
      let (_, p) ← p.consume data isComplete
      feed p calls

theorem Consumed.feed (hmaximum : 0 ≤ limit) {calls : List (Bytes × Bool)} :
    ∀ {bytes : Bytes} {p p' : ResponseParser},
    Consumed method limit bytes p → p.feed calls = .ok p' →
    Consumed method limit (bytes ++ (calls.map Prod.fst).flatten) p' := by
  induction calls with
  | nil =>
    intro bytes p p' h hfeed
    cases hfeed
    simpa using h
  | cons call calls ih =>
    intro bytes p p' h hfeed
    obtain ⟨⟨response, q⟩, hconsume, hfeed⟩ := bind_ok hfeed
    have hrest := ih (h.consume hmaximum hconsume).1 hfeed
    rw [List.append_assoc] at hrest
    exact hrest

/-- THE FRAMING IS SOUND: when a call returns a response, the bytes of that call and of all before it are
    exactly one response of the grammar, with the status, headers and body that were returned.  The calls before
    may have returned it already. -/
theorem response_framing_sound (method : String) (maximumBodyBytes : Int) (hmaximum : 0 ≤ maximumBodyBytes)
    (calls : List (Bytes × Bool)) (p p' : ResponseParser) (data : Bytes) (isComplete : Bool)
    (response : ParsedHTTPResponse) (hcalls : (ResponseParser.new method maximumBodyBytes).feed calls = .ok p)
    (hreturns : p.consume data isComplete = .ok (some response, p')) :
    IsResponse method maximumBodyBytes ((calls.map Prod.fst).flatten ++ data) response := by
  have hstart : Consumed method maximumBodyBytes [] (ResponseParser.new method maximumBodyBytes) :=
    ⟨[], .start, [], rfl, .heads [] (List.forall_mem_nil _), rfl⟩
  have hp := hstart.feed hmaximum hcalls
  exact (hp.consume hmaximum hreturns).2 response rfl

/-- An interim head, then a chunked body that arrives with the second call. -/
theorem interim_and_chunk_framed : IsResponse "POST" 16
      (ascii "HTTP/1.1 100 Continue\r\n\r\nHTTP/1.1 200 OK\r\nTransfer-Encoding: chunked\r\n\r\n2\r\nhi\r\n0\r\n\r\n")
      ⟨200, [("Transfer-Encoding".toList, "chunked".toList)], ascii "hi"⟩ := by
  have hrun : ((ResponseParser.new "POST" 16).feed
      [(ascii "HTTP/1.1 100 Continue\r\n\r\nHTTP/1.1 200 OK\r\nTransfer-Encoding: chunked\r\n\r\n2\r\nh", false)] >>=
        fun p => p.consume (ascii "i\r\n0\r\n\r\n") true).map Prod.fst =
      .ok (some ⟨200, [("Transfer-Encoding".toList, "chunked".toList)], ascii "hi"⟩) := by
    decide +kernel
  obtain ⟨⟨_, p'⟩, hrun, rfl⟩ := map_eq_ok.mp hrun
  obtain ⟨p, hcalls, hreturns⟩ := bind_ok hrun
  have hframed := response_framing_sound "POST" 16 (by decide) _ p p' _ true _ hcalls hreturns
  exact hframed

end Bondry.Apple
