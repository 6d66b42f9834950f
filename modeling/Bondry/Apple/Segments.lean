/-
  CUTS IN A RESPONSE do not matter to the parser (`BoundedHTTP1ResponseParser.swift`), but for one.

  The parser is an instance of `Lib/Incremental`: a head is one step, a chunk is one step, the end of the
  body is one step, and a call of `consume` makes steps until it has to wait (`consume_advance`).  All but
  one of its checks are stable under more input (`stable_step`).  The exception is in the chunk sizes:

  * with the line's end in the buffer, up to 128 digits in front of it are accepted;
  * without it, up to 128 bytes in the buffer are, and the carriage return is one of them.

  So a chunk-size line of exactly 128 digits is accepted, but not when the connection is cut between its
  carriage return and its line feed (`tight`).  `segments_deliver_iff` says that this is all.
-/
import Bondry.Apple.ResponseParser
import Bondry.Lib.Incremental

namespace Bondry.Apple

open Encoding Incremental Search

/-! ## The parser as an incremental machine -/

structure Progress where
  statusCode : Option Int
  headers : List (Text × Text)
  framing : Option Framing
  decodedBody : Bytes

def ResponseParser.progress (p : ResponseParser) : Progress :=
  ⟨p.statusCode, p.headers, p.framing, p.decodedBody⟩

def Progress.parser (requestMethod : String) (maximumBodyBytes : Int) (s : Progress) (buffer : Bytes) :
    ResponseParser :=
  ⟨requestMethod, maximumBodyBytes, buffer, s.statusCode, s.headers, s.framing, s.decodedBody⟩

section

variable (requestMethod : String) (maximumBodyBytes : Int)

/-- A head, a chunk, or the end of the body. -/
def Progress.step (s : Progress) (input : Bytes) : Step Progress UInt8 TransportError ParsedHTTPResponse :=
  match s.framing, s.statusCode with
  | none, _ =>
    match findFirst headEnd input with
    | none => if maximumHeaderBytes < input.length then .fail .responseTooLarge else .wait
    | some (head, rest) =>
      if maximumHeaderBytes < head.length + headEnd.length then .fail .responseTooLarge
      else
        match parseHead requestMethod maximumBodyBytes head with
        | .error e => .fail e
        | .ok none => .next s rest
        | .ok (some (status, headers, framing)) =>
          .next { s with statusCode := some status, headers := headers, framing := some framing } rest
  | some .empty, some status => if input = [] then .done ⟨status, s.headers, []⟩ else .fail .invalidResponse
  | some (.contentLength length), some status =>
    if input.length < length then .wait
    else if input.length = length then .done ⟨status, s.headers, input⟩
    else .fail .invalidResponse
  | some .chunked, some status =>
    match readChunk maximumBodyBytes s.decodedBody.length input with
    | .throws e => .fail e
    | .incomplete => .wait
    | .last => .done ⟨status, s.headers, s.decodedBody⟩
    | .chunk content rest => .next { s with decodedBody := s.decodedBody ++ content } rest
  | some _, none => .wait

end

/-- A chunk-size line of 128 digits and its carriage return, without the line feed. -/
def CutSizeLine (input : Bytes) : Prop :=
  ∃ line : Bytes, line.length = 128 ∧ line.all isHexDigit ∧ input = line ++ [0x0D]

/-- The place where more input would be accepted and none is not. -/
def tight (s : Progress) (input : Bytes) : Prop := s.framing = some .chunked ∧ CutSizeLine input

/-! ### Chunks are stable -/

section

variable {limit : Int} {decoded : Nat} {input more : Bytes}

theorem crlf_ne_nil : crlf ≠ [] := by decide

theorem headEnd_ne_nil : headEnd ≠ [] := by decide

variable {size : Nat}

theorem readContent_chunk {content rest : Bytes}
    (h : readContent limit decoded size input = .chunk content rest) :
    input = content ++ crlf ++ rest ∧
      ∀ more, readContent limit decoded size (content ++ crlf ++ more) = .chunk content more := by
  unfold readContent at h
  split_ifs at h with hzero _ _ hmaximum hlong hend
  cases h
  have hsize : (input.take size).length = size := by
    rw [List.length_take]
    omega
  refine ⟨?_, fun more => ?_⟩
  · rw [← hend, ← List.drop_drop, List.append_assoc, List.take_append_drop, List.take_append_drop]
  · have hdrop : (input.take size ++ crlf ++ more).drop size = crlf ++ more := by
      rw [List.append_assoc, List.drop_left' hsize]
    have htake : (input.take size ++ crlf ++ more).take size = input.take size := by
      rw [List.append_assoc, List.take_left' hsize]
    have hlength : ¬ (input.take size ++ crlf ++ more).length < size + 2 := by
      simp only [List.length_append, hsize, crlf, List.length_cons, List.length_nil]
      omega
    rw [readContent, if_neg hzero, if_neg hmaximum, if_neg hlength, ← List.drop_drop, hdrop, htake]
    rfl

theorem readContent_last (h : readContent limit decoded size input = .last) (hmore : more ≠ []) :
    readContent limit decoded size (input ++ more) = .throws .invalidResponse := by
  unfold readContent at h
  split_ifs at h with hzero _ hend
  have hlength : more.length ≠ 0 := by simpa using hmore
  have hlong : (input ++ more).length = input.length + more.length := List.length_append
  rw [readContent, if_pos hzero, if_neg (by omega), if_neg (fun hboth => by omega)]

theorem readContent_throws {e : TransportError}
    (h : readContent limit decoded size input = .throws e) (more : Bytes) :
    readContent limit decoded size (input ++ more) = .throws e := by
  have hlong : (input ++ more).length = input.length + more.length := List.length_append
  unfold readContent at h
  split_ifs at h with hzero _ hend hmaximum _ hend <;> cases h
  · have htake : (input ++ more).take 2 = input.take 2 := List.take_append_of_le_length (by omega)
    rw [readContent, if_pos hzero, if_neg (by omega), if_neg]
    rintro ⟨hcrlf, htwo⟩
    exact hend ⟨htake ▸ hcrlf, by omega⟩
  · rw [readContent, if_neg hzero, if_pos hmaximum]
  · have htake : ((input ++ more).drop size).take 2 = (input.drop size).take 2 := by
      rw [List.drop_append_of_le_length (by omega)]
      exact List.take_append_of_le_length (by rw [List.length_drop]; omega)
    rw [readContent, if_neg hzero, if_neg hmaximum, if_neg (by omega), htake, if_neg hend]

theorem readChunk_chunk {content rest : Bytes}
    (h : readChunk limit decoded input = .chunk content rest) :
    ∃ read, read ≠ [] ∧ input = read ++ rest ∧
      ∀ more, readChunk limit decoded (read ++ more) = .chunk content more := by
  revert h
  fun_cases readChunk limit decoded input <;> intro h <;> try cases h
  case case4 line tail hfound size hsize =>
    obtain ⟨htail, hlocal⟩ := readContent_chunk h
    refine ⟨line ++ crlf ++ (content ++ crlf), by simp [crlf], ?_, fun more => ?_⟩
    · rw [findFirst_eq_some hfound, htail]
      simp only [List.append_assoc]
    · rw [List.append_assoc, readChunk]
      simp only [findFirst_replace hfound crlf_ne_nil, hsize, hlocal]

theorem readChunk_last (h : readChunk limit decoded input = .last) (hmore : more ≠ []) :
    readChunk limit decoded (input ++ more) = .throws .invalidResponse := by
  revert h
  fun_cases readChunk limit decoded input <;> intro h <;> try cases h
  case case4 line tail hfound size hsize =>
    simp only [readChunk, findFirst_append hfound crlf_ne_nil, hsize]
    exact readContent_last h hmore

theorem readChunk_throws {e : TransportError} (h : readChunk limit decoded input = .throws e)
    (hcut : ¬ CutSizeLine input) (more : Bytes) :
    ∃ e', readChunk limit decoded (input ++ more) = .throws e' := by
  revert h
  fun_cases readChunk limit decoded input <;> intro h <;> try cases h
  case case1.refl hnone hlong =>
    rw [readChunk]
    cases hfound : findFirst crlf (input ++ more) with
    | none =>
      have hlonger : 128 < (input ++ more).length := by
        rw [List.length_append]
        omega
      exact ⟨_, if_pos hlonger⟩
    | some found =>
      obtain ⟨line, tail⟩ := found
      -- the line's end is not in the input, so only its line feed can be missing
      have hlate := findFirst_late hnone hfound
      have hlen : crlf.length = 2 := rfl
      by_cases hline : 128 < line.length ∨ !line.all isHexDigit
      · have hsize : readSize line = none := if_pos (.inr hline)
        exact ⟨_, by dsimp only; rw [hsize]⟩
      push Not at hline
      refine (hcut ⟨line, by omega, by simpa using hline.2, ?_⟩).elim
      have htext := findFirst_eq_some hfound
      have hprefix : line ++ [0x0D] <+: input ++ more := by
        rw [htext]
        exact ⟨[0x0A] ++ tail, by simp [crlf]⟩
      have hlength : input.length = (line ++ [0x0D]).length := by
        simp only [List.length_append, List.length_singleton]
        omega
      exact (List.prefix_of_prefix_length_le (List.prefix_append input more) hprefix
        hlength.le).eq_of_length hlength
  case case3.refl line tail hfound hsize =>
    exact ⟨.invalidResponse, by simp only [readChunk, findFirst_append hfound crlf_ne_nil, hsize]⟩
  case case4 line tail hfound size hsize =>
    refine ⟨e, ?_⟩
    simp only [readChunk, findFirst_append hfound crlf_ne_nil, hsize]
    exact readContent_throws h more

end

/-! ### Every step is stable -/

section

variable {method : String} {limit : Int}

/-- **Heads, chunks and body ends do not depend on what follows**, but for the cut size line. -/
theorem stable_step : Stable (Progress.step method limit) tight where
  next := by
    intro s s' input rest h
    revert h
    fun_cases Progress.step method limit s input <;> intro h <;> try cases h
    case case5.refl hframing head hlong hparse hfound =>
      refine ⟨head ++ headEnd, by simp [headEnd], findFirst_eq_some hfound, fun more => ?_⟩
      simp only [Progress.step, hframing, findFirst_replace hfound headEnd_ne_nil, if_neg hlong, hparse]
    case case6.refl hframing head hlong status headers framing hparse hfound =>
      refine ⟨head ++ headEnd, by simp [headEnd], findFirst_eq_some hfound, fun more => ?_⟩
      simp only [Progress.step, hframing, findFirst_replace hfound headEnd_ne_nil, if_neg hlong, hparse]
    case case15.refl status hstatus hframing content hchunk =>
      obtain ⟨read, hread, hinput, hlocal⟩ := readChunk_chunk hchunk
      exact ⟨read, hread, hinput, fun more => by simp only [Progress.step, hstatus, hframing, hlocal more]⟩
  done := by
    intro s input more r h hmore
    have hlength : more.length ≠ 0 := by simpa using hmore
    revert h
    fun_cases Progress.step method limit s input <;> intro h <;> try cases h
    case case7.refl status hstatus hframing hempty =>
      exact ⟨.invalidResponse, by simp [Progress.step, hframing, hstatus, hmore]⟩
    case case10.refl status hstatus hframing _ =>
      exact ⟨.invalidResponse, by simp [Progress.step, hframing, hstatus, hmore]⟩
    case case14.refl status hstatus hframing hlast =>
      exact ⟨.invalidResponse, by simp only [Progress.step, hframing, hstatus, readChunk_last hlast hmore]⟩
  fail := by
    intro s input e h htight more
    have hlonger : (input ++ more).length = input.length + more.length := List.length_append
    revert h
    fun_cases Progress.step method limit s input <;> intro h <;> try cases h
    case case1.refl hframing hnone hlong =>
      -- a head that is too long without its end is too long with it
      simp only [Progress.step, hframing]
      cases hfound : findFirst headEnd (input ++ more) with
      | none => exact ⟨_, if_pos (by omega)⟩
      | some found =>
        have hlate := findFirst_late hnone hfound
        exact ⟨_, if_pos (by omega)⟩
    case case3.refl hframing head rest hfound hlong =>
      exact ⟨.responseTooLarge, by
        simp only [Progress.step, hframing, findFirst_append hfound headEnd_ne_nil, if_pos hlong]⟩
    case case4.refl hframing head rest hfound hlong hparse =>
      exact ⟨e, by
        simp only [Progress.step, hframing, findFirst_append hfound headEnd_ne_nil, if_neg hlong, hparse]⟩
    case case8.refl status hstatus hframing hempty =>
      exact ⟨.invalidResponse, by simp [Progress.step, hframing, hstatus, hempty]⟩
    case case11.refl length status hstatus hframing hshort hlength =>
      refine ⟨.invalidResponse, ?_⟩
      simp only [Progress.step, hframing, hstatus]
      rw [if_neg (by omega), if_neg (by omega)]
    case case12.refl status hstatus hframing hthrows =>
      obtain ⟨e', hmore⟩ := readChunk_throws hthrows (fun hcut => htight ⟨hframing, hcut⟩) more
      exact ⟨e', by simp only [Progress.step, hframing, hstatus, hmore]⟩

end

/-! ### The code is the machine -/

section

variable {method : String} {limit : Int}

/-- What `consume` makes of a call of the machine; an end without a response is an error. -/
def settle (requestMethod : String) (maximumBodyBytes : Int) (isComplete : Bool) :
    Incremental.Outcome Progress UInt8 TransportError ParsedHTTPResponse →
      Except TransportError (Option ParsedHTTPResponse × ResponseParser)
  | .fail e => .error e
  | .wait s held =>
    if isComplete then .error .invalidResponse else .ok (none, s.parser requestMethod maximumBodyBytes held)
  | .done r s held => .ok (some r, s.parser requestMethod maximumBodyBytes held)

theorem parseChunked_advance {status : Int} : ∀ {fuel : Nat} {s : Progress} {input : Bytes},
    input.length ≤ fuel → s.framing = some .chunked → s.statusCode = some status →
    ResponseParser.parseChunked status fuel (s.parser method limit input) =
      settle method limit false
        (advance (Progress.step method limit) s input) := by
  intro fuel
  induction fuel with
  | zero =>
    intro s input hfuel hframing hstatus
    -- without input there is no chunk to read
    obtain rfl : input = [] := List.length_eq_zero_iff.mp (Nat.le_zero.mp hfuel)
    have hstep : Progress.step method limit s [] = .wait := by
      simp only [Progress.step, hframing, hstatus]
      rfl
    rw [advance_wait hstep]
    rfl
  | succ fuel ih =>
    intro s input hfuel hframing hstatus
    have hstep : ∀ round, readChunk limit s.decodedBody.length input = round →
        Progress.step method limit s input = match round with
          | .throws e => .fail e
          | .incomplete => .wait
          | .last => .done ⟨status, s.headers, s.decodedBody⟩
          | .chunk content rest => .next { s with decodedBody := s.decodedBody ++ content } rest := by
      rintro round rfl
      simp only [Progress.step, hframing, hstatus]
    rw [ResponseParser.parseChunked]
    dsimp only [Progress.parser]
    cases hround : readChunk limit s.decodedBody.length input with
    | throws e =>
      rw [advance_fail (hstep _ hround)]
      rfl
    | incomplete =>
      rw [advance_wait (hstep _ hround)]
      rfl
    | last =>
      rw [advance_done (hstep _ hround)]
      rfl
    | chunk content rest =>
      have hshorter := stable_step.shorter (hstep _ hround)
      rw [advance_next stable_step (hstep _ hround)]
      have hrest : rest.length ≤ fuel := Nat.le_of_lt_succ (hshorter.trans_le hfuel)
      exact ih (s := ⟨s.statusCode, s.headers, s.framing, s.decodedBody ++ content⟩) hrest hframing hstatus

theorem parseBody_advance {s : Progress} (hframing : s.framing.isSome) (input : Bytes) :
    (s.parser method limit input).parseBodyIfAvailable =
      settle method limit false
        (advance (Progress.step method limit) s input) := by
  by_cases hchunked : s.framing = some .chunked ∧ s.statusCode.isSome
  · obtain ⟨hchunked, hstatus⟩ := hchunked
    obtain ⟨status, hstatus⟩ := Option.isSome_iff_exists.mp hstatus
    have hbody : (s.parser method limit input).parseBodyIfAvailable =
        ResponseParser.parseChunked status input.length (s.parser method limit input) := by
      simp only [ResponseParser.parseBodyIfAvailable, Progress.parser, hchunked, hstatus]
    rw [hbody]
    exact parseChunked_advance le_rfl hchunked hstatus
  · rw [advance_eq stable_step]
    fun_cases Progress.step method limit s input <;>
      simp_all [settle, ResponseParser.parseBodyIfAvailable, Progress.parser]

theorem parseHead_step (method : String) (limit : Int) {s : Progress} (input : Bytes)
    (hframing : s.framing = none) : (∃ e, Progress.step method limit s input = .fail e ∧
        (s.parser method limit input).parseHeadIfAvailable = .error e) ∨
      (Progress.step method limit s input = .wait ∧
        (s.parser method limit input).parseHeadIfAvailable =
          .ok (false, s.parser method limit input)) ∨
      ∃ s' rest, Progress.step method limit s input = .next s' rest ∧
        (s.parser method limit input).parseHeadIfAvailable =
          .ok (true, s'.parser method limit rest) := by
  rw [Progress.step, hframing, ResponseParser.parseHeadIfAvailable]
  dsimp only [Progress.parser]
  cases findFirst headEnd input with
  | none =>
    by_cases hlong : maximumHeaderBytes < input.length
    · exact .inl ⟨_, if_pos hlong, if_pos hlong⟩
    · exact .inr (.inl ⟨if_neg hlong, if_neg hlong⟩)
  | some found =>
    dsimp only
    split
    · exact .inl ⟨_, rfl, rfl⟩
    · cases parseHead method limit found.1 with
      | error e => exact .inl ⟨e, rfl, rfl⟩
      | ok said =>
        cases said with
        | none => exact .inr (.inr ⟨s, found.2, rfl, rfl⟩)
        | some said => exact .inr (.inr ⟨_, found.2, rfl, rfl⟩)

theorem parseHeads_advance : ∀ {fuel : Nat} {s : Progress} {input : Bytes}, input.length ≤ fuel →
    (do
      let (available, p) ← (s.parser method limit input).parseHeads fuel
      if !available then pure (none, p) else p.parseBodyIfAvailable) =
    settle method limit false
      (advance (Progress.step method limit) s input) := by
  intro fuel
  induction fuel using Nat.strong_induction_on with
  | _ fuel ih =>
    intro s input hfuel
    rw [ResponseParser.parseHeads]
    cases hframing : s.framing with
    | some framing =>
      have hsome : (s.parser method limit input).framing.isSome = true := by
        show s.framing.isSome = true
        rw [hframing]
        rfl
      rw [if_pos hsome]
      exact parseBody_advance hsome input
    | none =>
      have hnone : ¬ (s.parser method limit input).framing.isSome = true := by
        show ¬ s.framing.isSome = true
        rw [hframing]
        exact Bool.false_ne_true
      rw [if_neg hnone]
      rcases parseHead_step method limit input hframing with
        ⟨e, hstep, hhead⟩ | ⟨hstep, hhead⟩ | ⟨s', rest, hstep, hhead⟩
      · rw [advance_fail hstep, hhead]
        rfl
      · rw [advance_wait hstep, hhead]
        rfl
      · have hshorter := stable_step.shorter hstep
        obtain ⟨fuel, rfl⟩ : ∃ n, fuel = n + 1 := ⟨fuel - 1, by omega⟩
        rw [advance_next stable_step hstep, hhead]
        exact ih fuel (by omega) (by omega)

/-- **A call of `consume` is a call of the machine.** -/
theorem consume_advance (p : ResponseParser) (data : Bytes) (isComplete : Bool) :
    p.consume data isComplete = settle p.requestMethod p.maximumBodyBytes isComplete
      (advance (Progress.step p.requestMethod p.maximumBodyBytes) p.progress (p.buffer ++ data)) := by
  have hparse : _ = settle p.requestMethod p.maximumBodyBytes false
      (advance (Progress.step p.requestMethod p.maximumBodyBytes) p.progress (p.buffer ++ data)) :=
    parseHeads_advance le_rfl
  -- an end without a response is an error, whether a head or a body is missing
  have hconsume : p.consume data isComplete =
      (do
        let (available, q) ← (p.progress.parser p.requestMethod p.maximumBodyBytes
          (p.buffer ++ data)).parseHeads (p.buffer ++ data).length
        if !available then pure (none, q) else q.parseBodyIfAvailable) >>= fun found =>
          if found.1.isNone ∧ isComplete then .error .invalidResponse else pure found := by
    show ((p.progress.parser p.requestMethod p.maximumBodyBytes
      (p.buffer ++ data)).parseHeads (p.buffer ++ data).length >>= _) = _
    cases (p.progress.parser p.requestMethod p.maximumBodyBytes
      (p.buffer ++ data)).parseHeads (p.buffer ++ data).length with
    | error e => rfl
    | ok head =>
      obtain ⟨available, q⟩ := head
      cases available
      · cases isComplete <;> rfl
      · rfl
  rw [hconsume, hparse]
  cases advance (Progress.step p.requestMethod p.maximumBodyBytes) p.progress (p.buffer ++ data) <;>
    cases isComplete <;> rfl

end

/-! ## Segments -/

/-- Every segment but the last gives nothing, and the last one, at the end of the stream, the response. -/
def ResponseParser.Delivers : ResponseParser → List Bytes → ParsedHTTPResponse → Prop
  | _, [], _ => False
  | p, [last], r => ∃ p', p.consume last true = .ok (some r, p')
  | p, segment :: next :: segments, r =>
    ∃ p', p.consume segment false = .ok (none, p') ∧ p'.Delivers (next :: segments) r

def ResponseParser.ReturnsAtOnce (p : ResponseParser) (stream : Bytes) (r : ParsedHTTPResponse) : Prop :=
  ∃ p', p.consume stream true = .ok (some r, p')

variable {r : ParsedHTTPResponse}

theorem returnsAtOnce_of {p : ResponseParser} {stream : Bytes}
    (h : (p.consume stream true).map Prod.fst = .ok (some r)) : p.ReturnsAtOnce stream r := by
  obtain ⟨⟨_, p'⟩, hconsume, rfl⟩ := map_eq_ok.mp h
  exact ⟨p', hconsume⟩

theorem returnsAtOnce_iff {p : ResponseParser} {stream : Bytes} : p.ReturnsAtOnce stream r ↔ ∃ s held,
      advance (Progress.step p.requestMethod p.maximumBodyBytes) p.progress (p.buffer ++ stream) =
        .done r s held := by
  rw [ResponseParser.ReturnsAtOnce, consume_advance]
  cases advance (Progress.step p.requestMethod p.maximumBodyBytes) p.progress (p.buffer ++ stream) <;>
    simp [settle]

theorem consume_none_iff {p q : ResponseParser} {data : Bytes} : p.consume data false = .ok (none, q) ↔
      advance (Progress.step p.requestMethod p.maximumBodyBytes) p.progress (p.buffer ++ data) =
          .wait q.progress q.buffer ∧ q = q.progress.parser p.requestMethod p.maximumBodyBytes q.buffer := by
  rw [consume_advance]
  cases advance (Progress.step p.requestMethod p.maximumBodyBytes) p.progress (p.buffer ++ data) with
  | fail e => simp [settle]
  | done r s held => simp [settle]
  | wait s held =>
    constructor
    · intro h
      cases h
      exact ⟨rfl, rfl⟩
    · rintro ⟨hwait, hq⟩
      cases hwait
      rw [hq]
      rfl

theorem delivers_iff {segments : List Bytes} : ∀ {p : ResponseParser},
    p.Delivers segments r ↔ Incremental.Delivers (Progress.step p.requestMethod p.maximumBodyBytes)
      p.progress p.buffer segments r := by
  induction segments with
  | nil => exact Iff.rfl
  | cons segment segments ih =>
    intro p
    cases segments with
    | nil => exact returnsAtOnce_iff
    | cons next segments =>
      simp only [ResponseParser.Delivers, Incremental.Delivers, consume_none_iff]
      constructor
      · rintro ⟨p', ⟨hwait, hp'⟩, hrest⟩
        rw [ih, hp'] at hrest
        exact ⟨p'.progress, p'.buffer, hwait, hrest⟩
      · rintro ⟨s, held, hwait, hrest⟩
        exact ⟨s.parser p.requestMethod p.maximumBodyBytes held, ⟨hwait, rfl⟩, ih.mpr hrest⟩

/-- The bytes end in a chunk-size line of 128 digits that has its carriage return but not its line feed: what
    is in front of it is heads and chunks that a parser takes completely. -/
def CutsSizeLine (requestMethod : String) (maximumBodyBytes : Int) (front : Bytes) : Prop :=
  ∃ before line p, front = before ++ line ∧ CutSizeLine line ∧
    (ResponseParser.new requestMethod maximumBodyBytes).consume before false = .ok (none, p) ∧
    p.framing = some .chunked ∧ p.buffer = []

section

variable {method : String} {limit : Int}

variable {s : Progress}

def Progress.start : Progress := ⟨none, [], none, []⟩

theorem framed_status {s' : Progress} {input rest : Bytes} (hs : s.framing.isSome → s.statusCode.isSome)
    (h : Progress.step method limit s input = .next s' rest) :
    s'.framing.isSome → s'.statusCode.isSome := by
  revert h
  fun_cases Progress.step method limit s input <;> intro h <;> cases h
  · exact hs
  · exact fun _ => rfl
  · exact hs

theorem findFirst_cutSizeLine {line : Bytes} (h : CutSizeLine line) : findFirst crlf line = none := by
  obtain ⟨digits, _, hdigits, rfl⟩ := h
  rw [findFirst_eq_none]
  intro hinfix
  -- a line feed is no digit and no carriage return
  have hmem : (0x0A : UInt8) ∈ digits ++ [0x0D] := hinfix.subset (by decide)
  rcases List.mem_append.mp hmem with hmem | hmem
  · exact absurd (List.all_eq_true.mp hdigits _ hmem) (by decide)
  · exact absurd hmem (by decide)

theorem cut_fails {line : Bytes} (hframing : s.framing = some .chunked)
    (hstatus : s.statusCode.isSome) (hline : CutSizeLine line) :
    advance (Progress.step method limit) s line = .fail .invalidResponse := by
  obtain ⟨status, hstatus⟩ := Option.isSome_iff_exists.mp hstatus
  have hlong : 128 < line.length := by
    obtain ⟨digits, hlength, _, rfl⟩ := hline
    simp [hlength]
  apply advance_fail
  rw [Progress.step, hframing, hstatus]
  rw [readChunk, findFirst_cutSizeLine hline]
  dsimp only
  rw [if_pos hlong]

theorem chunked_waits (hframing : s.framing = some .chunked) :
    advance (Progress.step method limit) s [] = .wait s [] := by
  apply advance_wait
  rw [Progress.step, hframing]
  cases s.statusCode <;> rfl

theorem cutsSizeLine_iff {front : Bytes} : CutsSizeLine method limit front ↔
    ∃ read s line, front = read ++ line ∧ s.framing = some .chunked ∧ CutSizeLine line ∧
      advance (Progress.step method limit) .start read = .wait s [] := by
  constructor
  · rintro ⟨read, line, p, hfront, hline, hconsume, hframing, hbuffer⟩
    have hread : advance (Progress.step method limit) .start ([] ++ read) =
        .wait p.progress p.buffer := (consume_none_iff.mp hconsume).1
    rw [hbuffer, List.nil_append] at hread
    exact ⟨read, p.progress, line, hfront, hframing, hline, hread⟩
  · rintro ⟨read, s, line, hfront, hframing, hline, hread⟩
    exact ⟨read, line, s.parser method limit [], hfront, hline,
      consume_none_iff.mpr ⟨hread, rfl⟩, hframing, rfl⟩

/-- **Cuts are harmless exactly where they spare the long size lines.** -/
theorem segments_deliver_iff (requestMethod : String) (maximumBodyBytes : Int) {segments : List Bytes}
    (hsegments : ∀ segment ∈ segments, segment ≠ []) (r : ParsedHTTPResponse) :
    (ResponseParser.new requestMethod maximumBodyBytes).Delivers segments r ↔
      (ResponseParser.new requestMethod maximumBodyBytes).ReturnsAtOnce segments.flatten r ∧
        ∀ before after_, segments = before ++ after_ → before ≠ [] → after_ ≠ [] →
          ¬ CutsSizeLine requestMethod maximumBodyBytes before.flatten := by
  have hdelivers : (ResponseParser.new requestMethod maximumBodyBytes).Delivers segments r ↔
      Delivers (Progress.step requestMethod maximumBodyBytes) .start [] segments r := delivers_iff
  have hreturns : (ResponseParser.new requestMethod maximumBodyBytes).ReturnsAtOnce segments.flatten r ↔
      ∃ s held, advance (Progress.step requestMethod maximumBodyBytes) .start ([] ++ segments.flatten) =
        .done r s held :=
    returnsAtOnce_iff
  rw [hdelivers, hreturns]
  simp only [cutsSizeLine_iff]
  constructor
  · intro h
    refine ⟨delivers_whole stable_step h, ?_⟩
    rintro before after_ rfl hbefore hafter ⟨read, s, line, hfront, hframing, hline, hread⟩
    have hstatus := advance_rule (@stable_step requestMethod maximumBodyBytes)
      (fun _ (s : Progress) => s.framing.isSome → s.statusCode.isSome) (fun _ _ => True) framed_status
      (fun _ _ => trivial) [] .start read (fun h => absurd h (by decide))
    rw [hread] at hstatus
    obtain ⟨-, -, hstatus⟩ := hstatus
    -- the call that ends at the cut would have failed
    have hfail := advance_resume stable_step hread line
    rw [List.nil_append, cut_fails hframing (hstatus (by rw [hframing]; rfl)) hline, ← hfront] at hfail
    obtain ⟨s', held', hwait⟩ := delivers_waits stable_step h hbefore hafter
    rw [List.nil_append, hfail] at hwait
    cases hwait
  · rintro ⟨hwhole, hcuts⟩
    have hnonempty : segments ≠ [] := by
      rintro rfl
      have hnothing : advance (Progress.step requestMethod maximumBodyBytes) .start [] =
          .wait .start [] := advance_wait rfl
      simp [hnothing] at hwhole
    refine delivers_segments stable_step hnonempty hsegments hwhole ?_
    rintro before after_ hsplit hbefore hafter ⟨read, s, line, hfront, hreads, hframing, hline⟩
    have hread := hreads []
    rw [chunked_waits hframing, List.append_nil] at hread
    exact hcuts before after_ hsplit hbefore hafter ⟨read, s, line, hfront, hframing, hline, hread⟩

end

/-- A cut between the carriage return and the line feed of a short size line is harmless. -/
theorem short_size_line_delivers :
    let front := ascii "HTTP/1.1 200 OK\r\nTransfer-Encoding: chunked\r\n\r\n1\r"
    let back := ascii "\nx\r\n0\r\n\r\n"
    let response : ParsedHTTPResponse := ⟨200, [("Transfer-Encoding".toList, "chunked".toList)], ascii "x"⟩
    (ResponseParser.new "GET" 1).ReturnsAtOnce (front ++ back) response ∧
      (ResponseParser.new "GET" 1).Delivers [front, back] response := by
  intro front back response
  have honce : (ResponseParser.new "GET" 1).ReturnsAtOnce [front, back].flatten response :=
    returnsAtOnce_of (by decide +kernel)
  have hshort : front.length < 128 := by decide +kernel
  refine ⟨by simpa using honce, (segments_deliver_iff "GET" 1 (by decide +kernel) response).mpr ⟨honce, ?_⟩⟩
  rintro before after_ hsplit hbefore hafter ⟨read, line, p, hfront, ⟨digits, hdigits, _, rfl⟩, _⟩
  obtain ⟨first, rest, rfl⟩ := List.exists_cons_of_ne_nil hbefore
  -- the only cut is between the two segments
  obtain ⟨hfirst, hrest⟩ := List.cons.inj hsplit
  have hnil : rest = [] := by
    rcases rest with _ | ⟨second, others⟩
    · rfl
    · obtain ⟨-, hothers⟩ := List.cons.inj hrest
      exact (hafter (List.append_eq_nil_iff.mp hothers.symm).2).elim
  subst hfirst hnil
  have hlength := congrArg List.length hfront
  simp only [List.flatten_cons, List.flatten_nil, List.append_nil, List.length_append,
    List.length_singleton] at hlength
  omega

/-! ## The cut that matters -/

def longSizeFront : Bytes :=
  ascii "HTTP/1.1 200 OK\r\nTransfer-Encoding: chunked\r\n\r\n" ++ List.replicate 127 0x30 ++ ascii "1\r"

def longSizeBack : Bytes := ascii "\nx\r\n0\r\n\r\n"

def longSizeResponse : ParsedHTTPResponse :=
  ⟨200, [("Transfer-Encoding".toList, "chunked".toList)], ascii "x"⟩

/-- At once the stream is a response; cut inside the end of its size line, its first half is refused. -/
theorem cut_size_line_refused : (∀ segment ∈ [longSizeFront, longSizeBack], segment ≠ []) ∧
      (ResponseParser.new "GET" 1).ReturnsAtOnce [longSizeFront, longSizeBack].flatten longSizeResponse ∧
      (ResponseParser.new "GET" 1).consume longSizeFront false = .error .invalidResponse ∧
      ¬ (ResponseParser.new "GET" 1).Delivers [longSizeFront, longSizeBack] longSizeResponse := by
  have hrefused : (ResponseParser.new "GET" 1).consume longSizeFront false = .error .invalidResponse := by
    decide +kernel
  have honce : ((ResponseParser.new "GET" 1).consume [longSizeFront, longSizeBack].flatten true).map
      Prod.fst = .ok (some longSizeResponse) := by
    decide +kernel
  refine ⟨by decide +kernel, ?_, hrefused, ?_⟩
  · exact returnsAtOnce_of honce
  · rintro ⟨p', hp', _⟩
    rw [hrefused] at hp'
    cases hp'

end Bondry.Apple
