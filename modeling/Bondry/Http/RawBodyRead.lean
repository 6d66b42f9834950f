/-
  READING A RAW-BODY REQUEST (`server.rs`: `select_raw_body_headers`, `read_raw_body`).

  Two loops stand between an accepted request and its handler.

  * The HEADERS of the route's allowlist are copied name by name, duplicates included, under three
    limits.  A request that exceeds one is refused: nothing is dropped silently (`selected_values`).
  * The BODY is read frame by frame.  A size hint above the limit refuses it before anything is reserved;
    then the route's whole retained budget is taken from the server's semaphore, and every frame is
    checked before it is appended.  A body in one frame is handed on without a copy: `first` holds that
    frame until a second one arrives and `output` takes over.
-/
import Bondry.Contract.Identifier
import Bondry.Contract.Limits
import Bondry.Lib.Encoding
import Bondry.Lib.Except

namespace Bondry.Http

open Encoding

/-! ## Limits -/

structure RawBodyHandlerLimits where
  bodyBytes : Nat
  retainedBytes : Nat
  selectedHeaderBytes : Nat
  selectedHeadersBytes : Nat
  bodyBytes_mem : 1024 ≤ bodyBytes ∧ bodyBytes ≤ 4 * 1024 * 1024
  retainedBytes_mem : bodyBytes ≤ retainedBytes ∧ retainedBytes ≤ 10 * 1024 * 1024
  selectedHeaderBytes_mem : 0 < selectedHeaderBytes ∧ selectedHeaderBytes ≤ 8 * 1024
  selectedHeadersBytes_mem : 0 < selectedHeadersBytes ∧ selectedHeadersBytes ≤ 64 * 1024
  deriving DecidableEq

def RawBodyHandlerLimits.standard : RawBodyHandlerLimits :=
  ⟨1048576, 3 * 1048576, 2 * 1024, 32 * 1024, by decide, by decide, by decide, by decide⟩

/-- `MAX_SELECTED_HEADERS` of the server. -/
def maxSelectedHeaders : Nat := 32

/-! ## Headers -/

abbrev Selection := Nat × List (String × Bytes)

def selectValue (limits : RawBodyHandlerLimits) (name : String) (selection : Selection)
    (value : Bytes) : Option Selection :=
  if maxSelectedHeaders ≤ selection.2.length ∨ limits.selectedHeaderBytes < value.length then none
  else
    let aggregate := selection.1 + name.utf8ByteSize + value.length
    -- the sums are `checked_add`
    if u64Max < aggregate ∨ limits.selectedHeadersBytes < aggregate then none
    else some (aggregate, selection.2 ++ [(name, value)])

def selectRawBodyHeaders (limits : RawBodyHandlerLimits) (names : List String)
    (headers : List (String × Bytes)) : Option (List (String × Bytes)) :=
  (names.foldlM (fun selection name => (fieldValues headers name).foldlM (selectValue limits name) selection)
    (0, [])).map Prod.snd

/-! ## Frames -/

/-- What the body stream delivers: data, trailers, or a transport error. -/
inductive Frame where
  | data (bytes : Bytes)
  | trailers
  | error
  deriving DecidableEq

inductive BodyReadError where
  | tooLarge
  | invalid
  | capacity
  deriving DecidableEq, Repr

structure BodyBuffer where
  first : Option Bytes
  output : Option Bytes
  length : Nat

def BodyBuffer.empty : BodyBuffer := ⟨none, none, 0⟩

def BodyBuffer.push (limit : Nat) (buffer : BodyBuffer) : Frame → Except BodyReadError BodyBuffer
  | .error | .trailers => .error .invalid
  | .data data =>
    let length := buffer.length + data.length
    if u64Max < length ∨ limit < length then .error .tooLarge
    else
      match buffer.output, buffer.first with
      | some output, first => .ok ⟨first, some (output ++ data), length⟩
      | none, some initial => .ok ⟨none, some (initial ++ data), length⟩
      | none, none => .ok ⟨some data, none, length⟩

def BodyBuffer.body (buffer : BodyBuffer) : Bytes := buffer.output.getD (buffer.first.getD [])

def u32Max : Nat := 2 ^ 32 - 1

/-- `reserve_retained_bytes`: the permits taken from a semaphore with `available` permits. -/
def reserveRetainedBytes (available bytes : Nat) : Except BodyReadError Nat :=
  if u32Max < bytes then .error .tooLarge
  else if available < bytes then .error .capacity
  else .ok bytes

/-- `read_raw_body` up to its loop: the size hint and the reservation. -/
def startRead (limit lifecycleRetainedBytes : Nat) (expectedLength : Option Nat) (available : Nat) :
    Except BodyReadError Nat :=
  if expectedLength.any (limit < ·) then .error .tooLarge
  else reserveRetainedBytes available lifecycleRetainedBytes

/-- `read_raw_body`: the body and the permits it holds. -/
def readRawBody (limit lifecycleRetainedBytes : Nat) (expectedLength : Option Nat) (available : Nat)
    (frames : List Frame) : Except BodyReadError (Bytes × List Nat) := do
  let permit ← startRead limit lifecycleRetainedBytes expectedLength available
  let buffer ← frames.foldlM (BodyBuffer.push limit) .empty
  pure (buffer.body, [permit])

/-! ## What the selection keeps -/

section

variable {limits : RawBodyHandlerLimits} {name : String} {selection selection' : Selection}

theorem selectValue_eq {value : Bytes} (h : selectValue limits name selection value = some selection') :
    selection'.2 = selection.2 ++ [(name, value)] := by
  unfold selectValue at h
  split at h
  · cases h
  · dsimp only at h
    split at h <;> cases h
    rfl

theorem selectValues_eq {values : List Bytes}
    (h : values.foldlM (selectValue limits name) selection = some selection') :
    selection'.2 = selection.2 ++ values.map fun value => (name, value) := by
  induction values generalizing selection with
  | nil =>
    cases h
    simp
  | cons value values ih =>
    rw [List.foldlM_cons] at h
    obtain ⟨next, hnext, hrest⟩ := Option.bind_eq_some_iff.mp h
    rw [ih hrest, selectValue_eq hnext]
    simp

theorem selectNames_eq {names : List String} {headers : List (String × Bytes)}
    (h : names.foldlM (fun selection name =>
      (fieldValues headers name).foldlM (selectValue limits name) selection) selection = some selection') :
    selection'.2 = selection.2 ++
      names.flatMap fun name => (fieldValues headers name).map fun value => (name, value) := by
  induction names generalizing selection with
  | nil =>
    cases h
    simp
  | cons name names ih =>
    rw [List.foldlM_cons] at h
    obtain ⟨next, hnext, hrest⟩ := Option.bind_eq_some_iff.mp h
    rw [ih hrest, selectValues_eq hnext]
    simp

theorem fieldValues_append (headers headers' : List (String × Bytes)) (name : String) :
    fieldValues (headers ++ headers') name = fieldValues headers name ++ fieldValues headers' name := by
  simp [fieldValues]

theorem fieldValues_named (values : List Bytes) (name other : String) :
    fieldValues (values.map fun value => (name, value)) other = if name = other then values else [] := by
  by_cases h : name = other
  · simp [fieldValues, List.filter_map, Function.comp_def, h]
  · simp [fieldValues, List.filter_map, Function.comp_def, h]

/-- **No selected value is hidden**: every name of a duplicate-free allowlist keeps its values in order. -/
theorem selected_values {names : List String} {headers selected : List (String × Bytes)}
    (hnodup : names.Nodup) (h : selectRawBodyHeaders limits names headers = some selected)
    (hname : name ∈ names) : fieldValues selected name = fieldValues headers name := by
  obtain ⟨final, hfinal, hselected⟩ := Option.map_eq_some_iff.mp h
  have hflat := selectNames_eq hfinal
  rw [hselected, List.nil_append] at hflat
  rw [hflat]
  clear hflat hfinal h
  -- outside the allowlist nothing is selected, so the block of `name` is found exactly once
  have habsent : ∀ rest : List String, name ∉ rest → fieldValues (rest.flatMap fun other =>
      (fieldValues headers other).map fun value => (other, value)) name = [] := by
    intro rest hrest
    induction rest with
    | nil => rfl
    | cons other rest ih =>
      rw [List.flatMap_cons, fieldValues_append, fieldValues_named, ih (List.not_mem_of_not_mem_cons hrest),
        if_neg (Ne.symm (List.ne_of_not_mem_cons hrest)), List.nil_append]
  induction names with
  | nil => cases hname
  | cons other rest ih =>
    obtain ⟨hother, hrest⟩ := List.nodup_cons.mp hnodup
    rw [List.flatMap_cons, fieldValues_append, fieldValues_named]
    rcases List.mem_cons.mp hname with rfl | hmem
    · rw [if_pos rfl, habsent rest hother, List.append_nil]
    · have hne : other ≠ name := fun heq => hother (heq ▸ hmem)
      rw [if_neg hne, List.nil_append, ih hrest hmem]

end

/-! ## What the reader returns -/

def Frame.bytes : Frame → Bytes
  | .data bytes => bytes
  | .trailers | .error => []

def Frame.isData : Frame → Bool
  | .data _ => true
  | .trailers | .error => false

def dataOf (frames : List Frame) : Bytes := frames.flatMap Frame.bytes

/-- A size hint is truthful when a body that arrives whole has that size. -/
def TruthfulHint (expectedLength : Option Nat) (frames : List Frame) : Prop :=
  ∀ expected, expectedLength = some expected → frames.all Frame.isData → (dataOf frames).length = expected

/-- The loop counts what it holds, and holds no more than the limit. -/
structure BodyBuffer.Ok (limit : Nat) (buffer : BodyBuffer) : Prop where
  length : buffer.length = buffer.body.length
  fits : buffer.body.length ≤ limit

theorem BodyBuffer.ok_empty (limit : Nat) : BodyBuffer.empty.Ok limit := ⟨rfl, Nat.zero_le limit⟩

/-- **One data frame** is appended if it still fits. -/
theorem BodyBuffer.push_data {limit : Nat} {buffer : BodyBuffer} (hlimit : limit ≤ u64Max)
    (hok : buffer.Ok limit) (data : Bytes) : ∃ buffer' : BodyBuffer, buffer'.body = buffer.body ++ data ∧
      buffer'.length = buffer'.body.length ∧ buffer.push limit (.data data) =
        if limit < (buffer.body ++ data).length then .error .tooLarge else .ok buffer' := by
  -- the count is the length of what is held, so both checks are one
  have hcheck : (u64Max < buffer.length + data.length ∨ limit < buffer.length + data.length) ↔
      limit < (buffer.body ++ data).length := by
    rw [hok.length, List.length_append]
    omega
  have hlength : buffer.length + data.length = (buffer.body ++ data).length := by
    rw [hok.length, List.length_append]
  obtain ⟨first, output, length⟩ := buffer
  simp only [BodyBuffer.push, hcheck]
  cases output with
  | some output => exact ⟨⟨first, some (output ++ data), _⟩, rfl, hlength, rfl⟩
  | none =>
    cases first with
    | some initial => exact ⟨⟨none, some (initial ++ data), _⟩, rfl, hlength, rfl⟩
    | none => exact ⟨⟨some data, none, _⟩, rfl, hlength, rfl⟩

/-- **The loop** goes through exactly when every frame is data and the total fits, and it has then put
    the frames together. -/
theorem BodyBuffer.pushAll_eq_ok {limit : Nat} (hlimit : limit ≤ u64Max) (frames : List Frame) :
    ∀ {buffer : BodyBuffer}, buffer.Ok limit → ∀ body : Bytes,
      (∃ buffer', frames.foldlM (BodyBuffer.push limit) buffer = .ok buffer' ∧ buffer'.body = body) ↔
        frames.all Frame.isData ∧ (buffer.body ++ dataOf frames).length ≤ limit ∧
          body = buffer.body ++ dataOf frames := by
  induction frames with
  | nil =>
    intro buffer hok body
    constructor
    · rintro ⟨buffer', h, rfl⟩
      cases h
      simp [dataOf, hok.fits]
    · rintro ⟨_, _, rfl⟩
      exact ⟨buffer, rfl, by simp [dataOf]⟩
  | cons frame frames ih =>
    intro buffer hok body
    rw [List.foldlM_cons]
    cases frame with
    | trailers => simp [BodyBuffer.push, Frame.isData, bind, Except.bind]
    | error => simp [BodyBuffer.push, Frame.isData, bind, Except.bind]
    | data data =>
      obtain ⟨next, hbody, hlength, hpush⟩ := BodyBuffer.push_data hlimit hok data
      have hdata : buffer.body ++ dataOf (.data data :: frames) =
          (buffer.body ++ data) ++ dataOf frames := by simp [dataOf, Frame.bytes]
      rw [hpush, hdata]
      by_cases hfits : limit < (buffer.body ++ data).length
      · -- what is too long now stays too long
        rw [if_pos hfits]
        constructor
        · rintro ⟨buffer', h, _⟩
          cases h
        · rintro ⟨_, htotal, _⟩
          rw [List.length_append] at htotal
          omega
      · rw [if_neg hfits]
        have hnext : next.Ok limit := ⟨hlength, by rw [hbody]; omega⟩
        have hrest := ih hnext body
        rw [hbody] at hrest
        simpa [Frame.isData, bind, Except.bind] using hrest

theorem reserveRetainedBytes_eq_ok {available bytes permit : Nat} :
    reserveRetainedBytes available bytes = .ok permit ↔
      permit = bytes ∧ bytes ≤ u32Max ∧ bytes ≤ available := by
  unfold reserveRetainedBytes
  split
  · simp; omega
  · split
    · simp; omega
    · simp; omega

/-- **What `read_raw_body` returns.** -/
theorem readRawBody_eq_ok {limit retained available : Nat} {expectedLength : Option Nat}
    {frames : List Frame} (hlimit : limit ≤ u64Max) (htruth : TruthfulHint expectedLength frames)
    (body : Bytes) (permits : List Nat) :
    readRawBody limit retained expectedLength available frames = .ok (body, permits) ↔
      body = dataOf frames ∧ permits = [retained] ∧ frames.all Frame.isData ∧ (dataOf frames).length ≤ limit ∧
        reserveRetainedBytes available retained = .ok retained := by
  have hloop := BodyBuffer.pushAll_eq_ok hlimit frames (BodyBuffer.ok_empty limit) body
  have hempty : BodyBuffer.empty.body = [] := rfl
  rw [hempty, List.nil_append] at hloop
  constructor
  · intro h
    obtain ⟨permit, hstart, h⟩ := bind_ok h
    obtain ⟨buffer, hbuffer, h⟩ := bind_ok h
    cases h
    obtain ⟨hall, hfits, hbody⟩ := hloop.mp ⟨buffer, hbuffer, rfl⟩
    unfold startRead at hstart
    split at hstart
    · cases hstart
    · obtain ⟨rfl, hbytes⟩ := reserveRetainedBytes_eq_ok.mp hstart
      exact ⟨hbody, rfl, hall, hfits, hstart⟩
  · rintro ⟨hbody, rfl, hall, hfits, hreserve⟩
    obtain ⟨buffer, hbuffer, rfl⟩ := hloop.mpr ⟨hall, hfits, hbody⟩
    -- a truthful hint is the total, which fits
    have hhint : expectedLength.any (limit < ·) = false := by
      cases expectedLength with
      | none => rfl
      | some expected =>
        have hexpected := htruth expected rfl hall
        simp only [Option.any_some, decide_eq_false_iff_not]
        omega
    have hstart : startRead limit retained expectedLength available = .ok retained := by
      rw [startRead, hhint]
      exact hreserve
    rw [readRawBody, hstart]
    show (frames.foldlM (BodyBuffer.push limit) .empty >>= fun buffer => pure (buffer.body, [retained])) = _
    rw [hbuffer]
    rfl

end Bondry.Http
