/-
  THE BOUNDED HTTP/1 RESPONSE PARSER of the Apple transport (`BoundedHTTP1ResponseParser.swift`).

  `consume` is called with what the connection delivered and with whether that was the end.  It appends to
  its buffer, parses heads until one is not informational, and then the body by that head's framing: nothing,
  a length, or chunks.  Complete chunks are moved out of the buffer as they arrive.

  A head is checked to be printable ASCII before it is decoded, so its text is its bytes.
-/
import Bondry.Contract.Identifier
import Bondry.Lib.Encoding
import Bondry.Lib.Except
import Bondry.Lib.Search

namespace Bondry.Apple

open Encoding Search

/-! ## Types -/

/-- The cases of `BondryHTTPTransportError` that the parser throws. -/
inductive TransportError where
  | responseTooLarge
  | redirectDenied
  | invalidResponse
  deriving DecidableEq, Repr

structure ParsedHTTPResponse where
  statusCode : Int
  headers : List (Text × Text)
  body : Bytes
  deriving DecidableEq

inductive Framing where
  | contentLength (length : Nat)
  | chunked
  | empty
  deriving DecidableEq

/-- `BoundedHTTP1ResponseParser`. -/
structure ResponseParser where
  requestMethod : String
  maximumBodyBytes : Int
  buffer : Bytes
  statusCode : Option Int
  headers : List (Text × Text)
  framing : Option Framing
  decodedBody : Bytes
  deriving DecidableEq

/-- `init(requestMethod:maximumBodyBytes:)`. -/
def ResponseParser.new (requestMethod : String) (maximumBodyBytes : Int) : ResponseParser :=
  ⟨requestMethod, maximumBodyBytes, [], none, [], none, []⟩

/-- `BondryHTTPRequest.maximumHeaderBytes`. -/
def maximumHeaderBytes : Nat := 16 * 1024

/-- `BondryHTTPRequest.maximumHeaders`. -/
def maximumHeaders : Nat := 64

def crlf : Bytes := [0x0D, 0x0A]

def headEnd : Bytes := [0x0D, 0x0A, 0x0D, 0x0A]

/-! ## Numbers -/

/-- `Int.max`. -/
def intMax : Nat := 2 ^ 63 - 1

def digitsValue (base : Nat) (digits : List Nat) : Nat := digits.foldl (fun n d => n * base + d) 0

/-- `$0.isASCII && $0.isNumber`. -/
def isAsciiNumber (c : Char) : Bool := decide ('0' ≤ c ∧ c ≤ '9')

/-- `Int(_:)`: an optional sign and digits, within the range of the type. -/
def parseInt (text : Text) : Option Int :=
  let parse (digits : Text) (bound : Nat) : Option Nat :=
    if digits = [] ∨ !digits.all isAsciiNumber then none
    else
      let value := digitsValue 10 (digits.map fun c => c.toNat - 48)
      if bound < value then none else some value
  match text with
  | '-' :: digits => (parse digits (intMax + 1)).map fun n => -(n : Int)
  | '+' :: digits => (parse digits intMax).map Int.ofNat
  | digits => (parse digits intMax).map Int.ofNat

def hexDigitValue (b : UInt8) : Nat :=
  if b ≤ 0x39 then b.toNat - 0x30 else if b ≤ 0x46 then b.toNat - 0x37 else b.toNat - 0x57

/-- `Int(_:radix:)` of hexadecimal digits. -/
def parseHex (digits : Bytes) : Option Nat :=
  let value := digitsValue 16 (digits.map hexDigitValue)
  if digits = [] ∨ intMax < value then none else some value

/-! ## Heads -/

/-- `validHeadBytes`: tabs, printable ASCII, and carriage returns in front of line feeds. -/
def validHeadBytes : Bytes → Bool
  | [] => true
  | [b] => decide (b = 0x09 ∨ (0x20 ≤ b ∧ b ≤ 0x7E))
  | b :: c :: rest =>
    if b = 0x0D then decide (c = 0x0A) && validHeadBytes rest
    else decide (b = 0x09 ∨ (0x20 ≤ b ∧ b ≤ 0x7E)) && validHeadBytes (c :: rest)

/-- `String(decoding:as:)` of ASCII. -/
def decodeAscii (bytes : Bytes) : Text := bytes.map fun b => Char.ofNat b.toNat

/-- `components(separatedBy: "\r\n")`. -/
def components : Text → List Text
  | [] => [[]]
  | [c] => [[c]]
  | c :: d :: rest =>
    if c = '\r' ∧ d = '\n' then [] :: components rest
    else
      match components (d :: rest) with
      | [] => [[c]]
      | first :: others => (c :: first) :: others

/-- `split(separator:maxSplits:omittingEmptySubsequences: true)`. -/
def splitOmittingEmpty (separator : Char) : Nat → Text → List Text
  | 0, text => if text = [] then [] else [text]
  | splits + 1, text =>
    match text.dropWhile (· = separator) with
    | [] => []
    | text =>
      text.takeWhile (· ≠ separator) ::
        splitOmittingEmpty separator splits ((text.dropWhile (· ≠ separator)).drop 1)

def parseStatusLine (statusLine : Text) : Except TransportError Int :=
  match splitOmittingEmpty ' ' 2 statusLine with
  | version :: code :: _ =>
    match parseInt code with
    | none => .error .invalidResponse
    | some status =>
      if version = "HTTP/1.1".toList ∧ code.length = 3 ∧ code.all isAsciiNumber ∧
          (100 ≤ status ∧ status ≤ 599) ∧ ¬ (300 ≤ status ∧ status ≤ 399) then .ok status
      else if 300 ≤ status ∧ status ≤ 399 then .error .redirectDenied
      else .error .invalidResponse
  | _ => .error .invalidResponse

def isHttpToken (c : Char) : Bool :=
  isAsciiNumber c || decide ('A' ≤ c ∧ c ≤ 'Z') || decide ('a' ≤ c ∧ c ≤ 'z') ||
    c ∈ ['!', '#', '$', '%', '&', '\x27', '*', '+', '-', '.', '^', '_', '\x60', '|', '~']

/-- `trimmingCharacters(in: .whitespaces)` of ASCII. -/
def trimWhitespace (text : Text) : Text :=
  let isSpace (c : Char) : Bool := decide (c = ' ' ∨ c = '\t')
  ((text.dropWhile isSpace).reverse.dropWhile isSpace).reverse

def parseHeader (line : Text) : Except TransportError (Text × Text) :=
  if line.head? = some ' ' ∨ line.head? = some '\t' then .error .invalidResponse
  else
    match findFirst [':'] line with
    | none => .error .invalidResponse
    | some (name, value) =>
      if name = [] ∨ !name.all isHttpToken then .error .invalidResponse
      else .ok (name, trimWhitespace value)

/-- `parseHeaders`: the list.  The dictionary is `fieldValues`. -/
def parseHeaders (lines : List Text) : Except TransportError (List (Text × Text)) :=
  if maximumHeaders < lines.length then .error .responseTooLarge else lines.mapM parseHeader

/-- `fields[name] ?? []`. -/
def fieldValues (headers : List (Text × Text)) (name : String) : List Text :=
  (headers.filter fun header => header.1.map Char.toLower = name.toList).map Prod.snd

/-- `framing(method:status:fields:maximumBodyBytes:)`. -/
def chooseFraming (method : String) (status : Int) (headers : List (Text × Text))
    (maximumBodyBytes : Int) : Except TransportError Framing :=
  if method = "HEAD" ∨ (100 ≤ status ∧ status ≤ 199) ∨ status = 204 ∨ status = 304 then .ok .empty
  else
    match fieldValues headers "content-length", fieldValues headers "transfer-encoding" with
    | _ :: _, _ :: _ => .error .invalidResponse
    | [value], [] =>
      if !value.all isAsciiNumber then .error .invalidResponse
      else
        match parseInt value with
        | none => .error .invalidResponse
        | some length =>
          if maximumBodyBytes < length then .error .responseTooLarge
          else .ok (.contentLength length.toNat)
    | _ :: _ :: _, [] => .error .invalidResponse
    | [], [value] =>
      if value.map Char.toLower = "chunked".toList then .ok .chunked else .error .invalidResponse
    | [], _ => .error .invalidResponse

/-- What a complete head says: nothing that lasts if it is informational. -/
def parseHead (requestMethod : String) (maximumBodyBytes : Int) (head : Bytes) :
    Except TransportError (Option (Int × List (Text × Text) × Framing)) :=
  if !validHeadBytes head then .error .invalidResponse
  else
    match components (decodeAscii head) with
    | [] => .error .invalidResponse
    | statusLine :: lines => do
        let status ← parseStatusLine statusLine
        let headers ← parseHeaders lines
        if 100 ≤ status ∧ status ≤ 199 then
          if status = 101 then .error .invalidResponse else pure none
        else do
          let framing ← chooseFraming requestMethod status headers maximumBodyBytes
          pure (some (status, headers, framing))

def ResponseParser.parseHeadIfAvailable (p : ResponseParser) :
    Except TransportError (Bool × ResponseParser) :=
  match findFirst headEnd p.buffer with
  | none =>
    if maximumHeaderBytes < p.buffer.length then .error .responseTooLarge else .ok (false, p)
  | some (head, rest) =>
    if maximumHeaderBytes < head.length + headEnd.length then .error .responseTooLarge
    else do
      match ← parseHead p.requestMethod p.maximumBodyBytes head with
      | none => pure (true, { p with buffer := rest })
      | some (status, headers, framing) =>
        pure (true, { p with
          buffer := rest, statusCode := some status, headers := headers, framing := some framing })

/-- The loop of `consume`: heads until one frames a body.  Every head takes bytes out of the buffer, so
    its length is enough fuel. -/
def ResponseParser.parseHeads : Nat → ResponseParser → Except TransportError (Bool × ResponseParser)
  | fuel, p =>
    if p.framing.isSome then .ok (true, p)
    else do
      let (available, p) ← p.parseHeadIfAvailable
      if !available then pure (false, p)
      else
        match fuel with
        | 0 => pure (false, p)
        | fuel + 1 => parseHeads fuel p

/-! ## Bodies -/

inductive ChunkRound where
  | throws (error : TransportError)
  | incomplete
  | last
  | chunk (content rest : Bytes)

def readSize (sizeBytes : Bytes) : Option Nat :=
  if sizeBytes.length = 0 ∨ 128 < sizeBytes.length ∨ !sizeBytes.all isHexDigit then none
  else parseHex sizeBytes

/-- The part of a round behind the size, with so many bytes decoded before. -/
def readContent (maximumBodyBytes : Int) (decoded size : Nat) (input : Bytes) : ChunkRound :=
  if size = 0 then
    if input.length < 2 then .incomplete
    else if input.take 2 = crlf ∧ input.length = 2 then .last
    else .throws .invalidResponse
  else if maximumBodyBytes - decoded < size then .throws .responseTooLarge
  else if input.length < size + 2 then .incomplete
  else if (input.drop size).take 2 = crlf then .chunk (input.take size) (input.drop (size + 2))
  else .throws .invalidResponse

/-- One round of the loop of `parseChunked`, over the buffer from `offset` on. -/
def readChunk (maximumBodyBytes : Int) (decoded : Nat) (input : Bytes) : ChunkRound :=
  match findFirst crlf input with
  | none => if 128 < input.length then .throws .invalidResponse else .incomplete
  | some (sizeBytes, content) =>
    match readSize sizeBytes with
    | none => .throws .invalidResponse
    | some size => readContent maximumBodyBytes decoded size content

/-- `parseChunked`.  The buffer loses the chunks that were read, whatever ends the loop. -/
def ResponseParser.parseChunked (statusCode : Int) : Nat → ResponseParser →
    Except TransportError (Option ParsedHTTPResponse × ResponseParser)
  | fuel, p =>
    match readChunk p.maximumBodyBytes p.decodedBody.length p.buffer with
    | .throws error => .error error
    | .incomplete => .ok (none, p)
    | .last => .ok (some ⟨statusCode, p.headers, p.decodedBody⟩, p)
    | .chunk content rest =>
      let p := { p with buffer := rest, decodedBody := p.decodedBody ++ content }
      match fuel with
      | 0 => .ok (none, p)
      | fuel + 1 => parseChunked statusCode fuel p

def ResponseParser.parseBodyIfAvailable (p : ResponseParser) :
    Except TransportError (Option ParsedHTTPResponse × ResponseParser) :=
  match p.statusCode, p.framing with
  | some statusCode, some .empty =>
    if p.buffer = [] then .ok (some ⟨statusCode, p.headers, []⟩, p) else .error .invalidResponse
  | some statusCode, some (.contentLength length) =>
    if p.buffer.length < length then .ok (none, p)
    else if p.buffer.length = length then .ok (some ⟨statusCode, p.headers, p.buffer⟩, p)
    else .error .invalidResponse
  | some statusCode, some .chunked => p.parseChunked statusCode p.buffer.length
  | _, _ => .ok (none, p)

/-- `consume(_:isComplete:)`. -/
def ResponseParser.consume (p : ResponseParser) (data : Bytes) (isComplete : Bool) :
    Except TransportError (Option ParsedHTTPResponse × ResponseParser) := do
  let p := { p with buffer := p.buffer ++ data }
  let (available, p) ← p.parseHeads p.buffer.length
  if !available then
    if isComplete then .error .invalidResponse else pure (none, p)
  else do
    let (response, p) ← p.parseBodyIfAvailable
    if response.isNone ∧ isComplete then .error .invalidResponse else pure (response, p)

end Bondry.Apple
