/-
  JSON TEXTS.

  A document is a TREE that keeps what the text says: a number is its text, and the members of an object
  stand in the order of the text, repeated names included.  A text is read in two passes, each a machine
  that is stepped once for every symbol:

  * `Lexer` turns characters into tokens: escapes are resolved, numbers are checked, white space is dropped;
  * `Reader` turns tokens into a tree, with the open containers on a stack and at most 127 of them.

  A document is written without white space, with the shortest escapes.
-/
import Bondry.Lib.Utf8

namespace Bondry

open Encoding

/-- A JSON document; a number is kept as its text. -/
inductive Json where
  | null
  | bool (value : Bool)
  | number (text : List Char)
  | string (value : List Char)
  | array (items : List Json)
  | object (members : List (List Char × Json))

namespace Json

/-! ## Tokens -/

inductive Token where
  | leftBrace
  | rightBrace
  | leftBracket
  | rightBracket
  | colon
  | comma
  | null
  | bool (value : Bool)
  | number (text : List Char)
  | string (value : List Char)
  deriving DecidableEq, Repr

mutual

def tokens : Json → List Token
  | .null => [.null]
  | .bool value => [.bool value]
  | .number text => [.number text]
  | .string value => [.string value]
  | .array items => .leftBracket :: itemTokens items ++ [.rightBracket]
  | .object members => .leftBrace :: memberTokens members ++ [.rightBrace]

def itemTokens : List Json → List Token
  | [] => []
  | [item] => tokens item
  | item :: rest => tokens item ++ .comma :: itemTokens rest

def memberTokens : List (List Char × Json) → List Token
  | [] => []
  | [(name, value)] => .string name :: .colon :: tokens value
  | (name, value) :: rest => .string name :: .colon :: tokens value ++ .comma :: memberTokens rest

end

mutual

def depth : Json → Nat
  | .array items => 1 + itemsDepth items
  | .object members => 1 + membersDepth members
  | _ => 0

def itemsDepth : List Json → Nat
  | [] => 0
  | item :: rest => max (depth item) (itemsDepth rest)

def membersDepth : List (List Char × Json) → Nat
  | [] => 0
  | (_, value) :: rest => max (depth value) (membersDepth rest)

end

/-! ## Writing -/

def quote : Char := '\x22'
def backslash : Char := '\x5c'

def hexDigit (value : Nat) : Char :=
  if value < 10 then Char.ofNat (48 + value) else Char.ofNat (87 + value)

/-- A character of a string, with the shortest escape where it needs one. -/
def escape (c : Char) : List Char :=
  if c = quote then [backslash, quote]
  else if c = backslash then [backslash, backslash]
  else if c = '\x08' then [backslash, 'b']
  else if c = '\x09' then [backslash, 't']
  else if c = '\x0a' then [backslash, 'n']
  else if c = '\x0c' then [backslash, 'f']
  else if c = '\x0d' then [backslash, 'r']
  else if c.toNat < 32 then
    [backslash, 'u', '0', '0', hexDigit (c.toNat / 16), hexDigit (c.toNat % 16)]
  else [c]

def Token.text : Token → List Char
  | .leftBrace => ['\x7b']
  | .rightBrace => ['\x7d']
  | .leftBracket => ['\x5b']
  | .rightBracket => ['\x5d']
  | .colon => [':']
  | .comma => [',']
  | .null => ['n', 'u', 'l', 'l']
  | .bool true => ['t', 'r', 'u', 'e']
  | .bool false => ['f', 'a', 'l', 's', 'e']
  | .number text => text
  | .string value => quote :: value.flatMap escape ++ [quote]

def write (v : Json) : List Char := (tokens v).flatMap Token.text

def toVec (v : Json) : List UInt8 := encodeUtf8 (write v)

/-! ## Numbers -/

def isNumberChar (c : Char) : Bool :=
  c.isDigit || c == '-' || c == '+' || c == '.' || c == 'e' || c == 'E'

def isExponent : List Char → Bool
  | [] => true
  | e :: rest =>
    let digits := match rest with
      | '+' :: digits | '-' :: digits => digits
      | digits => digits
    (e == 'e' || e == 'E') && !digits.isEmpty && digits.all Char.isDigit

def isFraction : List Char → Bool
  | '.' :: rest =>
    let after := rest.dropWhile Char.isDigit
    decide (after.length < rest.length) && isExponent after
  | rest => isExponent rest

def isMagnitude : List Char → Bool
  | '0' :: rest => isFraction rest
  | c :: rest => c.isDigit && isFraction (rest.dropWhile Char.isDigit)
  | [] => false

/-- `-? (0 | [1-9] [0-9]*) (. [0-9]+)? ([eE] [+-]? [0-9]+)?`. -/
def isNumber : List Char → Bool
  | '-' :: rest => isMagnitude rest
  | text => isMagnitude text

/-! ## The lexer -/

inductive Lexer where
  /-- Between tokens. -/
  | idle
  /-- Inside `null`, `true` or `false`, with the letters that must follow. -/
  | word (left : List Char) (token : Token)
  | number (read : List Char)
  | string (read : List Char)
  /-- Behind a backslash. -/
  | escape (read : List Char)
  /-- Inside `\uXXXX`, after so many digits; `high` is the surrogate in front of it. -/
  | hex (read : List Char) (high : Option Nat) (digits value : Nat)
  /-- Behind a high surrogate, where the escape of a low one must follow. -/
  | low (read : List Char) (high : Nat)
  | lowEscape (read : List Char) (high : Nat)
  deriving DecidableEq, Repr

namespace Lexer

/-- A character that is a token or begins one of the three words. -/
def symbol (c : Char) : Option (List Token × Lexer) :=
  match c with
  | '\x7b' => some ([.leftBrace], .idle)
  | '\x7d' => some ([.rightBrace], .idle)
  | '\x5b' => some ([.leftBracket], .idle)
  | '\x5d' => some ([.rightBracket], .idle)
  | ':' => some ([.colon], .idle)
  | ',' => some ([.comma], .idle)
  | 'n' => some ([], .word ['u', 'l', 'l'] .null)
  | 't' => some ([], .word ['r', 'u', 'e'] (.bool true))
  | 'f' => some ([], .word ['a', 'l', 's', 'e'] (.bool false))
  | _ => none

def isSpace (c : Char) : Bool := c == ' ' || c == '\x09' || c == '\x0a' || c == '\x0d'

def start (c : Char) : Option (List Token × Lexer) :=
  if isSpace c then some ([], .idle)
  else if c = quote then some ([], .string [])
  else if c = '-' ∨ c.isDigit = true then some ([], .number [c])
  else symbol c

def unescape (c : Char) : Option Char :=
  if c = quote ∨ c = backslash ∨ c = '/' then some c
  else if c = 'b' then some '\x08'
  else if c = 't' then some '\x09'
  else if c = 'n' then some '\x0a'
  else if c = 'f' then some '\x0c'
  else if c = 'r' then some '\x0d'
  else none

def hexValue (c : Char) : Option Nat :=
  if c.isDigit then some (c.toNat - 48)
  else if 97 ≤ c.toNat ∧ c.toNat ≤ 102 then some (c.toNat - 87)
  else if 65 ≤ c.toNat ∧ c.toNat ≤ 70 then some (c.toNat - 55)
  else none

/-- The end of `\uXXXX`: a surrogate stands for nothing on its own. -/
def codeUnit (read : List Char) (high : Option Nat) (value : Nat) : Option Lexer :=
  match high with
  | none =>
    if 0xD800 ≤ value ∧ value ≤ 0xDBFF then some (.low read value)
    else if 0xDC00 ≤ value ∧ value ≤ 0xDFFF then none
    else some (.string (read ++ [Char.ofNat value]))
  | some high =>
    if 0xDC00 ≤ value ∧ value ≤ 0xDFFF then
      some (.string (read ++
        [Char.ofNat ((high - 0xD800) * 0x400 + (value - 0xDC00) + 0x10000)]))
    else none

def step : Lexer → Char → Option (List Token × Lexer)
  | .idle, c => start c
  | .word [] _, _ => none
  | .word (d :: left) token, c =>
    if c ≠ d then none
    else if left = [] then some ([token], .idle)
    else some ([], .word left token)
  | .number read, c =>
    if isNumberChar c then some ([], .number (read ++ [c]))
    else if isNumber read then (start c).map fun next => (.number read :: next.1, next.2)
    else none
  | .string read, c =>
    if c = quote then some ([.string read], .idle)
    else if c = backslash then some ([], .escape read)
    else if c.toNat < 32 then none
    else some ([], .string (read ++ [c]))
  | .escape read, c =>
    if c = 'u' then some ([], .hex read none 0 0)
    else (unescape c).map fun d => ([], .string (read ++ [d]))
  | .hex read high digits value, c =>
    (hexValue c).bind fun d =>
      if digits = 3 then (codeUnit read high (value * 16 + d)).map fun next => ([], next)
      else some ([], .hex read high (digits + 1) (value * 16 + d))
  | .low read high, c => if c = backslash then some ([], .lowEscape read high) else none
  | .lowEscape read high, c => if c = 'u' then some ([], .hex read (some high) 0 0) else none

def finish : Lexer → Option (List Token)
  | .idle => some []
  | .number read => if isNumber read then some [.number read] else none
  | _ => none

def run : Lexer → List Char → Option (List Token)
  | state, [] => state.finish
  | state, c :: rest =>
    (state.step c).bind fun next => (run next.2 rest).map fun later => next.1 ++ later

end Lexer

def lex (text : List Char) : Option (List Token) := Lexer.idle.run text

/-! ## The reader -/

/-- An open container: what has been read of it, and the name whose value is due. -/
inductive Frame where
  | array (items : List Json)
  | object (members : List (List Char × Json)) (name : List Char)

inductive Reader where
  /-- A value must follow. -/
  | expectValue (stack : List Frame)
  /-- A value or the end of the array just opened. -/
  | expectItem (stack : List Frame)
  /-- A name or the end of the object just opened. -/
  | expectFirstName (stack : List Frame)
  /-- A name must follow. -/
  | expectName (members : List (List Char × Json)) (stack : List Frame)
  | expectColon (members : List (List Char × Json)) (name : List Char) (stack : List Frame)
  /-- Behind a value. -/
  | after (value : Json) (stack : List Frame)

namespace Reader

/-- The recursion limit: so many containers can be open. -/
def maxOpen : Nat := 127

def beginValue (stack : List Frame) : Token → Option Reader
  | .null => some (.after .null stack)
  | .bool value => some (.after (.bool value) stack)
  | .number text => some (.after (.number text) stack)
  | .string value => some (.after (.string value) stack)
  | .leftBracket => if stack.length < maxOpen then some (.expectItem stack) else none
  | .leftBrace => if stack.length < maxOpen then some (.expectFirstName stack) else none
  | _ => none

def step : Reader → Token → Option Reader
  | .expectValue stack, token => beginValue stack token
  | .expectItem stack, .rightBracket => some (.after (.array []) stack)
  | .expectItem stack, token => beginValue (.array [] :: stack) token
  | .expectFirstName stack, .rightBrace => some (.after (.object []) stack)
  | .expectFirstName stack, .string name => some (.expectColon [] name stack)
  | .expectName members stack, .string name => some (.expectColon members name stack)
  | .expectColon members name stack, .colon => some (.expectValue (.object members name :: stack))
  | .after value (.array items :: stack), .comma => some (.expectValue (.array (items ++ [value]) :: stack))
  | .after value (.array items :: stack), .rightBracket =>
    some (.after (.array (items ++ [value])) stack)
  | .after value (.object members name :: stack), .comma =>
    some (.expectName (members ++ [(name, value)]) stack)
  | .after value (.object members name :: stack), .rightBrace =>
    some (.after (.object (members ++ [(name, value)])) stack)
  | _, _ => none

def finish : Reader → Option Json
  | .after value [] => some value
  | _ => none

def run : Reader → List Token → Option Reader
  | state, [] => some state
  | state, token :: rest => (state.step token).bind fun next => run next rest

end Reader

def read (tokens : List Token) : Option Json := ((Reader.expectValue []).run tokens).bind Reader.finish

/-! ## Tokens are read off uniquely -/

theorem itemTokens_cons_cons (a b : Json) (rest : List Json) :
    itemTokens (a :: b :: rest) = tokens a ++ .comma :: itemTokens (b :: rest) := by
  rw [itemTokens]
  simp

theorem memberTokens_cons_cons (a b : List Char × Json) (rest : List (List Char × Json)) :
    memberTokens (a :: b :: rest) =
      .string a.1 :: .colon :: tokens a.2 ++ .comma :: memberTokens (b :: rest) := by
  obtain ⟨name, value⟩ := a
  rw [memberTokens]
  simp

def openItems (items : List Json) : List Token := items.flatMap fun item => tokens item ++ [.comma]

def openMembers (members : List (List Char × Json)) : List Token :=
  members.flatMap fun entry => .string entry.1 :: .colon :: tokens entry.2 ++ [.comma]

theorem itemTokens_concat (items : List Json) (last : Json) :
    itemTokens (items ++ [last]) = openItems items ++ tokens last := by
  induction items with
  | nil => simp [openItems, itemTokens]
  | cons first rest ih =>
    obtain ⟨second, others, hrest⟩ : ∃ second others, rest ++ [last] = second :: others :=
      List.exists_cons_of_ne_nil (by simp)
    rw [List.cons_append, hrest, itemTokens_cons_cons, ← hrest, ih]
    simp [openItems]

theorem memberTokens_concat (members : List (List Char × Json)) (name : List Char) (last : Json) :
    memberTokens (members ++ [(name, last)]) =
      openMembers members ++ .string name :: .colon :: tokens last := by
  induction members with
  | nil => simp [openMembers, memberTokens]
  | cons first rest ih =>
    obtain ⟨second, others, hrest⟩ : ∃ second others, rest ++ [(name, last)] = second :: others :=
      List.exists_cons_of_ne_nil (by simp)
    rw [List.cons_append, hrest, memberTokens_cons_cons, ← hrest, ih]
    simp [openMembers]

def Frame.taken : Frame → List Token
  | .array items => .leftBracket :: openItems items
  | .object members name => .leftBrace :: openMembers members ++ [.string name, .colon]

def stackTaken : List Frame → List Token
  | [] => []
  | frame :: outer => stackTaken outer ++ frame.taken

def Reader.taken : Reader → List Token
  | .expectValue stack => stackTaken stack
  | .expectItem stack => stackTaken stack ++ [.leftBracket]
  | .expectFirstName stack => stackTaken stack ++ [.leftBrace]
  | .expectName members stack => stackTaken stack ++ .leftBrace :: openMembers members
  | .expectColon members name stack => stackTaken stack ++ .leftBrace :: openMembers members ++ [.string name]
  | .after value stack => stackTaken stack ++ tokens value

theorem Reader.taken_beginValue {stack : List Frame} {token : Token} {next : Reader}
    (h : beginValue stack token = some next) : next.taken = stackTaken stack ++ [token] := by
  cases token with
  | null | bool | number | string =>
    cases h
    simp [taken, tokens]
  | leftBracket | leftBrace =>
    simp only [beginValue] at h
    split at h
    · cases h
      rfl
    · cases h
  | rightBrace | rightBracket | colon | comma => cases h

theorem Reader.taken_step {state next : Reader} {token : Token} (h : state.step token = some next) :
    next.taken = state.taken ++ [token] := by
  unfold step at h
  split at h
  · exact taken_beginValue h
  · cases h
    simp [taken, tokens, itemTokens]
  · rw [taken_beginValue h]
    simp [taken, stackTaken, Frame.taken, openItems]
  · cases h
    simp [taken, tokens, memberTokens]
  · cases h
    simp [taken, openMembers]
  · cases h
    simp [taken]
  · cases h
    simp [taken, stackTaken, Frame.taken]
  · cases h
    simp [taken, stackTaken, Frame.taken, openItems]
  · cases h
    simp [taken, stackTaken, Frame.taken, tokens, itemTokens_concat]
  · cases h
    simp [taken, stackTaken, Frame.taken, openMembers]
  · cases h
    simp [taken, stackTaken, Frame.taken, tokens, memberTokens_concat]
  · cases h

theorem Reader.taken_run {state next : Reader} {rest : List Token} (h : state.run rest = some next) :
    next.taken = state.taken ++ rest := by
  induction rest generalizing state with
  | nil =>
    cases h
    simp
  | cons token rest ih =>
    obtain ⟨middle, hstep, hrun⟩ := Option.bind_eq_some_iff.mp h
    rw [ih hrun, taken_step hstep]
    simp

/-- **Tokens are read as a document only if they are its tokens.** -/
theorem tokens_of_read {taken : List Token} {v : Json} (h : read taken = some v) : taken = tokens v := by
  obtain ⟨last, hrun, hlast⟩ := Option.bind_eq_some_iff.mp h
  have htaken := Reader.taken_run hrun
  unfold Reader.finish at hlast
  split at hlast
  · cases hlast
    simpa [Reader.taken, stackTaken] using htaken.symm
  · cases hlast

/-! ## What is written is read back -/

theorem Reader.run_append (state : Reader) (first second : List Token) :
    state.run (first ++ second) = (state.run first).bind fun next => next.run second := by
  induction first generalizing state with
  | nil => rfl
  | cons token rest ih =>
    rw [List.cons_append, run, run, Option.bind_assoc]
    congr 1
    funext next
    exact ih next

theorem Reader.run_cons (state : Reader) (token : Token) (rest : List Token) :
    state.run (token :: rest) = (state.step token).bind fun next => next.run rest := rfl

theorem Reader.run_expectItem (stack : List Frame) (v : Json) (rest : List Token) :
    (Reader.expectItem stack).run (tokens v ++ rest) =
      (Reader.expectValue (.array [] :: stack)).run (tokens v ++ rest) := by
  cases v <;> rfl

mutual

theorem Reader.run_tokens (v : Json) (stack : List Frame) (h : stack.length + depth v ≤ maxOpen) :
    (Reader.expectValue stack).run (tokens v) = some (.after v stack) := by
  match v with
  | .null | .bool _ | .number _ | .string _ => rfl
  | .array [] =>
    have hopen : stack.length < maxOpen := by
      rw [depth] at h
      omega
    simp [tokens, itemTokens, run, step, beginValue, hopen]
  | .array (first :: rest) =>
    have hopen : stack.length < maxOpen := by
      rw [depth] at h
      omega
    have hstep : (Reader.expectValue stack).step .leftBracket = some (.expectItem stack) := if_pos hopen
    obtain ⟨later, hlater⟩ : ∃ later, itemTokens (first :: rest) = tokens first ++ later := by
      cases rest with
      | nil => exact ⟨[], by simp [itemTokens]⟩
      | cons second others => exact ⟨_, itemTokens_cons_cons first second others⟩
    have hitems := run_items (first :: rest) (by simp) [] stack (by rw [depth] at h; omega)
    rw [tokens, List.cons_append, run_cons, hstep, Option.bind_some]
    rw [hlater, List.append_assoc] at hitems ⊢
    rw [run_expectItem, hitems, List.nil_append]
  | .object [] =>
    have hopen : stack.length < maxOpen := by
      rw [depth] at h
      omega
    simp [tokens, memberTokens, run, step, beginValue, hopen]
  | .object ((name, value) :: rest) =>
    have hopen : stack.length < maxOpen := by
      rw [depth] at h
      omega
    have hstep : (Reader.expectValue stack).step .leftBrace = some (.expectFirstName stack) :=
      if_pos hopen
    obtain ⟨later, hlater⟩ : ∃ later,
        memberTokens ((name, value) :: rest) = .string name :: .colon :: later := by
      cases rest with
      | nil => exact ⟨_, by rw [memberTokens]⟩
      | cons second others => exact ⟨_, memberTokens_cons_cons (name, value) second others⟩
    have hmembers := run_members ((name, value) :: rest) (by simp) [] stack
      (by rw [depth] at h; omega)
    rw [tokens, List.cons_append, run_cons, hstep, Option.bind_some]
    rw [hlater, List.nil_append] at hmembers
    rw [hlater, ← hmembers]
    rfl

theorem Reader.run_items (items : List Json) (hne : items ≠ []) (before : List Json)
    (stack : List Frame) (h : stack.length + 1 + itemsDepth items ≤ maxOpen) :
    (Reader.expectValue (.array before :: stack)).run (itemTokens items ++ [.rightBracket]) =
      some (.after (.array (before ++ items)) stack) := by
  match items with
  | [] => exact absurd rfl hne
  | [last] =>
    have hlast := run_tokens last (.array before :: stack) (by
      rw [itemsDepth, itemsDepth] at h
      simp only [List.length_cons]
      omega)
    rw [itemTokens, run_append, hlast]
    rfl
  | first :: second :: rest =>
    rw [itemsDepth] at h
    have hfirst := run_tokens first (.array before :: stack) (by
      simp only [List.length_cons]
      omega)
    have hrest := run_items (second :: rest) (by simp) (before ++ [first]) stack (by omega)
    rw [itemTokens_cons_cons, List.append_assoc, run_append, hfirst, Option.bind_some,
      List.cons_append, run_cons]
    show (Reader.expectValue (.array (before ++ [first]) :: stack)).run _ = _
    rw [hrest, List.append_assoc]
    rfl

theorem Reader.run_members (members : List (List Char × Json)) (hne : members ≠ [])
    (before : List (List Char × Json)) (stack : List Frame)
    (h : stack.length + 1 + membersDepth members ≤ maxOpen) :
    (Reader.expectName before stack).run (memberTokens members ++ [.rightBrace]) =
      some (.after (.object (before ++ members)) stack) := by
  match members with
  | [] => exact absurd rfl hne
  | [(name, last)] =>
    have hlast := run_tokens last (.object before name :: stack) (by
      rw [membersDepth, membersDepth] at h
      simp only [List.length_cons]
      omega)
    rw [memberTokens]
    show (Reader.expectValue (.object before name :: stack)).run (tokens last ++ [.rightBrace]) = _
    rw [run_append, hlast]
    rfl
  | (name, first) :: second :: rest =>
    rw [membersDepth] at h
    have hfirst := run_tokens first (.object before name :: stack) (by
      simp only [List.length_cons]
      omega)
    have hrest := run_members (second :: rest) (by simp) (before ++ [(name, first)]) stack (by omega)
    rw [memberTokens_cons_cons]
    show (Reader.expectValue (.object before name :: stack)).run
      ((tokens first ++ .comma :: memberTokens (second :: rest)) ++ [.rightBrace]) = _
    rw [List.append_assoc, run_append, hfirst, Option.bind_some, List.cons_append, run_cons]
    show (Reader.expectName (before ++ [(name, first)]) stack).run _ = _
    rw [hrest, List.append_assoc]
    rfl

end

/-- **The tokens of a document are read as the document**, if it is not nested too deeply. -/
theorem read_tokens {v : Json} (h : depth v ≤ Reader.maxOpen) : read (tokens v) = some v := by
  rw [read, Reader.run_tokens v [] (by simpa using h)]
  rfl

end Json

end Bondry
