/-
  THE GRAMMAR OF JSON TEXTS, over bytes.

  `Derives k values names bytes` says that the bytes can be read as a `k`: a value, a value with white space
  around it, the items of an array or the members of an object.  The two numbers count what is in it, the
  values of every kind and the names of the members.

  Nothing here depends on a parser: white space may stand wherever the grammar has it, a string may hold any
  escape (a surrogate on its own too), numbers have no range and containers no bound on their depth.
-/
import Bondry.Lib.JsonLexer

namespace Bondry.Json

open Encoding

namespace Grammar

def Ws (bytes : List UInt8) : Prop := ∀ b ∈ bytes, b ∈ [0x20, 0x09, 0x0A, 0x0D]

inductive Chars : List UInt8 → Prop where
  | nil : Chars []
  | plain {b : UInt8} {rest : List UInt8} (printable : 0x20 ≤ b) (quote : b ≠ 0x22)
      (backslash : b ≠ 0x5C) (more : Chars rest) : Chars (b :: rest)
  /-- One of the quote, the backslash, the slash and the letters `b`, `f`, `n`, `r`, `t`. -/
  | escaped {e : UInt8} {rest : List UInt8}
      (escape : e ∈ [0x22, 0x5C, 0x2F, 0x62, 0x66, 0x6E, 0x72, 0x74]) (more : Chars rest) :
      Chars (0x5C :: e :: rest)
  | unicode {a b c d : UInt8} {rest : List UInt8}
      (hex : isHexDigit a ∧ isHexDigit b ∧ isHexDigit c ∧ isHexDigit d) (more : Chars rest) :
      Chars (0x5C :: 0x75 :: a :: b :: c :: d :: rest)

inductive Kind where
  | value
  | element
  | items
  | members

inductive Derives : Kind → Nat → Nat → List UInt8 → Prop where
  | null : Derives .value 1 0 [0x6E, 0x75, 0x6C, 0x6C]
  | isTrue : Derives .value 1 0 [0x74, 0x72, 0x75, 0x65]
  | isFalse : Derives .value 1 0 [0x66, 0x61, 0x6C, 0x73, 0x65]
  | number {text : List Char} (number : isNumber text = true) : Derives .value 1 0 (encodeUtf8 text)
  | string {chars : List UInt8} (inside : Chars chars) :
      Derives .value 1 0 (0x22 :: chars ++ [0x22])
  | emptyArray {ws : List UInt8} (space : Ws ws) : Derives .value 1 0 (0x5B :: ws ++ [0x5D])
  | array {values names : Nat} {bytes : List UInt8} (inside : Derives .items values names bytes) :
      Derives .value (values + 1) names (0x5B :: bytes ++ [0x5D])
  | emptyObject {ws : List UInt8} (space : Ws ws) : Derives .value 1 0 (0x7B :: ws ++ [0x7D])
  | object {values names : Nat} {bytes : List UInt8} (inside : Derives .members values names bytes) :
      Derives .value (values + 1) names (0x7B :: bytes ++ [0x7D])
  /-- A value with white space around it. -/
  | element {values names : Nat} {before bytes after : List UInt8} (front : Ws before)
      (value : Derives .value values names bytes) (back : Ws after) :
      Derives .element values names (before ++ bytes ++ after)
  | item {values names : Nat} {bytes : List UInt8} (only : Derives .element values names bytes) :
      Derives .items values names bytes
  | items {values names values' names' : Nat} {bytes bytes' : List UInt8}
      (first : Derives .element values names bytes) (rest : Derives .items values' names' bytes') :
      Derives .items (values + values') (names + names') (bytes ++ 0x2C :: bytes')
  | member {values names : Nat} {before name after bytes : List UInt8} (front : Ws before)
      (chars : Chars name) (back : Ws after) (value : Derives .element values names bytes) :
      Derives .members values (names + 1) (before ++ 0x22 :: name ++ 0x22 :: after ++ 0x3A :: bytes)
  | members {values names values' names' : Nat} {before name after bytes bytes' : List UInt8}
      (front : Ws before) (chars : Chars name) (back : Ws after)
      (value : Derives .element values names bytes) (rest : Derives .members values' names' bytes') :
      Derives .members (values + values') (names + 1 + names')
        (before ++ 0x22 :: name ++ 0x22 :: after ++ 0x3A :: bytes ++ 0x2C :: bytes')

end Grammar

/-- A JSON text with so many values and member names in it. -/
def IsText (values names : Nat) (bytes : List UInt8) : Prop :=
  Grammar.Derives .element values names bytes

end Bondry.Json
