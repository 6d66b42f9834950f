/-
  JSON VALUES: what a program keeps of a document.

  A value has its members in the order of their names, each name once (the last one of the text wins),
  and its numbers as they will be printed again.  64-bit integers are printed as they were read; what
  becomes of the other numbers is the parameter `float`: the text such a number is printed as, or `none`
  when it cannot be held.
-/
import Bondry.Lib.JsonLexer

namespace Bondry.Json

open Encoding

/-! ## Members -/

def find (name : List Char) : List (List Char × Json) → Option Json
  | [] => none
  | (other, value) :: rest => if other = name then some value else find name rest

/-- A member put in its place; it replaces the one of its name. -/
def insertMember (name : List Char) (value : Json) : List (List Char × Json) → List (List Char × Json)
  | [] => [(name, value)]
  | (other, old) :: rest =>
    if name < other then (name, value) :: (other, old) :: rest
    else if name = other then (name, value) :: rest
    else (other, old) :: insertMember name value rest

@[simp] theorem find_nil (name : List Char) : find name [] = none := rfl

theorem find_insertMember (name : List Char) (value : Json) (members : List (List Char × Json))
    (a : List Char) :
    find a (insertMember name value members) = if name = a then some value else find a members := by
  induction members with
  | nil => rfl
  | cons first rest ih =>
    obtain ⟨other, old⟩ := first
    rw [insertMember]
    by_cases hlt : name < other
    · rw [if_pos hlt, find]
    rw [if_neg hlt]
    by_cases heq : name = other
    · subst heq
      rw [if_pos rfl, find, find]
      by_cases ha : name = a
      · rw [if_pos ha, if_pos ha]
      · rw [if_neg ha, if_neg ha, if_neg ha]
    · rw [if_neg heq, find, find, ih]
      by_cases ha : name = a
      · subst ha
        rw [if_neg fun h => heq h.symm, if_pos rfl, if_pos rfl]
      · simp [ha]

def Sorted (members : List (List Char × Json)) : Prop := (members.map Prod.fst).Pairwise (· < ·)

variable {members : List (List Char × Json)}

theorem mem_insertMember {name : List Char} {value : Json} {entry : List Char × Json}
    (h : entry ∈ insertMember name value members) : entry = (name, value) ∨ entry ∈ members := by
  induction members with
  | nil => simpa [insertMember] using h
  | cons first rest ih =>
    obtain ⟨other, old⟩ := first
    rw [insertMember] at h
    split_ifs at h with hlt heq
    · exact List.mem_cons.mp h
    · rcases List.mem_cons.mp h with h | h
      · exact .inl h
      · exact .inr (List.mem_cons_of_mem _ h)
    · rcases List.mem_cons.mp h with rfl | h
      · exact .inr (List.mem_cons_self ..)
      · exact (ih h).imp_right (List.mem_cons_of_mem _)

theorem Sorted.insertMember (h : Sorted members) (name : List Char) (value : Json) :
    Sorted (insertMember name value members) := by
  induction members with
  | nil => simp [Json.insertMember, Sorted]
  | cons first rest ih =>
    obtain ⟨other, old⟩ := first
    obtain ⟨hfirst, hrest⟩ := List.pairwise_cons.mp h
    rw [Json.insertMember]
    split_ifs with hlt heq
    · refine List.pairwise_cons.mpr ⟨fun a ha => ?_, h⟩
      rcases List.mem_cons.mp ha with rfl | ha
      · exact hlt
      · exact lt_trans hlt (hfirst a ha)
    · exact heq ▸ h
    · refine List.pairwise_cons.mpr ⟨fun a ha => ?_, ih hrest⟩
      obtain ⟨entry, hentry, rfl⟩ := List.mem_map.mp ha
      rcases mem_insertMember hentry with rfl | hentry
      · exact lt_of_le_of_ne (not_lt.mp hlt) fun h => heq h.symm
      · exact hfirst _ (List.mem_map_of_mem hentry)

theorem insertMember_last {name : List Char} (h : ∀ entry ∈ members, entry.1 < name) (value : Json) :
    insertMember name value members = members ++ [(name, value)] := by
  induction members with
  | nil => rfl
  | cons first rest ih =>
    obtain ⟨other, old⟩ := first
    have hlt : other < name := h _ (List.mem_cons_self ..)
    rw [insertMember, if_neg (lt_asymm hlt), if_neg hlt.ne',
      ih fun entry hentry => h entry (List.mem_cons_of_mem _ hentry)]
    rfl

def get (v : Json) (name : String) : Option Json :=
  match v with
  | .object members => find name.toList members
  | _ => none

def set (v : Json) (name : String) (value : Json) : Json :=
  match v with
  | .object members => .object (insertMember name.toList value members)
  | v => v

/-- An object from its members, the last one of a name winning. -/
def ofMembers (members : List (String × Json)) : Json :=
  members.foldl (fun built entry => built.set entry.1 entry.2) (.object [])

def str (value : String) : Json := .string value.toList

def isObject : Json → Bool
  | .object _ => true
  | _ => false

def asArray : Json → Option (List Json)
  | .array items => some items
  | _ => none

def asStr : Json → Option (List Char)
  | .string value => some value
  | _ => none

@[simp] theorem isObject_set (v : Json) (name : String) (value : Json) :
    (v.set name value).isObject = v.isObject := by
  cases v <;> rfl

@[simp] theorem isObject_object (members : List (List Char × Json)) :
    (Json.object members).isObject = true := rfl

@[simp] theorem get_empty (a : String) : (Json.object []).get a = none := rfl

theorem get_set {v : Json} (h : v.isObject = true) (name : String) (value : Json) (a : String) :
    (v.set name value).get a = if name = a then some value else v.get a := by
  cases v with
  | object members =>
    show find a.toList (insertMember name.toList value members) = _
    rw [find_insertMember]
    simp only [String.toList_inj]
    rfl
  | null | bool | number | string | array => cases h

theorem get_set_object (members : List (List Char × Json)) (name : String) (value : Json) (a : String) :
    ((Json.object members).set name value).get a =
      if name = a then some value else (Json.object members).get a :=
  get_set rfl name value a

theorem ofMembers_concat (members : List (String × Json)) (last : String × Json) :
    ofMembers (members ++ [last]) = (ofMembers members).set last.1 last.2 := by
  rw [ofMembers, List.foldl_append]
  rfl

theorem isObject_ofMembers (members : List (String × Json)) : (ofMembers members).isObject = true := by
  have hfold : ∀ (rest : List (String × Json)) (built : Json), built.isObject = true →
      (rest.foldl (fun built entry => built.set entry.1 entry.2) built).isObject = true := by
    intro rest
    induction rest with
    | nil => exact fun _ h => h
    | cons entry rest ih => exact fun built h => ih _ (by rw [isObject_set, h])
  exact hfold members _ rfl

/-! ## Numbers -/

def digitsValue (digits : List Char) : Nat := Nat.ofDigitChars 10 digits 0

/-- The number of a text that is all digits and fits 64 bits. -/
def asUnsigned (text : List Char) : Option Nat :=
  if text ≠ [] ∧ text.all Char.isDigit = true ∧ digitsValue text < 2 ^ 64 then some (digitsValue text)
  else none

/-- The number of a text with a sign, which must not be a negative zero. -/
def asNegative : List Char → Option Int
  | '-' :: digits =>
    if digits.all Char.isDigit = true ∧ 0 < digitsValue digits ∧ digitsValue digits ≤ 2 ^ 63 then
      some (-(digitsValue digits : Int))
    else none
  | _ => none

def asU64 : Json → Option Nat
  | .number text => asUnsigned text
  | _ => none

def asI64 : Json → Option Int
  | .number text =>
    match asNegative text with
    | some value => some value
    | none => (asUnsigned text).bind fun value => if value < 2 ^ 63 then some (value : Int) else none
  | _ => none

def ofNat (n : Nat) : Json := .number (Nat.toDigits 10 n)

theorem toDigits_all (n : Nat) : (Nat.toDigits 10 n).all Char.isDigit = true :=
  List.all_eq_true.mpr fun _ hc => Nat.isDigit_of_mem_toDigits (by decide) (by decide) hc

theorem digitsValue_toDigits (n : Nat) : digitsValue (Nat.toDigits 10 n) = n :=
  Nat.ofDigitChars_ten_toDigits

theorem asUnsigned_toDigits {n : Nat} (h : n < 2 ^ 64) : asUnsigned (Nat.toDigits 10 n) = some n := by
  rw [asUnsigned, digitsValue_toDigits, if_pos ⟨Nat.toDigits_ne_nil, toDigits_all n, h⟩]

theorem asU64_ofNat {n : Nat} (h : n < 2 ^ 64) : asU64 (ofNat n) = some n := asUnsigned_toDigits h

theorem isMagnitude_toDigits (n : Nat) : isMagnitude (Nat.toDigits 10 n) = true := by
  obtain ⟨first, rest, hdigits, hfirst, hzero⟩ := toDigits_cons n
  have hall := toDigits_all n
  rw [hdigits] at hall ⊢
  have hrest : rest.dropWhile Char.isDigit = [] :=
    List.dropWhile_eq_nil_iff.mpr fun c hc => List.all_eq_true.mp hall c (List.mem_cons_of_mem _ hc)
  unfold isMagnitude
  split
  · next others heq =>
    obtain ⟨rfl, rfl⟩ := List.cons.inj heq
    rw [hzero rfl]
    rfl
  · next c others hne heq =>
    obtain ⟨rfl, rfl⟩ := List.cons.inj heq
    rw [hfirst, hrest]
    rfl
  · next heq => cases heq

theorem isNumber_toDigits (n : Nat) : isNumber (Nat.toDigits 10 n) = true := by
  obtain ⟨first, rest, hdigits, hfirst, -⟩ := toDigits_cons n
  have hmagnitude := isMagnitude_toDigits n
  rw [hdigits] at hmagnitude ⊢
  unfold isNumber
  split
  · next others heq =>
    obtain ⟨rfl, -⟩ := List.cons.inj heq
    exact absurd hfirst (by decide)
  · exact hmagnitude

section

variable (float : List Char → Option (List Char))

/-- The text a number is printed as after it was read. -/
def printed (text : List Char) : Option (List Char) :=
  if (asUnsigned text).isSome ∨ (asNegative text).isSome then some text else float text

/-! ## From documents to values -/

mutual

def normal : Json → Json
  | .null => .null
  | .bool value => .bool value
  | .number text => .number ((printed float text).getD text)
  | .string value => .string value
  | .array items => .array (normalItems items)
  | .object members => .object (collect [] members)

def normalItems : List Json → List Json
  | [] => []
  | item :: rest => normal item :: normalItems rest

def collect (built : List (List Char × Json)) : List (List Char × Json) → List (List Char × Json)
  | [] => built
  | (name, value) :: rest => collect (insertMember name (normal value) built) rest

end

def canHold : Token → Bool
  | .number text => (printed float text).isSome
  | _ => true

def document (bytes : List UInt8) : Option Json :=
  (decodeUtf8 bytes).bind fun text => (lex text).bind fun found =>
    if found.all (canHold float) then read found else none

def fromSlice (bytes : List UInt8) : Option Json := (document float bytes).map (normal float)

mutual

/-- A value: names in order, and numbers that are printed as they are. -/
def IsValue : Json → Prop
  | .number text => isNumber text = true ∧ printed float text = some text
  | .array items => ItemsAreValues items
  | .object members => Sorted members ∧ MembersAreValues members
  | _ => True

def ItemsAreValues : List Json → Prop
  | [] => True
  | item :: rest => IsValue item ∧ ItemsAreValues rest

def MembersAreValues : List (List Char × Json) → Prop
  | [] => True
  | (_, value) :: rest => IsValue value ∧ MembersAreValues rest

end

variable {float}

variable {members : List (List Char × Json)}

theorem membersAreValues_iff : MembersAreValues float members ↔ ∀ entry ∈ members, IsValue float entry.2 := by
  induction members with
  | nil => simp [MembersAreValues]
  | cons entry rest ih => simp [MembersAreValues, ih]

theorem isValue_ofNat {n : Nat} (h : n < 2 ^ 64) : IsValue float (ofNat n) := by
  refine ⟨isNumber_toDigits n, ?_⟩
  rw [printed, asUnsigned_toDigits h]
  rfl

variable {v : Json}

theorem IsValue.set {value : Json} (hv : IsValue float v) (hvalue : IsValue float value)
    (name : String) : IsValue float (v.set name value) := by
  cases v with
  | object members =>
    refine ⟨hv.1.insertMember name.toList value, membersAreValues_iff.mpr fun entry hentry => ?_⟩
    rcases mem_insertMember hentry with rfl | hentry
    · exact hvalue
    · exact membersAreValues_iff.mp hv.2 entry hentry
  | null | bool | number | string | array => exact hv

/-! ## What is written is read back -/

mutual

theorem normal_of_isValue (v : Json) (h : IsValue float v) : normal float v = v := by
  match v with
  | .null | .bool _ | .string _ => rfl
  | .number text =>
    rw [normal, h.2]
    rfl
  | .array items => rw [normal, normalItems_of_values items h]
  | .object members =>
    rw [normal, collect_of_values members [] h.2 h.1]
    rfl

theorem normalItems_of_values (items : List Json) (h : ItemsAreValues float items) :
    normalItems float items = items := by
  match items with
  | [] => rfl
  | item :: rest => rw [normalItems, normal_of_isValue item h.1, normalItems_of_values rest h.2]

theorem collect_of_values (members built : List (List Char × Json))
    (h : MembersAreValues float members) (hsorted : Sorted (built ++ members)) :
    collect float built members = built ++ members := by
  match members with
  | [] => simp [collect]
  | (name, value) :: rest =>
    have hlast : ∀ entry ∈ built, entry.1 < name := by
      intro entry hentry
      rw [Sorted, List.map_append] at hsorted
      exact (List.pairwise_append.mp hsorted).2.2 _ (List.mem_map_of_mem hentry) _ (by simp)
    have hrest := collect_of_values rest (built ++ [(name, value)]) h.2 (by simpa using hsorted)
    rw [collect, normal_of_isValue value h.1, insertMember_last hlast, hrest]
    simp

end

variable {items : List Json} {text : List Char}

theorem number_mem_itemTokens :
    Token.number text ∈ itemTokens items ↔ ∃ item ∈ items, .number text ∈ tokens item := by
  induction items with
  | nil => simp [itemTokens]
  | cons first rest ih =>
    cases rest with
    | nil => simp [itemTokens]
    | cons second others =>
      rw [itemTokens_cons_cons]
      simp only [List.mem_append, List.mem_cons, ih]
      simp

theorem number_mem_memberTokens : Token.number text ∈ memberTokens members ↔
      ∃ entry ∈ members, .number text ∈ tokens entry.2 := by
  induction members with
  | nil => simp [memberTokens]
  | cons first rest ih =>
    cases rest with
    | nil => simp [memberTokens]
    | cons second others =>
      rw [memberTokens_cons_cons]
      simp only [List.mem_append, List.mem_cons, ih]
      simp

theorem number_mem_array :
    Token.number text ∈ tokens (.array items) ↔ ∃ item ∈ items, .number text ∈ tokens item := by
  rw [← number_mem_itemTokens]
  simp [tokens]

theorem number_mem_object : Token.number text ∈ tokens (.object members) ↔
      ∃ entry ∈ members, .number text ∈ tokens entry.2 := by
  rw [← number_mem_memberTokens]
  simp [tokens]

mutual

theorem IsValue.numbers (v : Json) (h : IsValue float v) (text : List Char)
    (ht : .number text ∈ tokens v) : isNumber text = true ∧ printed float text = some text := by
  match v with
  | .null | .bool _ | .string _ => simp [tokens] at ht
  | .number own =>
    have : text = own := by simpa [tokens] using ht
    exact this ▸ h
  | .array items =>
    obtain ⟨item, hitem, ht⟩ := number_mem_array.mp ht
    exact ItemsAreValues.numbers items h item hitem text ht
  | .object members =>
    obtain ⟨entry, hentry, ht⟩ := number_mem_object.mp ht
    exact MembersAreValues.numbers members h.2 entry hentry text ht

theorem ItemsAreValues.numbers (items : List Json) (h : ItemsAreValues float items) (item : Json)
    (hitem : item ∈ items) (text : List Char) (ht : .number text ∈ tokens item) :
    isNumber text = true ∧ printed float text = some text := by
  match items with
  | [] => cases hitem
  | first :: rest =>
    rcases List.mem_cons.mp hitem with heq | hrest
    · exact IsValue.numbers first h.1 text (heq ▸ ht)
    · exact ItemsAreValues.numbers rest h.2 item hrest text ht

theorem MembersAreValues.numbers (members : List (List Char × Json))
    (h : MembersAreValues float members) (entry : List Char × Json) (hentry : entry ∈ members)
    (text : List Char) (ht : .number text ∈ tokens entry.2) :
    isNumber text = true ∧ printed float text = some text := by
  match members with
  | [] => cases hentry
  | (name, value) :: rest =>
    rcases List.mem_cons.mp hentry with heq | hrest
    · exact IsValue.numbers value h.1 text (by rw [heq] at ht; exact ht)
    · exact MembersAreValues.numbers rest h.2 entry hrest text ht

end

/-- **A value that is written is read back**, if it is not nested too deeply. -/
theorem fromSlice_toVec (h : IsValue float v) (hdepth : depth v ≤ Reader.maxOpen) :
    fromSlice float (toVec v) = some v := by
  have hnumbers := IsValue.numbers v h
  have hlex : lex (write v) = some (tokens v) := lex_write fun text ht => (hnumbers text ht).1
  have hhold : (tokens v).all (canHold float) = true := by
    rw [List.all_eq_true]
    intro token htoken
    cases token with
    | number text =>
      show (printed float text).isSome = true
      rw [(hnumbers text htoken).2]
      rfl
    | leftBrace | rightBrace | leftBracket | rightBracket | colon | comma | null | bool | string => rfl
  rw [fromSlice, document, toVec, decodeUtf8_encodeUtf8, Option.bind_some, hlex, Option.bind_some,
    if_pos hhold, read_tokens hdepth, Option.map_some, normal_of_isValue v h]

/-! ## How long a value is -/

def size (v : Json) : Nat := weigh (tokens v)

theorem length_toVec (v : Json) : (toVec v).length = size v := rfl

def entrySize (entry : List Char × Json) : Nat := escapedLen entry.1 + 2 + 1 + size entry.2 + 1

def entriesSize (members : List (List Char × Json)) : Nat := (members.map entrySize).sum

theorem weigh_member (name : List Char) (value : Json) :
    weigh (.string name :: .colon :: tokens value) + 1 = entrySize (name, value) := by
  have hcolon : byteLen Token.colon.text = 1 := rfl
  simp only [weigh_cons, byteLen_string, hcolon, entrySize, size]
  omega

theorem weigh_memberTokens (h : members ≠ []) : weigh (memberTokens members) + 1 = entriesSize members := by
  induction members with
  | nil => exact absurd rfl h
  | cons first rest ih =>
    cases rest with
    | nil =>
      rw [memberTokens, weigh_member]
      simp [entriesSize]
    | cons second others =>
      have hrest := ih (by simp)
      have hfirst : _ = entrySize first := weigh_member first.1 first.2
      have htail : weigh (.comma :: memberTokens (second :: others)) =
          1 + weigh (memberTokens (second :: others)) := weigh_cons _ _
      rw [memberTokens_cons_cons, weigh_append, htail]
      simp only [entriesSize, List.map_cons, List.sum_cons] at hrest ⊢
      omega

theorem size_object (h : members ≠ []) : size (.object members) = entriesSize members + 1 := by
  have hmembers := weigh_memberTokens h
  have hbraces : byteLen Token.leftBrace.text = 1 ∧ byteLen Token.rightBrace.text = 1 := ⟨rfl, rfl⟩
  rw [size, tokens, List.cons_append, weigh_cons, weigh_append, weigh_cons, weigh_nil, hbraces.1,
    hbraces.2]
  omega

theorem entriesSize_insertMember_le (name : List Char) (value : Json) (members : List (List Char × Json)) :
    entriesSize (insertMember name value members) ≤ entriesSize members + entrySize (name, value) := by
  induction members with
  | nil => simp [insertMember, entriesSize]
  | cons first rest ih =>
    obtain ⟨other, old⟩ := first
    simp only [entriesSize] at ih ⊢
    rw [insertMember]
    split_ifs <;> simp only [List.map_cons, List.sum_cons] <;> omega

theorem entriesSize_insertMember {name : List Char} (h : find name members = none) (value : Json) :
    entriesSize (insertMember name value members) = entriesSize members + entrySize (name, value) := by
  induction members with
  | nil => simp [insertMember, entriesSize]
  | cons first rest ih =>
    obtain ⟨other, old⟩ := first
    rw [find] at h
    split_ifs at h with heq
    have hrest := ih h
    simp only [entriesSize] at hrest ⊢
    rw [insertMember]
    split_ifs with hlt hname
    · simp only [List.map_cons, List.sum_cons]
      omega
    · exact absurd hname.symm heq
    · simp only [List.map_cons, List.sum_cons]
      omega

theorem insertMember_ne_nil (name : List Char) (value : Json) (members : List (List Char × Json)) :
    insertMember name value members ≠ [] := by
  cases members with
  | nil => simp [insertMember]
  | cons first rest =>
    obtain ⟨other, old⟩ := first
    rw [insertMember]
    split_ifs <;> simp

theorem collect_ne_nil {built : List (List Char × Json)} (h : built ≠ []) :
    collect float built members ≠ [] := by
  induction members generalizing built with
  | nil => simpa [collect] using h
  | cons first rest ih =>
    obtain ⟨name, value⟩ := first
    exact ih (insertMember_ne_nil _ _ _)

theorem ofMembers_object (members : List (String × Json)) : ∃ built, ofMembers members = .object built ∧
      (∀ name, name ∉ members.map Prod.fst → find name.toList built = none) ∧ ((members.map Prod.fst).Nodup →
        entriesSize built = (members.map fun entry => entrySize (entry.1.toList, entry.2)).sum) := by
  induction members using List.reverseRecOn with
  | nil => exact ⟨[], rfl, fun _ _ => rfl, fun _ => rfl⟩
  | append_singleton before last ih =>
    obtain ⟨built, hbuilt, hfind, hsize⟩ := ih
    refine ⟨insertMember last.1.toList last.2 built, ?_, fun name hname => ?_, fun hnodup => ?_⟩
    · rw [ofMembers_concat, hbuilt]
      rfl
    · rw [List.map_append, List.mem_append, not_or] at hname
      have hne : last.1.toList ≠ name.toList := fun h =>
        hname.2 (by simp [String.toList_inj.mp h])
      rw [find_insertMember, if_neg hne]
      exact hfind name hname.1
    · rw [List.map_append, List.nodup_append] at hnodup
      have hfresh : last.1 ∉ before.map Prod.fst := fun h =>
        hnodup.2.2 _ h last.1 (by simp) rfl
      rw [entriesSize_insertMember (hfind _ hfresh), hsize hnodup.1, List.map_append, List.sum_append]
      simp

theorem size_ofMembers {members : List (String × Json)} (hne : members ≠ [])
    (hnodup : (members.map Prod.fst).Nodup) : size (ofMembers members) =
      (members.map fun entry => entrySize (entry.1.toList, entry.2)).sum + 1 := by
  obtain ⟨built, hbuilt, -, hsize⟩ := ofMembers_object members
  have hsome : built ≠ [] := by
    rintro rfl
    have hzero := hsize hnodup
    cases members with
    | nil => exact hne rfl
    | cons first rest =>
      simp only [entriesSize, List.map_nil, List.sum_nil, List.map_cons, List.sum_cons,
        entrySize] at hzero
      omega
  rw [hbuilt, size_object hsome, hsize hnodup]

/-- Numbers that are printed at most as long as they were written. -/
def NoLonger (float : List Char → Option (List Char)) (v : Json) : Prop :=
  ∀ text, .number text ∈ tokens v → byteLen ((printed float text).getD text) ≤ byteLen text

theorem NoLonger.item (h : NoLonger float (.array items)) {item : Json} (hitem : item ∈ items) :
    NoLonger float item :=
  fun text ht => h text (number_mem_array.mpr ⟨item, hitem, ht⟩)

theorem NoLonger.member (h : NoLonger float (.object members)) {entry : List Char × Json}
    (hentry : entry ∈ members) : NoLonger float entry.2 :=
  fun text ht => h text (number_mem_object.mpr ⟨entry, hentry, ht⟩)

mutual

theorem size_normal (v : Json) (h : NoLonger float v) : size (normal float v) ≤ size v := by
  match v with
  | .null | .bool _ | .string _ => exact Nat.le_refl _
  | .number text =>
    have := h text (by simp [tokens])
    simpa [normal, size, tokens, Token.text] using this
  | .array items =>
    have hitems := size_normalItems items fun item hitem => h.item hitem
    simp only [normal, size, tokens, List.cons_append, weigh_cons, weigh_append]
    omega
  | .object [] => exact Nat.le_refl _
  | .object ((name, value) :: rest) =>
    have hmembers := size_collect ((name, value) :: rest) [] fun entry hentry => h.member hentry
    have hne : collect float [] ((name, value) :: rest) ≠ [] := by
      rw [collect]
      exact collect_ne_nil (insertMember_ne_nil _ _ _)
    rw [normal, size_object hne, size_object (by simp)]
    simp only [entriesSize, List.map_nil, List.sum_nil] at hmembers ⊢
    omega

theorem size_normalItems (items : List Json) (h : ∀ item ∈ items, NoLonger float item) :
    weigh (itemTokens (normalItems float items)) ≤ weigh (itemTokens items) := by
  match items with
  | [] => exact Nat.le_refl _
  | [item] =>
    have := size_normal item (h item (by simp))
    simpa [normalItems, itemTokens, size] using this
  | first :: second :: rest =>
    have hfirst := size_normal first (h first (by simp))
    have hrest := size_normalItems (second :: rest) fun item hitem =>
      h item (List.mem_cons_of_mem _ hitem)
    rw [normalItems, normalItems, itemTokens_cons_cons, itemTokens_cons_cons]
    rw [normalItems] at hrest
    simp only [weigh_append, weigh_cons, size] at hfirst hrest ⊢
    omega

theorem size_collect (members built : List (List Char × Json))
    (h : ∀ entry ∈ members, NoLonger float entry.2) :
    entriesSize (collect float built members) ≤ entriesSize built + entriesSize members := by
  match members with
  | [] => simp [collect, entriesSize]
  | (name, value) :: rest =>
    have hvalue := size_normal value (h (name, value) (by simp))
    have hinsert := entriesSize_insertMember_le name (normal float value) built
    have hrest := size_collect rest (insertMember name (normal float value) built) fun entry hentry =>
      h entry (List.mem_cons_of_mem _ hentry)
    rw [collect]
    simp only [entriesSize, List.map_cons, List.sum_cons, entrySize] at hinsert hrest ⊢
    omega

end

/-! ## How deep values are -/

theorem membersDepth_insertMember (name : List Char) (value : Json) (members : List (List Char × Json)) :
    membersDepth (insertMember name value members) ≤ max (depth value) (membersDepth members) := by
  induction members with
  | nil => simp [insertMember, membersDepth]
  | cons first rest ih =>
    obtain ⟨other, old⟩ := first
    unfold insertMember
    split_ifs
    · exact Nat.le_refl _
    · simp only [membersDepth]
      omega
    · simp only [membersDepth]
      omega

mutual

/-- **A value is at most as deep as its document.** -/
theorem depth_normal (v : Json) : depth (normal float v) ≤ depth v := by
  match v with
  | .null | .bool _ | .string _ | .number _ => exact Nat.le_refl _
  | .array items =>
    have hitems := depth_normalItems items
    simp only [normal, depth]
    omega
  | .object members =>
    have hmembers := depth_collect members []
    simp only [normal, depth, membersDepth] at hmembers ⊢
    omega

theorem depth_normalItems (items : List Json) : itemsDepth (normalItems float items) ≤ itemsDepth items := by
  match items with
  | [] => exact Nat.le_refl _
  | item :: rest =>
    have hitem := depth_normal item
    have hrest := depth_normalItems rest
    simp only [normalItems, itemsDepth]
    omega

theorem depth_collect (members built : List (List Char × Json)) :
    membersDepth (collect float built members) ≤ max (membersDepth built) (membersDepth members) := by
  match members with
  | [] => exact Nat.le_max_left _ _
  | (name, value) :: rest =>
    have hvalue := depth_normal value
    have hinsert := membersDepth_insertMember name (normal float value) built
    have hrest := depth_collect rest (insertMember name (normal float value) built)
    simp only [collect, membersDepth]
    omega

end

theorem tokens_of_document {bytes : List UInt8} (h : document float bytes = some v) :
    ∃ text, bytes = encodeUtf8 text ∧ lex text = some (tokens v) := by
  obtain ⟨text, htext, h⟩ := Option.bind_eq_some_iff.mp h
  obtain ⟨found, hfound, h⟩ := Option.bind_eq_some_iff.mp h
  split_ifs at h with hhold
  exact ⟨text, decodeUtf8_iff.mp htext, tokens_of_read h ▸ hfound⟩

/-- **A value is at most as long as the document it was read from**, if no number is printed longer than
    it was written. -/
theorem size_normal_le {bytes : List UInt8} (h : document float bytes = some v)
    (hnumbers : NoLonger float v) : size (normal float v) ≤ bytes.length := by
  obtain ⟨text, rfl, hlex⟩ := tokens_of_document h
  exact (size_normal v hnumbers).trans (length_le_of_lex hlex)

/-! ## Values of bounded depth -/

/-- A value that nests at most `n` deep. -/
structure IsWithin (float : List Char → Option (List Char)) (n : Nat) (v : Json) : Prop where
  value : IsValue float v
  nested : depth v ≤ n

/-- The values of the fields nest at most `n` deep. -/
def FieldsWithin (float : List Char → Option (List Char)) (n : Nat) : List (String × Json) → Prop
  | [] => True
  | (_, value) :: rest => IsWithin float n value ∧ FieldsWithin float n rest

namespace IsWithin

variable {n m : Nat} {v value : Json}

theorem string (text : List Char) : IsWithin float n (.string text) := ⟨trivial, Nat.zero_le n⟩

theorem empty : IsWithin float (n + 1) (.object []) := ⟨⟨List.Pairwise.nil, trivial⟩, Nat.le_add_left 1 n⟩

theorem ofNat {k : Nat} (h : k < 2 ^ 64) : IsWithin float n (ofNat k) := ⟨isValue_ofNat h, Nat.zero_le n⟩

theorem set (hv : IsWithin float (n + 1) v) (hvalue : IsWithin float n value) (name : String) :
    IsWithin float (n + 1) (v.set name value) := by
  refine ⟨hv.value.set hvalue.value name, ?_⟩
  cases v with
  | object members =>
    have hinsert := membersDepth_insertMember name.toList value members
    have hvalue : depth value ≤ n := hvalue.nested
    have hmembers : 1 + membersDepth members ≤ n + 1 := hv.nested
    show 1 + membersDepth (insertMember name.toList value members) ≤ n + 1
    omega
  | null | bool | number | string | array => exact hv.nested

/-- Fields whose values nest at most `n` deep make an object that nests one more. -/
theorem ofMembers {members : List (String × Json)} (h : FieldsWithin float n members) :
    IsWithin float (n + 1) (ofMembers members) := by
  have hfold : ∀ (rest : List (String × Json)) (built : Json), FieldsWithin float n rest →
      IsWithin float (n + 1) built →
      IsWithin float (n + 1) (rest.foldl (fun built entry => built.set entry.1 entry.2) built) := by
    intro rest
    induction rest with
    | nil => exact fun built _ hbuilt => hbuilt
    | cons entry rest ih =>
      intro built hrest hbuilt
      exact ih _ hrest.2 (hbuilt.set hrest.1 entry.1)
  exact hfold members _ h empty

/-- **What is written is read back**, where the reader has room. -/
theorem fromSlice_toVec (h : IsWithin float n v) (hn : n ≤ Reader.maxOpen) :
    fromSlice float (toVec v) = some v :=
  Json.fromSlice_toVec h.value (h.nested.trans hn)

end IsWithin

end

end Bondry.Json
