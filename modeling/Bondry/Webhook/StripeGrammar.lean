/-
  THE STRIPE HEADER (`bondry-webhook-verify`, `provider.rs`).

  `parse_stripe_header` is one loop over the components between commas, with the timestamp and the signatures
  read so far as its state.  What it accepts is a property of the components alone.

  The source also refuses a value with another `=` in it; no decimal number and no hexadecimal digits
  have one, so this never decides.
-/
import Bondry.Webhook.Signatures

namespace Bondry.Webhook

open Encoding

/-! ## Values -/

theorem decodeNibble_isSome : ∀ b : UInt8, (decodeNibble b).isSome = isHexDigit b := by
  decide +kernel

theorem isHexDigit_ne_equals : ∀ b : UInt8, isHexDigit b = true → b ≠ 0x3D := by
  decide +kernel

variable {value : Bytes}

theorem decodeHex_isSome :
    (decodeHex value).isSome = true ↔ value.length % 2 = 0 ∧ ∀ b ∈ value, isHexDigit b = true := by
  induction value using decodeHex.induct with
  | case1 => simp [decodeHex]
  | case2 b => simp [decodeHex]
  | case3 high low rest ih =>
    have hhigh := decodeNibble_isSome high
    have hlow := decodeNibble_isSome low
    rw [decodeHex, List.forall_mem_cons, List.forall_mem_cons, List.length_cons, List.length_cons,
      ← hhigh, ← hlow]
    rcases decodeNibble high with _ | h
    · simp
    · rcases decodeNibble low with _ | l
      · simp
      · simp only [Option.bind_some, Option.isSome_map, ih, Option.isSome_some, true_and]
        have hparity : (rest.length + 1 + 1) % 2 = 0 ↔ rest.length % 2 = 0 := by omega
        rw [hparity]

/-- 64 hexadecimal digits. -/
def IsHexSignature (value : Bytes) : Prop := value.length = 64 ∧ ∀ b ∈ value, isHexDigit b = true

variable {signature : HmacSignature}

theorem fromHex_eq_some : HmacSignature.fromHex value = some signature ↔
      value.length = 64 ∧ decodeHex value = some signature.bytes := by
  unfold HmacSignature.fromHex
  by_cases hlength : value.length = 64
  · rw [dif_pos hlength]
    split
    · next bytes hbytes =>
      constructor
      · intro h
        cases h
        exact ⟨hlength, hbytes⟩
      · rintro ⟨-, h⟩
        obtain ⟨own, hown⟩ := signature
        have hsame : bytes = own := Option.some.inj (hbytes.symm.trans h)
        subst hsame
        rfl
    · next hnone => simp [hnone]
  · simp [hlength]

theorem fromHex_isSome :
    (∃ signature, HmacSignature.fromHex value = some signature) ↔ IsHexSignature value := by
  constructor
  · rintro ⟨signature, h⟩
    obtain ⟨hlength, hdecoded⟩ := fromHex_eq_some.mp h
    exact ⟨hlength, (decodeHex_isSome.mp (by rw [hdecoded]; rfl)).2⟩
  · rintro ⟨hlength, hdigits⟩
    obtain ⟨bytes, hbytes⟩ :=
      Option.isSome_iff_exists.mp (decodeHex_isSome.mpr ⟨by rw [hlength], hdigits⟩)
    have hhalf := decodeHex_length hbytes
    exact ⟨⟨bytes, by omega⟩, fromHex_eq_some.mpr ⟨hlength, hbytes⟩⟩

theorem parseSignature_iff :
    parseSignature value = .ok signature ↔ HmacSignature.fromHex value = some signature := by
  unfold parseSignature
  rcases HmacSignature.fromHex value with _ | found
  · simp
  · simp

theorem parseI64_lt {n : Int} (h : parseI64 value = some n) : n < 2 ^ 63 := by
  unfold parseI64 at h
  split at h
  · cases h
  split_ifs at h
  · obtain ⟨magnitude, -, h⟩ := Option.bind_eq_some_iff.mp h
    split_ifs at h
    cases h
    omega
  all_goals
    obtain ⟨magnitude, -, h⟩ := Option.bind_eq_some_iff.mp h
    split_ifs at h with hsmall
    cases h
    omega

theorem parseCanonicalTimestamp_iff {timestamp : Int} : parseCanonicalTimestamp value = .ok timestamp ↔
      ∃ n : Nat, n ≤ i64Max ∧ timestamp = n ∧ value = toDecimal n := by
  constructor
  · intro h
    obtain ⟨hnonneg, hvalue⟩ := parseCanonicalTimestamp_ok h
    have hparsed : parseI64 value = some timestamp := by
      unfold parseCanonicalTimestamp at h
      split at h
      · cases h
      · next found hfound =>
        split_ifs at h
        cases h
        exact hfound
    have hsmall := parseI64_lt hparsed
    obtain ⟨n, rfl⟩ := Int.eq_ofNat_of_zero_le hnonneg
    exact ⟨n, by unfold i64Max; omega, rfl, hvalue.trans (decimal_natCast n)⟩
  · rintro ⟨n, hn, rfl, rfl⟩
    have hsmall : n < 2 ^ 63 := Nat.lt_of_le_of_lt hn (by decide)
    unfold parseCanonicalTimestamp
    rw [parseI64_toDecimal hsmall]
    dsimp only
    rw [if_neg]
    rintro (hnegative | hother)
    · omega
    · exact hother (decimal_natCast n)

/-! ## Components -/

/-- What is in front of the first `=`. -/
def componentKey (component : Bytes) : Bytes := component.takeWhile (· ≠ 0x3D)

/-- What is behind it. -/
def componentValue (component : Bytes) : Bytes := (component.dropWhile (· ≠ 0x3D)).drop 1

/-- The values under a key, in their order. -/
def valuesOf (key : Bytes) (components : List Bytes) : List Bytes :=
  (components.filter fun component => componentKey component = key).map componentValue

theorem valuesOf_cons (key component : Bytes) (rest : List Bytes) : valuesOf key (component :: rest) =
      if componentKey component = key then componentValue component :: valuesOf key rest
      else valuesOf key rest := by
  unfold valuesOf
  by_cases h : componentKey component = key <;> simp [h]

/-- What a component does to what was read before it. -/
def Reads (parts : StripeParts) (component : Bytes) (parts' : StripeParts) : Prop :=
  if componentKey component = ascii "t" then
    parts.1 = none ∧ ∃ n : Nat, n ≤ i64Max ∧ componentValue component = toDecimal n ∧
      parts' = (some ((n : Int), componentValue component), parts.2)
  else if componentKey component = ascii "v1" then
    ∃ signature, HmacSignature.fromHex (componentValue component) = some signature ∧
      parts' = (parts.1, parts.2 ++ [signature])
  else parts' = parts

theorem equals_notMem_toDecimal (n : Nat) : (0x3D : UInt8) ∉ toDecimal n :=
  fun h => absurd (isDigit_of_mem_toDecimal h) (by decide)

theorem equals_notMem_hex (h : HmacSignature.fromHex value = some signature) : (0x3D : UInt8) ∉ value :=
  fun hmem => isHexDigit_ne_equals _ ((fromHex_isSome.mp ⟨signature, h⟩).2 _ hmem) rfl

variable {component : Bytes}

theorem stripeComponent_bare (h : 0x3D ∉ component) (parts : StripeParts) :
    stripeComponent parts component = .error .rejected := by
  have hnil : component.dropWhile (· ≠ 0x3D) = [] :=
    List.dropWhile_eq_nil_iff.mpr fun b hb => decide_eq_true fun heq => h (heq ▸ hb)
  simp only [stripeComponent, hnil]

theorem stripeComponent_pair (h : 0x3D ∈ component) (parts : StripeParts) : stripeComponent parts component =
      if componentKey component = ascii "t" then
        if parts.1.isSome ∨ 0x3D ∈ componentValue component then .error .rejected
        else (parseCanonicalTimestamp (componentValue component)).map fun timestamp =>
          (some (timestamp, componentValue component), parts.2)
      else if componentKey component = ascii "v1" then
        if 0x3D ∈ componentValue component then .error .rejected
        else (parseSignature (componentValue component)).map fun signature =>
          (parts.1, parts.2 ++ [signature]) else .ok parts := by
  rcases hdrop : component.dropWhile (· ≠ 0x3D) with _ | ⟨equals, value⟩
  · exact absurd (List.dropWhile_eq_nil_iff.mp hdrop 0x3D h) (by simp)
  · simp only [stripeComponent, componentKey, componentValue, hdrop, List.drop_succ_cons, List.drop_zero]
    rfl

/-- **One component.** -/
theorem stripeComponent_iff {parts parts' : StripeParts} : stripeComponent parts component = .ok parts' ↔
      0x3D ∈ component ∧ Reads parts component parts' := by
  by_cases hmem : 0x3D ∈ component
  · rw [stripeComponent_pair hmem, Reads]
    simp only [hmem, true_and]
    by_cases htime : componentKey component = ascii "t"
    · rw [if_pos htime, if_pos htime]
      constructor
      · intro h
        split_ifs at h with hrefused
        obtain ⟨timestamp, hparsed, rfl⟩ := map_eq_ok.mp h
        obtain ⟨n, hn, rfl, hvalue⟩ := parseCanonicalTimestamp_iff.mp hparsed
        exact ⟨Option.not_isSome_iff_eq_none.mp (not_or.mp hrefused).1, n, hn, hvalue, rfl⟩
      · rintro ⟨hnone, n, hn, hvalue, rfl⟩
        have hpass : ¬ (parts.1.isSome = true ∨ 0x3D ∈ componentValue component) := by
          rintro (hsome | hequals)
          · rw [hnone] at hsome
            cases hsome
          · exact equals_notMem_toDecimal n (hvalue ▸ hequals)
        rw [if_neg hpass]
        exact map_eq_ok.mpr ⟨n, parseCanonicalTimestamp_iff.mpr ⟨n, hn, rfl, hvalue⟩, rfl⟩
    · rw [if_neg htime, if_neg htime]
      by_cases hsigned : componentKey component = ascii "v1"
      · rw [if_pos hsigned, if_pos hsigned]
        constructor
        · intro h
          split_ifs at h
          obtain ⟨signature, hparsed, rfl⟩ := map_eq_ok.mp h
          exact ⟨signature, parseSignature_iff.mp hparsed, rfl⟩
        · rintro ⟨signature, hhex, rfl⟩
          rw [if_neg (equals_notMem_hex hhex)]
          exact map_eq_ok.mpr ⟨signature, parseSignature_iff.mpr hhex, rfl⟩
      · rw [if_neg hsigned, if_neg hsigned]
        exact ⟨fun h => (Except.ok.inj h).symm, fun h => h ▸ rfl⟩
  · rw [stripeComponent_bare hmem]
    simp [hmem]

/-! ## The loop -/

/-- What the values under `t` give: none leaves the timestamp as it was, and there is one at most. -/
def ReadsTimestamp (before : Option (Int × Bytes)) (values : List Bytes)
    (after : Option (Int × Bytes)) : Prop :=
  (values = [] ∧ after = before) ∨
    (before = none ∧ ∃ n : Nat, n ≤ i64Max ∧ values = [toDecimal n] ∧
      after = some ((n : Int), toDecimal n))

/-- What the values under `v1` give. -/
def ReadsSignatures (values : List Bytes) (signatures : List HmacSignature) : Prop :=
  values.map HmacSignature.fromHex = signatures.map some

variable {values : List Bytes}

/-- The first value under `t` is the timestamp, and the last one there is. -/
theorem readsTimestamp_cons {before after : Option (Int × Bytes)} :
    ReadsTimestamp before (value :: values) after ↔
      before = none ∧ ∃ n : Nat, n ≤ i64Max ∧ value = toDecimal n ∧
        ReadsTimestamp (some ((n : Int), value)) values after := by
  constructor
  · rintro (⟨hnil, -⟩ | ⟨hnone, n, hn, hvalues, rfl⟩)
    · cases hnil
    · obtain ⟨rfl, rfl⟩ := List.cons.inj hvalues
      exact ⟨hnone, n, hn, rfl, .inl ⟨rfl, rfl⟩⟩
  · rintro ⟨hnone, n, hn, rfl, ⟨rfl, rfl⟩ | ⟨hsome, -⟩⟩
    · exact .inr ⟨hnone, n, hn, rfl, rfl⟩
    · cases hsome

theorem readsSignatures_cons {signatures : List HmacSignature} :
    ReadsSignatures (value :: values) signatures ↔
      ∃ first rest, signatures = first :: rest ∧ HmacSignature.fromHex value = some first ∧
        ReadsSignatures values rest := by
  unfold ReadsSignatures
  rcases signatures with _ | ⟨first, rest⟩
  · simp
  · simp [and_assoc]

/-- **The loop over the components.** -/
theorem stripeComponents_iff {components : List Bytes} {parts parts' : StripeParts} :
    components.foldlM stripeComponent parts = .ok parts' ↔ (∀ component ∈ components, 0x3D ∈ component) ∧
        ReadsTimestamp parts.1 (valuesOf (ascii "t") components) parts'.1 ∧
        ∃ signatures, ReadsSignatures (valuesOf (ascii "v1") components) signatures ∧
          parts'.2 = parts.2 ++ signatures := by
  have hkeys : ascii "t" ≠ ascii "v1" := by decide
  induction components generalizing parts with
  | nil =>
    constructor
    · intro h
      cases h
      exact ⟨(fun _ hmem => nomatch hmem), .inl ⟨rfl, rfl⟩, [], rfl, (List.append_nil _).symm⟩
    · rintro ⟨-, ⟨-, htime⟩ | ⟨-, n, -, hnil, -⟩, signatures, hread, hsigned⟩
      · have hempty : signatures = [] := List.map_eq_nil_iff.mp hread.symm
        subst hempty
        rw [List.append_nil] at hsigned
        exact congrArg Except.ok (Prod.ext htime.symm hsigned.symm)
      · cases hnil
  | cons component rest ih =>
    rw [List.foldlM_cons, bind_eq_ok, List.forall_mem_cons, valuesOf_cons, valuesOf_cons]
    simp only [stripeComponent_iff, ih, Reads]
    by_cases htime : componentKey component = ascii "t"
    · -- a timestamp: none was there, and none may follow
      have hother : componentKey component ≠ ascii "v1" := fun heq => hkeys (htime.symm.trans heq)
      simp only [if_pos htime, if_neg hother, readsTimestamp_cons]
      constructor
      · rintro ⟨mid, ⟨hmem, hnone, n, hn, hvalue, rfl⟩, hall, hread, hsigned⟩
        exact ⟨⟨hmem, hall⟩, ⟨hnone, n, hn, hvalue, hread⟩, hsigned⟩
      · rintro ⟨⟨hmem, hall⟩, ⟨hnone, n, hn, hvalue, hread⟩, hsigned⟩
        exact ⟨_, ⟨hmem, hnone, n, hn, hvalue, rfl⟩, hall, hread, hsigned⟩
    · by_cases hsigned : componentKey component = ascii "v1"
      · -- a signature: behind the ones before it
        simp only [if_neg htime, if_pos hsigned, readsSignatures_cons]
        constructor
        · rintro ⟨mid, ⟨hmem, first, hfirst, rfl⟩, hall, hread, others, hothers, hparts⟩
          exact ⟨⟨hmem, hall⟩, hread, first :: others, ⟨first, others, rfl, hfirst, hothers⟩,
            by rw [hparts, List.append_assoc]; rfl⟩
        · rintro ⟨⟨hmem, hall⟩, hread, _, ⟨first, others, rfl, hfirst, hothers⟩, hparts⟩
          exact ⟨_, ⟨hmem, first, hfirst, rfl⟩, hall, hread, others, hothers,
            by rw [hparts, List.append_assoc]; rfl⟩
      · simp only [if_neg htime, if_neg hsigned]
        constructor
        · rintro ⟨mid, ⟨hmem, rfl⟩, hall, hread⟩
          exact ⟨⟨hmem, hall⟩, hread⟩
        · rintro ⟨⟨hmem, hall⟩, hread⟩
          exact ⟨_, ⟨hmem, rfl⟩, hall, hread⟩

/-! ## The header -/

def stripeComponents (header : Bytes) : List Bytes := header.splitOn 0x2C

/-- **What is asked of a header**, said of its components. -/
structure IsStripeHeader (components : List Bytes) : Prop where
  separated : ∀ component ∈ components, 0x3D ∈ component
  timestamp : ∃ n : Nat, n ≤ i64Max ∧ valuesOf (ascii "t") components = [toDecimal n]
  signed : valuesOf (ascii "v1") components ≠ []
  hex : ∀ value ∈ valuesOf (ascii "v1") components, IsHexSignature value

/-- What is returned for the components. -/
structure IsRead (components : List Bytes) (parsed : StripeHeader) : Prop where
  timestampBytes : valuesOf (ascii "t") components = [parsed.timestampBytes]
  timestamp : ∃ n : Nat, parsed.timestamp = n ∧ parsed.timestampBytes = toDecimal n
  signatures : (valuesOf (ascii "v1") components).map decodeHex =
    parsed.signatures.map fun signature => some signature.bytes

theorem parseStripeHeader_iff {header : Bytes} {parsed : StripeHeader} :
    parseStripeHeader header = .ok parsed ↔ (∀ component ∈ stripeComponents header, 0x3D ∈ component) ∧
        (∃ n : Nat, n ≤ i64Max ∧ valuesOf (ascii "t") (stripeComponents header) = [toDecimal n] ∧
          parsed.timestamp = n ∧ parsed.timestampBytes = toDecimal n) ∧ parsed.signatures ≠ [] ∧
        ReadsSignatures (valuesOf (ascii "v1") (stripeComponents header)) parsed.signatures := by
  unfold parseStripeHeader
  rw [bind_eq_ok]
  constructor
  · rintro ⟨⟨time, signatures⟩, hloop, h⟩
    obtain ⟨hall, htime, others, hread, hothers⟩ := stripeComponents_iff.mp hloop
    subst hothers
    rcases time with _ | ⟨timestamp, bytes⟩
    · cases h
    · dsimp only at h
      split_ifs at h with hempty
      cases h
      rcases htime with ⟨-, hnone⟩ | ⟨-, n, hn, hvalues, hsome⟩
      · cases hnone
      · cases hsome
        exact ⟨hall, ⟨n, hn, hvalues, rfl, rfl⟩, hempty, hread⟩
  · rintro ⟨hall, ⟨n, hn, hvalues, htimestamp, hbytes⟩, hsigned, hread⟩
    refine ⟨(some ((n : Int), toDecimal n), parsed.signatures), ?_, ?_⟩
    · exact stripeComponents_iff.mpr ⟨hall, .inr ⟨rfl, n, hn, hvalues, rfl⟩, _, hread, rfl⟩
    · dsimp only
      rw [if_neg hsigned, ← htimestamp, ← hbytes]
      rfl

theorem exists_signatures (h : ∀ value ∈ values, IsHexSignature value) :
    ∃ signatures, ReadsSignatures values signatures := by
  induction values with
  | nil => exact ⟨[], rfl⟩
  | cons value rest ih =>
    obtain ⟨first, hfirst⟩ := fromHex_isSome.mpr (h value (List.mem_cons_self ..))
    obtain ⟨others, hothers⟩ := ih fun other hother => h other (List.mem_cons_of_mem _ hother)
    exact ⟨first :: others, readsSignatures_cons.mpr ⟨first, others, rfl, hfirst, hothers⟩⟩

theorem ReadsSignatures.decoded {signatures : List HmacSignature} (h : ReadsSignatures values signatures) :
    (∀ value ∈ values, IsHexSignature value) ∧
      values.map decodeHex = signatures.map fun signature => some signature.bytes := by
  induction values generalizing signatures with
  | nil =>
    have hempty : signatures = [] := List.map_eq_nil_iff.mp h.symm
    subst hempty
    exact ⟨(fun _ hmem => nomatch hmem), rfl⟩
  | cons value rest ih =>
    obtain ⟨first, others, rfl, hfirst, hothers⟩ := readsSignatures_cons.mp h
    obtain ⟨hhex, hdecoded⟩ := ih hothers
    refine ⟨List.forall_mem_cons.mpr ⟨fromHex_isSome.mp ⟨first, hfirst⟩, hhex⟩, ?_⟩
    rw [List.map_cons, List.map_cons, hdecoded, (fromHex_eq_some.mp hfirst).2]

theorem parseStripeHeader_isOk (header : Bytes) :
    (∃ parsed, parseStripeHeader header = .ok parsed) ↔ IsStripeHeader (stripeComponents header) := by
  constructor
  · rintro ⟨parsed, h⟩
    obtain ⟨hall, ⟨n, hn, hvalues, -⟩, hsigned, hread⟩ := parseStripeHeader_iff.mp h
    refine ⟨hall, ⟨n, hn, hvalues⟩, fun hnil => hsigned ?_, hread.decoded.1⟩
    rw [hnil] at hread
    exact List.map_eq_nil_iff.mp hread.symm
  · rintro ⟨hall, ⟨n, hn, hvalues⟩, hsigned, hhex⟩
    obtain ⟨signatures, hread⟩ := exists_signatures hhex
    refine ⟨⟨n, toDecimal n, signatures⟩, parseStripeHeader_iff.mpr
      ⟨hall, ⟨n, hn, hvalues, rfl, rfl⟩, fun hnil => hsigned ?_, hread⟩⟩
    have hempty : signatures = [] := hnil
    rw [hempty] at hread
    exact List.map_eq_nil_iff.mp hread

def joinComponents (components : List Bytes) : Bytes := [0x2C].intercalate components

/-- A component under another key. -/
def IsOther (component : Bytes) : Prop :=
  0x3D ∈ component ∧ componentKey component ≠ ascii "t" ∧ componentKey component ≠ ascii "v1"

theorem stripeComponent_other (h : IsOther component) (parts : StripeParts) :
    stripeComponent parts component = .ok parts := by
  rw [stripeComponent_pair h.1, if_neg h.2.1, if_neg h.2.2]

/-- **A component under another key changes nothing**, wherever it stands. -/
theorem parseStripeHeader_other {before after : List Bytes} {other : Bytes}
    (hcommas : ∀ component ∈ before ++ other :: after, 0x2C ∉ component) (hother : IsOther other) :
    parseStripeHeader (joinComponents (before ++ other :: after)) =
      parseStripeHeader (joinComponents (before ++ after)) := by
  have hsplit : ∀ components : List Bytes, components ≠ [] →
      (∀ component ∈ components, 0x2C ∉ component) →
      (joinComponents components).splitOn 0x2C = components :=
    fun components hne hfree => List.splitOn_intercalate 0x2C hfree hne
  have hfree : ∀ component ∈ before ++ after, 0x2C ∉ component := fun component hmem =>
    hcommas component (by simp only [List.mem_append, List.mem_cons] at hmem ⊢; tauto)
  have hfold : (before ++ other :: after).foldlM stripeComponent (none, []) =
      (before ++ after).foldlM stripeComponent ((none, []) : StripeParts) := by
    rw [List.foldlM_append, List.foldlM_append]
    refine bind_congr fun parts => ?_
    rw [List.foldlM_cons, stripeComponent_other hother]
    rfl
  unfold parseStripeHeader
  rw [hsplit _ (by simp) hcommas, hfold]
  by_cases hempty : before ++ after = []
  · -- nothing else: neither text has a timestamp
    rw [hempty]
    rfl
  · rw [hsplit _ hempty hfree]

/-- **The grammar of the header.**  A header is accepted exactly when every component has a `=`, one
    component has the key `t` and the canonical text of a non-negative `i64`, and at least one has the key
    `v1`, each with 64 hexadecimal digits; the timestamp, its bytes and the decoded signatures are returned
    in their order; and a component under any other key changes nothing. -/
theorem stripe_header_grammar : (∀ header, (∃ parsed, parseStripeHeader header = .ok parsed) ↔
      IsStripeHeader (stripeComponents header)) ∧
    (∀ header parsed, parseStripeHeader header = .ok parsed → IsRead (stripeComponents header) parsed) ∧
    ∀ before after other, (∀ component ∈ before ++ other :: after, 0x2C ∉ component) → IsOther other →
        parseStripeHeader (joinComponents (before ++ other :: after)) =
          parseStripeHeader (joinComponents (before ++ after)) := by
  refine ⟨parseStripeHeader_isOk, fun header parsed h => ?_, fun before after other hcommas hother =>
    parseStripeHeader_other hcommas hother⟩
  obtain ⟨-, ⟨n, -, hvalues, htimestamp, hbytes⟩, -, hread⟩ := parseStripeHeader_iff.mp h
  exact ⟨hbytes ▸ hvalues, ⟨n, htimestamp, hbytes⟩, hread.decoded.2⟩

end Bondry.Webhook
