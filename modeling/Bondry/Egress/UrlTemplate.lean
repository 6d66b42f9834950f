/-
  SECRET URL TEMPLATES (`bondry-egress-webhook`, `template.rs`).

  A template is a URL with one `{secret}` in it, which must be a whole path segment or a whole query value.
  It is CHECKED on a text where a fixed sentinel stands for the secret, and EXPANDED from the redacted text
  with the percent-encoded secret.  What ties the two together is that the placeholder, the sentinel and every
  encoded secret have no delimiter in them, so that all three texts are cut at the same places.
-/
import Bondry.Egress.Endpoint
import Bondry.Lib.Json

namespace Bondry.Egress

open Search Encoding

/-! ## Templates -/

structure UrlTemplateLimits where
  templateBytes : Nat
  expandedBytes : Nat
  template_mem : 1 ≤ templateBytes ∧ templateBytes ≤ 2 * 1024
  expanded_mem : 1 ≤ expandedBytes ∧ expandedBytes ≤ maxNetworkEndpointBytes
  deriving DecidableEq

inductive UrlTemplateError where
  | templateLength
  | placeholderCount
  | ambiguousTemplate
  | fragmentForbidden
  | invalidEndpoint
  | placeholderPosition
  | expandedLength
  | invalidExpansion
  | originChanged
  deriving DecidableEq, Repr

def secretUrlPlaceholder : Text := ['\x7b', 's', 'e', 'c', 'r', 'e', 't', '\x7d']

def parseSentinel : Text := "bondry-secret-placeholder-8c09e98d".toList

/-- `str::replacen(placeholder, by, 1)`. -/
def fillPlaceholder (redacted filling : Text) : Text :=
  match findFirst secretUrlPlaceholder redacted with
  | none => redacted
  | some (front, back) => front ++ filling ++ back

/-- The value of a query pair: `split_once('=')`. -/
def pairValue (pair : Text) : Option Text := (findFirst ['='] pair).map (·.2)

def pathMatches (path : Text) : Nat := ((path.splitOn '/').filter (· = parseSentinel)).length

def queryMatches (query : Text) : Nat :=
  ((query.splitOn '&').filter (pairValue · = some parseSentinel)).length

def placeholderIsComplete (uri : Uri) : Bool :=
  pathMatches uri.shownPath + (uri.query.map queryMatches).getD 0 = 1

structure SecretUrlTemplate where
  redacted : Text
  reference : SecretRef
  parsed : UriEndpoint
  limits : UrlTemplateLimits

def SecretUrlTemplate.new (rules : UriRules) (redacted : Text) (reference : SecretRef)
    (limits : UrlTemplateLimits) : Except UrlTemplateError SecretUrlTemplate :=
  if redacted = [] ∨ limits.templateBytes < utf8Len redacted then .error .templateLength
  else if '#' ∈ redacted then .error .fragmentForbidden
  else if (findFirst parseSentinel redacted).isSome then .error .ambiguousTemplate
  else if countMatches secretUrlPlaceholder 0 redacted ≠ 1 then .error .placeholderCount
  else match rules.parse (fillPlaceholder redacted parseSentinel) with
    | none => .error .invalidEndpoint
    | some uri =>
      if placeholderIsComplete uri = false then .error .placeholderPosition
      else match UriEndpoint.new rules uri with
        | .error _ => .error .invalidEndpoint
        | .ok parsed =>
          match parsed.scheme with
          | .http | .https => .ok ⟨redacted, reference, parsed, limits⟩
          | .webSocket | .webSocketSecure => .error .invalidEndpoint

def upperHexDigit (value : UInt8) : Char :=
  if value < 10 then Char.ofNat (48 + value.toNat) else Char.ofNat (55 + value.toNat)

def percentEncodeByte (b : UInt8) : Text :=
  if isUnreserved b then [Char.ofNat b.toNat]
  else ['%', upperHexDigit (b >>> 4), upperHexDigit (b &&& 0x0f)]

def percentEncode (bytes : Bytes) : Text := bytes.flatMap percentEncodeByte

def sameOrigin (configured expanded : UriEndpoint) : Bool :=
  configured.uri.scheme = expanded.uri.scheme && configured.uri.authority = expanded.uri.authority

def SecretUrlTemplate.expand (rules : UriRules) (template : SecretUrlTemplate) (secret : ResolvedSecret) :
    Except UrlTemplateError UriEndpoint :=
  let expanded := fillPlaceholder template.redacted (percentEncode secret.current.bytes)
  if template.limits.expandedBytes < utf8Len expanded then .error .expandedLength
  else match rules.parse expanded with
    | none => .error .invalidExpansion
    | some uri =>
      match UriEndpoint.new rules uri with
      | .error _ => .error .invalidExpansion
      | .ok endpoint =>
        if sameOrigin template.parsed endpoint = false then .error .originChanged
        else .ok endpoint

/-! ## Texts without delimiters -/

def delimiters : Text := [':', '/', '?', '#', '&', '=']

/-- A text that can stand in a component without being cut. -/
def Bare (x : Text) : Prop := ∀ c ∈ x, c ∉ delimiters

variable {x : Text}

theorem Bare.ne (hx : Bare x) {d : Char} (hd : d ∈ delimiters) : d ∉ x :=
  fun hmem => hx d hmem hd

theorem bare_of_all (h : x.all (fun c => !delimiters.elem c) = true) : Bare x := by
  intro c hc hmem
  have := List.all_eq_true.mp h c hc
  rw [List.elem_eq_true_of_mem hmem] at this
  cases this

theorem bare_placeholder : Bare secretUrlPlaceholder := bare_of_all rfl

theorem bare_parseSentinel : Bare parseSentinel := bare_of_all (by decide +kernel)

theorem component_not_delimiter {c : Char} (hc : isComponentChar c = true) : c ∉ delimiters := by
  intro hmem
  have hall : delimiters.all (fun d => !isComponentChar d) = true := by decide
  have := List.all_eq_true.mp hall c hmem
  rw [hc] at this
  cases this

/-! ## Percent encoding -/

/-- The bytes a component stands for: unreserved characters and escapes, and nothing else. -/
def percentDecode : Text → Option Bytes
  | [] => some []
  | c :: rest =>
    if c = '%' then
      match rest with
      | high :: low :: rest => do
          let high ← Json.Lexer.hexValue high
          let low ← Json.Lexer.hexValue low
          let bytes ← percentDecode rest
          some (UInt8.ofNat (16 * high + low) :: bytes)
      | _ => none
    else if c.toNat < 128 ∧ isUnreserved (UInt8.ofNat c.toNat) = true then
      (percentDecode rest).map (UInt8.ofNat c.toNat :: ·)
    else none

theorem unreserved_char {b : UInt8} (hb : isUnreserved b = true) :
    (Char.ofNat b.toNat).toNat = b.toNat ∧ Char.ofNat b.toNat ≠ '%' ∧ b.toNat < 128 := by
  have htest := forall_byte (p := fun b => !isUnreserved b || decide ((Char.ofNat b.toNat).toNat = b.toNat ∧
    Char.ofNat b.toNat ≠ '%' ∧ b.toNat < 128)) (by decide +kernel) b
  rw [hb] at htest
  simpa using htest

theorem hexValue_halves (b : UInt8) : Json.Lexer.hexValue (upperHexDigit (b >>> 4)) = some (b.toNat / 16) ∧
      Json.Lexer.hexValue (upperHexDigit (b &&& 0x0f)) = some (b.toNat % 16) := by
  have htest := forall_byte (p := fun b => decide (
    Json.Lexer.hexValue (upperHexDigit (b >>> 4)) = some (b.toNat / 16) ∧
      Json.Lexer.hexValue (upperHexDigit (b &&& 0x0f)) = some (b.toNat % 16))) (by decide +kernel) b
  exact of_decide_eq_true htest

theorem percentDecode_encodeByte (b : UInt8) (rest : Text) :
    percentDecode (percentEncodeByte b ++ rest) = (percentDecode rest).map (b :: ·) := by
  rw [percentEncodeByte]
  split_ifs with hb
  · obtain ⟨hchar, hpercent, hsmall⟩ := unreserved_char hb
    show percentDecode (Char.ofNat b.toNat :: rest) = _
    rw [percentDecode.eq_def]
    dsimp only
    rw [if_neg hpercent, hchar, UInt8.ofNat_toNat, if_pos ⟨hsmall, hb⟩]
  · obtain ⟨hhigh, hlow⟩ := hexValue_halves b
    show percentDecode ('%' :: upperHexDigit (b >>> 4) :: upperHexDigit (b &&& 0x0f) :: rest) = _
    have hbyte : UInt8.ofNat (16 * (b.toNat / 16) + b.toNat % 16) = b := by
      rw [Nat.div_add_mod, UInt8.ofNat_toNat]
    rw [percentDecode, if_pos rfl]
    simp only [hhigh, hlow, bind, Option.bind, hbyte]
    cases percentDecode rest <;> rfl

theorem percentDecode_encode (bytes : Bytes) : percentDecode (percentEncode bytes) = some bytes := by
  induction bytes with
  | nil => rfl
  | cons b rest ih =>
    rw [percentEncode, List.flatMap_cons, percentDecode_encodeByte]
    change Option.map _ (percentDecode (percentEncode rest)) = _
    rw [ih]
    rfl

theorem component_encode (bytes : Bytes) : ∀ c ∈ percentEncode bytes, isComponentChar c = true := by
  intro c hc
  obtain ⟨b, -, hmem⟩ := List.mem_flatMap.mp hc
  have htest := forall_byte (p := fun b => (percentEncodeByte b).all isComponentChar) (by decide +kernel) b
  exact List.all_eq_true.mp htest c hmem

theorem bare_encode (bytes : Bytes) : Bare (percentEncode bytes) :=
  fun c hc => component_not_delimiter (component_encode bytes c hc)

/-! ## Places to fill -/

/-- A URI with a place to fill, in its path or in its query. -/
inductive Gap where
  | inPath (scheme authority front back : Text) (query : Option Text)
  | inQuery (scheme authority path front back : Text)

def Gap.fill : Gap → Text → Uri
  | .inPath scheme authority front back query, x =>
    ⟨some scheme, some authority, front ++ x ++ back, query⟩
  | .inQuery scheme authority path front back, x =>
    ⟨some scheme, some authority, path, some (front ++ x ++ back)⟩

/-- The place is a whole segment, or a whole value. -/
def Gap.Component : Gap → Prop
  | .inPath _ _ front back _ => ∃ before after, ∀ x, Bare x →
      (front ++ x ++ back).splitOn '/' = before ++ x :: after
  | .inQuery _ _ _ front back => ∃ before name after, '=' ∉ name ∧ ∀ x, Bare x →
      (front ++ x ++ back).splitOn '&' = before ++ (name ++ '=' :: x) :: after

theorem takeWhile_of_mem {p : Char → Bool} {a : Text} (h : ∃ c ∈ a, p c = false) (b : Text) :
    (a ++ b).takeWhile p = a.takeWhile p ∧ (a ++ b).dropWhile p = a.dropWhile p ++ b := by
  obtain ⟨c, hc, hp⟩ := h
  have hshort : (a.takeWhile p).length ≠ a.length := by
    intro hlen
    have := List.takeWhile_eq_self_iff.mp ((List.takeWhile_prefix p).eq_of_length hlen) c hc
    rw [hp] at this
    cases this
  have hrest : (a.dropWhile p).isEmpty = false := by
    rw [List.isEmpty_eq_false_iff]
    intro hnil
    have := List.dropWhile_eq_nil_iff.mp hnil c hc
    rw [hp] at this
    cases this
  rw [List.takeWhile_append, if_neg hshort, List.dropWhile_append, if_neg (by simp [hrest])]
  exact ⟨rfl, rfl⟩

/-- The place behind `rest` and in front of `back`, where the authority ends in `rest`. -/
def gapOf (scheme rest back : Text) : Gap :=
  let authority := rest.takeWhile fun c => !endsAuthority c
  let target := rest.dropWhile fun c => !endsAuthority c
  match findFirst ['?'] target, findFirst ['?'] back with
  | some (path, query), _ => .inQuery scheme authority path query back
  | none, none => .inPath scheme authority target back none
  | none, some (path, query) => .inPath scheme authority target path (some query)

variable {rest : Text}

theorem splitTarget_fill (scheme : Text) (hend : ∃ c ∈ rest, (!endsAuthority c) = false)
    (back : Text) (hx : Bare x) :
    splitTarget scheme (rest ++ x ++ back) = (gapOf scheme rest back).fill x := by
  obtain ⟨htake, hdrop⟩ := takeWhile_of_mem hend (x ++ back)
  rw [List.append_assoc, splitTarget, htake, hdrop, gapOf]
  rcases hquery : findFirst ['?'] (rest.dropWhile fun c => !endsAuthority c) with _ | ⟨path, query⟩
  · -- the question mark, if there is one, is behind the place
    have hpass : ∀ c ∈ rest.dropWhile (fun c => !endsAuthority c) ++ x, c ∉ ['?'] := by
      intro c hc hmark
      rw [List.mem_singleton.mp hmark] at hc
      rcases List.mem_append.mp hc with hc | hc
      · exact findFirst_char_eq_none.mp hquery hc
      · exact hx.ne (by decide) hc
    rw [← List.append_assoc, findFirst_skip hpass (by decide) back]
    rcases findFirst ['?'] back with _ | ⟨path, query⟩
    · rfl
    · rfl
  · rw [findFirst_append hquery (by decide), ← List.append_assoc]
    rfl

def Gap.texts : Gap → List Text
  | .inPath _ _ front back query => front :: back :: query.toList
  | .inQuery _ _ path front back => [path, front, back]

variable {back : Text}

theorem gapOf_texts {scheme t : Text} (ht : t ∈ (gapOf scheme rest back).texts) :
    t <:+: rest ∨ t <:+: back := by
  have htarget : rest.dropWhile (fun c => !endsAuthority c) <:+: rest := (List.dropWhile_suffix _).isInfix
  rw [gapOf] at ht
  rcases hquery : findFirst ['?'] (rest.dropWhile fun c => !endsAuthority c) with _ | ⟨path, query⟩
  · rcases hback : findFirst ['?'] back with _ | ⟨path, query⟩
    · simp only [hquery, hback, Gap.texts, List.mem_cons, Option.toList, List.not_mem_nil, or_false] at ht
      rcases ht with rfl | rfl
      · exact .inl htarget
      · exact .inr (List.infix_refl _)
    · simp only [hquery, hback, Gap.texts, List.mem_cons, Option.toList, List.not_mem_nil, or_false] at ht
      rcases ht with rfl | rfl | rfl
      · exact .inl htarget
      · exact .inr (findFirst_parts hback).1
      · exact .inr (findFirst_parts hback).2
  · simp only [hquery, Gap.texts, List.mem_cons, List.not_mem_nil, or_false] at ht
    rcases ht with rfl | rfl | rfl
    · exact .inl ((findFirst_parts hquery).1.trans htarget)
    · exact .inl ((findFirst_parts hquery).2.trans htarget)
    · exact .inr (List.infix_refl _)

/-! ## Complete placeholders -/

/-- The `/` of a URI without a path has no segment that is the sentinel. -/
theorem placeholderIsComplete_eq (uri : Uri) : placeholderIsComplete uri =
    decide (pathMatches uri.path + (uri.query.map queryMatches).getD 0 = 1) := by
  have hsame : pathMatches uri.shownPath = pathMatches uri.path := by
    unfold Uri.shownPath
    split
    · next hempty =>
      rw [hempty.1]
      decide +kernel
    · rfl
  rw [placeholderIsComplete, hsame]

theorem pathMatches_clean {path : Text} (h : ¬ parseSentinel <:+: path) : pathMatches path = 0 := by
  rw [pathMatches, List.length_eq_zero_iff, List.filter_eq_nil_iff]
  intro segment hmem heq
  exact h (of_decide_eq_true heq ▸ infix_of_mem_splitOn hmem)

theorem pairValue_part {pair value : Text} (h : pairValue pair = some value) : value <:+: pair := by
  obtain ⟨⟨name, value⟩, hfound, rfl⟩ := Option.map_eq_some_iff.mp h
  exact (findFirst_parts hfound).2

theorem queryMatches_clean {query : Text} (h : ¬ parseSentinel <:+: query) : queryMatches query = 0 := by
  rw [queryMatches, List.length_eq_zero_iff, List.filter_eq_nil_iff]
  intro pair hmem heq
  exact h ((pairValue_part (of_decide_eq_true heq)).trans (infix_of_mem_splitOn hmem))

/-- If one piece passes a test and those around it do not, it is that piece. -/
theorem middle_passes {p : Text → Bool} {before after : List Text} {piece : Text}
    (hbefore : ∀ t ∈ before, ¬ p t = true) (hafter : ∀ t ∈ after, ¬ p t = true)
    (h : ((before ++ piece :: after).filter p).length = 1) : p piece = true := by
  by_contra hpiece
  rw [List.filter_append, List.filter_cons_of_neg hpiece, List.filter_eq_nil_iff.mpr hbefore,
    List.filter_eq_nil_iff.mpr hafter] at h
  cases h

variable {front : Text}

theorem filled_passes {p : Text → Bool} {d : Char} (hd : d ∈ delimiters)
    (hp : ∀ t, p t = true → parseSentinel <:+: t) (hfront : ¬ parseSentinel <:+: front)
    (hback : ¬ parseSentinel <:+: back)
    (h : (((front ++ parseSentinel ++ back).splitOn d).filter p).length = 1) :
    ∃ before last first after, p (last ++ parseSentinel ++ first) = true ∧ ¬ parseSentinel <:+: first ∧
      ∀ x, Bare x → (front ++ x ++ back).splitOn d = before ++ (last ++ x ++ first) :: after := by
  obtain ⟨before, last, first, after, hbefore, hafter, hfill⟩ := splitOn_fill d front back
  have hin : ∀ t ∈ before, t <:+: front := fun t ht => infix_of_mem_splitOn (by rw [hbefore]; simp [ht])
  have hout : ∀ t ∈ first :: after, t <:+: back := fun t ht => infix_of_mem_splitOn (by rw [hafter]; exact ht)
  rw [hfill _ (bare_parseSentinel.ne hd)] at h
  refine ⟨before, last, first, after, ?_, ?_, fun x hx => hfill x (hx.ne hd)⟩
  · refine middle_passes ?_ ?_ h
    · exact fun t ht hpass => hfront ((hp t hpass).trans (hin t ht))
    · exact fun t ht hpass => hback ((hp t hpass).trans (hout t (List.mem_cons_of_mem _ ht)))
  · exact fun hmem => hback (hmem.trans (hout first (List.mem_cons_self ..)))

theorem eq_nil_of_surrounded {a b : Text} (h : a ++ x ++ b = x) : a = [] ∧ b = [] := by
  have hlength := congrArg List.length h
  simp only [List.length_append] at hlength
  exact ⟨List.length_eq_zero_iff.mp (by omega), List.length_eq_zero_iff.mp (by omega)⟩

theorem segment_of_matches (hfront : ¬ parseSentinel <:+: front) (hback : ¬ parseSentinel <:+: back)
    (h : pathMatches (front ++ parseSentinel ++ back) = 1) :
    ∃ before after, ∀ x, Bare x → (front ++ x ++ back).splitOn '/' = before ++ x :: after := by
  obtain ⟨before, last, first, after, hmiddle, -, hfill⟩ := filled_passes (by decide)
    (fun t ht => by rw [of_decide_eq_true ht]) hfront hback h
  obtain ⟨rfl, rfl⟩ := eq_nil_of_surrounded (of_decide_eq_true hmiddle)
  refine ⟨before, after, fun x hx => ?_⟩
  rw [hfill x hx, List.nil_append, List.append_nil]

theorem pairValue_surrounded {last first : Text} (hfirst : ¬ parseSentinel <:+: first)
    (h : pairValue (last ++ parseSentinel ++ first) = some parseSentinel) :
    ∃ name, '=' ∉ name ∧ last = name ++ ['='] ∧ first = [] := by
  rw [pairValue] at h
  rcases hname : findFirst ['='] last with _ | ⟨name, value⟩
  · -- the first equals sign is behind the sentinel, and so is the value
    have hpass : ∀ c ∈ last ++ parseSentinel, c ∉ ['='] := by
      intro c hc hmark
      rw [List.mem_singleton.mp hmark] at hc
      rcases List.mem_append.mp hc with hc | hc
      · exact findFirst_char_eq_none.mp hname hc
      · exact bare_parseSentinel.ne (by decide) hc
    rw [findFirst_skip hpass (by decide), Option.map_map] at h
    exact absurd (pairValue_part h) hfirst
  · rw [List.append_assoc, findFirst_append hname (by decide), ← List.append_assoc] at h
    obtain ⟨rfl, rfl⟩ := eq_nil_of_surrounded (Option.some.inj h)
    exact ⟨name, not_mem_of_findFirst_char hname, by simpa using findFirst_eq_some hname, rfl⟩

theorem value_of_matches (hfront : ¬ parseSentinel <:+: front) (hback : ¬ parseSentinel <:+: back)
    (h : queryMatches (front ++ parseSentinel ++ back) = 1) : ∃ before name after, '=' ∉ name ∧ ∀ x, Bare x →
      (front ++ x ++ back).splitOn '&' = before ++ (name ++ '=' :: x) :: after := by
  obtain ⟨before, last, first, after, hmiddle, hfirst, hfill⟩ := filled_passes (by decide)
    (fun t ht => pairValue_part (of_decide_eq_true ht)) hfront hback h
  obtain ⟨name, hname, rfl, rfl⟩ := pairValue_surrounded hfirst (of_decide_eq_true hmiddle)
  refine ⟨before, name, after, hname, fun x hx => ?_⟩
  rw [hfill x hx, List.append_nil, List.append_assoc]
  rfl

variable {gap : Gap}

theorem Gap.component_of_complete (hclean : ∀ t ∈ gap.texts, ¬ parseSentinel <:+: t)
    (h : placeholderIsComplete (gap.fill parseSentinel) = true) : gap.Component := by
  rw [placeholderIsComplete_eq] at h
  have hone := of_decide_eq_true h
  rcases gap with ⟨scheme, authority, front, back, query⟩ | ⟨scheme, authority, path, front, back⟩
  · refine segment_of_matches (hclean front (by simp [Gap.texts])) (hclean back (by simp [Gap.texts])) ?_
    have hquery : (query.map queryMatches).getD 0 = 0 := by
      rcases query with _ | query
      · rfl
      · exact queryMatches_clean (hclean query (by simp [Gap.texts]))
    rw [Gap.fill, hquery] at hone
    exact hone
  · refine value_of_matches (hclean front (by simp [Gap.texts])) (hclean back (by simp [Gap.texts])) ?_
    have hpath := pathMatches_clean (hclean path (by simp [Gap.texts]))
    rw [Gap.fill, hpath, Nat.zero_add] at hone
    exact hone

/-! ## Accepted templates -/

variable {rules : UriRules} {template : SecretUrlTemplate}

theorem SecretUrlTemplate.new_eq_ok {redacted : Text} {reference : SecretRef} {limits : UrlTemplateLimits}
    (h : SecretUrlTemplate.new rules redacted reference limits = .ok template) :
    '#' ∉ redacted ∧ ¬ parseSentinel <:+: redacted ∧ countMatches secretUrlPlaceholder 0 redacted = 1 ∧
      ∃ uri parsed, rules.parse (fillPlaceholder redacted parseSentinel) = some uri ∧
        placeholderIsComplete uri = true ∧ UriEndpoint.new rules uri = .ok parsed ∧
        template = ⟨redacted, reference, parsed, limits⟩ := by
  rw [SecretUrlTemplate.new] at h
  split_ifs at h with hlength hfragment hsentinel hcount
  rcases hparse : rules.parse (fillPlaceholder redacted parseSentinel) with _ | uri
  · rw [hparse] at h
    cases h
  rw [hparse] at h
  dsimp only at h
  split_ifs at h with hcomplete
  rcases hnew : UriEndpoint.new rules uri with error | parsed
  · rw [hnew] at h
    cases h
  have hfree : ¬ parseSentinel <:+: redacted := by
    rw [← findFirst_eq_none]
    simpa using hsentinel
  refine ⟨hfragment, hfree, not_not.mp hcount, uri, parsed, rfl, by simpa using hcomplete, hnew, ?_⟩
  rw [hnew] at h
  dsimp only at h
  split at h
  · cases h
    rfl
  · cases h
    rfl
  · cases h
  · cases h

/-- A sentinel in front of the end of the authority is not a component of the target. -/
theorem incomplete_in_authority {scheme : Text} (hend : ∀ c ∈ rest, (!endsAuthority c) = true)
    (hback : ¬ parseSentinel <:+: back) :
    placeholderIsComplete (splitTarget scheme (rest ++ parseSentinel ++ back)) = false := by
  have hpass : ∀ c ∈ rest ++ parseSentinel, (!endsAuthority c) = true := by
    intro c hc
    rcases List.mem_append.mp hc with hc | hc
    · exact hend c hc
    · have hslash : c ≠ '/' := fun heq => bare_parseSentinel.ne (by decide) (heq ▸ hc)
      have hmark : c ≠ '?' := fun heq => bare_parseSentinel.ne (by decide) (heq ▸ hc)
      simp [endsAuthority, hslash, hmark]
  have htarget : back.dropWhile (fun c => !endsAuthority c) <:+: back := (List.dropWhile_suffix _).isInfix
  have hclean : ∀ t, t <:+: back.dropWhile (fun c => !endsAuthority c) → ¬ parseSentinel <:+: t :=
    fun t ht hmem => hback (hmem.trans (ht.trans htarget))
  rw [placeholderIsComplete_eq, splitTarget, List.dropWhile_append_of_pos hpass]
  rcases hquery : findFirst ['?'] (back.dropWhile fun c => !endsAuthority c) with _ | ⟨path, query⟩
  · have hpath := pathMatches_clean (hclean _ (List.infix_refl _))
    exact decide_eq_false (by dsimp only; rw [hpath]; decide)
  · have hpath := pathMatches_clean (hclean _ (findFirst_parts hquery).1)
    have hvalue := queryMatches_clean (hclean _ (findFirst_parts hquery).2)
    exact decide_eq_false (by dsimp only [Option.map_some, Option.getD_some]; rw [hpath, hvalue]; decide)

/-- A check that passes on the sentinel passes on every filling without delimiters, which are all cut at the
    same places. -/
theorem gap_of_complete (hfront : ¬ parseSentinel <:+: front) (hback : ¬ parseSentinel <:+: back)
    {uri : Uri} {kind : NetworkScheme} (hsplit : splitUri (front ++ parseSentinel ++ back) = some uri)
    (hkind : networkScheme uri.scheme = some kind) (hcomplete : placeholderIsComplete uri = true) :
    ∃ gap : Gap, gap.Component ∧ ∀ x, Bare x → splitUri (front ++ x ++ back) = some (gap.fill x) := by
  obtain ⟨⟨scheme, rest⟩, hmark, rfl⟩ := Option.map_eq_some_iff.mp hsplit
  rcases hin : findFirst schemeMark front with _ | ⟨scheme', rest'⟩
  · -- the scheme would have the sentinel in it, and be too long for a supported one
    have hsentinel : ∀ c ∈ parseSentinel, c ∉ schemeMark := by
      intro c hc hmem
      exact bare_parseSentinel c hc ((by decide : schemeMark ⊆ delimiters) hmem)
    rw [findFirst_fill hin hsentinel (by decide +kernel) (by decide)] at hmark
    obtain ⟨⟨more, rest⟩, -, heq⟩ := Option.map_eq_some_iff.mp hmark
    cases heq
    have hscheme : (splitTarget (front ++ parseSentinel ++ more) rest).scheme =
        some (front ++ parseSentinel ++ more) := by
      rw [splitTarget]
      split
      · rfl
      · rfl
    have hshort := networkScheme_length (hscheme ▸ hkind)
    have hsize : parseSentinel.length = 34 := by decide +kernel
    simp only [List.length_append] at hshort
    omega
  · have hfound := fun x => findFirst_append hin (by decide) (x ++ back)
    rw [List.append_assoc, hfound] at hmark
    cases hmark
    by_cases hend : ∃ c ∈ rest', (!endsAuthority c) = false
    · have hgap : ∀ x, Bare x → splitUri (front ++ x ++ back) = some ((gapOf scheme rest' back).fill x) := by
        intro x hx
        rw [splitUri, List.append_assoc, hfound, Option.map_some, ← List.append_assoc,
          splitTarget_fill _ hend _ hx]
      refine ⟨gapOf scheme rest' back, Gap.component_of_complete ?_ ?_, hgap⟩
      · intro t ht hmem
        rcases gapOf_texts ht with hrest | hrest
        · exact hfront (hmem.trans (hrest.trans (findFirst_parts hin).2))
        · exact hback (hmem.trans hrest)
      · rw [← splitTarget_fill _ hend _ bare_parseSentinel, List.append_assoc]
        exact hcomplete
    · -- the sentinel stands in the authority, where it is not counted
      have hall : ∀ c ∈ rest', (!endsAuthority c) = true :=
        fun c hc => Bool.of_not_eq_false fun heq => hend ⟨c, hc, heq⟩
      have hnone : placeholderIsComplete (splitTarget scheme (rest' ++ parseSentinel ++ back)) = false :=
        incomplete_in_authority hall hback
      rw [List.append_assoc] at hnone
      exact absurd hcomplete (by rw [hnone]; decide)

/-- What an accepted template is, for every text that can be put into it. -/
structure SecretUrlTemplate.Accepted (rules : UriRules) (template : SecretUrlTemplate) (gap : Gap) : Prop where
  component : gap.Component
  split : ∀ x, Bare x → splitUri (fillPlaceholder template.redacted x) = some (gap.fill x)
  whole : ∀ x, Bare x → '#' ∉ fillPlaceholder template.redacted x
  unfilled : fillPlaceholder template.redacted secretUrlPlaceholder = template.redacted
  parsed : rules.parse (fillPlaceholder template.redacted parseSentinel) = some (gap.fill parseSentinel)
  endpoint : UriEndpoint.new rules (gap.fill parseSentinel) = .ok template.parsed

theorem SecretUrlTemplate.accepted_of_new {redacted : Text} {reference : SecretRef}
    {limits : UrlTemplateLimits} (h : SecretUrlTemplate.new rules redacted reference limits = .ok template) :
    template.redacted = redacted ∧ template.limits = limits ∧ ∃ gap, template.Accepted rules gap := by
  obtain ⟨hfragment, hfree, hcount, uri, parsed, hparse, hcomplete, hnew, rfl⟩ := new_eq_ok h
  refine ⟨rfl, rfl, ?_⟩
  obtain ⟨front, back, hfound⟩ : ∃ front back, findFirst secretUrlPlaceholder redacted = some (front, back) := by
    rcases hnone : findFirst secretUrlPlaceholder redacted with _ | ⟨front, back⟩
    · rw [countMatches_of_none hnone] at hcount
      cases hcount
    · exact ⟨front, back, rfl⟩
  have hredacted := findFirst_eq_some hfound
  have hfill : ∀ x, fillPlaceholder redacted x = front ++ x ++ back := fun x => by rw [fillPlaceholder, hfound]
  have hwhole : ∀ x, Bare x → '#' ∉ fillPlaceholder redacted x := by
    intro x hx hmem
    rw [hfill, List.mem_append, List.mem_append] at hmem
    rw [hredacted] at hfragment
    rcases hmem with (hmem | hmem) | hmem
    · exact hfragment (by simp [hmem])
    · exact hx.ne (by decide) hmem
    · exact hfragment (by simp [hmem])
  obtain ⟨-, -, hkind, -⟩ := UriEndpoint.new_eq_ok.mp hnew
  have hscheme : uri.scheme ≠ none := fun hnone => by rw [hnone] at hkind; cases hkind
  have hsplit := ((UriRules.parse_eq_some (hwhole _ bare_parseSentinel) hscheme).mp hparse).1
  rw [hfill] at hsplit
  obtain ⟨gap, hcomponent, hgap⟩ := gap_of_complete
    (fun hmem => hfree (hmem.trans (findFirst_parts hfound).1))
    (fun hmem => hfree (hmem.trans (findFirst_parts hfound).2)) hsplit hkind hcomplete
  obtain rfl := Option.some.inj (hsplit.symm.trans (hgap _ bare_parseSentinel))
  exact ⟨gap, hcomponent, fun x hx => by rw [hfill]; exact hgap x hx, hwhole,
    (hfill _).trans hredacted.symm, hparse, hnew⟩

theorem Gap.takes_fill (h : rules.takes (gap.fill parseSentinel) = true)
    (hx : ∀ c ∈ x, isComponentChar c = true) : rules.takes (gap.fill x) = true := by
  have hpath : x.all rules.pathChar = true := List.all_eq_true.mpr fun c hc => (rules.component c (hx c hc)).1
  have hquery : x.all rules.queryChar = true := List.all_eq_true.mpr fun c hc => (rules.component c (hx c hc)).2
  rcases gap with ⟨scheme, authority, front, back, query⟩ | ⟨scheme, authority, path, front, back⟩
  · simp only [UriRules.takes, Gap.fill, List.all_append, Bool.and_eq_true] at h ⊢
    exact ⟨⟨h.1.1, ⟨h.1.2.1.1, hpath⟩, h.1.2.2⟩, h.2⟩
  · simp only [UriRules.takes, Gap.fill, Option.getD_some, List.all_append, Bool.and_eq_true] at h ⊢
    exact ⟨h.1, ⟨h.2.1.1, hquery⟩, h.2.2⟩

theorem Gap.origin_fill (gap : Gap) (x y : Text) :
    (gap.fill x).scheme = (gap.fill y).scheme ∧ (gap.fill x).authority = (gap.fill y).authority ∧
      (gap.fill x).scheme ≠ none := by
  rcases gap with _ | _
  · exact ⟨rfl, rfl, nofun⟩
  · exact ⟨rfl, rfl, nofun⟩

theorem SecretUrlTemplate.Accepted.expand_eq (h : template.Accepted rules gap) (secret : ResolvedSecret) :
    template.expand rules secret = if template.limits.expandedBytes <
          utf8Len (fillPlaceholder template.redacted (percentEncode secret.current.bytes)) then
        .error .expandedLength
      else if maxNetworkEndpointBytes < utf8Len (gap.fill (percentEncode secret.current.bytes)).toText then
        .error .invalidExpansion
      else .ok ⟨gap.fill (percentEncode secret.current.bytes), template.parsed.scheme⟩ := by
  have hbare := bare_encode secret.current.bytes
  have hsplit := h.split _ hbare
  obtain ⟨hscheme, hauthority, habsolute⟩ :=
    gap.origin_fill (percentEncode secret.current.bytes) parseSentinel
  obtain ⟨-, -, hsentinel⟩ := gap.origin_fill parseSentinel parseSentinel
  obtain ⟨-, hallowed, htakes⟩ := (UriRules.parse_eq_some (h.whole _ bare_parseSentinel) hsentinel).mp h.parsed
  obtain ⟨-, huri, hkind, authority, hauth, hrest⟩ := UriEndpoint.new_eq_ok.mp h.endpoint
  have hparse : rules.parse (fillPlaceholder template.redacted (percentEncode secret.current.bytes)) =
      some (gap.fill (percentEncode secret.current.bytes)) := by
    refine (UriRules.parse_eq_some (h.whole _ hbare) habsolute).mpr ⟨hsplit, ?_, ?_⟩
    · rw [hscheme]
      exact hallowed
    · exact gap.takes_fill htakes (component_encode _)
  rw [SecretUrlTemplate.expand, hparse]
  split_ifs with hlong hprinted
  · rfl
  · have hnew : UriEndpoint.new rules (gap.fill (percentEncode secret.current.bytes)) = .error .tooLong :=
      if_pos hprinted
    dsimp only
    rw [hnew]
  · have hnew : UriEndpoint.new rules (gap.fill (percentEncode secret.current.bytes)) =
        .ok ⟨gap.fill (percentEncode secret.current.bytes), template.parsed.scheme⟩ :=
      UriEndpoint.new_eq_ok.mpr ⟨Nat.not_lt.mp hprinted, rfl, hscheme ▸ hkind, authority,
        hauthority.trans hauth, hrest⟩
    dsimp only
    rw [hnew]
    dsimp only
    rw [sameOrigin, huri]
    simp [hscheme, hauthority]

/-! ## What an expansion is -/

/-- Two URIs that differ in one component: a path segment, or the value of a query pair. -/
inductive SameBut (x y : Text) (a b : Uri) : Prop
  | segment (before after : List Text) (hquery : a.query = b.query)
      (ha : a.path.splitOn '/' = before ++ x :: after) (hb : b.path.splitOn '/' = before ++ y :: after)
  | value (before : List Text) (name : Text) (after : List Text) (queryA queryB : Text)
      (hpath : a.path = b.path) (hname : '=' ∉ name) (hqueryA : a.query = some queryA)
      (hqueryB : b.query = some queryB)
      (ha : queryA.splitOn '&' = before ++ (name ++ '=' :: x) :: after)
      (hb : queryB.splitOn '&' = before ++ (name ++ '=' :: y) :: after)

theorem Gap.sameBut (h : gap.Component) {y : Text} (hx : Bare x) (hy : Bare y) :
    SameBut x y (gap.fill x) (gap.fill y) := by
  rcases gap with ⟨scheme, authority, front, back, query⟩ | ⟨scheme, authority, path, front, back⟩
  · obtain ⟨before, after, hsplit⟩ := h
    exact .segment before after rfl (hsplit x hx) (hsplit y hy)
  · obtain ⟨before, name, after, hname, hsplit⟩ := h
    exact .value before name after _ _ rfl hname rfl rfl (hsplit x hx) (hsplit y hy)

/-- Printed URIs are equal only if they were filled with the same text. -/
theorem Gap.toText_injective {y : Text} (hx : x ≠ []) (hy : y ≠ [])
    (h : (gap.fill x).toText = (gap.fill y).toText) : x = y := by
  rcases gap with ⟨scheme, authority, front, back, query⟩ | ⟨scheme, authority, path, front, back⟩
  · simp only [Uri.toText, Uri.shownPath, Gap.fill, List.append_eq_nil_iff, hx, hy, and_false, false_and,
      if_false] at h
    exact List.append_cancel_left (List.append_cancel_right (List.append_cancel_left (List.append_cancel_right h)))
  · have hquery := List.append_cancel_left h
    exact List.append_cancel_left (List.append_cancel_right (List.cons.inj hquery).2)

theorem encode_ne_nil {bytes : Bytes} (h : bytes ≠ []) : percentEncode bytes ≠ [] := by
  intro hnil
  have hdecode := percentDecode_encode bytes
  rw [hnil] at hdecode
  exact h (Option.some.inj hdecode).symm

/-- A component in the grammar of RFC 3986 with nothing but unreserved characters and escapes. -/
inductive IsComponent : Text → Prop
  | nil : IsComponent []
  | unreserved {c : Char} {rest : Text} (hc : c.toNat < 128) (hfree : isUnreserved (UInt8.ofNat c.toNat) = true)
      (hrest : IsComponent rest) : IsComponent (c :: rest)
  | escape {high low : Char} {rest : Text} (hhigh : (Json.Lexer.hexValue high).isSome = true)
      (hlow : (Json.Lexer.hexValue low).isSome = true) (hrest : IsComponent rest) :
      IsComponent ('%' :: high :: low :: rest)

theorem isComponent_encode (bytes : Bytes) : IsComponent (percentEncode bytes) := by
  induction bytes with
  | nil => exact .nil
  | cons b rest ih =>
    rw [percentEncode, List.flatMap_cons, percentEncodeByte]
    split_ifs with hb
    · obtain ⟨hchar, -, hsmall⟩ := unreserved_char hb
      exact .unreserved (by rw [hchar]; exact hsmall) (by rw [hchar, UInt8.ofNat_toNat]; exact hb) ih
    · obtain ⟨hhigh, hlow⟩ := hexValue_halves b
      exact .escape (by rw [hhigh]; rfl) (by rw [hlow]; rfl) ih

/-- A SECRET FILLS EXACTLY ONE COMPONENT.  An expansion has the scheme and the authority of the redacted
    template, and its segments and pairs but for the one that was the placeholder; that one is the secret,
    percent-encoded.  Different secrets give different URLs, and only a text that is too long for the template's
    limit, or a URI that is too long for an endpoint when it is printed, gives none. -/
theorem secret_fills_component {rules : UriRules} {redacted : Text} {reference : SecretRef}
    {limits : UrlTemplateLimits} {template : SecretUrlTemplate}
    (h : SecretUrlTemplate.new rules redacted reference limits = .ok template) :
    ∃ uri, splitUri redacted = some uri ∧ (∀ secret endpoint, template.expand rules secret = .ok endpoint →
        endpoint.uri.scheme = uri.scheme ∧ endpoint.uri.authority = uri.authority ∧
        ∃ component, SameBut secretUrlPlaceholder component uri endpoint.uri ∧ IsComponent component ∧
          percentDecode component = some secret.current.bytes) ∧
      (∀ secret secret' endpoint endpoint', template.expand rules secret = .ok endpoint →
        template.expand rules secret' = .ok endpoint' → endpoint.uri.toText = endpoint'.uri.toText →
        secret.current.bytes = secret'.current.bytes) ∧
      ∀ secret error, template.expand rules secret = .error error →
        (error = .expandedLength ∧
          limits.expandedBytes < utf8Len (fillPlaceholder redacted (percentEncode secret.current.bytes))) ∨
        (error = .invalidExpansion ∧ ∃ expanded,
          splitUri (fillPlaceholder redacted (percentEncode secret.current.bytes)) = some expanded ∧
          maxNetworkEndpointBytes < utf8Len expanded.toText) := by
  obtain ⟨rfl, rfl, gap, haccepted⟩ := SecretUrlTemplate.accepted_of_new h
  have hfilled : ∀ secret endpoint, template.expand rules secret = .ok endpoint →
      endpoint.uri = gap.fill (percentEncode secret.current.bytes) := by
    intro secret endpoint hexpand
    rw [haccepted.expand_eq] at hexpand
    split_ifs at hexpand
    cases hexpand
    rfl
  refine ⟨gap.fill secretUrlPlaceholder, ?_, ?_, ?_, ?_⟩
  · have hsplit := haccepted.split _ bare_placeholder
    rwa [haccepted.unfilled] at hsplit
  · intro secret endpoint hexpand
    obtain ⟨hscheme, hauthority, -⟩ :=
      gap.origin_fill (percentEncode secret.current.bytes) secretUrlPlaceholder
    rw [hfilled secret endpoint hexpand]
    exact ⟨hscheme, hauthority, percentEncode secret.current.bytes,
      Gap.sameBut haccepted.component bare_placeholder (bare_encode _), isComponent_encode _,
      percentDecode_encode _⟩
  · intro secret secret' endpoint endpoint' hexpand hexpand' heq
    rw [hfilled _ _ hexpand, hfilled _ _ hexpand'] at heq
    have hfill := Gap.toText_injective (encode_ne_nil secret.current.nonempty)
      (encode_ne_nil secret'.current.nonempty) heq
    have hdecode := percentDecode_encode secret.current.bytes
    rw [hfill, percentDecode_encode] at hdecode
    exact (Option.some.inj hdecode).symm
  · intro secret error hexpand
    rw [haccepted.expand_eq] at hexpand
    split_ifs at hexpand with hlong hprinted
    · cases hexpand
      exact .inl ⟨rfl, hlong⟩
    · cases hexpand
      exact .inr ⟨rfl, _, haccepted.split _ (bare_encode _), hprinted⟩

/-- `https://h/{secret}?k=v`. -/
def sampleTemplate : Text :=
  ['h', 't', 't', 'p', 's', ':', '/', '/', 'h', '/'] ++ secretUrlPlaceholder ++ ['?', 'k', '=', 'v']

def UrlTemplateLimits.default : UrlTemplateLimits := ⟨1024, 2 * 1024, by decide, by decide⟩

/-- The secret `a/b`. -/
def slashedSecret : ResolvedSecret := ⟨⟨[0x61, 0x2F, 0x62], by decide, by decide⟩, none⟩

theorem sample_secret_fills :
    ∃ template endpoint, SecretUrlTemplate.new lenientRules sampleTemplate ['r'] .default = .ok template ∧
      template.expand lenientRules slashedSecret = .ok endpoint ∧
      endpoint.uri.path = ['/', 'a', '%', '2', 'F', 'b'] ∧ endpoint.uri.authority = some ['h'] := by
  have hrun : ((SecretUrlTemplate.new lenientRules sampleTemplate ['r'] .default).toOption.bind fun template =>
      (template.expand lenientRules slashedSecret).toOption.map (·.uri.path)) =
      some ['/', 'a', '%', '2', 'F', 'b'] := by decide +kernel
  rcases hnew : SecretUrlTemplate.new lenientRules sampleTemplate ['r'] .default with error | template
  · rw [hnew] at hrun
    cases hrun
  rcases hexpand : template.expand lenientRules slashedSecret with error | endpoint
  · rw [hnew] at hrun
    simp [hexpand, Except.toOption] at hrun
  have hpath : endpoint.uri.path = ['/', 'a', '%', '2', 'F', 'b'] := by
    rw [hnew] at hrun
    simpa [hexpand, Except.toOption] using hrun
  obtain ⟨uri, hsplit, hfills, -⟩ := secret_fills_component hnew
  obtain ⟨-, hauthority, -⟩ := hfills _ _ hexpand
  have horigin : (splitUri sampleTemplate).map (·.authority) = some (some ['h']) := by decide +kernel
  rw [hsplit] at horigin
  exact ⟨template, endpoint, rfl, hexpand, hpath, hauthority.trans (Option.some.inj horigin)⟩

end Bondry.Egress
