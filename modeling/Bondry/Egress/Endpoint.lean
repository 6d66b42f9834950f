/-
  NETWORK ENDPOINTS (`bondry-transport`, `endpoint.rs`).

  `http::Uri` is outside the repository: it cuts a text at the standard delimiters and keeps the parts as they
  are, but reads the empty path of an absolute URI as `/`.  Which characters it takes for a part is a parameter;
  it takes those of a percent-encoded component.
-/
import Bondry.Egress.Webhook
import Bondry.Lib.Search

namespace Bondry.Egress

open Search Encoding

/-! ## URIs -/

/-- `byte.is_ascii_alphanumeric() || matches!(byte, b'-' | b'.' | b'_' | b'~')`. -/
def isUnreserved (b : UInt8) : Bool :=
  (decide (0x30 ≤ b) && decide (b ≤ 0x39)) || (decide (0x41 ≤ b) && decide (b ≤ 0x5A)) ||
    (decide (0x61 ≤ b) && decide (b ≤ 0x7A)) || b == 0x2D || b == 0x2E || b == 0x5F || b == 0x7E

/-- A character of an encoded component: unreserved, or the percent sign of an escape. -/
def isComponentChar (c : Char) : Bool :=
  decide (c.toNat < 128) && (isUnreserved (UInt8.ofNat c.toNat) || c == '%')

structure Uri where
  scheme : Option Text
  authority : Option Text
  path : Text
  query : Option Text
  deriving DecidableEq

structure UriRules where
  scheme : Text → Bool
  authority : Text → Bool
  host : Text → Text
  port : Text → Option UInt16
  pathChar : Char → Bool
  queryChar : Char → Bool
  /-- A text without a scheme: its authority, path and query. -/
  relative : Text → Option (Option Text × Text × Option Text)
  component : ∀ c, isComponentChar c = true → pathChar c = true ∧ queryChar c = true

/-- A URI type that takes every character behind a scheme of letters. -/
def lenientRules : UriRules where
  scheme := fun scheme => scheme.all Char.isAlpha
  authority := fun authority => !authority.isEmpty
  host := id
  port := fun _ => none
  pathChar := fun _ => true
  queryChar := fun _ => true
  relative := fun _ => none
  component := fun _ _ => ⟨rfl, rfl⟩

def endsAuthority (c : Char) : Bool := c == '/' || c == '?'

/-- `://`. -/
def schemeMark : Text := [':', '/', '/']

/-- The parts of an absolute URI behind its scheme. -/
def splitTarget (scheme rest : Text) : Uri :=
  let authority := rest.takeWhile fun c => !endsAuthority c
  let target := rest.dropWhile fun c => !endsAuthority c
  match findFirst ['?'] target with
  | none => ⟨some scheme, some authority, target, none⟩
  | some (path, query) => ⟨some scheme, some authority, path, some query⟩

/-- The parts of an absolute URI, whatever characters they have. -/
def splitUri (text : Text) : Option Uri :=
  (findFirst schemeMark text).map fun found => splitTarget found.1 found.2

def UriRules.takes (rules : UriRules) (uri : Uri) : Bool :=
  rules.authority (uri.authority.getD []) && uri.path.all rules.pathChar &&
    (uri.query.getD []).all rules.queryChar

/-- `str::parse::<Uri>`; a fragment is dropped. -/
def UriRules.parse (rules : UriRules) (text : Text) : Option Uri :=
  let text := text.takeWhile (· ≠ '#')
  match splitUri text with
  | some uri =>
    if rules.scheme (uri.scheme.getD []) then if rules.takes uri then some uri else none
    else (rules.relative text).map fun parts => ⟨none, parts.1, parts.2.1, parts.2.2⟩
  | none => (rules.relative text).map fun parts => ⟨none, parts.1, parts.2.1, parts.2.2⟩

def queryText (query : Option Text) : Text :=
  match query with
  | some query => '?' :: query
  | none => []

/-- `Uri::path`: an absolute URI without a path has the path `/`. -/
def Uri.shownPath (uri : Uri) : Text := if uri.path = [] ∧ uri.scheme.isSome = true then ['/'] else uri.path

/-- `Uri::to_string`: the parts and the delimiters between them. -/
def Uri.toText (uri : Uri) : Text :=
  (match uri.scheme with | some scheme => scheme ++ schemeMark | none => []) ++ uri.authority.getD [] ++
    uri.shownPath ++ queryText uri.query

/-! ## Endpoints -/

inductive EndpointError where
  | tooLong
  | unsupportedScheme
  | missingAuthority
  | invalidPort
  | userInformation
  deriving DecidableEq, Repr

def maxNetworkEndpointBytes : Nat := 4 * 1024

/-- `uri.scheme_str()` as one of the supported schemes. -/
def networkScheme (scheme : Option Text) : Option NetworkScheme :=
  match scheme.map String.ofList with
  | some "http" => some .http
  | some "https" => some .https
  | some "ws" => some .webSocket
  | some "wss" => some .webSocketSecure
  | _ => none

/-- `NetworkEndpoint`, with its URI. -/
structure UriEndpoint where
  uri : Uri
  scheme : NetworkScheme
  deriving DecidableEq

def UriEndpoint.new (rules : UriRules) (uri : Uri) : Except EndpointError UriEndpoint :=
  if maxNetworkEndpointBytes < utf8Len uri.toText then .error .tooLong
  else match networkScheme uri.scheme with
    | none => .error .unsupportedScheme
    | some scheme =>
      match uri.authority with
      | none => .error .missingAuthority
      | some authority =>
        if rules.host authority = [] then .error .missingAuthority
        else if rules.port authority = some 0 then .error .invalidPort
        else if '@' ∈ authority then .error .userInformation
        else .ok ⟨uri, scheme⟩

/-! ## What is accepted -/

theorem UriEndpoint.new_eq_ok {rules : UriRules} {uri : Uri} {endpoint : UriEndpoint} :
    UriEndpoint.new rules uri = .ok endpoint ↔
      utf8Len uri.toText ≤ maxNetworkEndpointBytes ∧ endpoint.uri = uri ∧
        networkScheme uri.scheme = some endpoint.scheme ∧
        ∃ authority, uri.authority = some authority ∧ rules.host authority ≠ [] ∧
          rules.port authority ≠ some 0 ∧ '@' ∉ authority := by
  rw [UriEndpoint.new]
  constructor
  · intro h
    split_ifs at h with hlong
    rcases hscheme : networkScheme uri.scheme with _ | scheme
    · rw [hscheme] at h
      cases h
    rcases hauthority : uri.authority with _ | authority
    · rw [hscheme, hauthority] at h
      cases h
    · rw [hscheme, hauthority] at h
      dsimp only at h
      split_ifs at h with hhost hport huser
      cases h
      exact ⟨Nat.not_lt.mp hlong, rfl, rfl, authority, rfl, hhost, hport, huser⟩
  · rintro ⟨hlong, rfl, hscheme, authority, hauthority, hhost, hport, huser⟩
    rw [if_neg (Nat.not_lt.mpr hlong), hscheme, hauthority]
    dsimp only
    rw [if_neg hhost, if_neg hport, if_neg huser]

theorem networkScheme_eq_some {scheme : Option Text} {kind : NetworkScheme}
    (h : networkScheme scheme = some kind) : scheme = some kind.asStr.toList := by
  have hname : ∀ name : String, scheme.map String.ofList = some name → scheme = some name.toList := by
    intro name heq
    obtain ⟨text, rfl, rfl⟩ := Option.map_eq_some_iff.mp heq
    rw [String.toList_ofList]
  revert h
  fun_cases networkScheme scheme <;> intro h <;> cases h <;> exact hname _ ‹_›

theorem networkScheme_length {scheme : Text} {kind : NetworkScheme}
    (h : networkScheme (some scheme) = some kind) : scheme.length ≤ 5 := by
  rw [Option.some.inj (networkScheme_eq_some h)]
  cases kind <;> decide

theorem UriRules.parse_eq_some {rules : UriRules} {text : Text} (hfragment : '#' ∉ text) {uri : Uri}
    (hscheme : uri.scheme ≠ none) : rules.parse text = some uri ↔
      splitUri text = some uri ∧ rules.scheme (uri.scheme.getD []) = true ∧ rules.takes uri = true := by
  have hwhole : text.takeWhile (· ≠ '#') = text :=
    List.takeWhile_eq_self_iff.mpr fun c hc => decide_eq_true fun heq => hfragment (heq ▸ hc)
  have hrelative : (rules.relative text).map (fun parts => Uri.mk none parts.1 parts.2.1 parts.2.2) ≠ some uri := by
    intro heq
    obtain ⟨parts, -, rfl⟩ := Option.map_eq_some_iff.mp heq
    exact hscheme rfl
  rw [UriRules.parse, hwhole]
  rcases hsplit : splitUri text with _ | found
  · simp [hrelative]
  dsimp only
  split_ifs with hallowed htakes
  · constructor
    · intro heq
      cases heq
      exact ⟨rfl, hallowed, htakes⟩
    · exact fun heq => heq.1
  · constructor
    · intro heq
      cases heq
    · rintro ⟨heq, -, htakes'⟩
      cases heq
      exact absurd htakes' htakes
  · constructor
    · exact fun heq => absurd heq hrelative
    · rintro ⟨heq, hallowed', -⟩
      cases heq
      exact absurd hallowed' hallowed

end Bondry.Egress
