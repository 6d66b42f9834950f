/-
  THE LIFE OF AN ACCESS TOKEN, told from the answers the callers got.

  `Facts` is what the manager is for: which texts were returned, which tokens are over, which clients
  are enabled.  A history of answered calls tells these facts (`factsOf`), and the tables AGREE with
  them: each statement on the tables moves the facts its own way (`Agrees.insertToken`,
  `Agrees.revoke`, …), and a rotation is an insertion and a revocation in one.  Every step keeps
  the agreement: an operation that answers has changed the tables the way its answer says, and an
  operation that fails has not changed them.
-/
import Bondry.Auth.Manager

namespace Bondry.Auth

/-! ## Facts -/

/-- What is known of texts, tokens and clients. -/
@[ext] structure Facts where
  /-- The text was returned, by `issue_token` or `rotate_token`. -/
  issued : IssuedToken → Prop
  /-- The token was revoked or rotated. -/
  ended : TokenId → Prop
  /-- Whether the client is enabled; none if there is no such client. -/
  enabled : PrincipalId → Option Bool

namespace Facts

def issue (facts : Facts) (token : IssuedToken) : Facts :=
  { facts with issued := fun other => other = token ∨ facts.issued other }

def finish (facts : Facts) (id : TokenId) : Facts :=
  { facts with ended := fun other => other = id ∨ facts.ended other }

def enable (facts : Facts) (id : PrincipalId) (enabled : Bool) : Facts :=
  { facts with enabled := Function.update facts.enabled id (some enabled) }

/-- The text of a token that was issued and is not over, of a client that is enabled. -/
def Good (facts : Facts) (presented : Text) (now : Int) (principal : Principal) : Prop :=
  ∃ token, facts.issued token ∧ token.secret = presented ∧ ¬ facts.ended token.metadata.id ∧
    (∀ expiresAt, token.metadata.expiresAt = some expiresAt → now < expiresAt) ∧
    facts.enabled token.metadata.client = some true ∧ principal = ⟨token.metadata.client⟩

end Facts

/-! ## Tables that agree with the facts -/

/-- The row of an issued token, but for its revocation. -/
def RowOf (crypto : Crypto) (row : TokenRow) (token : IssuedToken) : Prop :=
  ∃ secret, token.secret = tokenText token.metadata.id secret ∧
    { row with revokedAt := none } =
      TokenRecord.row ⟨token.metadata.id, token.metadata.client, token.metadata.label,
        .fromSecret crypto secret.1, token.metadata.createdAt, token.metadata.expiresAt, none⟩

/-- The tables say what the answers so far have told. -/
structure Agrees (crypto : Crypto) (db : AuthTables) (facts : Facts) : Prop where
  clients : ∀ id : PrincipalId, (db.clients[id.text]?).map ClientRow.enabled = facts.enabled id
  rows : ∀ (text : Text) (row : TokenRow), db.tokens[text]? = some row →
    ∃ token, facts.issued token ∧ token.metadata.id.text = text ∧ RowOf crypto row token
  issued : ∀ token, facts.issued token →
    ∃ row, db.tokens[token.metadata.id.text]? = some row ∧ RowOf crypto row token
  ended : ∀ id, facts.ended id ↔
    ∃ row, db.tokens[id.text]? = some row ∧ row.revokedAt.isSome = true
  owned : ∀ (text : Text) (row : TokenRow), db.tokens[text]? = some row →
    (db.clients[row.client]?).isSome = true

namespace Agrees

variable {crypto : Crypto} {db db' : AuthTables} {facts : Facts}

theorem changeClient (h : Agrees crypto db facts) (id : PrincipalId) (row : ClientRow) :
    Agrees crypto { db with clients := db.clients.insert id.text row } (facts.enable id row.enabled) where
  clients := by
    intro id'
    show _ = Function.update facts.enabled id (some row.enabled) id'
    rcases eq_or_ne id' id with rfl | hne
    · rw [BTreeMap.find_insert_self, Function.update_self]
      rfl
    · rw [BTreeMap.find_insert_ne _ _ fun htext => hne (Identifier.text_injective htext).symm,
        Function.update_of_ne hne]
      exact h.clients id'
  rows := h.rows
  issued := h.issued
  ended := h.ended
  owned := by
    intro text token htoken
    rw [BTreeMap.find_insert]
    split
    · rfl
    · exact h.owned text token htoken

theorem insertClient {client : Client} (h : Agrees crypto db facts)
    (hinsert : db.insertClient client = some db') :
    Agrees crypto db' (facts.enable client.id client.enabled) := by
  unfold AuthTables.insertClient at hinsert
  split at hinsert
  · cases hinsert
    exact h.changeClient client.id ⟨client.name.text, client.enabled, client.createdAt⟩
  · cases hinsert

theorem enableClient {id : PrincipalId} {enabled : Bool} (h : Agrees crypto db facts)
    (hchange : db.enableClient id.text enabled = (1, db')) : Agrees crypto db' (facts.enable id enabled) := by
  unfold AuthTables.enableClient at hchange
  split at hchange
  · next row hrow =>
    cases hchange
    exact h.changeClient id { row with enabled }
  · cases hchange

theorem insertToken {token : TokenRecord} {secret : U8Array tokenSecretBytes}
    (h : Agrees crypto db facts) (hinsert : db.insertToken token = some db')
    (hfresh : token.revokedAt = none) (hdigest : token.digest = .fromSecret crypto secret.1) :
    Agrees crypto db' (facts.issue ⟨token.metadata, tokenText token.id secret⟩) := by
  unfold AuthTables.insertToken at hinsert
  split_ifs at hinsert with hfree
  obtain ⟨hnone, hclient, -, -⟩ := hfree
  cases hinsert
  have hrow : RowOf crypto token.row ⟨token.metadata, tokenText token.id secret⟩ := by
    refine ⟨secret, rfl, ?_⟩
    rw [← hdigest]
    rfl
  -- nobody else has the identifier
  have hother : ∀ {id : TokenId} {row : TokenRow}, db.tokens[id.text]? = some row →
      token.id.text ≠ id.text := by
    intro id row hid hsame
    rw [hsame, hid] at hnone
    cases hnone
  refine ⟨h.clients, fun text row htext => ?_, fun issued hissued => ?_, fun id => ?_,
    fun text row htext => ?_⟩
  · rw [BTreeMap.find_insert] at htext
    split_ifs at htext with hsame
    · cases htext
      exact ⟨_, .inl rfl, hsame, hrow⟩
    · obtain ⟨issued, hissued, hrest⟩ := h.rows text row htext
      exact ⟨issued, .inr hissued, hrest⟩
  · rcases hissued with rfl | hissued
    · exact ⟨token.row, BTreeMap.find_insert_self _ _ _, hrow⟩
    · obtain ⟨row, hfind, hof⟩ := h.issued issued hissued
      exact ⟨row, by rwa [BTreeMap.find_insert_ne _ _ (hother hfind)], hof⟩
  · show facts.ended id ↔ _
    rw [h.ended]
    constructor
    · rintro ⟨row, hfind, hrevoked⟩
      exact ⟨row, by rwa [BTreeMap.find_insert_ne _ _ (hother hfind)], hrevoked⟩
    · rintro ⟨row, hfind, hrevoked⟩
      rw [BTreeMap.find_insert] at hfind
      split_ifs at hfind
      · cases hfind
        rw [TokenRecord.row, hfresh] at hrevoked
        cases hrevoked
      · exact ⟨row, hfind, hrevoked⟩
  · rw [BTreeMap.find_insert] at htext
    split_ifs at htext
    · cases htext
      exact hclient
    · exact h.owned text row htext

theorem revoke {id : TokenId} {revokedAt : Int} {p : TokenRow → Bool} (h : Agrees crypto db facts)
    (hchange : db.revoke id.text revokedAt p = (1, db')) : Agrees crypto db' (facts.finish id) := by
  unfold AuthTables.revoke at hchange
  split at hchange
  · next row hrow =>
    split_ifs at hchange <;> cases hchange
    obtain ⟨token, htoken, htext, hof⟩ := h.rows _ _ hrow
    refine ⟨h.clients, fun text row' htext' => ?_, fun issued hissued => ?_, fun id' => ?_,
      fun text row' htext' => ?_⟩
    · rw [BTreeMap.find_insert] at htext'
      split_ifs at htext' with hsame
      · cases htext'
        exact ⟨token, htoken, htext.trans hsame, hof⟩
      · exact h.rows text row' htext'
    · obtain ⟨row', hfind, hof'⟩ := h.issued issued hissued
      rw [BTreeMap.find_insert]
      split_ifs with hsame
      · rw [← hsame, hrow] at hfind
        cases hfind
        exact ⟨_, rfl, hof'⟩
      · exact ⟨row', hfind, hof'⟩
    · show id' = id ∨ facts.ended id' ↔ _
      rw [BTreeMap.find_insert, h.ended]
      split_ifs with hsame
      · rw [TokenId.text_injective hsame]
        simp
      · refine or_iff_right ?_
        rintro rfl
        exact hsame rfl
    · rw [BTreeMap.find_insert] at htext'
      split_ifs at htext'
      · cases htext'
        exact h.owned _ row hrow
      · exact h.owned text row' htext'
  · cases hchange

theorem authentication (h : Agrees crypto db facts) {token : IssuedToken} (hissued : facts.issued token) :
    ∃ record enabled secret, db.authentication token.metadata.id = .ok (some ⟨record, enabled⟩) ∧
      token.secret = tokenText token.metadata.id secret ∧
      record.digest = .fromSecret crypto secret.1 ∧ record.client = token.metadata.client ∧
      record.expiresAt = token.metadata.expiresAt ∧
      (record.revokedAt.isSome = true ↔ facts.ended token.metadata.id) ∧
      facts.enabled token.metadata.client = some enabled := by
  obtain ⟨row, hrow, secret, hsecret, hcolumns⟩ := h.issued token hissued
  let record : TokenRecord := ⟨token.metadata.id, token.metadata.client, token.metadata.label,
    .fromSecret crypto secret.1, token.metadata.createdAt, token.metadata.expiresAt, row.revokedAt⟩
  have hrecord : row = record.row := by
    obtain ⟨client, label, digest, createdAt, expiresAt, revokedAt⟩ := row
    cases hcolumns
    rfl
  have howned := h.owned _ row hrow
  rw [hrecord] at howned
  obtain ⟨client, hclient⟩ := Option.isSome_iff_exists.mp howned
  have henabled := h.clients token.metadata.client
  rw [show db.clients[token.metadata.client.text]? = some client from hclient] at henabled
  refine ⟨record, client.enabled, secret, ?_, hsecret, rfl, rfl, rfl, ?_, henabled.symm⟩
  · unfold AuthTables.authentication AuthTables.joined
    rw [hrow]
    simp only [hrecord, hclient, Option.map_some]
    rw [TokenRow.validate_row record]
  · rw [h.ended]
    constructor
    · intro hrevoked
      exact ⟨row, hrow, hrevoked⟩
    · rintro ⟨row', hrow', hrevoked⟩
      rw [hrow] at hrow'
      cases hrow'
      exact hrevoked

end Agrees

/-! ## Authentication -/

/-- SHA-256 has no collision among token secrets. -/
def Crypto.CollisionFree (crypto : Crypto) : Prop :=
  ∀ a b : U8Array tokenSecretBytes, crypto.sha256 a.1 = crypto.sha256 b.1 → a = b

section

variable {crypto : Crypto} {db db' : AuthTables} {facts : Facts} {presented : Text} {outside : Outside}
  {principal : Principal}

/-- `authenticate` succeeds on an active record with the digest of the secret. -/
theorem authenticate_eq_ok : authenticate crypto presented outside db = .ok principal ↔
    ∃ parsed record now, PresentedToken.parse crypto presented = some parsed ∧
      ((authenticationRecord parsed.id).run outside.faults db).1 = .ok (some record) ∧
      outside.clock = some now ∧ record.token.digest = parsed.digest ∧
      record.token.isActiveAt now = true ∧ record.clientEnabled = true ∧
      principal = ⟨record.token.client⟩ := by
  constructor
  · fun_cases authenticate crypto presented outside db <;> intro h <;> cases h
    next parsed hparsed now hnow _ record hrecord _ _ hvalid =>
      simp only [Option.any_some, Bool.and_eq_true] at hvalid
      exact ⟨parsed, record, now, hparsed, hrecord, hnow, of_decide_eq_true hvalid.1.1, hvalid.1.2, hvalid.2, rfl⟩
  · rintro ⟨parsed, record, now, hparsed, hrecord, hnow, hdigest, hactive, henabled, rfl⟩
    simp [authenticate, hparsed, hrecord, hnow, hdigest, hactive, henabled]

theorem good_of_authenticate (h : Agrees crypto db facts) (hsha : Crypto.CollisionFree crypto) {now : Int}
    (hnow : outside.clock = some now) (haccepted : authenticate crypto presented outside db = .ok principal) :
    facts.Good presented now principal := by
  obtain ⟨parsed, record, now', hparsed, hrecord, hnow', hdigest, hactive, henabled, rfl⟩ :=
    authenticate_eq_ok.mp haccepted
  obtain rfl : now = now' := Option.some.inj (hnow.symm.trans hnow')
  obtain ⟨secret, rfl, hsecret⟩ := PresentedToken.parse_iff.mp hparsed
  -- the record is the one of an issued token
  have hread : db.authentication parsed.id = .ok (some record) := by
    rcases (authenticationRecord_run (Prod.eta _).symm).1 with h | h
    · rw [← h, hrecord]
    · rw [hrecord] at h
      cases h
  obtain ⟨token, htoken, hid⟩ : ∃ token, facts.issued token ∧ token.metadata.id = parsed.id := by
    rcases hrow : db.tokens[parsed.id.text]? with _ | row
    · simp [AuthTables.authentication, AuthTables.joined, hrow] at hread
    · obtain ⟨token, htoken, htext, -⟩ := h.rows _ row hrow
      exact ⟨token, htoken, TokenId.text_injective htext⟩
  obtain ⟨record', enabled, secret', hread', htext, hdigest', hclient, hexpires, hended, hclients⟩ :=
    h.authentication htoken
  rw [hid, hread] at hread'
  cases hread'
  simp only [TokenRecord.isActiveAt, Bool.and_eq_true] at hactive
  refine ⟨token, htoken, ?_, ?_, ?_, ?_, ?_⟩
  · -- one digest, one secret
    have hdigests : TokenDigest.fromSecret crypto secret'.1 = .fromSecret crypto secret.1 :=
      (hdigest'.symm.trans hdigest).trans hsecret
    have hsame : secret' = secret := hsha _ _ (congrArg (fun digest => digest.1) hdigests)
    rw [htext, hid, hsame]
  · rw [← hended]
    simp [Option.isNone_iff_eq_none.mp hactive.1]
  · intro expiresAt hsome
    have hall := hactive.2
    rw [hexpires, hsome] at hall
    simpa using hall
  · rw [hclients]
    exact congrArg some henabled
  · rw [hclient]

theorem authenticate_of_good (h : Agrees crypto db facts) {now : Int} (hnow : outside.clock = some now)
    (hstore : outside.faults = []) (hgood : facts.Good presented now principal) :
    authenticate crypto presented outside db = .ok principal := by
  obtain ⟨token, htoken, rfl, hlive, hexpiry, henabled, rfl⟩ := hgood
  obtain ⟨record, enabled, secret, hread, htext, hdigest, hclient, hexpires, hended, hclients⟩ :=
    h.authentication htoken
  rw [hclients] at henabled
  cases henabled
  refine authenticate_eq_ok.mpr ⟨⟨token.metadata.id, record.digest⟩, ⟨record, true⟩, now,
    PresentedToken.parse_iff.mpr ⟨secret, htext, hdigest⟩, ?_, hnow, rfl, ?_, rfl, by rw [hclient]⟩
  · rw [hstore, authenticationRecord_eq, hread]
  · rw [← hended, Option.not_isSome_iff_eq_none] at hlive
    simp only [TokenRecord.isActiveAt, hlive, hexpires, Option.isNone_none, Bool.true_and]
    rcases hsome : token.metadata.expiresAt with _ | expiresAt
    · rfl
    · simpa using hexpiry expiresAt hsome

end

/-! ## Histories -/

/-- The completed calls, the latest first. -/
abbrev History := List (AuthCall × AuthAnswer)

/-- What one answer tells. -/
def Facts.tell (facts : Facts) : AuthCall × AuthAnswer → Facts
  | (.createClient _, .client (.ok client)) => facts.enable client.id client.enabled
  | (.setClientEnabled id enabled, .enabled (.ok ())) => facts.enable id enabled
  | (.issueToken _ _ _, .token (.ok token)) => facts.issue token
  | (.rotateToken current _ _, .token (.ok token)) => (facts.issue token).finish current
  | (.revokeToken id, .revoked (.ok true)) => facts.finish id
  | _ => facts

def factsOf : History → Facts
  | [] => ⟨fun _ => False, fun _ => False, fun _ => none⟩
  | entry :: earlier => (factsOf earlier).tell entry

/-- The call has rotated this token. -/
def rotates (id : TokenId) : AuthCall × AuthAnswer → Bool
  | (.rotateToken current _ _, .token (.ok _)) => decide (current = id)
  | _ => false

theorem Facts.tell_mono (facts : Facts) (entry : AuthCall × AuthAnswer) :
    (∀ id, facts.ended id → (facts.tell entry).ended id) ∧
      ∀ token, facts.issued token → (facts.tell entry).issued token := by
  unfold Facts.tell
  split
  · exact ⟨fun _ h => h, fun _ h => h⟩
  · exact ⟨fun _ h => h, fun _ h => h⟩
  · exact ⟨fun _ h => h, fun _ h => .inr h⟩
  · exact ⟨fun _ h => .inr h, fun _ h => .inr h⟩
  · exact ⟨fun _ h => .inr h, fun _ h => h⟩
  · exact ⟨fun _ h => h, fun _ h => h⟩

theorem factsOf_mono (later history : History) :
    (∀ id, (factsOf history).ended id → (factsOf (later ++ history)).ended id) ∧
      ∀ token, (factsOf history).issued token → (factsOf (later ++ history)).issued token := by
  induction later with
  | nil => exact ⟨fun _ h => h, fun _ h => h⟩
  | cons entry rest ih =>
    obtain ⟨hended, hissued⟩ := (factsOf (rest ++ history)).tell_mono entry
    exact ⟨fun id h => hended id (ih.1 id h), fun token h => hissued token (ih.2 token h)⟩

/-- The tables agree with the history, in which no token is rotated twice. -/
structure Recorded (crypto : Crypto) (db : AuthTables) (history : History) : Prop where
  agrees : Agrees crypto db (factsOf history)
  once : ∀ id, history.countP (rotates id) ≤ 1
  rotated : ∀ id, 0 < history.countP (rotates id) → (factsOf history).ended id

section

variable {crypto : Crypto} {db db' : AuthTables} {history : History} {outside : Outside}

theorem recorded_new : Recorded crypto ⟨∅, ∅⟩ [] where
  agrees := ⟨by simp [factsOf], by simp, by simp [factsOf], by simp [factsOf], by simp⟩
  once := by simp
  rotated := by simp

theorem Recorded.answer (h : Recorded crypto db history) {entry : AuthCall × AuthAnswer}
    (hagrees : Agrees crypto db' ((factsOf history).tell entry)) (hno : ∀ id, rotates id entry = false) :
    Recorded crypto db' (entry :: history) := by
  have hcount : ∀ id, (entry :: history).countP (rotates id) = history.countP (rotates id) :=
    fun id => List.countP_cons_of_neg (by simp [hno])
  refine ⟨hagrees, fun id => ?_, fun id hpos => ?_⟩
  · rw [hcount]
    exact h.once id
  · rw [hcount] at hpos
    exact ((factsOf history).tell_mono entry).1 id (h.rotated id hpos)

theorem Recorded.failed (h : Recorded crypto db history) {entry : AuthCall × AuthAnswer}
    (htells : (factsOf history).tell entry = factsOf history) (hno : ∀ id, rotates id entry = false) :
    Recorded crypto db (entry :: history) :=
  h.answer (by rw [htells]; exact h.agrees) hno

/-! ## Every step -/

/-- The tables agree with the history that a step leaves. -/
def Keeps (crypto : Crypto) (history : History) (result : AuthPoint × AuthTables) : Prop :=
  Recorded crypto result.2 (result.1.answered ++ history)

theorem keeps_createClient (h : Recorded crypto db history) (name : ClientName) :
    Keeps crypto history (createClient name outside, db) := by
  unfold createClient
  split
  · exact h.failed rfl fun _ => rfl
  · exact h

theorem keeps_createAttempt (h : Recorded crypto db history) (name : ClientName) (createdAt : Int)
    (attempts : Nat) : Keeps crypto history (createAttempt name createdAt attempts outside db) := by
  unfold createAttempt
  dsimp only
  split
  · exact h.failed rfl fun _ => rfl
  split
  · exact h.failed rfl fun _ => rfl
  · next id hid =>
    rcases hrun : (insertClient ⟨id, name, true, createdAt⟩).run outside.faults db with ⟨answer, db'⟩
    rcases insertClient_run hrun with ⟨rfl, hinsert⟩ | ⟨⟨e, rfl⟩, rfl⟩
    · exact h.answer (h.agrees.insertClient hinsert) fun _ => rfl
    · rcases e with _ | _
      · exact h
      · exact h.failed rfl fun _ => rfl

theorem keeps_setEnabled (h : Recorded crypto db history) (id : PrincipalId) (enabled : Bool) :
    Keeps crypto history (setEnabled id enabled outside db) := by
  unfold setEnabled
  rcases hrun : (setClientEnabled id enabled).run outside.faults db with ⟨answer, db'⟩
  rcases setClientEnabled_run hrun with ⟨rfl, rfl⟩ | ⟨⟨e, rfl⟩, rfl⟩
  · rcases db.enableClient_cases id.text enabled with ⟨db', hchange⟩ | hchange
    · rw [hchange]
      exact h.answer (h.agrees.enableClient hchange) fun _ => rfl
    · rw [hchange]
      exact h.failed rfl fun _ => rfl
  · exact h.failed rfl fun _ => rfl

theorem keeps_issueToken (h : Recorded crypto db history) (client : PrincipalId)
    (label : Option TokenLabel) (expiresIn : Option Nat) :
    Keeps crypto history (issueToken client label expiresIn outside db) := by
  unfold issueToken
  rcases hrun : (loadClient client).run outside.faults db with ⟨answer, db'⟩
  obtain rfl : db' = db := loadClient_run hrun
  rcases answer with e | _ | owner
  · exact h.failed rfl fun _ => rfl
  · exact h.failed rfl fun _ => rfl
  dsimp only
  split
  · exact h.failed rfl fun _ => rfl
  · split
    · exact h.failed rfl fun _ => rfl
    · split
      · exact h.failed rfl fun _ => rfl
      · exact h

theorem keeps_issueAttempt (h : Recorded crypto db history) (client : PrincipalId)
    (label : Option TokenLabel) (expiresIn : Option Nat) (owner : Client) (createdAt : Int)
    (expiresAt : Option Int) (attempts : Nat) : Keeps crypto history
      (issueAttempt crypto client label expiresIn owner createdAt expiresAt attempts outside db) := by
  unfold issueAttempt
  dsimp only
  split
  · exact h.failed rfl fun _ => rfl
  split
  · exact h.failed rfl fun _ => rfl
  · next generated hgenerated =>
    obtain ⟨secret, hdigest, hsecret⟩ := GeneratedToken.generate_eq hgenerated
    rcases hrun : (insertToken ⟨generated.id, owner.id, label, generated.digest, createdAt, expiresAt,
      none⟩).run outside.faults db with ⟨answer, db'⟩
    rcases insertToken_run hrun with ⟨rfl, hinsert⟩ | ⟨⟨e, rfl⟩, rfl⟩
    · refine h.answer ?_ fun _ => rfl
      rw [hsecret]
      exact h.agrees.insertToken hinsert rfl hdigest
    · rcases e with _ | _
      · exact h
      · exact h.failed rfl fun _ => rfl

theorem keeps_revoke (h : Recorded crypto db history) (id : TokenId) :
    Keeps crypto history (revoke id outside db) := by
  unfold revoke
  split
  · exact h.failed rfl fun _ => rfl
  · next revokedAt hclock =>
    rcases hrun : (revokeToken id revokedAt).run outside.faults db with ⟨answer, db'⟩
    rcases revokeToken_run hrun with ⟨rfl, rfl⟩ | ⟨⟨e, rfl⟩, rfl⟩
    · rcases db.revoke_cases id.text revokedAt (revocable revokedAt) with ⟨db', hchange⟩ | hchange
      · rw [hchange]
        exact h.answer (h.agrees.revoke hchange) fun _ => rfl
      · rw [hchange]
        exact h.failed rfl fun _ => rfl
    · exact h.failed rfl fun _ => rfl

theorem keeps_rotate (h : Recorded crypto db history) (current : TokenId) (label : Option TokenLabel)
    (expiresIn : Option Nat) : Keeps crypto history (rotate current label expiresIn outside, db) := by
  unfold rotate
  split
  · exact h.failed rfl fun _ => rfl
  · split
    · exact h.failed rfl fun _ => rfl
    · exact h

/-- **A rotation returned**: its token was live, and is over from now on. -/
theorem Recorded.rotate {current : TokenId} {label : Option TokenLabel} {expiresIn : Option Nat}
    {secret : U8Array tokenSecretBytes} {replacement : TokenReplacement} {createdAt : Int}
    {client : PrincipalId} (h : Recorded crypto db history)
    (hreplaced : Replaced current replacement createdAt db client db')
    (hdigest : replacement.digest = .fromSecret crypto secret.1) :
    Recorded crypto db' ((.rotateToken current label expiresIn, .token (.ok
      ⟨(replacement.intoRecord client).metadata, tokenText replacement.id secret⟩)) :: history) := by
  obtain ⟨⟨row, token, hjoined, hvalid, hactive, -⟩, inserted, hinsert, hrevoke⟩ := hreplaced
  have hagrees := h.agrees.insertToken hinsert rfl hdigest
  -- the token that is rotated has not ended before
  have hlive : ¬ (factsOf history).ended current := by
    rw [h.agrees.ended]
    rintro ⟨row', hrow', hrevoked⟩
    rw [AuthTables.tokens_of_joined hjoined] at hrow'
    cases hrow'
    rw [← TokenRow.validate_revokedAt hvalid] at hrevoked
    simp [TokenRecord.isActiveAt, Option.isSome_iff_ne_none.mp hrevoked] at hactive
  refine ⟨hagrees.revoke hrevoke.symm, fun id => ?_, fun id hpos => ?_⟩
  · by_cases hid : current = id
    · subst hid
      have hzero : history.countP (rotates current) = 0 :=
        Nat.eq_zero_of_not_pos fun hpos => hlive (h.rotated current hpos)
      rw [List.countP_cons, hzero]
      split <;> omega
    · rw [List.countP_cons_of_neg (by simp [rotates, hid])]
      exact h.once id
  · by_cases hid : current = id
    · exact .inl hid.symm
    · rw [List.countP_cons_of_neg (by simp [rotates, hid])] at hpos
      exact .inr (h.rotated id hpos)

theorem keeps_rotateAttempt (h : Recorded crypto db history) (current : TokenId)
    (label : Option TokenLabel) (expiresIn : Option Nat) (createdAt : Int) (expiresAt : Option Int)
    (attempts : Nat) : Keeps crypto history
      (rotateAttempt crypto current label expiresIn createdAt expiresAt attempts outside db) := by
  unfold rotateAttempt
  dsimp only
  split
  · exact h.failed rfl fun _ => rfl
  split
  · exact h.failed rfl fun _ => rfl
  · next generated hgenerated =>
    obtain ⟨secret, hdigest, hsecret⟩ := GeneratedToken.generate_eq hgenerated
    rcases hrun : (rotateToken current ⟨generated.id, label, generated.digest, createdAt, expiresAt⟩
      createdAt).run outside.faults db with ⟨answer, db'⟩
    rcases rotateToken_run hrun with ⟨client, rfl, hreplaced⟩ | ⟨hnot, rfl⟩
    · rw [hsecret]
      exact h.rotate hreplaced hdigest
    rcases answer with e | outcome
    · rcases e with _ | _
      · exact h
      · exact h.failed rfl fun _ => rfl
    · rcases outcome with client | _ | _ | _
      · exact absurd rfl (hnot client)
      · exact h.failed rfl fun _ => rfl
      · exact h.failed rfl fun _ => rfl
      · exact h.failed rfl fun _ => rfl

theorem keeps_begin (h : Recorded crypto db history) (call : AuthCall) :
    Keeps crypto history (call.begin crypto outside db) := by
  cases call with
  | createClient name => exact keeps_createClient h name
  | setClientEnabled id enabled => exact keeps_setEnabled h id enabled
  | issueToken client label expiresIn => exact keeps_issueToken h client label expiresIn
  | rotateToken current label expiresIn => exact keeps_rotate h current label expiresIn
  | revokeToken id => exact keeps_revoke h id
  | authenticate presented => exact h.failed rfl fun _ => rfl

/-- **One step of any call.** -/
theorem keeps_advance (h : Recorded crypto db history) {call : AuthCall} {point : AuthPoint}
    {result : AuthPoint × AuthTables} (hadvance : point.advance crypto call outside db = some result) :
    Keeps crypto history result := by
  cases point with
  | idle =>
    cases hadvance
    exact keeps_begin h call
  | creating name createdAt attempts =>
    cases hadvance
    exact keeps_createAttempt h name createdAt attempts
  | issuing client label expiresIn owner createdAt expiresAt attempts =>
    cases hadvance
    exact keeps_issueAttempt h client label expiresIn owner createdAt expiresAt attempts
  | rotating current label expiresIn createdAt expiresAt attempts =>
    cases hadvance
    exact keeps_rotateAttempt h current label expiresIn createdAt expiresAt attempts
  | returned call answer => cases hadvance

theorem rotateAttempt_tables (current : TokenId) (label : Option TokenLabel) (expiresIn : Option Nat)
    (createdAt : Int) (expiresAt : Option Int) (attempts : Nat) (hfails : ∀ token,
      (rotateAttempt crypto current label expiresIn createdAt expiresAt attempts outside db).1 ≠
        .returned (.rotateToken current label expiresIn) (.token (.ok token))) :
    (rotateAttempt crypto current label expiresIn createdAt expiresAt attempts outside db).2 = db := by
  unfold rotateAttempt at hfails ⊢
  dsimp only at hfails ⊢
  split
  · rfl
  split
  · rfl
  · next generated hgenerated =>
    rcases hrun : (rotateToken current ⟨generated.id, label, generated.digest, createdAt, expiresAt⟩
      createdAt).run outside.faults db with ⟨answer, db'⟩
    simp only [hgenerated, hrun] at hfails
    rcases rotateToken_run hrun with ⟨client, rfl, hreplaced⟩ | ⟨hnot, rfl⟩
    · exact absurd rfl (hfails _)
    · rcases answer with (_ | _) | (client | _ | _ | _)
      · rfl
      · rfl
      · exact absurd rfl (hnot client)
      · rfl
      · rfl
      · rfl

end

namespace AuthSystem

variable {ι : Type} [DecidableEq ι] {crypto : Crypto}

theorem recorded_step {s : AuthSystem ι} (h : Recorded crypto s.tables s.history) (move : AuthMove ι) :
    Recorded crypto (s.step crypto move).tables (s.step crypto move).history := by
  unfold step
  split
  · exact h
  · next point tables hadvance => exact keeps_advance h hadvance

theorem recorded_run (crypto : Crypto) (moves : List (AuthMove ι)) :
    Recorded crypto (run (step crypto) new moves).tables
      (run (step crypto) (new : AuthSystem ι) moves).history :=
  All.run (C := fun _ _ => True) (fun s : AuthSystem ι => Recorded crypto s.tables s.history)
    (fun _ move h _ => recorded_step h move) recorded_new (All.always fun _ _ => trivial)

theorem history_step (crypto : Crypto) (s : AuthSystem ι) (move : AuthMove ι) :
    ∃ later, (s.step crypto move).history = later ++ s.history := by
  unfold step
  split
  · exact ⟨[], rfl⟩
  · next point tables hadvance => exact ⟨point.answered, rfl⟩

theorem history_run (crypto : Crypto) (s : AuthSystem ι) (moves : List (AuthMove ι)) :
    ∃ later, (run (step crypto) s moves).history = later ++ s.history := by
  induction moves generalizing s with
  | nil => exact ⟨[], rfl⟩
  | cons move rest ih =>
    obtain ⟨later, hlater⟩ := ih (s.step crypto move)
    obtain ⟨answered, hanswered⟩ := history_step crypto s move
    exact ⟨later ++ answered, by rw [run_cons, hlater, hanswered, List.append_assoc]⟩

/-- **The life of a token, under every interleaving.**  A text authenticates if and only if it was
    returned, its token is not over, its time has not come and its client is enabled.  No token is
    rotated twice.  A rotation that does not return a token changes nothing.  A token that is over
    never authenticates again. -/
theorem token_lifecycle (crypto : Crypto) (hsha : Crypto.CollisionFree crypto) (moves : List (AuthMove ι)) :
    let s := run (step crypto) (new : AuthSystem ι) moves
    (∀ presented outside now principal, outside.clock = some now →
      (authenticate crypto presented outside s.tables = .ok principal →
        (factsOf s.history).Good presented now principal) ∧
      (outside.faults = [] → (factsOf s.history).Good presented now principal →
        authenticate crypto presented outside s.tables = .ok principal)) ∧
      (∀ id, s.history.countP (rotates id) ≤ 1) ∧
      (∀ move current label expiresIn,
        (s.points move.process = .idle ∧ move.call = .rotateToken current label expiresIn ∨
          ∃ createdAt expiresAt attempts,
            s.points move.process = .rotating current label expiresIn createdAt expiresAt attempts) →
        (∀ token, (s.step crypto move).points move.process ≠
          .returned (.rotateToken current label expiresIn) (.token (.ok token))) →
        (s.step crypto move).tables = s.tables) ∧
      ∀ token, (factsOf s.history).issued token → (factsOf s.history).ended token.metadata.id →
        ∀ later outside principal,
          authenticate crypto token.secret outside (run (step crypto) s later).tables ≠ .ok principal := by
  intro s
  have hrecorded : Recorded crypto s.tables s.history := recorded_run crypto moves
  refine ⟨?_, hrecorded.once, ?_, ?_⟩
  · intro presented outside now principal hnow
    exact ⟨good_of_authenticate hrecorded.agrees hsha hnow,
      authenticate_of_good hrecorded.agrees hnow⟩
  · intro move current label expiresIn hrotating hfails
    rcases hrotating with ⟨hidle, hcall⟩ | ⟨createdAt, expiresAt, attempts, hpoint⟩
    · unfold step
      rw [hidle, hcall]
      rfl
    · unfold step at hfails ⊢
      rw [hpoint] at hfails ⊢
      refine rotateAttempt_tables current label expiresIn createdAt expiresAt attempts fun token htoken => ?_
      exact hfails token (by simpa [AuthPoint.advance] using htoken)
  · intro token hissued hended later outside principal haccepted
    have hlater : Recorded crypto (run (step crypto) s later).tables (run (step crypto) s later).history := by
      have := recorded_run crypto (moves ++ later)
      rwa [run_append] at this
    obtain ⟨answered, hhistory⟩ := history_run crypto s later
    obtain ⟨hstill, hknown⟩ := factsOf_mono answered s.history
    rw [← hhistory] at hstill hknown
    obtain ⟨-, -, now, -, -, hnow, -⟩ := authenticate_eq_ok.mp haccepted
    obtain ⟨token', hissued', hsecret, hlive, -⟩ :=
      good_of_authenticate hlater.agrees hsha hnow haccepted
    -- one text, one token
    obtain ⟨-, -, secret, htext, -⟩ := hlater.agrees.issued token (hknown token hissued)
    obtain ⟨-, -, secret', htext', -⟩ := hlater.agrees.issued token' hissued'
    have hid : token'.metadata.id = token.metadata.id :=
      PresentedToken.tokenText_id (htext'.symm.trans (hsecret.trans htext))
    exact hlive (hid ▸ hstill _ hended)

/-! ## One client, one token -/

namespace Small

/-- SHA-256 of 32 zero bytes. -/
def zeroDigest : Bytes :=
  (Encoding.decodeHex (Encoding.ascii "66687aadf862bd776c8fc18b8e9f8e20089714856ee233b3902a591d0d5f2925")).getD []

/-- A digest that tells secrets of 32 bytes apart, and is SHA-256 on the secret below. -/
def masked : Crypto where
  sha256 := fun message => List.zipWith (· ^^^ ·) ((message ++ List.replicate 32 0).take 32) zeroDigest
  sha256_length := by
    have hlength : zeroDigest.length = 32 := by decide +kernel
    simp [hlength]
  hmacSha256 := fun _ _ => List.replicate 32 0
  hmacSha256_length := by simp

theorem unmask (a k : Bytes) (h : a.length = k.length) :
    List.zipWith (· ^^^ ·) (List.zipWith (· ^^^ ·) a k) k = a := by
  induction a generalizing k with
  | nil => rfl
  | cons x xs ih =>
    cases k with
    | nil => cases h
    | cons y ys => simp [ih ys (Nat.succ.inj h)]

theorem collisionFree : Crypto.CollisionFree masked := by
  rintro ⟨a, ha⟩ ⟨b, hb⟩ h
  have hlength : zeroDigest.length = 32 := by decide +kernel
  have hread : ∀ bytes : Bytes, bytes.length = 32 →
      List.zipWith (· ^^^ ·) (masked.sha256 bytes) zeroDigest = bytes := by
    intro bytes hbytes
    show List.zipWith _ (List.zipWith _ ((bytes ++ List.replicate 32 0).take 32) zeroDigest) zeroDigest = bytes
    rw [List.take_left' hbytes, unmask bytes zeroDigest (hbytes.trans hlength.symm)]
  refine Subtype.ext (show a = b from ?_)
  rw [← hread a ha, ← hread b hb]
  exact congrArg (List.zipWith _ · zeroDigest) h

def outside : Outside :=
  ⟨some 5, some ⟨List.replicate 16 0, rfl⟩,
    some (⟨List.replicate 16 0, rfl⟩, ⟨List.replicate 32 0, rfl⟩), []⟩

def client : PrincipalId := ⟨"client_AAAAAAAAAAAAAAAAAAAAAA".toList, by decide +kernel⟩

def name : ClientName := ⟨['a'], by decide, by decide, by decide⟩

def moves : List (AuthMove Bool) :=
  [⟨false, .createClient name, outside⟩, ⟨false, .createClient name, outside⟩,
    ⟨true, .issueToken client none (some (Duration.fromSecs 1)), outside⟩,
    ⟨true, .issueToken client none (some (Duration.fromSecs 1)), outside⟩]

def text : Text :=
  "bondry_v1.token_AAAAAAAAAAAAAAAAAAAAAA.AAAAAAAAAAAAAAAAAAAAAAAAAAAAAAAAAAAAAAAAAAA".toList

end Small

/-- A text that was issued a moment ago. -/
theorem token_lifecycle_issued :
    let s := run (step Small.masked) new Small.moves
    authenticate Small.masked Small.text Small.outside s.tables = .ok ⟨Small.client⟩ ∧
      (factsOf s.history).Good Small.text 5 ⟨Small.client⟩ := by
  intro s
  have hok : authenticate Small.masked Small.text Small.outside s.tables = .ok ⟨Small.client⟩ := by
    decide +kernel
  exact ⟨hok, ((token_lifecycle Small.masked Small.collisionFree Small.moves).1 Small.text Small.outside 5
    ⟨Small.client⟩ rfl).1 hok⟩

end AuthSystem

end Bondry.Auth
