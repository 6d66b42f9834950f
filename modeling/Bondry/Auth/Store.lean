/-
  CLIENTS AND TOKENS IN SQLCIPHER (`bondry-store-sqlcipher`, `auth.rs`).

  Two tables, each a map from its primary key to the other columns.  An INSERT that breaks a
  constraint — a key that is taken, a digest that is taken, a client that does not exist — fails and
  leaves both tables as they were.
-/
import Bondry.Auth.Token
import Bondry.Lib.BTreeMap
import Bondry.Lib.Sql

namespace Bondry.Auth

open Sql

/-- A row of `clients`, without its identifier. -/
structure ClientRow where
  name : Text
  enabled : Bool
  createdAt : Int

/-- A row of `tokens`, without its identifier. -/
structure TokenRow where
  client : Text
  label : Option Text
  digest : Bytes
  createdAt : Int
  expiresAt : Option Int
  revokedAt : Option Int

structure AuthTables where
  clients : BTreeMap Text ClientRow
  tokens : BTreeMap Text TokenRow

inductive StoreError where
  | conflict
  | unavailable
  deriving DecidableEq, Repr

structure AuthenticationRecord where
  token : TokenRecord
  clientEnabled : Bool

structure TokenReplacement where
  id : TokenId
  label : Option TokenLabel
  digest : TokenDigest
  createdAt : Int
  expiresAt : Option Int

def TokenReplacement.intoRecord (replacement : TokenReplacement) (client : PrincipalId) : TokenRecord :=
  ⟨replacement.id, client, replacement.label, replacement.digest, replacement.createdAt,
    replacement.expiresAt, none⟩

inductive RotationOutcome where
  | rotated (client : PrincipalId)
  | notFound
  | inactive
  | clientDisabled

/-! ## Rows -/

/-- `PrincipalId::new`. -/
def principalId (value : Text) : Option PrincipalId :=
  if h : validate value IdentifierKind.principal.maximum = .ok () then some ⟨value, h⟩ else none

theorem principalId_text (id : PrincipalId) : principalId id.text = some id := by
  unfold principalId
  rw [dif_pos id.valid]

def TokenRecord.row (token : TokenRecord) : TokenRow where
  client := token.client.text
  label := token.label.map DisplayText.text
  digest := token.digest
  createdAt := token.createdAt
  expiresAt := token.expiresAt
  revokedAt := token.revokedAt

/-- `RawToken::validate`: the label of a row. -/
def readLabel : Option Text → Option (Option TokenLabel)
  | none => some none
  | some label =>
    match DisplayText.new maxTokenLabelLength label with
    | .ok label => some (some label)
    | .error _ => none

def TokenRow.validate (id : Text) (row : TokenRow) : Except StoreError TokenRecord :=
  if hdigest : row.digest.length = 32 then
    match TokenId.new id, principalId row.client, readLabel row.label with
    | .ok id, some client, some label =>
      .ok ⟨id, client, label, ⟨row.digest, hdigest⟩, row.createdAt, row.expiresAt, row.revokedAt⟩
    | _, _, _ => .error .unavailable
  else .error .unavailable

theorem TokenRow.validate_row (token : TokenRecord) : token.row.validate token.id.text = .ok token := by
  obtain ⟨id, client, label, digest, createdAt, expiresAt, revokedAt⟩ := token
  have hlabel : readLabel (label.map DisplayText.text) = some label := by
    rcases label with _ | label
    · rfl
    · simp [readLabel, DisplayText.new_text]
  unfold TokenRow.validate
  simp only [TokenRecord.row, digest.2, dite_true, TokenId.new_text, principalId_text, hlabel]

theorem TokenRow.validate_revokedAt {id : Text} {row : TokenRow} {token : TokenRecord}
    (h : row.validate id = .ok token) : token.revokedAt = row.revokedAt := by
  unfold TokenRow.validate at h
  split at h
  · split at h
    · cases h
      rfl
    · cases h
  · cases h

def ClientRow.read (id : Text) (row : ClientRow) : Except StoreError Client :=
  match principalId id, DisplayText.new maxClientNameLength row.name with
  | some id, .ok name => .ok ⟨id, name, row.enabled, row.createdAt⟩
  | _, _ => .error .unavailable

/-! ## Statements -/

namespace AuthTables

/-- `INSERT INTO clients`. -/
def insertClient (db : AuthTables) (client : Client) : Option AuthTables :=
  if (db.clients[client.id.text]?).isNone then
    some { db with
      clients := db.clients.insert client.id.text ⟨client.name.text, client.enabled, client.createdAt⟩ }
  else none

/-- `UPDATE clients SET enabled = ?1 WHERE id = ?2`, with the number of changed rows. -/
def enableClient (db : AuthTables) (id : Text) (enabled : Bool) : Nat × AuthTables :=
  match db.clients[id]? with
  | some row => (1, { db with clients := db.clients.insert id { row with enabled } })
  | none => (0, db)

/-- `INSERT INTO tokens`: both keys are free, the client exists, and the checks hold. -/
def insertToken (db : AuthTables) (token : TokenRecord) : Option AuthTables :=
  if (db.tokens[token.id.text]?).isNone ∧ (db.clients[token.client.text]?).isSome ∧
      (∀ e ∈ db.tokens.toList, e.2.digest ≠ token.digest.1) ∧
      (token.expiresAt.all fun expiresAt => decide (token.createdAt < expiresAt)) = true then
    some { db with tokens := db.tokens.insert token.id.text token.row }
  else none

/-- `UPDATE tokens SET revoked_at = ?1 WHERE id = ?2 AND …`, with the number of changed rows. -/
def revoke (db : AuthTables) (id : Text) (revokedAt : Int) (p : TokenRow → Bool) : Nat × AuthTables :=
  match db.tokens[id]? with
  | some row =>
    if p row then (1, { db with tokens := db.tokens.insert id { row with revokedAt := some revokedAt } })
    else (0, db)
  | none => (0, db)

theorem revoke_cases (db : AuthTables) (id : Text) (revokedAt : Int) (p : TokenRow → Bool) :
    (∃ db', db.revoke id revokedAt p = (1, db')) ∨ db.revoke id revokedAt p = (0, db) := by
  unfold revoke
  split
  · split
    · exact .inl ⟨_, rfl⟩
    · exact .inr rfl
  · exact .inr rfl

theorem enableClient_cases (db : AuthTables) (id : Text) (enabled : Bool) :
    (∃ db', db.enableClient id enabled = (1, db')) ∨ db.enableClient id enabled = (0, db) := by
  unfold enableClient
  split
  · exact .inl ⟨_, rfl⟩
  · exact .inr rfl

/-- `tokens t JOIN clients c ON c.id = t.client_id WHERE t.id = ?1`. -/
def joined (db : AuthTables) (id : Text) : Option (TokenRow × Bool) :=
  match db.tokens[id]? with
  | some row => (db.clients[row.client]?).map fun client => (row, client.enabled)
  | none => none

theorem tokens_of_joined {db : AuthTables} {id : Text} {row : TokenRow} {enabled : Bool}
    (h : db.joined id = some (row, enabled)) : db.tokens[id]? = some row := by
  unfold joined at h
  split at h
  · next hrow =>
    obtain ⟨client, -, hpair⟩ := Option.map_eq_some_iff.mp h
    cases hpair
    exact hrow
  · cases h

end AuthTables

def constrained (statement : AuthTables → Option AuthTables) (db : AuthTables) : Option (Bool × AuthTables) :=
  match statement db with
  | some db' => some (true, db')
  | none => some (false, db)

/-! ## Operations -/

abbrev AuthM := Op StoreError AuthTables

def insertClient (client : Client) : AuthM Unit := do
  let inserted ← Op.single .unavailable (constrained fun db => db.insertClient client)
  if inserted then pure () else Op.fail .conflict

/-- `client`. -/
def loadClient (id : PrincipalId) : AuthM (Option Client) := do
  Op.enter .unavailable
  let raw ← Op.query .unavailable fun db => some (db.clients[id.text]?)
  match raw with
  | none => pure none
  | some row => do
      let client ← Op.ofExcept (row.read id.text)
      pure (some client)

def setClientEnabled (id : PrincipalId) (enabled : Bool) : AuthM Bool := do
  let changed ← Op.single .unavailable fun db => some (db.enableClient id.text enabled)
  pure (decide (changed = 1))

def insertToken (token : TokenRecord) : AuthM Unit := do
  let inserted ← Op.single .unavailable (constrained fun db => db.insertToken token)
  if inserted then pure () else Op.fail .conflict

def authenticationRecord (id : TokenId) : AuthM (Option AuthenticationRecord) := do
  Op.enter .unavailable
  let raw ← Op.query .unavailable fun db => some (db.joined id.text)
  match raw with
  | none => pure none
  | some (row, enabled) => do
      let token ← Op.ofExcept (row.validate id.text)
      pure (some ⟨token, enabled⟩)

/-- `revoked_at IS NULL AND (expires_at IS NULL OR ?1 < expires_at)`. -/
def revocable (revokedAt : Int) (row : TokenRow) : Bool :=
  row.revokedAt.isNone && row.expiresAt.all fun expiresAt => decide (revokedAt < expiresAt)

def revokeToken (id : TokenId) (revokedAt : Int) : AuthM Bool := do
  let changed ← Op.single .unavailable fun db => some (db.revoke id.text revokedAt (revocable revokedAt))
  pure (decide (changed = 1))

def rotateToken (current : TokenId) (replacement : TokenReplacement) (revokedAt : Int) :
    AuthM RotationOutcome := do
  Op.enter .unavailable
  Op.enter .unavailable
  let raw ← Op.query .unavailable fun db => some (db.joined current.text)
  match raw with
  | none => pure .notFound
  | some (row, enabled) => do
      let currentToken ← Op.ofExcept (row.validate current.text)
      if enabled = false then pure .clientDisabled
      else if currentToken.isActiveAt revokedAt = false then pure .inactive
      else do
        let inserted ← Op.call .unavailable
          (constrained fun db => db.insertToken (replacement.intoRecord currentToken.client))
        if inserted = false then Op.fail .conflict
        else do
          let changed ← Op.call .unavailable fun db =>
            some (db.revoke current.text revokedAt fun row => row.revokedAt.isNone)
          if changed ≠ 1 then Op.fail .unavailable
          else do
            Op.commit .unavailable
            pure (.rotated currentToken.client)

/-! ## What a run has done -/

theorem constrained_eq {statement : AuthTables → Option AuthTables} {db db' : AuthTables} {done : Bool}
    (h : constrained statement db = some (done, db')) :
    (done = true ∧ statement db = some db') ∨ (done = false ∧ statement db = none ∧ db' = db) := by
  unfold constrained at h
  split at h
  · next hs =>
    cases h
    exact .inl ⟨rfl, hs⟩
  · next hs =>
    cases h
    exact .inr ⟨rfl, hs, rfl⟩

variable {faults : List Bool} {db db' : AuthTables}

variable {answer : Except StoreError Unit}

theorem insert_run {statement : AuthTables → Option AuthTables} (h : Op.run (do
        let inserted ← Op.single .unavailable (constrained statement)
        if inserted then pure () else Op.fail .conflict) faults db = (answer, db')) :
    (answer = .ok () ∧ statement db = some db') ∨ ((∃ e, answer = .error e) ∧ db' = db) := by
  refine Op.Meets.run
    (P := fun answer db' => (answer = .ok () ∧ statement db = some db') ∨
      ((∃ e, answer = .error e) ∧ db' = db)) h (.bind ?_)
  refine .bind (.enter ?_ (.autocommit ?_ fun inserted db' hs => ?_))
  · exact .inr ⟨⟨_, rfl⟩, rfl⟩
  · exact .inr ⟨⟨_, rfl⟩, rfl⟩
  · rcases constrained_eq hs with ⟨rfl, hdone⟩ | ⟨rfl, -, rfl⟩
    · exact .pure (.inl ⟨rfl, hdone⟩)
    · exact .fail (.inr ⟨⟨_, rfl⟩, rfl⟩)

theorem insertClient_run {client : Client} (h : (insertClient client).run faults db = (answer, db')) :
    (answer = .ok () ∧ db.insertClient client = some db') ∨ ((∃ e, answer = .error e) ∧ db' = db) :=
  insert_run h

theorem insertToken_run {token : TokenRecord} (h : (insertToken token).run faults db = (answer, db')) :
    (answer = .ok () ∧ db.insertToken token = some db') ∨ ((∃ e, answer = .error e) ∧ db' = db) :=
  insert_run h

theorem change_run {change : AuthTables → Nat × AuthTables} {answer : Except StoreError Bool}
    (h : Op.run (do
        let changed ← Op.single .unavailable fun db => some (change db)
        pure (decide (changed = 1))) faults db = (answer, db')) :
    (answer = .ok (decide ((change db).1 = 1)) ∧ db' = (change db).2) ∨
      ((∃ e, answer = .error e) ∧ db' = db) := by
  refine Op.Meets.run
    (P := fun answer db' => (answer = .ok (decide ((change db).1 = 1)) ∧ db' = (change db).2) ∨
      ((∃ e, answer = .error e) ∧ db' = db)) h (.bind ?_)
  refine .bind (.enter ?_ (.autocommit ?_ fun changed db' hs => ?_))
  · exact .inr ⟨⟨_, rfl⟩, rfl⟩
  · exact .inr ⟨⟨_, rfl⟩, rfl⟩
  · rw [Option.some.inj hs]
    exact .pure (.inl ⟨rfl, rfl⟩)

theorem setClientEnabled_run {id : PrincipalId} {enabled : Bool} {answer : Except StoreError Bool}
    (h : (setClientEnabled id enabled).run faults db = (answer, db')) :
    (answer = .ok (decide ((db.enableClient id.text enabled).1 = 1)) ∧
        db' = (db.enableClient id.text enabled).2) ∨ ((∃ e, answer = .error e) ∧ db' = db) :=
  change_run h

theorem revokeToken_run {id : TokenId} {revokedAt : Int} {answer : Except StoreError Bool}
    (h : (revokeToken id revokedAt).run faults db = (answer, db')) :
    (answer = .ok (decide ((db.revoke id.text revokedAt (revocable revokedAt)).1 = 1)) ∧
        db' = (db.revoke id.text revokedAt (revocable revokedAt)).2) ∨
      ((∃ e, answer = .error e) ∧ db' = db) :=
  change_run h

theorem loadClient_run {id : PrincipalId} {answer : Except StoreError (Option Client)}
    (h : (loadClient id).run faults db = (answer, db')) : db' = db := by
  refine Op.Meets.run (P := fun _ db' => db' = db) h ?_
  unfold loadClient
  refine .bind (.enter rfl (.bind (.query rfl fun raw hraw => ?_)))
  rcases raw with _ | row
  · exact .pure rfl
  · refine .bind ?_
    rcases row.read id.text with _ | client
    · exact .fail rfl
    · exact .pure (.pure rfl)

/-- What `authentication_record` reads. -/
def AuthTables.authentication (db : AuthTables) (id : TokenId) :
    Except StoreError (Option AuthenticationRecord) :=
  match db.joined id.text with
  | none => .ok none
  | some (row, enabled) =>
    match row.validate id.text with
    | .ok token => .ok (some ⟨token, enabled⟩)
    | .error e => .error e

theorem authenticationRecord_run {id : TokenId} {answer : Except StoreError (Option AuthenticationRecord)}
    (h : (authenticationRecord id).run faults db = (answer, db')) :
    (answer = db.authentication id ∨ answer = .error .unavailable) ∧ db' = db := by
  refine Op.Meets.run
    (P := fun answer db' => (answer = db.authentication id ∨ answer = .error .unavailable) ∧ db' = db) h ?_
  unfold authenticationRecord
  refine .bind (.enter ⟨.inr rfl, rfl⟩ (.bind (.query ⟨.inr rfl, rfl⟩ fun raw hraw => ?_)))
  have hjoined : db.joined id.text = raw := Option.some.inj hraw
  unfold AuthTables.authentication
  rw [hjoined]
  rcases raw with _ | ⟨row, enabled⟩
  · exact .pure ⟨.inl rfl, rfl⟩
  · refine .bind ?_
    dsimp only
    rcases row.validate id.text with e | token
    · exact .fail ⟨.inl rfl, rfl⟩
    · exact .pure (.pure ⟨.inl rfl, rfl⟩)

theorem authenticationRecord_eq (db : AuthTables) (id : TokenId) :
    (authenticationRecord id).run [] db = (db.authentication id, db) := by
  unfold AuthTables.authentication
  rcases hjoined : db.joined id.text with _ | ⟨row, enabled⟩
  · simp only [authenticationRecord, Op.run, bind, Op.bind, Op.enter, Op.query, Op.call, hjoined]
    rfl
  · simp only [authenticationRecord, Op.run, bind, Op.bind, Op.enter, Op.query, Op.call, hjoined]
    rcases hvalid : row.validate id.text with e | token
    · simp only [List.tail_nil, Option.map_some, hvalid]
      rfl
    · simp only [List.tail_nil, Option.map_some, hvalid]
      rfl

structure Replaced (current : TokenId) (replacement : TokenReplacement) (revokedAt : Int)
    (db : AuthTables) (client : PrincipalId) (db' : AuthTables) : Prop where
  joined : ∃ row token, db.joined current.text = some (row, true) ∧
    row.validate current.text = .ok token ∧ token.isActiveAt revokedAt = true ∧ token.client = client
  changed : ∃ inserted, db.insertToken (replacement.intoRecord client) = some inserted ∧
    (1, db') = inserted.revoke current.text revokedAt fun row => row.revokedAt.isNone

/-- **A rotation is everything or nothing.** -/
theorem rotateToken_run {current : TokenId} {replacement : TokenReplacement} {revokedAt : Int}
    {answer : Except StoreError RotationOutcome}
    (h : (rotateToken current replacement revokedAt).run faults db = (answer, db')) :
    (∃ client, answer = .ok (.rotated client) ∧ Replaced current replacement revokedAt db client db') ∨
      ((∀ client, answer ≠ .ok (.rotated client)) ∧ db' = db) := by
  refine Op.Meets.run
    (P := fun answer db' => (∃ client, answer = .ok (.rotated client) ∧
        Replaced current replacement revokedAt db client db') ∨
      ((∀ client, answer ≠ .ok (.rotated client)) ∧ db' = db)) h ?_
  have hfailed : ∀ e : StoreError, (∃ client, (.error e : Except StoreError RotationOutcome) =
      .ok (.rotated client) ∧ Replaced current replacement revokedAt db client db) ∨
      ((∀ client, (.error e : Except StoreError RotationOutcome) ≠ .ok (.rotated client)) ∧ db = db) :=
    fun e => .inr ⟨by simp, rfl⟩
  unfold rotateToken
  refine .bind (.enter (hfailed _) (.bind (.enter (hfailed _) (.bind (.query (hfailed _) fun raw hraw => ?_)))))
  have hjoined : db.joined current.text = raw := Option.some.inj hraw
  rcases raw with _ | ⟨row, enabled⟩
  · exact .pure (.inr ⟨by simp, rfl⟩)
  refine .bind ?_
  rcases hvalid : row.validate current.text with e | token
  · exact .fail (hfailed _)
  refine .pure ?_
  split
  · exact .pure (.inr ⟨by simp, rfl⟩)
  · next henabled =>
    split
    · exact .pure (.inr ⟨by simp, rfl⟩)
    · next hactive =>
      refine .bind (.call (hfailed _) fun inserted w hw => ?_)
      rcases constrained_eq hw with ⟨rfl, hinserted⟩ | ⟨rfl, -, rfl⟩
      · rw [if_neg (by simp)]
        refine .bind (.call (hfailed _) fun changed w' hw' => ?_)
        split
        · exact .fail (hfailed _)
        · next hchanged =>
          rw [ne_eq, not_not] at hchanged
          refine .bind (.commit (hfailed _) (.pure (.inl ⟨token.client, rfl, ?_, ?_⟩)))
          · exact ⟨row, token, by simpa [Bool.not_eq_false] using hjoined.trans (by simpa using henabled),
              hvalid, by simpa using hactive, rfl⟩
          · exact ⟨w, hinserted, hchanged ▸ (Option.some.inj hw').symm⟩
      · rw [if_pos rfl]
        exact .fail (hfailed _)

end Bondry.Auth
