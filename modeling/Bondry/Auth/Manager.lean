/-
  THE AUTHENTICATION MANAGER (`bondry-auth`, `manager.rs`) and its callers.

  Each call is a process that goes from store operation to store operation; a store operation is one
  step, since the connection is locked for it.  Between two steps of a call every other call may do
  as much as it likes: the client of `issue_token` is loaded in one step and the token inserted
  in another, and a generation loop makes up to eight attempts, one step each.

  The clock, the random source and failing store calls are outside: a step is told what they gave.
  `history` lists the calls that have returned, with their answers, the newest first.
-/
import Bondry.Auth.Store
import Bondry.Contract.Limits
import Bondry.Lib.Run

namespace Bondry.Auth

def generationAttempts : Nat := 8

inductive ClientManagementError where
  | notFound
  | entropyUnavailable
  | generationExhausted
  | timeUnavailable
  | storageUnavailable
  deriving DecidableEq, Repr

inductive TokenLifecycleError where
  | clientNotFound
  | clientDisabled
  | notFound
  | inactive
  | invalidLifetime
  | entropyUnavailable
  | generationExhausted
  | timeUnavailable
  | storageUnavailable
  deriving DecidableEq, Repr

inductive AuthenticationError where
  | rejected
  | storageUnavailable
  deriving DecidableEq, Repr

inductive AuthCall where
  | createClient (name : ClientName)
  | setClientEnabled (id : PrincipalId) (enabled : Bool)
  | issueToken (client : PrincipalId) (label : Option TokenLabel) (expiresIn : Option Nat)
  | rotateToken (current : TokenId) (label : Option TokenLabel) (expiresIn : Option Nat)
  | revokeToken (id : TokenId)
  | authenticate (presented : Text)

inductive AuthAnswer where
  | client (result : Except ClientManagementError Client)
  | enabled (result : Except ClientManagementError Unit)
  | token (result : Except TokenLifecycleError IssuedToken)
  | revoked (result : Except TokenLifecycleError Bool)
  | principal (result : Except AuthenticationError Principal)

/-- Where a caller is: between the attempts of its call. -/
inductive AuthPoint where
  | idle
  | creating (name : ClientName) (createdAt : Int) (attempts : Nat)
  | issuing (client : PrincipalId) (label : Option TokenLabel) (expiresIn : Option Nat) (owner : Client)
      (createdAt : Int) (expiresAt : Option Int) (attempts : Nat)
  | rotating (current : TokenId) (label : Option TokenLabel) (expiresIn : Option Nat) (createdAt : Int)
      (expiresAt : Option Int) (attempts : Nat)
  | returned (call : AuthCall) (answer : AuthAnswer)

/-- What a step reads: the clock, random bytes, the failures of the store. -/
structure Outside where
  clock : Option Int
  clientRandom : Option (U8Array 16)
  tokenRandom : Option (U8Array tokenIdRandomBytes × U8Array tokenSecretBytes)
  faults : List Bool

def expiration (now : Int) (lifetime : Option Nat) : Except TokenLifecycleError (Option Int) :=
  match lifetime with
  | none => .ok none
  | some lifetime =>
    if i64Max < Duration.asSecs lifetime then .error .invalidLifetime
    else if Duration.asSecs lifetime = 0 then .error .invalidLifetime
    else if now + Duration.asSecs lifetime ≤ i64Max then .ok (some (now + Duration.asSecs lifetime))
    else .error .invalidLifetime

def generateClientId (random : Option (U8Array 16)) : Option PrincipalId :=
  match random with
  | none => none
  | some bytes => principalId ("client_".toList ++ Base64.urlSafeNoPad.encode bytes)

/-! ## The calls, step by step -/

/-- `create_client`: reads the clock. -/
def createClient (name : ClientName) (outside : Outside) : AuthPoint :=
  match outside.clock with
  | none => .returned (.createClient name) (.client (.error .timeUnavailable))
  | some createdAt => .creating name createdAt generationAttempts

/-- One attempt of `create_client`; a conflict leaves one fewer. -/
def createAttempt (name : ClientName) (createdAt : Int) (attempts : Nat) (outside : Outside)
    (db : AuthTables) : AuthPoint × AuthTables :=
  let answer := fun result => AuthPoint.returned (.createClient name) (.client result)
  match attempts with
  | 0 => (answer (.error .generationExhausted), db)
  | attempts + 1 =>
    match generateClientId outside.clientRandom with
    | none => (answer (.error .entropyUnavailable), db)
    | some id =>
      let client := Client.mk id name true createdAt
      match (insertClient client).run outside.faults db with
      | (.ok (), db') => (answer (.ok client), db')
      | (.error .conflict, db') => (.creating name createdAt attempts, db')
      | (.error .unavailable, db') => (answer (.error .storageUnavailable), db')

/-- `set_client_enabled`. -/
def setEnabled (id : PrincipalId) (enabled : Bool) (outside : Outside) (db : AuthTables) :
    AuthPoint × AuthTables :=
  let answer := fun result => AuthPoint.returned (.setClientEnabled id enabled) (.enabled result)
  match (setClientEnabled id enabled).run outside.faults db with
  | (.ok true, db') => (answer (.ok ()), db')
  | (.ok false, db') => (answer (.error .notFound), db')
  | (.error _, db') => (answer (.error .storageUnavailable), db')

/-- `issue_token`: loads the client, reads the clock and computes the expiry. -/
def issueToken (client : PrincipalId) (label : Option TokenLabel) (expiresIn : Option Nat)
    (outside : Outside) (db : AuthTables) : AuthPoint × AuthTables :=
  let answer := fun e => AuthPoint.returned (.issueToken client label expiresIn) (.token (.error e))
  match (loadClient client).run outside.faults db with
  | (.error _, db') => (answer .storageUnavailable, db')
  | (.ok none, db') => (answer .clientNotFound, db')
  | (.ok (some owner), db') =>
    if owner.enabled = false then (answer .clientDisabled, db')
    else match outside.clock with
      | none => (answer .timeUnavailable, db')
      | some createdAt =>
        match expiration createdAt expiresIn with
        | .error e => (answer e, db')
        | .ok expiresAt =>
          (.issuing client label expiresIn owner createdAt expiresAt generationAttempts, db')

def issueAttempt (crypto : Crypto) (client : PrincipalId) (label : Option TokenLabel)
    (expiresIn : Option Nat) (owner : Client) (createdAt : Int) (expiresAt : Option Int) (attempts : Nat)
    (outside : Outside) (db : AuthTables) : AuthPoint × AuthTables :=
  let answer := fun result => AuthPoint.returned (.issueToken client label expiresIn) (.token result)
  match attempts with
  | 0 => (answer (.error .generationExhausted), db)
  | attempts + 1 =>
    match GeneratedToken.generate crypto outside.tokenRandom with
    | none => (answer (.error .entropyUnavailable), db)
    | some generated =>
      let record :=
        TokenRecord.mk generated.id owner.id label generated.digest createdAt expiresAt none
      match (insertToken record).run outside.faults db with
      | (.ok (), db') => (answer (.ok ⟨record.metadata, generated.secret⟩), db')
      | (.error .conflict, db') =>
        (.issuing client label expiresIn owner createdAt expiresAt attempts, db')
      | (.error .unavailable, db') => (answer (.error .storageUnavailable), db')

def authenticate (crypto : Crypto) (presented : Text) (outside : Outside) (db : AuthTables) :
    Except AuthenticationError Principal :=
  match PresentedToken.parse crypto presented with
  | none => .error .rejected
  | some presented =>
    match ((authenticationRecord presented.id).run outside.faults db).1 with
    | .error _ => .error .storageUnavailable
    | .ok record =>
      match outside.clock with
      | none => .error .storageUnavailable
      | some now =>
        let dummyDigest : TokenDigest := ⟨List.replicate 32 0, by simp⟩
        let digest := record.elim dummyDigest fun record => record.token.digest
        let digestMatches := decide (digest = presented.digest)
        if record.any fun record =>
            digestMatches && record.token.isActiveAt now && record.clientEnabled then
          match record with
          | none => .error .rejected
          | some record => .ok ⟨record.token.client⟩
        else .error .rejected

/-- `revoke_token`. -/
def revoke (id : TokenId) (outside : Outside) (db : AuthTables) : AuthPoint × AuthTables :=
  let answer := fun result => AuthPoint.returned (.revokeToken id) (.revoked result)
  match outside.clock with
  | none => (answer (.error .timeUnavailable), db)
  | some revokedAt =>
    match (revokeToken id revokedAt).run outside.faults db with
    | (.ok changed, db') => (answer (.ok changed), db')
    | (.error _, db') => (answer (.error .storageUnavailable), db')

/-- `rotate_token`: reads the clock and computes the expiry. -/
def rotate (current : TokenId) (label : Option TokenLabel) (expiresIn : Option Nat)
    (outside : Outside) : AuthPoint :=
  let answer := fun e => AuthPoint.returned (.rotateToken current label expiresIn) (.token (.error e))
  match outside.clock with
  | none => answer .timeUnavailable
  | some createdAt =>
    match expiration createdAt expiresIn with
    | .error e => answer e
    | .ok expiresAt => .rotating current label expiresIn createdAt expiresAt generationAttempts

def rotateAttempt (crypto : Crypto) (current : TokenId) (label : Option TokenLabel)
    (expiresIn : Option Nat) (createdAt : Int) (expiresAt : Option Int) (attempts : Nat)
    (outside : Outside) (db : AuthTables) : AuthPoint × AuthTables :=
  let answer := fun result => AuthPoint.returned (.rotateToken current label expiresIn) (.token result)
  match attempts with
  | 0 => (answer (.error .generationExhausted), db)
  | attempts + 1 =>
    match GeneratedToken.generate crypto outside.tokenRandom with
    | none => (answer (.error .entropyUnavailable), db)
    | some generated =>
      let replacement :=
        TokenReplacement.mk generated.id label generated.digest createdAt expiresAt
      match (rotateToken current replacement createdAt).run outside.faults db with
      | (.ok (.rotated client), db') =>
        (answer (.ok ⟨⟨generated.id, client, label, createdAt, expiresAt, none⟩,
          generated.secret⟩), db')
      | (.ok .notFound, db') => (answer (.error .notFound), db')
      | (.ok .inactive, db') => (answer (.error .inactive), db')
      | (.ok .clientDisabled, db') => (answer (.error .clientDisabled), db')
      | (.error .conflict, db') =>
        (.rotating current label expiresIn createdAt expiresAt attempts, db')
      | (.error .unavailable, db') => (answer (.error .storageUnavailable), db')

/-! ## Any number of callers -/

def AuthCall.begin (crypto : Crypto) (outside : Outside) (db : AuthTables) : AuthCall → AuthPoint × AuthTables
  | .createClient name => (Auth.createClient name outside, db)
  | .setClientEnabled id enabled => setEnabled id enabled outside db
  | .issueToken client label expiresIn => Auth.issueToken client label expiresIn outside db
  | .rotateToken current label expiresIn => (rotate current label expiresIn outside, db)
  | .revokeToken id => revoke id outside db
  | .authenticate presented =>
    (.returned (.authenticate presented) (.principal (Auth.authenticate crypto presented outside db)),
      db)

def AuthPoint.advance (crypto : Crypto) (call : AuthCall) (outside : Outside) (db : AuthTables) :
    AuthPoint → Option (AuthPoint × AuthTables)
  | .idle => some (call.begin crypto outside db)
  | .creating name createdAt attempts => some (createAttempt name createdAt attempts outside db)
  | .issuing client label expiresIn owner createdAt expiresAt attempts =>
    some (issueAttempt crypto client label expiresIn owner createdAt expiresAt attempts outside db)
  | .rotating current label expiresIn createdAt expiresAt attempts =>
    some (rotateAttempt crypto current label expiresIn createdAt expiresAt attempts outside db)
  | .returned _ _ => none

def AuthPoint.answered : AuthPoint → List (AuthCall × AuthAnswer)
  | .returned call answer => [(call, answer)]
  | _ => []

/-- The callers over one store. -/
structure AuthSystem (ι : Type) where
  tables : AuthTables
  points : ι → AuthPoint
  history : List (AuthCall × AuthAnswer)

/-- A step: whose, the call it makes if it is idle, and what is given from outside. -/
structure AuthMove (ι : Type) where
  process : ι
  call : AuthCall
  outside : Outside

namespace AuthSystem

variable {ι : Type}

def new : AuthSystem ι := ⟨⟨∅, ∅⟩, fun _ => .idle, []⟩

variable [DecidableEq ι]

def step (crypto : Crypto) (s : AuthSystem ι) (move : AuthMove ι) : AuthSystem ι :=
  match (s.points move.process).advance crypto move.call move.outside s.tables with
  | none => s
  | some (point, tables) =>
    ⟨tables, Function.update s.points move.process point, point.answered ++ s.history⟩

end AuthSystem

end Bondry.Auth
