/-
  CLAIM OWNERSHIP.

  A guard's transitions name their row only by its key and by the state `in_flight`.  Whether they hit
  the row the guard itself inserted depends on what an OPERATOR did to that row in the meantime:

  * `claim_ownership` — as long as nobody resolves an unknown record whose guard is still armed, every
    guard changes only its own row, and the rows of all other guards stay as they are;
  * `stale_guard_completes_newer_claim` — recovery, `RetryAllowed` and a second claim of the key make
    the first guard complete the second one's row.

  The invariant behind the first is small: an armed guard's row is the row its key has and was not
  completed (`owned`), and no two requests have the same row (`distinct`), because row numbers are never
  used twice.  That no REQUEST removes another one's row is a consequence, not an assumption: a step that
  could (`row_kept`) would belong to a second guard of the same row.
-/
import Bondry.Webhook.System

namespace Bondry.Webhook

open Sql Store

section

variable {ε χ ω : Type} {host : Host ε χ ω}

/-- The key an operator decides about with this action. -/
def Action.decides : Action ε → Option DedupKey
  | .administer (.resolveUnknown key _ _) _ _ => some key
  | _ => none

/-- The action is not an operator's decision about the key. -/
def Unresolved (key : DedupKey) (_ : System χ ω) (action : Action ε) : Prop := action.decides ≠ some key

/-- No operator decides about an unknown record while a guard of its key is armed. -/
def Undisturbed (s : System χ ω) (action : Action ε) : Prop :=
  ∀ (i : Nat) live guard n row, s.live[i]? = some live → live.guard = some guard →
    s.db.webhookDedup.find guard.key = some (n, row) → row.state = .unknown → Unresolved guard.key s action

/-- A step of a request changes at most the row its own claim inserted, and no row of another
    guard. -/
def ChangesOwnRow (host : Host ε χ ω) (s : System χ ω) (action : Action ε) : Prop :=
  ∀ i live, action.ticket = some i → s.live[i]? = some live →
    (∀ key, (s.step host action).db.webhookDedup.find key ≠ s.db.webhookDedup.find key →
      ∃ n row, live.row = some n ∧ s.db.webhookDedup.find key = some (n, row)) ∧
    (∀ j other guard, j ≠ i → s.live[j]? = some other → other.guard = some guard →
      (s.step host action).db.webhookDedup.find guard.key = s.db.webhookDedup.find guard.key)

/-- What holds between the steps of an undisturbed run. -/
structure Owning (s : System χ ω) : Prop where
  owned : ∀ (i : Nat) live guard, s.live[i]? = some live → live.guard = some guard →
    ∃ n row, live.row = some n ∧ s.db.webhookDedup.find guard.key = some (n, row) ∧ row.state ≠ .completed
  distinct : ∀ (i j : Nat) live other n, s.live[i]? = some live → s.live[j]? = some other →
    live.row = some n → other.row = some n → i = j
  numbered : ∀ (i : Nat) live n, s.live[i]? = some live → live.row = some n →
    n ≤ s.db.webhookDedup.last

/-- No request is alive. -/
def Idle (s : System χ ω) : Prop := ∀ i : Nat, s.live[i]? = none

variable {s : System χ ω}

theorem owning_of_idle (h : Idle s) : Owning s where
  owned i live guard hlive := by rw [h i] at hlive; cases hlive
  distinct i j live other n hlive := by rw [h i] at hlive; cases hlive
  numbered i live n hlive := by rw [h i] at hlive; cases hlive

variable {action : Action ε}

theorem step_last {s' : System χ ω} {response : Option WebhookIngressResponse}
    (h : StepRun host s action s' response) : s.db.webhookDedup.last ≤ s'.db.webhookDedup.last := by
  rcases db_change h with hdb | ⟨_, _, _, _, hcall⟩
  · rw [hdb]
  · exact call_last hcall

theorem begun_row {s' : System χ ω} {live' : Live χ ω} {n : Nat} (h : Begun host s s' action live')
    (hrow : live'.row = some n) : s.db.webhookDedup.last < n ∧ n ≤ s'.db.webhookDedup.last := by
  cases h with
  | anonymous hident => cases hrow
  | claimed hclaims hcall hown =>
    cases hrow
    exact ⟨claimed_number hcall hown, Table.number_le_of_find hown⟩

theorem guard_request_key {guard guard' : DedupGuard} {settlement settlement' : Settlement}
    (h : guard.request settlement = guard'.request settlement') : guard.key = guard'.key :=
  Option.some.inj (by rw [← guard_names guard settlement, h, guard_names])

/-- **An unfinished row stays**, unless the step is its guard's own or an operator decides about it. -/
theorem row_kept {s' : System χ ω} {response : Option WebhookIngressResponse} {key : DedupKey} {n : Nat}
    {row : DedupRow} (h : StepRun host s action s' response)
    (hfind : s.db.webhookDedup.find key = some (n, row)) (hstate : row.state ≠ .completed)
    (hfree : ∀ (j : Nat) live guard, action.ticket = some j → s.live[j]? = some live →
      live.guard = some guard → guard.key ≠ key)
    (hunresolved : row.state = .unknown → Unresolved key s action) :
    ∃ row', s'.db.webhookDedup.find key = some (n, row') ∧ row'.state ≠ .completed := by
  rcases db_change h with hdb | ⟨request, limits, answer, hreq, hcall⟩
  · exact ⟨row, by rw [hdb, hfind], hstate⟩
  have hmoves := call_moves hcall key
  rw [hfind] at hmoves
  -- a transition of the key would be made by a guard that holds it
  have hheld : ∀ (g : DedupGuard) (settlement : Settlement), g.key = key →
      request ≠ g.request settlement := by
    intro g settlement hkey heq
    cases hreq with
    | claim hclaims => cases settlement <;> cases heq
    | @administration work limits faults => cases work <;> cases settlement <;> cases heq
    | @guard j live guard own _ hticket hlive hguard hwhy =>
      exact hfree j live guard hticket hlive hguard ((guard_request_key heq).trans hkey)
  have hdecision : row.state = .unknown → ∀ resolution now, request ≠ .resolveUnknown key resolution now := by
    intro hold resolution now heq
    obtain ⟨faults, rfl⟩ := hreq.administered (.resolveUnknown key resolution now) heq
    exact hunresolved hold rfl
  generalize s'.db.webhookDedup.find key = after_ at hmoves ⊢
  rcases moves_from_row hmoves with rfl | hmove | ⟨policy, now, _, hexp⟩
  · exact ⟨row, rfl, hstate⟩
  · cases hmove with
    | @completed now _ _ hreq => exact absurd hreq (hheld ⟨key, now⟩ .complete rfl)
    | uncertain _ hold => exact ⟨_, rfl, fun hno => by cases hno⟩
    | released hreq => exact absurd hreq (hheld ⟨key, 0⟩ .release rfl)
    | resolved hreq _ hold => exact absurd hreq (hdecision hold _ _)
    | retried hreq _ hold => exact absurd hreq (hdecision hold _ _)
    | expired _ hold => exact absurd hold hstate
    | cleared _ _ hold => exact absurd hold hstate
  · exact absurd (expired_completed hexp) hstate

/-- Two armed guards of one key are one guard. -/
theorem Owning.sole (hs : Owning s) {i j : Nat} {live other : Live χ ω} {guard guard' : DedupGuard}
    (hlive : s.live[i]? = some live) (hother : s.live[j]? = some other) (hguard : live.guard = some guard)
    (hguard' : other.guard = some guard') (hkey : guard.key = guard'.key) : i = j := by
  obtain ⟨n, row, hrow, hfind, _⟩ := hs.owned i live guard hlive hguard
  obtain ⟨m, row', horow, hofind, _⟩ := hs.owned j other guard' hother hguard'
  rw [hkey, hofind] at hfind
  cases hfind
  exact hs.distinct i j live other n hlive hother hrow horow

/-- **One undisturbed step keeps ownership.** -/
theorem Owning.step (hs : Owning s) (hstep : Undisturbed s action) : Owning (s.step host action) := by
  have hrun : StepRun host s action _ _ := step_run s action
  constructor
  · intro i live' guard hlive' hguard'
    cases ticket_origin hrun hlive' with
    | @kept live hlive hcont hdb =>
      rw [hcont.guard] at hguard'
      rw [hcont.row]
      obtain ⟨n, row, hrow, hfind, hstate⟩ := hs.owned i live guard hlive hguard'
      by_cases hticket : action.ticket = some i
      · rw [hdb hticket]
        exact ⟨n, row, hrow, hfind, hstate⟩
      · -- a request with another number that could remove the row would own it
        have hfree : ∀ (j : Nat) other guard', action.ticket = some j → s.live[j]? = some other →
            other.guard = some guard' → guard'.key ≠ guard.key := fun j other guard' hj hother hother' hkey =>
          hticket (hj.trans (congrArg some (hs.sole hother hlive hother' hguard' hkey)))
        obtain ⟨row', hfind', hstate'⟩ := row_kept hrun hfind hstate hfree
          (hstep i live guard n row hlive hguard' hfind)
        exact ⟨n, row', hrow, hfind', hstate'⟩
    | begun hnew hnext hbegun =>
      cases hbegun with
      | anonymous hident => cases hguard'
      | claimed hclaims hcall hown =>
        cases hguard'
        exact ⟨_, _, rfl, hown, fun hno => by cases hno⟩
  · intro i j live' other' n hlive' hother' hrow' horow'
    cases ticket_origin hrun hlive' with
    | @kept live hlive hcont _ =>
      rw [hcont.row] at hrow'
      cases ticket_origin hrun hother' with
      | @kept other hother hocont _ =>
        rw [hocont.row] at horow'
        exact hs.distinct i j live other n hlive hother hrow' horow'
      | begun hnew hnext hbegun =>
        have hle := hs.numbered i live n hlive hrow'
        have hlt := (begun_row hbegun horow').1
        omega
    | begun hnew hnext hbegun =>
      cases ticket_origin hrun hother' with
      | @kept other hother hocont _ =>
        rw [hocont.row] at horow'
        have hle := hs.numbered j other n hother horow'
        have hlt := (begun_row hbegun hrow').1
        omega
      | begun hnew' _ _ => rw [hnew, hnew']
  · intro i live' n hlive' hrow'
    cases ticket_origin hrun hlive' with
    | @kept live hlive hcont _ =>
      rw [hcont.row] at hrow'
      exact (hs.numbered i live n hlive hrow').trans (step_last hrun)
    | begun hnew hnext hbegun => exact (begun_row hbegun hrow').2

theorem guard_moves {guard : DedupGuard} {settlement : Settlement} {answer : DedupAnswer}
    {limits : DedupStoreLimits} {db db' : Database} {key : DedupKey}
    (h : CallRun limits db (guard.request settlement) answer db')
    (hkey : db'.webhookDedup.find key ≠ db.webhookDedup.find key) : key = guard.key := by
  by_contra hne
  rcases others_kept (call_moves h key) (guard_names guard settlement) hne with
    hsame | ⟨_, _, hreq, _⟩
  · exact hkey hsame
  · cases settlement <;> cases hreq

theorem Owning.changesOwnRow (hs : Owning s) : ChangesOwnRow host s action := by
  intro i live hticket hlive
  have hown : ∀ key,
      (s.step host action).db.webhookDedup.find key ≠ s.db.webhookDedup.find key →
      ∃ n row, live.row = some n ∧ s.db.webhookDedup.find key = some (n, row) := by
    intro key hkey
    have hrun : StepRun host s action _ _ := step_run s action
    rcases db_change hrun with hdb | ⟨request, limits, answer, hreq, hcall⟩
    · rw [hdb] at hkey
      exact absurd rfl hkey
    cases hreq with
    | claim hclaims => cases hticket
    | administration => cases hticket
    | guard hticket' hlive' hguard hwhy =>
      rw [hticket] at hticket'
      cases hticket'
      rw [hlive] at hlive'
      cases hlive'
      rw [guard_moves hcall hkey]
      obtain ⟨n, row, hrow, hfind, _⟩ := hs.owned i live _ hlive hguard
      exact ⟨n, row, hrow, hfind⟩
  refine ⟨hown, ?_⟩
  intro j other guard hji hother hguard
  by_contra hchanged
  obtain ⟨n, row, hrow, hfind⟩ := hown guard.key hchanged
  obtain ⟨m, row', horow, hofind, _⟩ := hs.owned j other guard hother hguard
  rw [hfind] at hofind
  cases hofind
  exact hji (hs.distinct j i other live n hother hlive horow hrow)

/-- **Claim ownership.**  In every run, however its requests and the administration of the store are
    interleaved: as long as no operator decides about an unknown record whose guard is armed, every
    transition of a guard changes only the row its own claim inserted and leaves the rows of all others
    alone. -/
theorem claim_ownership (host : Host ε χ ω) {s : System χ ω} (hidle : Idle s)
    (actions : List (Action ε)) (h : All (System.step host) Undisturbed s actions) :
    All (System.step host) (ChangesOwnRow host) s actions :=
  h.imp Owning (fun _ _ hs hc => hs.step hc) (fun _ _ hs _ => hs.changesOwnRow)
    (owning_of_idle hidle)

end

/-! ## A guard that outlived its row -/

theorem zeros_length : (List.replicate 32 (0 : UInt8)).length = 32 := List.length_replicate

def digest (hex : String) : HmacSignature :=
  (HmacSignature.fromHex (Encoding.ascii hex)).getD ⟨List.replicate 32 0, zeros_length⟩

/-- SHA-256 and HMAC-SHA-256 under the key `secret`, on the messages of the sample requests. -/
def sampleCrypto : Crypto where
  sha256 message :=
    (if message = Encoding.ascii "\x7b\x7d" then
      digest "44136fa355b3678a1146ad16f7e8649e94fb4fc21fe77e8310c060f61caaff8a"
    else if message = Encoding.ascii "delivery-1" then
      digest "0b220df1969115139ffebb337981298d243a44f84dad5d20d7e7da5fdb34de43"
    else digest "c74f3008fdd2f7c5ae5446ab2e522629f63346f68a4026b4f72b91b393475ff6").bytes
  sha256_length _ := HmacSignature.length_eq _
  hmacSha256 _ message :=
    (if message = Encoding.ascii "\x7b\x7d" then
      digest "77325902caca812dc259733aacd046b73817372c777b8d95b402647474516e13"
    else if message = Encoding.ascii "1.\x7b\x7d" then
      digest "1122767b193110cfec322b6f199b599edbf608ed087f2d27afb0b97d99523908"
    else if message = Encoding.ascii "2.\x7b\x7d" then
      digest "f22d1ec8af589711cd384ec8d9c0de1f6b612833cc985dd3bf1d170d89689a28"
    else digest "e99e637b97b92984435cb3650f286328dcf798bd7e5d9d3451be9fa72cb225d5").bytes
  hmacSha256_length _ _ := HmacSignature.length_eq _

def sampleSecrets : SecretAnswer :=
  .ok ⟨⟨Encoding.ascii "secret", by decide, by decide⟩, none⟩

/-- The capability `deploy`, with any input. -/
def sampleRegistry : CapabilityRegistry :=
  ⟨[⟨⟨['d', 'e', 'p', 'l', 'o', 'y'], by decide⟩, .mutating, fun _ => true⟩], by decide⟩

def sampleHost : Host DispatchWorld InvocationContext DispatchEvent where
  crypto := sampleCrypto
  parseJson body := if body = Encoding.ascii "\x7b\x7d" then some (.object []) else none
  store := .standard
  service := dispatcher sampleRegistry

theorem webhook_valid :
    validate ['w', 'e', 'b', 'h', 'o', 'o', 'k'] IdentifierKind.route.maximum = .ok () := by
  decide

theorem invocation_valid : validate ['a'] IdentifierKind.invocation.maximum = .ok () := by
  decide

theorem gitHub_required : WebhookVerifier.gitHub.identityGuarantee = .required := rfl

/-- A non-idempotent route to `deploy`. -/
def sampleRoute (verifier : WebhookVerifier) (h : verifier.identityGuarantee = .required) : WebhookRoute where
  configuration := {
    id := ⟨['w', 'e', 'b', 'h', 'o', 'o', 'k'], webhook_valid⟩
    principal := ⟨⟨['c', 'i'], by decide⟩⟩
    capability := ⟨['d', 'e', 'p', 'l', 'o', 'y'], by decide⟩
    semantics := .nonIdempotentMutation
    mapping := .jsonBody
    successStatus := 204
    limits := .standard
    successStatus_mem := by decide }
  verifier := verifier
  selectedHeaders := verifier.selectedHeaders ++ ["content-type"]
  identity_required _ := h

def gitHubRequest : VerificationRequest where
  method := "POST"
  target := "/hook"
  headers := [("x-hub-signature-256", Encoding.ascii
      "sha256=77325902caca812dc259733aacd046b73817372c777b8d95b402647474516e13"),
    ("content-type", Encoding.ascii "application/json")]
  body := Encoding.ascii "\x7b\x7d"

def gitHubKey : DedupKey :=
  ⟨⟨['w', 'e', 'b', 'h', 'o', 'o', 'k'], webhook_valid⟩, gitHubHmacNamespace,
    ⟨sampleCrypto.sha256 (sampleCrypto.sha256 gitHubRequest.body), sampleCrypto.sha256_length _⟩⟩

def sampleSystem : System InvocationContext DispatchEvent := ⟨migrated, .standard, 0, 0, ∅⟩

/-- Everything is granted and recorded, and the handler answers. -/
def willingWorld : DispatchWorld := ⟨fun _ _ _ => .allow, fun _ => true, some (.ok .null)⟩

/-- The first request is dispatched while recovery and `RetryAllowed` remove its record and a second
    delivery of the key is claimed; then the first one settles. -/
def staleGuardRun : List (Action DispatchWorld) :=
  [.begin (sampleRoute .gitHub rfl) gitHubRequest ⟨1000, 0⟩ sampleSecrets [],
    .identify 0 (some ⟨['a'], by decide⟩) [],
    .poll 0 willingWorld,
    .administer (.recoverInFlight 2000) .standard [],
    .administer (.resolveUnknown gitHubKey .retryAllowed 3000) .standard [],
    .begin (sampleRoute .gitHub rfl) gitHubRequest ⟨4000, 0⟩ sampleSecrets [],
    .poll 0 willingWorld]

theorem idle_sampleSystem : Idle sampleSystem := fun i => BTreeMap.find_empty i

/-- **A stale guard completes a newer claim.**  The first request's row is number 1 and is gone; what
    it completes is row 2, which the second request has claimed and not even dispatched. -/
theorem stale_guard_completes_newer_claim : Idle sampleSystem ∧
      ¬ All (System.step sampleHost) (ChangesOwnRow sampleHost) sampleSystem
        (staleGuardRun ++ [.settle 0 []]) := by
  refine ⟨idle_sampleSystem, fun hall => ?_⟩
  have hlast := (All.append.mp hall).2.1
  have hrow : ((run (System.step sampleHost) sampleSystem staleGuardRun).live[0]?).map
      (fun live => live.row) = some (some 1) := by decide +kernel
  have hfind : ((run (System.step sampleHost) sampleSystem staleGuardRun).db.webhookDedup.find
      gitHubKey).map Prod.fst = some 2 := by decide +kernel
  have hchange : ((run (System.step sampleHost) sampleSystem staleGuardRun).step sampleHost
      (.settle 0 [])).db.webhookDedup.find gitHubKey ≠
      (run (System.step sampleHost) sampleSystem staleGuardRun).db.webhookDedup.find gitHubKey := by
    decide +kernel
  obtain ⟨live, hlive, hlrow⟩ := Option.map_eq_some_iff.mp hrow
  obtain ⟨n, row, hn, hr⟩ := (hlast 0 live rfl hlive).1 gitHubKey hchange
  rw [hlrow] at hn
  rw [hr] at hfind
  cases hn
  cases hfind

theorem undisturbed_of_decides {s : System InvocationContext DispatchEvent}
    {actions : List (Action DispatchWorld)}
    (h : All (System.step sampleHost) (fun _ action => action.decides = none) s actions) :
    All (System.step sampleHost) Undisturbed s actions :=
  h.imp (fun _ => True) (fun _ _ _ _ => trivial)
    (fun s action _ hnone i live guard n row _ _ _ _ => by rw [Unresolved, hnone]; exact fun hno => by cases hno) trivial

theorem other_valid : validate ['o', 't', 'h', 'e', 'r'] IdentifierKind.route.maximum = .ok () := by
  decide

/-- A route of another name, so that the same delivery has another key there. -/
def otherRoute : WebhookRoute :=
  let route := sampleRoute .gitHub gitHub_required
  { route with configuration := { route.configuration with id := ⟨['o', 't', 'h', 'e', 'r'], other_valid⟩ } }

/-- The key of the delivery on the other route. -/
def otherKey : DedupKey := { gitHubKey with route := otherRoute.configuration.id }

/-- Two deliveries are dispatched when recovery makes both records unknown; the first is dropped. -/
def recoveredRun : List (Action DispatchWorld) :=
  [.begin (sampleRoute .gitHub gitHub_required) gitHubRequest ⟨1000, 0⟩ sampleSecrets [],
    .identify 0 (some ⟨['a'], invocation_valid⟩) [],
    .poll 0 willingWorld,
    .begin otherRoute gitHubRequest ⟨1000, 0⟩ sampleSecrets [],
    .identify 1 (some ⟨['a'], invocation_valid⟩) [],
    .poll 1 willingWorld,
    .administer (.recoverInFlight 2000) .standard [],
    .drop 0 []]

/-- The first delivery comes again while the second one still runs; both settle. -/
def repeatedRun : List (Action DispatchWorld) :=
  [.begin (sampleRoute .gitHub gitHub_required) gitHubRequest ⟨4000, 0⟩ sampleSecrets [],
    .identify 2 (some ⟨['a'], invocation_valid⟩) [],
    .poll 2 willingWorld,
    .poll 1 willingWorld,
    .settle 1 [],
    .drop 1 [],
    .poll 2 willingWorld,
    .settle 2 []]

/-- The operator allows a retry of the first delivery. -/
def allowRetry : Action DispatchWorld :=
  .administer (.resolveUnknown gitHubKey .retryAllowed 3000) .standard []

/-- A retry is allowed while another delivery runs: each guard keeps to its own row.  The second delivery
    does not get past its unknown row 2, the repetition completes its own row 3. -/
theorem claim_ownership_overlapping : All (System.step sampleHost) (ChangesOwnRow sampleHost) sampleSystem
        (recoveredRun ++ allowRetry :: repeatedRun) ∧
      let db := (run (System.step sampleHost) sampleSystem (recoveredRun ++ allowRetry :: repeatedRun)).db
      (db.webhookDedup.find gitHubKey).map (fun e => (e.1, e.2.state)) = some (3, .completed) ∧
      (db.webhookDedup.find otherKey).map (fun e => (e.1, e.2.state)) = some (2, .unknown) := by
  refine ⟨claim_ownership sampleHost idle_sampleSystem _ (All.append.mpr ⟨?_, ?_, ?_⟩), by decide +kernel,
    by decide +kernel⟩
  · exact undisturbed_of_decides (by decide)
  · -- the only guard that is armed then has the other key
    have hguards : ((run (System.step sampleHost) sampleSystem recoveredRun).live.toList.all fun e =>
        e.2.guard.all fun guard => guard.key ≠ gitHubKey) = true := by decide +kernel
    intro i live guard n row hlive hguard _ _ heq
    have hkey := List.all_eq_true.mp hguards (i, live) ((BTreeMap.mem_toList _ _ _).mpr hlive)
    rw [hguard] at hkey
    exact of_decide_eq_true hkey (Option.some.inj heq).symm
  · exact undisturbed_of_decides (by decide)

end Bondry.Webhook
