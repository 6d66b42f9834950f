/-
  THE SYSTEM OF REQUESTS (`bondry-webhook-ingress`, `route.rs`: `begin`, `complete`, `DedupGuard`).

  Any number of requests share one deduplication store.  Each is a `Live` entry that moves through

      claim ─▶ identifying ─▶ created ─▶ awaiting ─▶ returned ─▶ (settled)
                                                         └─▶ closing ─▶ (dropped)

  and an ACTION advances one of them by one uninterruptible piece, so every interleaving of the calls
  of any number of threads is a list of actions.  An action makes AT MOST ONE store call (`storeCall`),
  with its own storage failures.  A request may be dropped in every phase; dropping an armed guard
  makes its last store call, `mark_unknown`.  Administration of the store (recovery, resolution,
  clearing) is interleaved freely.

  A guard whose transition was stored is disarmed and does nothing more, so the entry is removed
  there.  Two things are kept only for the statements: `row`, the number of the row the entry's own
  claim inserted, and `events`, what the service let be observed.
-/
import Bondry.Lib.Run
import Bondry.Store.RecordMachine
import Bondry.Webhook.Route

namespace Bondry.Webhook

open Sql Store

/-! ## State -/

/-- `DedupGuard`, armed: the key it claimed and the time of the claim. -/
structure DedupGuard where
  key : DedupKey
  updatedAtUnixMs : Nat
  deriving DecidableEq

/-- Where a request is. -/
inductive Phase (χ : Type) where
  /-- Inside `begin`: claimed, without an invocation identifier yet. -/
  | identifying (input : Json)
  /-- A `WebhookDispatch` that was never polled. -/
  | created (invocation : Invocation)
  /-- `service.dispatch` was reached and waits. -/
  | awaiting (state : χ)
  /-- The dispatch has a result that is not settled yet. -/
  | returned (result : Except DispatchError Json)
  /-- A transition failed: the response is fixed and the armed guard is about to be dropped. -/
  | closing (response : WebhookIngressResponse)

/-- A request that was admitted and is not over. -/
structure Live (χ ω : Type) where
  route : WebhookRoute
  request : VerificationRequest
  guard : Option DedupGuard
  row : Option Nat
  phase : Phase χ
  events : List ω

/-- The ingress with its store and its requests. -/
structure System (χ ω : Type) where
  db : Database
  limiter : AuthenticatedRequestLimiter
  /-- The latest time handed to `begin`, `resolve_unknown` or `recover_in_flight`. -/
  clock : Nat
  next : Nat
  live : BTreeMap Nat (Live χ ω)

/-- What all requests share and never changes. -/
structure Host (ε χ ω : Type) where
  crypto : Crypto
  parseJson : Bytes → Option Json
  store : DedupStoreLimits
  service : Service ε χ ω

/-! ## Actions -/

/-- What an operator does to the store. -/
inductive Administration where
  | recoverInFlight (now : Nat)
  | resolveUnknown (key : DedupKey) (resolution : DedupResolution) (now : Nat)
  | clearCompletedBefore (cutoff : Nat)
  deriving DecidableEq

def Administration.request : Administration → DedupRequest
  | .recoverInFlight now => .recoverInFlight now
  | .resolveUnknown key resolution now => .resolveUnknown key resolution now
  | .clearCompletedBefore cutoff => .clearCompletedBefore cutoff

/-- The time an administration passes on as the present. -/
def Administration.time : Administration → Option Nat
  | .recoverInFlight now | .resolveUnknown _ _ now => some now
  | .clearCompletedBefore _ => none

/-- One piece of one thread's work, with what the outside decides during it. -/
inductive Action (ε : Type) where
  | begin (route : WebhookRoute) (request : VerificationRequest) (now : WebhookIngressTime)
      (secrets : SecretAnswer) (faults : List Bool)
  | identify (i : Nat) (id : Option InvocationId) (faults : List Bool)
  | poll (i : Nat) (world : ε)
  | settle (i : Nat) (faults : List Bool)
  | drop (i : Nat) (faults : List Bool)
  | administer (work : Administration) (limits : DedupStoreLimits) (faults : List Bool)

/-- The request an action belongs to, once it has been claimed. -/
def Action.ticket {ε : Type} : Action ε → Option Nat
  | .identify i _ _ | .poll i _ | .settle i _ | .drop i _ => some i
  | .begin _ _ _ _ _ | .administer _ _ _ => none

/-- The time an action hands to `begin`, `resolve_unknown` or `recover_in_flight`. -/
def Action.time {ε : Type} : Action ε → Option Nat
  | .begin _ _ now _ _ => some now.unixMilliseconds
  | .administer work _ _ => work.time
  | .identify _ _ _ | .poll _ _ | .settle _ _ | .drop _ _ => none

def DedupGuard.request (guard : DedupGuard) : Settlement → DedupRequest
  | .complete => .complete guard.key guard.updatedAtUnixMs
  | .markUnknown => .markUnknown guard.key guard.updatedAtUnixMs
  | .release => .releaseClaim guard.key

theorem guard_names (guard : DedupGuard) (settlement : Settlement) :
    (guard.request settlement).names = some guard.key := by
  cases settlement <;> rfl

section

variable {ε χ ω : Type} (host : Host ε χ ω)

def DedupGuard.call (guard : DedupGuard) (settlement : Settlement) (faults : List Bool) : DedupCall :=
  ⟨guard.request settlement, host.store, faults⟩

def stored : DedupAnswer → Bool
  | .change (.ok ()) => true
  | _ => false

/-! ## Steps -/

/-- A request arrives: it takes the next number, and its clock reading is noted. -/
def System.arrive (s : System χ ω) (limiter : AuthenticatedRequestLimiter) (now : Nat) : System χ ω :=
  { s with limiter := limiter, clock := max s.clock now, next := s.next + 1 }

def System.remove (s : System χ ω) (i : Nat) : System χ ω := { s with live := s.live.erase i }

def System.put (s : System χ ω) (i : Nat) (live : Live χ ω) : System χ ω :=
  { s with live := s.live.insert i live }

/-- `begin` up to and with the claim.  The new request gets the next number. -/
def System.begin (s : System χ ω) (route : WebhookRoute) (request : VerificationRequest)
    (now : WebhookIngressTime) (secrets : SecretAnswer) (faults : List Bool) :
    System χ ω × Option WebhookIngressResponse :=
  let (prepared, limiter) := route.prepare host.crypto host.parseJson request now secrets s.limiter
  let i := s.next
  let s := s.arrive limiter now.unixMilliseconds
  match prepared with
  | .error response => (s, some response)
  | .ok ⟨none, input⟩ => (s.put i ⟨route, request, none, none, .identifying input, []⟩, none)
  | .ok ⟨some (key, policy), input⟩ =>
    let (answer, db) := (claim host.store key policy now.unixMilliseconds).run faults s.db
    match route.claimed answer with
    | .error response => ({ s with db := db }, some response)
    | .ok () =>
      let own := (db.webhookDedup.find key).map Prod.fst
      ({ s with db := db }.put i
        ⟨route, request, some ⟨key, now.unixMilliseconds⟩, own, .identifying input, []⟩, none)

/-- The end of a request whose guard has to store a transition first: with the transition stored it is
    over, otherwise the guard stays armed until it is dropped. -/
def System.close (s : System χ ω) (i : Nat) (live : Live χ ω) (settlement : Settlement)
    (faults : List Bool) (response : WebhookIngressResponse) : System χ ω × Option WebhookIngressResponse :=
  match live.guard with
  | none => (s.remove i, some response)
  | some guard =>
    let (answer, db) := (guard.call host settlement faults).perform s.db
    let s := { s with db := db }
    if stored answer then (s.remove i, some response)
    else (s.put i { live with phase := .closing (retryable "dedup_store_unavailable") }, none)

/-- `begin` from the claim on: an identifier makes the dispatch, without one the claim is released. -/
def System.identify (s : System χ ω) (i : Nat) (live : Live χ ω) (input : Json)
    (id : Option InvocationId) (faults : List Bool) : System χ ω × Option WebhookIngressResponse :=
  match id with
  | some id =>
    let configuration := live.route.configuration
    let invocation : Invocation :=
      ⟨id, webhookAdapter, configuration.principal, configuration.capability, input⟩
    (s.put i { live with phase := .created invocation }, none)
  | none => s.close host i live .release faults (retryable "identifier_generation_unavailable")

/-- A segment of the service's dispatch. -/
def System.observe (s : System χ ω) (i : Nat) (live : Live χ ω) (segment : List ω × Poll χ) : System χ ω :=
  s.put i { live with
    events := live.events ++ segment.1
    phase := match segment.2 with
      | .ready result => .returned result
      | .pending state => .awaiting state }

/-- `DedupGuard::drop`, and what the caller sees of the end. -/
def System.discard (s : System χ ω) (i : Nat) (live : Live χ ω) (faults : List Bool) :
    System χ ω × Option WebhookIngressResponse :=
  let db := match live.guard with
    | none => s.db
    | some guard => ((guard.call host .markUnknown faults).perform s.db).2
  let response := match live.phase with
    | .closing response => some response
    | _ => none
  ({ s with db := db }.remove i, response)

/-- One action, and the response it returns to a caller. -/
def System.act (s : System χ ω) (action : Action ε) : System χ ω × Option WebhookIngressResponse :=
  match action with
  | .begin route request now secrets faults => s.begin host route request now secrets faults
  | .identify i id faults =>
    match s.live[i]? with
    | some live =>
      match live.phase with
      | .identifying input => s.identify host i live input id faults
      | _ => (s, none)
    | none => (s, none)
  | .poll i world =>
    match s.live[i]? with
    | some live =>
      match live.phase with
      | .created invocation => (s.observe i live (host.service.start world invocation), none)
      | .awaiting state => (s.observe i live (host.service.resume world state), none)
      | _ => (s, none)
    | none => (s, none)
  | .settle i faults =>
    match s.live[i]? with
    | some live =>
      match live.phase with
      | .returned result =>
        s.close host i live (settlement result) faults (live.route.settled result)
      | _ => (s, none)
    | none => (s, none)
  | .drop i faults =>
    match s.live[i]? with
    | some live => s.discard host i live faults
    | none => (s, none)
  | .administer work limits faults =>
    ({ s with
        db := (DedupCall.perform ⟨work.request, limits, faults⟩ s.db).2
        clock := work.time.elim s.clock (max s.clock) }, none)

def System.step (s : System χ ω) (action : Action ε) : System χ ω := (s.act host action).1

def System.response (s : System χ ω) (action : Action ε) : Option WebhookIngressResponse :=
  (s.act host action).2

/-! ## Everything an action can do -/

/-- The transition an action asks the request's guard for, and the response that goes with it. -/
inductive Asks (live : Live χ ω) (i : Nat) :
    Action ε → Settlement → WebhookIngressResponse → Prop
  | identify {input faults} (hphase : live.phase = .identifying input) :
      Asks live i (.identify i none faults) .release (retryable "identifier_generation_unavailable")
  | settle {result faults} (hphase : live.phase = .returned result) :
      Asks live i (.settle i faults) (settlement result) (live.route.settled result)

/-- The segment of the service an action runs. -/
inductive Segment (live : Live χ ω) (i : Nat) (world : ε) : List ω × Poll χ → Prop
  | start {invocation} (hphase : live.phase = .created invocation) :
      Segment live i world (host.service.start world invocation)
  | resume {state} (hphase : live.phase = .awaiting state) :
      Segment live i world (host.service.resume world state)

/-- What a caller sees when a request is dropped. -/
def Phase.lastWord : Phase χ → Option WebhookIngressResponse
  | .closing response => some response
  | _ => none

/-- One constructor for each end of an action. -/
inductive StepRun (s : System χ ω) :
    Action ε → System χ ω → Option WebhookIngressResponse → Prop
  | idle {action i} (hticket : action.ticket = some i) : StepRun s action s none
  | refused {route request now secrets faults limiter response}
      (hprep : route.prepare host.crypto host.parseJson request now secrets s.limiter =
        (.error response, limiter)) :
      StepRun s (.begin route request now secrets faults)
        (s.arrive limiter now.unixMilliseconds) (some response)
  | anonymous {route request now secrets faults limiter input}
      (hprep : route.prepare host.crypto host.parseJson request now secrets s.limiter =
        (.ok ⟨none, input⟩, limiter)) :
      StepRun s (.begin route request now secrets faults)
        ((s.arrive limiter now.unixMilliseconds).put s.next
          ⟨route, request, none, none, .identifying input, []⟩) none
  | turnedAway {route request now secrets faults limiter key policy input answer db response}
      (hprep : route.prepare host.crypto host.parseJson request now secrets s.limiter =
        (.ok ⟨some (key, policy), input⟩, limiter))
      (hcall : CallRun host.store s.db (.claim key policy now.unixMilliseconds) (.claim answer) db)
      (hanswer : route.claimed answer = .error response) :
      StepRun s (.begin route request now secrets faults)
        { s.arrive limiter now.unixMilliseconds with db := db } (some response)
  | claimed {route request now secrets faults limiter key policy input db n}
      (hprep : route.prepare host.crypto host.parseJson request now secrets s.limiter =
        (.ok ⟨some (key, policy), input⟩, limiter))
      (hcall : CallRun host.store s.db (.claim key policy now.unixMilliseconds)
        (.claim (.ok .claimed)) db)
      (hown : db.webhookDedup.find key =
        some (n, claimedRow key policy now.unixMilliseconds (charge key))) :
      StepRun s (.begin route request now secrets faults)
        ({ s.arrive limiter now.unixMilliseconds with db := db }.put s.next
          ⟨route, request, some ⟨key, now.unixMilliseconds⟩, some n, .identifying input, []⟩) none
  | identified {i live input id faults} (hlive : s.live[i]? = some live)
      (hphase : live.phase = .identifying input) :
      StepRun s (.identify i (some id) faults)
        (s.put i { live with
          phase := .created ⟨id, webhookAdapter, live.route.configuration.principal,
            live.route.configuration.capability, input⟩ }) none
  | observed {i live world segment} (hlive : s.live[i]? = some live)
      (hsegment : Segment host live i world segment) :
      StepRun s (.poll i world) (s.observe i live segment) none
  | finished {i live action settlement response} (hlive : s.live[i]? = some live)
      (hasks : Asks live i action settlement response) (hguard : live.guard = none) :
      StepRun s action (s.remove i) (some response)
  | settled {i live action settlement response guard db} (hlive : s.live[i]? = some live)
      (hasks : Asks live i action settlement response) (hguard : live.guard = some guard)
      (hcall : CallRun host.store s.db (guard.request settlement) (.change (.ok ())) db) :
      StepRun s action ({ s with db := db }.remove i) (some response)
  | unsettled {i live action settlement response guard} (hlive : s.live[i]? = some live)
      (hasks : Asks live i action settlement response) (hguard : live.guard = some guard) :
      StepRun s action
        (s.put i { live with phase := .closing (retryable "dedup_store_unavailable") }) none
  | released {i live faults} (hlive : s.live[i]? = some live) (hguard : live.guard = none) :
      StepRun s (.drop i faults) (s.remove i) live.phase.lastWord
  | dropped {i live faults guard answer db} (hlive : s.live[i]? = some live)
      (hguard : live.guard = some guard)
      (hcall : CallRun host.store s.db (guard.request .markUnknown) answer db) :
      StepRun s (.drop i faults) ({ s with db := db }.remove i) live.phase.lastWord
  | administered {work limits faults answer db}
      (hcall : CallRun limits s.db work.request answer db) :
      StepRun s (.administer work limits faults)
        { s with db := db, clock := work.time.elim s.clock (max s.clock) } none

variable {host}

variable {settlement : Settlement}

/-- A guard's transition is answered with `ok`, or leaves the database alone. -/
theorem guard_answer {guard : DedupGuard} {answer : DedupAnswer} {db db' : Database}
    (h : CallRun host.store db (guard.request settlement) answer db') :
    answer = .change (.ok ()) ∨ (stored answer = false ∧ db' = db) := by
  have hrequires : (guard.request settlement).requires = some (guard.key, .inFlight) := by
    cases settlement <;> rfl
  have hchange : ∃ r, answer = .change r := by
    cases settlement <;> cases h <;> exact ⟨_, rfl⟩
  obtain ⟨r, rfl⟩ := hchange
  cases r with
  | ok u => exact .inl rfl
  | error e => exact .inr ⟨rfl, (call_refusal h hrequires).kept e rfl⟩

variable {s : System χ ω} {action : Action ε}

theorem close_run {i : Nat} {live : Live χ ω} {faults : List Bool}
    {response : WebhookIngressResponse} (hlive : s.live[i]? = some live)
    (hasks : Asks live i action settlement response) :
    StepRun host s action (s.close host i live settlement faults response).1
      (s.close host i live settlement faults response).2 := by
  unfold System.close
  split
  · next hguard => exact .finished hlive hasks hguard
  · next guard hguard =>
    have hcall : CallRun host.store s.db (guard.request settlement) _ _ :=
      perform_run (guard.call host settlement faults) s.db
    dsimp only
    split
    · next hstored =>
      rcases guard_answer hcall with hok | ⟨hno, _⟩
      · rw [hok] at hcall
        exact .settled hlive hasks hguard hcall
      · rw [hno] at hstored
        cases hstored
    · next hstored =>
      rcases guard_answer hcall with hok | ⟨_, hdb⟩
      · rw [hok] at hstored
        exact absurd rfl hstored
      · rw [hdb]
        exact .unsettled hlive hasks hguard

theorem begin_run {route : WebhookRoute} {request : VerificationRequest} {now : WebhookIngressTime}
    {secrets : SecretAnswer} {faults : List Bool} : StepRun host s (.begin route request now secrets faults)
      (s.begin host route request now secrets faults).1
      (s.begin host route request now secrets faults).2 := by
  unfold System.begin
  rcases hprep : route.prepare host.crypto host.parseJson request now secrets s.limiter
    with ⟨prepared, limiter⟩
  cases prepared with
  | error response => exact .refused hprep
  | ok prepared =>
    obtain ⟨claim?, input⟩ := prepared
    cases claim? with
    | none => exact .anonymous hprep
    | some entry =>
      obtain ⟨key, policy⟩ := entry
      have hcall : CallRun host.store s.db (.claim key policy now.unixMilliseconds) _ _ :=
        perform_run ⟨.claim key policy now.unixMilliseconds, host.store, faults⟩ s.db
      simp only [DedupCall.perform] at hcall
      have harrive : (s.arrive limiter now.unixMilliseconds).db = s.db := rfl
      dsimp only
      rw [harrive]
      cases hanswer : route.claimed
        ((claim host.store key policy now.unixMilliseconds).run faults s.db).1 with
      | error response => exact .turnedAway hprep hcall hanswer
      | ok u =>
        have hok : ((claim host.store key policy now.unixMilliseconds).run faults s.db).1 =
            .ok .claimed := by
          unfold WebhookRoute.claimed at hanswer
          split at hanswer <;> first | assumption | cases hanswer
        rw [hok] at hcall
        obtain ⟨n, hown⟩ := claimed_row hcall
        simp only [hown, Option.map_some]
        exact .claimed hprep hcall hown

/-- **An action ends in one of the ways listed.** -/
theorem step_run (s : System χ ω) (action : Action ε) :
    StepRun host s action (s.step host action) (s.response host action) := by
  unfold System.step System.response System.act
  cases action with
  | begin route request now secrets faults => exact begin_run
  | identify i id faults =>
    dsimp only
    split
    · next live hlive =>
      split
      · next input hphase =>
        cases id with
        | some id => exact .identified hlive hphase
        | none => exact close_run hlive (.identify hphase)
      · exact .idle rfl
    · exact .idle rfl
  | poll i world =>
    dsimp only
    split
    · next live hlive =>
      split
      · next invocation hphase => exact .observed hlive (.start hphase)
      · next state hphase => exact .observed hlive (.resume hphase)
      · exact .idle rfl
    · exact .idle rfl
  | settle i faults =>
    dsimp only
    split
    · next live hlive =>
      split
      · next result hphase => exact close_run hlive (.settle hphase)
      · exact .idle rfl
    · exact .idle rfl
  | drop i faults =>
    dsimp only
    split
    · next live hlive =>
      unfold System.discard
      cases hguard : live.guard with
      | none =>
        exact .released hlive hguard
      | some guard =>
        have hcall : CallRun host.store s.db (guard.request .markUnknown) _ _ :=
          perform_run (guard.call host .markUnknown faults) s.db
        exact .dropped hlive hguard hcall
    · exact .idle rfl
  | administer work limits faults =>
    exact .administered (perform_run ⟨work.request, limits, faults⟩ s.db)

/-! ## Reading the steps -/

/-- How far a request has come. -/
def Phase.rank : Phase χ → Nat
  | .identifying _ => 0
  | .created _ => 1
  | .awaiting _ => 2
  | .returned _ => 3
  | .closing _ => 4

/-- A request before and after a step: it never changes its claim and never goes back. -/
structure Live.Continues (live live' : Live χ ω) : Prop where
  route : live'.route = live.route
  request : live'.request = live.request
  guard : live'.guard = live.guard
  row : live'.row = live.row
  rank : live.phase.rank ≤ live'.phase.rank

theorem Live.Continues.refl (live : Live χ ω) : live.Continues live :=
  ⟨rfl, rfl, rfl, rfl, le_rfl⟩

variable (host) in
/-- A request that a step has just begun. -/
inductive Begun (s s' : System χ ω) : Action ε → Live χ ω → Prop
  | anonymous {route request now secrets faults input}
      (hident : route.verifier.identityGuarantee ≠ .required) :
      Begun s s' (.begin route request now secrets faults)
        ⟨route, request, none, none, .identifying input, []⟩
  | claimed {route request now secrets faults key policy input n}
      (hclaims : Claims host.crypto route request now.unixMilliseconds key policy)
      (hcall : CallRun host.store s.db (.claim key policy now.unixMilliseconds)
        (.claim (.ok .claimed)) s'.db)
      (hown : s'.db.webhookDedup.find key =
        some (n, claimedRow key policy now.unixMilliseconds (charge key))) :
      Begun s s' (.begin route request now secrets faults)
        ⟨route, request, some ⟨key, now.unixMilliseconds⟩, some n, .identifying input, []⟩

theorem Asks.ticket_eq {live : Live χ ω} {i : Nat} {response : WebhookIngressResponse}
    (h : Asks live i action settlement response) : action.ticket = some i := by
  cases h <;> rfl

variable (host) in
/-- Where a request comes from: it was there and continues, or this step began it.  A request that
    outlives its own step has changed nothing in the store. -/
inductive Origin (s s' : System χ ω) (action : Action ε) (j : Nat) (live' : Live χ ω) : Prop
  | kept {live} (hlive : s.live[j]? = some live) (hcont : live.Continues live')
      (hdb : action.ticket = some j → s'.db = s.db)
  | begun (hnew : j = s.next) (hnext : s'.next = s.next + 1) (h : Begun host s s' action live')

variable {s' : System χ ω} {response : Option WebhookIngressResponse}

/-- **Every request has an origin.** -/
theorem ticket_origin (h : StepRun host s action s' response) {j : Nat} {live' : Live χ ω}
    (hj : s'.live[j]? = some live') : Origin host s s' action j live' := by
  -- the shapes of the new table: unchanged, one entry replaced, erased or added
  have hsame : s'.live = s.live → (∀ i, action.ticket = some i → s'.db = s.db) →
      Origin host s s' action j live' :=
    fun hl hdb => .kept (hl ▸ hj) (.refl live') (hdb j)
  have hput : ∀ i (live : Live χ ω) new, s.live[i]? = some live → action.ticket = some i →
      s'.live = s.live.insert i new → live.Continues new → s'.db = s.db →
      Origin host s s' action j live' := by
    intro i live new hlive ht hl hc hdb
    rw [hl, BTreeMap.find_insert] at hj
    split at hj
    · next hij =>
      cases hj
      exact .kept (hij ▸ hlive) hc fun _ => hdb
    · exact .kept hj (.refl live') fun _ => hdb
  have herase : ∀ i, action.ticket = some i → s'.live = s.live.erase i →
      Origin host s s' action j live' := by
    intro i ht hl
    rw [hl, BTreeMap.find_erase] at hj
    split at hj
    · cases hj
    · next hne =>
      refine .kept hj (.refl live') fun htj => ?_
      rw [ht] at htj
      cases htj
      exact absurd rfl hne
  have hadd : ∀ new, s'.live = s.live.insert s.next new → s'.next = s.next + 1 →
      action.ticket = none → Begun host s s' action new → Origin host s s' action j live' := by
    intro new hl hn ht hb
    rw [hl, BTreeMap.find_insert] at hj
    split at hj
    · next hij =>
      cases hj
      exact .begun hij.symm hn hb
    · exact .kept hj (.refl live') fun htj => by rw [ht] at htj; cases htj
  cases h with
  | idle ht => exact hsame rfl fun _ _ => rfl
  | refused hprep => exact hsame rfl fun _ _ => rfl
  | anonymous hprep =>
    exact hadd _ rfl rfl rfl (.anonymous fun hreq => prepare_identified hreq (by rw [hprep]))
  | turnedAway hprep hcall hanswer => exact hsame rfl fun i ht => by cases ht
  | claimed hprep hcall hown =>
    exact hadd _ rfl rfl rfl (.claimed (prepare_claims (by rw [hprep])) hcall hown)
  | identified hlive hphase =>
    exact hput _ _ _ hlive rfl rfl ⟨rfl, rfl, rfl, rfl, by simp [hphase, Phase.rank]⟩ rfl
  | observed hlive hsegment =>
    refine hput _ _ _ hlive rfl rfl ⟨rfl, rfl, rfl, rfl, ?_⟩ rfl
    cases hsegment with
    | start hphase => rw [hphase]; dsimp only; split <;> simp [Phase.rank]
    | resume hphase => rw [hphase]; dsimp only; split <;> simp [Phase.rank]
  | finished hlive hasks hguard => exact herase _ hasks.ticket_eq rfl
  | settled hlive hasks hguard hcall => exact herase _ hasks.ticket_eq rfl
  | unsettled hlive hasks hguard =>
    refine hput _ _ _ hlive hasks.ticket_eq rfl ⟨rfl, rfl, rfl, rfl, ?_⟩ rfl
    cases hasks with
    | identify hphase => simp [hphase, Phase.rank]
    | settle hphase => simp [hphase, Phase.rank]
  | released hlive hguard => exact herase _ rfl rfl
  | dropped hlive hguard hcall => exact herase _ rfl rfl
  | administered hcall => exact hsame rfl fun i ht => by cases ht

variable (host) in
/-- The store request an action makes, and the limits it is made under. -/
inductive Requests (s : System χ ω) : Action ε → DedupRequest → DedupStoreLimits → Prop
  | claim {route request now secrets faults key policy}
      (hclaims : Claims host.crypto route request now.unixMilliseconds key policy) :
      Requests s (.begin route request now secrets faults) (.claim key policy now.unixMilliseconds)
        host.store
  | guard {i live guard settlement action} (hticket : action.ticket = some i)
      (hlive : s.live[i]? = some live) (hguard : live.guard = some guard)
      (hwhy : (∃ response, Asks live i action settlement response) ∨ settlement = .markUnknown) :
      Requests s action (guard.request settlement) host.store
  | administration {work limits faults} :
      Requests s (.administer work limits faults) work.request limits

theorem Requests.administered {request : DedupRequest} {limits : DedupStoreLimits}
    (h : Requests host s action request limits) (work : Administration)
    (hrequest : request = work.request) : ∃ faults, action = .administer work limits faults := by
  cases h with
  | claim hclaims => cases work <;> cases hrequest
  | @guard _ _ _ settlement _ _ _ _ _ => cases work <;> cases settlement <;> cases hrequest
  | @administration work' limits faults =>
    refine ⟨faults, ?_⟩
    cases work <;> cases work' <;> cases hrequest <;> rfl

theorem db_change (h : StepRun host s action s' response) : s'.db = s.db ∨ ∃ request limits answer,
      Requests host s action request limits ∧ CallRun limits s.db request answer s'.db := by
  cases h with
  | idle ht => exact .inl rfl
  | refused hprep => exact .inl rfl
  | anonymous hprep => exact .inl rfl
  | turnedAway hprep hcall hanswer =>
    exact .inr ⟨_, _, _, .claim (prepare_claims (by rw [hprep])), hcall⟩
  | claimed hprep hcall hown =>
    exact .inr ⟨_, _, _, .claim (prepare_claims (by rw [hprep])), hcall⟩
  | identified hlive hphase => exact .inl rfl
  | observed hlive hsegment => exact .inl rfl
  | finished hlive hasks hguard => exact .inl rfl
  | settled hlive hasks hguard hcall =>
    exact .inr ⟨_, _, _, .guard hasks.ticket_eq hlive hguard (.inl ⟨_, hasks⟩), hcall⟩
  | unsettled hlive hasks hguard => exact .inl rfl
  | released hlive hguard => exact .inl rfl
  | dropped hlive hguard hcall => exact .inr ⟨_, _, _, .guard rfl hlive hguard (.inr rfl), hcall⟩
  | administered hcall => exact .inr ⟨_, _, _, .administration, hcall⟩

theorem step_forward (h : StepRun host s action s' response) :
    s.clock ≤ s'.clock ∧ s.next ≤ s'.next ∧ ∀ now, action.time = some now → now ≤ s'.clock := by
  cases h with
  | idle ht =>
    refine ⟨le_rfl, le_rfl, fun now hnow => ?_⟩
    cases action <;> cases ht <;> cases hnow
  | refused hprep =>
    exact ⟨Nat.le_max_left _ _, Nat.le_succ _, fun now hnow => by
      cases hnow; exact Nat.le_max_right _ _⟩
  | anonymous hprep =>
    exact ⟨Nat.le_max_left _ _, Nat.le_succ _, fun now hnow => by
      cases hnow; exact Nat.le_max_right _ _⟩
  | turnedAway hprep hcall hanswer =>
    exact ⟨Nat.le_max_left _ _, Nat.le_succ _, fun now hnow => by
      cases hnow; exact Nat.le_max_right _ _⟩
  | claimed hprep hcall hown =>
    exact ⟨Nat.le_max_left _ _, Nat.le_succ _, fun now hnow => by
      cases hnow; exact Nat.le_max_right _ _⟩
  | identified hlive hphase => exact ⟨le_rfl, le_rfl, fun now hnow => by cases hnow⟩
  | observed hlive hsegment => exact ⟨le_rfl, le_rfl, fun now hnow => by cases hnow⟩
  | finished hlive hasks hguard =>
    exact ⟨le_rfl, le_rfl, fun now hnow => by cases hasks <;> cases hnow⟩
  | settled hlive hasks hguard hcall =>
    exact ⟨le_rfl, le_rfl, fun now hnow => by cases hasks <;> cases hnow⟩
  | unsettled hlive hasks hguard =>
    exact ⟨le_rfl, le_rfl, fun now hnow => by cases hasks <;> cases hnow⟩
  | released hlive hguard => exact ⟨le_rfl, le_rfl, fun now hnow => by cases hnow⟩
  | dropped hlive hguard hcall => exact ⟨le_rfl, le_rfl, fun now hnow => by cases hnow⟩
  | @administered work limits faults answer db hcall =>
    refine ⟨?_, le_rfl, fun now hnow => ?_⟩
    · cases work.time with
      | none => simp
      | some time => simp
    · have hwork : work.time = some now := hnow
      simp [hwork]

end

end Bondry.Webhook
