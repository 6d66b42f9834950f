/-
  WHAT A RECORD SAYS ABOUT THE HANDLER (`WebhookDispatch::complete` over the core `Dispatcher`).

  The dispatcher audits twice around the handler, the guard stores one transition and may fail at it,
  and the future may be dropped anywhere.  The end of a request is nevertheless one of three:

  * RELEASED    — the handler was never invoked;
  * COMPLETED   — it was invoked, it returned, and both audit events around it are recorded;
  * UNFINISHED  — everything else; the record stays `in_flight` or becomes `unknown`, and the same
    delivery is not dispatched again unless an operator resolves the record.

  All this is about the record of the request's OWN claim, so it holds as long as guards keep to their own
  rows (`Undisturbed`, as in `claim_ownership`).  `stale_guard_releases_running_claim` shows what happens
  otherwise: a guard whose record was retried away releases the record of a handler that is running.
-/
import Bondry.Webhook.AtMostOnce

namespace Bondry.Webhook

open Sql Store

/-- The host whose service is the core dispatcher. -/
def dispatchHost (crypto : Crypto) (parseJson : Bytes → Option Json) (store : DedupStoreLimits)
    (registry : CapabilityRegistry) : Host DispatchWorld InvocationContext DispatchEvent :=
  ⟨crypto, parseJson, store, dispatcher registry⟩

/-- The handler was invoked and returned, and both audit events around it are recorded. -/
def Accounted (events : List DispatchEvent) : Prop :=
  ∃ answer, events =
    [.audited .started true, .invoked, .returned answer, .audited (finalOutcome answer) true]

/-! ## Phases and trails -/

/-- What was observed of a request, by the phase it is in. -/
def Live.Trailed (live : Live InvocationContext DispatchEvent) : Prop :=
  match live.phase with
  | .identifying _ | .created _ => live.events = []
  | .awaiting context => Trail live.events (.pending context)
  | .returned result => Trail live.events (.ready result)
  | .closing response => response = retryable "dedup_store_unavailable"

/-- Every request is where its events say. -/
def Trailed (s : System InvocationContext DispatchEvent) : Prop :=
  ∀ (i : Nat) live, s.live[i]? = some live → live.Trailed

variable {s : System InvocationContext DispatchEvent}

theorem trailed_of_idle (h : Idle s) : Trailed s := by
  intro i live hlive
  rw [h i] at hlive
  cases hlive

theorem trailed_insert {s' : System InvocationContext DispatchEvent} {i : Nat}
    {new : Live InvocationContext DispatchEvent} (hs : Trailed s)
    (hlive : s'.live = s.live.insert i new) (hnew : new.Trailed) : Trailed s' := by
  intro j live hj
  rw [hlive, BTreeMap.find_insert] at hj
  split at hj
  · cases hj
    exact hnew
  · exact hs j live hj

theorem trailed_erase {s' : System InvocationContext DispatchEvent} {i : Nat} (hs : Trailed s)
    (hlive : s'.live = s.live.erase i) : Trailed s' := by
  intro j live hj
  rw [hlive, BTreeMap.find_erase] at hj
  split at hj
  · cases hj
  · exact hs j live hj

section

variable {crypto : Crypto} {parseJson : Bytes → Option Json} {store : DedupStoreLimits}
  {registry : CapabilityRegistry} {s s' : System InvocationContext DispatchEvent}
  {action : Action DispatchWorld} {response : Option WebhookIngressResponse}

variable {live : Live InvocationContext DispatchEvent} {i : Nat}

theorem segment_trail {world : DispatchWorld}
    {segment : List DispatchEvent × Poll InvocationContext} (ht : live.Trailed)
    (h : Segment (dispatchHost crypto parseJson store registry) live i world segment) :
    Trail (live.events ++ segment.1) segment.2 := by
  unfold Live.Trailed at ht
  cases h with
  | start hphase =>
    rw [hphase] at ht
    rw [ht, List.nil_append]
    exact start_trail registry world _
  | resume hphase =>
    rw [hphase] at ht
    exact resume_trail world ht

/-- **One step keeps every request on its trail.** -/
theorem Trailed.step (hs : Trailed s)
    (h : StepRun (dispatchHost crypto parseJson store registry) s action s' response) : Trailed s' := by
  cases h with
  | idle ht => exact hs
  | refused hprep => exact hs
  | anonymous hprep => exact trailed_insert hs rfl rfl
  | turnedAway hprep hcall hanswer => exact hs
  | claimed hprep hcall hown => exact trailed_insert hs rfl rfl
  | identified hlive hphase =>
    have ht := hs _ _ hlive
    unfold Live.Trailed at ht
    rw [hphase] at ht
    exact trailed_insert hs rfl ht
  | observed hlive hsegment =>
    have htrail := segment_trail (hs _ _ hlive) hsegment
    refine trailed_insert hs rfl ?_
    unfold Live.Trailed
    split <;> rename_i hphase <;> split at hphase <;> cases hphase
    all_goals
      rename_i hpoll
      rw [hpoll] at htrail
      exact htrail
  | finished hlive hasks hguard => exact trailed_erase hs rfl
  | settled hlive hasks hguard hcall => exact trailed_erase hs rfl
  | unsettled hlive hasks hguard => exact trailed_insert hs rfl rfl
  | released hlive hguard => exact trailed_erase hs rfl
  | dropped hlive hguard hcall => exact trailed_erase hs rfl
  | administered hcall => exact hs

theorem release_trail {answer : WebhookIngressResponse} (ht : live.Trailed)
    (h : Asks live i action .release answer) : DispatchEvent.invoked ∉ live.events := by
  unfold Live.Trailed at ht
  generalize hwant : Settlement.release = wanted at h
  cases h with
  | identify hphase =>
    rw [hphase] at ht
    rw [ht]
    exact List.not_mem_nil
  | settle hphase =>
    rw [hphase] at ht
    dsimp only at ht
    generalize hpoll : Poll.ready _ = poll at ht
    generalize live.events = events at ht ⊢
    cases ht with
    | refused _ => simp
    | unaudited => simp
    | running => cases hpoll
    | @finished answer =>
      cases hpoll
      cases answer <;> cases hwant
    | uncertain =>
      cases hpoll
      cases hwant

theorem complete_trail {answer : WebhookIngressResponse} (ht : live.Trailed)
    (h : Asks live i action .complete answer) : Accounted live.events := by
  unfold Live.Trailed at ht
  generalize hwant : Settlement.complete = wanted at h
  cases h with
  | identify hphase => cases hwant
  | settle hphase =>
    rw [hphase] at ht
    dsimp only at ht
    generalize hpoll : Poll.ready _ = poll at ht
    generalize live.events = events at ht
    cases ht with
    | refused hwhy =>
      cases hpoll
      rcases hwhy with ⟨_, rfl⟩ | ⟨_, rfl⟩ | rfl <;> cases hwant
    | unaudited =>
      cases hpoll
      cases hwant
    | running => cases hpoll
    | finished => exact ⟨_, rfl⟩
    | uncertain =>
      cases hpoll
      cases hwant

/-! ## What a request's step does to the records -/

/-- What a step of a request makes of a row, given the events of the request. -/
inductive Classified (events : List DispatchEvent) (n : Nat) (row : DedupRow) :
    Option (Nat × DedupRow) → Prop
  | kept : Classified events n row (some (n, row))
  | released (hno : DispatchEvent.invoked ∉ events) : Classified events n row none
  | completed {row' : DedupRow} (hstate : row'.state = .completed) (haccounted : Accounted events) :
      Classified events n row (some (n, row'))
  | uncertain {row' : DedupRow} (hold : row.state = .inFlight) (hstate : row'.state = .unknown) :
      Classified events n row (some (n, row'))

/-- **Every step of a request is classified**, whichever of its store calls fail. -/
theorem Trailed.classified (hs : Trailed s)
    (h : StepRun (dispatchHost crypto parseJson store registry) s action s' response) {n : Nat}
    {key : DedupKey} {row : DedupRow} (hticket : action.ticket = some i)
    (hlive : s.live[i]? = some live) (hrow : s.db.webhookDedup.find key = some (n, row)) :
    Classified live.events n row (s'.db.webhookDedup.find key) := by
  rcases db_change h with hdb | ⟨request, limits, answer, hreq, hcall⟩
  · rw [hdb, hrow]
    exact .kept
  have hmoves := call_moves hcall key
  rw [hrow] at hmoves
  cases hreq with
  | claim hclaims => cases hticket
  | administration => cases hticket
  | @guard j other guard settlement _ hticket' hlive' hguard hwhy =>
    cases hticket.symm.trans hticket'
    cases hlive.symm.trans hlive'
    have ht := hs i live hlive
    generalize s'.db.webhookDedup.find key = after_ at hmoves
    rcases moves_from_row hmoves with rfl | hmove | ⟨policy, now, hclaim, _⟩
    · exact .kept
    · cases hmove with
      | completed hreq =>
        cases settlement <;> cases hreq
        rcases hwhy with ⟨response, hasks⟩ | hno
        · exact .completed rfl (complete_trail ht hasks)
        · cases hno
      | uncertain _ hold => exact .uncertain hold rfl
      | released hreq =>
        cases settlement <;> cases hreq
        rcases hwhy with ⟨response, hasks⟩ | hno
        · exact .released (release_trail ht hasks)
        · cases hno
      | resolved hreq => cases settlement <;> cases hreq
      | retried hreq => cases settlement <;> cases hreq
      | expired hreq => cases settlement <;> cases hreq
      | cleared hreq => cases settlement <;> cases hreq
    · cases settlement <;> cases hclaim

end

/-! ## The same bytes, the same key -/

section

variable {ε χ ω : Type} {host : Host ε χ ω} {s s' : System χ ω} {action : Action ε}
  {response : Option WebhookIngressResponse}

/-- Where guards come from. -/
structure Sourced (host : Host ε χ ω) (s : System χ ω) : Prop where
  claims : ∀ (i : Nat) live guard, s.live[i]? = some live → live.guard = some guard →
    ∃ policy, Claims host.crypto live.route live.request guard.updatedAtUnixMs guard.key policy
  anonymous : ∀ (i : Nat) live, s.live[i]? = some live → live.guard = none →
    live.route.verifier.identityGuarantee ≠ .required

theorem sourced_of_idle (h : Idle s) : Sourced host s where
  claims i live guard hlive := by rw [h i] at hlive; cases hlive
  anonymous i live hlive := by rw [h i] at hlive; cases hlive

theorem Sourced.step (hs : Sourced host s) (h : StepRun host s action s' response) : Sourced host s' where
  claims i live' guard hlive' hguard' := by
    cases ticket_origin h hlive' with
    | @kept live hlive hcont _ =>
      rw [hcont.guard] at hguard'
      rw [hcont.route, hcont.request]
      exact hs.claims i live guard hlive hguard'
    | begun hnew hsucc hbegun =>
      cases hbegun with
      | anonymous hident => cases hguard'
      | claimed hclaims hcall hown =>
        cases hguard'
        exact ⟨_, hclaims⟩
  anonymous i live' hlive' hguard' := by
    cases ticket_origin h hlive' with
    | @kept live hlive hcont _ =>
      rw [hcont.guard] at hguard'
      rw [hcont.route]
      exact hs.anonymous i live hlive hguard'
    | begun hnew hsucc hbegun =>
      cases hbegun with
      | anonymous hident => exact hident
      | claimed hclaims hcall hown => cases hguard'

/-! ## A key left behind -/

/-- The record of a key is unfinished, and no request holds the key. -/
structure Abandoned (key : DedupKey) (s : System χ ω) : Prop where
  unfinished : ∃ n row, s.db.webhookDedup.find key = some (n, row) ∧ row.state ≠ .completed
  free : ∀ (j : Nat) live guard, s.live[j]? = some live → live.guard = some guard → guard.key ≠ key

variable {key : DedupKey}

/-- **A key stays abandoned** until somebody decides about it. -/
theorem Abandoned.step (hs : Abandoned key s) (hunresolved : Unresolved key s action)
    (h : StepRun host s action s' response) : Abandoned key s' := by
  obtain ⟨n, row, hfind, hstate⟩ := hs.unfinished
  obtain ⟨row', hfind', hstate'⟩ := row_kept h hfind hstate (fun j live guard _ => hs.free j live guard)
    fun _ => hunresolved
  refine ⟨⟨n, row', hfind', hstate'⟩, ?_⟩
  intro j live' guard hlive' hguard' hkey
  cases ticket_origin h hlive' with
  | @kept live hlive hcont _ =>
    rw [hcont.guard] at hguard'
    exact hs.free j live guard hlive hguard' hkey
  | begun hnew hsucc hbegun =>
    cases hbegun with
    | anonymous hident => cases hguard'
    | claimed hclaims hcall hown =>
      -- a new claim would have a newer row than the one still there
      cases hguard'
      have hlt := claimed_newer hcall hown hfind
      rw [← hkey, hown, Option.some.injEq, Prod.mk.injEq] at hfind'
      omega

/-- The action does not dispatch this delivery. -/
def NotDispatched (route : WebhookRoute) (request : VerificationRequest) (s : System χ ω)
    (action : Action ε) : Prop :=
  ∀ j live, Dispatches s action j live → ¬ (live.route = route ∧ live.request = request)

/-- **The same bytes are not dispatched while their key is abandoned.** -/
theorem Abandoned.never {route : WebhookRoute} {request : VerificationRequest} {t : Nat}
    {policy : DedupClaimPolicy} (hclaims : Claims host.crypto route request t key policy)
    (hsourced : Sourced host s) (hs : Abandoned key s) {later : List (Action ε)}
    (h : All (System.step host) (Unresolved key) s later) :
    All (System.step host) (NotDispatched route request) s later := by
  refine h.imp (fun s => Sourced host s ∧ Abandoned key s)
    (fun s c hinv hc => ⟨hinv.1.step (step_run s c), hinv.2.step hc (step_run s c)⟩)
    ?_ ⟨hsourced, hs⟩
  rintro s c ⟨hsourced, hs⟩ _ j live hdispatch ⟨rfl, rfl⟩
  cases hguard : live.guard with
  | none => exact hsourced.anonymous j live hdispatch.1 hguard hclaims.required
  | some guard =>
    obtain ⟨policy', hclaims'⟩ := hsourced.claims j live guard hdispatch.1 hguard
    exact hs.free j live guard hdispatch.1 hguard (hclaims'.unique hclaims).1

/-! ## Success -/

/-- Why an action may answer with a 2xx status. -/
inductive Successful (host : Host ε χ ω) (s : System χ ω) (action : Action ε) : Prop
  | completed {i live guard n row} (hticket : action.ticket = some i)
      (hlive : s.live[i]? = some live) (hguard : live.guard = some guard)
      (hfind : (s.step host action).db.webhookDedup.find guard.key = some (n, row))
      (hstate : row.state = .completed)
  | duplicate {route request now secrets faults key policy n row}
      (haction : action = .begin route request now secrets faults)
      (hclaims : Claims host.crypto route request now.unixMilliseconds key policy)
      (hfind : (s.step host action).db.webhookDedup.find key = some (n, row))
      (hstate : row.state = .completed ∨ row.state = .unknown)
  | anonymous {i live output} (hticket : action.ticket = some i) (hlive : s.live[i]? = some live)
      (hguard : live.guard = none) (hphase : live.phase = .returned (.ok output))

theorem asks_success {live : Live χ ω} {i : Nat} {settlement : Settlement}
    {answer : WebhookIngressResponse} (h : Asks live i action settlement answer)
    (hok : answer.isSuccess = true) :
    settlement = .complete ∧ ∃ output, live.phase = .returned (.ok output) := by
  cases h with
  | identify hphase => cases hok
  | @settle result faults hphase =>
    cases result with
    | ok output => exact ⟨rfl, output, hphase⟩
    | error error =>
      cases error with
      | accessDenied reason => cases reason <;> cases hok
      | capabilityNotFound | invalidInput | handler | audit => cases hok

theorem claimed_success {route : WebhookRoute} {limits : DedupStoreLimits}
    {policy : DedupClaimPolicy} {now : Nat} {answer : Except DedupStoreError DedupClaim}
    {db db' : Database} {refusal : WebhookIngressResponse}
    (hcall : CallRun limits db (.claim key policy now) (.claim answer) db')
    (hanswer : route.claimed answer = .error refusal) (hok : refusal.isSuccess = true) :
    ∃ n row, db'.webhookDedup.find key = some (n, row) ∧ (row.state = .completed ∨ row.state = .unknown) := by
  cases hcall with
  | claim hrun =>
    cases hrun with
    | failed | late | full =>
      cases hanswer
      cases hok
    | claimed => cases hanswer
    | @duplicate _ _ e _ _ hfind =>
      refine ⟨e.1, e.2, hfind, ?_⟩
      cases hstate : e.2.state with
      | inFlight =>
        rw [hstate] at hanswer
        cases hanswer
        cases hok
      | completed => exact .inl rfl
      | unknown => exact .inr rfl

end

section

variable {crypto : Crypto} {parseJson : Bytes → Option Json} {store : DedupStoreLimits}
  {registry : CapabilityRegistry} {s : System InvocationContext DispatchEvent}

variable {live : Live InvocationContext DispatchEvent}

theorem lastWord_failure {answer : WebhookIngressResponse} (ht : live.Trailed)
    (h : live.phase.lastWord = some answer) : answer.isSuccess = false := by
  unfold Live.Trailed at ht
  cases hphase : live.phase with
  | closing fixed =>
    rw [hphase] at h ht
    cases h
    cases ht
    rfl
  | identifying | created | awaiting | returned =>
    rw [hphase] at h
    cases h

/-- **A 2xx status has one of three reasons.** -/
theorem Trailed.successful (hs : Trailed s) (action : Action DispatchWorld) {answer : WebhookIngressResponse}
    (h : s.response (dispatchHost crypto parseJson store registry) action = some answer)
    (hok : answer.isSuccess = true) : Successful (dispatchHost crypto parseJson store registry) s action := by
  have hrun : StepRun (dispatchHost crypto parseJson store registry) s action _ _ :=
    step_run s action
  rw [h] at hrun
  generalize hs' : s.step (dispatchHost crypto parseJson store registry) action = s' at hrun
  generalize hans : some answer = given at hrun
  cases hrun with
  | refused hprep =>
    cases hans
    rw [prepare_error (by rw [hprep])] at hok
    cases hok
  | turnedAway hprep hcall hanswer =>
    cases hans
    obtain ⟨n, row, hfind, hstate⟩ := claimed_success hcall hanswer hok
    exact .duplicate rfl (prepare_claims (by rw [hprep])) (by rw [hs']; exact hfind) hstate
  | finished hlive hasks hguard =>
    cases hans
    obtain ⟨_, output, hphase⟩ := asks_success hasks hok
    exact .anonymous hasks.ticket_eq hlive hguard hphase
  | settled hlive hasks hguard hcall =>
    cases hans
    obtain ⟨rfl, _⟩ := asks_success hasks hok
    obtain ⟨n, row, hfind, hstate⟩ := completed_after hcall
    exact .completed hasks.ticket_eq hlive hguard (by rw [hs']; exact hfind) hstate
  | released hlive hguard =>
    rw [lastWord_failure (hs _ _ hlive) hans.symm] at hok
    cases hok
  | dropped hlive hguard hcall =>
    rw [lastWord_failure (hs _ _ hlive) hans.symm] at hok
    cases hok
  | idle | anonymous | claimed | identified | observed | unsettled | administered => cases hans

/-! ## The end of a request -/

/-- How a request that is over has left its key. -/
inductive Ending (host : Host DispatchWorld InvocationContext DispatchEvent)
    (s' : System InvocationContext DispatchEvent) (live : Live InvocationContext DispatchEvent)
    (key : DedupKey) : Prop
  | released (hgone : s'.db.webhookDedup.find key = none)
      (hno : DispatchEvent.invoked ∉ live.events)
  | completed {n row} (hfind : s'.db.webhookDedup.find key = some (n, row))
      (hstate : row.state = .completed) (haccounted : Accounted live.events)
  | unfinished {n row} (hfind : s'.db.webhookDedup.find key = some (n, row))
      (hstate : row.state = .inFlight ∨ row.state = .unknown)
      (hnever : ∀ later, All (System.step host) (Unresolved key) s' later →
        All (System.step host) (NotDispatched live.route live.request) s' later)

theorem free_after {host : Host DispatchWorld InvocationContext DispatchEvent}
    {action : Action DispatchWorld} {i : Nat} {guard : DedupGuard} (howning : Owning s)
    (hticket : action.ticket = some i) (hlive : s.live[i]? = some live)
    (hguard : live.guard = some guard) (hover : (s.step host action).live[i]? = none) (j : Nat)
    (other guard') (hother : (s.step host action).live[j]? = some other)
    (hguard' : other.guard = some guard') : guard'.key ≠ guard.key := by
  intro hkey
  cases ticket_origin (step_run s action) hother with
  | @kept old hold hcont _ =>
    rw [hcont.guard] at hguard'
    have hij := howning.sole hlive hold hguard hguard' hkey.symm
    rw [← hij, hover] at hother
    cases hother
  | begun hnew hsucc hbegun => cases hbegun <;> cases hticket

theorem ending_of_classified {action : Action DispatchWorld} {i : Nat} {guard : DedupGuard}
    (htrailed : Trailed s) (hsourced : Sourced (dispatchHost crypto parseJson store registry) s)
    (howning : Owning s) (hticket : action.ticket = some i) (hlive : s.live[i]? = some live)
    (hguard : live.guard = some guard)
    (hover : (s.step (dispatchHost crypto parseJson store registry) action).live[i]? = none) :
    Ending (dispatchHost crypto parseJson store registry)
      (s.step (dispatchHost crypto parseJson store registry) action) live guard.key := by
  have hrun : StepRun (dispatchHost crypto parseJson store registry) s action _ _ :=
    step_run s action
  obtain ⟨n, row, _, hfind, hopen⟩ := howning.owned i live guard hlive hguard
  obtain ⟨policy, hclaims⟩ := hsourced.claims i live guard hlive hguard
  have hfree := free_after howning hticket hlive hguard hover
  -- an unfinished record is abandoned, because this was the only request that held it
  have hleft : ∀ row', (s.step (dispatchHost crypto parseJson store registry)
      action).db.webhookDedup.find guard.key = some (n, row') →
      (row'.state = .inFlight ∨ row'.state = .unknown) →
      Ending (dispatchHost crypto parseJson store registry)
        (s.step (dispatchHost crypto parseJson store registry) action) live guard.key := by
    intro row' hfind' hstate
    have hunfinished : row'.state ≠ .completed := by
      rcases hstate with h | h <;> rw [h] <;> exact fun hno => by cases hno
    exact .unfinished hfind' hstate fun later hlater =>
      Abandoned.never hclaims (hsourced.step hrun) ⟨⟨n, row', hfind', hunfinished⟩, hfree⟩ hlater
  have hclass := htrailed.classified hrun hticket hlive hfind
  generalize hafter : (s.step (dispatchHost crypto parseJson store registry)
    action).db.webhookDedup.find guard.key = after_ at hclass
  cases hclass with
  | kept =>
    -- recovery may have made the record unknown before; completed it is not
    refine hleft _ hafter ?_
    cases hstate : row.state with
    | inFlight => exact .inl rfl
    | completed => exact absurd hstate hopen
    | unknown => exact .inr rfl
  | released hno => exact .released hafter hno
  | completed hstate haccounted => exact .completed hafter hstate haccounted
  | uncertain _ hstate => exact hleft _ hafter (.inr hstate)

end

/-- A step of a request changes only the record of its own claim, in a way its own events allow. -/
def ClassifiesOwn (host : Host DispatchWorld InvocationContext DispatchEvent)
    (s : System InvocationContext DispatchEvent) (action : Action DispatchWorld) : Prop :=
  ∀ i live key, action.ticket = some i → s.live[i]? = some live →
    (s.step host action).db.webhookDedup.find key ≠ s.db.webhookDedup.find key →
    ∃ n row, live.row = some n ∧ s.db.webhookDedup.find key = some (n, row) ∧
      Classified live.events n row ((s.step host action).db.webhookDedup.find key)

/-- **Handler-run classification.**  In every run of the webhook requests over the core dispatcher:

    * a step of a request releases a record only if it never invoked the handler, completes one only if
      the handler is accounted for, and otherwise leaves it or makes it uncertain;
    * a 2xx answer has one of the three reasons of `Successful`;
    * as long as no operator decides about an unknown record whose guard is armed, the record is the one
      of the request's own claim, and a request that is over has released its key without invoking the
      handler, completed it, or left it so that the same delivery is not dispatched again before an
      operator resolves the record. -/
theorem handler_run_classification (crypto : Crypto) (parseJson : Bytes → Option Json)
    (store : DedupStoreLimits) (registry : CapabilityRegistry)
    {s₀ : System InvocationContext DispatchEvent} (hidle : Idle s₀)
    (actions : List (Action DispatchWorld)) (action : Action DispatchWorld) :
    let host := dispatchHost crypto parseJson store registry
    let s := run (System.step host) s₀ actions
    (∀ i live key n row, action.ticket = some i → s.live[i]? = some live →
      s.db.webhookDedup.find key = some (n, row) →
      Classified live.events n row ((s.step host action).db.webhookDedup.find key)) ∧
    (∀ answer, s.response host action = some answer → answer.isSuccess = true →
      Successful host s action) ∧
    (All (System.step host) Undisturbed s₀ actions → ClassifiesOwn host s action ∧
      ∀ i live guard, action.ticket = some i → s.live[i]? = some live →
        live.guard = some guard → (s.step host action).live[i]? = none →
        Ending host (s.step host action) live guard.key) := by
  intro host s
  have hany : All (System.step host) (fun _ _ => True) s₀ actions := .always fun _ _ => trivial
  have htrailed : Trailed s := hany.run Trailed
    (fun s c hs _ => hs.step (step_run s c)) (trailed_of_idle hidle)
  have hclassified : ∀ i live key n row, action.ticket = some i → s.live[i]? = some live →
      s.db.webhookDedup.find key = some (n, row) →
      Classified live.events n row ((s.step host action).db.webhookDedup.find key) :=
    fun i live key n row => htrailed.classified (step_run s action)
  refine ⟨hclassified, fun answer => htrailed.successful action, fun hrun => ?_⟩
  have hsourced : Sourced host s := hany.run (Sourced host)
    (fun s c hs _ => hs.step (step_run s c)) (sourced_of_idle hidle)
  have howning : Owning s := hrun.run Owning (fun _ _ hs hc => hs.step hc) (owning_of_idle hidle)
  refine ⟨fun i live key hticket hlive hchanged => ?_, fun i live guard =>
    ending_of_classified htrailed hsourced howning⟩
  obtain ⟨n, row, hrow, hfind⟩ := (howning.changesOwnRow i live hticket hlive).1 key hchanged
  exact ⟨n, row, hrow, hfind, hclassified i live key n row hticket hlive hfind⟩

/-- A delivery whose handler runs when the request is dropped. -/
def interruptedRun : List (Action DispatchWorld) :=
  [.begin (sampleRoute .gitHub gitHub_required) gitHubRequest ⟨1000, 0⟩ sampleSecrets [],
    .identify 0 (some ⟨['a'], invocation_valid⟩) [], .poll 0 willingWorld]

def sawInvoked (events : List DispatchEvent) : Bool :=
  events.any fun
    | .invoked => true
    | _ => false

theorem sawInvoked_mem {events : List DispatchEvent} (h : sawInvoked events = true) :
    DispatchEvent.invoked ∈ events := by
  obtain ⟨event, hmem, hevent⟩ := List.any_eq_true.mp h
  cases event with
  | invoked => exact hmem
  | audited | returned => cases hevent

/-- The handler runs when recovery makes the record unknown and the request is dropped: the record stays
    unknown, and the same delivery is not dispatched again before an operator decides. -/
theorem handler_run_classification_interrupted :
    let s := run (System.step sampleHost) sampleSystem
      (interruptedRun ++ [.administer (.recoverInFlight 2000) .standard []])
    ∃ live, s.live[0]? = some live ∧ DispatchEvent.invoked ∈ live.events ∧
      ((s.step sampleHost (.drop 0 [])).db.webhookDedup.find gitHubKey).map (fun e => e.2.state) =
        some .unknown ∧
      Ending sampleHost (s.step sampleHost (.drop 0 [])) live gitHubKey := by
  intro s
  have hread : (s.live[0]?).map (fun live => (live.guard, sawInvoked live.events)) =
        some (some ⟨gitHubKey, 1000⟩, true) ∧
      ((s.step sampleHost (.drop 0 [])).live[0]?).isNone = true ∧
      ((s.step sampleHost (.drop 0 [])).db.webhookDedup.find gitHubKey).map (fun e => e.2.state) =
        some .unknown := by decide +kernel
  obtain ⟨hread, hover, hafter⟩ := hread
  obtain ⟨live, hlive, heq⟩ := Option.map_eq_some_iff.mp hread
  simp only [Prod.mk.injEq] at heq
  refine ⟨live, hlive, sawInvoked_mem heq.2, hafter, ?_⟩
  exact ((handler_run_classification sampleHost.crypto sampleHost.parseJson sampleHost.store
    sampleRegistry idle_sampleSystem _ (.drop 0 [])).2.2 (undisturbed_of_decides (by decide))).2
    0 live _ rfl hlive heq.1 (Option.isNone_iff_eq_none.mp hover)

/-- The first request has not been polled when recovery and `RetryAllowed` remove its record; a second
    delivery of the key runs the handler, and then the first one is refused by the policy. -/
def staleReleaseRun : List (Action DispatchWorld) :=
  [.begin (sampleRoute .gitHub gitHub_required) gitHubRequest ⟨1000, 0⟩ sampleSecrets [],
    .identify 0 (some ⟨['a'], invocation_valid⟩) [],
    .administer (.recoverInFlight 2000) .standard [],
    allowRetry,
    .begin (sampleRoute .gitHub gitHub_required) gitHubRequest ⟨4000, 0⟩ sampleSecrets [],
    .identify 1 (some ⟨['a'], invocation_valid⟩) [],
    .poll 1 willingWorld,
    .poll 0 { willingWorld with policy := fun _ _ _ => .deny .notGranted }]

/-- The same delivery arrives a third time. -/
def thirdArrival : List (Action DispatchWorld) :=
  [.begin (sampleRoute .gitHub gitHub_required) gitHubRequest ⟨5000, 0⟩ sampleSecrets [],
    .identify 2 (some ⟨['a'], invocation_valid⟩) [],
    .poll 2 willingWorld]

/-- **A stale guard releases a running claim.**  The handler runs for the second request, whose row is
    number 2; the first request, refused before the handler, releases that row; and the same delivery is
    dispatched once more while the handler still runs. -/
theorem stale_guard_releases_running_claim :
    let s := run (System.step sampleHost) sampleSystem staleReleaseRun
    Idle sampleSystem ∧ ¬ ClassifiesOwn sampleHost s (.settle 0 []) ∧
      (∃ live, s.live[1]? = some live ∧ live.row = some 2 ∧ DispatchEvent.invoked ∈ live.events) ∧
      (s.db.webhookDedup.find gitHubKey).map Prod.fst = some 2 ∧
      (s.step sampleHost (.settle 0 [])).db.webhookDedup.find gitHubKey = none ∧
      ∃ live, (run (System.step sampleHost) (s.step sampleHost (.settle 0 [])) thirdArrival).live[2]? =
        some live ∧ DispatchEvent.invoked ∈ live.events := by
  intro s
  have hread : (s.live[0]?).map (fun live => live.row) = some (some 1) ∧
      (s.live[1]?).map (fun live => (live.row, sawInvoked live.events)) = some (some 2, true) ∧
      (s.db.webhookDedup.find gitHubKey).map Prod.fst = some 2 ∧
      (s.step sampleHost (.settle 0 [])).db.webhookDedup.find gitHubKey = none ∧
      ((run (System.step sampleHost) (s.step sampleHost (.settle 0 [])) thirdArrival).live[2]?).map
        (fun live => sawInvoked live.events) = some true := by decide +kernel
  obtain ⟨hfirst, hsecond, hfind, hgone, hthird⟩ := hread
  obtain ⟨live, hlive, hlrow⟩ := Option.map_eq_some_iff.mp hfirst
  obtain ⟨second, hsecond, heq⟩ := Option.map_eq_some_iff.mp hsecond
  obtain ⟨third, hthird, hinvoked⟩ := Option.map_eq_some_iff.mp hthird
  simp only [Prod.mk.injEq] at heq
  refine ⟨idle_sampleSystem, fun hown => ?_, ⟨second, hsecond, heq.1, sawInvoked_mem heq.2⟩, hfind, hgone,
    third, hthird, sawInvoked_mem hinvoked⟩
  have hchanged : (s.step sampleHost (.settle 0 [])).db.webhookDedup.find gitHubKey ≠
      s.db.webhookDedup.find gitHubKey := fun heq => by
    rw [← heq, hgone] at hfind
    cases hfind
  obtain ⟨n, row, hn, hr, _⟩ := hown 0 live gitHubKey rfl hlive hchanged
  rw [hlrow] at hn
  rw [hr] at hfind
  cases hn
  cases hfind

end Bondry.Webhook
