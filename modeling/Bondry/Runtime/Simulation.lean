/-
  THE HANDLERS ARE CHAINS OF EFFECTS.

  For each method of the engine, the chain of `Micro` effects it performs.  The one thing the methods
  rely on is that an entry of `active` or `activeCalls` describes the delivery it is filed under
  (`Keyed`), which every effect keeps.

  The loops over a list of deliveries (a panicked task, an expired drain, the shutdown deadline) end each
  of them in turn.  What makes that a chain is that ending one leaves the others where they are.
-/
import Bondry.Runtime.Micro

namespace Bondry.Runtime

open Egress

namespace Engine

variable {σ Q A : Type} {svc : Services σ}

/-! ## Entries describe their own delivery -/

/-- The entry is the one of this delivery, in this mode. -/
structure Filed {ρ : Type} (mode : OperationMode) (d : DeliveryId) (a : Active Q A ρ) : Prop where
  delivery : a.parts.delivery = d
  operation : a.parts.mode = mode
  lifecycle : a.lifecycle.delivery = d
  route : a.lifecycle.route = a.parts.route
  retry : a.lifecycle.retry = a.parts.retry
  call : mode = .call → a.parts.retry = .withoutRetries

/-- Every entry stands under its own delivery. -/
structure Keyed (s : Engine σ Q A) : Prop where
  emit : ∀ (d : DeliveryId) a, s.active[d]? = some a → Filed .emit d a
  call : ∀ (d : DeliveryId) a, s.activeCalls[d]? = some a → Filed .call d a

variable {ρ : Type} {mode : OperationMode} {d : DeliveryId} {a : Active Q A ρ}

theorem Filed.inFlightAt (h : Filed mode d a) (time : TransitionTime) : Filed mode d (inFlightAt a time) :=
  ⟨h.delivery, h.operation, h.lifecycle, h.route, h.retry, h.call⟩

theorem Filed.withState (h : Filed mode d a) (state : LifecycleState) : Filed mode d (withState a state) :=
  ⟨h.delivery, h.operation, h.lifecycle, h.route, h.retry, h.call⟩

theorem Filed.handled (h : Filed mode d a) (abort : Option Nat) : Filed mode d { a with abort := abort } :=
  ⟨h.delivery, h.operation, h.lifecycle, h.route, h.retry, h.call⟩

variable {lane : BTreeMap DeliveryId (Active Q A ρ)}

theorem filed_insert (h : ∀ (d : DeliveryId) a, lane[d]? = some a → Filed mode d a) (ha : Filed mode d a) :
    ∀ (d' : DeliveryId) a', (lane.insert d a)[d']? = some a' → Filed mode d' a' := by
  intro d' a' hfind
  rw [BTreeMap.find_insert] at hfind
  split at hfind
  · next heq =>
    subst heq
    cases hfind
    exact ha
  · exact h d' a' hfind

theorem filed_erase (h : ∀ (d : DeliveryId) a, lane[d]? = some a → Filed mode d a) (d : DeliveryId) :
    ∀ (d' : DeliveryId) a', (lane.erase d)[d']? = some a' → Filed mode d' a' := by
  intro d' a' hfind
  rw [BTreeMap.find_erase] at hfind
  split at hfind
  · cases hfind
  · exact h d' a' hfind

/-! ## What the shared operations leave alone -/

theorem landed_shape (s : Engine σ Q A) (route : RouteId) : ∃ usage inFlight saturated, s.landed route =
      { s with usage := usage, globalInFlight := inFlight, saturated := saturated } := by
  unfold landed
  dsimp only
  split
  · exact ⟨_, _, _, rfl⟩
  · exact ⟨_, _, _, rfl⟩

theorem released_shape (s : Engine σ Q A) (route : RouteId) (bytes : Nat) :
    ∃ usage pending held saturated, s.released route bytes =
      { s with
        usage := usage, globalPending := pending, globalBytes := held, saturated := saturated } := by
  unfold released
  dsimp only
  split
  · exact ⟨_, _, _, _, rfl⟩
  · exact ⟨_, _, _, _, rfl⟩

theorem callReleased_shape (s : Engine σ Q A) (route : RouteId) : ∃ usage saturated,
    s.callReleased route = { s with usage := usage, saturated := saturated } := by
  unfold callReleased
  split
  · exact ⟨_, _, rfl⟩
  · exact ⟨_, _, rfl⟩

theorem requeued_shape (s : Engine σ Q A) (route : RouteId) (routes : List RouteId)
    (queue : List DeliveryId) : ∃ ready readyRoutes,
    s.requeued route routes queue = { s with ready := ready, readyRoutes := readyRoutes } := by
  unfold requeued
  split
  · exact ⟨_, _, rfl⟩
  · exact ⟨_, _, rfl⟩

/-- The tasks when a delivery ends: the one it still has is aborted. -/
def tasksWithout (tasks : BTreeMap Nat (Task Q A)) : Option Nat → BTreeMap Nat (Task Q A)
  | none => tasks
  | some task => abortTask tasks task

variable {s : Engine σ Q A}

theorem finishDelivery_shape {a : ActiveDelivery Q A} (h : s.active[d]? = some a)
    (outcome : DeliveryOutcome) (result : Option DeliveryResultMetadata) :
    ∃ usage pending held inFlight saturated, s.finishDelivery d outcome result =
      { s with
        active := s.active.erase d
        attempts := tasksWithout s.attempts a.abort
        usage := usage, globalPending := pending, globalBytes := held, globalInFlight := inFlight
        saturated := saturated
        trace := s.trace ++ [.finished .emit d outcome result] } := by
  simp only [finishDelivery, h]
  cases a.abort with
  | none =>
    obtain ⟨usage, pending, held, saturated, heq⟩ := released_shape
      { s with active := s.active.erase d } a.parts.route a.parts.payload.length
    exact ⟨usage, pending, held, s.globalInFlight, saturated, by rw [heq]; rfl⟩
  | some task =>
    obtain ⟨usage₀, inFlight, saturated₀, hland⟩ := landed_shape
      { s with active := s.active.erase d, attempts := abortTask s.attempts task } a.parts.route
    obtain ⟨usage, pending, held, saturated, heq⟩ := released_shape
      { s with
        active := s.active.erase d, attempts := abortTask s.attempts task
        usage := usage₀, globalInFlight := inFlight, saturated := saturated₀ }
      a.parts.route a.parts.payload.length
    exact ⟨usage, pending, held, inFlight, saturated, by dsimp only; rw [hland, heq]; rfl⟩

theorem finishCall_shape {a : ActiveCall Q A} (h : s.activeCalls[d]? = some a)
    (outcome : DeliveryOutcome) (result : Option DeliveryResultMetadata)
    (response : Except EgressRuntimeError CallResult) :
    ∃ usage inFlight saturated, s.finishCall d outcome result response =
      { s with
        activeCalls := s.activeCalls.erase d
        calls := tasksWithout s.calls a.abort
        usage := usage, callInFlight := inFlight, saturated := saturated
        trace := s.trace ++
          [.finished .call d outcome result, .replied a.reply (.result response)] } := by
  simp only [finishCall, h]
  cases a.abort with
  | none =>
    obtain ⟨usage, saturated, heq⟩ := callReleased_shape
      { s with activeCalls := s.activeCalls.erase d } a.parts.route
    refine ⟨usage, s.callInFlight, saturated, ?_⟩
    rw [heq]
    simp only [note, send, List.append_assoc]
    rfl
  | some task =>
    obtain ⟨usage, saturated, heq⟩ := callReleased_shape
      { s with
        activeCalls := s.activeCalls.erase d, calls := abortTask s.calls task }.callLanded
      a.parts.route
    refine ⟨usage, s.callInFlight - 1, saturated, ?_⟩
    rw [heq]
    simp only [note, send, callLanded, List.append_assoc]
    rfl

@[simp] theorem persist_active (s : Engine σ Q A) (action : DeliveryPersistenceAction) :
    (s.persist svc action).2.active = s.active := by
  cases action <;> rfl

@[simp] theorem persist_activeCalls (s : Engine σ Q A) (action : DeliveryPersistenceAction) :
    (s.persist svc action).2.activeCalls = s.activeCalls := by
  cases action <;> rfl

@[simp] theorem landed_active (s : Engine σ Q A) (route : RouteId) : (s.landed route).active = s.active := by
  obtain ⟨_, _, _, heq⟩ := s.landed_shape route
  rw [heq]

@[simp] theorem landed_activeCalls (s : Engine σ Q A) (route : RouteId) :
    (s.landed route).activeCalls = s.activeCalls := by
  obtain ⟨_, _, _, heq⟩ := s.landed_shape route
  rw [heq]

@[simp] theorem requeued_active (s : Engine σ Q A) (route : RouteId) (routes : List RouteId)
    (queue : List DeliveryId) : (s.requeued route routes queue).active = s.active := by
  obtain ⟨_, _, heq⟩ := s.requeued_shape route routes queue
  rw [heq]

@[simp] theorem requeued_activeCalls (s : Engine σ Q A) (route : RouteId) (routes : List RouteId)
    (queue : List DeliveryId) : (s.requeued route routes queue).activeCalls = s.activeCalls := by
  obtain ⟨_, _, heq⟩ := s.requeued_shape route routes queue
  rw [heq]

theorem spawnAttempt_eq {a : ActiveDelivery Q A} (h : s.active[d]? = some a) (k time : Nat) :
    s.spawnAttempt d k time = ({ s with
      attempts := s.attempts.insert s.nextTask (taskOf a d)
      nextTask := s.nextTask + 1
      active := s.active.insert d { a with abort := some s.nextTask }
      globalInFlight := s.globalInFlight + 1 }.withUsage a.parts.route fun usage =>
        { usage with inFlight := usage.inFlight + 1 }).note (.spawned .emit d k s.nextTask time) := by
  simp only [spawnAttempt, h]

theorem spawnCall_eq {a : ActiveCall Q A} (h : s.activeCalls[d]? = some a) (k time : Nat) :
    s.spawnCall d k time = { s with
      calls := s.calls.insert s.nextTask (taskOf a d)
      nextTask := s.nextTask + 1
      activeCalls := s.activeCalls.insert d { a with abort := some s.nextTask }
      callInFlight := s.callInFlight + 1 }.note (.spawned .call d k s.nextTask time) := by
  simp only [spawnCall, h]

variable {h : Hand}

/-- **Every effect keeps the entries filed under their own delivery.** -/
theorem Keyed.micro {h' : Hand} {s' : Engine σ Q A} (hm : Micro svc h s h' s') (hk : Keyed s) : Keyed s' := by
  cases hm with
  | ticked | looked | sent | configured | drained | stopped | rotated | ignored | callIgnored |
    discarded | callDiscarded | retryDropped | retryDue | joined | callJoined | confirmed |
    overrode => exact ⟨hk.emit, hk.call⟩
  | recorded | unrecorded | stored | unstored => exact ⟨by simpa using hk.emit, by simpa using hk.call⟩
  | skipped | took => exact ⟨by simpa using hk.emit, by simpa using hk.call⟩
  | drove hactive => exact ⟨filed_insert hk.emit ((hk.emit _ _ hactive).inFlightAt _), hk.call⟩
  | callDrove hactive => exact ⟨hk.emit, filed_insert hk.call ((hk.call _ _ hactive).inFlightAt _)⟩
  | stranded hactive => exact ⟨filed_insert hk.emit (hk.emit _ _ hactive), hk.call⟩
  | spawned hactive =>
    rw [spawnAttempt_eq hactive]
    exact ⟨filed_insert hk.emit ((hk.emit _ _ hactive).handled _), hk.call⟩
  | callSpawned hactive =>
    rw [spawnCall_eq hactive]
    exact ⟨hk.emit, filed_insert hk.call ((hk.call _ _ hactive).handled _)⟩
  | cleared hactive | aborted hactive =>
    refine ⟨?_, by simpa using hk.call⟩
    rw [landed_active]
    exact filed_insert hk.emit ((hk.emit _ _ hactive).handled _)
  | callCleared hactive | callAborted hactive =>
    exact ⟨hk.emit, filed_insert hk.call ((hk.call _ _ hactive).handled _)⟩
  | parked hactive | advanced _ _ hactive =>
    exact ⟨filed_insert hk.emit ((hk.emit _ _ hactive).withState _), hk.call⟩
  | callAdvanced _ _ hactive =>
    exact ⟨hk.emit, filed_insert hk.call ((hk.call _ _ hactive).withState _)⟩
  | finished hactive =>
    obtain ⟨_, _, _, _, _, heq⟩ := finishDelivery_shape hactive _ _
    rw [heq]
    exact ⟨filed_erase hk.emit _, hk.call⟩
  | callFinished response hactive =>
    obtain ⟨_, _, _, heq⟩ := finishCall_shape hactive _ _ response
    rw [heq]
    exact ⟨hk.emit, filed_erase hk.call _⟩

theorem Keyed.chain {h' : Hand} {s' : Engine σ Q A} (hk : Keyed s) (hchain : Chain svc h s h' s') :
    Keyed s' :=
  hchain.keeps (fun _ s => Keyed s) (fun _ _ _ _ hm hk => hk.micro hm) hk

/-! ## Ends -/

theorem overrideWith_eq (svc : Services σ) (s : Engine σ Q A) (h : lane[d]? = some a)
    (outcome : DeliveryOutcome) (result : Option DeliveryResultMetadata) :
    ∃ record : DeliveryRecord, record.state = .terminal outcome ∧ record.result = result ∧
      s.overrideWith svc lane d outcome result =
        { s with overrides := s.overrides.insert d record, tick := s.tick + 1 } := by
  refine ⟨overridden a d outcome result (s.time svc).unixMs, rfl, rfl, ?_⟩
  simp only [overrideWith, h]

/-- The state in which an end has been stored, confirmed or overridden. -/
def concluded (svc : Services σ) (s : Engine σ Q A) (insert : Engine σ Q A → Engine σ Q A)
    (d : DeliveryId) (outcome : DeliveryOutcome) (result : Option DeliveryResultMetadata)
    (at_ : Nat) : Engine σ Q A :=
  (s.persisted svc (some (.recordOutcome d outcome at_ result))).2.secure svc insert
    (s.persisted svc (some (.recordOutcome d outcome at_ result))).1 d outcome result

theorem concluded_chain (svc : Services σ) (mode : OperationMode) {outcome : DeliveryOutcome}
    {result : Option DeliveryResultMetadata} {insert : Engine σ Q A → Engine σ Q A} (at_ : Nat)
    (hinsert : ∀ s' : Engine σ Q A, s'.active = s.active → s'.activeCalls = s.activeCalls →
      ∃ record : DeliveryRecord, record.state = .terminal outcome ∧ record.result = result ∧
        insert s' = { s' with overrides := s'.overrides.insert d record, tick := s'.tick + 1 }) :
    Chain svc (.ending mode d) s (.secured mode d outcome result)
        (s.concluded svc insert d outcome result at_) ∧
      (s.concluded svc insert d outcome result at_).active = s.active ∧
      (s.concluded svc insert d outcome result at_).activeCalls = s.activeCalls := by
  unfold concluded
  cases hok : isOk (s.persist svc (.recordOutcome d outcome at_ result)).1 with
  | true =>
    simp only [secure, persisted, hok, if_true]
    exact ⟨(Micro.stored outcome result at_ hok).chain, rfl, rfl⟩
  | false =>
    simp only [secure, persisted, persistedTerminalMatches, hok, Bool.false_eq_true, if_false]
    have hdoubt : Chain svc (.ending mode d) s (.doubted mode d outcome result) _ :=
      (Micro.unstored outcome result at_ hok).chain
    split
    · next hyes => exact ⟨hdoubt.trans (Micro.confirmed hyes).chain, rfl, rfl⟩
    · obtain ⟨record, hstate, hresult, heq⟩ := hinsert
        { ((s.persist svc (.recordOutcome d outcome at_ result)).2.lookup svc d).2 with
          persistenceDegraded := true } rfl rfl
      rw [heq]
      exact ⟨hdoubt.trans (Micro.overrode record hstate hresult).chain, rfl, rfl⟩

def anonymous {ρ : Type} (a : Active Q A ρ) : ActiveDelivery Q A :=
  { acceptedAtUnixMs := a.acceptedAtUnixMs, parts := a.parts, lifecycle := a.lifecycle
    abort := a.abort, reply := () }

def seen (s : Engine σ Q A) : OperationMode → DeliveryId → Option (ActiveDelivery Q A)
  | .emit, d => s.active[d]?
  | .call, d => s.activeCalls[d]?.map anonymous

/-- The engine ends a delivery and leaves every other entry alone. -/
structure Ends (svc : Services σ) (h : Hand) (s : Engine σ Q A) (mode : OperationMode)
    (d : DeliveryId) (s' : Engine σ Q A) : Prop where
  chain : Chain svc h s .idle s'
  seen : ∀ m d', s'.seen m d' = if m = mode ∧ d' = d then none else s.seen m d'

section Ends

variable {h h₁ : Hand} {s s₁ s' : Engine σ Q A} {mode : OperationMode} {d own : DeliveryId}
  {a : ActiveDelivery Q A} {c : ActiveCall Q A} {state : LifecycleState}

theorem Ends.after (hends : Ends svc h₁ s₁ mode d s') (hfirst : Chain svc h s h₁ s₁)
    (hsame : ∀ m d', ¬ (m = mode ∧ d' = d) → s₁.seen m d' = s.seen m d') : Ends svc h s mode d s' := by
  refine ⟨hfirst.trans hends.chain, fun m d' => ?_⟩
  rw [hends.seen]
  by_cases hd : m = mode ∧ d' = d
  · rw [if_pos hd, if_pos hd]
  · rw [if_neg hd, if_neg hd, hsame m d' hd]

theorem seen_insert {m : OperationMode} {d' : DeliveryId} (hne : ¬ (m = .emit ∧ d' = d))
    (hactive : s'.active = s.active.insert d a) (hcalls : s'.activeCalls = s.activeCalls) :
    s'.seen m d' = s.seen m d' := by
  cases m with
  | emit =>
    dsimp only [seen]
    rw [hactive]
    exact BTreeMap.find_insert_ne _ _ fun heq => hne ⟨rfl, heq.symm⟩
  | call =>
    dsimp only [seen]
    rw [hcalls]

theorem seen_insertCall {m : OperationMode} {d' : DeliveryId} (hne : ¬ (m = .call ∧ d' = d))
    (hcalls : s'.activeCalls = s.activeCalls.insert d c) (hactive : s'.active = s.active) :
    s'.seen m d' = s.seen m d' := by
  cases m with
  | emit =>
    dsimp only [seen]
    rw [hactive]
  | call =>
    dsimp only [seen]
    rw [hcalls, BTreeMap.find_insert_ne _ _ fun heq => hne ⟨rfl, heq.symm⟩]

theorem persistTerminal_ends (hown : own = d) (hactive : s.active[d]? = some a)
    (outcome : DeliveryOutcome) (result : Option DeliveryResultMetadata) (at_ : Nat) :
    Ends svc (.ending .emit d) s .emit d
      (s.persistTerminal svc d outcome result (some (.recordOutcome own outcome at_ result))) := by
  subst hown
  obtain ⟨hchain, hsame, hcalls⟩ := concluded_chain svc .emit at_ fun s' hsame _ =>
    overrideWith_eq svc s' (hsame ▸ hactive) outcome result
  have hstill := hactive
  rw [← hsame] at hstill
  refine ⟨hchain.trans (Micro.finished hstill).chain, ?_⟩
  show ∀ m d', ((s.concluded svc (fun s' => s'.overrideWith svc s'.active own outcome result) own
    outcome result at_).finishDelivery own outcome result).seen m d' = _
  obtain ⟨_, _, _, _, _, hend⟩ := finishDelivery_shape hstill outcome result
  rw [hend]
  rintro (_ | _) d' <;> dsimp only [seen]
  · rw [BTreeMap.find_erase, hsame]
    simp [eq_comm]
  · rw [hcalls]
    simp

theorem forceTerminal_ends (hactive : s.active[d]? = some a) (outcome : DeliveryOutcome)
    (result : Option DeliveryResultMetadata) :
    Ends svc (.ending .emit d) s .emit d (s.forceTerminal svc d outcome result) :=
  (persistTerminal_ends (s := s.ticked) rfl hactive outcome result (s.time svc).unixMs).after
    Micro.ticked.chain fun m d' _ => by cases m <;> rfl

theorem persistCallTerminal_ends (hown : own = d) (hactive : s.activeCalls[d]? = some c)
    (outcome : DeliveryOutcome) (result : Option DeliveryResultMetadata)
    (response : Except EgressRuntimeError CallResult) (at_ : Nat) : Ends svc (.ending .call d) s .call d
      ((s.persistCallTerminal svc d outcome result
        (some (.recordOutcome own outcome at_ result))).finishCall d outcome result response) := by
  subst hown
  obtain ⟨hchain, hactives, hsame⟩ := concluded_chain svc .call at_ fun s' _ hsame =>
    overrideWith_eq svc s' (hsame ▸ hactive) outcome result
  have hstill := hactive
  rw [← hsame] at hstill
  refine ⟨hchain.trans (Micro.callFinished response hstill).chain, ?_⟩
  show ∀ m d', ((s.concluded svc (fun s' => s'.overrideWith svc s'.activeCalls own outcome result)
    own outcome result at_).finishCall own outcome result response).seen m d' = _
  obtain ⟨_, _, _, hend⟩ := finishCall_shape hstill outcome result response
  rw [hend]
  rintro (_ | _) d' <;> dsimp only [seen]
  · rw [hactives]
    simp
  · rw [BTreeMap.find_erase, hsame]
    by_cases hd : own = d'
    · simp [hd]
    · simp [hd, Ne.symm hd]

theorem forceCallTerminal_ends (hactive : s.activeCalls[d]? = some c) (outcome : DeliveryOutcome)
    (result : Option DeliveryResultMetadata) (response : Except EgressRuntimeError CallResult) :
    Ends svc (.ending .call d) s .call d (s.forceCallTerminal svc d outcome result response) :=
  (persistCallTerminal_ends (s := s.ticked) rfl hactive outcome result response
    (s.time svc).unixMs).after Micro.ticked.chain fun m d' _ => by cases m <;> rfl

theorem Ends.advanced (hends : Ends svc (.ending .emit d)
      { s with active := s.active.insert d (withState a state), tick := s.tick + 1 } .emit d s')
    (hfree : h.Releases .emit d) (hactive : s.active[d]? = some a) : Ends svc h s .emit d s' :=
  hends.after (Micro.advanced state hfree hactive).chain fun _ _ hne => seen_insert hne rfl rfl

theorem Ends.callAdvanced (hends : Ends svc (.ending .call d)
      { s with activeCalls := s.activeCalls.insert d (withState c state), tick := s.tick + 1 }
      .call d s')
    (hfree : h.Releases .call d) (hactive : s.activeCalls[d]? = some c) : Ends svc h s .call d s' :=
  hends.after (Micro.callAdvanced state hfree hactive).chain fun _ _ hne =>
    seen_insertCall hne rfl rfl

theorem find_moved (s : Engine σ Q A) (d : DeliveryId) (a : ActiveDelivery Q A) :
    ({ s with active := s.active.insert d a, tick := s.tick + 1 } : Engine σ Q A).active[d]? =
      some a :=
  BTreeMap.find_insert_self _ _ _

theorem find_movedCall (s : Engine σ Q A) (d : DeliveryId) (c : ActiveCall Q A) :
    ({ s with
      activeCalls := s.activeCalls.insert d c, tick := s.tick + 1 } :
        Engine σ Q A).activeCalls[d]? = some c :=
  BTreeMap.find_insert_self _ _ _

theorem failInternally_ends (state : LifecycleState) (hfree : h.Releases .emit d)
    (hactive : s.active[d]? = some a) :
    Ends svc h s .emit d ({ s with
      active := s.active.insert d (withState a state), tick := s.tick + 1 }.failInternally svc d) :=
  Ends.advanced (forceTerminal_ends (find_moved s d _) _ _) hfree hactive

theorem failCallInternally_ends (state : LifecycleState) (hfree : h.Releases .call d)
    (hactive : s.activeCalls[d]? = some c) :
    Ends svc h s .call d ({ s with
      activeCalls := s.activeCalls.insert d (withState c state)
      tick := s.tick + 1 }.failCallInternally svc d) :=
  Ends.callAdvanced (forceCallTerminal_ends (find_movedCall s d _) _ _ _) hfree hactive

/-- **`apply_terminal_event` ends the delivery**, with the event's own outcome or an internal failure. -/
theorem applyTerminalEvent_ends (svc : Services σ) (event : DeliveryEvent) (hk : Keyed s)
    (hfree : h.Releases .emit d) (hactive : s.active[d]? = some a) (hdrive : event ≠ .drive)
    (hretry : ∀ failure, event ≠ .retryable failure) :
    Ends svc h s .emit d (s.applyTerminalEvent svc d event) := by
  have hown := (hk.emit d a hactive).lifecycle
  have hmoved := a.lifecycle.transition_moved (s.time svc) event
  simp only [applyTerminalEvent, transition, hactive]
  generalize a.lifecycle.transition (s.time svc) event = moved at hmoved ⊢
  obtain ⟨answer, l⟩ := moved
  cases hmoved with
  | started _ | early _ _ => exact absurd rfl hdrive
  | parked _ _ => exact absurd rfl (hretry _)
  | ended _ _ _ _ =>
    exact Ends.advanced (persistTerminal_ends hown (find_moved s d _) _ _ _) hfree hactive
  | done _ | refused _ _ _ => exact failInternally_ends a.lifecycle.state hfree hactive

/-- **`apply_call_terminal_event` ends the call.** -/
theorem applyCallTerminalEvent_ends (svc : Services σ) (event : DeliveryEvent)
    (response : Except EgressRuntimeError CallResult) (hk : Keyed s) (hfree : h.Releases .call d)
    (hactive : s.activeCalls[d]? = some c) (hdrive : event ≠ .drive)
    (hretry : ∀ failure, event ≠ .retryable failure) :
    Ends svc h s .call d (s.applyCallTerminalEvent svc d event response) := by
  have hown := (hk.call d c hactive).lifecycle
  have hmoved := c.lifecycle.transition_moved (s.time svc) event
  simp only [applyCallTerminalEvent, callTransition, hactive]
  generalize c.lifecycle.transition (s.time svc) event = moved at hmoved ⊢
  obtain ⟨answer, l⟩ := moved
  cases hmoved with
  | started _ | early _ _ => exact absurd rfl hdrive
  | parked _ _ => exact absurd rfl (hretry _)
  | ended _ _ _ _ =>
    exact Ends.callAdvanced (persistCallTerminal_ends hown (find_movedCall s d _) _ _ _ _)
      hfree hactive
  | done _ | refused _ _ _ =>
    exact Ends.callAdvanced
      (forceCallTerminal_ends (find_movedCall s d (withState c c.lifecycle.state)) _ _ _) hfree
      hactive

/-! ## Attempts -/

theorem recordAttempt_chain (hk : Keyed s) (hactive : s.active[d]? = some a) (k time at_ : Nat) :
    Chain svc (.driven .emit d k time) s .idle
      (if isOk (s.persist svc (.recordAttempt d k at_)).1 = true then
        (s.persist svc (.recordAttempt d k at_)).2.spawnAttempt d k time
      else { (s.persist svc (.recordAttempt d k at_)).2 with
        persistenceDegraded := true }.applyTerminalEvent svc d (.failed .internal)) := by
  have hstill : (s.persist svc (.recordAttempt d k at_)).2.active[d]? = some a := hactive
  split
  · next hok => exact (Micro.recorded at_ hok).chain.trans (Micro.spawned hstill).chain
  · next hfail =>
    have hlost : Chain svc (.driven .emit d k time) s (.ending .emit d) _ :=
      (Micro.unrecorded at_ (Bool.eq_false_iff.mpr hfail)).chain
    have hends := applyTerminalEvent_ends svc (.failed .internal) (hk.chain hlost) .ending hstill
      (by simp) (by simp)
    exact hlost.trans hends.chain

theorem recordCallAttempt_chain (hactive : s.activeCalls[d]? = some c) (k time at_ : Nat) :
    Chain svc (.driven .call d k time) s .idle
      (if isOk (s.persist svc (.recordAttempt d k at_)).1 = true then
        (s.persist svc (.recordAttempt d k at_)).2.spawnCall d k time
      else { (s.persist svc (.recordAttempt d k at_)).2 with
        persistenceDegraded := true }.forceCallTerminal svc d (.failed .internal) none
          (.error (.deliveryLog .unavailable))) := by
  have hstill : (s.persist svc (.recordAttempt d k at_)).2.activeCalls[d]? = some c := hactive
  split
  · next hok => exact (Micro.recorded at_ hok).chain.trans (Micro.callSpawned hstill).chain
  · next hfail =>
    have hlost : Chain svc (.driven .call d k time) s (.ending .call d) _ :=
      (Micro.unrecorded at_ (Bool.eq_false_iff.mpr hfail)).chain
    refine hlost.trans (forceCallTerminal_ends (c := c) ?_ _ _ _).chain
    exact hstill

theorem startedAction_eq {ρ : Type} {a : Active Q A ρ} (hown : a.lifecycle.delivery = d)
    (at_ : Nat) : DeliveryPersistenceAction.recordAttempt a.lifecycle.delivery
      (min (a.lifecycle.attempts + 1) 65535) at_ = .recordAttempt d (nextAttempt a) at_ := by
  rw [hown, nextAttempt]

/-- **`start_attempt`**: the attempt is recorded and spawned, or the delivery ends, or it was too
    early. -/
theorem startAttempt_chain (hk : Keyed s) (hactive : s.active[d]? = some a) :
    Chain svc (.taken .emit d) s .idle (s.startAttempt svc d) := by
  have hown := (hk.emit d a hactive).lifecycle
  have hmoved := a.lifecycle.transition_moved (s.time svc) .drive
  -- a delivery that waits for a later time, or for nothing any more, is not due
  have hearly : ¬ a.lifecycle.Due (s.time svc) → Chain svc (.taken .emit d) s .idle
      { s with active := s.active.insert d a, tick := s.tick + 1 } := fun hdue =>
    (Micro.stranded hactive hdue).chain
  simp only [startAttempt, transition, hactive]
  generalize a.lifecycle.transition (s.time svc) .drive = moved at hmoved ⊢
  obtain ⟨answer, l⟩ := moved
  cases hmoved with
  | started hdue =>
    have hdrove : Chain svc _ _ _ _ := (Micro.drove hactive hdue).chain
    dsimp only [DeliveryLifecycle.startAttempt]
    rw [startedAction_eq hown]
    exact hdrove.trans (recordAttempt_chain (hk.chain hdrove) (find_moved s d _) _ _ _)
  | early hwait hlater =>
    refine hearly ?_
    rintro (hready | ⟨deadline, hdeadline, hdue⟩)
    · rw [hwait] at hready
      cases hready
    · rw [hwait] at hdeadline
      cases hdeadline
      exact hlater hdue
  | ended hend _ _ _ => cases hend
  | done hover =>
    refine hearly ?_
    rintro (hready | ⟨deadline, hdeadline, _⟩)
    · rw [hover] at hready
      cases hready
    · rw [hover] at hdeadline
      cases hdeadline
  | refused _ _ _ => exact (failInternally_ends a.lifecycle.state .taken hactive).chain

/-- **`start_call`**: the call is recorded and spawned, or it ends. -/
theorem startCall_chain (hk : Keyed s) (hactive : s.activeCalls[d]? = some c) :
    Chain svc (.taken .call d) s .idle (s.startCall svc d) := by
  have hown := (hk.call d c hactive).lifecycle
  have hmoved := c.lifecycle.transition_moved (s.time svc) .drive
  simp only [startCall, callTransition, hactive]
  generalize c.lifecycle.transition (s.time svc) .drive = moved at hmoved ⊢
  obtain ⟨answer, l⟩ := moved
  cases hmoved with
  | started hdue =>
    have hdrove : Chain svc _ _ _ _ := (Micro.callDrove hactive hdue).chain
    dsimp only [DeliveryLifecycle.startAttempt]
    rw [startedAction_eq hown]
    exact hdrove.trans (recordCallAttempt_chain (find_movedCall s d _) _ _ _)
  | ended hend _ _ _ => cases hend
  | early _ _ | done _ | refused _ _ _ =>
    exact (failCallInternally_ends c.lifecycle.state .taken hactive).chain

theorem returned_chain (hk : Keyed s) (hactive : s.active[d]? = some a) (disposition : AttemptDisposition) :
    Chain svc (.returned .emit d disposition) s .idle
      (s.applyReturned svc d (dispositionEvent disposition)) := by
  have hown := (hk.emit d a hactive).lifecycle
  have hmoved := a.lifecycle.transition_moved (s.time svc) (dispositionEvent disposition)
  have hfree : (Hand.returned .emit d disposition).Releases .emit d := .returned disposition
  simp only [applyReturned, transition, hactive]
  generalize hevent : dispositionEvent disposition = event at hmoved ⊢
  generalize a.lifecycle.transition (s.time svc) event = moved at hmoved ⊢
  obtain ⟨answer, l⟩ := moved
  cases hmoved with
  | started _ | early _ _ => cases disposition <;> cases hevent
  | parked hflight hleft =>
    cases disposition <;> cases hevent
    exact (Micro.parked hactive hflight hleft).chain
  | ended _ _ _ _ =>
    exact (Ends.advanced (persistTerminal_ends hown (find_moved s d _) _ _ _) hfree hactive).chain
  | done _ | refused _ _ _ =>
    exact (failInternally_ends a.lifecycle.state hfree hactive).chain

theorem callReturned_chain (hk : Keyed s) (hactive : s.activeCalls[d]? = some c)
    (disposition : AttemptDisposition) (raw : Option Bytes) :
    Chain svc (.returned .call d disposition) s .idle
      (s.applyCallReturned svc d (dispositionEvent disposition) raw) := by
  have hown := (hk.call d c hactive).lifecycle
  have hmoved := c.lifecycle.transition_moved (s.time svc) (dispositionEvent disposition)
  have hfree : (Hand.returned .call d disposition).Releases .call d := .returned disposition
  simp only [applyCallReturned, callTransition, hactive]
  generalize hevent : dispositionEvent disposition = event at hmoved ⊢
  generalize c.lifecycle.transition (s.time svc) event = moved at hmoved ⊢
  obtain ⟨answer, l⟩ := moved
  cases hmoved with
  | started _ | early _ _ => cases disposition <;> cases hevent
  | parked _ _ => exact (failCallInternally_ends _ hfree hactive).chain
  | ended _ _ _ _ =>
    exact (Ends.callAdvanced (persistCallTerminal_ends hown (find_movedCall s d _) _ _ _ _) hfree
      hactive).chain
  | done _ | refused _ _ _ =>
    exact (failCallInternally_ends c.lifecycle.state hfree hactive).chain

/-- **`complete_attempt`.** -/
theorem completeAttempt_chain (hk : Keyed s) (d : DeliveryId) (task : Nat) (completion : AttemptCompletion) :
    Chain svc (.back .emit d task completion.disposition) s .idle (s.completeAttempt svc d completion) := by
  unfold completeAttempt clearInFlight
  split
  · next hnone => exact (Micro.ignored fun a ha => by rw [hnone] at ha; cases ha).chain
  · next a hactive =>
    cases habort : a.abort with
    | none =>
      refine (Micro.ignored fun a' ha => ?_).chain
      rw [hactive] at ha
      cases ha
      exact habort
    | some handle =>
      have hcleared : Chain svc (.back .emit d task completion.disposition) s _ _ :=
        (Micro.cleared hactive habort).chain
      refine hcleared.trans (returned_chain (a := unhandled a) (hk.chain hcleared) ?_ _)
      rw [landed_active]
      exact BTreeMap.find_insert_self _ _ _

/-- **`complete_call`.** -/
theorem completeCall_chain (hk : Keyed s) (d : DeliveryId) (task : Nat) (completion : AttemptCompletion) :
    Chain svc (.back .call d task completion.disposition) s .idle (s.completeCall svc d completion) := by
  unfold completeCall clearCallInFlight
  split
  · next hnone => exact (Micro.callIgnored fun a ha => by rw [hnone] at ha; cases ha).chain
  · next c hactive =>
    cases habort : c.abort with
    | none =>
      refine (Micro.callIgnored fun c' hc => ?_).chain
      rw [hactive] at hc
      cases hc
      exact habort
    | some handle =>
      have hcleared : Chain svc (.back .call d task completion.disposition) s _ _ :=
        (Micro.callCleared hactive habort).chain
      exact hcleared.trans (callReturned_chain (c := unhandled c) (hk.chain hcleared)
        (BTreeMap.find_insert_self _ _ _) _ _)

end Ends

/-! ## The head of the loop -/

theorem popWaiting_waits {queue : List DeliveryId} (h : (s.popWaiting queue).1 = some d) :
    s.waiting d = true := by
  induction queue with
  | nil => cases h
  | cons first rest ih =>
    unfold popWaiting at h
    split at h
    · next hwaits =>
      cases h
      exact hwaits
    · exact ih h

theorem waiting_active (h : s.waiting d = true) : ∃ a, s.active[d]? = some a ∧ a.abort = none := by
  unfold waiting at h
  split at h
  · cases h
  · next a ha => exact ⟨a, ha, Option.isNone_iff_eq_none.mp h⟩

/-- What a round of `take_fair_ready` leaves in the engine's hand. -/
def inHand : Option DeliveryId → Hand
  | none => .idle
  | some d => .taken .emit d

/-- **`take_fair_ready`** takes a delivery that waits, or none. -/
theorem takeFairReadyLoop_chain (rounds : Nat) (s : Engine σ Q A)
    (hglobal : s.globalInFlight < svc.limits.globalInFlight) :
    Chain svc .idle s (inHand (takeFairReadyLoop svc rounds s).1) (takeFairReadyLoop svc rounds s).2 ∧
      ∀ d, (takeFairReadyLoop svc rounds s).1 = some d →
        ∃ a, (takeFairReadyLoop svc rounds s).2.active[d]? = some a := by
  induction rounds generalizing s with
  | zero => exact ⟨Chain.refl _ _, fun d h => nomatch h⟩
  | succ rounds ih =>
    unfold takeFairReadyLoop
    split
    · exact ⟨Chain.refl _ _, fun d h => nomatch h⟩
    · next route routes hroutes =>
      have hturn : Chain svc .idle s .idle _ := (Micro.rotated hroutes).chain
      split
      · obtain ⟨hrest, hactive⟩ := ih { s with readyRoutes := routes ++ [route] } hglobal
        exact ⟨hturn.trans hrest, hactive⟩
      · next hroute =>
        split
        · obtain ⟨hrest, hactive⟩ := ih { s with readyRoutes := routes ++ [route] } hglobal
          exact ⟨hturn.trans hrest, hactive⟩
        · next queue hqueue =>
          dsimp only
          split
          · next d hsome =>
            refine ⟨(Micro.took hroutes hqueue hsome (Nat.lt_of_not_le hroute) hglobal).chain, ?_⟩
            intro d' hd'
            cases hd'
            obtain ⟨a, ha, _⟩ := waiting_active (popWaiting_waits hsome)
            exact ⟨a, by rw [requeued_active]; exact ha⟩
          · next hnone =>
            have hskip : Chain svc .idle s .idle _ := (Micro.skipped hroutes hqueue hnone).chain
            have hsame : (s.requeued route routes (s.popWaiting queue).2).globalInFlight =
                s.globalInFlight := by
              unfold requeued
              split <;> rfl
            obtain ⟨hrest, hactive⟩ := ih _ (hsame ▸ hglobal)
            exact ⟨hskip.trans hrest, hactive⟩

/-- **`dispatch_ready`.** -/
theorem dispatchLoop_chain (rounds : Nat) (hk : Keyed s) :
    Chain svc .idle s .idle (dispatchLoop svc rounds s) := by
  induction rounds generalizing s with
  | zero => exact Chain.refl _ _
  | succ rounds ih =>
    unfold dispatchLoop
    split
    · next hglobal =>
      obtain ⟨htake, hactive⟩ := takeFairReadyLoop_chain s.readyRoutes.length s hglobal
      dsimp only [takeFairReady]
      split
      · next hnone =>
        rw [hnone] at htake
        exact htake
      · next d hsome =>
        rw [hsome] at htake
        obtain ⟨a, ha⟩ := hactive d hsome
        have hstart := htake.trans (startAttempt_chain (hk.chain htake) ha)
        exact hstart.trans (ih (hk.chain hstart))
    · exact Chain.refl _ _

/-! ## The rounds of `dispatch_ready` are enough

A round that starts a delivery has taken it out of a queue, and starting it puts nothing into one. -/

@[simp] theorem persist_ready (s : Engine σ Q A) (action : DeliveryPersistenceAction) :
    (s.persist svc action).2.ready = s.ready := by
  cases action <;> rfl

theorem persisted_ready (s : Engine σ Q A) (persistence : Option DeliveryPersistenceAction) :
    (s.persisted svc persistence).2.ready = s.ready := by
  cases persistence with
  | none => rfl
  | some action => exact persist_ready s action

theorem finishDelivery_ready (s : Engine σ Q A) (d : DeliveryId) (outcome : DeliveryOutcome)
    (result : Option DeliveryResultMetadata) : (s.finishDelivery d outcome result).ready = s.ready := by
  rcases hactive : s.active[d]? with _ | a
  · simp only [finishDelivery, hactive]
  · obtain ⟨_, _, _, _, _, heq⟩ := finishDelivery_shape hactive outcome result
    rw [heq]

/-- The end of a delivery, stored or not. -/
theorem secure_ready (s : Engine σ Q A) (persisted : Bool) (d : DeliveryId) (outcome : DeliveryOutcome)
    (result : Option DeliveryResultMetadata) :
    ((s.secure svc (fun s => s.insertOverride svc d outcome result) persisted d outcome result).finishDelivery d
      outcome result).ready = s.ready := by
  rw [finishDelivery_ready]
  unfold secure
  split
  · rfl
  · dsimp only
    split
    · rfl
    · dsimp only [insertOverride, overrideWith]
      split <;> rfl

theorem failInternally_ready (s : Engine σ Q A) (d : DeliveryId) :
    (s.failInternally svc d).ready = s.ready :=
  (secure_ready _ _ _ _ _).trans (persisted_ready _ _)

theorem transition_ready (s : Engine σ Q A) (d : DeliveryId) (event : DeliveryEvent) :
    (s.transition svc d event).2.ready = s.ready := by
  unfold transition
  split <;> rfl

theorem applyTerminalEvent_ready (s : Engine σ Q A) (d : DeliveryId) (event : DeliveryEvent) :
    (s.applyTerminalEvent svc d event).ready = s.ready := by
  unfold applyTerminalEvent
  dsimp only
  split
  · split
    · exact ((secure_ready _ _ _ _ _).trans (persisted_ready _ _)).trans (transition_ready s d event)
    · exact (failInternally_ready _ d).trans (transition_ready s d event)
  · exact (failInternally_ready _ d).trans (transition_ready s d event)

theorem spawnAttempt_ready (s : Engine σ Q A) (d : DeliveryId) (k time : Nat) :
    (s.spawnAttempt d k time).ready = s.ready := by
  unfold spawnAttempt
  split <;> rfl

theorem startAttempt_ready (s : Engine σ Q A) (d : DeliveryId) :
    (s.startAttempt svc d).ready = s.ready := by
  have hmoved : (s.transition svc d .drive).2.ready = s.ready := transition_ready s d .drive
  unfold startAttempt
  dsimp only
  split
  · split
    · exact hmoved
    · next persistence _ =>
      have hstored : ((s.transition svc d .drive).2.persist svc persistence).2.ready = s.ready :=
        (persist_ready _ _).trans hmoved
      split
      · split
        · exact (spawnAttempt_ready _ _ _ _).trans hstored
        · exact (failInternally_ready _ d).trans hstored
      · exact (applyTerminalEvent_ready _ d _).trans hstored
  · exact (failInternally_ready _ d).trans hmoved

theorem popWaiting_length (s : Engine σ Q A) (queue : List DeliveryId) :
    (s.popWaiting queue).2.length + (s.popWaiting queue).1.toList.length ≤ queue.length := by
  induction queue with
  | nil => exact le_rfl
  | cons d rest ih =>
    unfold popWaiting
    split
    · exact le_rfl
    · exact Nat.le_succ_of_le ih

theorem requeued_queued {route : RouteId} {queue : List DeliveryId} (hqueue : s.ready[route]? = some queue)
    (routes : List RouteId) (rest : List DeliveryId) :
    (s.requeued route routes rest).queued + queue.length = s.queued + rest.length := by
  unfold requeued
  split
  · next hempty =>
    subst hempty
    exact BTreeMap.sumOf_erase (fun _ queue => queue.length) hqueue
  · exact BTreeMap.sumOf_insert_replace (fun _ queue => queue.length) rest hqueue

theorem takeFairReadyLoop_queued (rounds : Nat) (s : Engine σ Q A) :
    (takeFairReadyLoop svc rounds s).2.queued + (takeFairReadyLoop svc rounds s).1.toList.length ≤ s.queued := by
  induction rounds generalizing s with
  | zero => exact le_rfl
  | succ rounds ih =>
    unfold takeFairReadyLoop
    split
    · exact le_rfl
    · next route routes _ =>
      split
      · exact ih _
      split
      · exact ih _
      · next queue hqueue =>
        have hlength := s.popWaiting_length queue
        have hqueued := requeued_queued hqueue routes (s.popWaiting queue).2
        dsimp only
        split
        · next d hsome =>
          rw [hsome] at hlength
          simp only [Option.toList_some, List.length_singleton] at hlength ⊢
          omega
        · exact (ih _).trans (by omega)

theorem takeFairReady_queued (s : Engine σ Q A) :
    (s.takeFairReady svc).2.queued + (s.takeFairReady svc).1.toList.length ≤ s.queued :=
  takeFairReadyLoop_queued _ s

/-- Rounds beyond the number of queued identifiers change nothing. -/
theorem dispatchLoop_enough {rounds rounds' : Nat} (h : s.queued < rounds) (h' : s.queued < rounds') :
    dispatchLoop svc rounds s = dispatchLoop svc rounds' s := by
  induction rounds generalizing s rounds' with
  | zero => exact absurd h (Nat.not_lt_zero _)
  | succ rounds ih =>
    obtain ⟨rounds', rfl⟩ := Nat.exists_eq_succ_of_ne_zero (Nat.ne_zero_of_lt h')
    unfold dispatchLoop
    split
    · dsimp only
      split
      · rfl
      · next d hsome =>
        have htaken : (s.takeFairReady svc).2.queued + _ ≤ s.queued := takeFairReady_queued s
        rw [hsome, Option.toList_some, List.length_singleton] at htaken
        have hstarted : ((s.takeFairReady svc).2.startAttempt svc d).queued = (s.takeFairReady svc).2.queued := by
          rw [queued, startAttempt_ready, queued]
        exact ih (by omega) (by omega)
    · rfl

/-- **`dispatch_ready` is its loop**: while there is room and a delivery waits, start it. -/
theorem dispatchReady_eq (s : Engine σ Q A) : s.dispatchReady svc =
    if s.globalInFlight < svc.limits.globalInFlight then
      match (s.takeFairReady svc).1 with
      | none => (s.takeFairReady svc).2
      | some delivery => ((s.takeFairReady svc).2.startAttempt svc delivery).dispatchReady svc
    else s := by
  rw [dispatchReady, dispatchLoop_enough (Nat.lt_succ_self _) (Nat.lt_add_of_pos_right Nat.two_pos), dispatchLoop]
  refine if_congr Iff.rfl ?_ rfl
  dsimp only
  cases (s.takeFairReady svc).1 with
  | none => rfl
  | some d =>
    refine dispatchLoop_enough ?_ (Nat.lt_succ_self _)
    rw [queued, startAttempt_ready]
    exact Nat.lt_succ_of_le ((Nat.le_add_right _ _).trans (takeFairReady_queued s))

theorem sent_chain (reply : Nat) {response : Response}
    (hresponse : ∀ d, response ≠ .receipt (.ok d)) : Chain svc h s h (s.send reply response) :=
  (Micro.sent reply response fun d hd => absurd hd (hresponse d)).chain

theorem completeDrain_chain (s : Engine σ Q A) (route : RouteId) :
    Chain svc .idle s .idle (s.completeDrain route) := by
  unfold completeDrain
  split
  · exact Chain.refl _ _
  · next drain _ =>
    refine (Micro.drained (s.drains.erase route)).chain.trans ?_
    split
    · exact (Micro.configured _).chain.trans (sent_chain _ (by simp))
    · exact sent_chain _ (by simp)

theorem foldl_chain {α : Type} {f : Engine σ Q A → α → Engine σ Q A}
    (hf : ∀ s x, Chain svc .idle s .idle (f s x)) (xs : List α) (s : Engine σ Q A) :
    Chain svc .idle s .idle (xs.foldl f s) := by
  induction xs generalizing s with
  | nil => exact Chain.refl _ _
  | cons x rest ih => exact (hf s x).trans (ih (f s x))

theorem dropStale_chain (s : Engine σ Q A) (retries : List (Nat × DeliveryId)) :
    Chain svc .idle { s with retries := retries } .idle
      { s with retries := retries.dropWhile fun entry => !s.validRetry entry } := by
  induction retries with
  | nil => exact Chain.refl _ _
  | cons entry rest ih =>
    rw [List.dropWhile_cons]
    split
    · next hstale =>
      have hinvalid : s.validRetry entry = false := by simpa using hstale
      have hdrop : Chain svc .idle { s with retries := entry :: rest } .idle
          { s with retries := rest } :=
        (Micro.retryDropped (s := { s with retries := entry :: rest }) rfl hinvalid).chain
      exact hdrop.trans ih
    · exact Chain.refl _ _

/-- **The head of the loop is a chain of effects.** -/
theorem settle_run (hk : Keyed s) : Chain svc .idle s .idle (s.settle svc) := by
  have hdispatch : Chain svc .idle s .idle (s.dispatchReady svc) := dispatchLoop_chain _ hk
  have hdrains : Chain svc .idle (s.dispatchReady svc) .idle
      (s.dispatchReady svc).completeEmptyDrains := foldl_chain completeDrain_chain _ _
  exact (hdispatch.trans hdrains).trans (dropStale_chain (s.dispatchReady svc).completeEmptyDrains _)

/-! ## Loops that end one delivery after the other -/

theorem seen_call {a : ActiveDelivery Q A} (h : s.seen .call d = some a) :
    ∃ c, s.activeCalls[d]? = some c ∧ anonymous c = a :=
  Option.map_eq_some_iff.mp h

theorem foldl_ends (svc : Services σ) (mode : OperationMode) (C : ActiveDelivery Q A → Prop)
    {f : Engine σ Q A → DeliveryId → Engine σ Q A}
    (hf : ∀ s d a, Keyed s → s.seen mode d = some a → C a → Ends svc .idle s mode d (f s d))
    {ds : List DeliveryId} (hnodup : ds.Nodup) (hk : Keyed s)
    (hall : ∀ d ∈ ds, ∃ a, s.seen mode d = some a ∧ C a) : Chain svc .idle s .idle (ds.foldl f s) := by
  induction ds generalizing s with
  | nil => exact Chain.refl _ _
  | cons d rest ih =>
    obtain ⟨hfresh, hnodup⟩ := List.nodup_cons.mp hnodup
    obtain ⟨a, ha, hc⟩ := hall d (List.mem_cons_self ..)
    have hends := hf s d a hk ha hc
    refine hends.chain.trans (ih hnodup (hk.chain hends.chain) fun d' hd' => ?_)
    -- the others are where they were
    have hne : d' ≠ d := fun heq => hfresh (heq ▸ hd')
    rw [hends.seen, if_neg (fun h => hne h.2)]
    exact hall d' (List.mem_cons_of_mem d hd')

end Engine

end Bondry.Runtime
