/-
  THE ARMS OF THE SELECT, each as `Begins` and a chain of effects.

  `handle_run` puts them together, and `invariant_run` is the rule everything about the engine's runs
  goes through: what the effects and the beginnings keep, every reachable state has.
-/
import Bondry.Lib.Run
import Bondry.Runtime.Simulation

namespace Bondry.Runtime

open Egress

namespace Engine

variable {σ Q A : Type} {svc : Services σ}

/-! ## Joins -/

variable {ρ : Type}

theorem mem_inFlight (lane : BTreeMap DeliveryId (Active Q A ρ)) (d : DeliveryId) :
    d ∈ inFlight lane ↔ ∃ a, lane[d]? = some a ∧ a.abort.isSome = true :=
  BTreeMap.mem_filter_keys lane _ d

theorem nodup_inFlight (lane : BTreeMap DeliveryId (Active Q A ρ)) : (inFlight lane).Nodup :=
  BTreeMap.nodup_filter_keys lane _

theorem mem_ofRoute (lane : BTreeMap DeliveryId (Active Q A ρ)) (route : RouteId) (d : DeliveryId) :
    d ∈ ofRoute lane route ↔ ∃ a, lane[d]? = some a ∧ a.parts.route = route := by
  unfold ofRoute
  rw [BTreeMap.mem_filter_keys]
  simp only [decide_eq_true_eq]

theorem nodup_ofRoute (lane : BTreeMap DeliveryId (Active Q A ρ)) (route : RouteId) :
    (ofRoute lane route).Nodup :=
  BTreeMap.nodup_filter_keys lane _

variable {s : Engine σ Q A} {d : DeliveryId}

theorem failAttempt_ends {a : ActiveDelivery Q A} (hk : Keyed s) (hactive : s.active[d]? = some a)
    (habort : a.abort.isSome = true) : Ends svc .idle s .emit d (s.failAttempt svc d) := by
  obtain ⟨task, htask⟩ := Option.isSome_iff_exists.mp habort
  have hfirst : Chain svc .idle s _ _ := (Micro.aborted hactive htask).chain
  have heq : s.abortInFlight d = { s with
      active := s.active.insert d (unhandled a)
      attempts := abortTask s.attempts task }.landed a.parts.route := by
    simp only [abortInFlight, hactive, htask]
    rfl
  unfold failAttempt
  rw [heq]
  have hends := applyTerminalEvent_ends (a := unhandled a) svc (.failed .internal) (hk.chain hfirst)
    .ending (by rw [landed_active]; exact BTreeMap.find_insert_self _ _ _) (by simp) (by simp)
  exact hends.after hfirst fun _ _ hne =>
    seen_insert hne (landed_active _ _) (landed_activeCalls _ _)

theorem failCall_ends {c : ActiveCall Q A} (hactive : s.activeCalls[d]? = some c)
    (habort : c.abort.isSome = true) : Ends svc .idle s .call d (s.failCall svc d) := by
  obtain ⟨task, htask⟩ := Option.isSome_iff_exists.mp habort
  have hfirst : Chain svc .idle s _ _ := (Micro.callAborted hactive htask).chain
  have heq : s.abortCall d = { s with
      activeCalls := s.activeCalls.insert d (unhandled c)
      calls := abortTask s.calls task }.callLanded := by
    simp only [abortCall, hactive, htask]
    rfl
  unfold failCall
  rw [heq]
  exact (forceCallTerminal_ends (c := unhandled c) (BTreeMap.find_insert_self _ _ _) _ _ _).after
    hfirst fun _ _ hne => seen_insertCall hne rfl rfl

/-- **A panicked task** ends every delivery in flight. -/
theorem panicked_run (hk : Keyed s) :
    Chain svc .idle s .idle ((inFlight s.active).foldl (failAttempt svc) s) :=
  foldl_ends svc .emit (fun a => a.abort.isSome = true)
    (fun _ _ _ hk ha hc => failAttempt_ends hk ha hc) (nodup_inFlight s.active) hk
    fun d hd => (mem_inFlight s.active d).mp hd

theorem seen_of_call {c : ActiveCall Q A} (h : s.activeCalls[d]? = some c) :
    s.seen .call d = some (anonymous c) := by
  simp [seen, h]

theorem callPanicked_run (hk : Keyed s) :
    Chain svc .idle s .idle ((inFlight s.activeCalls).foldl (failCall svc) s) := by
  refine foldl_ends svc .call (fun a => a.abort.isSome = true) ?_ (nodup_inFlight s.activeCalls) hk
    fun d hd => ?_
  · intro s d a hk ha hc
    obtain ⟨call, hcall, rfl⟩ := seen_call ha
    exact failCall_ends hcall hc
  · obtain ⟨call, hcall, habort⟩ := (mem_inFlight s.activeCalls d).mp hd
    exact ⟨anonymous call, seen_of_call hcall, habort⟩

/-- `handle_attempt_join`. -/
theorem attemptJoined_run (hk : Keyed s) (hrunning : s.exited = false) (task : Nat) (how : Joined A) :
    ∃ h s₁, Begins svc s (.attemptJoined task how) h s₁ ∧
      Chain svc h s₁ .idle (s.attemptJoined svc task how) := by
  unfold attemptJoined
  split
  · exact ⟨_, _, .nothing _, Chain.refl _ _⟩
  · next t htask =>
    split
    · next world =>
      refine ⟨_, _, .nothing _, ?_⟩
      split
      · exact Chain.refl _ _
      · next completion hdone =>
        have hjoined : Chain svc .idle s _ _ := (Micro.joined htask hdone).chain
        exact hjoined.trans (completeAttempt_chain (hk.chain hjoined) t.delivery task completion)
    · refine ⟨_, _, .nothing _, ?_⟩
      split
      · next haborted => exact (Micro.discarded htask haborted).chain
      · exact Chain.refl _ _
    · exact ⟨_, _, .lost hrunning htask,
        panicked_run (s := { s with attempts := s.attempts.erase task }) ⟨hk.emit, hk.call⟩⟩

/-- `handle_call_join`. -/
theorem callJoined_run (hk : Keyed s) (hrunning : s.exited = false) (task : Nat) (how : Joined A) :
    ∃ h s₁, Begins svc s (.callJoined task how) h s₁ ∧ Chain svc h s₁ .idle (s.callJoined svc task how) := by
  unfold callJoined
  split
  · exact ⟨_, _, .nothing _, Chain.refl _ _⟩
  · next t htask =>
    split
    · next world =>
      refine ⟨_, _, .nothing _, ?_⟩
      split
      · exact Chain.refl _ _
      · next completion hdone =>
        have hjoined : Chain svc .idle s _ _ := (Micro.callJoined htask hdone).chain
        exact hjoined.trans (completeCall_chain (hk.chain hjoined) t.delivery task completion)
    · refine ⟨_, _, .nothing _, ?_⟩
      split
      · next haborted => exact (Micro.callDiscarded htask haborted).chain
      · exact Chain.refl _ _
    · exact ⟨_, _, .callLost hrunning htask,
        callPanicked_run (s := { s with calls := s.calls.erase task }) ⟨hk.emit, hk.call⟩⟩

/-! ## Deadlines -/

theorem processRetries_chain {now : Nat} (entries : List (Nat × DeliveryId))
    (hretries : s.retries = entries) (hpast : ∃ i, i < s.tick ∧ now ≤ (svc.clock i).monotonic) :
    Chain svc .idle s .idle (processRetries now entries s) := by
  induction entries generalizing s with
  | nil => exact Chain.refl _ _
  | cons entry rest ih =>
    unfold processRetries
    split
    · next hdue =>
      dsimp only
      split
      · next hgone =>
        have hstale : s.validRetry entry = false := by
          unfold validRetry
          simp only [hgone]
        exact (Micro.retryDropped hretries hstale).chain.trans (ih rfl hpast)
      · next a hactive =>
        split
        · next hnext =>
          obtain ⟨i, hi, hnow⟩ := hpast
          have hback : Chain svc .idle s .idle _ :=
            (Micro.retryDue hretries hactive hnext ⟨i, hi, Nat.le_trans hdue hnow⟩).chain
          exact hback.trans (ih rfl ⟨i, hi, hnow⟩)
        · next hnext =>
          have hactive' : s.active[entry.2]? = some a := hactive
          have hstale : s.validRetry entry = false := by
            unfold validRetry
            simp only [hactive', hnext, decide_false]
          exact (Micro.retryDropped hretries hstale).chain.trans (ih rfl hpast)
    · exact Chain.refl _ _

theorem processRetryDeadlines_chain (s : Engine σ Q A) :
    Chain svc .idle s .idle (s.processRetryDeadlines svc) :=
  Micro.ticked.chain.trans
    (processRetries_chain s.retries rfl ⟨s.tick, Nat.lt_succ_self _, Nat.le_refl _⟩)

theorem terminalEvent_run (svc : Services σ) (event : DeliveryEvent) (hdrive : event ≠ .drive)
    (hretry : ∀ failure, event ≠ .retryable failure) {ds : List DeliveryId} (hnodup : ds.Nodup)
    (hk : Keyed s) (hall : ∀ d ∈ ds, ∃ a, s.active[d]? = some a) :
    Chain svc .idle s .idle (ds.foldl (fun s d => s.applyTerminalEvent svc d event) s) := by
  refine foldl_ends svc .emit (fun _ => True) (fun s d a hk ha _ => ?_) hnodup hk fun d hd => ?_
  · exact applyTerminalEvent_ends svc event hk .idle ha hdrive hretry
  · obtain ⟨a, ha⟩ := hall d hd
    exact ⟨a, ha, trivial⟩

theorem callTerminalEvent_run (svc : Services σ) {event : DeliveryEvent}
    {response : Except EgressRuntimeError CallResult} (hdrive : event ≠ .drive)
    (hretry : ∀ failure, event ≠ .retryable failure) {ds : List DeliveryId} (hnodup : ds.Nodup)
    (hk : Keyed s) (hall : ∀ d ∈ ds, ∃ c, s.activeCalls[d]? = some c) : Chain svc .idle s .idle
      (ds.foldl (fun s d => s.applyCallTerminalEvent svc d event response) s) := by
  refine foldl_ends svc .call (fun _ => True) (fun s d a hk ha _ => ?_) hnodup hk fun d hd => ?_
  · obtain ⟨call, hcall, rfl⟩ := seen_call ha
    exact applyCallTerminalEvent_ends svc event _ hk .idle hcall hdrive hretry
  · obtain ⟨call, hcall⟩ := hall d hd
    exact ⟨anonymous call, seen_of_call hcall, trivial⟩

/-- **An expired drain** ends everything of its route. -/
theorem expireDrain_run (hk : Keyed s) (route : RouteId) :
    Chain svc .idle s .idle (s.expireDrain svc route) := by
  have hemits : Chain svc .idle s .idle _ :=
    terminalEvent_run svc .cancel (by simp) (by simp) (nodup_ofRoute s.active route) hk
      fun d hd => ((mem_ofRoute s.active route d).mp hd).imp fun _ h => h.1
  exact hemits.trans (callTerminalEvent_run svc (by simp) (by simp) (nodup_ofRoute _ route)
    (hk.chain hemits) fun d hd => ((mem_ofRoute _ route d).mp hd).imp fun _ h => h.1)

theorem expireDrains_chain (hk : Keyed s) (routes : List RouteId) :
    Chain svc .idle s .idle (routes.foldl (expireDrain svc) s) := by
  induction routes generalizing s with
  | nil => exact Chain.refl _ _
  | cons route rest ih =>
    have hfirst : Chain svc .idle s .idle _ := expireDrain_run hk route
    exact hfirst.trans (ih (hk.chain hfirst))

theorem processDrainDeadlines_chain (hk : Keyed s) : Chain svc .idle s .idle (s.processDrainDeadlines svc) :=
  Micro.ticked.chain.trans (expireDrains_chain (s := s.ticked) ⟨hk.emit, hk.call⟩ _)

/-- **The shutdown deadline** ends everything. -/
theorem expireShutdown_run (hk : Keyed s) : Chain svc .idle s .idle (s.expireShutdown svc) := by
  have hemits : Chain svc .idle s .idle _ :=
    terminalEvent_run svc .shutdownDeadline (by simp) (by simp)
      (BTreeMap.nodup_keys s.active) hk fun d hd => (BTreeMap.mem_keys s.active d).mp hd
  exact hemits.trans (callTerminalEvent_run svc (by simp) (by simp) (BTreeMap.nodup_keys _)
    (hk.chain hemits) fun d hd => (BTreeMap.mem_keys _ d).mp hd)

theorem deadlinePassed_chain (hk : Keyed s) : Chain svc .idle s .idle (s.deadlinePassed svc) := by
  have hretry : Chain svc .idle s .idle (s.processRetryDeadlines svc) :=
    processRetryDeadlines_chain s
  have hdrain := hretry.trans (processDrainDeadlines_chain (hk.chain hretry))
  have hk' := hk.chain hdrain
  unfold deadlinePassed
  dsimp only
  refine hdrain.trans ?_
  generalize (s.processRetryDeadlines svc).processDrainDeadlines svc = s₁ at hk' ⊢
  split
  · exact Chain.refl _ _
  · split
    · exact Micro.ticked.chain.trans (expireShutdown_run (s := s₁.ticked) ⟨hk'.emit, hk'.call⟩)
    · exact Micro.ticked.chain

/-! ## Commands -/

/-- `handle_command` on an emit. -/
theorem emit_run (s : Engine σ Q A) (route : RouteId) (d : DeliveryId) (payload : Bytes) (reply : Nat) :
    ∃ h s₁, Begins svc s (.command (.emit route d payload reply)) h s₁ ∧
      Chain svc h s₁ .idle (s.handleCommand svc (.emit route d payload reply)) := by
  have hconfigured : ∀ registry, Chain svc .idle s .idle { s.ticked with registry := registry } :=
    fun registry => Micro.ticked.chain.trans (Micro.configured registry).chain
  simp only [handleCommand, admitEmit]
  split
  · exact ⟨_, _, .nothing _, sent_chain _ (by simp)⟩
  · next hhealthy =>
    have hhealthy : s.persistenceDegraded = false := Bool.eq_false_iff.mpr hhealthy
    generalize hadmitted : s.registry.admitDelivery svc.parse route d payload .emit (s.time svc).monotonic =
      admission
    obtain ⟨answer, registry⟩ := admission
    cases answer with
    | error error => exact ⟨_, _, .nothing _, (hconfigured registry).trans (sent_chain _ (by simp))⟩
    | ok parts =>
      dsimp only
      cases hroom : { s.ticked with registry := registry }.checkPendingCapacity svc route
          parts.payload.length with
      | error error =>
        exact ⟨_, _, .nothing _, (hconfigured registry).trans (sent_chain _ (by simp))⟩
      | ok _ =>
        cases hstored : ({ s.ticked with registry := registry }.persist svc
            (.insertIntent (parts.intent (s.time svc).unixMs))).1 with
        | error error =>
          have hown : (parts.intent (s.time svc).unixMs).delivery = d :=
            (RouteRegistry.admitDelivery_ok hadmitted).2.1
          exact ⟨_, _, .refused _ registry hhealthy
            ⟨route, payload, reply, .inl (by rw [hown])⟩ (congrArg isOk hstored),
            sent_chain _ (by simp)⟩
        | ok _ =>
          refine ⟨_, _, .emitted hhealthy hadmitted hroom (congrArg isOk hstored), ?_⟩
          refine (Micro.sent reply _ fun d' hd' => ?_).chain
          cases hd'
          exact ⟨_, _, List.mem_append_right _ (List.mem_singleton_self _)⟩

/-- `prepare_call`. -/
theorem prepareCall_run (svc : Services σ) (hk : Keyed s) (route : RouteId) (d : DeliveryId)
    (payload : Bytes) (reply : Nat) : ∃ h s₁, Begins svc s (.command (.call route d payload reply)) h s₁ ∧
      Chain svc h s₁ .idle (s.prepareCall svc route d payload reply).2 := by
  unfold prepareCall
  split
  · exact ⟨_, _, .nothing _, Chain.refl _ _⟩
  · next hhealthy =>
    have hhealthy : s.persistenceDegraded = false := Bool.eq_false_iff.mpr hhealthy
    cases s.registry.validateCallRoute route with
    | error error => exact ⟨_, _, .nothing _, Chain.refl _ _⟩
    | ok _ =>
      dsimp only
      split
      · exact ⟨_, _, .nothing _, Chain.refl _ _⟩
      · next hroom =>
        generalize hadmitted : s.registry.admitDelivery svc.parse route d payload .call
          (s.time svc).monotonic = admission
        obtain ⟨answer, registry⟩ := admission
        cases answer with
        | error error =>
          exact ⟨_, _, .nothing _, Micro.ticked.chain.trans (Micro.configured registry).chain⟩
        | ok parts =>
          dsimp only
          obtain ⟨hroute, hown, hmode, hretry, -⟩ := RouteRegistry.admitDelivery_ok hadmitted
          cases hstored : ({ s.ticked with registry := registry }.persist svc
              (.insertIntent (parts.intent (s.time svc).unixMs))).1 with
          | error error =>
            exact ⟨_, _, .refused (parts.intent (s.time svc).unixMs) registry hhealthy
              ⟨route, payload, reply, .inr (by rw [← hown]; rfl)⟩ (congrArg isOk hstored),
              Chain.refl _ _⟩
          | ok _ =>
            refine ⟨_, _, .called hhealthy hadmitted (Nat.lt_of_not_le hroom)
              (congrArg isOk hstored), startCall_chain ?_ (BTreeMap.find_insert_self _ _ _)⟩
            exact ⟨hk.emit, filed_insert hk.call ⟨hown, hmode, hown, rfl, rfl, hretry⟩⟩

/-- `handle_command` on a call. -/
theorem call_run (hk : Keyed s) (route : RouteId) (d : DeliveryId) (payload : Bytes) (reply : Nat) :
    ∃ h s₁, Begins svc s (.command (.call route d payload reply)) h s₁ ∧
      Chain svc h s₁ .idle (s.handleCommand svc (.call route d payload reply)) := by
  obtain ⟨h, s₁, hbegins, hchain⟩ := prepareCall_run svc hk route d payload reply
  refine ⟨h, s₁, hbegins, hchain.trans ?_⟩
  simp only [handleCommand, admitCall]
  split
  · exact sent_chain _ (by simp)
  · exact Chain.refl _ _

/-- `handle_command` on everything else leaves the deliveries alone. -/
theorem question_chain (s : Engine σ Q A) {command : Command Q A}
    (hemit : ∀ route d payload reply, command ≠ .emit route d payload reply)
    (hcall : ∀ route d payload reply, command ≠ .call route d payload reply) :
    Chain svc .idle s .idle (s.handleCommand svc command) := by
  have hdone : ∀ answer d, registryAnswer answer ≠ .receipt (.ok d) := by
    rintro (_ | _) d <;> simp [registryAnswer]
  cases command with
  | register route reply =>
    exact (Micro.configured _).chain.trans (sent_chain _ (hdone _))
  | enable route reply =>
    simp only [handleCommand]
    split
    · exact sent_chain _ (by simp)
    · exact (Micro.configured _).chain.trans (sent_chain _ (hdone _))
  | drain route remove reply =>
    simp only [handleCommand, beginDrain]
    split
    · exact sent_chain _ (by simp)
    split
    · exact (Micro.configured _).chain.trans (sent_chain _ (by simp))
    · refine (Micro.configured (s.registry.setEnabled route false).2).chain.trans ?_
      split
      · split
        · exact (Micro.configured _).chain.trans (sent_chain _ (by simp))
        · exact sent_chain _ (by simp)
      · exact Micro.ticked.chain.trans (Micro.drained _).chain
  | routes reply => exact sent_chain _ (by simp)
  | emit route d payload reply => exact absurd rfl (hemit route d payload reply)
  | call route d payload reply => exact absurd rfl (hcall route d payload reply)
  | delivery d reply =>
    simp only [handleCommand, deliveryStatus]
    split
    · exact sent_chain _ (by simp)
    · exact (Micro.looked d).chain.trans (sent_chain _ (by simp))

/-! ## Shutdown -/

theorem beginStopping_chain (s : Engine σ Q A) : Chain svc .idle s .idle (s.beginStopping svc) :=
  Micro.ticked.chain.trans (Micro.stopped _).chain

theorem rejectCommand_chain (s : Engine σ Q A) (command : Command Q A) :
    Chain svc .idle s .idle (s.rejectCommand command) := by
  cases command <;> exact sent_chain _ (by simp)

theorem rejectDrains_chain (s : Engine σ Q A) : Chain svc .idle s .idle s.rejectDrainsForShutdown :=
  (Micro.drained ∅).chain.trans (foldl_chain (fun s drain => sent_chain _ (by simp)) _ _)

/-! ## The arms together -/

/-- **The arm of the select is what its label begins, and a chain of effects.** -/
theorem handle_run (svc : Services σ) (hk : Keyed s) (label : Label Q A) :
    ∃ h s₁, Begins svc s label h s₁ ∧ Chain svc h s₁ .idle (s.handle svc label) := by
  have hnothing : ∀ {s' : Engine σ Q A}, Chain svc .idle s .idle s' →
      ∃ h s₁, Begins svc s label h s₁ ∧ Chain svc h s₁ .idle s' :=
    fun hchain => ⟨_, _, .nothing label, hchain⟩
  unfold handle
  split
  · exact hnothing (Chain.refl _ _)
  next hrunning =>
  have hrunning : s.exited = false := Bool.eq_false_iff.mpr hrunning
  cases label with
  | shutdown queued =>
    dsimp only
    split
    · exact hnothing (Chain.refl _ _)
    · exact hnothing (((beginStopping_chain s).trans (foldl_chain rejectCommand_chain _ _)).trans
        (rejectDrains_chain _))
  | command command =>
    dsimp only
    split
    · exact hnothing (Chain.refl _ _)
    · cases command with
      | emit route d payload reply => exact emit_run s route d payload reply
      | call route d payload reply => exact call_run hk route d payload reply
      | register | enable | drain | routes | delivery =>
        exact hnothing (question_chain s (by simp) (by simp))
  | closed =>
    dsimp only
    split
    · exact hnothing (Chain.refl _ _)
    · exact hnothing ((beginStopping_chain s).trans (rejectDrains_chain _))
  | attemptJoined task how => exact attemptJoined_run hk hrunning task how
  | callJoined task how => exact callJoined_run hk hrunning task how
  | deadline =>
    dsimp only
    split
    · exact hnothing (deadlinePassed_chain hk)
    · exact hnothing (Chain.refl _ _)

theorem Keyed.begins {s₁ : Engine σ Q A} {label : Label Q A} {h : Hand} (hk : Keyed s)
    (hbegins : Begins svc s label h s₁) : Keyed s₁ := by
  cases hbegins with
  | nothing | refused | lost | callLost => exact ⟨hk.emit, hk.call⟩
  | emitted _ hadmitted _ _ =>
    obtain ⟨hroute, hown, hmode, hretry, -⟩ := RouteRegistry.admitDelivery_ok hadmitted
    exact ⟨filed_insert hk.emit ⟨hown, hmode, hown, rfl, rfl, (fun h => nomatch h)⟩, hk.call⟩
  | called _ hadmitted _ _ =>
    obtain ⟨hroute, hown, hmode, hretry, -⟩ := RouteRegistry.admitDelivery_ok hadmitted
    exact ⟨hk.emit, filed_insert hk.call ⟨hown, hmode, hown, rfl, rfl, hretry⟩⟩

theorem Keyed.handle (hk : Keyed s) (label : Label Q A) : Keyed (s.handle svc label) := by
  obtain ⟨h, s₁, hbegins, hchain⟩ := handle_run svc hk label
  exact (hk.begins hbegins).chain hchain

theorem keyed_new (registry : RouteRegistry Q A) (log : σ) : Keyed (Engine.new registry log) :=
  ⟨fun d a h => by simp [Engine.new] at h, fun d a h => by simp [Engine.new] at h⟩

/-! ## Invariants of runs -/

/-- The invariant is kept by every micro-step. -/
def KeptByMicro (svc : Services σ) (Inv : Hand → Engine σ Q A → Prop) : Prop :=
  ∀ h s h' s', Keyed s → Micro svc h s h' s' → Inv h s → Inv h' s'

/-- What every beginning keeps, of the labels that meet `C`. -/
def KeptByBegins (svc : Services σ) (C : Engine σ Q A → Label Q A → Prop)
    (Inv : Hand → Engine σ Q A → Prop) : Prop :=
  ∀ s label h s₁, Keyed s → C s label → Begins svc s label h s₁ → Inv .idle s → Inv h s₁

variable {Inv : Hand → Engine σ Q A → Prop}

theorem KeptByMicro.chain (hmicro : KeptByMicro svc Inv) {h h' : Hand} {s' : Engine σ Q A}
    (hk : Keyed s) (hchain : Chain svc h s h' s') (hinv : Inv h s) : Inv h' s' :=
  (hchain.keeps (fun h s => Keyed s ∧ Inv h s)
    (fun h s h' s' hm hboth => ⟨hboth.1.micro hm, hmicro h s h' s' hboth.1 hm hboth.2⟩)
    ⟨hk, hinv⟩).2

theorem KeptByMicro.handle {C : Engine σ Q A → Label Q A → Prop} (hmicro : KeptByMicro svc Inv)
    (hbegins : KeptByBegins svc C Inv) {label : Label Q A} (hk : Keyed s) (hc : C s label)
    (hinv : Inv .idle s) : Inv .idle (s.handle svc label) := by
  obtain ⟨h, s₁, hbegin, hchain⟩ := handle_run svc hk label
  exact hmicro.chain (hk.begins hbegin) hchain (hbegins s label h s₁ hk hc hbegin hinv)

/-- **The invariant rule for runs.**  What the effects keep and every handler keeps holds whenever the
    engine waits. -/
theorem invariant_run {C : Engine σ Q A → Label Q A → Prop} (hmicro : KeptByMicro svc Inv)
    (hhandle : ∀ s label, Keyed s → C s label → Inv .idle s → Inv .idle (s.handle svc label))
    {registry : RouteRegistry Q A} {log : σ} (hnew : Inv .idle (Engine.new registry log))
    {labels : List (Label Q A)} (hall : All (step svc) C (start svc registry log) labels) :
    Keyed (run (step svc) (start svc registry log) labels) ∧
      Inv .idle (run (step svc) (start svc registry log) labels) := by
  have hsettle : ∀ s : Engine σ Q A, Keyed s → Inv .idle s →
      Keyed (s.settle svc) ∧ Inv .idle (s.settle svc) := fun s hk hinv =>
    ⟨hk.chain (settle_run hk), hmicro.chain hk (settle_run hk) hinv⟩
  refine hall.run (fun s => Keyed s ∧ Inv .idle s) (fun s label hboth hc => ?_)
    (hsettle _ (keyed_new registry log) hnew)
  unfold step
  split
  · exact hboth
  · exact hsettle _ (hboth.1.handle label) (hhandle s label hboth.1 hc hboth.2)

end Engine

end Bondry.Runtime
