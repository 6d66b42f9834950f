/-
  THE LOG BEHIND THE ENGINE.

  Over a lawful log that no one else writes to, everything the engine has accepted and not ended yet is
  PENDING in the log (`Backed`): the record is written before the entry is made, an attempt keeps it
  pending, and it only becomes terminal on the way out, while the delivery is in the engine's hand.

  A lawful log never overwrites a pending record, so what it lets in is not active already (`fresh`).
  This is why an identifier that the host uses twice does no harm to the books.
-/
import Bondry.Contract.Delivery
import Bondry.Runtime.Arms

namespace Bondry

theorem Effect.pending_of_attempted {α : Type} {n : Nat} {answer : Except DeliveryLogError α}
    {before after : Option DeliveryRecord} (h : Effect (Attempted n) answer before after)
    (hp : Pending before) : Pending after := by
  cases answer with
  | ok _ => exact Attempted.pending h
  | error _ =>
    rcases h with hkept | hdone
    · exact hkept.pending hp
    · exact hdone.pending

theorem Effect.pending_of_inserted {α : Type} {intent : DeliveryIntent}
    {answer : Except DeliveryLogError α} {before after : Option DeliveryRecord}
    (h : Effect (Inserted intent) answer before after) (hp : Pending before) : Pending after := by
  cases answer with
  | ok _ => exact absurd h.1 hp.not_settled
  | error _ =>
    rcases h with hkept | hdone
    · exact hkept.pending hp
    · exact absurd hdone.1 hp.not_settled

namespace Runtime

open Egress

namespace Engine

variable {σ Q A : Type} {svc : Services σ}

/-- The engine has an entry of the delivery. -/
def holds (s : Engine σ Q A) : OperationMode → DeliveryId → Bool
  | .emit, d => s.active[d]?.isSome
  | .call, d => s.activeCalls[d]?.isSome

/-- The delivery is on its way out, with its end already offered to the log. -/
def Hand.closes : Hand → DeliveryId → Bool
  | .doubted _ d _ _, d' | .secured _ d _ _, d' => decide (d = d')
  | _, _ => false

/-- **Everything active is pending in the log**, and in one lane only. -/
structure Backed (records : σ → DeliveryId → Option DeliveryRecord) (h : Hand)
    (s : Engine σ Q A) : Prop where
  pending : ∀ mode d, s.holds mode d = true → h.closes d = false → Pending (records s.log d)
  apart : ∀ d, s.holds .emit d = true → s.holds .call d = false

variable {records : σ → DeliveryId → Option DeliveryRecord}

variable {h : Hand} {s s' : Engine σ Q A}

theorem Backed.same {h' : Hand} (hb : Backed records h s)
    (hholds : ∀ mode d, s'.holds mode d = s.holds mode d)
    (hlog : ∀ d, h'.closes d = false → h.closes d = false ∧
      (Pending (records s.log d) → Pending (records s'.log d))) : Backed records h' s' := by
  refine ⟨fun mode d hd hopen => ?_, fun d hd => ?_⟩
  · rw [hholds] at hd
    obtain ⟨hwas, hkeeps⟩ := hlog d hopen
    exact hkeeps (hb.pending mode d hd hwas)
  · rw [hholds] at hd ⊢
    exact hb.apart d hd

variable {d : DeliveryId}

theorem Hand.Releases.closes {mode : OperationMode} {d' : DeliveryId} (hfree : h.Releases mode d) :
    h.closes d' = false := by
  cases hfree <;> rfl

theorem isSome_insert {ρ : Type} {lane : BTreeMap DeliveryId (Active Q A ρ)} {a a' : Active Q A ρ}
    (hactive : lane[d]? = some a) (d' : DeliveryId) : (lane.insert d a')[d']?.isSome = lane[d']?.isSome := by
  rw [BTreeMap.find_insert]
  split
  · next heq =>
    rw [← heq, hactive]
    rfl
  · rfl

theorem holds_emit {a a' : ActiveDelivery Q A} (hactive : s.active[d]? = some a)
    (hmap : s'.active = s.active.insert d a') (hcalls : s'.activeCalls = s.activeCalls)
    (mode : OperationMode) (d' : DeliveryId) : s'.holds mode d' = s.holds mode d' := by
  cases mode with
  | emit =>
    show s'.active[d']?.isSome = _
    rw [hmap]
    exact isSome_insert hactive d'
  | call =>
    show s'.activeCalls[d']?.isSome = _
    rw [hcalls]
    rfl

theorem holds_call {a a' : ActiveCall Q A} (hactive : s.activeCalls[d]? = some a)
    (hmap : s'.activeCalls = s.activeCalls.insert d a') (hemits : s'.active = s.active)
    (mode : OperationMode) (d' : DeliveryId) : s'.holds mode d' = s.holds mode d' := by
  cases mode with
  | emit =>
    show s'.active[d']?.isSome = _
    rw [hemits]
    rfl
  | call =>
    show s'.activeCalls[d']?.isSome = _
    rw [hmap]
    exact isSome_insert hactive d'

theorem holds_same (hactive : s'.active = s.active) (hcalls : s'.activeCalls = s.activeCalls)
    (mode : OperationMode) (d : DeliveryId) : s'.holds mode d = s.holds mode d := by
  cases mode with
  | emit =>
    show s'.active[d]?.isSome = _
    rw [hactive]
    rfl
  | call =>
    show s'.activeCalls[d]?.isSome = _
    rw [hcalls]
    rfl

theorem lookup_pending (hlaw : LawfulLog svc.log records) (s : Engine σ Q A) (d d' : DeliveryId)
    (hp : Pending (records s.log d')) : Pending (records (s.lookup svc d).2.log d') :=
  (hlaw.lookup_keeps d s.log d').pending hp

theorem attempt_pending (hlaw : LawfulLog svc.log records) (s : Engine σ Q A) (d d' : DeliveryId)
    (k at_ : Nat) (hp : Pending (records s.log d')) :
    Pending (records (s.persist svc (.recordAttempt d k at_)).2.log d') := by
  by_cases hd : d' = d
  · subst hd
    exact (hlaw.attempt_at d' k at_ s.log).pending_of_attempted hp
  · exact (hlaw.attempt_other d k at_ s.log d' hd).pending hp

theorem Backed.ended (hb : Backed records h s) (mode : OperationMode)
    (hthere : s.holds mode d = true) (hclosed : ∀ d', d ≠ d' → h.closes d' = false) (hlog : s'.log = s.log)
    (hholds : ∀ m d', s'.holds m d' = if m = mode ∧ d = d' then false else s.holds m d') :
    Backed records .idle s' := by
  refine ⟨fun m d' hd' _ => ?_, fun d' hd' => ?_⟩
  · rw [hholds] at hd'
    split at hd'
    · cases hd'
    · next hnot =>
      -- in the other lane there is nothing under this identifier
      have hne : d ≠ d' := by
        rintro rfl
        cases mode <;> cases m
        · exact hnot ⟨rfl, rfl⟩
        · exact absurd hd' (by rw [hb.apart d hthere]; decide)
        · exact absurd hthere (by rw [hb.apart d hd']; decide)
        · exact hnot ⟨rfl, rfl⟩
      rw [hlog]
      exact hb.pending m d' hd' (hclosed d' hne)
  · rw [hholds] at hd' ⊢
    split
    · rfl
    · split at hd'
      · cases hd'
      · exact hb.apart d' hd'

/-- **Every effect keeps what is active pending.** -/
theorem backed_kept (hlaw : LawfulLog svc.log records) :
    KeptByMicro (Q := Q) (A := A) svc (Backed records) := by
  intro h s h' s' _ hm hb
  have hopen : ∀ d, Pending (records s.log d) → Pending (records s.log d) := fun _ hp => hp
  cases hm with
  | ticked | sent | configured | drained | stopped | rotated | discarded | callDiscarded |
    retryDropped | retryDue =>
    exact hb.same (holds_same rfl rfl) fun d hd => ⟨hd, hopen d⟩
  | ignored | callIgnored | joined | callJoined =>
    exact hb.same (holds_same rfl rfl) fun d _ => ⟨rfl, hopen d⟩
  | looked d =>
    exact hb.same (holds_same rfl rfl) fun d' hd' => ⟨hd', lookup_pending hlaw s d d'⟩
  | confirmed _ | overrode _ _ _ =>
    exact hb.same (holds_same rfl rfl) fun d' hd' => ⟨hd', lookup_pending hlaw s _ d'⟩
  | recorded at_ _ | unrecorded at_ _ =>
    exact hb.same (holds_same rfl rfl) fun d' _ => ⟨rfl, attempt_pending hlaw s _ d' _ at_⟩
  | @stored _ mode d outcome result at_ _ | @unstored _ mode d outcome result at_ _ =>
    refine hb.same (holds_same rfl rfl) fun d' hd' => ⟨rfl, fun hp => ?_⟩
    have hne : d' ≠ d := fun heq => by simp [Hand.closes, heq] at hd'
    exact (hlaw.outcome_other d outcome at_ result s.log d' hne).pending hp
  | @skipped _ route routes queue | @took _ route routes queue =>
    obtain ⟨_, _, heq⟩ := s.requeued_shape route routes (s.popWaiting queue).2
    rw [heq]
    exact hb.same (holds_same rfl rfl) fun d _ => ⟨rfl, hopen d⟩
  | drove hactive _ | stranded hactive _ | parked hactive _ _ =>
    exact hb.same (holds_emit hactive rfl rfl) fun d _ => ⟨rfl, hopen d⟩
  | callDrove hactive _ =>
    exact hb.same (holds_call hactive rfl rfl) fun d _ => ⟨rfl, hopen d⟩
  | advanced _ hfree hactive =>
    exact hb.same (holds_emit hactive rfl rfl) fun d _ => ⟨hfree.closes, hopen d⟩
  | callAdvanced _ hfree hactive =>
    exact hb.same (holds_call hactive rfl rfl) fun d _ => ⟨hfree.closes, hopen d⟩
  | spawned hactive =>
    rw [spawnAttempt_eq hactive]
    exact hb.same (holds_emit hactive rfl rfl) fun d _ => ⟨rfl, hopen d⟩
  | callSpawned hactive =>
    rw [spawnCall_eq hactive]
    exact hb.same (holds_call hactive rfl rfl) fun d _ => ⟨rfl, hopen d⟩
  | cleared hactive _ | aborted hactive _ =>
    obtain ⟨_, _, _, heq⟩ := landed_shape _ _
    rw [heq]
    exact hb.same (holds_emit hactive rfl rfl) fun d _ => ⟨rfl, hopen d⟩
  | callCleared hactive _ | callAborted hactive _ =>
    exact hb.same (holds_call hactive rfl rfl) fun d _ => ⟨rfl, hopen d⟩
  | @finished _ d _ _ _ hactive =>
    obtain ⟨_, _, _, _, _, heq⟩ := finishDelivery_shape hactive _ _
    rw [heq]
    refine hb.ended .emit (d := d) (by simp [holds, hactive])
      (fun d' hd' => by simp [Hand.closes, hd']) rfl fun m d' => ?_
    cases m with
    | emit =>
      show (s.active.erase d)[d']?.isSome = _
      by_cases hd : d = d' <;> simp [hd, holds]
    | call => simp [holds]
  | @callFinished _ d _ _ _ response hactive =>
    obtain ⟨_, _, _, heq⟩ := finishCall_shape hactive _ _ response
    rw [heq]
    refine hb.ended .call (d := d) (by simp [holds, hactive])
      (fun d' hd' => by simp [Hand.closes, hd']) rfl fun m d' => ?_
    cases m with
    | emit => simp [holds]
    | call =>
      show (s.activeCalls.erase d)[d']?.isSome = _
      rw [BTreeMap.find_erase]
      by_cases hd : d = d' <;> simp [hd, holds]

/-! ## Admissions -/

theorem isOk_true {ε α : Type} {answer : Except ε α} (h : isOk answer = true) :
    ∃ value, answer = .ok value := by
  cases answer with
  | ok value => exact ⟨value, rfl⟩
  | error _ => cases h

/-- **What a lawful log lets in is not active already**, in neither lane. -/
theorem Backed.fresh (hlaw : LawfulLog svc.log records) (hb : Backed records .idle s)
    {intent : DeliveryIntent} (hok : isOk (s.persist svc (.insertIntent intent)).1 = true)
    (mode : OperationMode) : s.holds mode intent.delivery = false := by
  obtain ⟨_, hanswer⟩ := isOk_true hok
  have heffect := hlaw.insert_at intent s.log
  rw [show (svc.log.insertIntent intent s.log).1 = .ok _ from hanswer] at heffect
  by_contra hheld
  have hp := hb.pending mode intent.delivery (by simpa using hheld) rfl
  exact hp.not_settled heffect.1

theorem insert_pending (hlaw : LawfulLog svc.log records) (s : Engine σ Q A)
    (intent : DeliveryIntent) (d : DeliveryId) (hp : Pending (records s.log d)) :
    Pending (records (s.persist svc (.insertIntent intent)).2.log d) := by
  by_cases hd : d = intent.delivery
  · subst hd
    exact (hlaw.insert_at intent s.log).pending_of_inserted hp
  · exact (hlaw.insert_other intent s.log d hd).pending hp

theorem Backed.entered (hlaw : LawfulLog svc.log records) (hb : Backed records .idle s)
    {intent : DeliveryIntent} (hok : isOk (s.persist svc (.insertIntent intent)).1 = true)
    (mode : OperationMode) (hlog : s'.log = (s.persist svc (.insertIntent intent)).2.log)
    (hholds : ∀ m d, s'.holds m d =
      if m = mode ∧ intent.delivery = d then true else s.holds m d) : Backed records h s' := by
  have hfresh := hb.fresh hlaw hok
  obtain ⟨_, hanswer⟩ := isOk_true hok
  have heffect := hlaw.insert_at intent s.log
  rw [show (svc.log.insertIntent intent s.log).1 = .ok _ from hanswer] at heffect
  refine ⟨fun m d hd _ => ?_, fun d hd => ?_⟩
  · rw [hlog]
    by_cases heq : intent.delivery = d
    · subst heq
      exact Inserted.pending heffect
    · rw [hholds, if_neg (fun hboth => heq hboth.2)] at hd
      exact insert_pending hlaw s intent d (hb.pending m d hd rfl)
  · by_cases heq : intent.delivery = d
    · subst heq
      rw [hholds, hfresh] at hd
      rw [hholds, hfresh]
      -- it is in the one lane it entered, which is the emit lane
      have hmode : mode = .emit := by
        by_contra hne
        rw [if_neg (fun hboth => hne hboth.1.symm)] at hd
        cases hd
      rw [if_neg (by rw [hmode]; simp)]
    · rw [hholds, if_neg (fun hboth => heq hboth.2)] at hd ⊢
      exact hb.apart d hd

/-- **Every beginning keeps what is active pending.** -/
theorem backed_begins (hlaw : LawfulLog svc.log records) :
    KeptByBegins (Q := Q) (A := A) svc (fun _ _ => True) (Backed records) := by
  intro s label h s₁ _ _ hbegins hb
  cases hbegins with
  | nothing => exact hb
  | lost | callLost => exact hb.same (holds_same rfl rfl) fun d _ => ⟨rfl, fun hp => hp⟩
  | refused intent registry _ _ _ =>
    exact hb.same (holds_same rfl rfl) fun d _ => ⟨rfl, insert_pending hlaw s intent d⟩
  | @emitted _ d _ _ parts _ _ hadmitted _ hok =>
    have hown : parts.delivery = d := (RouteRegistry.admitDelivery_ok hadmitted).2.1
    refine hb.entered hlaw hok .emit rfl fun m d' => ?_
    rw [show (parts.intent (s.time svc).unixMs).delivery = d from hown]
    cases m with
    | emit =>
      show (s.active.insert d _)[d']?.isSome = _
      by_cases hd : d = d' <;> simp [hd, holds]
    | call => simp [holds, acceptEmit, withUsage, enqueueReady, note, ticked, persist]
  | @called _ d _ _ parts _ _ hadmitted _ hok =>
    have hown : parts.delivery = d := (RouteRegistry.admitDelivery_ok hadmitted).2.1
    refine hb.entered hlaw hok .call rfl fun m d' => ?_
    rw [show (parts.intent (s.time svc).unixMs).delivery = d from hown]
    cases m with
    | emit => simp [holds, acceptCall, withUsage, note, ticked, persist]
    | call =>
      show (s.activeCalls.insert d _)[d']?.isSome = _
      rw [BTreeMap.find_insert]
      by_cases hd : d = d' <;> simp [hd, holds]

theorem backed_new (registry : RouteRegistry Q A) (log : σ) :
    Backed records .idle (Engine.new registry log) := by
  refine ⟨fun mode d hd _ => ?_, fun d hd => ?_⟩
  · cases mode <;> simp [holds, Engine.new] at hd
  · simp [holds, Engine.new] at hd

end Engine

end Runtime

end Bondry
