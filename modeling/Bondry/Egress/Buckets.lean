/-
  THE ADMISSION BUCKETS are exact (`route.rs`, `RouteRegistry::admit` and `TokenBucket`).

  The code counts in units of a billionth of a token and refills when an emit comes by.  Beside the
  registry a run carries, for the global bucket and for each registered route, a HISTORY: the running
  maximum of the readings the bucket was refilled with, and the times of the emits it admitted.  From
  the history alone `Bucket.level` says what an ideal real-valued bucket holds.
-/
import Bondry.Egress.Registry
import Bondry.Lib.Bucket
import Bondry.Lib.Run

namespace Bondry.Egress

/-! ## Histories -/

/-- What has happened to a bucket. -/
structure BucketHistory where
  /-- The running maximum of the readings it was refilled with. -/
  time : Nat
  /-- The times of the emits it admitted, newest first. -/
  takes : List Nat

noncomputable def seconds (nanos : Nat) : ℝ := nanos / 1000000000

namespace BucketHistory

def fresh : BucketHistory := ⟨0, []⟩

def refilled (history : BucketHistory) (now : Nat) : BucketHistory :=
  { history with time := max now history.time }

def taken (history : BucketHistory) : BucketHistory :=
  { history with takes := history.time :: history.takes }

/-- What the ideal bucket holds. -/
noncomputable def level (history : BucketHistory) (capacity refillPerSecond : Nat) : ℝ :=
  Bucket.level (capacity : ℝ) refillPerSecond (history.takes.map seconds) (seconds history.time)

end BucketHistory

/-! ## One bucket -/

/-- The bucket's units are the ideal level, and every emit it admitted found a token there. -/
structure Exact (bucket : TokenBucket) (capacity refillPerSecond : Nat) (history : BucketHistory) :
    Prop where
  rate : bucket.refillPerSecond = refillPerSecond
  sized : bucket.capacityUnits = capacity * tokenUnits
  small : bucket.capacityUnits ≤ u128Max
  time : bucket.lastRefill = history.time
  units : (bucket.availableUnits : ℝ) = history.level capacity refillPerSecond * tokenUnits
  paid : Bucket.Paid (capacity : ℝ) refillPerSecond (history.takes.map seconds)

/-- Neither saturation shows: above `u128::MAX` the capacity cuts off first. -/
theorem refill_availableUnits {bucket : TokenBucket} {now : Nat}
    (hsmall : bucket.capacityUnits ≤ u128Max) (hnow : bucket.lastRefill < now) :
    (bucket.refill now).availableUnits = min bucket.capacityUnits
        (bucket.availableUnits + (now - bucket.lastRefill) * bucket.refillPerSecond) := by
  rw [TokenBucket.refill, if_neg (by omega)]
  dsimp only
  generalize (now - bucket.lastRefill) * bucket.refillPerSecond = inflow
  omega

theorem refill_lastRefill (bucket : TokenBucket) (now : Nat) :
    (bucket.refill now).lastRefill = max now bucket.lastRefill := by
  unfold TokenBucket.refill
  split
  · next hback => exact (max_eq_right hback).symm
  · next hforward => exact (max_eq_left (Nat.le_of_not_le hforward)).symm

theorem refill_capacityUnits (bucket : TokenBucket) (now : Nat) :
    (bucket.refill now).capacityUnits = bucket.capacityUnits := by
  unfold TokenBucket.refill
  split <;> rfl

theorem refill_refillPerSecond (bucket : TokenBucket) (now : Nat) :
    (bucket.refill now).refillPerSecond = bucket.refillPerSecond := by
  unfold TokenBucket.refill
  split <;> rfl

theorem tokenUnits_cast : ((tokenUnits : Nat) : ℝ) = 1000000000 := by
  norm_num [tokenUnits]

section

variable {bucket : TokenBucket} {capacity refillPerSecond now : Nat} {history : BucketHistory}

theorem exact_new (hcapacity : capacity ≤ 65535) :
    Exact (.new refillPerSecond capacity) capacity refillPerSecond .fresh where
  rate := rfl
  sized := rfl
  small := by
    simp only [TokenBucket.new, tokenUnits, u128Max]
    omega
  time := rfl
  units := by
    simp [TokenBucket.new, BucketHistory.level, BucketHistory.fresh, Bucket.level]
  paid := trivial

theorem level_refilled (hnow : history.time ≤ now) :
    (history.refilled now).level capacity refillPerSecond * tokenUnits = min ((capacity : ℝ) * tokenUnits)
        (history.level capacity refillPerSecond * tokenUnits
          + ((now - history.time : Nat) : ℝ) * refillPerSecond) := by
  have hseconds : seconds history.time ≤ seconds now :=
    div_le_div_of_nonneg_right (Nat.cast_le.mpr hnow) (by norm_num)
  have hinflow : (refillPerSecond : ℝ) * (seconds now - seconds history.time) * tokenUnits
      = ((now - history.time : Nat) : ℝ) * refillPerSecond := by
    rw [tokenUnits_cast, seconds, seconds, Nat.cast_sub hnow]
    ring
  have hadvance : (history.refilled now).level capacity refillPerSecond =
      min (capacity : ℝ) (history.level capacity refillPerSecond
        + refillPerSecond * (seconds now - seconds history.time)) := by
    simp only [BucketHistory.level, BucketHistory.refilled, max_eq_left hnow]
    exact Bucket.level_advance (Nat.cast_nonneg _) hseconds
  rw [hadvance, min_mul_of_nonneg _ _ (Nat.cast_nonneg _), add_mul, hinflow]

/-- **A refill follows the ideal bucket**, whatever the reading. -/
theorem Exact.refill (h : Exact bucket capacity refillPerSecond history) (now : Nat) :
    Exact (bucket.refill now) capacity refillPerSecond (history.refilled now) where
  rate := (refill_refillPerSecond bucket now).trans h.rate
  sized := (refill_capacityUnits bucket now).trans h.sized
  small := (refill_capacityUnits bucket now).symm ▸ h.small
  time := by rw [refill_lastRefill, h.time, BucketHistory.refilled]
  paid := h.paid
  units := by
    by_cases hnow : bucket.lastRefill < now
    · rw [refill_availableUnits h.small hnow, level_refilled (h.time ▸ hnow.le), Nat.cast_min,
        Nat.cast_add, Nat.cast_mul, h.units, h.sized, Nat.cast_mul, h.rate, h.time]
    · -- a reading that does not go forward changes neither
      have hback : now ≤ bucket.lastRefill := by omega
      have hsame : history.refilled now = history := by
        rw [BucketHistory.refilled, max_eq_right (h.time ▸ hback)]
      rw [TokenBucket.refill, if_pos hback, hsame]
      exact h.units

theorem Exact.hasToken_iff (h : Exact bucket capacity refillPerSecond history) :
    bucket.hasToken = true ↔ 1 ≤ history.level capacity refillPerSecond := by
  have hpos : (0 : ℝ) < tokenUnits := by norm_num [tokenUnits_cast]
  rw [TokenBucket.hasToken, decide_eq_true_eq, ← Nat.cast_le (α := ℝ), h.units]
  exact le_mul_iff_one_le_left hpos

theorem level_taken : history.taken.level capacity refillPerSecond
    = history.level capacity refillPerSecond - 1 := by
  exact Bucket.level_take

/-- **A take follows the ideal bucket.** -/
theorem Exact.take (h : Exact bucket capacity refillPerSecond history) (htoken : bucket.hasToken = true) :
    Exact bucket.take capacity refillPerSecond history.taken := by
  unfold TokenBucket.take
  refine ⟨h.rate, h.sized, h.small, h.time, ?_, ?_⟩
  · have hle : tokenUnits ≤ bucket.availableUnits := by
      simpa [TokenBucket.hasToken] using htoken
    rw [Nat.cast_sub hle, h.units, level_taken, sub_mul, one_mul]
  · exact ⟨h.hasToken_iff.mp htoken, h.paid⟩

end

/-! ## Runs of the registry -/

section

variable (Q A : Type)

inductive RegistryCommand where
  | register (route : Route Q A)
  | setEnabled (id : RouteId) (enabled : Bool)
  | unregister (id : RouteId)
  | admission (id : RouteId) (delivery : DeliveryId) (payload : Bytes) (mode : OperationMode)
      (now : Nat)

/-- The registry, with the history of each of its buckets. -/
structure BucketLedger where
  registry : RouteRegistry Q A
  everyone : BucketHistory
  routes : RouteId → BucketHistory

end

variable {Q A : Type}

namespace BucketLedger

def new (limit : RouteRegistryLimit) (globalAdmission : GlobalAdmissionLimit) : BucketLedger Q A :=
  ⟨.new limit globalAdmission, .fresh, fun _ => .fresh⟩

/-- An admission: an emit that passes the checks refills both buckets, and takes from both if it is
    admitted. -/
def admission (ledger : BucketLedger Q A) (parse : Bytes → Option Json) (id : RouteId)
    (delivery : DeliveryId) (payload : Bytes) (mode : OperationMode) (now : Nat) : BucketLedger Q A :=
  let outcome := ledger.registry.admitDelivery parse id delivery payload mode now
  match ledger.registry.routes[id]? with
  | none => { ledger with registry := outcome.2 }
  | some entry =>
    match RouteRegistry.checkRoute entry.route parse payload mode, mode with
    | .ok _, .emit =>
      let everyone := ledger.everyone.refilled now
      let own := (ledger.routes id).refilled now
      match outcome.1 with
      | .ok _ => ⟨outcome.2, everyone.taken, Function.update ledger.routes id own.taken⟩
      | .error _ => ⟨outcome.2, everyone, Function.update ledger.routes id own⟩
    | _, _ => { ledger with registry := outcome.2 }

/-- One command.  A route that is registered starts a history of its own. -/
def step (parse : Bytes → Option Json) (ledger : BucketLedger Q A) : RegistryCommand Q A → BucketLedger Q A
  | .register route =>
    match ledger.registry.register route with
    | (.ok (), registry) =>
      { ledger with registry, routes := Function.update ledger.routes route.id .fresh }
    | (.error _, registry) => { ledger with registry }
  | .setEnabled id enabled => { ledger with registry := (ledger.registry.setEnabled id enabled).2 }
  | .unregister id => { ledger with registry := ledger.registry.unregister id }
  | .admission id delivery payload mode now =>
    ledger.admission parse id delivery payload mode now

/-- Each bucket is the exact one of its history. -/
structure Sound (globalAdmission : GlobalAdmissionLimit) (ledger : BucketLedger Q A) : Prop where
  everyone : Exact ledger.registry.globalAdmission globalAdmission.capacity
    globalAdmission.refillPerSecond ledger.everyone
  own : ∀ id entry, ledger.registry.routes[id]? = some entry →
    Exact entry.admission entry.route.admission.capacity entry.route.admission.refillPerSecond
      (ledger.routes id)

end BucketLedger

namespace RouteRegistry

variable {registry : RouteRegistry Q A} {parse : Bytes → Option Json} {id : RouteId}
  {delivery : DeliveryId} {payload valid : Bytes} {mode : OperationMode} {now : Nat}
  {entry : RouteEntry Q A} {error : AdmissionError}

theorem admitDelivery_emit (hentry : registry.routes[id]? = some entry)
    (hcheck : checkRoute entry.route parse payload .emit = .ok valid) :
    registry.admitDelivery parse id delivery payload .emit now =
      if (registry.globalAdmission.refill now).hasToken = false then
        (.error .globalRateLimited, { registry with
          globalAdmission := registry.globalAdmission.refill now
          routes := registry.routes.insert id { entry with admission := entry.admission.refill now } })
      else if (entry.admission.refill now).hasToken = false then
        (.error .routeRateLimited, { registry with
          globalAdmission := registry.globalAdmission.refill now
          routes := registry.routes.insert id { entry with admission := entry.admission.refill now } })
      else
        (.ok (admitted entry.route id delivery .emit valid), { registry with
          globalAdmission := (registry.globalAdmission.refill now).take
          routes := registry.routes.insert id
            { entry with admission := (entry.admission.refill now).take } }) := by
  rw [admitDelivery, hentry]
  simp only [hcheck]

theorem admitDelivery_unregistered (hnone : registry.routes[id]? = none) :
    registry.admitDelivery parse id delivery payload mode now = (.error .routeNotFound, registry) := by
  rw [admitDelivery, hnone]

theorem admitDelivery_unchecked (hentry : registry.routes[id]? = some entry)
    (hcheck : checkRoute entry.route parse payload mode = .error error) :
    registry.admitDelivery parse id delivery payload mode now = (.error error, registry) := by
  rw [admitDelivery, hentry]
  simp only [hcheck]

theorem admitDelivery_refused {registry' : RouteRegistry Q A}
    (h : registry.admitDelivery parse id delivery payload .emit now = (.error error, registry')) :
    registry' = registry ∨ ∃ entry, registry.routes[id]? = some entry ∧
      registry' = { registry with
        globalAdmission := registry.globalAdmission.refill now
        routes := registry.routes.insert id
          { entry with admission := entry.admission.refill now } } := by
  rcases hentry : registry.routes[id]? with _ | entry
  · rw [admitDelivery_unregistered hentry] at h
    cases h
    exact .inl rfl
  rcases hcheck : checkRoute entry.route parse payload .emit with early | valid
  · rw [admitDelivery_unchecked hentry hcheck] at h
    cases h
    exact .inl rfl
  · rw [admitDelivery_emit hentry hcheck] at h
    split at h
    · cases h
      exact .inr ⟨entry, rfl, rfl⟩
    · split at h <;> cases h
      exact .inr ⟨entry, rfl, rfl⟩

/-- A call looks at no bucket. -/
theorem admitDelivery_call (registry : RouteRegistry Q A) (parse : Bytes → Option Json) (id : RouteId)
    (delivery : DeliveryId) (payload : Bytes) (now : Nat) :
    (registry.admitDelivery parse id delivery payload .call now).2 = registry := by
  unfold admitDelivery
  split
  · rfl
  · split <;> rfl

end RouteRegistry

namespace BucketLedger

variable {globalAdmission : GlobalAdmissionLimit} {ledger : BucketLedger Q A}
  {parse : Bytes → Option Json}

theorem Sound.insert (h : ledger.Sound globalAdmission) (id : RouteId) (entry : RouteEntry Q A)
    {everyone own : TokenBucket} {history history' : BucketHistory}
    (heveryone : Exact everyone globalAdmission.capacity globalAdmission.refillPerSecond history)
    (hown : Exact own entry.route.admission.capacity entry.route.admission.refillPerSecond history') :
    Sound globalAdmission
      ⟨{ ledger.registry with
          globalAdmission := everyone
          routes := ledger.registry.routes.insert id { entry with admission := own } },
        history, Function.update ledger.routes id history'⟩ := by
  refine ⟨heveryone, ?_⟩
  intro other found hfound
  dsimp only at hfound ⊢
  by_cases hid : id = other
  · subst hid
    rw [BTreeMap.find_insert_self] at hfound
    cases hfound
    rwa [Function.update_self]
  · rw [BTreeMap.find_insert_ne _ _ hid] at hfound
    rw [Function.update_of_ne (Ne.symm hid)]
    exact h.own other found hfound

theorem Sound.admission (h : ledger.Sound globalAdmission) (id : RouteId) (delivery : DeliveryId)
    (payload : Bytes) (mode : OperationMode) (now : Nat) :
    (ledger.admission parse id delivery payload mode now).Sound globalAdmission := by
  unfold BucketLedger.admission
  rcases hentry : ledger.registry.routes[id]? with _ | entry
  · rw [RouteRegistry.admitDelivery_unregistered hentry]
    exact h
  rcases hcheck : RouteRegistry.checkRoute entry.route parse payload mode with error | valid
  · simp only [RouteRegistry.admitDelivery_unchecked hentry hcheck, hcheck]
    exact h
  rcases mode
  · -- an emit: both buckets are refilled, and with a token in each both give one
    have heveryone := h.everyone.refill now
    have hown := (h.own id entry hentry).refill now
    simp only [RouteRegistry.admitDelivery_emit hentry hcheck, hcheck]
    by_cases hglobal : (ledger.registry.globalAdmission.refill now).hasToken = true
    · by_cases hroute : (entry.admission.refill now).hasToken = true
      · simp only [hglobal, hroute, Bool.true_eq_false, if_false]
        exact h.insert id entry (heveryone.take hglobal) (hown.take hroute)
      · simp only [hglobal, hroute, Bool.true_eq_false, if_false, if_true]
        exact h.insert id entry heveryone hown
    · simp only [hglobal, if_true]
      exact h.insert id entry heveryone hown
  · simp only [RouteRegistry.admitDelivery_call, hcheck]
    exact h

theorem Sound.step (h : ledger.Sound globalAdmission) (command : RegistryCommand Q A) :
    (ledger.step parse command).Sound globalAdmission := by
  rcases command with route | ⟨id, enabled⟩ | id | ⟨id, delivery, payload, mode, now⟩
  · -- a new instance: a full bucket and an empty history
    simp only [BucketLedger.step, RouteRegistry.register]
    have hsmall : route.admission.capacity ≤ 65535 := by
      have := route.admission.capacity_mem
      omega
    split_ifs
    · exact h
    · exact h
    · exact h
    · exact h.insert route.id ⟨route, .new 0 0⟩ h.everyone (exact_new hsmall)
  · simp only [BucketLedger.step, RouteRegistry.setEnabled]
    rcases hentry : ledger.registry.routes[id]? with _ | entry
    · exact h
    · have hsame := h.insert id { entry with route := { entry.route with enabled := enabled } }
        h.everyone (h.own id entry hentry)
      rwa [Function.update_eq_self] at hsame
  · refine ⟨h.everyone, fun other entry hentry => h.own other entry ?_⟩
    simp only [BucketLedger.step, RouteRegistry.unregister, BTreeMap.find_erase] at hentry
    split at hentry
    · cases hentry
    · exact hentry
  · exact h.admission id delivery payload mode now

theorem sound_run (limit : RouteRegistryLimit) (globalAdmission : GlobalAdmissionLimit)
    (parse : Bytes → Option Json) (commands : List (RegistryCommand Q A)) :
    (run (step parse) (new limit globalAdmission) commands).Sound globalAdmission := by
  refine All.run (C := fun _ _ => True) (Sound globalAdmission) (fun s a h _ => h.step a) ?_
    (All.always fun _ _ => trivial)
  refine ⟨exact_new ?_, fun id entry hentry => ?_⟩
  · have := globalAdmission.capacity_mem
    omega
  · simp [new, RouteRegistry.new] at hentry

end BucketLedger

/-! ## The buckets as a whole -/

/-- Any stretch of admitted emits, from one at time `s` to one at time `t`, both included, is at most
    the capacity and what flows in between them. -/
def WithinBurst (capacity refillPerSecond : Nat) (takes : List Nat) : Prop :=
  ∀ newer t between older s, takes = newer ++ (t :: between ++ older) →
    (t :: between).getLast (List.cons_ne_nil _ _) = s →
      ((t :: between).length : ℝ) ≤ capacity + refillPerSecond * (seconds t - seconds s)

theorem Exact.withinBurst {bucket : TokenBucket} {capacity refillPerSecond : Nat}
    {history : BucketHistory} (h : Exact bucket capacity refillPerSecond history) :
    WithinBurst capacity refillPerSecond history.takes := by
  intro newer t between older s htakes hlast
  have hpaid := h.paid
  rw [htakes, List.map_append, List.cons_append, List.map_cons, List.map_append,
    ← List.cons_append] at hpaid
  have hseconds : (seconds t :: between.map seconds).getLast (List.cons_ne_nil _ _) = seconds s := by
    rw [← hlast, ← List.getLast_map (f := seconds) (h := by simp)]
    rfl
  simpa using hpaid.length_le hseconds

/-- The bucket as it was, or refilled: no token was taken. -/
def Untaken (now : Nat) (bucket bucket' : TokenBucket) : Prop :=
  bucket' = bucket ∨ bucket' = bucket.refill now

/-- **The admission buckets.**  After every run of the registry: the global bucket and the bucket of each
    registered route have admitted no burst above the exact bound; an emit that is refused takes no
    token from any bucket; a call leaves the registry as it is; and an emit that passed the checks is
    refused only when the ideal global bucket, or the ideal bucket of its route, holds less than
    one token. -/
theorem buckets_exact (limit : RouteRegistryLimit) (globalAdmission : GlobalAdmissionLimit)
    (parse : Bytes → Option Json) (commands : List (RegistryCommand Q A)) :
    let s := run (BucketLedger.step parse) (BucketLedger.new limit globalAdmission) commands
    WithinBurst globalAdmission.capacity globalAdmission.refillPerSecond s.everyone.takes ∧
      (∀ (id : RouteId) entry, s.registry.routes[id]? = some entry →
        WithinBurst entry.route.admission.capacity entry.route.admission.refillPerSecond
          (s.routes id).takes) ∧
      (∀ id delivery payload now error (registry' : RouteRegistry Q A),
        s.registry.admitDelivery parse id delivery payload .emit now = (.error error, registry') →
          Untaken now s.registry.globalAdmission registry'.globalAdmission ∧
          ∀ (other : RouteId) (entry' : RouteEntry Q A), registry'.routes[other]? = some entry' →
            ∃ entry, s.registry.routes[other]? = some entry ∧ entry'.route = entry.route ∧
              Untaken now entry.admission entry'.admission) ∧
      (∀ id delivery payload now,
        (s.registry.admitDelivery parse id delivery payload .call now).2 = s.registry) ∧
      ∀ id entry delivery payload valid now error registry',
        s.registry.routes[id]? = some entry →
        RouteRegistry.checkRoute entry.route parse payload .emit = .ok valid →
        s.registry.admitDelivery parse id delivery payload .emit now = (.error error, registry') →
          error = .globalRateLimited ∧
              (s.everyone.refilled now).level globalAdmission.capacity
                globalAdmission.refillPerSecond < 1 ∨
            error = .routeRateLimited ∧
              ((s.routes id).refilled now).level entry.route.admission.capacity
                entry.route.admission.refillPerSecond < 1 := by
  intro s
  have hsound : s.Sound globalAdmission := BucketLedger.sound_run limit globalAdmission parse commands
  refine ⟨hsound.everyone.withinBurst, fun id entry hentry => (hsound.own id entry hentry).withinBurst,
    ?_, fun id delivery payload now => RouteRegistry.admitDelivery_call _ _ _ _ _ _, ?_⟩
  · intro id delivery payload now error registry' hadmission
    rcases RouteRegistry.admitDelivery_refused hadmission with rfl | ⟨entry, hentry, rfl⟩
    · exact ⟨.inl rfl, fun other entry' hentry' => ⟨entry', hentry', rfl, .inl rfl⟩⟩
    refine ⟨.inr rfl, fun other entry' hentry' => ?_⟩
    by_cases hid : id = other
    · subst hid
      rw [BTreeMap.find_insert_self] at hentry'
      cases hentry'
      exact ⟨entry, hentry, rfl, .inr rfl⟩
    · rw [BTreeMap.find_insert_ne _ _ hid] at hentry'
      exact ⟨entry', hentry', rfl, .inl rfl⟩
  · intro id entry delivery payload valid now error registry' hentry hcheck hadmission
    rw [RouteRegistry.admitDelivery_emit hentry hcheck] at hadmission
    split at hadmission
    · next hglobal =>
      cases hadmission
      refine .inl ⟨rfl, lt_of_not_ge fun hlevel => ?_⟩
      rw [(hsound.everyone.refill now).hasToken_iff.mpr hlevel] at hglobal
      cases hglobal
    · split at hadmission
      · next hroute =>
        cases hadmission
        refine .inr ⟨rfl, lt_of_not_ge fun hlevel => ?_⟩
        rw [((hsound.own id entry hentry).refill now).hasToken_iff.mpr hlevel] at hroute
        cases hroute
      · cases hadmission

end Bondry.Egress
