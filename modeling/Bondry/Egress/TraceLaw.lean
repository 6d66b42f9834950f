/-
  THE TRACE LAW OF A DELIVERY LIFECYCLE.

  A lifecycle is fed any sequence of times and events; the times need not even increase.  Whatever they
  are,

  1. what it asks to be stored is `RecordAttempt 1, 2, …, k` with `k ≤ retries + 1`, then AT MOST ONE
     `RecordOutcome`, and nothing after it;
  2. an answer that is an error leaves the lifecycle as it was;
  3. attempt `n + 1` starts no earlier than the `n`-th retryable failure plus a delay between eight
     tenths of the exponential back-off and the cap;
  4. a retryable failure of attempt `n` is answered by waiting exactly when `n ≤ retries`, and one that
     comes without an attempt is refused.

  The proof follows the run from its front.  `Told` says what the story so far fixes about the state, and
  every clause of the law is about the next transition out of such a state.
-/
import Bondry.Egress.Lifecycle
import Bondry.Lib.Run

namespace Bondry.Egress.DeliveryLifecycle

/-! ## Histories -/

/-- A time and what happens at it. -/
abbrev Input := TransitionTime × DeliveryEvent

/-- One transition, with the lifecycle before and after it. -/
structure Moment where
  before : DeliveryLifecycle
  time : TransitionTime
  event : DeliveryEvent
  answer : Except DeliveryLifecycleError DeliveryTransition
  next : DeliveryLifecycle

def moment (l : DeliveryLifecycle) (input : Input) : Moment :=
  let moved := l.transition input.1 input.2
  ⟨l, input.1, input.2, moved.1, moved.2⟩

def fed (l : DeliveryLifecycle) (input : Input) : DeliveryLifecycle := (l.moment input).next

/-- The transitions of a sequence of inputs. -/
def history (l : DeliveryLifecycle) : List Input → List Moment
  | [] => []
  | input :: rest => l.moment input :: (l.fed input).history rest

namespace Moment

/-- What the transition asks to be stored. -/
def persistence (m : Moment) : Option DeliveryPersistenceAction :=
  match m.answer with
  | .ok transition => transition.persistence
  | .error _ => none

/-- The effect a transition asks for; an error and an event that came too late ask for none. -/
def action (m : Moment) : DeliveryAction :=
  match m.answer with
  | .ok transition => transition.action
  | .error _ => .none

def starts (m : Moment) : Bool :=
  match m.action with
  | .startAttempt _ => true
  | .none | .wait | .terminal _ _ => false

/-- A retryable failure of an attempt in flight. -/
def retried (m : Moment) : Bool :=
  match m.event with
  | .retryable _ => m.before.state = .inFlight
  | .drive | .delivered _ | .failed _ | .failedWithResult _ _ | .cancel | .shutdownDeadline => false

end Moment

theorem history_append (l : DeliveryLifecycle) (xs ys : List Input) :
    l.history (xs ++ ys) = l.history xs ++ (run fed l xs).history ys := by
  induction xs generalizing l with
  | nil => rfl
  | cons x rest ih => simp only [List.cons_append, history, ih, run_cons]

variable {l : DeliveryLifecycle} {past : List Moment} {m : Moment}

theorem history_split {inputs : List Input} {future : List Moment}
    (h : l.history inputs = past ++ m :: future) :
    ∃ xs x, past = l.history xs ∧ m = (run fed l xs).moment x := by
  induction inputs generalizing l past with
  | nil => simp [history] at h
  | cons input rest ih =>
    cases past with
    | nil =>
      obtain ⟨hm, -⟩ := List.cons.inj h
      exact ⟨[], input, rfl, hm.symm⟩
    | cons first past =>
      obtain ⟨hfirst, hrest⟩ := List.cons.inj h
      obtain ⟨xs, x, hpast, hm⟩ := ih hrest
      exact ⟨input :: xs, x, by rw [hpast, ← hfirst]; rfl, hm⟩

/-! ## The back-off -/

theorem stableJitter_le (delivery : DeliveryId) (attempts : Nat) : stableJitter delivery attempts ≤ 4000 := by
  unfold stableJitter
  dsimp only
  generalize List.foldl _ _ _ = hash
  have hlt : (hash % 4001).toNat < 4001 := by
    exact Nat.mod_lt _ (by decide)
  omega

/-- **The delay before the next attempt**: at least eight tenths of the exponential back-off, and at most
    the cap.  None of the saturations happens, since a policy allows 17 attempts. -/
theorem retryDelay_mem (l : DeliveryLifecycle) {n : Nat} (hpos : 0 < n) (hn : n ≤ l.retry.retries) :
    8 * min (l.retry.base * 2 ^ (n - 1)) l.retry.cap / 10 ≤ l.retryDelay n ∧
      l.retryDelay n ≤ l.retry.cap := by
  have hretries := l.retry.retries_le
  have hbase := l.retry.base_mem.2
  have hcap := l.retry.cap_mem.2
  have hjitter := stableJitter_le l.delivery n
  have hshift : min (n - 1) 31 = n - 1 := by omega
  -- the exponential part stays far below `u128::MAX`
  have hpower : 2 ^ (n - 1) ≤ 2 ^ 16 := Nat.pow_le_pow_right (by decide) (by omega)
  have hsmall : l.retry.base * 2 ^ (n - 1) ≤ 5 * nanosPerSecond * 2 ^ 16 := Nat.mul_le_mul hbase hpower
  have hexp : saturatingMul128 l.retry.base (2 ^ (n - 1)) = l.retry.base * 2 ^ (n - 1) :=
    Nat.min_eq_left (hsmall.trans (by decide))
  simp only [retryDelay, hshift, hexp]
  generalize stableJitter l.delivery n = jitter at hjitter ⊢
  generalize hexponential : min (l.retry.base * 2 ^ (n - 1)) l.retry.cap = exponential
  have hle : exponential ≤ l.retry.cap := hexponential ▸ Nat.min_le_right _ _
  have hproduct : exponential * (8000 + jitter) ≤ 300 * nanosPerSecond * 12000 :=
    Nat.mul_le_mul (hle.trans hcap) (by omega)
  have hmul : saturatingMul128 exponential (8000 + jitter) = exponential * (8000 + jitter) :=
    Nat.min_eq_left (hproduct.trans (by decide))
  have hlow : 8 * exponential / 10 ≤ exponential * (8000 + jitter) / 10000 := by
    have hmore : exponential * 8000 ≤ exponential * (8000 + jitter) :=
      Nat.mul_le_mul_left _ (by omega)
    omega
  have hnanos : l.retry.cap ≤ 2 ^ 64 - 1 := hcap.trans (by decide)
  omega

/-! ## The story so far -/

/-- Attempts at these times, stored with their numbers. -/
def recordings (delivery : DeliveryId) (times : List Nat) : List DeliveryPersistenceAction :=
  (times.zipIdx 1).map fun entry => .recordAttempt delivery entry.2 entry.1

def conclusion (delivery : DeliveryId) :
    Option (DeliveryOutcome × Nat × Option DeliveryResultMetadata) → List DeliveryPersistenceAction
  | none => []
  | some (outcome, time, result) => [.recordOutcome delivery outcome time result]

theorem recordings_snoc (delivery : DeliveryId) (times : List Nat) (time : Nat) :
    recordings delivery (times ++ [time]) =
      recordings delivery times ++ [.recordAttempt delivery (times.length + 1) time] := by
  simp [recordings, List.zipIdx_append, Nat.add_comm]

/-- Where a lifecycle stands after a past: how many attempts and accepted retryable failures it has
    seen, and which deadline it waits for. -/
def Stands (past : List Moment) (l : DeliveryLifecycle) : Prop :=
  match l.state with
  | .ready => l.attempts = 0 ∧ (past.filter Moment.retried).length = 0
  | .inFlight => l.attempts ≤ l.retry.retries + 1 ∧
      (past.filter Moment.retried).length + 1 = l.attempts
  | .waitingRetry deadline => l.attempts ≤ l.retry.retries ∧
      (past.filter Moment.retried).length = l.attempts ∧ ∃ last,
        (past.filter Moment.retried)[l.attempts - 1]? = some last ∧ 0 < l.attempts ∧
        deadline = l.retryDeadline last.time
  | .terminal => l.attempts ≤ l.retry.retries + 1

/-- **What the past fixes about the present.** -/
structure Told (retry : RetryPolicy) (delivery : DeliveryId) (past : List Moment)
    (l : DeliveryLifecycle) : Prop where
  policy : l.retry = retry
  own : l.delivery = delivery
  counted : past.countP Moment.starts = l.attempts
  stored : ∃ times ending, times.length = l.attempts ∧ (l.state ≠ .terminal → ending = none) ∧
    past.filterMap Moment.persistence = recordings delivery times ++ conclusion delivery ending
  stands : Stands past l

theorem Stands.attempts_le (h : Stands past l) : l.attempts ≤ l.retry.retries + 1 := by
  unfold Stands at h
  split at h <;> omega

variable {time : TransitionTime}

/-- A lifecycle that may start an attempt has had as many retryable failures as attempts. -/
theorem Stands.due (h : Stands past l) (hdue : l.Due time) :
    l.attempts ≤ l.retry.retries ∧ (past.filter Moment.retried).length = l.attempts ∧
      (0 < l.attempts → ∃ last, (past.filter Moment.retried)[l.attempts - 1]? = some last ∧
        l.retryDeadline last.time ≤ time.monotonic) := by
  unfold Stands at h
  rcases hdue with hready | ⟨deadline, hwait, hpast⟩
  · rw [hready] at h
    obtain ⟨hzero, hnone⟩ := h
    exact ⟨by omega, by omega, by omega⟩
  · rw [hwait] at h
    obtain ⟨hle, hcount, last, hlast, -, rfl⟩ := h
    exact ⟨hle, hcount, fun _ => ⟨last, hlast, hpast⟩⟩

theorem stands_parked (hretried : m.retried = true)
    (hcount : (past.filter Moment.retried).length + 1 = l.attempts) (hleft : l.attempts ≤ l.retry.retries) :
    Stands (past ++ [m]) { l with state := .waitingRetry (l.retryDeadline m.time) } := by
  have hfilter : (past ++ [m]).filter Moment.retried = past.filter Moment.retried ++ [m] := by
    simp [List.filter_append, hretried]
  have hlast : l.attempts - 1 = (past.filter Moment.retried).length := by omega
  refine ⟨hleft, ?_, m, ?_, ?_, rfl⟩
  · rw [hfilter, List.length_append]
    exact hcount
  · rw [hfilter, hlast]
    exact List.getElem?_concat_length
  · exact hcount ▸ Nat.succ_pos _

theorem told_new (route : RouteId) (delivery : DeliveryId) (retry : RetryPolicy) :
    Told retry delivery [] (new route delivery retry) :=
  ⟨rfl, rfl, rfl, ⟨[], none, rfl, fun _ => rfl, rfl⟩, ⟨rfl, rfl⟩⟩

theorem Told.quiet {retry : RetryPolicy} {delivery : DeliveryId} (h : Told retry delivery past l)
    (hpersistence : m.persistence = none) (hstarts : m.starts = false)
    (hretried : m.retried = false) : Told retry delivery (past ++ [m]) l := by
  refine ⟨h.policy, h.own, ?_, ?_, ?_⟩
  · simpa [List.countP_append, hstarts] using h.counted
  · simpa [List.filterMap_append, hpersistence] using h.stored
  · have hsame : (past ++ [m]).filter Moment.retried = past.filter Moment.retried := by
      simp [List.filter_append, hretried]
    have hstands := h.stands
    unfold Stands at hstands ⊢
    rw [hsame]
    exact hstands

/-- **One more transition.** -/
theorem Told.moment {retry : RetryPolicy} {delivery : DeliveryId} (h : Told retry delivery past l)
    (input : Input) : Told retry delivery (past ++ [l.moment input]) (l.fed input) := by
  obtain ⟨time, event⟩ := input
  have hmoved := l.transition_moved time event
  unfold fed DeliveryLifecycle.moment
  generalize l.transition time event = moved at hmoved ⊢
  obtain ⟨answer, l'⟩ := moved
  obtain ⟨times, ending, hlength, hending, hstored⟩ := h.stored
  cases hmoved with
  | started hdue =>
    obtain ⟨hle, hcount, -⟩ := h.stands.due hdue
    have hretries := l.retry.retries_le
    have hnext : min (l.attempts + 1) 65535 = l.attempts + 1 := by omega
    have hopen : ending = none := hending fun hover => by
      rcases hdue with hready | ⟨_, hwait, _⟩
      · exact absurd (hover.symm.trans hready) (by simp)
      · exact absurd (hover.symm.trans hwait) (by simp)
    subst hopen
    refine ⟨h.policy, h.own, ?_,
      ⟨times ++ [time.unixMs], none, ?_, fun _ => rfl, ?_⟩, ?_⟩
    · simp [List.countP_append, h.counted, Moment.starts, Moment.action, startAttempt, hnext]
    · simp [hlength, hnext]
    · rw [List.filterMap_append, hstored, recordings_snoc, hlength]
      simp [conclusion, Moment.persistence, startAttempt, hnext, h.own]
    · refine ⟨?_, ?_⟩
      · simp only [hnext]
        omega
      · simp [List.filter_append, Moment.retried, hcount, hnext]
  | early _ _ => exact h.quiet rfl rfl rfl
  | done hover =>
    refine h.quiet rfl rfl ?_
    have hended : l'.state = .terminal := hover
    cases event <;> simp [Moment.retried, hended]
  | refused _ _ hstate =>
    refine h.quiet rfl rfl ?_
    cases event <;> simp_all [Moment.retried]
  | parked hflight hleft =>
    have hstands := h.stands
    unfold Stands at hstands
    rw [hflight] at hstands
    obtain ⟨-, hcount⟩ := hstands
    have hopen : ending = none := hending fun hover => nomatch hflight.symm.trans hover
    subst hopen
    refine ⟨h.policy, h.own, ?_, ⟨times, none, hlength, fun _ => rfl, ?_⟩, ?_⟩
    · simp [List.countP_append, h.counted, Moment.starts, Moment.action]
    · simp [List.filterMap_append, hstored, Moment.persistence]
    · exact stands_parked (by simp [Moment.retried, hflight]) hcount hleft
  | @ended _ outcome result hend hlive _ _ =>
    have hopen : ending = none := hending hlive
    subst hopen
    refine ⟨h.policy, h.own, ?_,
      ⟨times, some (outcome, time.unixMs, result), hlength, fun hno => absurd rfl hno, ?_⟩, ?_⟩
    · simp [List.countP_append, h.counted, Moment.starts, Moment.action, terminal]
    · simp [List.filterMap_append, hstored, Moment.persistence, terminal, conclusion, h.own]
    · exact h.stands.attempts_le

/-- **Every story is told.** -/
theorem told_history (route : RouteId) (delivery : DeliveryId) (retry : RetryPolicy) (inputs : List Input) :
    Told retry delivery ((new route delivery retry).history inputs)
      (run fed (new route delivery retry) inputs) := by
  induction inputs using List.reverseRecOn with
  | nil => exact told_new route delivery retry
  | append_singleton inputs input ih =>
    rw [history_append, run_append]
    exact ih.moment input

/-! ## The law -/

/-- **The trace law.** -/
structure TraceLaw (delivery : DeliveryId) (retry : RetryPolicy) (told : List Moment) : Prop where
  /-- Attempts in order, then at most one end. -/
  stored : ∃ times ending, times.length ≤ retry.retries + 1 ∧
    told.filterMap Moment.persistence = recordings delivery times ++ conclusion delivery ending
  /-- Errors change nothing. -/
  refused : ∀ m ∈ told, ∀ error, m.answer = .error error → m.next = m.before
  /-- Attempt `n + 1` waits for the `n`-th retryable failure. -/
  spaced : ∀ past m future n, told = past ++ m :: future → m.action = .startAttempt (n + 1) → 0 < n →
    ∃ last delay, (past.filter Moment.retried)[n - 1]? = some last ∧
      8 * min (retry.base * 2 ^ (n - 1)) retry.cap / 10 ≤ delay ∧ delay ≤ retry.cap ∧
      EgressInstant.saturatingAdd last.time.monotonic delay ≤ m.time.monotonic
  /-- A retryable failure after attempt `n` waits, or ends the delivery. -/
  answered : ∀ past m future failure, told = past ++ m :: future → m.event = .retryable failure →
    m.retried = true →
    if past.countP Moment.starts ≤ retry.retries then m.action = .wait
    else m.action = .terminal (.failed failure.toFailure) none
  /-- A retryable failure without an attempt is refused, until the delivery has ended. -/
  unasked : ∀ m ∈ told, ∀ failure, m.event = .retryable failure → m.retried = false →
    m.before.state ≠ .terminal → m.answer = .error .invalid

theorem starts_due {event : DeliveryEvent} {n : Nat} (h : (l.moment (time, event)).action = .startAttempt n) :
    l.Due time ∧ n = min (l.attempts + 1) 65535 := by
  have hmoved := l.transition_moved time event
  unfold DeliveryLifecycle.moment Moment.action at h
  generalize l.transition time event = moved at hmoved h
  obtain ⟨answer, l'⟩ := moved
  cases hmoved with
  | started hdue =>
    cases h
    exact ⟨hdue, rfl⟩
  | early _ _ | parked _ _ | ended _ _ _ _ | done _ | refused _ _ _ => cases h

theorem retried_iff {failure : RetryableFailure} :
    (l.moment (time, .retryable failure)).retried = true ↔ l.state = .inFlight :=
  decide_eq_true_iff

theorem retried_answer {failure : RetryableFailure}
    (h : (l.moment (time, .retryable failure)).retried = true) :
    if l.attempts ≤ l.retry.retries then (l.moment (time, .retryable failure)).action = .wait
    else (l.moment (time, .retryable failure)).action = .terminal (.failed failure.toFailure) none := by
  have hmoved := l.transition_moved time (.retryable failure)
  have hflight := retried_iff.mp h
  unfold DeliveryLifecycle.moment Moment.action
  generalize l.transition time (.retryable failure) = moved at hmoved ⊢
  obtain ⟨answer, l'⟩ := moved
  cases hmoved with
  | parked _ hleft => rw [if_pos hleft]
  | ended hend _ _ hspent =>
    cases hend
    rw [if_neg (hspent failure rfl)]
    rfl
  | done hover => exact absurd (hflight.symm.trans hover) (by simp)
  | refused _ _ hstate => exact absurd (hstate.mpr hflight) (by simp)

theorem unasked_refused {failure : RetryableFailure} (h : (l.moment (time, .retryable failure)).retried = false)
    (hlive : l.state ≠ .terminal) : (l.moment (time, .retryable failure)).answer = .error .invalid := by
  have hmoved := l.transition_moved time (.retryable failure)
  have hwaits : l.state ≠ .inFlight := fun hflight => by
    rw [retried_iff.mpr hflight] at h
    cases h
  unfold DeliveryLifecycle.moment
  generalize l.transition time (.retryable failure) = moved at hmoved ⊢
  obtain ⟨answer, l'⟩ := moved
  cases hmoved with
  | parked hflight _ => exact absurd hflight hwaits
  | ended _ _ hflight _ => exact absurd (hflight rfl) hwaits
  | done hover => exact absurd hover hlive
  | refused _ _ _ => rfl

theorem error_unchanged {input : Input} {error : DeliveryLifecycleError}
    (h : (l.moment input).answer = .error error) : (l.moment input).next = l := by
  obtain ⟨time, event⟩ := input
  have hmoved := l.transition_moved time event
  unfold DeliveryLifecycle.moment at h ⊢
  generalize l.transition time event = moved at hmoved h ⊢
  obtain ⟨answer, l'⟩ := moved
  cases hmoved with
  | refused _ _ _ => rfl
  | started _ | early _ _ | parked _ _ | ended _ _ _ _ | done _ => cases h

/-- **Delivery lifecycle trace law.**  It holds for every policy, delivery and sequence of inputs. -/
theorem lifecycle_trace_law (route : RouteId) (delivery : DeliveryId) (retry : RetryPolicy)
    (inputs : List Input) : TraceLaw delivery retry ((new route delivery retry).history inputs) := by
  have htold := told_history route delivery retry
  refine ⟨?_, ?_, ?_, ?_, ?_⟩
  · have hthen := htold inputs
    generalize run fed (new route delivery retry) inputs = l at hthen
    obtain ⟨times, ending, hlength, -, hstored⟩ := hthen.stored
    refine ⟨times, ending, ?_, hstored⟩
    rw [hlength, ← hthen.policy]
    exact hthen.stands.attempts_le
  · intro m hm error herror
    obtain ⟨past, future, hsplit⟩ := List.append_of_mem hm
    obtain ⟨xs, x, -, rfl⟩ := history_split hsplit
    exact error_unchanged herror
  · intro past m future n hsplit hstarts hpos
    obtain ⟨xs, ⟨time, event⟩, rfl, rfl⟩ := history_split hsplit
    have hthen := htold xs
    generalize run fed (new route delivery retry) xs = l at hthen hstarts ⊢
    obtain ⟨hdue, hn⟩ := starts_due hstarts
    obtain ⟨hle, -, hspaced⟩ := hthen.stands.due hdue
    have hretries := l.retry.retries_le
    rw [Nat.min_eq_left (by omega)] at hn
    have hattempts : l.attempts = n := (Nat.succ.inj hn).symm
    rw [hattempts] at hspaced hle
    obtain ⟨last, hlast, hdeadline⟩ := hspaced hpos
    obtain ⟨hlow, hhigh⟩ := l.retryDelay_mem hpos hle
    rw [hthen.policy] at hlow hhigh
    refine ⟨last, _, hlast, hlow, hhigh, ?_⟩
    rw [retryDeadline, hattempts] at hdeadline
    exact hdeadline
  · intro past m future failure hsplit hevent hretried
    obtain ⟨xs, ⟨time, event⟩, rfl, rfl⟩ := history_split hsplit
    cases hevent
    have hthen := htold xs
    rw [hthen.counted]
    generalize run fed (new route delivery retry) xs = l at hthen hretried ⊢
    rw [← hthen.policy]
    exact retried_answer hretried
  · intro m hm failure hevent hretried hlive
    obtain ⟨past, future, hsplit⟩ := List.append_of_mem hm
    obtain ⟨xs, ⟨time, event⟩, -, rfl⟩ := history_split hsplit
    cases hevent
    exact unasked_refused hretried hlive

end Bondry.Egress.DeliveryLifecycle
