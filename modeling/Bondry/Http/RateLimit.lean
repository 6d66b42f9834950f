/-
  The SLIDING-WINDOW LIMITER of the HTTP server (`rate_limit.rs`).

  Each key has a queue of the instants at which it was consumed.  A call first drops the queue's
  expired front, and one call in 256 does so for every key and forgets the queues that are empty.

  Instants are nanoseconds after the clock's origin, so `checked_sub` fails below one window.  There
  `clean_window` takes `now` itself for the cutoff and drops EVERYTHING.
-/
import Bondry.Contract.Limits
import Bondry.Lib.Run
import Bondry.Lib.Window

namespace Bondry.Http

open Bondry.Window

/-! ## The code -/

def window : Nat := 60 * nanosPerSecond

inductive RateLimitDecision where
  | allowed
  | limited (retryAfter : Nat)
  deriving DecidableEq, Repr

/-- The state behind the mutex: the instants of each key, and a counter that wraps. -/
structure RateLimitState (K : Type) where
  windows : K → Option (List Nat)
  operations : UInt8

def checkedSub (now duration : Nat) : Option Nat :=
  if duration ≤ now then some (now - duration) else none

def cleanWindow (recorded : List Nat) (now : Nat) : List Nat :=
  recorded.dropWhile (· ≤ (checkedSub now window).getD now)

def retryDecision (recorded : List Nat) (now : Nat) : RateLimitDecision :=
  match recorded with
  | [] => .limited 1
  | oldest :: _ => .limited (max ((window - (now - oldest)) / nanosPerSecond) 1)

namespace RateLimitState

variable {K : Type}

/-- `RateLimitState::default`. -/
def empty : RateLimitState K := ⟨fun _ => none, 0⟩

/-- The `retain` of `clean_periodically`. -/
def retained (windows : K → Option (List Nat)) (now : Nat) : K → Option (List Nat) := fun key =>
  (windows key).bind fun recorded =>
    if cleanWindow recorded now = [] then none else some (cleanWindow recorded now)

def cleanPeriodically (s : RateLimitState K) (now : Nat) : RateLimitState K :=
  if s.operations + 1 ≠ 0 then { s with operations := s.operations + 1 }
  else { windows := retained s.windows now, operations := s.operations + 1 }

variable [DecidableEq K]

def check (state : RateLimitState K) (key : K) (limit now : Nat) : RateLimitDecision × RateLimitState K :=
  let state := state.cleanPeriodically now
  match state.windows key with
  | none => (.allowed, state)
  | some recorded =>
    let recorded := cleanWindow recorded now
    let state := { state with windows := Function.update state.windows key (some recorded) }
    if limit ≤ recorded.length then (retryDecision recorded now, state) else (.allowed, state)

def consume (state : RateLimitState K) (key : K) (limit now : Nat) : RateLimitDecision × RateLimitState K :=
  let state := state.cleanPeriodically now
  let recorded := cleanWindow ((state.windows key).getD []) now
  if limit ≤ recorded.length then
    (retryDecision recorded now,
      { state with windows := Function.update state.windows key (some recorded) })
  else
    (.allowed,
      { state with windows := Function.update state.windows key (some (recorded ++ [now])) })

end RateLimitState

/-! ## Runs -/

inductive Operation where
  | check
  | consume
  deriving DecidableEq, Repr

structure Call (K : Type) where
  operation : Operation
  key : K
  limit : Nat
  now : Nat

namespace RateLimitState

variable {K : Type} [DecidableEq K]

def answer (s : RateLimitState K) (c : Call K) : RateLimitDecision × RateLimitState K :=
  match c.operation with
  | .check => s.check c.key c.limit c.now
  | .consume => s.consume c.key c.limit c.now

def step (s : RateLimitState K) (c : Call K) : RateLimitState K := (s.answer c).2

/-- The answers to a sequence of calls. -/
def answers : RateLimitState K → List (Call K) → List RateLimitDecision
  | _, [] => []
  | s, c :: rest => (s.answer c).1 :: answers (s.step c) rest

/-- What a call adds to a key's history: its instant, if it is an allowed consume of the key. -/
def recorded (s : RateLimitState K) (c : Call K) (key : K) : List Nat :=
  if c.operation = .consume ∧ c.key = key ∧ (s.answer c).1 = .allowed then [c.now] else []

/-- The times at which consumes of the key were allowed. -/
def consumed (key : K) : RateLimitState K → List (Call K) → List Nat
  | _, [] => []
  | s, c :: rest => s.recorded c key ++ consumed key (s.step c) rest

/-- The queue of a key. -/
def windowOf (s : RateLimitState K) (key : K) : List Nat := (s.windows key).getD []

end RateLimitState

/-! ## One call -/

def decision (limit now : Nat) (recorded : List Nat) : RateLimitDecision :=
  if limit ≤ recorded.length then retryDecision recorded now else .allowed

theorem cleanWindow_cleanWindow (recorded : List Nat) (now : Nat) :
    cleanWindow (cleanWindow recorded now) now = cleanWindow recorded now :=
  List.dropWhile_idempotent _ _

theorem retryDecision_ne_allowed (recorded : List Nat) (now : Nat) :
    retryDecision recorded now ≠ .allowed := by
  cases recorded <;> simp [retryDecision]

theorem decision_eq_allowed {limit now : Nat} {recorded : List Nat} :
    decision limit now recorded = .allowed ↔ recorded.length < limit := by
  unfold decision
  split
  · have := retryDecision_ne_allowed recorded now
    simp only [this, false_iff]
    omega
  · simp only [true_iff]
    omega

/-- Away from the origin an entry is dropped exactly when it has left the window. -/
theorem le_cutoff {now : Nat} (hnow : window ≤ now) (t : Nat) :
    (decide (t ≤ (checkedSub now window).getD now) = true) ↔ t + window ≤ now := by
  rw [checkedSub, if_pos hnow, Option.getD_some, decide_eq_true_eq]
  omega

namespace RateLimitState

variable {K : Type}

theorem windowOf_retained (s : RateLimitState K) (now : Nat) (operations : UInt8) (key : K) :
    windowOf ⟨retained s.windows now, operations⟩ key = cleanWindow (s.windowOf key) now := by
  simp only [windowOf, retained]
  rcases s.windows key with _ | queue
  · rfl
  · simp only [Option.bind_some, Option.getD_some]
    split <;> simp_all

theorem windowOf_cleanPeriodically (s : RateLimitState K) (now : Nat) (key : K) :
    (s.cleanPeriodically now).windowOf key = s.windowOf key ∨
      (s.cleanPeriodically now).windowOf key = cleanWindow (s.windowOf key) now := by
  unfold cleanPeriodically
  split
  · exact .inl rfl
  · exact .inr (s.windowOf_retained now _ key)

variable {now : Nat}

theorem cleanWindow_windowOf {s : RateLimitState K} {key : K} {last : Nat} {log : List Nat}
    (h : Keeps window last log (s.windowOf key)) (hle : last ≤ now) (hnow : window ≤ now) :
    cleanWindow (s.windowOf key) now = live window now log :=
  (h.later hle).pruned fun t _ => le_cutoff hnow t

/-- So a call that cleans the queue anyway does not see whether it happened. -/
theorem cleanWindow_cleanPeriodically (s : RateLimitState K) (now : Nat) (key : K) :
    cleanWindow ((s.cleanPeriodically now).windowOf key) now = cleanWindow (s.windowOf key) now := by
  rcases s.windowOf_cleanPeriodically now key with h | h
  · rw [h]
  · rw [h, cleanWindow_cleanWindow]

variable [DecidableEq K]

theorem consume_decision (s : RateLimitState K) (key : K) (limit now : Nat) :
    (s.consume key limit now).1 = decision limit now (cleanWindow (s.windowOf key) now) := by
  rw [← s.cleanWindow_cleanPeriodically now key, windowOf, decision, consume]
  split <;> rfl

/-- `check` gives the answer that `consume` would give. -/
theorem check_decision (s : RateLimitState K) (key : K) {limit : Nat} (now : Nat) (hlimit : 1 ≤ limit) :
    (s.check key limit now).1 = decision limit now (cleanWindow (s.windowOf key) now) := by
  rw [← s.cleanWindow_cleanPeriodically now key, windowOf, decision, check]
  rcases (s.cleanPeriodically now).windows key with _ | recorded
  · -- a key that was never consumed has an empty queue
    rw [if_neg (by simp [cleanWindow]; omega)]
  · simp only [Option.getD_some]
    split <;> rfl

theorem windowOf_step_own (s : RateLimitState K) (c : Call K) :
    (s.step c).windowOf c.key = cleanWindow (s.windowOf c.key) c.now ++ s.recorded c c.key := by
  rw [← s.cleanWindow_cleanPeriodically c.now c.key]
  unfold step recorded answer
  rcases c.operation
  · -- a check stores the cleaned queue back, if there is one
    simp only [check, windowOf, reduceCtorEq, false_and, if_false, List.append_nil]
    rcases hq : (s.cleanPeriodically c.now).windows c.key with _ | queue
    · simp [hq, cleanWindow]
    · simp only [Option.getD_some]
      split <;> simp
  · simp only [consume, windowOf, true_and]
    split
    · simp [retryDecision_ne_allowed]
    · simp

/-- Another key's queue can only be cleaned up. -/
theorem windowOf_step_other (s : RateLimitState K) {c : Call K} {key : K} (hkey : c.key ≠ key) :
    (s.step c).windowOf key = (s.cleanPeriodically c.now).windowOf key := by
  unfold step answer
  rcases c.operation
  · simp only [check, windowOf]
    rcases (s.cleanPeriodically c.now).windows c.key with _ | queue
    · rfl
    · simp only
      split <;> simp [Function.update_of_ne (Ne.symm hkey)]
  · simp only [consume, windowOf]
    split <;> simp [Function.update_of_ne (Ne.symm hkey)]

/-- **What a call does to the queue of a key**: the expired front may go, and an allowed consume of
    the key is appended. -/
theorem windowOf_step (s : RateLimitState K) (c : Call K) (key : K) :
    ∃ kept, (kept = s.windowOf key ∨ kept = cleanWindow (s.windowOf key) c.now) ∧
      (s.step c).windowOf key = kept ++ s.recorded c key := by
  by_cases hkey : c.key = key
  · subst hkey
    exact ⟨_, .inr rfl, s.windowOf_step_own c⟩
  · have hnone : s.recorded c key = [] := by simp [recorded, hkey]
    rw [s.windowOf_step_other hkey, hnone]
    rcases s.windowOf_cleanPeriodically c.now key with h | h
    · exact ⟨_, .inl rfl, by rw [h, List.append_nil]⟩
    · exact ⟨_, .inr rfl, by rw [h, List.append_nil]⟩

/-! ## The queue against the history -/

variable {s s' : RateLimitState K} {c : Call K} {key : K} {last : Nat} {log : List Nat}

theorem keeps_step (h : Keeps window last log (s.windowOf key)) (hle : last ≤ c.now) (hnow : window ≤ c.now) :
    Keeps window c.now (log ++ s.recorded c key) ((s.step c).windowOf key) := by
  obtain ⟨kept, hkept, hstep⟩ := s.windowOf_step c key
  have hk : Keeps window c.now log kept := by
    rcases hkept with rfl | rfl
    · exact h.later hle
    · exact (h.later hle).prune fun t _ => le_cutoff hnow t
  rw [hstep, recorded]
  split
  · exact hk.push
  · simpa using hk

variable {calls : List (Call K)}

theorem keeps_run (h : Keeps window last log (s.windowOf key))
    (hmono : (last :: (calls.map Call.now ++ [now])).Pairwise (· ≤ ·))
    (horigin : ∀ d ∈ calls, window ≤ d.now) :
    Keeps window now (log ++ consumed key s calls) ((run step s calls).windowOf key) := by
  induction calls generalizing s last log with
  | nil => simpa [consumed] using h.later (by simpa using hmono)
  | cons c rest ih =>
    obtain ⟨hlast, hrest⟩ := List.pairwise_cons.mp hmono
    have hstep := keeps_step h (hlast c.now (by simp)) (horigin c (by simp))
    have := ih hstep hrest fun d hd => horigin d (by simp [hd])
    rwa [List.append_assoc] at this

theorem answer_eq (h : Keeps window last log (s.windowOf c.key)) (hle : last ≤ c.now)
    (hnow : window ≤ c.now) (hlimit : 1 ≤ c.limit) :
    (s.answer c).1 = decision c.limit c.now (live window c.now log) := by
  rw [← cleanWindow_windowOf h hle hnow]
  unfold answer
  rcases c.operation
  · exact check_decision s c.key c.now hlimit
  · exact consume_decision s c.key c.limit c.now

/-! ## States that answer alike

Two states are alike for a key when their queues keep the live part of ONE history.  Which entries
were already dropped, and how far the counter of `clean_periodically` is, makes no difference. -/

/-- Both queues of the key keep the same history. -/
def Alike (last : Nat) (key : K) (s s' : RateLimitState K) : Prop :=
  ∃ log, Keeps window last log (s.windowOf key) ∧ Keeps window last log (s'.windowOf key)

theorem Alike.answer (h : Alike last c.key s s') (hle : last ≤ c.now) (hnow : window ≤ c.now)
    (hlimit : 1 ≤ c.limit) : (s.answer c).1 = (s'.answer c).1 := by
  obtain ⟨log, hs, hs'⟩ := h
  rw [answer_eq hs hle hnow hlimit, answer_eq hs' hle hnow hlimit]

theorem Alike.step (h : Alike last key s s') (hle : last ≤ c.now) (hnow : window ≤ c.now)
    (hlimit : 1 ≤ c.limit) : Alike c.now key (s.step c) (s'.step c) := by
  have hrecorded : s.recorded c key = s'.recorded c key := by
    by_cases hkey : c.key = key
    · subst hkey
      rw [recorded, recorded, h.answer hle hnow hlimit]
    · simp [recorded, hkey]
  obtain ⟨log, hs, hs'⟩ := h
  exact ⟨_, keeps_step hs hle hnow, hrecorded ▸ keeps_step hs' hle hnow⟩

/-- A call that consumes nothing of the key may happen on one side only. -/
theorem Alike.skip (h : Alike last key s s') (hle : last ≤ c.now) (hnow : window ≤ c.now)
    (hother : ¬ (c.operation = .consume ∧ c.key = key)) : Alike c.now key (s.step c) s' := by
  obtain ⟨log, hs, hs'⟩ := h
  have hnone : s.recorded c key = [] := by
    rw [recorded, if_neg fun hc => hother ⟨hc.1, hc.2.1⟩]
  have := keeps_step hs hle hnow
  rw [hnone, List.append_nil] at this
  exact ⟨log, this, hs'.later hle⟩

theorem Alike.run_filter (h : Alike last key s s')
    (hmono : (last :: (calls.map Call.now ++ [now])).Pairwise (· ≤ ·))
    (horigin : ∀ d ∈ calls, window ≤ d.now) (hlimits : ∀ d ∈ calls, 1 ≤ d.limit) :
    Alike now key (run RateLimitState.step s calls)
      (run RateLimitState.step s' (calls.filter fun d => d.operation = .consume ∧ d.key = key)) := by
  induction calls generalizing s s' last with
  | nil =>
    obtain ⟨log, hs, hs'⟩ := h
    have hle : last ≤ now := by simpa using hmono
    exact ⟨log, hs.later hle, hs'.later hle⟩
  | cons c rest ih =>
    obtain ⟨hlast, hrest⟩ := List.pairwise_cons.mp hmono
    have hle := hlast c.now (by simp)
    have hnow := horigin c (by simp)
    have horigin' : ∀ d ∈ rest, window ≤ d.now := fun d hd => horigin d (by simp [hd])
    have hlimits' : ∀ d ∈ rest, 1 ≤ d.limit := fun d hd => hlimits d (by simp [hd])
    by_cases hc : c.operation = .consume ∧ c.key = key
    · rw [List.filter_cons_of_pos (by simpa using hc)]
      exact ih (h.step hle hnow (hlimits c (by simp))) hrest horigin' hlimits'
    · rw [List.filter_cons_of_neg (by simpa using hc)]
      exact ih (h.skip hle hnow hc) hrest horigin' hlimits'

theorem answers_alike (h : ∀ key, Alike last key s s')
    (hmono : (last :: calls.map Call.now).Pairwise (· ≤ ·)) (horigin : ∀ d ∈ calls, window ≤ d.now)
    (hlimits : ∀ d ∈ calls, 1 ≤ d.limit) : answers s calls = answers s' calls := by
  induction calls generalizing s s' last with
  | nil => rfl
  | cons c rest ih =>
    obtain ⟨hlast, hrest⟩ := List.pairwise_cons.mp hmono
    have hle := hlast c.now (by simp)
    have hnow := horigin c (by simp)
    have hlimit := hlimits c (by simp)
    rw [answers, answers, (h c.key).answer hle hnow hlimit,
      ih (fun key => (h key).step hle hnow hlimit) hrest (fun d hd => horigin d (by simp [hd]))
        fun d hd => hlimits d (by simp [hd])]

/-! ## The limiter is exact away from the origin -/

theorem pairwise_from_zero {nows : List Nat} (h : nows.Pairwise (· ≤ ·)) : (0 :: nows).Pairwise (· ≤ ·) :=
  List.pairwise_cons.mpr ⟨fun _ _ => Nat.zero_le _, h⟩

/-- **The answers are those of the counting limiter.**  For every run of calls whose clock does not go
    back and has passed one window: a consume is allowed iff fewer than `limit` allowed consumes of
    the key lie in `(now - 60 s, now]`; a check answers as the consume would; leaving out the checks
    and the other keys' calls changes nothing; and a clean-up of every queue at any instant, with the
    counter at any value, changes no later answer. -/
theorem consume_exact (calls : List (Call K)) (key : K) (limit now : Nat) (hlimit : 1 ≤ limit)
    (hlimits : ∀ c ∈ calls, 1 ≤ c.limit)
    (hmono : (calls.map Call.now ++ [now]).Pairwise (· ≤ ·))
    (horigin : ∀ t ∈ calls.map Call.now ++ [now], window ≤ t) :
    let s := run step empty calls
    ((s.consume key limit now).1 = .allowed ↔
        ((consumed key empty calls).filter fun t => now < t + window ∧ t ≤ now).length < limit) ∧
      (s.check key limit now).1 = (s.consume key limit now).1 ∧
      ((run step empty (calls.filter fun c => c.operation = .consume ∧ c.key = key)).consume
        key limit now).1 = (s.consume key limit now).1 ∧
      ∀ instant operations later, (∀ c ∈ calls, c.now ≤ instant) → window ≤ instant →
        (instant :: later.map Call.now).Pairwise (· ≤ ·) → (∀ c ∈ later, 1 ≤ c.limit) →
          answers ⟨retained s.windows instant, operations⟩ later = answers s later := by
  intro s
  have hcalls : ∀ d ∈ calls, window ≤ d.now := fun d hd => horigin d.now (by simp; exact .inl ⟨d, hd, rfl⟩)
  have hnow : window ≤ now := horigin now (by simp)
  have hempty : ∀ key : K, Keeps window 0 [] (windowOf empty key) := fun _ => Keeps.empty _ _
  have hkeeps := keeps_run (hempty key) (pairwise_from_zero hmono) hcalls
  rw [List.nil_append] at hkeeps
  have hconsume := s.consume_decision key limit now
  refine ⟨?_, ?_, ?_, ?_⟩
  · rw [hconsume, cleanWindow_windowOf hkeeps le_rfl hnow, decision_eq_allowed]
    have hlive : live window now (consumed key empty calls)
        = (consumed key empty calls).filter fun t => now < t + window ∧ t ≤ now := by
      refine List.filter_congr fun t ht => ?_
      have := hkeeps.past t ht
      simp [this]
    rw [hlive]
  · rw [hconsume, s.check_decision key now hlimit]
  · have halike : Alike now key _ _ := Alike.run_filter ⟨[], hempty key, hempty key⟩
      (pairwise_from_zero hmono) hcalls hlimits
    have := halike.answer (c := ⟨.consume, key, limit, now⟩) le_rfl hnow hlimit
    exact this.symm
  · intro instant operations later hpast hinstant hlater hlimits'
    have hbetween : (calls.map Call.now ++ [instant]).Pairwise (· ≤ ·) := by
      obtain ⟨hpairs, -, -⟩ := List.pairwise_append.mp hmono
      refine List.pairwise_append.mpr ⟨hpairs, List.pairwise_singleton _ _, ?_⟩
      intro t ht t' ht'
      obtain ⟨d, hd, rfl⟩ := List.mem_map.mp ht
      rw [List.mem_singleton.mp ht']
      exact hpast d hd
    refine answers_alike (fun other => ?_) hlater ?_ hlimits'
    · have hother := keeps_run (hempty other) (pairwise_from_zero hbetween) hcalls
      refine ⟨_, ?_, hother⟩
      rw [windowOf_retained]
      exact hother.prune fun t _ => le_cutoff hinstant t
    · intro d hd
      have := (List.pairwise_cons.mp hlater).1 d.now (List.mem_map_of_mem hd)
      omega

/-- One second into the clock the first consume is already forgotten. -/
theorem consume_forgets_early :
    let first : Call Nat := ⟨.consume, 7, 1, 0⟩
    ((run step empty [first]).consume 7 1 nanosPerSecond).1 = .allowed ∧
      ((consumed 7 empty [first]).filter fun t =>
        nanosPerSecond < t + window ∧ t ≤ nanosPerSecond).length = 1 := by
  decide

theorem consume_exact_second : ((run step empty [(⟨.consume, 7, 1, window⟩ : Call Nat)]).consume 7 1
      (window + nanosPerSecond)).1 ≠ .allowed := by
  have h := (consume_exact [(⟨.consume, 7, 1, window⟩ : Call Nat)] 7 1 (window + nanosPerSecond)
    (by decide) (by decide) (by decide) (by decide)).1
  rw [ne_eq, h]
  decide

/-! ## How long to wait -/

theorem windowOf_run_past (h : ∀ t ∈ s.windowOf key, t ≤ now) (hnow : ∀ d ∈ calls, d.now ≤ now) :
    ∀ t ∈ (run step s calls).windowOf key, t ≤ now := by
  induction calls generalizing s with
  | nil => exact h
  | cons c rest ih =>
    refine ih ?_ fun d hd => hnow d (by simp [hd])
    obtain ⟨kept, hkept, hstep⟩ := s.windowOf_step c key
    intro t ht
    rw [hstep, List.mem_append] at ht
    rcases ht with ht | ht
    · refine h t ?_
      rcases hkept with rfl | rfl
      · exact ht
      · exact (List.dropWhile_sublist _).subset ht
    · have : t = c.now := by
        unfold recorded at ht
        split at ht <;> simp_all
      exact this ▸ hnow c (by simp)

theorem windowOf_run_suffix (hnone : consumed key s calls = []) :
    (run step s calls).windowOf key <:+ s.windowOf key := by
  induction calls generalizing s with
  | nil => exact List.suffix_rfl
  | cons c rest ih =>
    obtain ⟨hc, hrest⟩ := List.append_eq_nil_iff.mp hnone
    obtain ⟨kept, hkept, hstep⟩ := s.windowOf_step c key
    have hfront : (s.step c).windowOf key <:+ s.windowOf key := by
      rw [hstep, hc, List.append_nil]
      rcases hkept with rfl | rfl
      · exact List.suffix_rfl
      · exact List.dropWhile_suffix _
    exact (ih hrest).trans hfront

theorem limited_call {retryAfter : Nat} (hlimit : 1 ≤ c.limit)
    (hlimited : (s.answer c).1 = .limited retryAfter) :
    ∃ oldest rest, cleanWindow (s.windowOf c.key) c.now = oldest :: rest ∧ c.limit ≤ rest.length + 1 ∧
      retryAfter = max ((window - (c.now - oldest)) / nanosPerSecond) 1 := by
  have hdecision : (s.answer c).1 = decision c.limit c.now (cleanWindow (s.windowOf c.key) c.now) := by
    unfold answer
    rcases c.operation
    · exact check_decision s c.key c.now hlimit
    · exact consume_decision s c.key c.limit c.now
  rw [hdecision, decision] at hlimited
  split at hlimited
  · rename_i hfull
    rcases hq : cleanWindow (s.windowOf c.key) c.now with _ | ⟨oldest, rest⟩
    · rw [hq, List.length_nil] at hfull
      omega
    · rw [hq] at hlimited hfull
      refine ⟨oldest, rest, rfl, hfull, ?_⟩
      simpa [retryDecision, eq_comm] using hlimited
  · cases hlimited

/-- A queue of at most `limit` entries has room once its oldest has left the window. -/
theorem consume_after_oldest {oldest limit : Nat} {rest : List Nat}
    (hsuffix : s.windowOf key <:+ oldest :: rest) (hroom : rest.length + 1 ≤ limit)
    (hexpired : oldest + window ≤ now) : (s.consume key limit now).1 = .allowed := by
  rw [consume_decision, decision_eq_allowed]
  rcases List.suffix_cons_iff.mp hsuffix with hwhole | hless
  · -- nothing was dropped before: the oldest is dropped now
    have hgone := (le_cutoff (by omega) oldest).mpr hexpired
    rw [hwhole, cleanWindow, List.dropWhile_cons_of_pos (by exact hgone)]
    have := (List.dropWhile_sublist (l := rest)
      (fun t => decide (t ≤ (checkedSub now window).getD now))).length_le
    omega
  · have hshort := hless.length_le
    have := (List.dropWhile_sublist (l := s.windowOf key)
      (fun t => decide (t ≤ (checkedSub now window).getD now))).length_le
    rw [cleanWindow]
    omega

/-- **When waiting for `retry_after` is enough.**  A call at `c.now` of a reachable limiter was limited
    with `retryAfter`; its cleaned queue holds no more than `c.limit` entries, and the time its
    oldest entry has left is a whole number of seconds, or at most one.  If the key is not
    consumed in between, consuming it at any `now` from `retryAfter` seconds on is allowed. -/
theorem retry_after_enough (before between : List (Call K)) (c : Call K) (retryAfter now : Nat)
    (hlimit : 1 ≤ c.limit) (hmono : ((before ++ c :: between).map Call.now ++ [now]).Pairwise (· ≤ ·))
    (hlimited : ((run step empty before).answer c).1 = .limited retryAfter)
    (hroom : (cleanWindow ((run step empty before).windowOf c.key) c.now).length ≤ c.limit)
    (hwhole : ∀ oldest ∈ (cleanWindow ((run step empty before).windowOf c.key) c.now).head?,
      nanosPerSecond ∣ window - (c.now - oldest) ∨ window - (c.now - oldest) ≤ nanosPerSecond)
    (hnone : consumed c.key (run step empty (before ++ [c])) between = [])
    (hlate : c.now + retryAfter * nanosPerSecond ≤ now) :
    ((run step empty (before ++ c :: between)).consume c.key c.limit now).1 = .allowed := by
  obtain ⟨oldest, rest, hqueue, hfull, hretry⟩ := limited_call hlimit hlimited
  rw [hqueue] at hroom hwhole
  -- 1. The oldest entry lies in the past, so the wait brings the clock to its end of the window.
  have hpast : oldest ≤ c.now := by
    have hempty : ∀ t ∈ windowOf empty c.key, t ≤ c.now := by simp [windowOf, empty]
    have hbefore : ∀ d ∈ before, d.now ≤ c.now := by
      intro d hd
      simp only [List.map_append, List.map_cons, List.append_assoc] at hmono
      exact (List.pairwise_append.mp hmono).2.2 d.now (List.mem_map_of_mem hd) c.now (by simp)
    refine windowOf_run_past hempty hbefore oldest ?_
    refine (List.dropWhile_sublist _).subset (?_ : oldest ∈ cleanWindow _ c.now)
    rw [hqueue]
    simp
  have hwait : window - (c.now - oldest) ≤ retryAfter * nanosPerSecond := by
    rw [hretry]
    rcases hwhole oldest (by simp) with hdvd | hshort
    · calc window - (c.now - oldest)
          = (window - (c.now - oldest)) / nanosPerSecond * nanosPerSecond :=
            (Nat.div_mul_cancel hdvd).symm
        _ ≤ _ := Nat.mul_le_mul_right _ (le_max_left _ _)
    · calc window - (c.now - oldest) ≤ 1 * nanosPerSecond := by omega
        _ ≤ _ := Nat.mul_le_mul_right _ (le_max_right _ _)
  -- 2. The limited call itself and the calls in between record nothing, so the queue only shrinks.
  have hsuffix : (run step empty (before ++ c :: between)).windowOf c.key <:+ oldest :: rest := by
    have hnothing : (run step empty before).recorded c c.key = [] := by simp [recorded, hlimited]
    have hrest := windowOf_run_suffix hnone
    rw [run_append, run_cons, run_nil, windowOf_step_own, hnothing, hqueue, List.append_nil] at hrest
    rwa [run_append, run_cons]
  exact consume_after_oldest hsuffix hroom (by omega)

/-- With 59.5 s left the answer says 59, and 59 s later the key is still limited. -/
theorem retry_after_too_short :
    let first : Call Nat := ⟨.consume, 7, 1, window + 500000000⟩
    let second : Call Nat := ⟨.consume, 7, 1, window + nanosPerSecond⟩
    ((run step empty [first]).answer second).1 = .limited 59 ∧
      ((run step empty [first, second]).consume 7 1 (second.now + 59 * nanosPerSecond)).1
        = .limited 1 := by
  decide

theorem retry_after_enough_second :
    ((run step empty [(⟨.consume, 7, 1, window⟩ : Call Nat), ⟨.check, 7, 1, window + nanosPerSecond⟩,
      ⟨.consume, 8, 1, window + nanosPerSecond⟩]).consume 7 1 (2 * window)).1 = .allowed :=
  retry_after_enough [⟨.consume, 7, 1, window⟩] [⟨.consume, 8, 1, window + nanosPerSecond⟩]
    ⟨.check, 7, 1, window + nanosPerSecond⟩ 59 (2 * window) (by decide) (by decide) (by decide)
    (by decide) (by decide) (by decide) (by decide)

end RateLimitState

end Bondry.Http
