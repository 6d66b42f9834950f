/-
  The REQUEST LIMITER of the webhook ingress over whole runs (`limiter.rs`).

  One limiter serves every fixed principal.  Its clock is the running maximum of the readings, and
  each principal has a queue of the times at which it was admitted.  One call touches the queue of
  its own principal only (`queue_step_own`, `queue_step_other`), so the results are about one queue.

  It keeps the live part of the principal's history, PROVIDED no admission happened at time 0: below one
  window the saturated cutoff is 0, and a time of 0 is dropped as if it had left.
-/
import Bondry.Lib.Run
import Bondry.Lib.Window
import Bondry.Webhook.Ingress

namespace Bondry.Webhook

open Bondry.Window

namespace AuthenticatedRequestLimiter

def new (requestsPerMinute : Nat) : Option AuthenticatedRequestLimiter :=
  if h : 1 ≤ requestsPerMinute ∧ requestsPerMinute ≤ 60000 then some ⟨requestsPerMinute, 0, ∅, h⟩
  else none

/-! ## Runs -/

abbrev Request := PrincipalId × Nat

def step (limiter : AuthenticatedRequestLimiter) (request : Request) : AuthenticatedRequestLimiter :=
  (limiter.admitRequest request.1 request.2).2

/-- The time of a call: the running maximum of the readings. -/
def clamped (limiter : AuthenticatedRequestLimiter) (reading : Nat) : Nat :=
  max reading limiter.lastMonotonicMilliseconds

/-- What a call adds to a principal's history: its time, if it is an allowed one of the principal. -/
def recorded (limiter : AuthenticatedRequestLimiter) (request : Request) (principal : PrincipalId) :
    List Nat :=
  if request.1 = principal ∧ (limiter.admitRequest request.1 request.2).1 = .allowed then
    [limiter.clamped request.2]
  else []

def allowedTimes (principal : PrincipalId) : AuthenticatedRequestLimiter → List Request → List Nat
  | _, [] => []
  | limiter, request :: rest =>
    limiter.recorded request principal ++ allowedTimes principal (limiter.step request) rest

/-- The same calls, each with its time for a reading. -/
def clampedRequests : Nat → List Request → List Request
  | _, [] => []
  | last, (principal, reading) :: rest =>
    (principal, max reading last) :: clampedRequests (max reading last) rest

def queue (limiter : AuthenticatedRequestLimiter) (principal : PrincipalId) : List Nat :=
  limiter.principals[principal]?.getD []

/-! ## One call -/

/-- The queue of a principal without its expired front, as a call at time `now` sees it. -/
def cleaned (limiter : AuthenticatedRequestLimiter) (principal : PrincipalId) (now : Nat) : List Nat :=
  (limiter.queue principal).dropWhile (· ≤ now - windowMilliseconds)

theorem admitRequest_eq (limiter : AuthenticatedRequestLimiter) (principal : PrincipalId)
    (reading : Nat) :
    limiter.admitRequest principal reading =
      let now := limiter.clamped reading
      let requests := limiter.cleaned principal now
      if limiter.requestsPerMinute ≤ requests.length then
        (.limited (retryAfter requests now),
          { limiter with
            lastMonotonicMilliseconds := now
            principals := limiter.principals.insert principal requests })
      else
        (.allowed,
          { limiter with
            lastMonotonicMilliseconds := now
            principals := limiter.principals.insert principal (requests ++ [now]) }) := rfl

theorem admitRequest_decision (limiter : AuthenticatedRequestLimiter) (principal : PrincipalId)
    (reading : Nat) : (limiter.admitRequest principal reading).1 =
      if limiter.requestsPerMinute ≤ (limiter.cleaned principal (limiter.clamped reading)).length then
        .limited (retryAfter (limiter.cleaned principal (limiter.clamped reading)) (limiter.clamped reading))
      else .allowed := by
  rw [admitRequest_eq]
  dsimp only
  split <;> rfl

variable {limiter : AuthenticatedRequestLimiter} {principal : PrincipalId} {reading : Nat}

theorem admitRequest_allowed : (limiter.admitRequest principal reading).1 = .allowed ↔
      (limiter.cleaned principal (limiter.clamped reading)).length < limiter.requestsPerMinute := by
  rw [admitRequest_decision]
  split
  · simp only [reduceCtorEq, false_iff]
    omega
  · simp only [true_iff]
    omega

@[simp] theorem requestsPerMinute_step (limiter : AuthenticatedRequestLimiter) (request : Request) :
    (limiter.step request).requestsPerMinute = limiter.requestsPerMinute := by
  simp only [step, admitRequest]
  split <;> rfl

@[simp] theorem last_step (limiter : AuthenticatedRequestLimiter) (request : Request) :
    (limiter.step request).lastMonotonicMilliseconds = limiter.clamped request.2 := by
  simp only [step, admitRequest]
  split <;> rfl

theorem queue_step_own (limiter : AuthenticatedRequestLimiter) (request : Request) :
    (limiter.step request).queue request.1 =
      limiter.cleaned request.1 (limiter.clamped request.2) ++ limiter.recorded request request.1 := by
  rw [step, recorded, admitRequest_eq]
  dsimp only
  split <;> simp [queue]

variable {request : Request}

theorem queue_step_other (limiter : AuthenticatedRequestLimiter) (h : request.1 ≠ principal) :
    (limiter.step request).queue principal = limiter.queue principal := by
  simp only [step, admitRequest, queue]
  split <;> simp [BTreeMap.find_insert_ne _ _ h]

theorem recorded_other (limiter : AuthenticatedRequestLimiter) (h : request.1 ≠ principal) :
    limiter.recorded request principal = [] := by
  simp [recorded, h]

@[simp] theorem requestsPerMinute_run (limiter : AuthenticatedRequestLimiter) (requests : List Request) :
    (run step limiter requests).requestsPerMinute = limiter.requestsPerMinute := by
  induction requests generalizing limiter with
  | nil => rfl
  | cons request rest ih => rw [run_cons, ih, requestsPerMinute_step]

/-! ## The bound on every window -/

/-- The queue keeps the live part of a history without zeros that was admitted at the allowed pace. -/
structure Sound (limiter : AuthenticatedRequestLimiter) (principal : PrincipalId) (log : List Nat) :
    Prop where
  keeps : Keeps windowMilliseconds limiter.lastMonotonicMilliseconds log (limiter.queue principal)
  paced : Paced windowMilliseconds limiter.requestsPerMinute log
  positive : ∀ t ∈ log, 1 ≤ t

theorem le_cutoff {now t : Nat} (ht : 1 ≤ t) :
    (decide (t ≤ now - windowMilliseconds) = true) ↔ t + windowMilliseconds ≤ now := by
  rw [decide_eq_true_eq, windowMilliseconds]
  omega

theorem Sound.step {log : List Nat} (h : limiter.Sound principal log)
    (hpositive : 1 ≤ limiter.clamped request.2) :
    (limiter.step request).Sound principal (log ++ limiter.recorded request principal) := by
  have hlater : Keeps windowMilliseconds (limiter.clamped request.2) log (limiter.queue principal) :=
    h.keeps.later (le_max_right _ _)
  have hexpired : ∀ t ∈ log, decide (t ≤ limiter.clamped request.2 - windowMilliseconds) = true ↔
      t + windowMilliseconds ≤ limiter.clamped request.2 := fun t ht => le_cutoff (h.positive t ht)
  by_cases hown : request.1 = principal
  · subst hown
    have hlive : limiter.cleaned request.1 (limiter.clamped request.2) = _ := hlater.pruned hexpired
    by_cases hallowed : (limiter.admitRequest request.1 request.2).1 = .allowed
    · have hrecorded : limiter.recorded request request.1 = [limiter.clamped request.2] := by
        simp [recorded, hallowed]
      have hroom := admitRequest_allowed.mp hallowed
      rw [hlive] at hroom
      refine ⟨?_, ?_, ?_⟩
      · rw [last_step, queue_step_own, hrecorded]
        exact (hlater.prune hexpired).push
      · rw [requestsPerMinute_step, hrecorded]
        exact h.paced.snoc hlater.past hroom
      · rw [hrecorded]
        intro t ht
        rcases List.mem_append.mp ht with ht | ht
        · exact h.positive t ht
        · exact List.mem_singleton.mp ht ▸ hpositive
    · have hrecorded : limiter.recorded request request.1 = [] := by simp [recorded, hallowed]
      rw [hrecorded, List.append_nil]
      refine ⟨?_, by simpa using h.paced, h.positive⟩
      rw [last_step, queue_step_own, hrecorded, List.append_nil]
      exact hlater.prune hexpired
  · rw [recorded_other _ hown, List.append_nil]
    refine ⟨?_, by simpa using h.paced, h.positive⟩
    rw [last_step, queue_step_other _ hown]
    exact hlater

theorem Sound.run {log : List Nat} {requests : List Request} (h : limiter.Sound principal log)
    (hpositive : ∀ request ∈ requests.head?, 1 ≤ limiter.clamped request.2) :
    (run AuthenticatedRequestLimiter.step limiter requests).Sound principal
      (log ++ allowedTimes principal limiter requests) := by
  induction requests generalizing limiter log with
  | nil => simpa [allowedTimes] using h
  | cons request rest ih =>
    have hnow := hpositive request (by simp)
    rw [allowedTimes, ← List.append_assoc]
    refine ih (h.step hnow) fun next _ => ?_
    -- the clock never goes back below the first reading
    rw [clamped, last_step]
    exact hnow.trans (le_max_right _ _)

/-! ## Other principals -/

/-- Two limiters that hold the same queue for a principal, the second one's clock not ahead. -/
structure Agrees (principal : PrincipalId) (limiter other : AuthenticatedRequestLimiter) : Prop where
  limit : other.requestsPerMinute = limiter.requestsPerMinute
  queues : other.queue principal = limiter.queue principal
  behind : other.lastMonotonicMilliseconds ≤ limiter.lastMonotonicMilliseconds

variable {principal : PrincipalId} {limiter other : AuthenticatedRequestLimiter}

theorem Agrees.clamped (h : Agrees principal limiter other) (reading : Nat) :
    other.clamped (limiter.clamped reading) = limiter.clamped reading :=
  max_eq_left (h.behind.trans (le_max_right _ _))

theorem Agrees.cleaned (h : Agrees principal limiter other) (now : Nat) :
    other.cleaned principal now = limiter.cleaned principal now := by
  rw [AuthenticatedRequestLimiter.cleaned, AuthenticatedRequestLimiter.cleaned, h.queues]

theorem Agrees.decision (h : Agrees principal limiter other) (reading : Nat) :
    (other.admitRequest principal (limiter.clamped reading)).1 =
      (limiter.admitRequest principal reading).1 := by
  rw [admitRequest_decision, admitRequest_decision, h.clamped, h.cleaned, h.limit]

theorem Agrees.step_own (h : Agrees principal limiter other) (reading : Nat) :
    Agrees principal (limiter.step (principal, reading))
      (other.step (principal, limiter.clamped reading)) := by
  refine ⟨by simp [h.limit], ?_, by simp [h.clamped]⟩
  have hown := queue_step_own limiter (principal, reading)
  have hother := queue_step_own other (principal, limiter.clamped reading)
  rw [hown, hother, recorded, recorded, h.decision reading]
  simp only [h.clamped, h.cleaned]

theorem Agrees.step_other (h : Agrees principal limiter other) (hne : request.1 ≠ principal) :
    Agrees principal (limiter.step request) other := by
  refine ⟨by simp [h.limit], ?_, ?_⟩
  · rw [queue_step_other _ hne, h.queues]
  · rw [last_step]
    exact h.behind.trans (le_max_right _ _)

/-- **Leaving out the other principals' calls**, with every reading replaced by its time, gives a
    limiter that agrees for the principal. -/
theorem Agrees.run_filter (h : Agrees principal limiter other) (requests : List Request) :
    Agrees principal (run step limiter requests)
      (run step other ((clampedRequests limiter.lastMonotonicMilliseconds requests).filter
        (·.1 = principal))) := by
  induction requests generalizing limiter other with
  | nil => exact h
  | cons request rest ih =>
    obtain ⟨name, reading⟩ := request
    have hlast : max reading limiter.lastMonotonicMilliseconds
        = (limiter.step (name, reading)).lastMonotonicMilliseconds := by
      rw [last_step, AuthenticatedRequestLimiter.clamped]
    by_cases hname : name = principal
    · subst hname
      rw [clampedRequests, List.filter_cons_of_pos (by simp), run_cons, run_cons, hlast]
      have := ih (h.step_own reading)
      rwa [last_step] at this ⊢
    · rw [clampedRequests, List.filter_cons_of_neg (by simpa using hname), run_cons, hlast]
      exact ih (h.step_other hname)

/-! ## How long to wait -/

/-- The queue never holds more than the limit, and lies in the past. -/
structure Bounded (limiter : AuthenticatedRequestLimiter) (principal : PrincipalId) : Prop where
  length : (limiter.queue principal).length ≤ limiter.requestsPerMinute
  past : ∀ t ∈ limiter.queue principal, t ≤ limiter.lastMonotonicMilliseconds

theorem Bounded.step (h : limiter.Bounded principal) : (limiter.step request).Bounded principal := by
  by_cases hown : request.1 = principal
  · subst hown
    have hsub : (limiter.cleaned request.1 (limiter.clamped request.2)).Sublist
        (limiter.queue request.1) := List.dropWhile_sublist _
    constructor
    · rw [queue_step_own, requestsPerMinute_step, List.length_append, recorded]
      split
      · rename_i hallowed
        have := admitRequest_allowed.mp hallowed.2
        simpa using this
      · exact hsub.length_le.trans h.length
    · rw [queue_step_own, last_step]
      intro t ht
      rcases List.mem_append.mp ht with ht | ht
      · exact (h.past t (hsub.subset ht)).trans (le_max_right _ _)
      · unfold recorded at ht
        split at ht <;> simp_all
  · refine ⟨?_, ?_⟩
    · rw [queue_step_other _ hown, requestsPerMinute_step]
      exact h.length
    · rw [queue_step_other _ hown, last_step]
      exact fun t ht => (h.past t ht).trans (le_max_right _ _)

theorem Bounded.run (h : limiter.Bounded principal) (requests : List Request) :
    (run AuthenticatedRequestLimiter.step limiter requests).Bounded principal := by
  induction requests generalizing limiter with
  | nil => exact h
  | cons request rest ih => exact ih h.step

theorem queue_run_suffix {requests : List Request} (hnone : allowedTimes principal limiter requests = []) :
    (run step limiter requests).queue principal <:+ limiter.queue principal := by
  induction requests generalizing limiter with
  | nil => exact List.suffix_rfl
  | cons request rest ih =>
    obtain ⟨hrequest, hrest⟩ := List.append_eq_nil_iff.mp hnone
    refine (ih hrest).trans ?_
    by_cases hown : request.1 = principal
    · subst hown
      rw [queue_step_own, hrequest, List.append_nil]
      exact List.dropWhile_suffix _
    · rw [queue_step_other _ hown]

/-- A queue of at most `requestsPerMinute` entries has room once its oldest has left the window. -/
theorem admit_after_oldest {oldest : Nat} {rest : List Nat}
    (hsuffix : limiter.queue principal <:+ oldest :: rest)
    (hroom : rest.length + 1 ≤ limiter.requestsPerMinute)
    (hexpired : oldest + windowMilliseconds ≤ limiter.clamped reading) :
    (limiter.admitRequest principal reading).1 = .allowed := by
  rw [admitRequest_allowed, cleaned]
  have hshort : ∀ (p : Nat → Bool) (l : List Nat), (l.dropWhile p).length ≤ l.length :=
    fun p l => (List.dropWhile_sublist p).length_le
  rcases List.suffix_cons_iff.mp hsuffix with hwhole | hless
  · rw [hwhole, List.dropWhile_cons_of_pos (by simp only [decide_eq_true_eq]; omega)]
    have := hshort (fun t => decide (t ≤ limiter.clamped reading - windowMilliseconds)) rest
    omega
  · have := hless.length_le
    have := hshort (fun t => decide (t ≤ limiter.clamped reading - windowMilliseconds))
      (limiter.queue principal)
    omega

/-- **Waiting is enough**: the wait is rounded up, and nothing was cut off at the end of the clock. -/
theorem admit_after_wait {wait later : Nat} {between : List Request} (h : limiter.Bounded principal)
    (hlimited : (limiter.admitRequest principal reading).1 = .limited wait)
    (hend : limiter.clamped reading + windowMilliseconds ≤ u64Max)
    (hnone : allowedTimes principal (limiter.step (principal, reading)) between = [])
    (hlate : limiter.clamped reading + 1000 * wait ≤
      (run step limiter ((principal, reading) :: between)).clamped later) :
    ((run step limiter ((principal, reading) :: between)).admitRequest principal later).1 = .allowed := by
  have hnothing : limiter.recorded (principal, reading) principal = [] := by
    simp [recorded, hlimited]
  have hsuffix := queue_run_suffix hnone
  have hown := queue_step_own limiter (principal, reading)
  rw [hown, hnothing, List.append_nil] at hsuffix
  rw [admitRequest_decision] at hlimited
  split at hlimited
  · rename_i hfull
    have hsub : (limiter.cleaned principal (limiter.clamped reading)).Sublist
      (limiter.queue principal) := List.dropWhile_sublist _
    rcases hqueue : limiter.cleaned principal (limiter.clamped reading) with _ | ⟨oldest, rest⟩
    · have := limiter.requestsPerMinute_mem
      rw [hqueue, List.length_nil] at hfull
      omega
    rw [hqueue] at hsuffix hlimited hsub
    have hlength : rest.length + 1 ≤ limiter.requestsPerMinute := hsub.length_le.trans h.length
    have hpast : oldest ≤ limiter.clamped reading :=
      (h.past oldest (hsub.subset (by simp))).trans (le_max_right _ _)
    refine admit_after_oldest hsuffix (by simpa using hlength) ?_
    simp only [AuthenticatedAdmission.limited.injEq, retryAfter] at hlimited
    rw [min_eq_left (by omega)] at hlimited
    omega
  · cases hlimited

/-! ## The limiter as a whole -/

theorem new_eq_some {requestsPerMinute : Nat} (hnew : new requestsPerMinute = some limiter) :
    limiter.requestsPerMinute = requestsPerMinute ∧ limiter.lastMonotonicMilliseconds = 0 ∧
      ∀ principal, limiter.queue principal = [] := by
  unfold new at hnew
  split at hnew
  · cases hnew
    exact ⟨rfl, rfl, fun principal => by simp [queue]⟩
  · cases hnew

/-- **The limiter's bound**, over every run of a new limiter: unless the first reading is 0, no
    half-open window holds more than `requestsPerMinute` allowed admissions of a principal; a decision
    does not change when the other principals' calls are left out and readings are replaced by their
    times; and waiting is enough, unless the end of the clock is less than one window away. -/
theorem limiter_bound {requestsPerMinute : Nat} (hnew : new requestsPerMinute = some limiter)
    (requests : List Request) (principal : PrincipalId) :
    ((∀ request ∈ requests.head?, 1 ≤ request.2) →
      ∀ start, ((allowedTimes principal limiter requests).filter fun t =>
        start ≤ t ∧ t < start + windowMilliseconds).length ≤ requestsPerMinute) ∧
      (∀ reading, ((run step limiter requests).admitRequest principal reading).1 =
        ((run step limiter ((clampedRequests 0 requests).filter (·.1 = principal))).admitRequest
          principal ((run step limiter requests).clamped reading)).1) ∧
      ∀ reading wait between later,
        let s := run step limiter requests
        let s' := run step s ((principal, reading) :: between)
        s.clamped reading + windowMilliseconds ≤ u64Max →
        (s.admitRequest principal reading).1 = .limited wait →
        allowedTimes principal (s.step (principal, reading)) between = [] →
        s.clamped reading + 1000 * wait ≤ s'.clamped later →
          (s'.admitRequest principal later).1 = .allowed := by
  obtain ⟨hlimit, hlast, hqueue⟩ := new_eq_some hnew
  refine ⟨?_, ?_, ?_⟩
  · intro hfirst
    have hinit : limiter.Sound principal [] := by
      refine ⟨?_, .nil, by simp⟩
      rw [hqueue principal]
      exact Keeps.empty _ _
    have hrun : (run step limiter requests).Sound principal _ := hinit.run fun request hrequest =>
      (hfirst request hrequest).trans (le_max_left _ _)
    have hpaced := hrun.paced
    rw [requestsPerMinute_run, hlimit, List.nil_append] at hpaced
    exact hpaced.within
  · intro reading
    have hself : Agrees principal limiter limiter := ⟨rfl, rfl, le_rfl⟩
    have hagrees := hself.run_filter requests
    rw [hlast] at hagrees
    exact (hagrees.decision reading).symm
  · intro reading wait between later s s' hend hlimited hnone hlate
    have hinit : limiter.Bounded principal := by
      constructor <;> simp [hqueue principal]
    exact admit_after_wait (hinit.run requests) hlimited hend hnone hlate

def samplePrincipal : PrincipalId := ⟨"p".toList, by decide⟩

/-- At reading 0, where the ingress's own clock starts, a limit of one does not limit.  And one second
    before the end of the clock the wait is cut to that second, after which the principal is still
    limited. -/
theorem limiter_boundaries :
    ∃ limiter, new 1 = some limiter ∧
      ((allowedTimes samplePrincipal limiter [(samplePrincipal, 0), (samplePrincipal, 0)]).filter
        fun t => 0 ≤ t ∧ t < 0 + windowMilliseconds).length = 2 ∧
      let late := run step limiter [(samplePrincipal, u64Max - 1000)]
      (late.admitRequest samplePrincipal (u64Max - 1000)).1 = .limited 1 ∧
        ((late.step (samplePrincipal, u64Max - 1000)).admitRequest samplePrincipal u64Max).1
          ≠ .allowed := by
  refine ⟨_, rfl, ?_, ?_, ?_⟩
  · decide +kernel
  · decide +kernel
  · decide +kernel

/-- From reading 1 on, the second of two requests is limited for 60 s, and then there is room. -/
theorem limiter_bound_second : ∃ limiter, new 1 = some limiter ∧
      ((allowedTimes samplePrincipal limiter [(samplePrincipal, 1), (samplePrincipal, 1)]).filter
        fun t => 0 ≤ t ∧ t < 0 + windowMilliseconds).length ≤ 1 ∧
      ((run step (run step limiter [(samplePrincipal, 1)]) [(samplePrincipal, 1)]).admitRequest
        samplePrincipal 60001).1 = .allowed := by
  have hnew : new 1 = some ⟨1, 0, ∅, by decide⟩ := rfl
  refine ⟨_, hnew, ?_, ?_⟩
  · exact (limiter_bound hnew [(samplePrincipal, 1), (samplePrincipal, 1)] samplePrincipal).1
      (by decide) 0
  · exact (limiter_bound hnew [(samplePrincipal, 1)] samplePrincipal).2.2 1 60 [] 60001
      (by decide +kernel) (by decide +kernel) rfl (by decide +kernel)

end AuthenticatedRequestLimiter

end Bondry.Webhook
