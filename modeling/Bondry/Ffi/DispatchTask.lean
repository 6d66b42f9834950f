/-
  THE DISPATCH TASK of the runtime's C interface (`capabilities.rs`, `DispatchTask`).

  A future is driven by whoever asks for a poll.  Two atomic flags hand the role of the DRIVER around:
  `polling` is taken by one caller at a time, `poll_requested` tells the driver to poll once more.
  Every call of `request_poll` (the first one, a wake from anywhere, a wake made inside the poll) is
  a process of its own; its program point says which atomic step comes next, and one step of one
  process is one atomic access, with everything under the mutex between two such steps.  Any
  interleaving of such steps is a run.

  1. **The driver** is unique (`Sound.driver`), and so is the owner of the mutex (`Sound.lock`): the
     future is never polled twice at once.
  2. **The answer** (`Answer`): the result is waited for, carried by one process, or delivered.
  3. **No wake-up is lost** (`Due`): while a request has seen no poll begin, some process is bound
     to begin one, or the flag is up and somebody will still look at it.  ONE step breaks this: a driver
     that has given `polling` back, takes a request down and then LOSES the exchange to a process that
     is already polling.  `wakeup_lost` is the run; `task_polls` excludes that step and nothing else.
-/
import Bondry.Lib.Run
import Bondry.Lib.Token

namespace Bondry.Ffi

/-! ## The code -/

/-- Where a call of `request_poll` stands: the atomic step it takes next. -/
inductive Point (ρ : Type) where
  /-- Not called yet; first `poll_requested.store(true)`. -/
  | idle
  /-- `polling.compare_exchange` of `request_poll`. -/
  | exchanging
  /-- `poll_requested.store(false)` at the head of the loop of `drive`. -/
  | clearing
  /-- `lock(&self.state)`. -/
  | locking
  /-- Under the lock: is there still a future? -/
  | checking
  /-- Inside `poll`. -/
  | polling
  /-- The end of the block that holds the lock. -/
  | unlocking (completed : Option ρ)
  /-- The future was gone: return, which unlocks. -/
  | leaving
  /-- `polling.store(false)` before the callback. -/
  | completing (result : ρ)
  | calling (result : ρ)
  /-- `poll_requested.swap(false)` after a poll that is pending. -/
  | swapping
  /-- `polling.store(false)`. -/
  | releasing
  /-- `poll_requested.swap(false)` after the release. -/
  | rechecking
  /-- `polling.compare_exchange` after a request was taken down. -/
  | retaking
  | returned
  deriving DecidableEq

inductive TaskEvent (ι ρ : Type) where
  | begun (call : ι)
  | pollBegan (call : ι)
  | pollEnded (call : ι) (ready : Option ρ)
  | called (result : ρ)
  deriving DecidableEq

/-- `DispatchTask`, the program points of its callers, and what happened, newest first. -/
structure Task (ι ρ : Type) where
  points : ι → Point ρ
  polling : Bool
  pollRequested : Bool
  locked : Bool
  future : Bool
  callback : Bool
  log : List (TaskEvent ι ρ)

namespace Task

variable {ι ρ : Type}

def new : Task ι ρ := ⟨fun _ => .idle, false, false, false, true, true, []⟩

variable [DecidableEq ι]

/-- One step of one call; `outcome` is what a poll that ends here returns. -/
def step (s : Task ι ρ) : ι × Option ρ → Task ι ρ
  | (i, outcome) =>
    let goto := Function.update s.points i
    match s.points i with
    | .idle => { s with points := goto .exchanging, pollRequested := true, log := .begun i :: s.log }
    | .exchanging =>
      if s.polling then { s with points := goto .returned }
      else { s with points := goto .clearing, polling := true }
    | .clearing => { s with points := goto .locking, pollRequested := false }
    | .locking => if s.locked then s else { s with points := goto .checking, locked := true }
    | .checking =>
      if s.future then { s with points := goto .polling, log := .pollBegan i :: s.log }
      else { s with points := goto .leaving, polling := false }
    | .polling =>
      match outcome with
      | none => { s with points := goto (.unlocking none), log := .pollEnded i none :: s.log }
      | some result =>
        { s with
          points := goto (.unlocking (if s.callback then some result else none))
          future := false
          callback := false
          log := .pollEnded i (some result) :: s.log }
    | .unlocking (some result) => { s with points := goto (.completing result), locked := false }
    | .unlocking none => { s with points := goto .swapping, locked := false }
    | .leaving => { s with points := goto .returned, locked := false }
    | .completing result => { s with points := goto (.calling result), polling := false }
    | .calling result => { s with points := goto .returned, log := .called result :: s.log }
    | .swapping =>
      if s.pollRequested then { s with points := goto .clearing, pollRequested := false }
      else { s with points := goto .releasing }
    | .releasing => { s with points := goto .rechecking, polling := false }
    | .rechecking =>
      if s.pollRequested then { s with points := goto .retaking, pollRequested := false }
      else { s with points := goto .returned }
    | .retaking =>
      if s.polling then { s with points := goto .returned }
      else { s with points := goto .clearing, polling := true }
    | .returned => s

end Task

/-! ## What a program point means -/

namespace Point

variable {ρ : Type}

def drives : Point ρ → Bool
  | .clearing | .locking | .checking | .polling | .unlocking _ | .completing _ | .swapping
  | .releasing => true
  | _ => false

def locks : Point ρ → Bool
  | .checking | .polling | .unlocking _ | .leaving => true
  | _ => false

def carries : Point ρ → Option ρ
  | .unlocking result => result
  | .completing result | .calling result => some result
  | _ => none

/-- What a process that owns the mutex has seen: whether there is a future. -/
def sees : Point ρ → Option Bool
  | .polling => some true
  | .leaving => some false
  | _ => none

/-- A driver that has yet to begin its poll. -/
def ahead : Point ρ → Bool
  | .clearing | .locking | .checking => true
  | _ => false

/-- A process that will still look at `poll_requested`, or tries to become the driver. -/
def looks : Point ρ → Bool
  | .exchanging | .polling | .unlocking none | .swapping | .releasing | .rechecking => true
  | _ => false

end Point

namespace Task

variable {ι ρ : Type}

def readies (log : List (TaskEvent ι ρ)) : List ρ :=
  log.filterMap fun
    | .pollEnded _ ready => ready
    | _ => none

def calls (log : List (TaskEvent ι ρ)) : List ρ :=
  log.filterMap fun
    | .called result => some result
    | _ => none

/-- A call has begun since the last poll began. -/
def stale : List (TaskEvent ι ρ) → Bool
  | [] => false
  | .begun _ :: _ => true
  | .pollBegan _ :: _ => false
  | _ :: rest => stale rest

/-- Where the result is: not there yet, on its way, or delivered. -/
inductive Answer (s : Task ι ρ) : Prop
  | waiting (future : s.future = true) (callback : s.callback = true)
      (none_ : ∀ i, (s.points i).carries = none) (ready : readies s.log = [])
      (called : calls s.log = [])
  | carried (result : ρ) (i : ι) (future : s.future = false)
      (one : (s.points i).carries = some result)
      (only : ∀ j, j ≠ i → (s.points j).carries = none) (ready : readies s.log = [result])
      (called : calls s.log = [])
  | delivered (result : ρ) (future : s.future = false)
      (none_ : ∀ i, (s.points i).carries = none) (ready : readies s.log = [result])
      (called : calls s.log = [result])

structure Sound (s : Task ι ρ) : Prop where
  driver : Token Point.drives s.points s.polling
  lock : Token Point.locks s.points s.locked
  sight : ∀ i b, (s.points i).sees = some b → s.future = b
  answer : Answer s

theorem sound_new : (new : Task ι ρ).Sound where
  driver := ⟨by simp [new, Point.drives], by simp [new, Point.drives]⟩
  lock := ⟨by simp [new, Point.locks], by simp [new, Point.locks]⟩
  sight := by simp [new, Point.sees]
  answer := .waiting rfl rfl (fun _ => rfl) rfl rfl

variable {s : Task ι ρ}

theorem Answer.of_future (h : Answer s) (hfuture : s.future = true) :
    (∀ i, (s.points i).carries = none) ∧ readies s.log = [] := by
  rcases h with ⟨-, -, none_, ready, -⟩ | ⟨_, _, future, -, -, -, -⟩ | ⟨_, future, -, -, -⟩
  · exact ⟨none_, ready⟩
  · rw [future] at hfuture
    cases hfuture
  · rw [future] at hfuture
    cases hfuture

/-- No poll began after one was ready. -/
def Orderly : List (TaskEvent ι ρ) → Prop
  | [] => True
  | .pollBegan _ :: older => readies older = [] ∧ Orderly older
  | _ :: older => Orderly older

variable {result : ρ}

theorem Orderly.not_pollBegan {newer older : List (TaskEvent ι ρ)} {i : ι}
    (h : Orderly (newer ++ .pollEnded i (some result) :: older)) (j : ι) : .pollBegan j ∉ newer := by
  induction newer with
  | nil => simp
  | cons event rest ih =>
    rcases event with k | k | ⟨k, ready⟩ | value
    · simpa using ih h
    · have hready := h.1
      simp [readies] at hready
    · simpa using ih h
    · simpa using ih h

/-- Somebody is bound to begin a poll, or the flag is up and somebody will still look. -/
def Due (s : Task ι ρ) : Prop :=
  (∃ j, (s.points j).ahead = true) ∨ (∃ j, s.points j = .retaking) ∨
    (s.pollRequested = true ∧ ∃ j, (s.points j).looks = true)

/-- A driver that has given up `polling` took a request down, and loses the exchange to a process
    whose poll has already begun. -/
def Loses (s : Task ι ρ) (move : ι × Option ρ) : Prop :=
  s.points move.1 = .retaking ∧ s.polling = true ∧ ∀ j, (s.points j).ahead = false

theorem Sound.driver_due (h : s.Sound) (hfuture : s.future = true) (hpolling : s.polling = true) :
    ∃ j, (s.points j).drives = true ∧ ((s.points j).ahead = true ∨ (s.points j).looks = true) := by
  obtain ⟨j, hj⟩ := h.driver.taken_iff.mp hpolling
  refine ⟨j, hj, ?_⟩
  have hcarries := (h.answer.of_future hfuture).1 j
  revert hj hcarries
  rcases s.points j with _ | _ | _ | _ | _ | _ | (_ | _) | _ | _ | _ | _ | _ | _ | _ | _ <;>
    simp [Point.drives, Point.ahead, Point.looks, Point.carries]

/-- Every call of `request_poll` has returned. -/
def Quiet (s : Task ι ρ) : Prop := ∀ i, s.points i = .idle ∨ s.points i = .returned

/-- A poll began after the beginning of every call so far. -/
def Served (log : List (TaskEvent ι ρ)) : Prop :=
  ∀ newer i older, log = newer ++ .begun i :: older → ∃ j, .pollBegan j ∈ newer

theorem served_of_not_stale {log : List (TaskEvent ι ρ)} (h : stale log = false) : Served log := by
  rintro newer i older rfl
  induction newer with
  | nil => cases h
  | cons event rest ih =>
    rcases event with k | k | ⟨k, ready⟩ | value
    · cases h
    · exact ⟨k, by simp⟩
    · obtain ⟨j, hj⟩ := ih h
      exact ⟨j, by simp [hj]⟩
    · obtain ⟨j, hj⟩ := ih h
      exact ⟨j, by simp [hj]⟩

theorem Quiet.not_due (h : Quiet s) : ¬ Due s := by
  have hpoint : ∀ j, (s.points j).ahead = false ∧ s.points j ≠ .retaking ∧
      (s.points j).looks = false := by
    intro j
    rcases h j with hj | hj <;> simp [hj, Point.ahead, Point.looks]
  rintro (⟨j, hj⟩ | ⟨j, hj⟩ | ⟨-, j, hj⟩)
  · rw [(hpoint j).1] at hj
    cases hj
  · exact (hpoint j).2.1 hj
  · rw [(hpoint j).2.2] at hj
    cases hj

theorem Quiet.answer (h : Quiet s) (hsound : s.Sound) :
    (s.future = true ∧ readies s.log = [] ∧ calls s.log = []) ∨
      ∃ result, readies s.log = [result] ∧ calls s.log = [result] := by
  rcases hsound.answer with ⟨future, -, -, ready, called⟩ | ⟨result, i, -, one, -, -, -⟩ |
    ⟨result, -, -, ready, called⟩
  · exact .inl ⟨future, ready, called⟩
  · rcases h i with hi | hi <;> rw [hi] at one <;> cases one
  · exact .inr ⟨result, ready, called⟩

theorem mem_readies {log : List (TaskEvent ι ρ)} {i : ι} (h : .pollEnded i (some result) ∈ log) :
    result ∈ readies log :=
  List.mem_filterMap.mpr ⟨_, h, rfl⟩

/-! ## One step -/

variable [DecidableEq ι] {s : Task ι ρ} {i : ι}

variable {point : Point ρ} {points : ι → Point ρ}

theorem sees_update {future : Bool} (h : ∀ j b, (points j).sees = some b → future = b)
    (hpoint : ∀ b, point.sees = some b → future = b) (j : ι) (b : Bool) :
    (Function.update points i point j).sees = some b → future = b := by
  rcases eq_or_ne j i with rfl | hne
  · rw [Function.update_self]
    exact hpoint b
  · rw [Function.update_of_ne hne]
    exact h j b

theorem carries_update (hsame : point.carries = (points i).carries) (j : ι) :
    (Function.update points i point j).carries = (points j).carries := by
  rcases eq_or_ne j i with rfl | hne
  · rw [Function.update_self, hsame]
  · rw [Function.update_of_ne hne]

variable {s' : Task ι ρ}

theorem Answer.keep (h : Answer s) (hpoints : s'.points = Function.update s.points i point)
    (hsame : point.carries = (s.points i).carries) (hfuture : s'.future = s.future)
    (hcallback : s'.callback = s.callback) (hready : readies s'.log = readies s.log)
    (hcalls : calls s'.log = calls s.log) : Answer s' := by
  have hcarries : ∀ j, (s'.points j).carries = (s.points j).carries := by
    intro j
    rw [hpoints]
    exact carries_update hsame j
  rcases h with ⟨future, callback, none_, ready, called⟩ |
    ⟨result, k, future, one, only, ready, called⟩ | ⟨result, future, none_, ready, called⟩
  · exact .waiting (hfuture ▸ future) (hcallback ▸ callback) (fun j => (hcarries j).trans (none_ j))
      (hready ▸ ready) (hcalls ▸ called)
  · exact .carried result k (hfuture ▸ future) ((hcarries k).trans one)
      (fun j hj => (hcarries j).trans (only j hj)) (hready ▸ ready) (hcalls ▸ called)
  · exact .delivered result (hfuture ▸ future) (fun j => (hcarries j).trans (none_ j))
      (hready ▸ ready) (hcalls ▸ called)

theorem Answer.ready (h : Answer s) (hfuture : s.future = true) (result : ρ) :
    Answer
      { s with
        points := Function.update s.points i (.unlocking (if s.callback then some result else none))
        future := false
        callback := false
        log := .pollEnded i (some result) :: s.log } := by
  rcases h with ⟨-, callback, none_, ready, called⟩ | ⟨_, _, future, -, -, -, -⟩ | ⟨_, future, -, -, -⟩
  · refine .carried result i rfl ?_ ?_ ?_ ?_
    · simp [callback, Point.carries]
    · intro j hj
      dsimp only
      rw [Function.update_of_ne hj]
      exact none_ j
    · simpa [readies] using ready
    · simpa [calls] using called
  · rw [future] at hfuture
    cases hfuture
  · rw [future] at hfuture
    cases hfuture

theorem Answer.call (h : Answer s) (hpoint : s.points i = .calling result) :
    Answer
      { s with
        points := Function.update s.points i .returned
        log := .called result :: s.log } := by
  have hcarries : (s.points i).carries = some result := by rw [hpoint, Point.carries]
  rcases h with ⟨-, -, none_, -, -⟩ | ⟨result', k, future, one, only, ready, called⟩ | ⟨_, -, none_, -, -⟩
  · rw [none_ i] at hcarries
    cases hcarries
  · have hik : i = k := by
      by_contra hne
      rw [only i hne] at hcarries
      cases hcarries
    subst hik
    rw [hcarries] at one
    cases one
    refine .delivered result future ?_ (by simpa [readies] using ready) (by simpa [calls] using called)
    intro j
    dsimp only
    rcases eq_or_ne j i with rfl | hne
    · rw [Function.update_self]
      rfl
    · rw [Function.update_of_ne hne]
      exact only j hne
  · rw [none_ i] at hcarries
    cases hcarries

theorem locks_of_sees {b : Bool} (h : point.sees = some b) : point.locks = true := by
  cases point <;> first | rfl | cases h

theorem Sound.quiet (h : s.Sound) (hpoints : s'.points = Function.update s.points i point)
    (driver : Token Point.drives s'.points s'.polling)
    (lock : Token Point.locks s'.points s'.locked) (hsees : ∀ b, point.sees = some b → s.future = b)
    (hsame : point.carries = (s.points i).carries) (hfuture : s'.future = s.future)
    (hcallback : s'.callback = s.callback) (hready : readies s'.log = readies s.log)
    (hcalls : calls s'.log = calls s.log) : s'.Sound := by
  refine ⟨driver, lock, ?_, h.answer.keep hpoints hsame hfuture hcallback hready hcalls⟩
  rw [hpoints, hfuture]
  exact sees_update h.sight hsees

theorem Sound.step (h : s.Sound) (move : ι × Option ρ) : (s.step move).Sound := by
  obtain ⟨i, outcome⟩ := move
  unfold Task.step
  dsimp only
  split
  · next hpoint => -- `request_poll` begins
    exact h.quiet rfl (h.driver.keep (hpoint ▸ rfl)) (h.lock.keep (hpoint ▸ rfl)) nofun
      (hpoint ▸ rfl) rfl rfl rfl rfl
  · next hpoint => -- the exchange of `request_poll`
    split
    · exact h.quiet rfl (h.driver.keep (hpoint ▸ rfl)) (h.lock.keep (hpoint ▸ rfl)) nofun
        (hpoint ▸ rfl) rfl rfl rfl rfl
    · next hfree =>
      have hdriver := h.driver
      rw [Bool.not_eq_true] at hfree
      rw [hfree] at hdriver
      exact h.quiet rfl (hdriver.acquire rfl) (h.lock.keep (hpoint ▸ rfl)) nofun
        (hpoint ▸ rfl) rfl rfl rfl rfl
  · next hpoint =>
    exact h.quiet rfl (h.driver.keep (hpoint ▸ rfl)) (h.lock.keep (hpoint ▸ rfl)) nofun
      (hpoint ▸ rfl) rfl rfl rfl rfl
  · next hpoint => -- the mutex
    split
    · exact h
    · next hfree =>
      have hlock := h.lock
      rw [Bool.not_eq_true] at hfree
      rw [hfree] at hlock
      exact h.quiet rfl (h.driver.keep (hpoint ▸ rfl)) (hlock.acquire rfl) nofun
        (hpoint ▸ rfl) rfl rfl rfl rfl
  · next hpoint => -- under the lock: poll, or leave because the future is gone
    split
    · next hopen =>
      exact h.quiet rfl (h.driver.keep (hpoint ▸ rfl)) (h.lock.keep (hpoint ▸ rfl))
        (fun b hb => by cases hb; exact hopen) (hpoint ▸ rfl) rfl rfl rfl rfl
    · next hgone =>
      rw [Bool.not_eq_true] at hgone
      exact ⟨h.driver.release (hpoint ▸ rfl) rfl, h.lock.keep (hpoint ▸ rfl),
        sees_update h.sight fun b hb => by cases hb; exact hgone, h.answer.keep rfl (hpoint ▸ rfl) rfl rfl rfl rfl⟩
  · next hpoint => -- the poll ends
    split
    · exact h.quiet rfl (h.driver.keep (hpoint ▸ rfl)) (h.lock.keep (hpoint ▸ rfl)) nofun
        (hpoint ▸ rfl) rfl rfl rfl rfl
    · next result =>
      have hfuture := h.sight i true (hpoint ▸ rfl)
      refine ⟨h.driver.keep (hpoint ▸ rfl), h.lock.keep (hpoint ▸ rfl), ?_,
        h.answer.ready hfuture result⟩
      -- whoever saw a future owned the mutex, and that is this process
      intro j b hb
      dsimp only at hb ⊢
      rcases eq_or_ne j i with rfl | hne
      · rw [Function.update_self] at hb
        cases hb
      · rw [Function.update_of_ne hne] at hb
        refine absurd (h.lock.unique j i ?_ (hpoint ▸ rfl)) hne
        exact locks_of_sees hb
  · next result hpoint =>
    exact h.quiet rfl (h.driver.keep (hpoint ▸ rfl)) (h.lock.release (hpoint ▸ rfl) rfl)
      nofun (hpoint ▸ rfl) rfl rfl rfl rfl
  · next hpoint =>
    exact h.quiet rfl (h.driver.keep (hpoint ▸ rfl)) (h.lock.release (hpoint ▸ rfl) rfl)
      nofun (hpoint ▸ rfl) rfl rfl rfl rfl
  · next hpoint =>
    exact h.quiet rfl (h.driver.keep (hpoint ▸ rfl)) (h.lock.release (hpoint ▸ rfl) rfl)
      nofun (hpoint ▸ rfl) rfl rfl rfl rfl
  · next result hpoint =>
    exact h.quiet rfl (h.driver.release (hpoint ▸ rfl) rfl) (h.lock.keep (hpoint ▸ rfl))
      nofun (hpoint ▸ rfl) rfl rfl rfl rfl
  · next result hpoint => -- the callback
    exact ⟨h.driver.keep (hpoint ▸ rfl), h.lock.keep (hpoint ▸ rfl),
      sees_update h.sight nofun, h.answer.call hpoint⟩
  · next hpoint => -- after a poll that is pending
    split
    · exact h.quiet rfl (h.driver.keep (hpoint ▸ rfl)) (h.lock.keep (hpoint ▸ rfl)) nofun
        (hpoint ▸ rfl) rfl rfl rfl rfl
    · exact h.quiet rfl (h.driver.keep (hpoint ▸ rfl)) (h.lock.keep (hpoint ▸ rfl)) nofun
        (hpoint ▸ rfl) rfl rfl rfl rfl
  · next hpoint =>
    exact h.quiet rfl (h.driver.release (hpoint ▸ rfl) rfl) (h.lock.keep (hpoint ▸ rfl))
      nofun (hpoint ▸ rfl) rfl rfl rfl rfl
  · next hpoint =>
    split
    · exact h.quiet rfl (h.driver.keep (hpoint ▸ rfl)) (h.lock.keep (hpoint ▸ rfl)) nofun
        (hpoint ▸ rfl) rfl rfl rfl rfl
    · exact h.quiet rfl (h.driver.keep (hpoint ▸ rfl)) (h.lock.keep (hpoint ▸ rfl)) nofun
        (hpoint ▸ rfl) rfl rfl rfl rfl
  · next hpoint =>
    split
    · exact h.quiet rfl (h.driver.keep (hpoint ▸ rfl)) (h.lock.keep (hpoint ▸ rfl)) nofun
        (hpoint ▸ rfl) rfl rfl rfl rfl
    · next hfree =>
      have hdriver := h.driver
      rw [Bool.not_eq_true] at hfree
      rw [hfree] at hdriver
      exact h.quiet rfl (hdriver.acquire rfl) (h.lock.keep (hpoint ▸ rfl)) nofun
        (hpoint ▸ rfl) rfl rfl rfl rfl
  · exact h

theorem orderly_step (h : s.Sound) (ho : Orderly s.log) (move : ι × Option ρ) :
    Orderly (s.step move).log := by
  obtain ⟨i, outcome⟩ := move
  unfold Task.step
  dsimp only
  split
  case h_5 => -- the only step that begins a poll
    split
    · next hopen => exact ⟨(h.answer.of_future hopen).2, ho⟩
    · exact ho
  all_goals first
    | exact ho
    | split <;> exact ho

/-! ## Wake-ups -/

theorem exists_update {P : Point ρ → Prop} (h : ∃ j, P (points j)) (hpoint : P (points i) → P point) :
    ∃ j, P (Function.update points i point j) := by
  obtain ⟨j, hj⟩ := h
  rcases eq_or_ne j i with rfl | hne
  · exact ⟨j, by rw [Function.update_self]; exact hpoint hj⟩
  · exact ⟨j, by rwa [Function.update_of_ne hne]⟩

theorem exists_ahead (hpoint : point.ahead = true) : ∃ j, (Function.update points i point j).ahead = true :=
  ⟨i, by rwa [Function.update_self]⟩

/-- A step that leaves the flag alone, from a point that was not ahead or retaking, to a point that
    looks if the old one did and the flag is up. -/
theorem Due.keep (h : Due s) (hpoints : s'.points = Function.update s.points i point)
    (hflag : s'.pollRequested = s.pollRequested) (hahead : (s.points i).ahead = false)
    (hretaking : s.points i ≠ .retaking)
    (hlooks : s.pollRequested = true → (s.points i).looks = true → point.looks = true) : Due s' := by
  unfold Due
  rw [hpoints, hflag]
  rcases h with h | h | ⟨hup, h⟩
  · exact .inl (exists_update (P := fun p => p.ahead = true) h (by simp [hahead]))
  · exact .inr (.inl (exists_update (P := fun p => p = .retaking) h fun hp => absurd hp hretaking))
  · exact .inr (.inr ⟨hup, exists_update (P := fun p => p.looks = true) h (hlooks hup)⟩)

theorem Due.refused (h : s.Sound) (hdue : Due s) (hfuture : s.future = true)
    (hpolling : s.polling = true) (hpoint : s.points i = .exchanging) :
    Due { s with points := Function.update s.points i .returned } := by
  obtain ⟨j, hdrives, hj⟩ := h.driver_due hfuture hpolling
  have hne : j ≠ i := by
    rintro rfl
    rw [hpoint] at hdrives
    cases hdrives
  have hstays : Function.update s.points i .returned j = s.points j := Function.update_of_ne hne _ _
  rcases hj with hahead | hlooks
  · exact .inl ⟨j, by dsimp only; rwa [hstays]⟩
  · rcases hdue with hother | hother | ⟨hup, -⟩
    · exact .inl (exists_update (P := fun p => p.ahead = true) hother (by simp [hpoint, Point.ahead]))
    · exact .inr (.inl (exists_update (P := fun p => p = .retaking) hother (by simp [hpoint])))
    · exact .inr (.inr ⟨hup, j, by dsimp only; rwa [hstays]⟩)

/-- **A request that no poll has answered yet stays due**, unless a driver loses. -/
theorem due_step (h : s.Sound) (hdue : stale s.log = true → s.future = true → Due s)
    {move : ι × Option ρ} (hkeeps : ¬ Loses s move) :
    stale (s.step move).log = true → (s.step move).future = true → Due (s.step move) := by
  obtain ⟨i, outcome⟩ := move
  unfold Task.step
  dsimp only
  split
  · -- the flag goes up, and this process will try to become the driver
    intro _ _
    exact .inr (.inr ⟨rfl, i, by dsimp only; rw [Function.update_self]; rfl⟩)
  · next hpoint =>
    split
    · next hpolling =>
      intro hstale hfuture
      exact (hdue hstale hfuture).refused h hfuture hpolling hpoint
    · intro _ _
      exact .inl (exists_ahead rfl)
  · -- the flag comes down, but a poll is ahead
    intro _ _
    exact .inl (exists_ahead rfl)
  · split
    · exact hdue
    · intro _ _
      exact .inl (exists_ahead rfl)
  · split
    · exact fun hstale => nomatch hstale
    · next hgone => exact fun _ hfuture => absurd hfuture hgone
  · next hpoint =>
    split
    · intro hstale hfuture
      exact (hdue hstale hfuture).keep rfl rfl (hpoint ▸ rfl) (by simp [hpoint]) fun _ _ => rfl
    · exact fun _ hfuture => nomatch hfuture
  · next result hpoint =>
    intro _ hfuture
    have := (h.answer.of_future hfuture).1 i
    rw [hpoint] at this
    cases this
  · next hpoint =>
    intro hstale hfuture
    exact (hdue hstale hfuture).keep rfl rfl (hpoint ▸ rfl) (by simp [hpoint]) fun _ _ => rfl
  · next hpoint =>
    intro _ hfuture
    have := h.sight i false (hpoint ▸ rfl)
    exact absurd hfuture (by simp [this])
  · next result hpoint =>
    intro _ hfuture
    have := (h.answer.of_future hfuture).1 i
    rw [hpoint] at this
    cases this
  · next result hpoint =>
    intro _ hfuture
    have := (h.answer.of_future hfuture).1 i
    rw [hpoint] at this
    cases this
  · next hpoint =>
    split
    · intro _ _
      exact .inl (exists_ahead rfl)
    · next hdown =>
      intro hstale hfuture
      exact (hdue hstale hfuture).keep rfl rfl (hpoint ▸ rfl) (by simp [hpoint])
        fun hup _ => absurd hup hdown
  · next hpoint =>
    intro hstale hfuture
    exact (hdue hstale hfuture).keep rfl rfl (hpoint ▸ rfl) (by simp [hpoint]) fun _ _ => rfl
  · next hpoint =>
    split
    · intro _ _
      exact .inr (.inl ⟨i, by dsimp only; rw [Function.update_self]⟩)
    · next hdown =>
      intro hstale hfuture
      exact (hdue hstale hfuture).keep rfl rfl (hpoint ▸ rfl) (by simp [hpoint])
        fun hup _ => absurd hup hdown
  · next hpoint =>
    split
    · -- the exchange fails, but to a process that has yet to begin its poll
      next hpolling =>
      intro _ _
      have hahead : ∃ j, (s.points j).ahead = true := by
        by_contra hnone
        push Not at hnone
        exact hkeeps ⟨hpoint, hpolling, fun j => by simpa using hnone j⟩
      exact .inl (exists_update (P := fun p => p.ahead = true) hahead (by simp [hpoint, Point.ahead]))
    · intro _ _
      exact .inl (exists_ahead rfl)
  · exact hdue

/-! ## The task as a whole -/

theorem sound_run (moves : List (ι × Option ρ)) :
    (run step (new : Task ι ρ) moves).Sound ∧ Orderly (run step (new : Task ι ρ) moves).log :=
  All.run (C := fun _ _ => True) (fun s : Task ι ρ => s.Sound ∧ Orderly s.log)
    (fun _ move h _ => ⟨h.1.step move, orderly_step h.1 h.2 move⟩) ⟨sound_new, trivial⟩
    (All.always fun _ _ => trivial)

/-- **The task under every interleaving.**  Once all calls have returned, the callback was called or a
    poll began after the beginning of every call, unless a driver lost its exchange to a process that
    was already polling; the future is never polled by two at once, nor after it was ready;
    the callback is called at most once, and with the result if a poll was ready. -/
theorem task_polls (moves : List (ι × Option ρ)) :
    let s := run step (new : Task ι ρ) moves
    (All step (fun s move => ¬ Loses s move) new moves → Quiet s →
        calls s.log ≠ [] ∨ Served s.log) ∧
      (∀ i j, s.points i = .polling → s.points j = .polling → i = j) ∧
      (∀ newer i result older, s.log = newer ++ .pollEnded i (some result) :: older →
        ∀ j, .pollBegan j ∉ newer) ∧
      (calls s.log).length ≤ 1 ∧
      ∀ i result, .pollEnded i (some result) ∈ s.log → Quiet s → calls s.log = [result] := by
  intro s
  obtain ⟨hsound, horder⟩ : s.Sound ∧ Orderly s.log := sound_run moves
  refine ⟨?_, ?_, ?_, ?_, ?_⟩
  · intro hkeeps hquiet
    have hdue : s.Sound ∧ (stale s.log = true → s.future = true → Due s) :=
      hkeeps.run (fun s : Task ι ρ => s.Sound ∧ (stale s.log = true → s.future = true → Due s))
        (fun _ move h hmove => ⟨h.1.step move, due_step h.1 h.2 hmove⟩)
        ⟨sound_new, by simp [new, stale]⟩
    rcases hquiet.answer hsound with ⟨hfuture, -, -⟩ | ⟨result, -, hcalls⟩
    · refine .inr (served_of_not_stale ?_)
      rw [← Bool.not_eq_true]
      exact fun hstale => hquiet.not_due (hdue.2 hstale hfuture)
    · exact .inl (by simp [hcalls])
  · intro i j hi hj
    exact hsound.lock.unique i j (by rw [hi]; rfl) (by rw [hj]; rfl)
  · intro newer i result older hlog
    rw [hlog] at horder
    exact horder.not_pollBegan
  · rcases hsound.answer with ⟨-, -, -, -, called⟩ | ⟨_, _, -, -, -, -, called⟩ | ⟨_, -, -, -, called⟩ <;>
      simp [called]
  · intro i result hended hquiet
    have hmem := mem_readies hended
    rcases hquiet.answer hsound with ⟨-, hready, -⟩ | ⟨result', hready, hcalls⟩
    · rw [hready] at hmem
      cases hmem
    · rw [hready, List.mem_singleton] at hmem
      rw [hcalls, hmem]

instance [Fintype ι] (s : Task ι ρ) (move : ι × Option ρ) [DecidableEq ρ] : Decidable (Loses s move) := by
  unfold Loses
  infer_instance

/-- Call 1 wakes the task while call 0 polls it, and returns; call 0 polls once more. -/
theorem task_polls_woken :
    let moves : List (Fin 2 × Option Unit) :=
      List.replicate 5 (0, none) ++ List.replicate 2 (1, none) ++ List.replicate 12 (0, none)
    let s := run step new moves
    Quiet s ∧ Served s.log ∧ s.log.count (.pollBegan 0) = 2 := by
  intro moves s
  have hquiet : Quiet s := fun i => .inr ((by decide : ∀ i, s.points i = .returned) i)
  refine ⟨hquiet, ?_, by decide⟩
  rcases (task_polls moves).1 (by decide) hquiet with hcalled | hserved
  · exact absurd (by decide) hcalled
  · exact hserved

/-- THE LOST WAKE-UP.  Call 0 drives, finds nothing to do and gives `polling` back.  Call 1 becomes the
    driver and begins its poll.  Call 2 asks for a poll, sees a driver and returns.  Now call 0 takes
    the request down, loses the exchange and returns; call 1 finds the flag down.  All have returned,
    and no poll began after call 2 did. -/
theorem wakeup_lost :
    let moves : List (Fin 3 × Option Unit) :=
      List.replicate 9 (0, none) ++ List.replicate 5 (1, none) ++ List.replicate 2 (2, none) ++
        List.replicate 2 (0, none) ++ List.replicate 5 (1, none)
    let s := run step new moves
    Quiet s ∧ calls s.log = [] ∧ ¬ Served s.log := by
  intro moves s
  have hlog : s.log = [.pollEnded 1 none] ++ .begun 2 ::
      [.pollBegan 1, .begun 1, .pollEnded 0 none, .pollBegan 0, .begun 0] := by decide
  refine ⟨?_, ?_, ?_⟩
  · intro i
    exact .inr ((by decide : ∀ i, s.points i = .returned) i)
  · rfl
  · intro hserved
    obtain ⟨j, hj⟩ := hserved _ _ _ hlog
    simp at hj

end Task

end Bondry.Ffi
