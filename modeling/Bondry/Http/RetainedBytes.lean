/-
  RETAINED BYTES of raw-body requests (`server.rs`: `handle_raw_body`; `raw_body.rs`: `invocation`).

  A request takes its whole retained budget from the server's semaphore before it reads its body.  The
  permit then moves: from the reader's local variable into the body it returns, from there into the
  `CompletionState` that the server's own handle and the handler's completion share.  Nobody gives it
  back by hand; it is returned where its owner is dropped, and that can be

  * the reader, when a frame is refused or the request's future is dropped in an `await`;
  * whoever lets go of the last handle to the completion state: the server behind a handler that completed
    at once, or any thread, any time later, and long after the request was answered.

  One request is the machine `Request.act`, over the permits the semaphore has left.  What the outside
  decides is in its actions: the frames that arrive, what the handler does with its completion and when,
  whether it panics, and when the request is cancelled.  The server is any number of these machines at
  one semaphore, a step at a time in any order.
-/
import Bondry.Http.RawBodyRead
import Bondry.Lib.Run

namespace Bondry.Http

/-! ## One request -/

structure RawBodyResponse where
  status : Nat
  retryAfterSeconds : Option Nat
  errorCode : Option String
  deriving DecidableEq

/-- What a request is answered with: the handler's response, or one of the server's own. -/
inductive Answer where
  | handler (response : RawBodyResponse)
  | server (status : Nat) (errorCode : String) (retryAfterSeconds : Option Nat)
  deriving DecidableEq

inductive Refusal where
  | origin
  | rateLimited (retryAfterSeconds : Nat)
  | selectedHeaders
  deriving DecidableEq

def Refusal.answer : Refusal → Answer
  | .origin => .server 403 "origin_rejected" none
  | .rateLimited seconds => .server 429 "rate_limited" (some seconds)
  | .selectedHeaders => .server 400 "invalid_selected_headers" none

def BodyReadError.answer : BodyReadError → Answer
  | .tooLarge => .server 413 "payload_too_large" none
  | .invalid => .server 400 "invalid_request_body" none
  | .capacity => .server 503 "raw_body_capacity" (some 1)

def handlerFailed : Answer := .server 500 "raw_body_handler_failed" none

/-- `CompletionState` with the handles to it: `invocation` is the server's, `completion` the handler's.
    `sender` and `request` say whether those fields still hold their value. -/
structure CompletionState where
  sender : Bool
  request : Bool
  retainedBytes : List Nat
  invocation : Bool
  completion : Bool
  deriving DecidableEq

def CompletionState.dropInvocation (c : CompletionState) : CompletionState :=
  { c with invocation := false }

inductive Task where
  | accepted
  | reading (permit : Nat) (buffer : BodyBuffer)
  /-- Holds a `RetainedRawBody`. -/
  | retained (body : Bytes) (permits : List Nat)
  /-- In the handler. -/
  | invoking (body : Bytes)
  /-- Behind the handler, about to drop its own handle. -/
  | invoked (panicked : Bool)
  /-- At `receiver.await`. -/
  | awaiting
  | ended

/-- A request: its task, its completion state, and its channel.  `sent` and `answers` record what went
    into the channel and what the request was answered with. -/
structure Request where
  limits : RawBodyHandlerLimits
  task : Task
  completion : Option CompletionState
  receiver : Bool
  value : Option RawBodyResponse
  sent : List RawBodyResponse
  answers : List Answer

def Request.new (limits : RawBodyHandlerLimits) : Request :=
  ⟨limits, .accepted, none, false, none, [], []⟩

inductive RequestAction where
  | refuse (refusal : Refusal)
  | read (expectedLength : Option Nat)
  | frame (frame : Frame)
  | endOfBody
  | invoke
  /-- The handler returns or unwinds. -/
  | leave (panicked : Bool)
  | dropInvocation
  | receive
  /-- The future is dropped in an `await`: by the request timeout, or with its connection. -/
  | cancel (timedOut : Bool)
  /-- `RawBodyCompletion::complete`, from wherever the completion is. -/
  | complete (response : RawBodyResponse)
  | dropCompletion
  /-- The next field of a completion state without handles is dropped. -/
  | destroy

def Request.finish (r : Request) (answer : Answer) : Request :=
  { r with task := .ended, receiver := false, answers := r.answers ++ [answer] }

/-- One step of a request, over the permits the semaphore has left; `none` if it is not its turn. -/
def Request.act (available : Nat) (r : Request) : RequestAction → Option (Nat × Request)
  | .refuse refusal =>
    match r.task with
    | .accepted => some (available, r.finish refusal.answer)
    | _ => none
  | .read expectedLength =>
    match r.task with
    | .accepted =>
      match startRead r.limits.bodyBytes r.limits.retainedBytes expectedLength available with
      | .ok permit => some (available - permit, { r with task := .reading permit .empty })
      | .error error => some (available, r.finish error.answer)
    | _ => none
  | .frame frame =>
    match r.task with
    | .reading permit buffer =>
      match buffer.push r.limits.bodyBytes frame with
      | .ok buffer => some (available, { r with task := .reading permit buffer })
      | .error error => some (available + permit, r.finish error.answer)
    | _ => none
  | .endOfBody =>
    match r.task with
    | .reading permit buffer => some (available, { r with task := .retained buffer.body [permit] })
    | _ => none
  | .invoke =>
    match r.task with
    | .retained body permits =>
      some (available, { r with
        task := .invoking body, completion := some ⟨true, true, permits, true, true⟩
        receiver := true })
    | _ => none
  | .leave panicked =>
    match r.task with
    | .invoking _ => some (available, { r with task := .invoked panicked })
    | _ => none
  | .dropInvocation =>
    match r.task with
    | .invoked panicked =>
      let r := { r with completion := r.completion.map CompletionState.dropInvocation }
      some (available, if panicked then r.finish handlerFailed else { r with task := .awaiting })
    | _ => none
  | .receive =>
    match r.task with
    | .awaiting =>
      match r.value with
      | some response => some (available, r.finish (.handler response))
      | none =>
        -- without a value the receiver wakes up when the sender is gone
        if r.completion.any CompletionState.sender then none
        else some (available, r.finish handlerFailed)
    | _ => none
  | .cancel timedOut =>
    let answers := r.answers ++ if timedOut then [.server 504 "request_timeout" none] else []
    match r.task with
    | .reading permit _ => some (available + permit, { r with task := .ended, answers := answers })
    | .awaiting => some (available, { r with task := .ended, receiver := false, answers := answers })
    | _ => none
  | .complete response =>
    match r.completion with
    | some c =>
      if c.completion then
        -- the sender is taken once; a receiver that is gone takes nothing
        if c.sender then
          let r := { r with completion := some { c with sender := false } }
          if r.receiver then
            some (available, { r with value := some response, sent := r.sent ++ [response] })
          else some (available, r)
        else some (available, r)
      else none
    | none => none
  | .dropCompletion =>
    match r.completion with
    | some c =>
      if c.completion then
        some (available, { r with completion := some { c with completion := false } })
      else none
    | none => none
  | .destroy =>
    match r.completion with
    | some c =>
      if c.invocation ∨ c.completion then none
      else if c.sender then some (available, { r with completion := some { c with sender := false } })
      else if c.request then
        some (available, { r with completion := some { c with request := false } })
      else some (available + c.retainedBytes.sum, { r with completion := none })
    | none => none

/-! ## The server -/

structure RetainedServer where
  available : Nat
  requests : List Request

def RetainedServer.new (aggregateRetainedBytes : Nat) : RetainedServer := ⟨aggregateRetainedBytes, []⟩

/-- A request is accepted, or one that was moves. -/
inductive ServerAction where
  | accept (limits : RawBodyHandlerLimits)
  | act (i : Nat) (action : RequestAction)

def RetainedServer.step (s : RetainedServer) : ServerAction → RetainedServer
  | .accept limits => { s with requests := s.requests ++ [.new limits] }
  | .act i action =>
    match s.requests[i]? with
    | none => s
    | some r =>
      match r.act s.available action with
      | none => s
      | some (available, r') => ⟨available, s.requests.set i r'⟩

/-! ## What is alive, and what it holds -/

/-- The task reads the body, or holds what it read. -/
def Task.reads : Task → Bool
  | .reading _ _ | .retained _ _ => true
  | _ => false

/-- The request's body read or its completion state is alive. -/
def Request.alive (r : Request) : Bool := r.task.reads || r.completion.isSome

def Task.permits : Task → List Nat
  | .reading permit _ => [permit]
  | .retained _ permits => permits
  | _ => []

def Request.held (r : Request) : Nat :=
  r.task.permits.sum + (r.completion.elim [] CompletionState.retainedBytes).sum

/-- The retained budgets of the requests that are alive. -/
def RetainedServer.aliveBudget (s : RetainedServer) : Nat :=
  ((s.requests.filter Request.alive).map fun r => r.limits.retainedBytes).sum

/-! ## What a step can do -/

def Answer.isServer : Answer → Bool
  | .handler _ => false
  | .server _ _ _ => true

/-- The effect of one step on the semaphore and the request. -/
inductive Effect (available : Nat) (r : Request) : Nat → Request → Prop where
  | refused (htask : r.task = .accepted) {answer : Answer} (hserver : answer.isServer) :
      Effect available r available (r.finish answer)
  | reserved (htask : r.task = .accepted) (hle : r.limits.retainedBytes ≤ available) :
      Effect available r (available - r.limits.retainedBytes)
        { r with task := .reading r.limits.retainedBytes .empty }
  | read {permit : Nat} {buffer buffer' : BodyBuffer} (htask : r.task = .reading permit buffer) :
      Effect available r available { r with task := .reading permit buffer' }
  | collected {permit : Nat} {buffer : BodyBuffer} (htask : r.task = .reading permit buffer) :
      Effect available r available { r with task := .retained buffer.body [permit] }
  /-- The read is given up, with or without an answer, and its permit returned. -/
  | givenUp {permit : Nat} {buffer : BodyBuffer} (htask : r.task = .reading permit buffer)
      {answers : List Answer} (hone : answers.length ≤ 1) (hserver : answers.all Answer.isServer)
      (receiver : Bool) :
      Effect available r (available + permit)
        { r with task := .ended, receiver := receiver, answers := r.answers ++ answers }
  | invoked {body : Bytes} {permits : List Nat} (htask : r.task = .retained body permits) :
      Effect available r available { r with
        task := .invoking body, completion := some ⟨true, true, permits, true, true⟩, receiver := true }
  | left {body : Bytes} {panicked : Bool} (htask : r.task = .invoking body) :
      Effect available r available { r with task := .invoked panicked }
  | awaits {panicked : Bool} (htask : r.task = .invoked panicked) :
      Effect available r available { r with
        completion := r.completion.map CompletionState.dropInvocation, task := .awaiting }
  | failed {panicked : Bool} (htask : r.task = .invoked panicked) :
      Effect available r available ({ r with
        completion := r.completion.map CompletionState.dropInvocation }.finish handlerFailed)
  | received {response : RawBodyResponse} (htask : r.task = .awaiting) (hvalue : r.value = some response) :
      Effect available r available (r.finish (.handler response))
  | abandoned (htask : r.task = .awaiting) {answers : List Answer} (hone : answers.length ≤ 1)
      (hserver : answers.all Answer.isServer) :
      Effect available r available
        { r with task := .ended, receiver := false, answers := r.answers ++ answers }
  | sent {c : CompletionState} {response : RawBodyResponse} (hc : r.completion = some c)
      (hsender : c.sender = true) :
      Effect available r available { r with
        completion := some { c with sender := false }, value := some response
        sent := r.sent ++ [response] }
  /-- The completion state loses a handle or a field that is no permit. -/
  | loses {c c' : CompletionState} (hc : r.completion = some c)
      (hpermits : c'.retainedBytes = c.retainedBytes) (hsender : c'.sender → c.sender)
      (hinvocation : c'.invocation = c.invocation) :
      Effect available r available { r with completion := some c' }
  | destroyed {c : CompletionState} (hc : r.completion = some c) (hinvocation : c.invocation = false) :
      Effect available r (available + c.retainedBytes.sum) { r with completion := none }

variable {available available' : Nat} {r r' : Request} {action : RequestAction}

theorem startRead_eq_ok {limit retained permit : Nat} {expectedLength : Option Nat}
    (h : startRead limit retained expectedLength available = .ok permit) :
    permit = retained ∧ retained ≤ available := by
  unfold startRead at h
  split at h
  · cases h
  · obtain ⟨hpermit, -, hle⟩ := reserveRetainedBytes_eq_ok.mp h
    exact ⟨hpermit, hle⟩

theorem Refusal.answer_isServer (refusal : Refusal) : refusal.answer.isServer = true := by
  cases refusal <;> rfl

theorem BodyReadError.answer_isServer (error : BodyReadError) : error.answer.isServer = true := by
  cases error <;> rfl

theorem act_effect (h : r.act available action = some (available', r')) :
    Effect available r available' r' := by
  revert h
  fun_cases Request.act available r action <;> intro h <;> try cases h
  case case1.refl refusal htask => exact .refused htask refusal.answer_isServer
  case case3.refl htask _ hstart =>
    obtain ⟨rfl, hle⟩ := startRead_eq_ok hstart
    exact .reserved htask hle
  case case4.refl htask error _ => exact .refused htask error.answer_isServer
  case case6.refl htask _ _ => exact .read htask
  case case7.refl htask error _ => exact .givenUp htask le_rfl (by simp [error.answer_isServer]) false
  case case9.refl htask => exact .collected htask
  case case11.refl htask => exact .invoked htask
  case case13.refl htask => exact .left htask
  case case15.refl panicked htask r =>
    cases panicked
    · exact .awaits htask
    · exact .failed htask
  case case17.refl htask _ hvalue => exact .received htask hvalue
  case case19.refl htask _ _ => exact .abandoned htask le_rfl rfl
  case case21.refl timedOut _ _ _ htask =>
    exact .givenUp htask (by cases timedOut <;> simp) (by cases timedOut <;> rfl) r.receiver
  case case22.refl timedOut _ htask =>
    exact .abandoned htask (by cases timedOut <;> simp) (by cases timedOut <;> rfl)
  case case24.refl hc _ hsender _ _ => exact .sent hc hsender
  case case25 hc _ _ _ _ =>
    obtain ⟨rfl, rfl⟩ := Prod.mk.inj (Option.some.inj h)
    exact .loses hc rfl (by simp) rfl
  case case26.refl c hc _ _ =>
    have hsame : r = { r with completion := some c } := by rw [← hc]
    rw [hsame]
    exact .loses rfl rfl id rfl
  case case29.refl hc _ => exact .loses hc rfl id rfl
  case case33.refl hc _ _ => exact .loses hc rfl (by simp) rfl
  case case34.refl hc _ _ _ => exact .loses hc rfl id rfl
  case case35.refl hc hhandles _ _ => exact .destroyed hc (by simpa using fun h => hhandles (.inl h))

/-! ## One machine -/

/-- The task is still in front of the handler. -/
def Task.early : Task → Bool
  | .accepted | .reading _ _ | .retained _ _ => true
  | _ => false

def Request.stored (r : Request) : List Nat := r.completion.elim [] CompletionState.retainedBytes

/-- The completion state comes after the read, and each of them holds the budget while it is there. -/
structure Request.HoldsBudget (r : Request) : Prop where
  early : r.task.early → r.completion = none
  read : r.task.permits = if r.task.reads then [r.limits.retainedBytes] else []
  stored : r.stored = if r.completion.isSome then [r.limits.retainedBytes] else []

theorem holdsBudget_new (limits : RawBodyHandlerLimits) : (Request.new limits).HoldsBudget :=
  ⟨fun _ => rfl, rfl, rfl⟩

theorem Request.HoldsBudget.held_eq (hr : r.HoldsBudget) :
    r.held = if r.alive then r.limits.retainedBytes else 0 := by
  have hread := hr.read
  have hstored := hr.stored
  have hreads : r.task.reads = true → r.task.early = true := by
    cases r.task <;> simp [Task.reads, Task.early]
  show r.task.permits.sum + r.stored.sum = _
  rw [hread, hstored, Request.alive]
  by_cases h : r.task.reads = true
  · simp [h, hr.early (hreads h)]
  · simp only [h, Bool.false_eq_true, if_false, List.sum_nil, Nat.zero_add, Bool.false_or]
    split <;> simp

theorem Request.HoldsBudget.retask (hr : r.HoldsBudget) (hlimits : r'.limits = r.limits)
    (hcompletion : r'.completion = r.completion) (hearly : r'.task.early → r.task.early)
    (hread : r'.task.permits = if r'.task.reads then [r.limits.retainedBytes] else [])
    (hbalance : available' + r'.task.permits.sum = available + r.task.permits.sum) :
    r'.HoldsBudget ∧ available' + r'.held = available + r.held := by
  have hstored : r'.stored = r.stored := by rw [Request.stored, Request.stored, hcompletion]
  refine ⟨⟨fun h => ?_, ?_, ?_⟩, ?_⟩
  · rw [hcompletion]
    exact hr.early (hearly h)
  · rw [hread, hlimits]
  · rw [hstored, hr.stored, hcompletion, hlimits]
  · show available' + (r'.task.permits.sum + r'.stored.sum) =
      available + (r.task.permits.sum + r.stored.sum)
    rw [hstored]
    omega

theorem Request.HoldsBudget.late (hr : r.HoldsBudget) (hlimits : r'.limits = r.limits)
    (hpermits : r'.completion.map CompletionState.retainedBytes =
      r.completion.map CompletionState.retainedBytes)
    (hlate : r.task.early = false) (hlate' : r'.task.early = false) :
    r'.HoldsBudget ∧ available + r'.held = available + r.held := by
  have hstored : r'.stored = r.stored := by
    have hget := congrArg (Option.elim · [] id) hpermits
    simpa only [Request.stored, Option.elim_map, Function.id_comp] using hget
  have hsome : r'.completion.isSome = r.completion.isSome := by
    have := congrArg Option.isSome hpermits
    simpa using this
  have hnone : ∀ {task : Task}, task.early = false → task.permits = [] ∧ task.reads = false := by
    intro task h
    cases task <;> simp_all [Task.early, Task.permits, Task.reads]
  refine ⟨⟨fun h => ?_, ?_, ?_⟩, ?_⟩
  · rw [hlate'] at h
    cases h
  · rw [(hnone hlate').1, (hnone hlate').2]
    rfl
  · rw [hstored, hr.stored, hsome, hlimits]
  · show available + (r'.task.permits.sum + r'.stored.sum) =
      available + (r.task.permits.sum + r.stored.sum)
    rw [hstored, (hnone hlate).1, (hnone hlate').1]

theorem Request.HoldsBudget.is_late (hr : r.HoldsBudget) {c : CompletionState}
    (hc : r.completion = some c) : r.task.early = false := by
  by_contra hearly
  rw [hr.early (by simpa using hearly)] at hc
  cases hc

theorem Effect.holds (h : Effect available r available' r') (hr : r.HoldsBudget) :
    r'.HoldsBudget ∧ available' + r'.held = available + r.held := by
  have hread := hr.read
  have hdropped : (r.completion.map CompletionState.dropInvocation).map CompletionState.retainedBytes =
      r.completion.map CompletionState.retainedBytes := by
    rw [Option.map_map]
    rfl
  cases h with
  | refused htask _ => exact hr.retask rfl rfl (fun h => nomatch h) rfl (by rw [htask]; rfl)
  | reserved htask hle =>
    refine hr.retask rfl rfl (fun _ => by rw [htask]; rfl) rfl ?_
    rw [htask]
    show available - r.limits.retainedBytes + (r.limits.retainedBytes + 0) = available + 0
    omega
  | read htask =>
    rw [htask] at hread
    exact hr.retask rfl rfl (fun _ => by rw [htask]; rfl) hread (by rw [htask]; rfl)
  | collected htask =>
    rw [htask] at hread
    exact hr.retask rfl rfl (fun _ => by rw [htask]; rfl) hread (by rw [htask]; rfl)
  | givenUp htask _ _ _ =>
    exact hr.retask rfl rfl (fun h => nomatch h) rfl (by rw [htask]; simp [Task.permits])
  | invoked htask =>
    -- the permits move from the task into the completion state
    have hnone := hr.early (by rw [htask]; rfl)
    rw [htask] at hread
    refine ⟨⟨fun h => (nomatch h), rfl, hread⟩, ?_⟩
    simp [Request.held, Task.permits, htask, hnone]
  | left htask => exact hr.late rfl rfl (by rw [htask]; rfl) rfl
  | awaits htask => exact hr.late rfl hdropped (by rw [htask]; rfl) rfl
  | failed htask => exact hr.late rfl hdropped (by rw [htask]; rfl) rfl
  | received htask _ => exact hr.late rfl rfl (by rw [htask]; rfl) rfl
  | abandoned htask _ _ => exact hr.late rfl rfl (by rw [htask]; rfl) rfl
  | sent hc _ => exact hr.late rfl (by rw [hc]; rfl) (hr.is_late hc) (hr.is_late hc)
  | loses hc hpermits _ _ =>
    exact hr.late rfl (by rw [hc]; exact congrArg some hpermits) (hr.is_late hc) (hr.is_late hc)
  | @destroyed c hc _ =>
    refine ⟨⟨fun _ => rfl, hread, rfl⟩, ?_⟩
    have hstored : r.stored = c.retainedBytes := by rw [Request.stored, hc]; rfl
    show available + c.retainedBytes.sum + (r.task.permits.sum + 0) =
      available + (r.task.permits.sum + r.stored.sum)
    rw [hstored]
    omega

/-- The sender is used once, and the future answers once, with a handler's response only if it was sent. -/
structure Request.AnswersOnce (r : Request) : Prop where
  early : r.task.early → r.sent = []
  unsent : ∀ c, r.completion = some c → c.sender → r.sent = []
  sent : r.sent.length ≤ 1
  value : ∀ response, r.value = some response → response ∈ r.sent
  unanswered : r.task ≠ .ended → r.answers = []
  answers : r.answers.length ≤ 1
  handler : ∀ response, .handler response ∈ r.answers → response ∈ r.sent

theorem answersOnce_new (limits : RawBodyHandlerLimits) : (Request.new limits).AnswersOnce :=
  ⟨fun _ => rfl, fun _ hc => (nomatch hc), Nat.zero_le 1, fun _ h => (nomatch h), fun _ => rfl,
    Nat.zero_le 1, fun _ h => (nomatch h)⟩

theorem Request.AnswersOnce.ended (hr : r.AnswersOnce) (htask : r.task ≠ .ended)
    {answers : List Answer} (hone : answers.length ≤ 1)
    (hhandler : ∀ response, .handler response ∈ answers → response ∈ r.sent)
    (hended : r'.task = .ended) (hsent : r'.sent = r.sent) (hvalue : r'.value = r.value)
    (hanswers : r'.answers = r.answers ++ answers)
    (hsender : ∀ c', r'.completion = some c' → c'.sender → ∃ c, r.completion = some c ∧ c.sender) :
    r'.AnswersOnce := by
  rw [hr.unanswered htask, List.nil_append] at hanswers
  refine ⟨fun h => ?_, fun c' hc' hs => ?_, ?_, ?_, fun h => absurd hended h, ?_, ?_⟩
  · rw [hended] at h
    cases h
  · obtain ⟨c, hc, hcs⟩ := hsender c' hc' hs
    rw [hsent]
    exact hr.unsent c hc hcs
  · rw [hsent]
    exact hr.sent
  · rw [hvalue, hsent]
    exact hr.value
  · rw [hanswers]
    exact hone
  · rw [hanswers, hsent]
    exact hhandler

theorem Request.AnswersOnce.keep (hr : r.AnswersOnce) (hsent : r'.sent = r.sent)
    (hvalue : r'.value = r.value) (hanswers : r'.answers = r.answers)
    (hended : r'.task ≠ .ended → r.task ≠ .ended) (hearly : r'.task.early → r.task.early)
    (hsender : ∀ c', r'.completion = some c' → c'.sender → r.sent = []) : r'.AnswersOnce := by
  refine ⟨fun h => ?_, fun c' hc' hs => ?_, ?_, ?_, fun h => ?_, ?_, ?_⟩
  · rw [hsent]
    exact hr.early (hearly h)
  · rw [hsent]
    exact hsender c' hc' hs
  · rw [hsent]
    exact hr.sent
  · rw [hvalue, hsent]
    exact hr.value
  · rw [hanswers]
    exact hr.unanswered (hended h)
  · rw [hanswers]
    exact hr.answers
  · rw [hanswers, hsent]
    exact hr.handler

theorem server_no_handler {answers : List Answer} (h : answers.all Answer.isServer)
    (sent : List RawBodyResponse) : ∀ response, .handler response ∈ answers → response ∈ sent := by
  intro response hmem
  have := List.all_eq_true.mp h _ hmem
  cases this

theorem Effect.answers (h : Effect available r available' r') (hbudget : r.HoldsBudget)
    (hr : r.AnswersOnce) : r'.AnswersOnce := by
  have hsame : ∀ c', r.completion = some c' → c'.sender → ∃ c, r.completion = some c ∧ c.sender :=
    fun c' hc' hs => ⟨c', hc', hs⟩
  -- dropping the server's handle does not touch the sender
  have hdropped : ∀ c', r.completion.map CompletionState.dropInvocation = some c' → c'.sender →
      ∃ c, r.completion = some c ∧ c.sender := by
    intro c' hc' hs
    obtain ⟨c, hc, rfl⟩ := Option.map_eq_some_iff.mp hc'
    exact ⟨c, hc, hs⟩
  cases h with
  | refused htask hserver =>
    exact hr.ended (by simp [htask]) le_rfl
      (server_no_handler (by simpa using hserver) _) rfl rfl rfl rfl hsame
  | reserved htask _ =>
    exact hr.keep rfl rfl rfl (fun _ => by simp [htask]) (fun _ => by rw [htask]; rfl) hr.unsent
  | read htask =>
    exact hr.keep rfl rfl rfl (fun _ => by simp [htask]) (fun _ => by rw [htask]; rfl) hr.unsent
  | collected htask =>
    exact hr.keep rfl rfl rfl (fun _ => by simp [htask]) (fun _ => by rw [htask]; rfl) hr.unsent
  | givenUp htask hone hserver _ =>
    exact hr.ended (by simp [htask]) hone (server_no_handler hserver _) rfl rfl rfl rfl hsame
  | invoked htask =>
    -- a new sender, and nothing was sent before the handler
    exact hr.keep rfl rfl rfl (fun _ => by simp [htask]) (fun h => nomatch h)
      fun _ _ _ => hr.early (by rw [htask]; rfl)
  | left htask =>
    exact hr.keep rfl rfl rfl (fun _ => by simp [htask]) (fun h => nomatch h) hr.unsent
  | awaits htask =>
    refine hr.keep rfl rfl rfl (fun _ => by simp [htask]) (fun h => nomatch h) fun c' hc' hs => ?_
    obtain ⟨c, hc, hcs⟩ := hdropped c' hc' hs
    exact hr.unsent c hc hcs
  | failed htask =>
    exact hr.ended (by simp [htask]) le_rfl (server_no_handler rfl _) rfl rfl rfl rfl hdropped
  | received htask hvalue =>
    refine hr.ended (by simp [htask]) le_rfl (fun response hmem => ?_) rfl rfl rfl rfl hsame
    cases List.mem_singleton.mp hmem
    exact hr.value _ hvalue
  | abandoned htask hone hserver =>
    exact hr.ended (by simp [htask]) hone (server_no_handler hserver _) rfl rfl rfl rfl hsame
  | @sent c response hc hsender =>
    have hempty := hr.unsent c hc hsender
    have hlate := hbudget.is_late hc
    refine ⟨fun h => absurd (hlate.symm.trans h) (by decide), fun c' hc' hs => ?_, ?_,
      fun v hv => ?_, hr.unanswered, hr.answers, fun v hv => ?_⟩
    · cases hc'
      cases hs
    · simp [hempty]
    · cases hv
      simp
    · exact List.mem_append_left _ (hr.handler v hv)
  | loses hc _ hsender _ =>
    refine hr.keep rfl rfl rfl id id fun c' hc' hs => ?_
    cases hc'
    exact hr.unsent _ hc (hsender hs)
  | destroyed hc _ => exact hr.keep rfl rfl rfl id id fun c' hc' _ => nomatch hc'

def Task.serves : Task → Bool
  | .invoking _ | .invoked _ => true
  | _ => false

/-- Only a task in or just behind the handler holds the server's handle. -/
def Request.LetsGo (r : Request) : Prop :=
  ∀ c, r.completion = some c → c.invocation = true → r.task.serves = true

theorem Effect.lets_go (h : Effect available r available' r') (hbudget : r.HoldsBudget)
    (hr : r.LetsGo) : r'.LetsGo := by
  -- in front of the handler there is no completion state
  have hnone : r.task.early = true → ∀ {P : Prop} {c}, r.completion = some c → P := by
    intro hearly P c hc
    rw [hbudget.early hearly] at hc
    cases hc
  have hdropped : ∀ c, r.completion.map CompletionState.dropInvocation = some c → c.invocation = false := by
    intro c hc
    obtain ⟨c', _, rfl⟩ := Option.map_eq_some_iff.mp hc
    rfl
  intro c hc hinvocation
  cases h with
  | refused htask _ => exact hnone (by rw [htask]; rfl) hc
  | reserved htask _ => exact hnone (by rw [htask]; rfl) hc
  | read htask => exact hnone (by rw [htask]; rfl) hc
  | collected htask => exact hnone (by rw [htask]; rfl) hc
  | givenUp htask _ _ _ => exact hnone (by rw [htask]; rfl) hc
  | invoked htask => rfl
  | left htask => rfl
  | awaits htask => exact absurd hinvocation (by simp [hdropped c hc])
  | failed htask => exact absurd hinvocation (by simp [hdropped c hc])
  | received htask _ =>
    have hserves := hr c hc hinvocation
    rw [htask] at hserves
    cases hserves
  | abandoned htask _ _ =>
    have hserves := hr c hc hinvocation
    rw [htask] at hserves
    cases hserves
  | sent hc₀ _ =>
    cases hc
    exact hr _ hc₀ hinvocation
  | loses hc₀ _ _ hsame =>
    cases hc
    exact hr _ hc₀ (hsame ▸ hinvocation)
  | destroyed _ _ => cases hc

/-! ## All requests together -/

structure Request.Ok (r : Request) : Prop where
  budget : r.HoldsBudget
  once : r.AnswersOnce
  letsGo : r.LetsGo

theorem ok_new (limits : RawBodyHandlerLimits) : (Request.new limits).Ok :=
  ⟨holdsBudget_new limits, answersOnce_new limits, fun _ hc => (nomatch hc)⟩

/-- **One step of one request.** -/
theorem act_ok (hr : r.Ok) (h : r.act available action = some (available', r')) :
    r'.Ok ∧ available' + r'.held = available + r.held := by
  have heffect := act_effect h
  obtain ⟨hbudget, hheld⟩ := heffect.holds hr.budget
  exact ⟨⟨hbudget, heffect.answers hr.budget hr.once, heffect.lets_go hr.budget hr.letsGo⟩, hheld⟩

theorem sum_set {xs : List Nat} {i a b : Nat} (h : xs[i]? = some a) : (xs.set i b).sum + a = xs.sum + b := by
  induction xs generalizing i with
  | nil => cases h
  | cons x xs ih =>
    cases i with
    | zero =>
      cases h
      simp only [List.set_cons_zero, List.sum_cons]
      omega
    | succ i =>
      have htail := ih h
      simp only [List.set_cons_succ, List.sum_cons]
      omega

/-- Every request is in order, and what they hold and what is left make up the aggregate. -/
structure RetainedServer.Accounts (aggregate : Nat) (s : RetainedServer) : Prop where
  ok : ∀ r ∈ s.requests, r.Ok
  balance : s.available + (s.requests.map Request.held).sum = aggregate

variable {aggregate : Nat} {s : RetainedServer}

theorem accounts_new (aggregate : Nat) : (RetainedServer.new aggregate).Accounts aggregate :=
  ⟨fun _ hr => (nomatch hr), rfl⟩

theorem RetainedServer.Accounts.step (hs : s.Accounts aggregate) (action : ServerAction) :
    (s.step action).Accounts aggregate := by
  cases action with
  | accept limits =>
    refine ⟨fun r hr => ?_, ?_⟩
    · rcases List.mem_append.mp hr with hr | hr
      · exact hs.ok r hr
      · cases List.mem_singleton.mp hr
        exact ok_new limits
    · have hnew : (Request.new limits).held = 0 := rfl
      simpa [RetainedServer.step, hnew] using hs.balance
  | act i action =>
    simp only [RetainedServer.step]
    split
    · exact hs
    · next r hi =>
      split
      · exact hs
      · next available r' hact =>
        obtain ⟨hok, hheld⟩ := act_ok (hs.ok r (List.mem_of_getElem? hi)) hact
        refine ⟨fun x hx => ?_, ?_⟩
        · rcases List.mem_or_eq_of_mem_set hx with hx | rfl
          · exact hs.ok x hx
          · exact hok
        · have hget : (s.requests.map Request.held)[i]? = some r.held := by
            rw [List.getElem?_map, hi]
            rfl
          have hset := sum_set (b := r'.held) hget
          have hbalance := hs.balance
          dsimp only
          rw [List.map_set]
          omega

theorem accounts_run (aggregate : Nat) (actions : List ServerAction) :
    (run RetainedServer.step (.new aggregate) actions).Accounts aggregate := by
  exact All.run (RetainedServer.Accounts aggregate) (fun _ action h _ => h.step action)
    (accounts_new aggregate) (All.always fun _ _ => trivial)

theorem RetainedServer.Accounts.aliveBudget_eq (hs : s.Accounts aggregate) :
    s.aliveBudget = (s.requests.map Request.held).sum := by
  have hsum : ∀ requests : List Request, (∀ r ∈ requests, r.Ok) →
      ((requests.filter Request.alive).map fun r => r.limits.retainedBytes).sum =
        (requests.map Request.held).sum := by
    intro requests hok
    induction requests with
    | nil => rfl
    | cons r requests ih =>
      have hheld := (hok r List.mem_cons_self).budget.held_eq
      have hrest := ih fun x hx => hok x (List.mem_cons_of_mem r hx)
      by_cases halive : r.alive = true
      · simp [halive, hheld, hrest]
      · simp [halive, hheld, hrest]
  exact hsum s.requests hs.ok

/-! ## The end of a request -/

/-- One action of a request at a semaphore with so many permits; what cannot happen changes nothing. -/
def Request.move (state : Nat × Request) (action : RequestAction) : Nat × Request :=
  (state.2.act state.1 action).getD state

/-- The request is over: its future has ended and the handler has let go of its completion. -/
def Request.over (r : Request) : Prop :=
  r.task = .ended ∧ ∀ c, r.completion = some c → c.completion = false

theorem destroy_run (hr : r.Ok) (hover : r.over) :
    (run Request.move (available, r) (List.replicate 3 .destroy)).2.alive = false := by
  obtain ⟨htask, hcompletion⟩ := hover
  cases hc : r.completion with
  | none => simp [Request.move, Request.act, Request.alive, List.replicate, hc, htask, Task.reads]
  | some c =>
    have hheld : c.completion = false := hcompletion c hc
    have hserver : c.invocation = false := by
      by_contra hinvocation
      have hserves := hr.letsGo c hc (by simpa using hinvocation)
      rw [htask] at hserves
      cases hserves
    obtain ⟨sender, request, permits, invocation, completion⟩ := c
    subst hheld hserver
    cases sender <;> cases request <;>
      simp [Request.move, Request.act, Request.alive, List.replicate, hc, htask, Task.reads]

theorem own_run {i : Nat} (hi : s.requests[i]? = some r) (actions : List RequestAction) :
    run RetainedServer.step s (actions.map (ServerAction.act i)) =
      ⟨(run Request.move (s.available, r) actions).1,
        s.requests.set i (run Request.move (s.available, r) actions).2⟩ := by
  have hlt : i < s.requests.length := (List.getElem?_eq_some_iff.mp hi).1
  induction actions generalizing s r with
  | nil =>
    obtain ⟨_, rfl⟩ := List.getElem?_eq_some_iff.mp hi
    simp
  | cons action actions ih =>
    have hstep : s.step (.act i action) = ⟨(Request.move (s.available, r) action).1,
        s.requests.set i (Request.move (s.available, r) action).2⟩ := by
      simp only [RetainedServer.step, hi, Request.move]
      cases r.act s.available action with
      | none =>
        obtain ⟨_, rfl⟩ := List.getElem?_eq_some_iff.mp hi
        simp
      | some next => rfl
    rw [List.map_cons, run_cons, run_cons, hstep]
    have hnext : (s.requests.set i (Request.move (s.available, r) action).2)[i]? =
        some (Request.move (s.available, r) action).2 := by
      rw [List.getElem?_set_self hlt]
    rw [ih hnext (by simpa using hlt), List.set_set]

/-- **Reading and retained-byte accounting.** -/
theorem retained_bytes_accounted :
    (∀ (limit retained available : Nat) (expectedLength : Option Nat) (frames : List Frame),
        limit ≤ u64Max → TruthfulHint expectedLength frames → ∀ (body : Bytes) (permits : List Nat),
          readRawBody limit retained expectedLength available frames = .ok (body, permits) ↔
            (body = dataOf frames ∧ permits = [retained]) ∧ frames.all Frame.isData ∧
              (dataOf frames).length ≤ limit ∧
              reserveRetainedBytes available retained = .ok retained) ∧
      ∀ (aggregate : Nat) (actions : List ServerAction),
        let s := run RetainedServer.step (.new aggregate) actions
        s.available ≤ aggregate ∧ aggregate - s.available = s.aliveBudget ∧ s.aliveBudget ≤ aggregate ∧
          ((∀ r ∈ s.requests, r.alive = false) → s.available = aggregate) ∧
          (∀ (i : Nat) (r : Request), s.requests[i]? = some r → r.over →
            ∃ r', (run RetainedServer.step s
                (List.replicate 3 (.act i .destroy))).requests[i]? = some r' ∧ r'.alive = false) ∧
          ∀ r ∈ s.requests, r.sent.length ≤ 1 ∧ r.answers.length ≤ 1 ∧
            ∀ response, .handler response ∈ r.answers → response ∈ r.sent := by
  refine ⟨fun limit retained available expectedLength frames hlimit htruth body permits => ?_,
    fun aggregate actions => ?_⟩
  · rw [readRawBody_eq_ok hlimit htruth, and_assoc]
  · have hs := accounts_run aggregate actions
    generalize run RetainedServer.step (.new aggregate) actions = s at hs
    have hbudget := hs.aliveBudget_eq
    have hbalance := hs.balance
    refine ⟨by omega, by omega, by omega, fun hdead => ?_, fun i r hi hover => ?_, fun r hr => ?_⟩
    · have hnone : s.aliveBudget = 0 := by
        rw [RetainedServer.aliveBudget, List.filter_eq_nil_iff.mpr fun r hr => by simp [hdead r hr]]
        rfl
      omega
    · have hr := hs.ok r (List.mem_of_getElem? hi)
      have hlt : i < s.requests.length := (List.getElem?_eq_some_iff.mp hi).1
      have hgone : (run Request.move (s.available, r) (List.replicate 3 .destroy)).2.alive = false :=
        destroy_run hr hover
      refine ⟨_, ?_, hgone⟩
      rw [← List.map_replicate, own_run hi, List.getElem?_set_self hlt]
    · have honce := (hs.ok r hr).once
      exact ⟨honce.sent, honce.answers, honce.handler⟩

/-- A request that timed out holds its permits until the handler lets go of the completion. -/
example :
    let served := [ServerAction.accept .standard] ++ ([.read none, .frame (.data [1]), .endOfBody, .invoke,
      .leave false, .dropInvocation, .cancel true] : List RequestAction).map (.act 0)
    let released := ([.dropCompletion, .destroy, .destroy, .destroy] : List RequestAction).map (.act 0)
    (run RetainedServer.step (.new 4000000) served).available = 4000000 - 3145728 ∧
      (run RetainedServer.step (.new 4000000) (served ++ released)).available = 4000000 := by
  decide

end Bondry.Http
