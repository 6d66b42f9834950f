/-
  THE IDEAL DELIVERY LOG.

  What a delivery log is for, with nothing in the way: a table of records that never runs out of space
  and never fails.  The two logs of the repository are nothing alike inside, a map with explicit tests
  and guarded SQL updates, so they are compared with this one and not with each other.
-/
import Bondry.Contract.Limits
import Bondry.Egress.TraceLaw

namespace Bondry.Egress

/-! ## Requests -/

/-- The calls that logs are compared on. -/
inductive LogRequest where
  | insertIntent (intent : DeliveryIntent)
  | recordAttempt (delivery : DeliveryId) (attempts updatedAtUnixMs : Nat)
  | recordOutcome (delivery : DeliveryId) (outcome : DeliveryOutcome) (updatedAtUnixMs : Nat)
      (result : Option DeliveryResultMetadata)
  | delivery (delivery : DeliveryId)
  deriving DecidableEq

inductive LogAnswer where
  | done (answer : Except DeliveryLogError Unit)
  | found (answer : Except DeliveryLogError (Option DeliveryRecord))
  deriving DecidableEq

/-- A request to a log. -/
def serve {σ : Type} (log : DeliveryLog σ) (request : LogRequest) (s : σ) : LogAnswer × σ :=
  match request with
  | .insertIntent intent => let call := log.insertIntent intent s; (.done call.1, call.2)
  | .recordAttempt d attempts now => let call := log.recordAttempt d attempts now s; (.done call.1, call.2)
  | .recordOutcome d outcome now result =>
    let call := log.recordOutcome d outcome now result s
    (.done call.1, call.2)
  | .delivery d => let call := log.delivery d s; (.found call.1, call.2)

/-- What a runtime asks for: attempts are counted from one, in sixteen bits; times fit a signed column;
    only a recovery may say that an end is unknown. -/
def LogRequest.Regular : LogRequest → Prop
  | .insertIntent intent => intent.acceptedAtUnixMs ≤ i64Max
  | .recordAttempt _ attempts now => 1 ≤ attempts ∧ attempts ≤ 65535 ∧ now ≤ i64Max
  | .recordOutcome _ outcome now _ => outcome ≠ .unknownAfterCrash ∧ now ≤ i64Max
  | .delivery _ => True

instance : DecidablePred LogRequest.Regular
  | .insertIntent intent => inferInstanceAs (Decidable (intent.acceptedAtUnixMs ≤ i64Max))
  | .recordAttempt _ attempts now =>
    inferInstanceAs (Decidable (1 ≤ attempts ∧ attempts ≤ 65535 ∧ now ≤ i64Max))
  | .recordOutcome _ outcome now _ =>
    inferInstanceAs (Decidable (outcome ≠ .unknownAfterCrash ∧ now ≤ i64Max))
  | .delivery _ => inferInstanceAs (Decidable True)

def DeliveryPersistenceAction.request : DeliveryPersistenceAction → LogRequest
  | .insertIntent intent => .insertIntent intent
  | .recordAttempt d attempts now => .recordAttempt d attempts now
  | .recordOutcome d outcome now result => .recordOutcome d outcome now result

/-! ## The ideal log -/

/-- What a log keeps: a record for each delivery. -/
abbrev Records := DeliveryId → Option DeliveryRecord

def attempted (record : DeliveryRecord) (attempts now : Nat) : DeliveryRecord :=
  ⟨record.intent, attempts, .pending, now, none⟩

def concluded (record : DeliveryRecord) (outcome : DeliveryOutcome) (now : Nat)
    (result : Option DeliveryResultMetadata) : DeliveryRecord :=
  ⟨record.intent, record.attempts, .terminal outcome, now, result⟩

/-- **The ideal log.** -/
def ideal (request : LogRequest) (t : Records) : LogAnswer × Records :=
  match request with
  | .insertIntent intent =>
    if (t intent.delivery).isSome then (.done (.error .conflict), t)
    else (.done (.ok ()), Function.update t intent.delivery (some intent.record))
  | .recordAttempt d attempts now =>
    match t d with
    | none => (.done (.error .notFound), t)
    | some record =>
      if record.state.isTerminal ∨ attempts ≤ record.attempts then
        (.done (.error .invalidTransition), t)
      else (.done (.ok ()), Function.update t d (some (attempted record attempts now)))
  | .recordOutcome d outcome now result =>
    match t d with
    | none => (.done (.error .notFound), t)
    | some record =>
      if record.state.isTerminal then (.done (.error .invalidTransition), t)
      else (.done (.ok ()), Function.update t d (some (concluded record outcome now result)))
  | .delivery d => (.found (.ok (t d)), t)

/-! ## Sequences of requests -/

/-- The answers to a sequence of requests. -/
def answers {σ : Type} (serve : LogRequest → σ → LogAnswer × σ) : σ → List LogRequest → List LogAnswer
  | _, [] => []
  | s, request :: rest => (serve request s).1 :: answers serve (serve request s).2 rest

def after {σ : Type} (serve : LogRequest → σ → LogAnswer × σ) (s : σ) (request : LogRequest) : σ :=
  (serve request s).2

/-- A log that answers and moves as the ideal one does, as long as it has room. -/
structure Refines {σ : Type} (log : DeliveryLog σ) (table : σ → Records) (Inv : σ → Prop)
    (Free : σ → LogRequest → Prop) : Prop where
  answer : ∀ s request, Inv s → request.Regular → Free s request →
    (serve log request s).1 = (ideal request (table s)).1
  moves : ∀ s request, Inv s → request.Regular → Free s request →
    table (serve log request s).2 = (ideal request (table s)).2
  keeps : ∀ s request, Inv s → request.Regular → Free s request → Inv (serve log request s).2

/-- **A log that refines the ideal log gives its answers**, request by request. -/
theorem Refines.served {σ : Type} {log : DeliveryLog σ} {table : σ → Records} {Inv : σ → Prop}
    {Free : σ → LogRequest → Prop} (h : Refines log table Inv Free) {s : σ} (hinv : Inv s)
    {requests : List LogRequest}
    (hall : All (after (serve log)) (fun s request => request.Regular ∧ Free s request) s requests) :
    answers (serve log) s requests = answers ideal (table s) requests ∧
      table (run (after (serve log)) s requests) = run (after ideal) (table s) requests ∧
      Inv (run (after (serve log)) s requests) := by
  induction requests generalizing s with
  | nil => exact ⟨rfl, rfl, hinv⟩
  | cons request rest ih =>
    obtain ⟨⟨hregular, hfree⟩, hrest⟩ := hall
    have hmoves := h.moves s request hinv hregular hfree
    obtain ⟨hanswers, htable, hkept⟩ := ih (h.keeps s request hinv hregular hfree) hrest
    refine ⟨?_, ?_, hkept⟩
    · rw [answers, answers, h.answer s request hinv hregular hfree, hanswers]
      exact congrArg (fun t => _ :: answers ideal t rest) hmoves
    · exact htable.trans (congrArg (fun t => run (after ideal) t rest) hmoves)

/-- Every answer is `ok`. -/
def Accepts {σ : Type} (serve : LogRequest → σ → LogAnswer × σ) (s : σ) (requests : List LogRequest) : Prop :=
  ∀ answer ∈ answers serve s requests, answer = .done (.ok ())

theorem answers_append {σ : Type} (serve : LogRequest → σ → LogAnswer × σ) (s : σ) (xs ys : List LogRequest) :
    answers serve s (xs ++ ys) = answers serve s xs ++ answers serve (run (after serve) s xs) ys := by
  induction xs generalizing s with
  | nil => rfl
  | cons x rest ih =>
    rw [List.cons_append, answers, answers, ih]
    rfl

/-! ## What a lifecycle asks for is accepted -/

open DeliveryLifecycle

/-- What a lifecycle asks to be stored, in its order. -/
def stored (l : DeliveryLifecycle) (inputs : List Input) : List LogRequest :=
  ((l.history inputs).filterMap Moment.persistence).map DeliveryPersistenceAction.request

theorem stored_snoc (l : DeliveryLifecycle) (inputs : List Input) (input : Input) :
    stored l (inputs ++ [input]) = stored l inputs ++
      (((run fed l inputs).moment input).persistence.toList).map DeliveryPersistenceAction.request := by
  unfold stored
  rw [history_append, List.filterMap_append, List.map_append]
  rfl

/-- The log has followed a lifecycle: as long as that lives, its record is pending, with its attempts. -/
def Follows (t : Records) (l : DeliveryLifecycle) : Prop :=
  l.state ≠ .terminal → ∃ record, t l.delivery = some record ∧ record.state = .pending ∧
    record.attempts = l.attempts

theorem follows_moment {past : List Moment} {l : DeliveryLifecycle} {t : Records}
    (hstands : Stands past l) (hfollows : Follows t l) (input : Input) (htime : input.1.unixMs ≤ i64Max) :
    ∀ request ∈ (l.moment input).persistence.map DeliveryPersistenceAction.request,
      request.Regular ∧ (∀ intent, request ≠ .insertIntent intent) ∧
        (ideal request t).1 = .done (.ok ()) ∧ Follows (ideal request t).2 (l.fed input) := by
  obtain ⟨time, event⟩ := input
  have hmoved := l.transition_moved time event
  unfold fed DeliveryLifecycle.moment Moment.persistence
  dsimp only
  generalize l.transition time event = moved at hmoved ⊢
  obtain ⟨answer, l'⟩ := moved
  cases hmoved with
  | started hdue =>
    obtain ⟨hle, -, -⟩ := hstands.due hdue
    have hretries := l.retry.retries_le
    have hnext : min (l.attempts + 1) 65535 = l.attempts + 1 := by omega
    have hlive : l.state ≠ .terminal := by
      rcases hdue with h | ⟨_, h, _⟩ <;> simp [h]
    obtain ⟨record, hrecord, hpending, hcount⟩ := hfollows hlive
    have hguard : ¬ (record.state.isTerminal = true ∨ l.attempts + 1 ≤ record.attempts) := by
      rw [hpending, hcount]
      simp [DeliveryState.isTerminal]
    rintro request ⟨⟩
    simp only [hnext, DeliveryPersistenceAction.request, ideal, hrecord, if_neg hguard]
    refine ⟨⟨by omega, by omega, htime⟩, by simp, trivial, fun _ => ?_⟩
    exact ⟨attempted record (l.attempts + 1) time.unixMs, Function.update_self .., rfl, rfl⟩
  | @ended _ outcome result hend hlive _ _ =>
    obtain ⟨record, hrecord, hpending, hcount⟩ := hfollows hlive
    have hguard : ¬ record.state.isTerminal = true := by
      rw [hpending]
      simp [DeliveryState.isTerminal]
    have houtcome : outcome ≠ .unknownAfterCrash := by
      rintro rfl
      cases event <;> cases hend
    rintro request ⟨⟩
    simp only [DeliveryPersistenceAction.request, ideal, hrecord, if_neg hguard]
    exact ⟨⟨houtcome, htime⟩, by simp, trivial, fun hlive' => absurd rfl hlive'⟩
  | early _ _ | parked _ _ | done _ | refused _ _ _ => exact fun _ h => nomatch h

theorem follows_quiet {l : DeliveryLifecycle} {t : Records} (hfollows : Follows t l) (input : Input)
    (hquiet : (l.moment input).persistence = none) : Follows t (l.fed input) := by
  obtain ⟨time, event⟩ := input
  have hmoved := l.transition_moved time event
  unfold DeliveryLifecycle.moment Moment.persistence at hquiet
  unfold fed DeliveryLifecycle.moment
  dsimp only at hquiet ⊢
  generalize l.transition time event = moved at hmoved hquiet ⊢
  obtain ⟨answer, l'⟩ := moved
  cases hmoved with
  | started _ | ended _ _ _ _ => cases hquiet
  | early _ _ | done _ | refused _ _ _ => exact hfollows
  | parked hflight _ => exact fun _ => hfollows (by simp [hflight])

/-- **The ideal log accepts what a lifecycle asks for**, from the record of its intent on. -/
theorem ideal_accepts (route : RouteId) (delivery : DeliveryId) (retry : RetryPolicy)
    (inputs : List Input) (htimes : ∀ input ∈ inputs, input.1.unixMs ≤ i64Max) {t : Records}
    {record : DeliveryRecord} (hrecord : t delivery = some record) (hpending : record.state = .pending)
    (hcount : record.attempts = 0) : Accepts ideal t (stored (new route delivery retry) inputs) ∧
      (∀ request ∈ stored (new route delivery retry) inputs,
        request.Regular ∧ ∀ intent, request ≠ .insertIntent intent) ∧
      Follows (run (after ideal) t (stored (new route delivery retry) inputs))
        (run fed (new route delivery retry) inputs) := by
  induction inputs using List.reverseRecOn with
  | nil =>
    exact ⟨(fun _ h => nomatch h), (fun _ h => nomatch h),
      fun _ => ⟨record, hrecord, hpending, hcount⟩⟩
  | append_singleton inputs input ih =>
    obtain ⟨haccepts, hregular, hfollows⟩ := ih fun i hi => htimes i (List.mem_append_left _ hi)
    have htime := htimes input (by simp)
    have hstands := (told_history route delivery retry inputs).stands
    have hmoment := follows_moment hstands hfollows input htime
    rw [stored_snoc, run_append, run_append]
    generalize run fed (new route delivery retry) inputs = l at hfollows hmoment ⊢
    cases hasks : (l.moment input).persistence with
    | none =>
      simp only [Option.toList_none, List.map_nil, List.append_nil]
      exact ⟨haccepts, hregular, follows_quiet hfollows input hasks⟩
    | some action =>
      rw [hasks] at hmoment
      obtain ⟨hnew, hkind, hok, hnext⟩ := hmoment action.request rfl
      simp only [Option.toList_some, List.map_cons, List.map_nil]
      refine ⟨?_, ?_, hnext⟩
      · intro answer hanswer
        rw [answers_append] at hanswer
        rcases List.mem_append.mp hanswer with hold | hlast
        · exact haccepts answer hold
        · rw [List.mem_singleton.mp hlast]
          exact hok
      · intro request hrequest
        rcases List.mem_append.mp hrequest with hold | hlast
        · exact hregular request hold
        · rw [List.mem_singleton.mp hlast]
          exact ⟨hnew, hkind⟩

end Bondry.Egress
