/-
  THE TWO DELIVERY LOGS ARE INTERCHANGEABLE.

  The process-local log and the SQLCipher log are both compared with the ideal one:

  * the SQLCipher log in `Store/DeliveryLog.lean`, where the work is;
  * the process-local log here: it IS the ideal log over a map, as long as it need not make room.

  Hence both give the same answers, one request after the other.  And since the ideal log accepts whatever
  a lifecycle asks to be stored, so do the two.
-/
import Bondry.Runtime.MemoryLog
import Bondry.Store.DeliveryLog

namespace Bondry.Runtime

open Egress Store

namespace InMemoryDeliveryLog

/-! ## The process-local log is ideal -/

/-- The log has room for the request. -/
def Free (limit : InMemoryDeliveryLogLimit) (s : MemoryLogState) : LogRequest → Prop
  | .insertIntent intent => s.records[intent.delivery]? = none → s.records.size < limit.value
  | .recordAttempt _ _ _ | .recordOutcome _ _ _ _ | .delivery _ => True

theorem reclaim_room {limit : Nat} {records : BTreeMap DeliveryId DeliveryRecord}
    (h : records.size < limit) (order : List DeliveryId) :
    reclaim limit order records = (true, ⟨records, order⟩) := by
  cases order with
  | nil => simp [reclaim, h]
  | cons expired rest => simp [reclaim, h]

theorem table_insert {s s' : MemoryLogState} {d : DeliveryId} {record : DeliveryRecord}
    (h : s'.records = s.records.insert d record) : table s' = Function.update (table s) d (some record) := by
  funext d'
  unfold table
  rw [h]
  by_cases hd : d' = d
  · subst hd
    rw [Function.update_self]
    exact BTreeMap.find_insert_self _ _ _
  · rw [Function.update_of_ne hd]
    exact BTreeMap.find_insert_ne _ _ (Ne.symm hd)

theorem serve_ideally {limit : InMemoryDeliveryLogLimit} {s : MemoryLogState} {request : LogRequest}
    (hregular : request.Regular) (hfree : Free limit s request) :
    (serve (inMemoryDeliveryLog limit) request s).1 = (ideal request (table s)).1 ∧
      table (serve (inMemoryDeliveryLog limit) request s).2 = (ideal request (table s)).2 := by
  cases request with
  | insertIntent intent =>
    by_cases hthere : s.records[intent.delivery]?.isSome = true
    · have hthere' : (table s intent.delivery).isSome = true := hthere
      simp only [serve, inMemoryDeliveryLog, insertIntent, ideal, if_pos hthere, if_pos hthere', and_self]
    · have hthere' : ¬ (table s intent.delivery).isSome = true := hthere
      have hnew : s.records[intent.delivery]? = none := by simpa using hthere
      simp only [serve, inMemoryDeliveryLog, insertIntent, ideal, if_neg hthere, if_neg hthere',
        reclaim_room (hfree hnew), if_true]
      exact ⟨trivial, table_insert rfl⟩
  | recordAttempt d attempts now =>
    simp only [serve, inMemoryDeliveryLog, recordAttempt, ideal, table]
    cases hfind : s.records[d]? with
    | none => exact ⟨rfl, rfl⟩
    | some record =>
      dsimp only
      split
      · exact ⟨rfl, rfl⟩
      · exact ⟨rfl, table_insert rfl⟩
  | recordOutcome d outcome now result =>
    simp only [serve, inMemoryDeliveryLog, recordOutcome, ideal, table]
    cases hfind : s.records[d]? with
    | none => exact ⟨rfl, rfl⟩
    | some record =>
      -- a regular request never says that the end is unknown
      simp only [hregular.1, or_false]
      split
      · exact ⟨rfl, rfl⟩
      · exact ⟨rfl, table_insert rfl⟩
  | delivery d => exact ⟨rfl, rfl⟩

/-- **The process-local log refines the ideal log.** -/
theorem refines (limit : InMemoryDeliveryLogLimit) :
    Refines (inMemoryDeliveryLog limit) table (fun _ => True) (Free limit) where
  answer _ _ _ hregular hfree := (serve_ideally hregular hfree).1
  moves _ _ _ hregular hfree := (serve_ideally hregular hfree).2
  keeps _ _ _ _ _ := trivial

end InMemoryDeliveryLog

/-! ## The theorem -/

/-- Every request of the sequence is regular, and meets no limit where it arrives. -/
def Unhindered {σ : Type} (log : DeliveryLog σ) (Free : σ → LogRequest → Prop) (s : σ)
    (requests : List LogRequest) : Prop :=
  All (after (serve log)) (fun s request => request.Regular ∧ Free s request) s requests

/-- After an accepted intent, a log that refines the ideal one accepts everything a lifecycle asks
    for. -/
theorem accepts_lifecycle {σ : Type} {log : DeliveryLog σ} {table : σ → Records} {Inv : σ → Prop}
    {Free : σ → LogRequest → Prop} (h : Refines log table Inv Free)
    (hopen : ∀ s request, (∀ intent, request ≠ .insertIntent intent) → Free s request) {s : σ}
    (hinv : Inv s) {intent : DeliveryIntent} (hregular : intent.acceptedAtUnixMs ≤ i64Max)
    (hfree : Free s (.insertIntent intent))
    (hok : (serve log (.insertIntent intent) s).1 = .done (.ok ())) (route : RouteId)
    (retry : RetryPolicy) (inputs : List DeliveryLifecycle.Input)
    (htimes : ∀ input ∈ inputs, input.1.unixMs ≤ i64Max) :
    Accepts (serve log) (serve log (.insertIntent intent) s).2
      (stored (.new route intent.delivery retry) inputs) := by
  have hanswer := h.answer s (.insertIntent intent) hinv hregular hfree
  have hmoves := h.moves s (.insertIntent intent) hinv hregular hfree
  have hkept := h.keeps s (.insertIntent intent) hinv hregular hfree
  rw [hok] at hanswer
  -- the ideal log accepted the intent, so its record is the intent's
  have hrecord : table (serve log (.insertIntent intent) s).2 intent.delivery = some intent.record := by
    rw [hmoves]
    unfold ideal at hanswer ⊢
    dsimp only at hanswer ⊢
    split at hanswer
    · cases hanswer
    · next hnew =>
      rw [if_neg hnew]
      exact Function.update_self ..
  obtain ⟨haccepts, hrequests, -⟩ := ideal_accepts route intent.delivery retry inputs htimes hrecord rfl rfl
  have hall : ∀ (requests : List LogRequest) (s : σ),
      (∀ request ∈ requests, request.Regular ∧ ∀ intent, request ≠ .insertIntent intent) →
      All (after (serve log)) (fun s request => request.Regular ∧ Free s request) s requests := by
    intro requests
    induction requests with
    | nil => exact fun _ _ => trivial
    | cons request rest ih =>
      intro s hmem
      obtain ⟨hone, hkind⟩ := hmem request (by simp)
      exact ⟨⟨hone, hopen s request hkind⟩, ih _ fun r hr => hmem r (by simp [hr])⟩
  have hserved := (h.served hkept (hall _ _ hrequests)).1
  unfold Accepts
  rw [hserved]
  exact haccepts

open InMemoryDeliveryLog in
/-- **The two logs are interchangeable.**  Over any sequence of requests in which no storage fails and no
    limit is met, they give equal answers; and after an accepted intent both accept whatever a lifecycle
    of that delivery asks to be stored. -/
theorem delivery_logs_interchangeable (limit : InMemoryDeliveryLogLimit)
    (limits : PersistentDeliveryLogLimits) (requests : List LogRequest)
    (hmemory : Unhindered (inMemoryDeliveryLog limit) (Free limit) empty requests)
    (hsql : Unhindered (sqlCipherDeliveryLog limits) (SqlCipherLog.Free limits) ⟨migrated, []⟩ requests) :
    answers (serve (inMemoryDeliveryLog limit)) empty requests =
        answers (serve (sqlCipherDeliveryLog limits)) ⟨migrated, []⟩ requests ∧
      ∀ (intent : DeliveryIntent) m s, m = run (after (serve (inMemoryDeliveryLog limit))) empty requests →
        s = run (after (serve (sqlCipherDeliveryLog limits))) ⟨migrated, []⟩ requests →
        intent.acceptedAtUnixMs ≤ i64Max → Free limit m (.insertIntent intent) →
        s.Free limits (.insertIntent intent) →
        (serve (inMemoryDeliveryLog limit) (.insertIntent intent) m).1 = .done (.ok ()) →
        ∀ (route : RouteId) (retry : RetryPolicy) (inputs : List DeliveryLifecycle.Input),
          (∀ input ∈ inputs, input.1.unixMs ≤ i64Max) → Accepts (serve (inMemoryDeliveryLog limit))
              (serve (inMemoryDeliveryLog limit) (.insertIntent intent) m).2
              (stored (.new route intent.delivery retry) inputs) ∧
            Accepts (serve (sqlCipherDeliveryLog limits))
              (serve (sqlCipherDeliveryLog limits) (.insertIntent intent) s).2
              (stored (.new route intent.delivery retry) inputs) := by
  obtain ⟨hfirst, htable, -⟩ := (refines limit).served trivial hmemory
  obtain ⟨hsecond, htable', hsound⟩ := (sqlCipherDeliveryLog_refines limits).served sound_migrated hsql
  -- both start from the empty table
  have hstart : table empty = tableOf migrated := rfl
  refine ⟨hfirst.trans ((congrArg (fun t => answers ideal t requests) hstart).trans hsecond.symm), ?_⟩
  rintro intent m s rfl rfl ht hroom hroom' hok route retry inputs htimes
  have hok' := (sqlCipherDeliveryLog_refines limits).answer _ (.insertIntent intent) hsound ht hroom'
  rw [htable', ← hstart, ← htable, ← (refines limit).answer _ (.insertIntent intent) trivial ht hroom,
    hok] at hok'
  refine ⟨accepts_lifecycle (refines limit) ?_ trivial ht hroom hok route retry inputs htimes,
    accepts_lifecycle (sqlCipherDeliveryLog_refines limits) ?_ hsound ht hroom' hok' route retry inputs
      htimes⟩
  · intro s request hkind
    cases request with
    | insertIntent intent => exact absurd rfl (hkind intent)
    | recordAttempt | recordOutcome | delivery => trivial
  · intro s request hkind
    cases request with
    | insertIntent intent => exact absurd rfl (hkind intent)
    | recordAttempt | recordOutcome | delivery => trivial

def Host.delivered : List LogRequest :=
  let r := Host.route 'r' Host.route_valid
  let a := Host.delivery 'a' Host.delivery_valid
  [.insertIntent ⟨r, a, 1⟩, .recordAttempt a 1 2, .recordOutcome a .delivered 3 none, .delivery a]

/-- Both logs tell the same story of a delivered event. -/
theorem delivery_logs_interchangeable_delivered :
    answers (serve (sqlCipherDeliveryLog .standard)) ⟨migrated, []⟩ Host.delivered =
      [.done (.ok ()), .done (.ok ()), .done (.ok ()),
        .found (.ok (some ⟨⟨Host.route 'r', Host.delivery 'a', 1⟩, 1, .terminal .delivered, 3, none⟩))] := by
  rw [← (delivery_logs_interchangeable .standard .standard Host.delivered ?_ ?_).1]
  · rfl
  · refine ⟨⟨by decide, fun _ => by decide⟩, ⟨by decide, trivial⟩, ⟨by decide, trivial⟩, ⟨trivial, trivial⟩,
      trivial⟩
  · exact ⟨⟨by decide, (fun _ he => nomatch he), fun _ => by decide⟩, ⟨by decide, trivial⟩,
      ⟨by decide, trivial⟩, ⟨trivial, trivial⟩, trivial⟩

end Bondry.Runtime
