/-
  AT MOST ONCE.

  Two byte-identical deliveries to a NON-IDEMPOTENT route reach `service.dispatch` only if the record of
  the first was removed in between by somebody who meant to: its own guard's release, an operator's
  `RetryAllowed`, or clearing.  The expiry of records never is the reason:

  * a verifier without freshness makes the route RETAIN completed records, which have no expiry time;
  * a verifier with freshness accepts the same bytes only within half an hour (`Claims.window`), and an
    expiry time is at least a day after the claim — unless it SATURATED at `i64::MAX`, which is why the
    clock has to stay below that.

  Two invariants carry the proof.  `Holding` says that an armed guard still has exactly the row it
  inserted, and that no two guards hold one key.  `Tracked` follows the record of one dispatched request:
  it is still there with a late expiry time, or it has expired and a day has passed.
-/
import Bondry.Webhook.Ownership

namespace Bondry.Webhook

open Sql Store

section

variable {ε χ ω : Type} {host : Host ε χ ω}

/-! ## Schedules -/

/-- Recovery runs only when no request is live: it is meant for the time after a restart. -/
def RecoversIdle (s : System χ ω) (action : Action ε) : Prop :=
  ∀ now limits faults, action = .administer (.recoverInFlight now) limits faults → Idle s

/-- Times do not go back, and recovery runs only when no request is live. -/
structure Scheduled (s : System χ ω) (action : Action ε) : Prop where
  forward : ∀ now, action.time = some now → s.clock ≤ now
  recovery : RecoversIdle s action

/-- The clock of a new request is below `i64::MAX` milliseconds. -/
def BelowMax (_ : System χ ω) (action : Action ε) : Prop :=
  ∀ route request now secrets faults, action = .begin route request now secrets faults →
    now.unixMilliseconds < i64Max

/-- The action makes request `i` reach `service.dispatch`. -/
def Dispatches (s : System χ ω) (action : Action ε) (i : Nat) (live : Live χ ω) : Prop :=
  s.live[i]? = some live ∧ (∃ invocation, live.phase = .created invocation) ∧
    ∃ world, action = .poll i world

/-- The action removes row `n` of a key on purpose: the guard of request `i` releases it, an operator
    allows a retry, or completed records are cleared. -/
def RemovesRecord (host : Host ε χ ω) (i : Nat) (key : DedupKey) (n : Nat) (s : System χ ω)
    (action : Action ε) : Prop :=
  (∃ row, s.db.webhookDedup.find key = some (n, row)) ∧
    (s.step host action).db.webhookDedup.find key = none ∧
    ((∃ live guard response, s.live[i]? = some live ∧ live.guard = some guard ∧ guard.key = key ∧
        Asks live i action .release response) ∨
      (∃ now limits faults,
        action = .administer (.resolveUnknown key .retryAllowed now) limits faults) ∨
      ∃ cutoff limits faults, action = .administer (.clearCompletedBefore cutoff) limits faults)

/-! ## Every armed guard holds its row -/

/-- What holds between the steps of a scheduled run. -/
structure Holding (host : Host ε χ ω) (s : System χ ω) : Prop where
  held : ∀ (i : Nat) live guard, s.live[i]? = some live → live.guard = some guard →
    ∃ n policy, live.row = some n ∧
      Claims host.crypto live.route live.request guard.updatedAtUnixMs guard.key policy ∧
      s.db.webhookDedup.find guard.key =
        some (n, claimedRow guard.key policy guard.updatedAtUnixMs (charge guard.key)) ∧
      guard.updatedAtUnixMs ≤ s.clock
  sole : ∀ (i j : Nat) live other guard guard', s.live[i]? = some live → s.live[j]? = some other →
    live.guard = some guard → other.guard = some guard' → guard.key = guard'.key → i = j
  guarded : ∀ (i : Nat) live, s.live[i]? = some live →
    live.route.configuration.semantics = .nonIdempotentMutation → live.guard ≠ none
  numbered : ∀ (i : Nat) live, s.live[i]? = some live → i < s.next

theorem holding_of_idle {s : System χ ω} (h : Idle s) : Holding host s where
  held i live guard hlive := by rw [h i] at hlive; cases hlive
  sole i j live other guard guard' hlive := by rw [h i] at hlive; cases hlive
  guarded i live hlive := by rw [h i] at hlive; cases hlive
  numbered i live hlive := by rw [h i] at hlive; cases hlive

theorem inFlight_kept {limits : DedupStoreLimits} {request : DedupRequest} {answer : DedupAnswer}
    {key : DedupKey} {n : Nat} {row : DedupRow} {after_ : Option (Nat × DedupRow)}
    (h : Moves limits request answer key (some (n, row)) after_) (hrow : row.state = .inFlight)
    (hrecover : ∀ now, request ≠ .recoverInFlight now)
    (hown : ∀ guard : DedupGuard, guard.key = key → ∀ settlement, request ≠ guard.request settlement) :
    after_ = some (n, row) := by
  rcases moves_from_row h with hsame | hmove | ⟨policy, now, hreq, hexp⟩
  · exact hsame
  · cases hmove with
    | @completed now _ _ hreq _ _ => exact absurd hreq (hown ⟨key, now⟩ rfl .complete)
    | @uncertain now _ _ hreq _ =>
      rcases hreq with ⟨hreq, _⟩ | ⟨hreq, _⟩
      · exact absurd hreq (hown ⟨key, now⟩ rfl .markUnknown)
      · exact absurd hreq (hrecover now)
    | released hreq _ _ => exact absurd hreq (hown ⟨key, 0⟩ rfl .release)
    | resolved _ _ hold => rw [hrow] at hold; cases hold
    | retried _ _ hold => rw [hrow] at hold; cases hold
    | expired _ hold _ => rw [hrow] at hold; cases hold
    | cleared _ _ hold _ => rw [hrow] at hold; cases hold
  · rw [expired_completed hexp] at hrow
    cases hrow

theorem claimed_newer {limits : DedupStoreLimits} {key k : DedupKey} {policy : DedupClaimPolicy}
    {now n m : Nat} {row row' : DedupRow} {db db' : Database}
    (h : CallRun limits db (.claim key policy now) (.claim (.ok .claimed)) db')
    (hnew : db'.webhookDedup.find key = some (m, row'))
    (hold : db.webhookDedup.find k = some (n, row)) : n < m :=
  lt_of_le_of_lt (Table.number_le_of_find hold) (claimed_number h hnew)

theorem Holding.kept {s : System χ ω} {action : Action ε} (hs : Holding host s)
    (hrecovery : RecoversIdle s action) {i : Nat} {live : Live χ ω} {guard : DedupGuard}
    (hlive : s.live[i]? = some live) (hguard : live.guard = some guard) (hticket : action.ticket ≠ some i) :
    (s.step host action).db.webhookDedup.find guard.key = s.db.webhookDedup.find guard.key := by
  have hrun : StepRun host s action _ _ := step_run s action
  rcases db_change hrun with hdb | ⟨request, limits, answer, hreq, hcall⟩
  · rw [hdb]
  obtain ⟨n, policy, _, _, hfind, _⟩ := hs.held i live guard hlive hguard
  have hmoves := call_moves hcall guard.key
  rw [hfind] at hmoves
  rw [hfind]
  refine inFlight_kept hmoves rfl ?_ ?_
  · -- recovery runs only when there is no request
    intro now hrecover
    cases hreq with
    | claim hclaims => cases hrecover
    | @guard _ _ _ settlement _ _ _ _ _ => cases settlement <;> cases hrecover
    | @administration work limits faults =>
      cases work with
      | recoverInFlight time =>
        have hidle := hrecovery time limits faults rfl i
        rw [hlive] at hidle
        cases hidle
      | resolveUnknown => cases hrecover
      | clearCompletedBefore => cases hrecover
  · -- a transition of this key is made by the one guard that holds it
    intro guard' hkey settlement' heq
    cases hreq with
    | claim hclaims => cases settlement' <;> cases heq
    | @guard j other guard'' settlement _ hticket' hother hguard'' _ =>
      have hsame : guard.key = guard''.key := hkey.symm.trans (guard_request_key heq).symm
      have hij := hs.sole i j live other guard guard'' hlive hother hguard hguard'' hsame
      exact hticket (hij ▸ hticket')
    | @administration work limits faults => cases work <;> cases settlement' <;> cases heq

/-- **One scheduled step keeps every armed guard's row.** -/
theorem Holding.step {s : System χ ω} {action : Action ε} (hs : Holding host s)
    (hrecovery : RecoversIdle s action) : Holding host (s.step host action) := by
  have hrun : StepRun host s action _ _ := step_run s action
  obtain ⟨hclock, hnext, htime⟩ := step_forward hrun
  constructor
  · intro i live' guard hlive' hguard'
    cases ticket_origin hrun hlive' with
    | @kept live hlive hcont hdb =>
      rw [hcont.guard] at hguard'
      obtain ⟨n, policy, hrow, hclaims, hfind, hpast⟩ := hs.held i live guard hlive hguard'
      rw [hcont.row, hcont.route, hcont.request]
      refine ⟨n, policy, hrow, hclaims, ?_, hpast.trans hclock⟩
      by_cases hticket : action.ticket = some i
      · rw [hdb hticket, hfind]
      · rw [hs.kept hrecovery hlive hguard' hticket, hfind]
    | begun hnew hsucc hbegun =>
      cases hbegun with
      | anonymous hident => cases hguard'
      | claimed hclaims hcall hown =>
        cases hguard'
        exact ⟨_, _, rfl, hclaims, hown, htime _ rfl⟩
  · intro i j live' other' guard guard' hlive' hother' hguard hguard' hkey
    -- a new claim cannot share its key: the other guard's row has an older number
    have hclash : ∀ (k : Nat) (old new : Live χ ω) g g', s.live[k]? = some old →
        old.guard = some g → new.guard = some g' → g.key = g'.key → action.ticket ≠ some k →
        ¬ Begun host s (s.step host action) action new := by
      intro k old new g g' hold hg hg' hgk hticket hbegun
      obtain ⟨n, policy, _, _, hfind, _⟩ := hs.held k old g hold hg
      cases hbegun with
      | anonymous hident => cases hg'
      | claimed hclaims hcall hown =>
        cases hg'
        have hlt := claimed_newer hcall hown hfind
        have hsame := hs.kept hrecovery hold hg hticket
        rw [hfind, hgk, hown, Option.some.injEq, Prod.mk.injEq] at hsame
        omega
    cases ticket_origin hrun hlive' with
    | @kept live hlive hcont _ =>
      rw [hcont.guard] at hguard
      cases ticket_origin hrun hother' with
      | @kept other hother hocont _ =>
        rw [hocont.guard] at hguard'
        exact hs.sole i j live other guard guard' hlive hother hguard hguard' hkey
      | begun hnew hsucc hbegun =>
        refine absurd hbegun (hclash i live other' guard guard' hlive hguard hguard' hkey ?_)
        cases hbegun <;> exact fun h => by cases h
    | begun hnew hsucc hbegun =>
      cases ticket_origin hrun hother' with
      | @kept other hother hocont _ =>
        rw [hocont.guard] at hguard'
        refine absurd hbegun (hclash j other live' guard' guard hother hguard' hguard hkey.symm ?_)
        cases hbegun <;> exact fun h => by cases h
      | begun hnew' _ _ => rw [hnew, hnew']
  · intro i live' hlive' hsem
    cases ticket_origin hrun hlive' with
    | @kept live hlive hcont _ =>
      rw [hcont.route] at hsem
      rw [hcont.guard]
      exact hs.guarded i live hlive hsem
    | begun hnew hsucc hbegun =>
      cases hbegun with
      | anonymous hno => exact absurd (WebhookRoute.identity_required _ hsem) hno
      | claimed hclaims hcall hown => exact fun h => by cases h
  · intro i live' hlive'
    cases ticket_origin hrun hlive' with
    | kept hlive _ _ => exact (hs.numbered i _ hlive).trans_le hnext
    | begun hnew hsucc _ => rw [hnew, hsucc]; exact Nat.lt_succ_self _

/-! ## The record of one dispatched request -/

/-- The requests that hold a key in `s` are request `i`, or were claimed at `since` or later. -/
def HeldBy (s : System χ ω) (key : DedupKey) (i : Nat) (since : Option Nat) : Prop :=
  ∀ (j : Nat) live guard, s.live[j]? = some live → live.guard = some guard → guard.key = key →
    j = i ∨ ∃ t, since = some t ∧ t ≤ guard.updatedAtUnixMs

/-- What became of row `n`, which request `i` claimed at `t` under `policy`: it is there, to expire a
    day after the claim at the earliest; or it has expired, and that day has passed. -/
inductive Fate (i : Nat) (key : DedupKey) (n t : Nat) (policy : DedupClaimPolicy)
    (s : System χ ω) : Prop
  | recorded {row} (hfind : s.db.webhookDedup.find key = some (n, row))
      (hauto : row.automaticExpiry = decide (policy = .expireCompleted))
      (hexpires : ∀ at_, row.expiresAtMs = some at_ → (t : Int) + 86400000 ≤ at_ ∨ at_ = i64Max)
      (hheld : HeldBy s key i none)
  | outlived (hpolicy : policy = .expireCompleted) (hclock : t + 86400000 ≤ s.clock)
      (hheld : HeldBy s key i (some (t + 86400000)))

/-- Everything the proof remembers about request `i` once it was dispatched. -/
structure Tracked (i : Nat) (key : DedupKey) (n t : Nat) (policy : DedupClaimPolicy)
    (s : System χ ω) : Prop where
  started : t ≤ s.clock
  numbered : i < s.next
  moved : ∀ live, s.live[i]? = some live → 2 ≤ live.phase.rank ∧
    ∀ guard, live.guard = some guard → guard = ⟨key, t⟩
  fate : Fate i key n t policy s

theorem toCompleted_expires {now at_ e : Int} {row : DedupRow}
    (h : (toCompleted now at_ row).expiresAtMs = some e) : e = at_ := by
  simp only [toCompleted] at h
  split at h <;> cases h
  rfl

/-- A completion at or after `t` writes an expiry time a day after `t`, or a saturated one. -/
theorem expiresAt_late {limits : DedupStoreLimits} {t now : Nat} (h : t ≤ now) :
    (t : Int) + 86400000 ≤ expiresAt limits now ∨ expiresAt limits now = i64Max := by
  have hret := (retention_asMillis limits.retention_mem).1
  unfold expiresAt
  omega

section

variable {s : System χ ω} {action : Action ε} {i : Nat} {key : DedupKey} {n t : Nat}
  {policy : DedupClaimPolicy}

theorem heldBy_kept {row row' : DedupRow}
    (hfind : s.db.webhookDedup.find key = some (n, row)) (hheld : HeldBy s key i none)
    (hfind' : (s.step host action).db.webhookDedup.find key = some (n, row')) :
    HeldBy (s.step host action) key i none := by
  intro j live' guard hlive' hguard' hkey
  cases ticket_origin (step_run s action) hlive' with
  | @kept live hlive hcont _ =>
    rw [hcont.guard] at hguard'
    exact hheld j live guard hlive hguard' hkey
  | begun hnew hsucc hbegun =>
    cases hbegun with
    | anonymous hident => cases hguard'
    | claimed hclaims hcall hown =>
      cases hguard'
      have hlt := claimed_newer hcall hown hfind
      rw [← hkey, hown, Option.some.injEq, Prod.mk.injEq] at hfind'
      omega

theorem heldBy_later {since : Option Nat} (hheld : HeldBy s key i since)
    (hsince : ∀ t₀, since = some t₀ → t ≤ t₀) (hbegin : ∀ now, action.time = some now → t ≤ now) :
    HeldBy (s.step host action) key i (some t) := by
  intro j live' guard hlive' hguard' hkey
  cases ticket_origin (step_run s action) hlive' with
  | @kept live hlive hcont _ =>
    rw [hcont.guard] at hguard'
    rcases hheld j live guard hlive hguard' hkey with hi | ⟨t₀, ht₀, hle⟩
    · exact .inl hi
    · exact .inr ⟨t, rfl, (hsince t₀ ht₀).trans hle⟩
  | begun hnew hsucc hbegun =>
    cases hbegun with
    | anonymous hident => cases hguard'
    | claimed hclaims hcall hown =>
      cases hguard'
      exact .inr ⟨t, rfl, hbegin _ rfl⟩

/-- A transition of the tracked key is request `i`'s own, with the time of its claim. -/
theorem own_transition {request : DedupRequest} {limits : DedupStoreLimits}
    (ht : Tracked i key n t policy s) (hheld : HeldBy s key i none)
    (hreq : Requests host s action request limits) (g : DedupGuard) (settlement : Settlement)
    (heq : request = g.request settlement) (hkey : g.key = key) :
    ∃ live guard, s.live[i]? = some live ∧ live.guard = some guard ∧ guard = ⟨key, t⟩ ∧
      ∃ own, request = guard.request own ∧
        ((∃ response, Asks live i action own response) ∨ own = .markUnknown) := by
  cases hreq with
  | claim hclaims => cases settlement <;> cases heq
  | @administration work limits faults => cases work <;> cases settlement <;> cases heq
  | @guard j live guard own _ hticket hlive hguard hwhy =>
    have hk : guard.key = key := (guard_request_key heq).trans hkey
    rcases hheld j live guard hlive hguard hk with rfl | ⟨_, hno, _⟩
    · exact ⟨live, guard, hlive, hguard, (ht.moved live hlive).2 guard hguard, own, rfl, hwhy⟩
    · cases hno

theorem fate_expired {row : DedupRow} {own : DedupKey} {policy' : DedupClaimPolicy} {now : Nat}
    {limits : DedupStoreLimits} (hmax : BelowMax s action)
    (hfind : s.db.webhookDedup.find key = some (n, row))
    (hauto : row.automaticExpiry = decide (policy = .expireCompleted))
    (hexpires : ∀ at_, row.expiresAtMs = some at_ → (t : Int) + 86400000 ≤ at_ ∨ at_ = i64Max)
    (hheld : HeldBy s key i none) (hreq : Requests host s action (.claim own policy' now) limits)
    (hexp : expired now row = true) : Fate i key n t policy (s.step host action) := by
  obtain ⟨_, at_, hat, hle⟩ := expired_iff.mp hexp
  have hpolicy : policy = .expireCompleted := by
    have := ((expires_iff (Table.check_of_find hfind)).mp (by simp [hat])).2
    rw [hauto] at this
    exact of_decide_eq_true this
  generalize hrequest : (DedupRequest.claim own policy' now) = request at hreq
  cases hreq with
  | @guard _ _ _ settlement _ _ _ _ _ => cases settlement <;> cases hrequest
  | @administration work limits faults => cases work <;> cases hrequest
  | @claim route request' time secrets faults key' policy'' hclaims =>
    cases hrequest
    have hbelow := hmax route request' time secrets faults rfl
    have hlate : t + 86400000 ≤ time.unixMilliseconds := by
      rcases hexpires at_ hat with h | h <;> omega
    have hrun : StepRun host s (.begin route request' time secrets faults) _ _ := step_run s _
    have htime := (step_forward hrun).2.2 _ rfl
    refine .outlived hpolicy (hlate.trans htime) (heldBy_later hheld ?_ ?_)
    · intro t₀ hno
      cases hno
    · intro now' hnow
      cases hnow
      exact hlate

theorem fate_moved {row : DedupRow} {request : DedupRequest} {limits : DedupStoreLimits}
    {answer : DedupAnswer} {after_ : Option (Nat × DedupRow)} (ht : Tracked i key n t policy s)
    (hsched : Scheduled s action) (hmax : BelowMax s action) (hkeeps : ¬ RemovesRecord host i key n s action)
    (hfind : s.db.webhookDedup.find key = some (n, row))
    (hauto : row.automaticExpiry = decide (policy = .expireCompleted))
    (hexpires : ∀ at_, row.expiresAtMs = some at_ → (t : Int) + 86400000 ≤ at_ ∨ at_ = i64Max)
    (hheld : HeldBy s key i none) (hreq : Requests host s action request limits)
    (hmove : Move limits request answer key (some (n, row)) after_)
    (hafter : (s.step host action).db.webhookDedup.find key = after_) :
    Fate i key n t policy (s.step host action) := by
  cases hmove with
  | @completed now _ _ hcomplete _ _ =>
    obtain ⟨_, guard, _, _, rfl, own, hown, _⟩ :=
      own_transition ht hheld hreq ⟨key, now⟩ .complete hcomplete rfl
    have hnow : now = t := by
      rw [hcomplete] at hown
      cases own <;> cases hown
      rfl
    refine .recorded hafter hauto (fun at_ hat => ?_) (heldBy_kept hfind hheld hafter)
    rw [toCompleted_expires hat, hnow]
    exact expiresAt_late le_rfl
  | uncertain _ _ =>
    refine .recorded hafter hauto (fun at_ hat => ?_) (heldBy_kept hfind hheld hafter)
    cases hat
  | released hrelease _ _ =>
    obtain ⟨live, guard, hlive, hguard, rfl, own, hown, hwhy⟩ :=
      own_transition ht hheld hreq ⟨key, t⟩ .release hrelease rfl
    rw [hrelease] at hown
    cases own with
    | complete => cases hown
    | markUnknown => cases hown
    | release =>
      rcases hwhy with ⟨response, hasks⟩ | hno
      · exact absurd ⟨⟨row, hfind⟩, hafter,
          .inl ⟨live, _, response, hlive, hguard, rfl, hasks⟩⟩ hkeeps
      · cases hno
  | @resolved now _ _ hresolve _ _ =>
    obtain ⟨faults, rfl⟩ := hreq.administered (.resolveUnknown key .completed now) hresolve
    refine .recorded hafter hauto (fun at_ hat => ?_) (heldBy_kept hfind hheld hafter)
    rw [toCompleted_expires hat]
    exact expiresAt_late (ht.started.trans (hsched.forward now rfl))
  | @retried now _ _ hretry _ _ =>
    obtain ⟨faults, rfl⟩ := hreq.administered (.resolveUnknown key .retryAllowed now) hretry
    exact absurd ⟨⟨row, hfind⟩, hafter, .inr (.inl ⟨_, _, _, rfl⟩)⟩ hkeeps
  | @expired own policy' _ _ now hclaim _ hexp =>
    subst hclaim
    exact fate_expired hmax hfind hauto hexpires hheld hreq hexp
  | @cleared _ _ cutoff hclear _ _ _ =>
    obtain ⟨faults, rfl⟩ := hreq.administered (.clearCompletedBefore cutoff) hclear
    exact absurd ⟨⟨row, hfind⟩, hafter, .inr (.inr ⟨_, _, _, rfl⟩)⟩ hkeeps

theorem Tracked.fate_step (ht : Tracked i key n t policy s) (hsched : Scheduled s action)
    (hmax : BelowMax s action) (hkeeps : ¬ RemovesRecord host i key n s action) :
    Fate i key n t policy (s.step host action) := by
  have hrun : StepRun host s action _ _ := step_run s action
  cases ht.fate with
  | outlived hpolicy hpast hheld =>
    refine .outlived hpolicy (hpast.trans (step_forward hrun).1) (heldBy_later hheld ?_ ?_)
    · rintro t₀ ⟨rfl⟩
      exact le_rfl
    · intro now hnow
      exact hpast.trans (hsched.forward now hnow)
  | @recorded row hfind hauto hexpires hheld =>
    have hsame : (s.step host action).db.webhookDedup.find key = some (n, row) →
        Fate i key n t policy (s.step host action) :=
      fun h => .recorded h hauto hexpires (heldBy_kept hfind hheld h)
    rcases db_change hrun with hdb | ⟨request, limits, answer, hreq, hcall⟩
    · exact hsame (by rw [hdb, hfind])
    · have hmoves := call_moves hcall key
      rw [hfind] at hmoves
      rcases moves_from_row hmoves with h | hmove | ⟨policy', now, rfl, hexp⟩
      · exact hsame h
      · exact fate_moved ht hsched hmax hkeeps hfind hauto hexpires hheld hreq hmove rfl
      · exact fate_expired hmax hfind hauto hexpires hheld hreq hexp

/-- **One step keeps track of the record**, unless it removes it on purpose. -/
theorem Tracked.step (ht : Tracked i key n t policy s) (hsched : Scheduled s action)
    (hmax : BelowMax s action) (hkeeps : ¬ RemovesRecord host i key n s action) :
    Tracked i key n t policy (s.step host action) := by
  have hrun : StepRun host s action _ _ := step_run s action
  obtain ⟨hclock, hnext, _⟩ := step_forward hrun
  refine ⟨ht.started.trans hclock, ht.numbered.trans_le hnext, ?_,
    ht.fate_step hsched hmax hkeeps⟩
  intro live' hlive'
  cases ticket_origin hrun hlive' with
  | @kept live hlive hcont _ =>
    obtain ⟨hrank, hguard⟩ := ht.moved live hlive
    rw [hcont.guard]
    exact ⟨hrank.trans hcont.rank, hguard⟩
  | begun hnew _ _ => exact absurd ht.numbered (by omega)

end

/-! ## The result -/

theorem tracked_of_dispatch {s : System χ ω} {action : Action ε} {i : Nat} {live : Live χ ω}
    {guard : DedupGuard} (hs : Holding host s) (hd : Dispatches s action i live)
    (hguard : live.guard = some guard) : ∃ n policy, live.row = some n ∧
      Claims host.crypto live.route live.request guard.updatedAtUnixMs guard.key policy ∧
      Tracked i guard.key n guard.updatedAtUnixMs policy (s.step host action) := by
  obtain ⟨hlive, ⟨invocation, hphase⟩, world, rfl⟩ := hd
  obtain ⟨n, policy, hrow, hclaims, hfind, hpast⟩ := hs.held i live guard hlive hguard
  have hstep : s.step host (.poll i world) = s.observe i live (host.service.start world invocation) := by
    simp [System.step, System.act, hlive, hphase]
  refine ⟨n, policy, hrow, hclaims, ?_⟩
  rw [hstep]
  refine ⟨hpast, hs.numbered i live hlive, ?_, .recorded hfind rfl (fun at_ hat => by cases hat) ?_⟩
  · intro live' hlive'
    simp only [System.observe, System.put, BTreeMap.find_insert_self, Option.some.injEq] at hlive'
    subst hlive'
    refine ⟨?_, fun guard' hguard' => ?_⟩
    · split <;> simp [Phase.rank]
    · rw [hguard] at hguard'
      cases hguard'
      rfl
  · intro j live' guard' hlive' hguard' hkey
    simp only [System.observe, System.put, BTreeMap.find_insert] at hlive'
    split at hlive'
    · next hij => exact .inl hij.symm
    · exact .inl (hs.sole j i live' live guard' guard hlive' hlive hguard' hguard hkey)

theorem Tracked.no_second {s : System χ ω} {action : Action ε} {i j : Nat} {live live' : Live χ ω}
    {key : DedupKey} {n t : Nat} {policy : DedupClaimPolicy} (ht : Tracked i key n t policy s)
    (hs : Holding host s) (hclaims : Claims host.crypto live.route live.request t key policy)
    (hd : Dispatches s action j live') (hroute : live'.route = live.route)
    (hrequest : live'.request = live.request)
    (hsem : live.route.configuration.semantics = .nonIdempotentMutation) : False := by
  obtain ⟨hlive', ⟨invocation, hphase⟩, _, _⟩ := hd
  obtain ⟨guard', hguard'⟩ :=
    Option.ne_none_iff_exists'.mp (hs.guarded j live' hlive' (by rw [hroute]; exact hsem))
  obtain ⟨_, policy', _, hclaims', _, _⟩ := hs.held j live' guard' hlive' hguard'
  rw [hroute, hrequest] at hclaims'
  obtain ⟨hkey, rfl⟩ := hclaims.unique hclaims'
  -- a request that was dispatched is past `created`
  have hother : j ≠ i := by
    rintro rfl
    have := (ht.moved live' hlive').1
    rw [hphase] at this
    simp [Phase.rank] at this
  cases ht.fate with
  | recorded hfind hauto hexpires hheld =>
    rcases hheld j live' guard' hlive' hguard' hkey.symm with h | ⟨_, hno, _⟩
    · exact hother h
    · cases hno
  | outlived hpolicy hclock hheld =>
    rcases hheld j live' guard' hlive' hguard' hkey.symm with h | ⟨_, hsince, hle⟩
    · exact hother h
    · cases hsince
      subst hpolicy
      have hwindow := hclaims.window hclaims' hsem
      omega

/-- **At most once.**  In every scheduled run whose clock stays below `i64::MAX` milliseconds: if a
    delivery to a non-idempotent route is dispatched at `a` and the same bytes are dispatched again at
    `b`, then some action in between removed the first one's record on purpose. -/
theorem at_most_once_dispatch (host : Host ε χ ω) {s₀ : System χ ω} (hidle : Idle s₀)
    {before between after_ : List (Action ε)} {a b : Action ε}
    (hsched : All (System.step host) Scheduled s₀ (before ++ a :: (between ++ b :: after_)))
    (hmax : All (System.step host) BelowMax s₀ (before ++ a :: (between ++ b :: after_)))
    {i j : Nat} {live live' : Live χ ω} (hfirst : Dispatches (run (System.step host) s₀ before) a i live)
    (hsecond : Dispatches (run (System.step host) s₀ (before ++ a :: between)) b j live')
    (hroute : live'.route = live.route) (hrequest : live'.request = live.request)
    (hsem : live.route.configuration.semantics = .nonIdempotentMutation) :
    ∃ guard n, live.guard = some guard ∧ live.row = some n ∧
      ∃ earlier c later, between = earlier ++ c :: later ∧ RemovesRecord host i guard.key n
          (run (System.step host) s₀ (before ++ a :: earlier)) c := by
  -- the run up to and with the first dispatch
  obtain ⟨hbefore, hrest⟩ := All.append.mp hsched
  obtain ⟨_, hmaxrest⟩ := All.append.mp hmax
  have hs := hbefore.run (Holding host) (fun _ _ hs hc => hs.step hc.recovery) (holding_of_idle hidle)
  obtain ⟨guard, hguard⟩ := Option.ne_none_iff_exists'.mp (hs.guarded i live hfirst.1 hsem)
  obtain ⟨n, policy, hrow, hclaims, htracked⟩ := tracked_of_dispatch hs hfirst hguard
  refine ⟨guard, n, hguard, hrow, ?_⟩
  have hs₁ := hs.step hrest.1.recovery
  obtain ⟨hbetween, _⟩ := All.append.mp hrest.2
  obtain ⟨hmaxbetween, _⟩ := All.append.mp hmaxrest.2
  rcases exists_step (RemovesRecord host i guard.key n) _ between with
    hnone | ⟨earlier, c, later, hsplit, hc⟩
  · -- without a removal the record is tracked up to the second dispatch
    exfalso
    have hend := ((hbetween.and hmaxbetween).and hnone).run
      (fun s => Holding host s ∧ Tracked i guard.key n guard.updatedAtUnixMs policy s)
      (fun s c hinv hc => ⟨hinv.1.step hc.1.1.recovery, hinv.2.step hc.1.1 hc.1.2 hc.2⟩) ⟨hs₁, htracked⟩
    rw [run_append] at hsecond
    exact hend.2.no_second hend.1 hclaims hsecond hroute hrequest hsem
  · exact ⟨earlier, c, later, hsplit, by rw [run_append]; exact hc⟩

end

theorem created_of_rank {χ : Type} {phase : Phase χ} (h : phase.rank = 1) :
    ∃ invocation, phase = .created invocation := by
  cases phase with
  | created invocation => exact ⟨invocation, rfl⟩
  | identifying => cases h
  | awaiting => cases h
  | returned => cases h
  | closing => cases h

/-- What a poll of request `i` dispatches, read off the state. -/
theorem dispatches_of_find {ε χ ω : Type} {s : System χ ω} {i : Nat} {route : WebhookRoute}
    {request : VerificationRequest} (world : ε)
    (h : (s.live[i]?).map (fun live => (live.route, live.request, live.phase.rank)) =
      some (route, request, 1)) :
    ∃ live, Dispatches s (.poll i world) i live ∧ live.route = route ∧ live.request = request := by
  obtain ⟨live, hlive, heq⟩ := Option.map_eq_some_iff.mp h
  simp only [Prod.mk.injEq] at heq
  exact ⟨live, ⟨hlive, created_of_rank heq.2.2, world, rfl⟩, heq.1, heq.2.1⟩

theorem scheduled_of_ticket {ε χ ω : Type} {s : System χ ω} {action : Action ε} {i : Nat}
    (h : action.ticket = some i) : Scheduled s action := by
  cases action <;> cases h <;> exact ⟨fun _ h => (nomatch h), fun _ _ _ h => (nomatch h)⟩

theorem scheduled_begin {ε χ ω : Type} {s : System χ ω} {route : WebhookRoute}
    {request : VerificationRequest} {now : WebhookIngressTime} {secrets : SecretAnswer}
    {faults : List Bool} (h : s.clock ≤ now.unixMilliseconds) :
    Scheduled s (.begin route request now secrets faults : Action ε) :=
  ⟨fun _ ht => by cases ht; exact h, fun _ _ _ ht => (nomatch ht)⟩

def denyingWorld : DispatchWorld := ⟨fun _ _ _ => .deny .notGranted, fun _ => true, none⟩

def arrival (i : Nat) (at_ : Nat) : List (Action DispatchWorld) :=
  [.begin (sampleRoute .gitHub gitHub_required) gitHubRequest ⟨at_, 0⟩ sampleSecrets [],
    .identify i (some ⟨['a'], invocation_valid⟩) []]

/-- A delivery that was denied has released its claim before the same bytes are dispatched again. -/
theorem at_most_once_dispatch_denied :
    ∃ n earlier c later, .settle 0 [] :: arrival 1 2000 = earlier ++ c :: later ∧
      RemovesRecord sampleHost 0 gitHubKey n
        (run (System.step sampleHost) sampleSystem (arrival 0 1000 ++ .poll 0 denyingWorld :: earlier))
        c := by
  obtain ⟨live, hfirst, hroute, hrequest⟩ :=
    dispatches_of_find (i := 0) (s := run (System.step sampleHost) sampleSystem (arrival 0 1000))
      denyingWorld (by decide +kernel : _ = some (sampleRoute .gitHub rfl, gitHubRequest, 1))
  obtain ⟨live', hsecond, hroute', hrequest'⟩ :=
    dispatches_of_find (i := 1) (s := run (System.step sampleHost) sampleSystem
      (arrival 0 1000 ++ .poll 0 denyingWorld :: (.settle 0 [] :: arrival 1 2000)))
      denyingWorld (by decide +kernel : _ = some (sampleRoute .gitHub rfl, gitHubRequest, 1))
  have hsched : All (System.step sampleHost) Scheduled sampleSystem
      (arrival 0 1000 ++ .poll 0 denyingWorld ::
        ((.settle 0 [] :: arrival 1 2000) ++ .poll 1 denyingWorld :: [])) :=
    ⟨scheduled_begin (Nat.zero_le _), scheduled_of_ticket rfl, scheduled_of_ticket rfl,
      scheduled_of_ticket rfl, scheduled_begin (by decide +kernel), scheduled_of_ticket rfl,
      scheduled_of_ticket rfl, trivial⟩
  have hmax : All (System.step sampleHost) BelowMax sampleSystem
      (arrival 0 1000 ++ .poll 0 denyingWorld ::
        ((.settle 0 [] :: arrival 1 2000) ++ .poll 1 denyingWorld :: [])) := by
    refine ⟨?_, ?_, ?_, ?_, ?_, ?_, ?_, trivial⟩ <;> intro _ _ _ _ _ h <;> cases h <;> decide
  obtain ⟨guard, n, hguard, _, earlier, c, later, hsplit, hremoves⟩ :=
    at_most_once_dispatch sampleHost idle_sampleSystem hsched hmax hfirst hsecond
      (hroute'.trans hroute.symm) (hrequest'.trans hrequest.symm) (by rw [hroute]; rfl)
  have hkey : ((run (System.step sampleHost) sampleSystem (arrival 0 1000)).live[0]?).map
      (fun live => live.guard.map DedupGuard.key) = some (some gitHubKey) := by decide +kernel
  rw [hfirst.1] at hkey
  simp only [Option.map_some, hguard, Option.some.injEq] at hkey
  exact ⟨n, earlier, c, later, hsplit, hkey ▸ hremoves⟩

/-! ## The last millisecond -/

/-- A Bondry delivery signed in the last second an `i64` of milliseconds can name. -/
def lastSecondRequest : VerificationRequest where
  method := "POST"
  target := "/hook"
  headers := [("x-bondry-delivery-id", Encoding.ascii "delivery-1"),
    ("x-bondry-timestamp", Encoding.ascii "9223372036854775"),
    ("x-bondry-signature", Encoding.ascii
      "e99e637b97b92984435cb3650f286328dcf798bd7e5d9d3451be9fa72cb225d5"),
    ("content-type", Encoding.ascii "application/json")]
  body := Encoding.ascii "\x7b\x7d"

def lastSecondKey : DedupKey :=
  ⟨⟨['w', 'e', 'b', 'h', 'o', 'o', 'k'], webhook_valid⟩, bondryHmacNamespace,
    ⟨sampleCrypto.sha256 (Encoding.ascii "delivery-1"), sampleCrypto.sha256_length _⟩⟩

def lastSecondRoute : WebhookRoute := sampleRoute (.bondryHmac .standard) rfl

def firstArrival : List (Action DispatchWorld) :=
  [.begin lastSecondRoute lastSecondRequest ⟨9223372036854775000, 0⟩ sampleSecrets [],
    .identify 0 (some ⟨['a'], invocation_valid⟩) []]

/-- It completes; the same bytes arrive 807 milliseconds later, at `i64::MAX`. -/
def secondArrival : List (Action DispatchWorld) :=
  [.poll 0 willingWorld, .settle 0 [],
    .begin lastSecondRoute lastSecondRequest ⟨9223372036854775807, 0⟩ sampleSecrets [],
    .identify 1 (some ⟨['b'], by decide⟩) []]

/-- **At `i64::MAX` the expiry time saturates.**  The record of a completed delivery then expires
    807 milliseconds after its claim, and the same bytes are dispatched again although nobody removed
    it on purpose. -/
theorem saturated_expiry_dispatches_twice : Idle sampleSystem ∧
      All (System.step sampleHost) Scheduled sampleSystem
        (firstArrival ++ .poll 0 willingWorld :: (secondArrival ++ [.poll 1 willingWorld])) ∧
      (∃ live, Dispatches (run (System.step sampleHost) sampleSystem firstArrival)
        (.poll 0 willingWorld) 0 live ∧ live.route = lastSecondRoute ∧ live.request = lastSecondRequest) ∧
      ((run (System.step sampleHost) sampleSystem firstArrival).live[0]?).map
        (fun live => (live.guard, live.row)) = some (some ⟨lastSecondKey, 9223372036854775000⟩, some 1) ∧
      (∃ live, Dispatches (run (System.step sampleHost) sampleSystem
        (firstArrival ++ .poll 0 willingWorld :: secondArrival)) (.poll 1 willingWorld) 1 live ∧
        live.route = lastSecondRoute ∧ live.request = lastSecondRequest) ∧
      lastSecondRoute.configuration.semantics = .nonIdempotentMutation ∧
      All (System.step sampleHost) (fun s c => ¬ RemovesRecord sampleHost 0 lastSecondKey 1 s c)
        (run (System.step sampleHost) sampleSystem (firstArrival ++ [.poll 0 willingWorld]))
        secondArrival := by
  refine ⟨idle_sampleSystem, ?_, dispatches_of_find _ (by decide +kernel), by decide +kernel,
    dispatches_of_find _ (by decide +kernel), rfl, ?_⟩
  · exact ⟨scheduled_begin (Nat.zero_le _), scheduled_of_ticket rfl, scheduled_of_ticket rfl,
      scheduled_of_ticket rfl, scheduled_of_ticket rfl, scheduled_begin (by decide +kernel),
      scheduled_of_ticket rfl, scheduled_of_ticket rfl, trivial⟩
  · refine ⟨fun h => absurd h.2.1 ?_, fun h => absurd h.2.1 ?_, fun h => absurd h.2.1 ?_,
      fun h => absurd h.2.1 ?_, trivial⟩ <;> decide +kernel

end Bondry.Webhook
