/-
  THE STATE MACHINE OF A DEDUPLICATION RECORD.

  Each key has at most one row, and the row of a key moves only along these edges:

      absent ── claim ──▶ in_flight ── complete ──▶ completed ── expiry, clearing ──▶ absent
                          in_flight ── mark_unknown, recover ──▶ unknown
                          in_flight ── release ──▶ absent
                          unknown ── resolve ──▶ completed | absent

  `Move limits request key` is that graph, labelled with the request that takes the edge and with the
  exact row it leaves.  `call_moves` says that every call moves every key along edges labelled with its
  own request: one edge at most, except that a claim of an expired key takes two (expiry, then claim).
-/
import Bondry.Store.Usage

namespace Bondry.Store

open Sql

/-! ## The edges -/

/-- One edge of the graph, from what the key had to what it has; a row keeps its number. -/
inductive Move (limits : DedupStoreLimits) (request : DedupRequest) (answer : DedupAnswer)
    (key : DedupKey) : Option (Nat × DedupRow) → Option (Nat × DedupRow) → Prop
  | claimed {policy now n} (hreq : request = .claim key policy now)
      (hans : answer = .claim (.ok .claimed)) :
      Move limits request answer key none (some (n, claimedRow key policy now (charge key)))
  | completed {now n} {row : DedupRow} (hreq : request = .complete key now)
      (hans : answer = .change (.ok ())) (hold : row.state = .inFlight) :
      Move limits request answer key (some (n, row))
        (some (n, toCompleted now (expiresAt limits now) row))
  | uncertain {now n} {row : DedupRow}
      (hreq : request = .markUnknown key now ∧ answer = .change (.ok ()) ∨
        request = .recoverInFlight now ∧ ∃ changed, answer = .count (.ok changed))
      (hold : row.state = .inFlight) :
      Move limits request answer key (some (n, row)) (some (n, toUnknown now row))
  | released {n} {row : DedupRow} (hreq : request = .releaseClaim key)
      (hans : answer = .change (.ok ())) (hold : row.state = .inFlight) :
      Move limits request answer key (some (n, row)) none
  | resolved {now n} {row : DedupRow} (hreq : request = .resolveUnknown key .completed now)
      (hans : answer = .change (.ok ())) (hold : row.state = .unknown) :
      Move limits request answer key (some (n, row))
        (some (n, toCompleted now (expiresAt limits now) row))
  | retried {now n} {row : DedupRow} (hreq : request = .resolveUnknown key .retryAllowed now)
      (hans : answer = .change (.ok ())) (hold : row.state = .unknown) :
      Move limits request answer key (some (n, row)) none
  | expired {own policy n} {row : DedupRow} {now : Nat} (hreq : request = .claim own policy now)
      (hold : row.state = .completed) (hexp : Store.expired now row = true) :
      Move limits request answer key (some (n, row)) none
  | cleared {n} {row : DedupRow} {cutoff : Nat} (hreq : request = .clearCompletedBefore cutoff)
      (hans : ∃ changed, answer = .count (.ok changed)) (hold : row.state = .completed)
      (hlt : row.updatedAtMs < cutoff) :
      Move limits request answer key (some (n, row)) none

/-! ## What a statement does to one key -/

variable {p : DedupRow → Bool} {db db' : Database} {n : Nat}

theorem delete_at (h : deleteDedup p db = some (n, db')) (k : DedupKey) :
    db'.webhookDedup.find k = db.webhookDedup.find k ∨
      ∃ m row, db.webhookDedup.find k = some (m, row) ∧ p row = true ∧ db'.webhookDedup.find k = none := by
  obtain ⟨_, hdel, _, _⟩ := deleteDedup_eq h
  rw [hdel, Table.find_delete]
  cases hf : db.webhookDedup.find k with
  | none => exact .inl rfl
  | some e =>
    cases hp : p e.2 with
    | true => exact .inr ⟨e.1, e.2, rfl, hp, by simp [hp]⟩
    | false => exact .inl (by simp [hp])

variable {f : DedupRow → DedupRow}

theorem update_at (h : updateDedup p f db = some (n, db')) (hk : ∀ r, (f r).key = r.key) (k : DedupKey) :
    db'.webhookDedup.find k = db.webhookDedup.find k ∨
      ∃ m row, db.webhookDedup.find k = some (m, row) ∧ p row = true ∧
        db'.webhookDedup.find k = some (m, f row) := by
  obtain ⟨_, hupd, _, _⟩ := updateDedup_eq h
  rw [Table.find_update hupd fun r _ => hk r]
  cases hf : db.webhookDedup.find k with
  | none => exact .inl rfl
  | some e =>
    cases hp : p e.2 with
    | true => exact .inr ⟨e.1, e.2, rfl, hp, by simp [Table.amend, hp]⟩
    | false => exact .inl (by simp [Table.amend, hp])

variable {row : DedupRow}

theorem insert_at (h : insertDedup row db = some (n, db')) (k : DedupKey) : db'.webhookDedup.find k =
      if row.key = k then some (db.webhookDedup.last + 1, row) else db.webhookDedup.find k := by
  obtain ⟨_, hins, _, _⟩ := insertDedup_eq h
  exact Table.find_insert hins k

variable {own : DedupKey} {policy : DedupClaimPolicy}

theorem claim_at {now charged : Int}
    (h : insertDedup (claimedRow own policy now charged) db = some (n, db')) (k : DedupKey) :
    db'.webhookDedup.find k =
      if own = k then some (db.webhookDedup.last + 1, claimedRow own policy now charged)
      else db.webhookDedup.find k :=
  insert_at h k

theorem key_of_find {k : DedupKey} {m : Nat} (h : db.webhookDedup.find k = some (m, row)) : row.key = k :=
  Table.key_of_find h

variable {key : DedupKey} {state : DedupState}

theorem selects_iff : selects key state row = true ↔ row.key = key ∧ row.state = state := by
  simp [selects]

theorem expired_iff {now : Int} : expired now row = true ↔
      row.state = .completed ∧ ∃ at_, row.expiresAtMs = some at_ ∧ at_ ≤ now := by
  simp only [expired, Bool.and_eq_true, decide_eq_true_eq]
  cases row.expiresAtMs with
  | none => simp
  | some at_ => simp

theorem expired_completed {now : Int} (h : expired now row = true) : row.state = .completed :=
  (expired_iff.mp h).1

/-! ## Every call moves along its own edges -/

/-- The rows a call leaves, key by key: unchanged, one edge, or expiry followed by a claim. -/
def Moves (limits : DedupStoreLimits) (request : DedupRequest) (answer : DedupAnswer)
    (key : DedupKey) : Option (Nat × DedupRow) → Option (Nat × DedupRow) → Prop :=
  Relation.ReflTransGen (Move limits request answer key)

section

variable {limits : DedupStoreLimits} {request : DedupRequest} {answer : DedupAnswer}
  {db db' : Database}

variable {own : DedupKey} {n : Nat}

theorem moves_of_update {state : DedupState} {f : DedupRow → DedupRow}
    (h : updateDedup (selects own state) f db = some (n, db')) (hk : ∀ r, (f r).key = r.key)
    (hedge : ∀ m (row : DedupRow), row.state = state →
      Move limits request answer own (some (m, row)) (some (m, f row))) (key : DedupKey) :
    Moves limits request answer key (db.webhookDedup.find key) (db'.webhookDedup.find key) := by
  rcases update_at h hk key with hsame | ⟨m, row, hfind, hp, hnew⟩
  · rw [hsame]
    exact .refl
  · obtain ⟨hown, hstate⟩ := selects_iff.mp hp
    have : own = key := hown.symm.trans (key_of_find hfind)
    subst this
    rw [hfind, hnew]
    exact .single (hedge m row hstate)

theorem moves_of_delete {state : DedupState} (h : deleteDedup (selects own state) db = some (n, db'))
    (hedge : ∀ m (row : DedupRow), row.state = state →
      Move limits request answer own (some (m, row)) none) (key : DedupKey) :
    Moves limits request answer key (db.webhookDedup.find key) (db'.webhookDedup.find key) := by
  rcases delete_at h key with hsame | ⟨m, row, hfind, hp, hnew⟩
  · rw [hsame]
    exact .refl
  · obtain ⟨hown, hstate⟩ := selects_iff.mp hp
    have : own = key := hown.symm.trans (key_of_find hfind)
    subst this
    rw [hfind, hnew]
    exact .single (hedge m row hstate)

/-- A transition moves by its statement when it answers `ok`, and not at all otherwise. -/
theorem moves_of_changeOne {update : Database → Option (Nat × Database)}
    {r : Except DedupStoreError Unit} (h : TransitionRun own update db r db')
    (hupd : ∀ db₁, update db = some (1, db₁) → ∀ key, Moves limits request (.change (.ok ())) key
        (db.webhookDedup.find key) (db₁.webhookDedup.find key)) (key : DedupKey) :
    Moves limits request (.change r) key (db.webhookDedup.find key) (db'.webhookDedup.find key) := by
  cases h with
  | failed => exact .refl
  | changed h => exact hupd _ h key
  | refused h => exact .refl
  | missing h => exact .refl

theorem moves_of_expiry {policy : DedupClaimPolicy} {now : Nat}
    (h : deleteDedup (expired now) db = some (n, db')) (key : DedupKey) :
    Moves limits (.claim own policy now) answer key
      (db.webhookDedup.find key) (db'.webhookDedup.find key) := by
  rcases delete_at h key with hsame | ⟨m, row, hfind, hp, hnew⟩
  · rw [hsame]
    exact .refl
  · rw [hfind, hnew]
    exact .single (.expired rfl (expired_completed hp) hp)

/-- **Every call moves every key along edges labelled with its own request and answer.** -/
theorem call_moves (h : CallRun limits db request answer db') (key : DedupKey) :
    Moves limits request answer key (db.webhookDedup.find key) (db'.webhookDedup.find key) := by
  cases h with
  | @claim own policy now r db' h =>
    cases h with
    | failed => exact .refl
    | late ht => exact .refl
    | duplicate ht hdel hfind => exact moves_of_expiry hdel key
    | full ht hdel hfind husage hfull => exact moves_of_expiry hdel key
    | @claimed n m db₁ db₂ records bytes ht hdel hfind husage hroom hins =>
      have hexp : Moves limits (.claim own policy now) (.claim (.ok .claimed)) key _ _ :=
        moves_of_expiry hdel key
      rw [claim_at hins key]
      by_cases hk : own = key
      · subst hk
        rw [hfind] at hexp
        rw [if_pos rfl]
        exact hexp.tail (.claimed rfl rfl)
      · rw [if_neg hk]
        exact hexp
  | complete h =>
    cases h with
    | late ht => exact .refl
    | timely ht h =>
      refine moves_of_changeOne h (fun db₁ hu => moves_of_update hu (fun _ => rfl) ?_) key
      exact fun m row hs => .completed rfl rfl hs
  | markUnknown h =>
    cases h with
    | late ht => exact .refl
    | timely ht h =>
      refine moves_of_changeOne h (fun db₁ hu => moves_of_update hu (fun _ => rfl) ?_) key
      exact fun m row hs => .uncertain (.inl ⟨rfl, rfl⟩) hs
  | releaseClaim h =>
    refine moves_of_changeOne h (fun db₁ hu => moves_of_delete hu ?_) key
    exact fun m row hs => .released rfl rfl hs
  | recoverInFlight h =>
    cases h with
    | late ht => exact .refl
    | timely ht h =>
      cases h with
      | failed => exact .refl
      | @done changed db₁ h =>
        rcases update_at h (fun _ => rfl) key with hsame | ⟨m, row, hfind, hp, hnew⟩
        · rw [hsame]
          exact .refl
        · rw [hfind, hnew]
          exact .single (.uncertain (.inr ⟨rfl, changed, rfl⟩) (of_decide_eq_true hp))
  | @resolveUnknown own res now r db' h =>
    cases h with
    | late ht => exact .refl
    | timely ht h =>
      cases res with
      | completed =>
        refine moves_of_changeOne h (fun db₁ hu => moves_of_update hu (fun _ => rfl) ?_) key
        exact fun m row hs => .resolved rfl rfl hs
      | retryAllowed =>
        refine moves_of_changeOne h (fun db₁ hu => moves_of_delete hu ?_) key
        exact fun m row hs => .retried rfl rfl hs
  | clearCompletedBefore h =>
    cases h with
    | late ht => exact .refl
    | timely ht h =>
      cases h with
      | failed => exact .refl
      | @done changed db₁ h =>
        rcases delete_at h key with hsame | ⟨m, row, hfind, hp, hnew⟩
        · rw [hsame]
          exact .refl
        · simp only [clearable, Bool.and_eq_true, decide_eq_true_eq] at hp
          rw [hfind, hnew]
          exact .single (.cleared rfl ⟨changed, rfl⟩ hp.1 hp.2)

/-! ## Reading the edges -/

variable {key : DedupKey} {before : Option (Nat × DedupRow)} {row : DedupRow}

/-- A row that is there after a call was there before it, with the same number and policy, unless the
    call was the claim that made it. -/
theorem row_origin (h : Moves limits request answer key before (some (n, row))) :
    (∃ old, before = some (n, old) ∧ row.automaticExpiry = old.automaticExpiry) ∨
      ∃ policy now, request = .claim key policy now ∧ answer = .claim (.ok .claimed) ∧
        row = claimedRow key policy now (charge key) := by
  generalize hafter : some (n, row) = after at h
  induction h generalizing n row with
  | refl => exact .inl ⟨row, hafter.symm, rfl⟩
  | tail _ hmove ih =>
    cases hmove with
    | claimed hreq hans =>
      cases hafter
      exact .inr ⟨_, _, hreq, hans, rfl⟩
    | completed hreq hans hold =>
      cases hafter
      rcases ih rfl with ⟨old, hb, ha⟩ | ⟨_, _, hclaim, _⟩
      · exact .inl ⟨old, hb, ha⟩
      · rw [hreq] at hclaim
        cases hclaim
    | uncertain hreq hold =>
      cases hafter
      rcases ih rfl with ⟨old, hb, ha⟩ | ⟨_, _, hclaim, _⟩
      · exact .inl ⟨old, hb, ha⟩
      · rcases hreq with ⟨hreq, _⟩ | ⟨hreq, _⟩ <;> rw [hreq] at hclaim <;> cases hclaim
    | resolved hreq hans hold =>
      cases hafter
      rcases ih rfl with ⟨old, hb, ha⟩ | ⟨_, _, hclaim, _⟩
      · exact .inl ⟨old, hb, ha⟩
      · rw [hreq] at hclaim
        cases hclaim
    | released _ _ _ => cases hafter
    | retried _ _ _ => cases hafter
    | expired _ _ _ => cases hafter
    | cleared _ _ _ _ => cases hafter

variable {after : Option (Nat × DedupRow)}

theorem moves_from_none (h : Moves limits request answer key none after) :
    after = none ∨ ∃ policy now, request = .claim key policy now ∧ answer = .claim (.ok .claimed) := by
  rcases h.cases_head with h | ⟨mid, hmove, _⟩
  · exact .inl h.symm
  · cases hmove with
    | claimed hreq hans => exact .inr ⟨_, _, hreq, hans⟩

/-- The one state a request takes rows out of. -/
def DedupRequest.source : DedupRequest → DedupState
  | .claim _ _ _ | .clearCompletedBefore _ => .completed
  | .complete _ _ | .markUnknown _ _ | .releaseClaim _ | .recoverInFlight _ => .inFlight
  | .resolveUnknown _ _ _ => .unknown

theorem Move.source_eq (h : Move limits request answer key (some (n, row)) after) :
    row.state = request.source := by
  cases h with
  | completed hreq _ hold => rw [hreq]; exact hold
  | uncertain hreq hold => rcases hreq with ⟨hreq, _⟩ | ⟨hreq, _⟩ <;> rw [hreq] <;> exact hold
  | released hreq _ hold => rw [hreq]; exact hold
  | resolved hreq _ hold => rw [hreq]; exact hold
  | retried hreq _ hold => rw [hreq]; exact hold
  | expired hreq hold _ => rw [hreq]; exact hold
  | cleared hreq _ hold _ => rw [hreq]; exact hold

theorem Move.target_ne (h : Move limits request answer key before (some (n, row))) :
    row.state ≠ request.source := by
  cases h with
  | claimed hreq _ => rw [hreq]; exact fun hs => by cases hs
  | completed hreq _ _ => rw [hreq]; exact fun hs => by cases hs
  | uncertain hreq _ =>
    rcases hreq with ⟨hreq, _⟩ | ⟨hreq, _⟩ <;> rw [hreq] <;> exact fun hs => by cases hs
  | resolved hreq _ _ => rw [hreq]; exact fun hs => by cases hs

/-- **What a call does to a row that is there**: nothing, one edge, or its expiry before a claim of the
    same key. -/
theorem moves_from_row (h : Moves limits request answer key (some (n, row)) after) :
    after = some (n, row) ∨ Move limits request answer key (some (n, row)) after ∨
      ∃ policy, ∃ now : Nat, request = .claim key policy now ∧ expired now row = true := by
  rcases h.cases_head with h | ⟨mid, hmove, hrest⟩
  · exact .inl h.symm
  rcases hrest.cases_head with rfl | ⟨next, hnext, _⟩
  · exact .inr (.inl hmove)
  cases mid with
  | some e => exact absurd hnext.source_eq hmove.target_ne
  | none =>
    -- only a claim leads away from `absent`, and then the first edge was its expiry
    cases hnext with
    | @claimed policy now m hreq hans =>
      refine .inr (.inr ⟨policy, now, hreq, ?_⟩)
      subst hreq
      cases hmove with
      | released hreq' => cases hreq'
      | retried hreq' => cases hreq'
      | expired hreq' hold hexp =>
        cases hreq'
        exact hexp
      | cleared hreq' => cases hreq'

/-- The key a request names, if it names one. -/
def DedupRequest.names : DedupRequest → Option DedupKey
  | .claim key _ _ => some key
  | .complete key _ => some key
  | .markUnknown key _ => some key
  | .releaseClaim key => some key
  | .recoverInFlight _ => none
  | .resolveUnknown key _ _ => some key
  | .clearCompletedBefore _ => none

/-- A request about one key leaves every other key alone, except that a claim removes expired
    records. -/
theorem others_kept (h : Moves limits request answer key before after)
    (hown : request.names = some own) (hne : key ≠ own) :
    after = before ∨ ∃ policy now, request = .claim own policy now ∧
      ∃ n row, before = some (n, row) ∧ expired now row = true ∧ after = none := by
  rcases h.cases_head with h | ⟨mid, hmove, hrest⟩
  · exact .inl h.symm
  cases hmove with
  | expired hreq hold hexp =>
    subst hreq
    cases hown
    rcases moves_from_none hrest with hnone | ⟨_, _, hreq, _⟩
    · exact .inr ⟨_, _, rfl, _, _, rfl, hexp, hnone⟩
    · cases hreq
      exact absurd rfl hne
  | claimed hreq _ => subst hreq; cases hown; exact absurd rfl hne
  | completed hreq _ _ => subst hreq; cases hown; exact absurd rfl hne
  | uncertain hreq _ =>
    rcases hreq with ⟨hreq, _⟩ | ⟨hreq, _⟩
    · subst hreq; cases hown; exact absurd rfl hne
    · subst hreq; cases hown
  | released hreq _ _ => subst hreq; cases hown; exact absurd rfl hne
  | resolved hreq _ _ => subst hreq; cases hown; exact absurd rfl hne
  | retried hreq _ _ => subst hreq; cases hown; exact absurd rfl hne
  | cleared hreq _ _ _ => subst hreq; cases hown

theorem completed_leaves (h : Moves limits request answer key (some (n, row)) after)
    (hrow : row.state = .completed) : after = some (n, row) ∨
      (∃ own policy, ∃ now : Nat, request = .claim own policy now ∧ expired now row = true) ∨
      ∃ cutoff : Nat, request = .clearCompletedBefore cutoff ∧ row.updatedAtMs < cutoff := by
  rcases h.cases_head with h | ⟨mid, hmove, _⟩
  · exact .inl h.symm
  cases hmove with
  | completed _ _ hold => rw [hrow] at hold; cases hold
  | uncertain _ hold => rw [hrow] at hold; cases hold
  | released _ _ hold => rw [hrow] at hold; cases hold
  | resolved _ _ hold => rw [hrow] at hold; cases hold
  | retried _ _ hold => rw [hrow] at hold; cases hold
  | expired hreq _ hexp => exact .inr (.inl ⟨_, _, _, hreq, hexp⟩)
  | cleared hreq _ _ hlt => exact .inr (.inr ⟨_, hreq, hlt⟩)

theorem unfinished_kept (h : Moves limits request answer key (some (n, row)) after)
    (hrow : row.state ≠ .completed) (hreq : (∃ own policy now, request = .claim own policy now) ∨
      ∃ cutoff, request = .clearCompletedBefore cutoff) : after = some (n, row) := by
  rcases h.cases_head with h | ⟨mid, hmove, _⟩
  · exact h.symm
  rcases hreq with ⟨own, policy, now, rfl⟩ | ⟨cutoff, rfl⟩
  all_goals cases hmove with
    | completed hreq _ _ => cases hreq
    | uncertain hreq _ => rcases hreq with ⟨hreq, _⟩ | ⟨hreq, _⟩ <;> cases hreq
    | released hreq _ _ => cases hreq
    | resolved hreq _ _ => cases hreq
    | retried hreq _ _ => cases hreq
    | expired _ hold _ => exact absurd hold hrow
    | cleared _ _ hold _ => exact absurd hold hrow

end

/-! ## Row numbers -/

theorem delete_last (h : deleteDedup p db = some (n, db')) :
    db'.webhookDedup.last = db.webhookDedup.last := by
  rw [(deleteDedup_eq h).2.1]
  rfl

theorem update_last (h : updateDedup p f db = some (n, db')) : db'.webhookDedup.last = db.webhookDedup.last :=
  (Table.update_eq_some (updateDedup_eq h).2.1).2

theorem insert_last (h : insertDedup row db = some (n, db')) :
    db'.webhookDedup.last = db.webhookDedup.last + 1 :=
  (Table.insert_eq_some (insertDedup_eq h).2.1).2.2.2

variable {update : Database → Option (Nat × Database)} {r : Except DedupStoreError Unit}

theorem transition_last (h : TransitionRun own update db r db')
    (hupd : ∀ db₁, update db = some (1, db₁) → db₁.webhookDedup.last = db.webhookDedup.last) :
    db'.webhookDedup.last = db.webhookDedup.last := by
  cases h with
  | failed => rfl
  | changed h => exact hupd _ h
  | refused h => rfl
  | missing h => rfl

variable {limits : DedupStoreLimits} {request : DedupRequest}

theorem call_last {answer : DedupAnswer} (h : CallRun limits db request answer db') :
    db.webhookDedup.last ≤ db'.webhookDedup.last := by
  cases h with
  | claim h =>
    cases h with
    | failed => exact le_rfl
    | late ht => exact le_rfl
    | duplicate ht hdel hfind => exact (delete_last hdel).ge
    | full ht hdel hfind husage hfull => exact (delete_last hdel).ge
    | claimed ht hdel hfind husage hroom hins =>
      rw [insert_last hins, delete_last hdel]
      exact Nat.le_succ _
  | complete h =>
    cases h with
    | late ht => exact le_rfl
    | timely ht h => exact (transition_last h fun _ hu => update_last hu).ge
  | markUnknown h =>
    cases h with
    | late ht => exact le_rfl
    | timely ht h => exact (transition_last h fun _ hu => update_last hu).ge
  | releaseClaim h => exact (transition_last h fun _ hu => delete_last hu).ge
  | recoverInFlight h =>
    cases h with
    | late ht => exact le_rfl
    | timely ht h =>
      cases h with
      | failed => exact le_rfl
      | done h => exact (update_last h).ge
  | @resolveUnknown key res now r db' h =>
    cases h with
    | late ht => exact le_rfl
    | timely ht h =>
      cases res with
      | completed => exact (transition_last h fun _ hu => update_last hu).ge
      | retryAllowed => exact (transition_last h fun _ hu => delete_last hu).ge
  | clearCompletedBefore h =>
    cases h with
    | late ht => exact le_rfl
    | timely ht h =>
      cases h with
      | failed => exact le_rfl
      | done h => exact (delete_last h).ge

variable {now : Nat}

theorem claimed_number (h : CallRun limits db (.claim key policy now) (.claim (.ok .claimed)) db')
    (hrow : db'.webhookDedup.find key = some (n, row)) : db.webhookDedup.last < n := by
  cases h with
  | claim h =>
    cases h with
    | claimed ht hdel hfind husage hroom hins =>
      rw [claim_at hins key, if_pos rfl] at hrow
      cases hrow
      rw [delete_last hdel]
      exact Nat.lt_succ_self _

/-! ## Refusals -/

/-- A statement about one key in one state: it changes one row exactly when the key is in that state,
    and otherwise leaves the key as it is. -/
def Keyed (own : DedupKey) (state : DedupState) (update : Database → Option (Nat × Database))
    (db : Database) : Prop :=
  ∀ n db₁, update db = some (n, db₁) →
    (n = 1 ↔ ∃ m row, db.webhookDedup.find own = some (m, row) ∧ row.state = state) ∧
    (n ≠ 1 → db₁.webhookDedup.find own = db.webhookDedup.find own)

theorem matched_selects (db : Database) (own : DedupKey) (state : DedupState) :
    (db.webhookDedup.matched (selects own state)).length = 1 ↔
      ∃ m row, db.webhookDedup.find own = some (m, row) ∧ row.state = state := by
  have hkey : ∀ r, selects own state r = true → dedupSchema.key r = own :=
    fun r hr => (selects_iff.mp hr).1
  rw [Table.matched_of_key hkey]
  cases hf : db.webhookDedup.find own with
  | none => simp
  | some e =>
    obtain ⟨m, row⟩ := e
    have hrow := key_of_find hf
    by_cases hs : row.state = state
    · simp [selects, hrow, hs]
    · simp [selects, hs]

theorem keyed_update (hk : ∀ r, (f r).key = r.key) (db : Database) :
    Keyed own state (updateDedup (selects own state) f) db := by
  intro n db₁ h
  have hn := (updateDedup_eq h).1
  refine ⟨by rw [hn]; exact matched_selects db own state, fun hne => ?_⟩
  rcases update_at h hk own with hsame | ⟨m, row, hfind, hp, _⟩
  · exact hsame
  · rw [hn] at hne
    exact absurd ((matched_selects db own state).mpr ⟨m, row, hfind, (selects_iff.mp hp).2⟩) hne

theorem keyed_completed (own : DedupKey) (state : DedupState) (now at_ : Int) (db : Database) :
    Keyed own state (updateDedup (selects own state) (toCompleted now at_)) db :=
  keyed_update (f := toCompleted now at_) (fun _ => rfl) db

theorem completed_after (h : CallRun limits db (.complete key now) (.change (.ok ())) db') :
    ∃ n row, db'.webhookDedup.find key = some (n, row) ∧ row.state = .completed := by
  cases h with
  | complete h =>
    cases h with
    | timely _ h =>
      cases h with
      | changed h =>
        obtain ⟨m, row, hfind, hstate⟩ :=
          (keyed_completed key .inFlight _ _ db _ _ h).1.mp rfl
        obtain ⟨_, hupd, _, _⟩ := updateDedup_eq h
        have hp : selects key .inFlight row = true :=
          selects_iff.mpr ⟨key_of_find hfind, hstate⟩
        refine ⟨m, toCompleted now (expiresAt limits now) row, ?_, rfl⟩
        rw [Table.find_update hupd fun r _ => rfl, hfind]
        simp [Table.amend, hp]

theorem keyed_unknown (own : DedupKey) (now : Int) (db : Database) :
    Keyed own .inFlight (updateDedup (selects own .inFlight) (toUnknown now)) db :=
  keyed_update (f := toUnknown now) (fun _ => rfl) db

theorem keyed_delete (own : DedupKey) (state : DedupState) (db : Database) :
    Keyed own state (deleteDedup (selects own state)) db := by
  intro n db₁ h
  have hn := (deleteDedup_eq h).1
  refine ⟨by rw [hn]; exact matched_selects db own state, fun hne => ?_⟩
  rcases delete_at h own with hsame | ⟨m, row, hfind, hp, _⟩
  · exact hsame
  · rw [hn] at hne
    exact absurd ((matched_selects db own state).mpr ⟨m, row, hfind, (selects_iff.mp hp).2⟩) hne

/-- The key a transition is about, and the state it must be in. -/
def DedupRequest.requires : DedupRequest → Option (DedupKey × DedupState)
  | .complete key _ => some (key, .inFlight)
  | .markUnknown key _ => some (key, .inFlight)
  | .releaseClaim key => some (key, .inFlight)
  | .resolveUnknown key _ _ => some (key, .unknown)
  | .claim _ _ _ | .recoverInFlight _ | .clearCompletedBefore _ => none

/-- The time a request passes to the store. -/
def DedupRequest.time : DedupRequest → Nat
  | .claim _ _ now => now
  | .complete _ now => now
  | .markUnknown _ now => now
  | .releaseClaim _ => 0
  | .recoverInFlight now => now
  | .resolveUnknown _ _ now => now
  | .clearCompletedBefore cutoff => cutoff

/-- What a refused transition tells its caller, in a database it left alone. -/
structure Refusal (own : DedupKey) (state : DedupState) (timely : Prop) (db db' : Database)
    (r : Except DedupStoreError Unit) : Prop where
  kept : ∀ e, r = .error e → db' = db
  absent : r = .error .notFound → db.webhookDedup.find own = none
  present : timely → r = .error .invalidTransition →
    ∃ m row, db.webhookDedup.find own = some (m, row) ∧ row.state ≠ state

theorem refusal_of_run {timely : Prop} (h : TransitionRun own update db r db')
    (hkeyed : Keyed own state update db) : Refusal own state timely db db' r := by
  cases h with
  | failed =>
    exact ⟨fun _ _ => rfl, fun hr => (nomatch hr), fun _ hr => (nomatch hr)⟩
  | changed h =>
    exact ⟨fun _ hr => (nomatch hr), fun hr => (nomatch hr), fun _ hr => (nomatch hr)⟩
  | refused h hn hthere =>
    obtain ⟨hone, hsame⟩ := hkeyed _ _ h
    rw [hsame hn] at hthere
    obtain ⟨⟨m, row⟩, hfind⟩ := Option.isSome_iff_exists.mp hthere
    refine ⟨fun _ _ => rfl, fun hr => (nomatch hr), fun _ _ => ⟨m, row, hfind, fun hs => ?_⟩⟩
    exact hn (hone.mpr ⟨m, row, hfind, hs⟩)
  | missing h hn hgone =>
    obtain ⟨_, hsame⟩ := hkeyed _ _ h
    rw [hsame hn] at hgone
    refine ⟨fun _ _ => rfl, fun _ => ?_, fun _ hr => nomatch hr⟩
    simpa using hgone

theorem refusal_late (ht : ¬ now ≤ i64Max) :
    Refusal own state (now ≤ i64Max) db db (.error .invalidTransition) :=
  ⟨fun _ _ => rfl, fun hr => (nomatch hr), fun htime => absurd htime ht⟩

/-- **Refused transitions change nothing and say why.** -/
theorem call_refusal (h : CallRun limits db request (.change r) db')
    (hreq : request.requires = some (own, state)) : Refusal own state (request.time ≤ i64Max) db db' r := by
  cases h with
  | complete h =>
    cases hreq
    cases h with
    | late ht => exact refusal_late ht
    | timely ht h => exact refusal_of_run h (keyed_completed _ _ _ _ db)
  | markUnknown h =>
    cases hreq
    cases h with
    | late ht => exact refusal_late ht
    | timely ht h => exact refusal_of_run h (keyed_unknown _ _ db)
  | releaseClaim h =>
    cases hreq
    exact refusal_of_run h (keyed_delete _ _ db)
  | @resolveUnknown key res now r db' h =>
    cases hreq
    cases h with
    | late ht => exact refusal_late ht
    | timely ht h =>
      cases res with
      | completed => exact refusal_of_run h (keyed_completed _ _ _ _ db)
      | retryAllowed => exact refusal_of_run h (keyed_delete _ _ db)

theorem transition_decided (hruns : ∃ n db₁, update db = some (n, db₁))
    (hkeyed : Keyed own state update db) :
    let r := ((transition own update).run [] db).1
    (r = .error .notFound ↔ db.webhookDedup.find own = none) ∧
      (r = .ok () ↔ ∃ m row, db.webhookDedup.find own = some (m, row) ∧ row.state = state) := by
  obtain ⟨n, db₁, hupd⟩ := hruns
  obtain ⟨hone, hsame⟩ := hkeyed n db₁ hupd
  simp only [transition, Op.changeOne_run, hupd]
  by_cases hn : n = 1
  · obtain ⟨m, row, hfind, hs⟩ := hone.mp hn
    simp [hn, hfind, hs]
  rw [if_neg hn, hsame hn]
  have hstate := mt hone.mpr hn
  cases hf : db.webhookDedup.find own with
  | none => simp
  | some e =>
    rw [hf] at hstate
    simp only [Option.isSome_some, if_true, reduceCtorEq, false_iff, iff_false] at hstate ⊢
    exact ⟨by simp, hstate⟩

theorem updateDedup_isSome (db : Database) (hk : ∀ r, (f r).key = r.key)
    (hc : ∀ r, p r = true → r.check = true → (f r).check = true) :
    ∃ n db', updateDedup p f db = some (n, db') := by
  have h : (db.webhookDedup.update p f).isSome :=
    Table.update_isSome (fun r _ => hk r) (fun r hp hr => hc r hp hr)
  obtain ⟨rows, hrows⟩ := Option.isSome_iff_exists.mp h
  exact ⟨_, _, by rw [updateDedup, hrows]; rfl⟩

theorem toCompleted_check {at_ : Int} (h : row.check = true) : (toCompleted now at_ row).check = true := by
  simp only [DedupRow.check, Bool.and_eq_true, Bool.or_eq_true, decide_eq_true_eq] at h ⊢
  refine ⟨⟨Int.natCast_nonneg now, h.1.2⟩, ?_⟩
  cases ha : row.automaticExpiry with
  | true => simp [toCompleted, ha]
  | false => simp [toCompleted, ha]

theorem toUnknown_check (h : row.check = true) : (toUnknown now row).check = true := by
  simp only [DedupRow.check, Bool.and_eq_true, Bool.or_eq_true, decide_eq_true_eq] at h ⊢
  exact ⟨⟨Int.natCast_nonneg now, h.1.2⟩, by simp [toUnknown]⟩

theorem complete_timely (htime : now ≤ i64Max) : complete limits key now = transition key
      (updateDedup (selects key .inFlight) (toCompleted now (expiresAt limits now))) := by
  rw [complete, encodedTime_ok htime]
  change (do let expiresAt ← Op.ofExcept (expiration now limits); _) = _
  rw [expiration_ok]
  rfl

theorem markUnknown_timely (htime : now ≤ i64Max) : markUnknown key now =
      transition key (updateDedup (selects key .inFlight) (toUnknown now)) := by
  rw [markUnknown, encodedTime_ok htime]
  rfl

theorem resolveUnknown_timely {res : DedupResolution} (htime : now ≤ i64Max) :
    resolveUnknown limits key res now = transition key (resolution limits key now res) := by
  rw [resolveUnknown, encodedTime_ok htime]
  change (do let expiresAt ← Op.ofExcept (expiration now limits); _) = _
  rw [expiration_ok]
  cases res with
  | completed => rfl
  | retryAllowed => rfl

theorem completion_runs (db : Database) (own : DedupKey) (state : DedupState) (now : Nat)
    (at_ : Int) : ∃ n db', updateDedup (selects own state) (toCompleted now at_) db = some (n, db') :=
  updateDedup_isSome db (fun _ => rfl) fun _ _ hr => toCompleted_check hr

theorem doubt_runs (db : Database) (own : DedupKey) (now : Nat) :
    ∃ n db', updateDedup (selects own .inFlight) (toUnknown now) db = some (n, db') :=
  updateDedup_isSome db (fun _ => rfl) fun _ _ hr => toUnknown_check hr

/-- **Without storage failures the answer of a transition is decided by the key's state.** -/
theorem call_decided {call : DedupCall} (hx : Exact db)
    (hreq : call.request.requires = some (own, state)) (hfaults : call.faults = [])
    (htime : call.request.time ≤ i64Max) :
    ((call.perform db).1 = .change (.error .notFound) ↔ db.webhookDedup.find own = none) ∧
      ((call.perform db).1 = .change (.ok ()) ↔
        ∃ m row, db.webhookDedup.find own = some (m, row) ∧ row.state = state) := by
  obtain ⟨request, limits, faults⟩ := call
  cases hfaults
  cases request with
  | complete key now =>
    cases hreq
    have ht : now ≤ i64Max := htime
    simp only [DedupCall.perform, complete_timely ht, DedupAnswer.change.injEq]
    exact transition_decided (completion_runs db own .inFlight now _) (keyed_completed _ _ _ _ db)
  | markUnknown key now =>
    cases hreq
    have ht : now ≤ i64Max := htime
    simp only [DedupCall.perform, markUnknown_timely ht, DedupAnswer.change.injEq]
    exact transition_decided (doubt_runs db own now) (keyed_unknown _ _ db)
  | releaseClaim key =>
    cases hreq
    simp only [DedupCall.perform, releaseClaim, DedupAnswer.change.injEq]
    exact transition_decided (deleteDedup_isSome hx _) (keyed_delete own .inFlight db)
  | resolveUnknown key res now =>
    cases hreq
    have ht : now ≤ i64Max := htime
    simp only [DedupCall.perform, resolveUnknown_timely ht, DedupAnswer.change.injEq]
    cases res with
    | completed =>
      exact transition_decided (completion_runs db own .unknown now _)
        (keyed_completed _ _ _ _ db)
    | retryAllowed =>
      exact transition_decided (deleteDedup_isSome hx _) (keyed_delete own .unknown db)
  | claim key policy now => cases hreq
  | recoverInFlight now => cases hreq
  | clearCompletedBefore cutoff => cases hreq

/-! ## Histories -/

/-- The calls of a run with their answers, newest first, and the database they leave. -/
structure History where
  log : List (DedupRequest × DedupAnswer)
  db : Database

def History.step (h : History) (call : DedupCall) : History :=
  ⟨(call.request, (call.perform h.db).1) :: h.log, (call.perform h.db).2⟩

def history (calls : List DedupCall) : History := calls.foldl History.step ⟨[], migrated⟩

/-- The policy under which this call claimed the key, if it did. -/
def claimOf (request : DedupRequest) (answer : DedupAnswer) (key : DedupKey) : Option DedupClaimPolicy :=
  match request, answer with
  | .claim own policy _, .claim (.ok .claimed) => if own = key then some policy else none
  | _, _ => none

/-- The policy of the last claim of a key. -/
def claimedWith : List (DedupRequest × DedupAnswer) → DedupKey → Option DedupClaimPolicy
  | [], _ => none
  | (request, answer) :: earlier, key => (claimOf request answer key).or (claimedWith earlier key)

theorem claimOf_eq_some {answer : DedupAnswer} (h : claimOf request answer key = some policy) :
    ∃ now, request = .claim key policy now ∧ answer = .claim (.ok .claimed) := by
  unfold claimOf at h
  split at h
  · next own policy' now =>
    split at h
    · next hk =>
      cases h
      exact ⟨now, by rw [hk], rfl⟩
    · cases h
  · cases h

theorem claimed_row (h : CallRun limits db (.claim key policy now) (.claim (.ok .claimed)) db') :
    ∃ n, db'.webhookDedup.find key = some (n, claimedRow key policy now (charge key)) := by
  cases h with
  | claim h =>
    cases h with
    | claimed ht hdel hfind husage hroom hins =>
      rw [claim_at hins key, if_pos rfl]
      exact ⟨_, rfl⟩

/-- What every state of a run satisfies: exact counters, and rows under their claim's policy. -/
structure History.Sound (h : History) : Prop where
  exact : Exact h.db
  policy : ∀ key n row, h.db.webhookDedup.find key = some (n, row) →
    ∃ policy, claimedWith h.log key = some policy ∧
      row.automaticExpiry = decide (policy = .expireCompleted)

theorem History.Sound.step {h : History} (hs : h.Sound) (call : DedupCall) : (h.step call).Sound := by
  refine ⟨exact_dedupCall call hs.exact, fun key n row hrow => ?_⟩
  have hrun := perform_run call h.db
  have hmoves := call_moves hrun key
  change (call.perform h.db).2.webhookDedup.find key = some (n, row) at hrow
  change ∃ policy, (claimOf call.request (call.perform h.db).1 key).or (claimedWith h.log key) =
    some policy ∧ _
  cases hclaim : claimOf call.request (call.perform h.db).1 key with
  | some policy =>
    -- this call claimed the key: the row is its own
    obtain ⟨now, hreq, hans⟩ := claimOf_eq_some hclaim
    rw [hreq, hans] at hrun
    obtain ⟨m, hown⟩ := claimed_row hrun
    rw [hown] at hrow
    cases hrow
    exact ⟨policy, rfl, rfl⟩
  | none =>
    rw [hrow] at hmoves
    rcases row_origin hmoves with ⟨old, hold, hauto⟩ | ⟨policy, now, hreq, hans, _⟩
    · obtain ⟨policy, hp, ha⟩ := hs.policy key n old hold
      exact ⟨policy, hp, hauto.trans ha⟩
    · rw [hreq, hans] at hclaim
      simp [claimOf] at hclaim

theorem sound_history (calls : List DedupCall) : (history calls).Sound := by
  have hstart : History.Sound ⟨[], migrated⟩ :=
    ⟨exact_refresh refresh_emptyTables, fun key n row hrow => by cases hrow⟩
  unfold history
  generalize (⟨[], migrated⟩ : History) = h at hstart
  induction calls generalizing h with
  | nil => exact hstart
  | cons call rest ih => exact ih (h.step call) (hstart.step call)

/-- The constraint on `expires_at_ms`, read as an equivalence. -/
theorem expires_iff (h : row.check = true) :
    row.expiresAtMs.isSome = true ↔ row.state = .completed ∧ row.automaticExpiry = true := by
  simp only [DedupRow.check, Bool.and_eq_true, Bool.or_eq_true, decide_eq_true_eq] at h
  rcases h.2 with (⟨h1, h2, h3⟩ | ⟨h1, h2, h3⟩) | ⟨h1, h3⟩
  · simp [h1, h2, h3]
  · simp [h2, h3]
  · rw [Option.isNone_iff_eq_none] at h3
    simp [h1, h3]

theorem policy_iff {calls : List DedupCall} (h : (history calls).db.webhookDedup.find key = some (n, row)) :
    row.automaticExpiry = true ↔ claimedWith (history calls).log key = some .expireCompleted := by
  obtain ⟨policy, hp, ha⟩ := (sound_history calls).policy key n row h
  rw [hp, ha]
  cases policy <;> simp

/-! ## The result -/

/-- **The state machine of a deduplication record**, for every sequence of calls on any keys, with any
    storage failures: the next call moves each key only along the edges of `Move`; a completed record
    leaves only by expiry of an `ExpireCompleted` claim or by clearing; records that are not completed
    survive both; `expires_at` is set exactly on completed records claimed with `ExpireCompleted`; a
    request about one key changes another only by removing expired records; and a refused transition
    changes nothing, answering `NotFound` exactly when the key has no record. -/
theorem dedup_record_machine (calls : List DedupCall) (call : DedupCall) :
    let db := (history calls).db
    let answer := (call.perform db).1
    let db' := (call.perform db).2
    (∀ key, Moves call.limits call.request answer key
      (db.webhookDedup.find key) (db'.webhookDedup.find key)) ∧
    (∀ key n row, db.webhookDedup.find key = some (n, row) → row.state = .completed →
      db'.webhookDedup.find key = some (n, row) ∨
      (∃ own policy, ∃ now : Nat, ∃ at_, call.request = .claim own policy now ∧
        row.expiresAtMs = some at_ ∧ at_ ≤ now ∧
        claimedWith (history calls).log key = some .expireCompleted) ∨
      ∃ cutoff : Nat, call.request = .clearCompletedBefore cutoff ∧ row.updatedAtMs < cutoff) ∧
    (∀ key n row, db.webhookDedup.find key = some (n, row) → row.state ≠ .completed →
      ((∃ own policy now, call.request = .claim own policy now) ∨
        ∃ cutoff, call.request = .clearCompletedBefore cutoff) →
      db'.webhookDedup.find key = some (n, row)) ∧
    (∀ key n row, db.webhookDedup.find key = some (n, row) →
      (row.expiresAtMs.isSome = true ↔ row.state = .completed ∧
        claimedWith (history calls).log key = some .expireCompleted)) ∧
    (∀ own, call.request.names = some own → ∀ key, key ≠ own →
      db'.webhookDedup.find key = db.webhookDedup.find key ∨
      ∃ policy now, call.request = .claim own policy now ∧
        ∃ n row, db.webhookDedup.find key = some (n, row) ∧ expired now row = true ∧
          db'.webhookDedup.find key = none) ∧
    (∀ own state r, call.request.requires = some (own, state) → answer = .change r →
      (∀ e, r = .error e → db' = db) ∧
      (r = .error .notFound → db.webhookDedup.find own = none) ∧
      (call.request.time ≤ i64Max →
        (r = .error .invalidTransition →
          ∃ n row, db.webhookDedup.find own = some (n, row) ∧ row.state ≠ state) ∧
        (call.faults = [] →
          (r = .error .notFound ↔ db.webhookDedup.find own = none) ∧
          (r = .ok () ↔
            ∃ n row, db.webhookDedup.find own = some (n, row) ∧ row.state = state)))) := by
  intro db answer db'
  have hrun : CallRun call.limits db call.request answer db' := perform_run call db
  refine ⟨call_moves hrun, ?_, ?_, ?_, ?_, ?_⟩
  · intro key n row hfind hstate
    have hmoves := call_moves hrun key
    rw [hfind] at hmoves
    rcases completed_leaves hmoves hstate with h | ⟨own, policy, now, hreq, hexp⟩ | h
    · exact .inl h
    · -- an expired record has an expiry time, so it was claimed with `ExpireCompleted`
      obtain ⟨_, at_, hat, hle⟩ := expired_iff.mp hexp
      have hauto := (expires_iff (Table.check_of_find hfind)).mp (by simp [hat])
      exact .inr (.inl ⟨own, policy, now, at_, hreq, hat, hle, (policy_iff hfind).mp hauto.2⟩)
    · exact .inr (.inr h)
  · intro key n row hfind hstate hreq
    have hmoves := call_moves hrun key
    rw [hfind] at hmoves
    exact unfinished_kept hmoves hstate hreq
  · intro key n row hfind
    rw [expires_iff (Table.check_of_find hfind), policy_iff hfind]
  · intro own hown key hne
    exact others_kept (call_moves hrun key) hown hne
  · intro own state r hreq hans
    have href := call_refusal (hans ▸ hrun) hreq
    refine ⟨href.kept, href.absent, fun htime => ⟨href.present htime, fun hfaults => ?_⟩⟩
    have hdec := call_decided (sound_history calls).exact hreq hfaults htime
    change (answer = _ ↔ _) ∧ (answer = _ ↔ _) at hdec
    rw [hans] at hdec
    simpa using hdec

def claimAndComplete : List DedupCall :=
  [⟨.claim sampleKey .expireCompleted 1000, .standard, []⟩,
    ⟨.complete sampleKey 2000, .standard, []⟩]

/-- A later claim than the seven days of the standard retention finds the record expired, and takes
    its place under a new number. -/
theorem dedup_record_machine_expiry : (history claimAndComplete).db.webhookDedup.find sampleKey =
        some (1, toCompleted 2000 604802000 (claimedRow sampleKey .expireCompleted 1000 112)) ∧
      ((DedupCall.perform ⟨.claim sampleKey .retainCompleted 604802000, .standard, []⟩
        (history claimAndComplete).db).2.webhookDedup.find sampleKey).map Prod.fst = some 2 ∧
      claimedWith (history claimAndComplete).log sampleKey = some .expireCompleted := by
  have hfind : (history claimAndComplete).db.webhookDedup.find sampleKey =
      some (1, toCompleted 2000 604802000 (claimedRow sampleKey .expireCompleted 1000 112)) := by
    decide
  have hnext : ((DedupCall.perform ⟨.claim sampleKey .retainCompleted 604802000, .standard, []⟩
      (history claimAndComplete).db).2.webhookDedup.find sampleKey).map Prod.fst = some 2 := by
    decide
  refine ⟨hfind, hnext, ?_⟩
  have hleft := (dedup_record_machine claimAndComplete
    ⟨.claim sampleKey .retainCompleted 604802000, .standard, []⟩).2.1 sampleKey 1 _ hfind rfl
  rcases hleft with hkept | ⟨_, _, _, _, _, _, _, hpolicy⟩ | ⟨_, hreq, _⟩
  · rw [hkept] at hnext
    cases hnext
  · exact hpolicy
  · cases hreq

end Bondry.Store
