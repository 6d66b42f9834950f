/-
  THE ORDER IN WHICH THE PROCESS-LOCAL LOG FORGETS (`bondry-egress-runtime`, `memory_log.rs`).

  A map and a queue have to agree: `terminal_order` is what `insert_intent` evicts by, and an identifier may
  come back after its record has been evicted.  A HISTORY carries the log together with every completion so
  far, oldest first; the crux is that the queue is a suffix of that list (`Agrees.ordered`): completions enter
  at its end, evictions leave at its front, and nothing else touches it.
-/
import Bondry.Lib.Run
import Bondry.Runtime.MemoryLog

namespace Bondry.Runtime

open InMemoryDeliveryLog

/-! ## Operations and their history -/

/-- The calls of a log. -/
inductive LogOperation where
  | insertIntent (intent : DeliveryIntent)
  | recordAttempt (delivery : DeliveryId) (attempts updatedAtUnixMs : Nat)
  | recordOutcome (delivery : DeliveryId) (outcome : DeliveryOutcome) (updatedAtUnixMs : Nat)
      (result : Option DeliveryResultMetadata)
  | delivery (delivery : DeliveryId)
  | recoverUnfinished (updatedAtUnixMs : Nat)

namespace LogOperation

variable (limit : InMemoryDeliveryLogLimit)

def after : LogOperation → MemoryLogState → MemoryLogState
  | .insertIntent intent, s => ((inMemoryDeliveryLog limit).insertIntent intent s).2
  | .recordAttempt d attempts now, s => ((inMemoryDeliveryLog limit).recordAttempt d attempts now s).2
  | .recordOutcome d outcome now result, s =>
    ((inMemoryDeliveryLog limit).recordOutcome d outcome now result s).2
  | .delivery d, s => ((inMemoryDeliveryLog limit).delivery d s).2
  | .recoverUnfinished now, s => ((inMemoryDeliveryLog limit).recoverUnfinished now s).2

/-- What an operation makes terminal. -/
def completes : LogOperation → MemoryLogState → List DeliveryId
  | .recordOutcome d outcome now result, s =>
    match (InMemoryDeliveryLog.recordOutcome d outcome now result s).1 with
    | .ok () => [d]
    | .error _ => []
  | _, _ => []

end LogOperation

/-- The log, and everything that became terminal in it so far, oldest first. -/
structure LogHistory where
  state : MemoryLogState
  completed : List DeliveryId

namespace LogHistory

def start : LogHistory := ⟨empty, []⟩

def step (limit : InMemoryDeliveryLogLimit) (history : LogHistory) (operation : LogOperation) : LogHistory :=
  ⟨operation.after limit history.state, history.completed ++ operation.completes history.state⟩

end LogHistory

namespace InMemoryDeliveryLog

def Terminal (records : BTreeMap DeliveryId DeliveryRecord) (d : DeliveryId) : Prop :=
  ∃ record, records[d]? = some record ∧ record.state.isTerminal = true

def AllPending (records : BTreeMap DeliveryId DeliveryRecord) : Prop :=
  ∀ (d : DeliveryId) (record : DeliveryRecord), records[d]? = some record → record.state = .pending

/-- The operation drops the record of the delivery. -/
def Evicts (limit : InMemoryDeliveryLogLimit) (operation : LogOperation) (s : MemoryLogState)
    (d : DeliveryId) : Prop :=
  s.records[d]?.isSome = true ∧ (operation.after limit s).records[d]? = none

/-! ## Terminal records -/

section

variable {records : BTreeMap DeliveryId DeliveryRecord}

theorem terminal_insert (d : DeliveryId) (record : DeliveryRecord) (a : DeliveryId) :
    Terminal (records.insert d record) a ↔
      if d = a then record.state.isTerminal = true else Terminal records a := by
  unfold Terminal
  rw [BTreeMap.find_insert]
  split_ifs
  · simp
  · rfl

variable {d : DeliveryId}

theorem terminal_insert_live {record : DeliveryRecord} (hbefore : ¬ Terminal records d)
    (hlive : record.state.isTerminal = false) (a : DeliveryId) :
    Terminal (records.insert d record) a ↔ Terminal records a := by
  rw [terminal_insert]
  split_ifs with heq
  · subst heq
    simp [hlive, hbefore]
  · rfl

theorem not_terminal_of_none (h : records[d]? = none) : ¬ Terminal records d := by
  rintro ⟨record, hrecord, -⟩
  rw [h] at hrecord
  cases hrecord

theorem not_terminal_of_live {record : DeliveryRecord} (h : records[d]? = some record)
    (hlive : record.state.isTerminal = false) : ¬ Terminal records d := by
  rintro ⟨other, hother, hterminal⟩
  rw [h] at hother
  cases hother
  rw [hlive] at hterminal
  cases hterminal

theorem terminal_erase (d a : DeliveryId) :
    Terminal (records.erase d) a ↔ if d = a then False else Terminal records a := by
  unfold Terminal
  rw [BTreeMap.find_erase]
  split_ifs
  · simp
  · rfl

theorem size_insert_fresh (record : DeliveryRecord) (h : records[d]? = none) :
    (records.insert d record).size = records.size + 1 := by
  rw [BTreeMap.size_eq_sumOf, BTreeMap.sumOf_insert_fresh _ _ h, ← BTreeMap.size_eq_sumOf]

theorem size_insert_replace {old : DeliveryRecord} (record : DeliveryRecord)
    (h : records[d]? = some old) : (records.insert d record).size = records.size := by
  have hsum := BTreeMap.sumOf_insert_replace (fun _ _ => 1) record h
  rw [BTreeMap.size_eq_sumOf, BTreeMap.size_eq_sumOf]
  omega

theorem size_erase {old : DeliveryRecord} (h : records[d]? = some old) :
    (records.erase d).size + 1 = records.size := by
  have hsum := BTreeMap.sumOf_erase (fun _ _ => 1) h
  rw [BTreeMap.size_eq_sumOf, BTreeMap.size_eq_sumOf]
  exact hsum

end

/-! ## The map and the queue -/

/-- The map and the queue agree, and the queue is the latest part of the completions. -/
structure Agrees (limit : Nat) (completed : List DeliveryId) (s : MemoryLogState) : Prop where
  terminal : ∀ d, d ∈ s.terminalOrder ↔ Terminal s.records d
  nodup : s.terminalOrder.Nodup
  ordered : s.terminalOrder <:+ completed
  bounded : s.records.size ≤ limit

theorem agrees_empty (limit : Nat) : Agrees limit [] empty where
  terminal := by
    intro d
    simp [empty, Terminal]
  nodup := List.nodup_nil
  ordered := List.suffix_rfl
  bounded := Nat.zero_le limit

/-- Where no record changes whether it is terminal, the queue stays as it is. -/
theorem Agrees.same_order {limit : Nat} {completed : List DeliveryId} {s : MemoryLogState}
    {records : BTreeMap DeliveryId DeliveryRecord} (h : Agrees limit completed s)
    (hterminal : ∀ d, Terminal records d ↔ Terminal s.records d) (hsize : records.size ≤ limit) :
    Agrees limit completed ⟨records, s.terminalOrder⟩ :=
  ⟨fun d => (h.terminal d).trans (hterminal d).symm, h.nodup, h.ordered, hsize⟩

section

variable {limit : Nat} {completed : List DeliveryId} {s : MemoryLogState}

theorem Agrees.evict {oldest : DeliveryId} {rest : List DeliveryId} (h : Agrees limit completed s)
    (horder : s.terminalOrder = oldest :: rest) : Agrees limit completed ⟨s.records.erase oldest, rest⟩ := by
  have hnodup := h.nodup
  rw [horder, List.nodup_cons] at hnodup
  obtain ⟨record, hrecord, -⟩ := (h.terminal oldest).mp (horder ▸ List.mem_cons_self ..)
  refine ⟨fun d => ?_, hnodup.2, ?_, ?_⟩
  · by_cases hd : oldest = d
    · subst hd
      simp [terminal_erase, hnodup.1]
    · have hterminal := h.terminal d
      rw [horder, List.mem_cons, or_iff_right (Ne.symm hd)] at hterminal
      rw [hterminal, terminal_erase, if_neg hd]
  · exact (List.suffix_cons oldest rest).trans (horder ▸ h.ordered)
  · have hsize := size_erase hrecord
    have := h.bounded
    show (s.records.erase oldest).size ≤ limit
    omega

/-- **Making room**: a log that is not full is left alone; a full one loses its oldest terminal record, and is
    left alone if it has none. -/
theorem Agrees.reclaim_eq (h : Agrees limit completed s) :
    reclaim limit s.terminalOrder s.records =
      if s.records.size < limit then (true, s)
      else match s.terminalOrder with
        | [] => (false, s)
        | oldest :: rest => (true, ⟨s.records.erase oldest, rest⟩) := by
  by_cases hroom : s.records.size < limit
  · rcases horder : s.terminalOrder with _ | ⟨oldest, rest⟩
    · simp [reclaim, hroom, ← horder]
    · simp [reclaim, hroom, ← horder]
  rw [if_neg hroom]
  rcases horder : s.terminalOrder with _ | ⟨oldest, rest⟩
  · simp [reclaim, hroom, ← horder]
  -- the head of the queue is terminal, so one round of the loop makes room
  obtain ⟨record, hrecord, hterminal⟩ := (h.terminal oldest).mp (horder ▸ List.mem_cons_self ..)
  have hone : reclaimOne s.records oldest = s.records.erase oldest := by
    rw [reclaimOne, hrecord]
    exact if_pos hterminal
  have hsize : (s.records.erase oldest).size < limit := by
    have := size_erase hrecord
    have := h.bounded
    omega
  rw [reclaim, if_neg hroom, hone]
  rcases rest with _ | ⟨next, rest⟩
  · simp [reclaim, hsize]
  · simp [reclaim, hsize]

end

/-! ## What an operation can do -/

/-- Everything an operation can do to a log that agrees: to its state, and to the completions. -/
inductive Change (limit : Nat) (s : MemoryLogState) (operation : LogOperation) :
    MemoryLogState → List DeliveryId → Prop where
  | kept : Change limit s operation s []
  | inserted (intent : DeliveryIntent) : operation = .insertIntent intent →
      s.records[intent.delivery]? = none → s.records.size < limit →
      Change limit s operation ⟨s.records.insert intent.delivery intent.record, s.terminalOrder⟩ []
  | evicted (intent : DeliveryIntent) (oldest : DeliveryId) (rest : List DeliveryId) :
      operation = .insertIntent intent → s.records[intent.delivery]? = none → limit ≤ s.records.size →
      s.terminalOrder = oldest :: rest →
      Change limit s operation ⟨(s.records.erase oldest).insert intent.delivery intent.record, rest⟩ []
  | attempted (d : DeliveryId) (record updated : DeliveryRecord) : s.records[d]? = some record →
      record.state.isTerminal = false → updated.state.isTerminal = false →
      Change limit s operation ⟨s.records.insert d updated, s.terminalOrder⟩ []
  | completed (d : DeliveryId) (record updated : DeliveryRecord) : s.records[d]? = some record →
      record.state.isTerminal = false → updated.state.isTerminal = true →
      Change limit s operation ⟨s.records.insert d updated, s.terminalOrder ++ [d]⟩ [d]

section

variable {limit : InMemoryDeliveryLogLimit} {completed : List DeliveryId} {s : MemoryLogState}

/-- `insert_intent` on a log that agrees. -/
theorem Agrees.insertIntent_eq (h : Agrees limit.value completed s) (intent : DeliveryIntent) :
    insertIntent limit intent s =
      if s.records[intent.delivery]?.isSome then (.error .conflict, s)
      else if s.records.size < limit.value then
        (.ok (), ⟨s.records.insert intent.delivery intent.record, s.terminalOrder⟩)
      else match s.terminalOrder with
        | [] => (.error .capacityExhausted, s)
        | oldest :: rest =>
          (.ok (), ⟨(s.records.erase oldest).insert intent.delivery intent.record, rest⟩) := by
  rw [insertIntent, h.reclaim_eq]
  by_cases hroom : s.records.size < limit.value
  · simp [hroom]
  · rcases horder : s.terminalOrder with _ | ⟨oldest, rest⟩
    · simp [hroom]
    · simp [hroom]

theorem Agrees.change (h : Agrees limit.value completed s) (operation : LogOperation) :
    Change limit.value s operation (operation.after limit s) (operation.completes s) := by
  cases operation with
  | insertIntent intent =>
    show Change limit.value s _ (insertIntent limit intent s).2 []
    rw [h.insertIntent_eq]
    split_ifs with hknown hroom
    · exact .kept
    · exact .inserted intent rfl (by simpa using hknown) hroom
    · rcases horder : s.terminalOrder with _ | ⟨oldest, rest⟩
      · exact .kept
      · exact .evicted intent oldest rest rfl (by simpa using hknown) (Nat.le_of_not_lt hroom) horder
  | recordAttempt d attempts now =>
    show Change limit.value s _ (recordAttempt d attempts now s).2 []
    rw [recordAttempt]
    rcases hrecord : s.records[d]? with _ | record
    · exact .kept
    · dsimp only
      split_ifs with hguard
      · exact .kept
      · exact .attempted d record _ hrecord (by simpa using (not_or.mp hguard).1) rfl
  | recordOutcome d outcome now result =>
    show Change limit.value s _ (recordOutcome d outcome now result s).2
      (match (recordOutcome d outcome now result s).1 with | .ok () => [d] | .error _ => [])
    rw [recordOutcome]
    rcases hrecord : s.records[d]? with _ | record
    · exact .kept
    · dsimp only
      split_ifs with hguard
      · exact .kept
      · exact .completed d record _ hrecord (by simpa using (not_or.mp hguard).1) rfl
  | delivery d => exact .kept
  | recoverUnfinished now => exact .kept

theorem intent_live (intent : DeliveryIntent) : intent.record.state.isTerminal = false := rfl

/-- **The map and the queue agree after every operation.** -/
theorem Agrees.step (h : Agrees limit.value completed s) (operation : LogOperation) :
    Agrees limit.value (completed ++ operation.completes s) (operation.after limit s) := by
  have hchange := h.change operation
  revert hchange
  generalize operation.after limit s = after_
  generalize operation.completes s = done
  rintro hchange
  cases hchange with
  | kept => simpa using h
  | inserted intent _ hfresh hroom =>
    rw [List.append_nil]
    refine h.same_order (terminal_insert_live (not_terminal_of_none hfresh) (intent_live intent)) ?_
    rw [size_insert_fresh _ hfresh]
    exact hroom
  | evicted intent oldest rest _ hfresh hfull horder =>
    rw [List.append_nil]
    have hevict := h.evict horder
    obtain ⟨record, hrecord, -⟩ := (h.terminal oldest).mp (horder ▸ List.mem_cons_self ..)
    have hfresh' : (s.records.erase oldest)[intent.delivery]? = none := by
      rw [BTreeMap.find_erase]
      split_ifs
      · rfl
      · exact hfresh
    refine hevict.same_order (terminal_insert_live (not_terminal_of_none hfresh') (intent_live intent)) ?_
    have hsize := size_erase hrecord
    have hbound := h.bounded
    rw [size_insert_fresh _ hfresh']
    omega
  | attempted d record updated hrecord hbefore hlive =>
    rw [List.append_nil]
    refine h.same_order (terminal_insert_live (not_terminal_of_live hrecord hbefore) hlive) ?_
    rw [size_insert_replace _ hrecord]
    exact h.bounded
  | completed d record updated hrecord hbefore hterminal =>
    have hnew : d ∉ s.terminalOrder := fun hmem =>
      not_terminal_of_live hrecord hbefore ((h.terminal d).mp hmem)
    refine ⟨fun a => ?_, ?_, ?_, ?_⟩
    · rw [terminal_insert, List.mem_append, List.mem_singleton, h.terminal a]
      split_ifs with heq
      · simp [heq, hterminal]
      · simp [Ne.symm heq, Terminal]
    · exact List.nodup_append.mpr ⟨h.nodup, List.nodup_singleton d, by
        rintro a ha b hb rfl
        exact hnew (List.mem_singleton.mp hb ▸ ha)⟩
    · obtain ⟨before, hbefore⟩ := h.ordered
      exact ⟨before, by rw [← hbefore, List.append_assoc]⟩
    · show (s.records.insert d updated).size ≤ limit.value
      rw [size_insert_replace _ hrecord]
      exact h.bounded

theorem Agrees.completes_iff (h : Agrees limit.value completed s) (operation : LogOperation)
    (d : DeliveryId) :
    d ∈ operation.completes s ↔ ¬ Terminal s.records d ∧ Terminal (operation.after limit s).records d := by
  have hchange := h.change operation
  revert hchange
  generalize operation.after limit s = after_
  generalize operation.completes s = done
  rintro hchange
  cases hchange with
  | kept => simp
  | inserted intent _ hfresh _ =>
    rw [terminal_insert_live (not_terminal_of_none hfresh) (intent_live intent)]
    simp
  | evicted intent oldest rest _ hfresh _ horder =>
    rw [terminal_insert]
    split_ifs with heq
    · simp [intent_live]
    · -- what is terminal behind the eviction was terminal before
      rw [terminal_erase]
      split_ifs
      · simp
      · simp
  | attempted a record updated hrecord hbefore hlive =>
    rw [terminal_insert_live (not_terminal_of_live hrecord hbefore) hlive]
    simp
  | completed a record updated hrecord hbefore hterminal =>
    rw [terminal_insert, List.mem_singleton]
    split_ifs with heq
    · subst heq
      simp [hterminal, not_terminal_of_live hrecord hbefore]
    · simp [Ne.symm heq]

theorem Agrees.evicts (h : Agrees limit.value completed s) {operation : LogOperation} {d : DeliveryId}
    (hevicts : Evicts limit operation s d) :
    (∃ intent, operation = .insertIntent intent) ∧ s.records.size = limit.value ∧
      s.terminalOrder.head? = some d := by
  obtain ⟨hthere, hgone⟩ := hevicts
  have hchange := h.change operation
  revert hgone hchange
  generalize operation.after limit s = after_
  generalize operation.completes s = done
  intro hgone hchange
  -- nothing leaves a map by being put into it
  have hinsert : ∀ (key : DeliveryId) (record : DeliveryRecord),
      (s.records.insert key record)[d]? ≠ none := by
    intro key record hnone
    rw [BTreeMap.find_insert] at hnone
    split_ifs at hnone
    rw [hnone] at hthere
    cases hthere
  cases hchange with
  | kept =>
    rw [hgone] at hthere
    cases hthere
  | inserted intent _ _ _ => exact absurd hgone (hinsert _ _)
  | evicted intent oldest rest hoperation hfresh hfull horder =>
    refine ⟨⟨intent, hoperation⟩, Nat.le_antisymm h.bounded hfull, ?_⟩
    rw [horder, List.head?_cons]
    rw [BTreeMap.find_insert] at hgone
    split_ifs at hgone
    rw [BTreeMap.find_erase] at hgone
    split_ifs at hgone with heq
    · rw [heq]
    · rw [hgone] at hthere
      cases hthere
  | attempted a record updated _ _ _ => exact absurd hgone (hinsert _ _)
  | completed a record updated _ _ _ => exact absurd hgone (hinsert _ _)

/-- **When there is no room**: the identifier is new, the log is full, and all of it is pending. -/
theorem Agrees.exhausted_iff (h : Agrees limit.value completed s) (intent : DeliveryIntent) :
    (insertIntent limit intent s).1 = .error .capacityExhausted ↔
      s.records[intent.delivery]? = none ∧ s.records.size = limit.value ∧ AllPending s.records := by
  have hpending : s.terminalOrder = [] ↔ AllPending s.records := by
    rw [List.eq_nil_iff_forall_not_mem]
    refine forall_congr' fun d => ?_
    rw [h.terminal d]
    constructor
    · intro hnot record hrecord
      rcases hstate : record.state with _ | outcome
      · rfl
      · exact absurd ⟨record, hrecord, by rw [hstate]; rfl⟩ hnot
    · rintro hall ⟨record, hrecord, hterminal⟩
      rw [hall record hrecord] at hterminal
      cases hterminal
  have hbound := h.bounded
  rw [h.insertIntent_eq, ← hpending]
  split_ifs with hknown hroom
  · simp [Option.isSome_iff_ne_none.mp hknown]
  · simp only [false_iff, not_and]
    intro _ hfull
    omega
  · rcases horder : s.terminalOrder with _ | ⟨oldest, rest⟩
    · simp only [true_iff, and_true]
      exact ⟨by simpa using hknown, by omega⟩
    · simp

theorem Agrees.exhausted_keeps (h : Agrees limit.value completed s) {intent : DeliveryIntent}
    (hexhausted : (insertIntent limit intent s).1 = .error .capacityExhausted) :
    (insertIntent limit intent s).2 = s := by
  revert hexhausted
  rw [h.insertIntent_eq]
  split_ifs
  · exact fun _ => rfl
  · exact nofun
  · rcases s.terminalOrder with _ | ⟨oldest, rest⟩
    · exact fun _ => rfl
    · exact nofun

end

theorem agrees_run (limit : InMemoryDeliveryLogLimit) (operations : List LogOperation) :
    Agrees limit.value (run (LogHistory.step limit) .start operations).completed
      (run (LogHistory.step limit) .start operations).state := by
  have hall : All (LogHistory.step limit) (fun _ _ => True) .start operations := .always fun _ _ => trivial
  exact All.run (fun history : LogHistory => Agrees limit.value history.completed history.state)
    (fun history operation h _ => h.step operation) (agrees_empty limit.value) hall

/-- THE MAP AND THE QUEUE OF THE LOG, after any operations with any identifiers: the queue lists the terminal
    records, each once, in the order they became terminal; the log is bounded; what an operation drops is the
    record that became terminal first, for an intent that finds the log full; and an intent is refused for want
    of room exactly when all of a full log is pending, which changes nothing. -/
theorem terminal_order_represents (limit : InMemoryDeliveryLogLimit) (operations : List LogOperation) :
    let history := run (LogHistory.step limit) .start operations
    let s := history.state
    (∀ d, d ∈ s.terminalOrder ↔ Terminal s.records d) ∧ s.terminalOrder.Nodup ∧
    s.terminalOrder <:+ history.completed ∧
    (∀ operation d, d ∈ LogOperation.completes operation s ↔
      ¬ Terminal s.records d ∧ Terminal (operation.after limit s).records d) ∧
    s.records.size ≤ limit.value ∧
    (∀ operation d, Evicts limit operation s d →
      (∃ intent, operation = .insertIntent intent) ∧ s.records.size = limit.value ∧
        s.terminalOrder.head? = some d ∧ Terminal s.records d) ∧
    (∀ intent, (insertIntent limit intent s).1 = .error .capacityExhausted ↔
      s.records[intent.delivery]? = none ∧ s.records.size = limit.value ∧ AllPending s.records) ∧
    (∀ intent, (insertIntent limit intent s).1 = .error .capacityExhausted →
      (insertIntent limit intent s).2 = s) := by
  intro history s
  have h : Agrees limit.value history.completed s := agrees_run limit operations
  refine ⟨h.terminal, h.nodup, h.ordered, h.completes_iff, h.bounded, ?_, h.exhausted_iff,
    fun intent => h.exhausted_keeps⟩
  intro operation d hevicts
  obtain ⟨hintent, hfull, hfirst⟩ := h.evicts hevicts
  exact ⟨hintent, hfull, hfirst, (h.terminal d).mp (List.mem_of_head? hfirst)⟩

end InMemoryDeliveryLog

end Bondry.Runtime
