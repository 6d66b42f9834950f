/-
  THE SQLCIPHER LOG AS A DELIVERY LOG.

  `Store/Delivery.lean` has the operations, one statement after the other; here they are put behind the
  interface of a `DeliveryLog`, and its table is read off the rows.

  The CHECK constraints make the decoding (`recordOf`) exact where it matters: a pending row decodes, and
  what the log itself writes decodes to what it was told.
-/
import Bondry.Egress.IdealLog
import Bondry.Store.Usage

namespace Bondry.Store

open Sql Egress

/-! ## The log -/

/-- The file of a log object: what is committed, and which calls to SQLite fail in each of the coming
    operations. -/
structure SqlCipherLog where
  db : Database
  faults : List (List Bool)

/-- One call; the next one meets the next failures. -/
def SqlCipherLog.call {α : Type} (op : DeliveryM α) (s : SqlCipherLog) :
    Except DeliveryLogError α × SqlCipherLog :=
  let done := op.run (s.faults.headD []) s.db
  (done.1, ⟨done.2, s.faults.tail⟩)

/-- The SQL store as a log. -/
def sqlCipherDeliveryLog (limits : PersistentDeliveryLogLimits) : DeliveryLog SqlCipherLog where
  durability := .persistent
  insertIntent := fun intent => SqlCipherLog.call (insertIntent limits intent)
  recordAttempt := fun d attempts now => SqlCipherLog.call (recordAttempt d attempts now)
  recordOutcome := fun d outcome now result => SqlCipherLog.call (recordOutcome d outcome now result)
  delivery := fun d => SqlCipherLog.call (delivery d)
  recoverUnfinished := fun now => SqlCipherLog.call (recoverUnfinished now)

/-! ## What the columns say -/

/-- The record of a row.  A terminal row whose texts do not decode counts as ended. -/
def recordOf (row : DeliveryRow) : DeliveryRecord where
  intent := ⟨row.route, row.delivery, row.acceptedAtMs.toNat⟩
  attempts := row.attempts.toNat
  state := (decodeState row.state row.failureKind).toOption.getD (.terminal .unknownAfterCrash)
  updatedAtUnixMs := row.updatedAtMs.toNat
  result := (decodeResult row.resultCategory row.resultBytes).toOption.getD none

/-- The row is read back as its record. -/
def Decodes (row : DeliveryRow) : Prop := validateRow row = .ok (recordOf row)

variable {row : DeliveryRow}

theorem check_bounds (h : row.check = true) :
    0 ≤ row.acceptedAtMs ∧ (0 ≤ row.attempts ∧ row.attempts ≤ 65535) ∧ 0 ≤ row.updatedAtMs ∧
      row.chargedBytes = 512 := by
  simp only [DeliveryRow.check, Bool.and_eq_true, decide_eq_true_eq] at h
  obtain ⟨⟨⟨⟨⟨haccepted, hattempts⟩, hupdated⟩, hcharged⟩, -⟩, -⟩ := h
  exact ⟨haccepted, hattempts, hupdated, hcharged⟩

theorem decodes_of (h : row.check = true) {state : DeliveryState} {result : Option DeliveryResultMetadata}
    (hstate : decodeState row.state row.failureKind = .ok state)
    (hresult : decodeResult row.resultCategory row.resultBytes = .ok result) : Decodes row := by
  obtain ⟨haccepted, hattempts, hupdated, -⟩ := check_bounds h
  simp only [Decodes, validateRow, recordOf, haccepted, hattempts, hupdated, hstate, hresult, and_self,
    if_true]
  rfl

theorem pending_columns (h : row.check = true) (hpending : row.state = .pending) :
    row.failureKind = none ∧ row.resultCategory = none ∧ row.resultBytes = none := by
  simp only [DeliveryRow.check, hpending, Bool.and_eq_true, Bool.or_eq_true, decide_eq_true_eq] at h
  obtain ⟨⟨-, hfailure⟩, hresult⟩ := h
  simp only [reduceCtorEq, false_and, ne_eq, not_false_eq_true, true_and, false_or,
    Option.isNone_iff_eq_none] at hfailure
  simp only [ne_eq, not_true_eq_false, false_and, or_false, Option.isNone_iff_eq_none] at hresult
  exact ⟨hfailure, hresult⟩

theorem recordOf_pending (h : row.check = true) :
    (recordOf row).state.isTerminal = false ↔ row.state = .pending := by
  constructor
  · intro hlive
    cases hstate : row.state with
    | pending => rfl
    | delivered | failed | lostOnShutdown | unknownAfterCrash =>
      exfalso
      unfold recordOf at hlive
      cases hfailure : row.failureKind with
      | none => simp [hstate, hfailure, decodeState, Except.toOption, DeliveryState.isTerminal] at hlive
      | some failure =>
        cases hdecoded : decodeFailure failure <;>
          simp [hstate, hfailure, hdecoded, decodeState, Except.map, Except.toOption,
            DeliveryState.isTerminal] at hlive
  · intro hpending
    simp [recordOf, hpending, (pending_columns h hpending).1, decodeState, Except.toOption,
      DeliveryState.isTerminal]

theorem recordOf_state (h : row.check = true) (hpending : row.state = .pending) :
    (recordOf row).state = .pending := by
  have hlive := (recordOf_pending h).mpr hpending
  cases hstate : (recordOf row).state with
  | pending => rfl
  | terminal outcome => simp [hstate, DeliveryState.isTerminal] at hlive

/-! ## What the log writes decodes -/

theorem decodeFailure_encode (failure : DeliveryFailure) :
    decodeFailure (encodeFailure failure) = .ok failure := by
  cases failure <;> rfl

theorem decodeState_encode (outcome : DeliveryOutcome) :
    decodeState (encodeOutcome outcome).1 (encodeOutcome outcome).2 = .ok (.terminal outcome) := by
  cases outcome with
  | failed failure =>
    simp only [encodeOutcome, decodeState, decodeFailure_encode]
    rfl
  | delivered | lostOnShutdown | unknownAfterCrash => rfl

theorem decodeResult_encode (result : Option DeliveryResultMetadata) :
    decodeResult (encodeResult result).1 (encodeResult result).2 = .ok result := by
  cases result with
  | none => rfl
  | some metadata =>
    obtain ⟨category, bytes⟩ := metadata
    have hcategory : decodeCategory (encodeCategory category) = .ok category := by
      cases category <;> rfl
    have hlt := bytes.toNat_lt
    have hbytes : (0 : Int) ≤ bytes.toNat ∧ (bytes.toNat : Int) ≤ 2 ^ 32 - 1 := by omega
    simp only [encodeResult, decodeResult, hcategory, bind, Except.bind, if_pos hbytes, Int.toNat_natCast,
      UInt32.ofNat_toNat]

theorem recordOf_intentRow (intent : DeliveryIntent) : recordOf (intentRow intent) = intent.record := by
  simp [recordOf, intentRow, DeliveryIntent.record, decodeState, decodeResult, Except.toOption]

theorem intentRow_decodes (intent : DeliveryIntent) : Decodes (intentRow intent) :=
  decodes_of (intentRow_check intent) rfl rfl

theorem setOutcome_check (h : row.check = true) (outcome : DeliveryOutcome) (now : Nat)
    (result : Option DeliveryResultMetadata) : (setOutcome outcome now result row).check = true := by
  obtain ⟨haccepted, hattempts, -, hcharged⟩ := check_bounds h
  cases outcome <;> cases result <;>
    simp [DeliveryRow.check, setOutcome, encodeOutcome, encodeResult, haccepted, hcharged, hattempts]

theorem setOutcome_decodes (h : row.check = true) (outcome : DeliveryOutcome) (now : Nat)
    (result : Option DeliveryResultMetadata) : Decodes (setOutcome outcome now result row) :=
  decodes_of (setOutcome_check h outcome now result) (decodeState_encode outcome)
    (decodeResult_encode result)

theorem recordOf_setOutcome (row : DeliveryRow) (outcome : DeliveryOutcome) (now : Nat)
    (result : Option DeliveryResultMetadata) :
    recordOf (setOutcome outcome now result row) = concluded (recordOf row) outcome now result := by
  simp [recordOf, setOutcome, concluded, decodeState_encode, decodeResult_encode, Except.toOption]

section

variable {row : DeliveryRow} (h : row.check = true) (hpending : row.state = .pending)

include h hpending

theorem setAttempts_check {attempts now : Nat} (hattempts : attempts ≤ 65535) :
    (setAttempts attempts now row).check = true := by
  obtain ⟨hfailure, hcategory, hbytes⟩ := pending_columns h hpending
  obtain ⟨haccepted, -, -, hcharged⟩ := check_bounds h
  have hcount : (0 : Int) ≤ attempts ∧ (attempts : Int) ≤ 65535 := by omega
  simp [DeliveryRow.check, setAttempts, hpending, hfailure, hcategory, hbytes, haccepted, hcharged, hcount]

theorem setAttempts_decodes {attempts now : Nat} (hattempts : attempts ≤ 65535) :
    Decodes (setAttempts attempts now row) := by
  obtain ⟨hfailure, hcategory, hbytes⟩ := pending_columns h hpending
  have hstate : decodeState (setAttempts attempts now row).state
      (setAttempts attempts now row).failureKind = .ok .pending := by
    simp [setAttempts, hpending, hfailure, decodeState]
  have hresult : decodeResult (setAttempts attempts now row).resultCategory
      (setAttempts attempts now row).resultBytes = .ok none := by
    simp [setAttempts, hcategory, hbytes, decodeResult]
  exact decodes_of (setAttempts_check h hpending hattempts) hstate hresult

theorem recordOf_setAttempts (attempts now : Nat) :
    recordOf (setAttempts attempts now row) = attempted (recordOf row) attempts now := by
  obtain ⟨hfailure, hcategory, hbytes⟩ := pending_columns h hpending
  simp [recordOf, setAttempts, attempted, hpending, hfailure, hcategory, hbytes, decodeState, decodeResult,
    Except.toOption]

end

/-! ## The table of the log -/

/-- The records of the table. -/
def tableOf (db : Database) : Records := fun d => (db.deliveryLog.find d).map fun e => recordOf e.2

variable {db : Database} {d : DeliveryId}

theorem tableOf_find {e : Nat × DeliveryRow} (h : db.deliveryLog.find d = some e) :
    tableOf db d = some (recordOf e.2) := by
  rw [tableOf, h, Option.map_some]

theorem tableOf_free (h : db.deliveryLog.find d = none) : tableOf db d = none := by
  rw [tableOf, h, Option.map_none]

variable {p : DeliveryRow → Bool} {f : DeliveryRow → DeliveryRow}

theorem update_one {db' : Database} (hp : ∀ row, p row = true → row.delivery = d)
    (hf : ∀ row, (f row).delivery = row.delivery) (h : updateDelivery p f db = some (1, db')) :
    ∃ n row, db.deliveryLog.find d = some (n, row) ∧ p row = true ∧ row.check = true ∧
      tableOf db' = Function.update (tableOf db) d (some (recordOf (f row))) := by
  obtain ⟨hone, hlog, -, -⟩ := updateDelivery_eq h
  rw [Table.matched_of_key hp] at hone
  cases hfound : (db.deliveryLog.find d).filter fun e => p e.2 with
  | none => simp [hfound] at hone
  | some e =>
    obtain ⟨hfind, hpe⟩ := Option.filter_eq_some_iff.mp hfound
    refine ⟨e.1, e.2, hfind, hpe, Table.check_of_find hfind, ?_⟩
    funext d'
    have hmoved := Table.find_update hlog (fun row _ => hf row) d'
    unfold tableOf
    rw [hmoved, Option.map_map]
    by_cases hd : d' = d
    · subst hd
      rw [Function.update_self, hfind]
      simp [Table.amend, hpe]
    · rw [Function.update_of_ne hd]
      cases hother : db.deliveryLog.find d' with
      | none => rfl
      | some e' =>
        have hkey : e'.2.delivery = d' := Table.key_of_find hother
        have hno : ¬ p e'.2 = true := fun hpe' => hd (hkey ▸ (hp _ hpe'))
        simp [Table.amend, hno]

theorem attemptable_iff {attempts : Int} : attemptable d attempts row = true ↔
      row.delivery = d ∧ row.state = .pending ∧ row.attempts < attempts := by
  simp only [attemptable, Bool.and_eq_true, decide_eq_true_eq, and_assoc]

theorem concludable_iff : concludable d row = true ↔ row.delivery = d ∧ row.state = .pending := by
  simp only [concludable, Bool.and_eq_true, decide_eq_true_eq]

variable {attempts : Nat}

theorem recordOf_attempts_lt (h : row.check = true) :
    (recordOf row).attempts < attempts ↔ row.attempts < attempts := by
  obtain ⟨-, ⟨hpos, -⟩, -, -⟩ := check_bounds h
  simp only [recordOf]
  omega

/-! ## Without failures and limits -/

/-- The log as long as nothing fails: exact counters, and rows that decode. -/
structure SqlCipherLog.Sound (s : SqlCipherLog) : Prop where
  faultless : s.faults = []
  exact : Exact s.db
  decodes : ∀ e ∈ s.db.deliveryLog.rows, Decodes e.2

/-- The request meets no limit: it retires no record, and a new one has room and a number. -/
def SqlCipherLog.Free (limits : PersistentDeliveryLogLimits) (s : SqlCipherLog) : LogRequest → Prop
  | .insertIntent intent =>
    (∀ e ∈ s.db.deliveryLog.rows,
      retired (cutoffAt limits intent.acceptedAtUnixMs) e.2 = false) ∧
    (s.db.deliveryLog.find intent.delivery = none →
      exhausted limits.records limits.bytes (aggregate s.db .deliveryLog).1
        (aggregate s.db .deliveryLog).2 persistentDeliveryRecordChargeBytes = false ∧
      s.db.deliveryLog.last < maxRowid)
  | .recordAttempt _ _ _ | .recordOutcome _ _ _ _ | .delivery _ => True

theorem deleteDelivery_none (h : ∀ e ∈ db.deliveryLog.rows, p e.2 = false) :
    deleteDelivery p db = some (0, db) := by
  have hmatched : db.deliveryLog.matched p = [] :=
    List.filter_eq_nil_iff.mpr fun e he => by simp [h e he]
  have hrows : db.deliveryLog.delete p = db.deliveryLog :=
    Table.ext (List.filter_eq_self.mpr fun e he => by simp [h e he]) rfl
  simp only [deleteDelivery, hmatched, hrows]
  rfl

variable {limits : PersistentDeliveryLogLimits}

theorem insertOrIgnoreDelivery_isSome {intent : DeliveryIntent} (hx : Exact db)
    (hfind : db.deliveryLog.find intent.delivery = none)
    (hroom : exhausted limits.records limits.bytes (aggregate db .deliveryLog).1
      (aggregate db .deliveryLog).2 persistentDeliveryRecordChargeBytes = false)
    (hlast : db.deliveryLog.last < maxRowid) :
    ∃ db', insertOrIgnoreDelivery (intentRow intent) db = some (1, db') := by
  have hgoes : (db.deliveryLog.insert (intentRow intent)).isSome :=
    Table.insert_isSome (intentRow_check intent) hfind hlast
  obtain ⟨rows, hrows⟩ := Option.isSome_iff_exists.mp hgoes
  obtain ⟨row, hget, hrecords, hbytes, hcheck⟩ := hx .deliveryLog
  have hmax : limits.bytes < i64Max := by
    have := limits.bytes_mem
    unfold i64Max
    omega
  have hfits := fits_of_room hmax hroom
  obtain ⟨⟨hpos, -⟩, ⟨hpos', -⟩, -, hmin, hexact⟩ := usageCheck_iff.mp hcheck
  have hcharge : (persistentDeliveryRecordChargeBytes : Int) = 512 := rfl
  have hequal : (aggregate db .deliveryLog).2 = (aggregate db .deliveryLog).1 * 512 :=
    hexact.resolve_left (by simp)
  have hnext : usageCheck .deliveryLog (row.records + 1) (row.chargedBytes + 512) = true := by
    rw [usageCheck_iff, hrecords, hbytes]
    refine ⟨⟨by omega, by omega⟩, ⟨by omega, by omega⟩, .inl (by omega), by omega, .inr (by omega)⟩
  obtain ⟨row', hwrite⟩ := write_isSome hnext
  have htrigger : trigger .deliveryLog 1 (intentRow intent).chargedBytes db.usage =
      some (db.usage.set .deliveryLog row') := by
    show trigger .deliveryLog 1 512 db.usage = _
    simp only [trigger, hget, hwrite, Option.map_some]
  have hguard : ¬ ((intentRow intent).check = false ∨
      (db.deliveryLog.find (intentRow intent).delivery).isSome = true) := by
    rw [intentRow_check, show (intentRow intent).delivery = intent.delivery from rfl, hfind]
    simp
  rw [insertOrIgnoreDelivery, if_neg hguard, hrows]
  simp only [Option.bind_some, htrigger, Option.map_some]
  exact ⟨_, rfl⟩

section

variable {limits : PersistentDeliveryLogLimits} {intent : DeliveryIntent} {db : Database}
  (ht : intent.acceptedAtUnixMs ≤ i64Max)
  (hkept : ∀ e ∈ db.deliveryLog.rows, retired (cutoffAt limits intent.acceptedAtUnixMs) e.2 = false)

include ht hkept

theorem insertIntent_known (hfind : (db.deliveryLog.find intent.delivery).isSome = true) :
    (insertIntent limits intent).run [] db = (.error .conflict, db) := by
  unfold Op.run insertIntent insertIntentWith
  rw [encodedLogTime_ok ht]
  simp only [Op.bind_apply, Op.ofExcept_ok, Op.pure_apply, cutoff_ok, Op.enter_apply, Op.call_apply,
    deleteDelivery_none hkept, Op.query_apply, hfind, if_true, Op.commit_apply, Op.fail_apply]

theorem insertIntent_new (hx : Exact db) (hfind : db.deliveryLog.find intent.delivery = none)
    (hroom : exhausted limits.records limits.bytes (aggregate db .deliveryLog).1
      (aggregate db .deliveryLog).2 persistentDeliveryRecordChargeBytes = false) {db' : Database}
    (hins : insertOrIgnoreDelivery (intentRow intent) db = some (1, db')) :
    (insertIntent limits intent).run [] db = (.ok (), db') := by
  unfold Op.run insertIntent insertIntentWith
  rw [encodedLogTime_ok ht]
  simp only [Op.bind_apply, Op.ofExcept_ok, Op.pure_apply, cutoff_ok, Op.enter_apply, Op.call_apply,
    deleteDelivery_none hkept, Op.query_apply, hfind, Option.isSome_none, Bool.false_eq_true, if_false,
    readUsage_exact hx, hroom, hins, ne_eq, not_true_eq_false, Op.commit_apply]

end

theorem logTransition_faultless (hp : ∀ row, p row = true → row.delivery = d)
    (hf : ∀ row, (f row).delivery = row.delivery)
    (hc : ∀ row, p row = true → row.check = true → (f row).check = true) (db : Database) :
    (db.deliveryLog.find d = none ∧
        (logTransition d (updateDelivery p f)).run [] db = (.error .notFound, db)) ∨
      (∃ n row, db.deliveryLog.find d = some (n, row) ∧ p row = false ∧
        (logTransition d (updateDelivery p f)).run [] db = (.error .invalidTransition, db)) ∨
      ∃ n row db', db.deliveryLog.find d = some (n, row) ∧ p row = true ∧
        updateDelivery p f db = some (1, db') ∧
        (logTransition d (updateDelivery p f)).run [] db = (.ok (), db') := by
  have hgoes : (db.deliveryLog.update p f).isSome :=
    Table.update_isSome (fun row _ => hf row) (fun row hrow hcheck => hc row hrow hcheck)
  obtain ⟨rows, hrows⟩ := Option.isSome_iff_exists.mp hgoes
  have hupdate : updateDelivery p f db =
      some ((db.deliveryLog.matched p).length, { db with deliveryLog := rows }) := by
    rw [updateDelivery, hrows]
    rfl
  have hthere : (rows.find d).isSome = (db.deliveryLog.find d).isSome := by
    rw [Table.find_update hrows (fun row _ => hf row) d, Option.isSome_map]
  rw [Table.matched_of_key hp] at hupdate
  simp only [logTransition, Op.changeOne_run, hupdate, hthere]
  cases hfind : db.deliveryLog.find d with
  | none => exact .inl ⟨rfl, by simp⟩
  | some e =>
    cases hrow : p e.2 with
    | false => exact .inr (.inl ⟨e.1, e.2, rfl, hrow, by simp [Option.filter, hrow]⟩)
    | true =>
      exact .inr (.inr ⟨e.1, e.2, _, rfl, hrow, by simp [Option.filter, hrow]; rfl,
        by simp [Option.filter, hrow]⟩)

variable {now : Nat}

theorem recordAttempt_timely (hpos : 1 ≤ attempts) (ht : now ≤ i64Max) : recordAttempt d attempts now =
      logTransition d (updateDelivery (attemptable d attempts) (setAttempts attempts now)) := by
  rw [recordAttempt, if_neg (Nat.ne_of_gt hpos), encodedLogTime_ok ht]
  rfl

theorem recordOutcome_timely {outcome : DeliveryOutcome} {result : Option DeliveryResultMetadata}
    (ht : now ≤ i64Max) : recordOutcome d outcome now result =
      logTransition d (updateDelivery (concludable d) (setOutcome outcome now result)) := by
  rw [recordOutcome, encodedLogTime_ok ht]
  rfl

theorem delivery_faultless (hdecodes : ∀ e ∈ db.deliveryLog.rows, Decodes e.2) :
    (delivery d).run [] db = (.ok (tableOf db d), db) := by
  unfold Op.run delivery tableOf
  simp only [Op.bind_apply, Op.enter_apply, Op.query_apply]
  cases hfind : db.deliveryLog.find d with
  | none => rfl
  | some e =>
    have hrow : validateRow e.2 = .ok (recordOf e.2) := hdecodes e (Table.find_eq_some.mp hfind).1
    simp only [Option.map_some, hrow]
    rfl

theorem update_decodes {db' : Database} {n : Nat} (h : updateDelivery p f db = some (n, db'))
    (hdecodes : ∀ e ∈ db.deliveryLog.rows, Decodes e.2)
    (hf : ∀ row, p row = true → row.check = true → Decodes (f row)) :
    ∀ e ∈ db'.deliveryLog.rows, Decodes e.2 := by
  obtain ⟨-, hlog, -, -⟩ := updateDelivery_eq h
  rw [(Table.update_eq_some hlog).1]
  intro e he
  obtain ⟨old, hold, rfl⟩ := List.mem_map.mp he
  unfold Table.amend
  split
  · next hrow => exact hf old.2 hrow (db.deliveryLog.checked old hold)
  · exact hdecodes old hold

/-- What one request does: the answer and the table of the ideal log, and a sound log again. -/
def Ideally (s : SqlCipherLog) (request : LogRequest) (done : LogAnswer × SqlCipherLog) : Prop :=
  done.1 = (ideal request (tableOf s.db)).1 ∧ tableOf done.2.db = (ideal request (tableOf s.db)).2 ∧
    done.2.Sound

variable {s : SqlCipherLog}

theorem insertIntent_ideally (hs : s.Sound) {intent : DeliveryIntent}
    (ht : intent.acceptedAtUnixMs ≤ i64Max) (hfree : s.Free limits (.insertIntent intent)) :
    Ideally s (.insertIntent intent) (serve (sqlCipherDeliveryLog limits) (.insertIntent intent) s) := by
  obtain ⟨db, faults⟩ := s
  obtain ⟨hfaults, hx, hdecodes⟩ := hs
  cases hfaults
  obtain ⟨hkept, hroom⟩ := hfree
  simp only [Ideally, serve, sqlCipherDeliveryLog, SqlCipherLog.call, List.headD_nil, List.tail_nil]
  cases hfind : db.deliveryLog.find intent.delivery with
  | some e =>
    have htable := tableOf_find hfind
    rw [insertIntent_known ht hkept (by rw [hfind]; rfl)]
    simp only [ideal, htable, Option.isSome_some, if_true]
    exact ⟨trivial, trivial, rfl, hx, hdecodes⟩
  | none =>
    have htable := tableOf_free hfind
    obtain ⟨hspace, hlast⟩ := hroom hfind
    obtain ⟨db', hins⟩ := insertOrIgnoreDelivery_isSome hx hfind hspace hlast
    rw [insertIntent_new ht hkept hx hfind hspace hins]
    simp only [ideal, htable, Option.isSome_none, Bool.false_eq_true, if_false]
    rcases insertOrIgnoreDelivery_eq hins with ⟨hzero, -⟩ | ⟨-, hrows, -, -⟩
    · cases hzero
    refine ⟨trivial, ?_, rfl, exact_insertOrIgnore hx hins, ?_⟩
    · funext d
      unfold tableOf
      rw [Table.find_insert hrows]
      by_cases hd : d = intent.delivery
      · subst hd
        have hkey : deliverySchema.key (intentRow intent) = intent.delivery := rfl
        rw [if_pos hkey, Function.update_self, Option.map_some, recordOf_intentRow]
      · have hkey : deliverySchema.key (intentRow intent) ≠ d := Ne.symm hd
        rw [if_neg hkey, Function.update_of_ne hd]
    · rw [(Table.insert_eq_some hrows).2.2.1]
      intro e he
      rcases List.mem_append.mp he with hold | hnew
      · exact hdecodes e hold
      · rw [List.mem_singleton.mp hnew]
        exact intentRow_decodes intent

theorem recordAttempt_ideally (hs : s.Sound) (hregular : 1 ≤ attempts ∧ attempts ≤ 65535 ∧ now ≤ i64Max) :
    Ideally s (.recordAttempt d attempts now)
      (serve (sqlCipherDeliveryLog limits) (.recordAttempt d attempts now) s) := by
  obtain ⟨db, faults⟩ := s
  obtain ⟨hfaults, hx, hdecodes⟩ := hs
  cases hfaults
  obtain ⟨hpos, hmax, ht⟩ := hregular
  simp only [Ideally, serve, sqlCipherDeliveryLog, SqlCipherLog.call, List.headD_nil, List.tail_nil,
    recordAttempt_timely hpos ht]
  have hp : ∀ row, attemptable d attempts row = true → row.delivery = d :=
    fun row hrow => (attemptable_iff.mp hrow).1
  have hf : ∀ row, (setAttempts attempts now row).delivery = row.delivery := fun _ => rfl
  rcases logTransition_faultless hp hf
      (fun row hrow hcheck => setAttempts_check hcheck (attemptable_iff.mp hrow).2.1 hmax) db with
    ⟨hfind, hrun⟩ | ⟨n, row, hfind, hrow, hrun⟩ | ⟨n, row, db', hfind, hrow, hupdate, hrun⟩
  · have htable := tableOf_free hfind
    rw [hrun]
    simp only [ideal, htable]
    exact ⟨trivial, trivial, rfl, hx, hdecodes⟩
  · have htable := tableOf_find hfind
    have hcheck : row.check = true := Table.check_of_find hfind
    have hguard : (recordOf row).state.isTerminal = true ∨ attempts ≤ (recordOf row).attempts := by
      by_contra hno
      obtain ⟨hlive, hmore⟩ := not_or.mp hno
      have hpending := (recordOf_pending hcheck).mp (Bool.eq_false_iff.mpr hlive)
      have hkey : row.delivery = d := Table.key_of_find hfind
      have hyes := attemptable_iff.mpr
        ⟨hkey, hpending, (recordOf_attempts_lt hcheck).mp (Nat.lt_of_not_le hmore)⟩
      rw [hrow] at hyes
      cases hyes
    rw [hrun]
    simp only [ideal, htable, if_pos hguard]
    exact ⟨trivial, trivial, rfl, hx, hdecodes⟩
  · have htable := tableOf_find hfind
    obtain ⟨_, row', hfind', -, hcheck, hmoved⟩ := update_one hp hf hupdate
    rw [hfind] at hfind'
    cases hfind'
    obtain ⟨-, hpending, hmore⟩ := attemptable_iff.mp hrow
    have hguard : ¬ ((recordOf row).state.isTerminal = true ∨ attempts ≤ (recordOf row).attempts) := by
      rw [recordOf_state hcheck hpending, not_or]
      exact ⟨by simp [DeliveryState.isTerminal],
        Nat.not_le.mpr ((recordOf_attempts_lt hcheck).mpr hmore)⟩
    rw [hrun]
    simp only [ideal, htable, if_neg hguard, hmoved, recordOf_setAttempts hcheck hpending]
    exact ⟨trivial, trivial, rfl, exact_updateDelivery hx hupdate (fun _ => rfl),
      update_decodes hupdate hdecodes fun row hrow hcheck =>
        setAttempts_decodes hcheck (attemptable_iff.mp hrow).2.1 hmax⟩

theorem recordOutcome_ideally (hs : s.Sound) (outcome : DeliveryOutcome)
    (result : Option DeliveryResultMetadata) (ht : now ≤ i64Max) :
    Ideally s (.recordOutcome d outcome now result)
      (serve (sqlCipherDeliveryLog limits) (.recordOutcome d outcome now result) s) := by
  obtain ⟨db, faults⟩ := s
  obtain ⟨hfaults, hx, hdecodes⟩ := hs
  cases hfaults
  simp only [Ideally, serve, sqlCipherDeliveryLog, SqlCipherLog.call, List.headD_nil, List.tail_nil,
    recordOutcome_timely ht]
  have hp : ∀ row, concludable d row = true → row.delivery = d :=
    fun row hrow => (concludable_iff.mp hrow).1
  have hf : ∀ row, (setOutcome outcome now result row).delivery = row.delivery := fun _ => rfl
  rcases logTransition_faultless hp hf
      (fun row hrow hcheck => setOutcome_check hcheck outcome now result) db with
    ⟨hfind, hrun⟩ | ⟨n, row, hfind, hrow, hrun⟩ | ⟨n, row, db', hfind, hrow, hupdate, hrun⟩
  · have htable := tableOf_free hfind
    rw [hrun]
    simp only [ideal, htable]
    exact ⟨trivial, trivial, rfl, hx, hdecodes⟩
  · have htable := tableOf_find hfind
    have hguard : (recordOf row).state.isTerminal = true := by
      by_contra hlive
      have hpending := (recordOf_pending (Table.check_of_find hfind)).mp (Bool.eq_false_iff.mpr hlive)
      have hkey : row.delivery = d := Table.key_of_find hfind
      have hyes := concludable_iff.mpr ⟨hkey, hpending⟩
      rw [hrow] at hyes
      cases hyes
    rw [hrun]
    simp only [ideal, htable, if_pos hguard]
    exact ⟨trivial, trivial, rfl, hx, hdecodes⟩
  · have htable := tableOf_find hfind
    obtain ⟨_, row', hfind', -, hcheck, hmoved⟩ := update_one hp hf hupdate
    rw [hfind] at hfind'
    cases hfind'
    have hguard : ¬ (recordOf row).state.isTerminal = true := by
      rw [recordOf_state hcheck (concludable_iff.mp hrow).2]
      simp [DeliveryState.isTerminal]
    rw [hrun]
    simp only [ideal, htable, if_neg hguard, hmoved, recordOf_setOutcome]
    exact ⟨trivial, trivial, rfl, exact_updateDelivery hx hupdate (fun _ => rfl),
      update_decodes hupdate hdecodes fun row _ hcheck =>
        setOutcome_decodes hcheck outcome now result⟩

theorem serve_ideally (hs : s.Sound) {request : LogRequest} (hregular : request.Regular)
    (hfree : s.Free limits request) : Ideally s request (serve (sqlCipherDeliveryLog limits) request s) := by
  cases request with
  | insertIntent intent => exact insertIntent_ideally hs hregular hfree
  | recordAttempt d attempts now => exact recordAttempt_ideally hs hregular
  | recordOutcome d outcome now result => exact recordOutcome_ideally hs outcome result hregular.2
  | delivery d =>
    obtain ⟨db, faults⟩ := s
    obtain ⟨hfaults, hx, hdecodes⟩ := hs
    cases hfaults
    simp only [Ideally, serve, sqlCipherDeliveryLog, SqlCipherLog.call, List.headD_nil, List.tail_nil,
      delivery_faultless hdecodes, ideal]
    exact ⟨trivial, trivial, rfl, hx, hdecodes⟩

/-- **The SQLCipher log refines the ideal log.** -/
theorem sqlCipherDeliveryLog_refines (limits : PersistentDeliveryLogLimits) :
    Refines (sqlCipherDeliveryLog limits) (fun s => tableOf s.db) SqlCipherLog.Sound
      (SqlCipherLog.Free limits) where
  answer _ _ hs hregular hfree := (serve_ideally hs hregular hfree).1
  moves _ _ hs hregular hfree := (serve_ideally hs hregular hfree).2.1
  keeps _ _ hs hregular hfree := (serve_ideally hs hregular hfree).2.2

theorem sound_migrated : SqlCipherLog.Sound ⟨migrated, []⟩ :=
  ⟨rfl, exact_refresh refresh_emptyTables, fun _ he => nomatch he⟩

end Bondry.Store
