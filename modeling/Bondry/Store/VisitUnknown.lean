/-
  TRAVERSING THE UNKNOWN RECORDS (`visit_unknown` of `dedup.rs`).

  The traversal holds no transaction and no lock while the visitor runs.  It is a loop of single lookups,
  and between two of them ANYTHING may happen to the store: the visitor itself resolves the record it was
  just shown, other connections claim, complete, clear, and insert for ever.

  Two numbers keep it honest:

  * the CURSOR, the key that was visited last: the next lookup takes the least key after it;
  * the CEILING, the largest sequence number when the traversal began.  Numbers are never used twice, so a
    row at or below the ceiling was there at the beginning (`Since`).
-/
import Bondry.Store.RecordMachine

namespace Bondry.Store

open Sql

/-! ## The traversal -/

/-- One lookup: what it looked at, and what it gave. -/
structure Lookup where
  db : Database
  answer : Except DedupStoreError (Option DedupRecord)

/-- A traversal as far as it got: its lookups, and its result if it has returned. -/
structure Visit where
  lookups : List Lookup
  result : Option (Except DedupStoreError Unit)

def Lookup.record (l : Lookup) : Option DedupRecord :=
  match l.answer with
  | .ok record => record
  | .error _ => none

def Visit.records (visit : Visit) : List DedupRecord := visit.lookups.filterMap Lookup.record

/-! ## One lookup -/

/-- The row of a record is unknown, has a number up to the ceiling, and is the first after the cursor. -/
structure Shown (cursor : Option DedupKey) (ceiling : Nat) (db : Database) (record : DedupRecord) :
    Prop where
  after : ∀ key, cursor = some key → key < record.key
  there : ∃ n row, db.webhookDedup.find record.key = some (n, row) ∧ row.state = .unknown ∧ n ≤ ceiling ∧
    record.state = .unknown
  first : ∀ n row, db.webhookDedup.find row.key = some (n, row) → row.state = .unknown → n ≤ ceiling →
    (∀ key, cursor = some key → key < row.key) → record.key ≤ row.key

/-- Every row of the later database whose number was already given out is a row of the earlier one. -/
structure Since (start db : Database) : Prop where
  last : start.webhookDedup.last ≤ db.webhookDedup.last
  old : ∀ key n row, db.webhookDedup.find key = some (n, row) → n ≤ start.webhookDedup.last →
    ∃ row', start.webhookDedup.find key = some (n, row')

theorem Since.refl (db : Database) : Since db db := ⟨le_rfl, fun _ _ row h _ => ⟨row, h⟩⟩

/-- A lookup that showed a record: the record is unknown where it was looked up, and its row has been
    there since the beginning. -/
def Lookup.Sound (start : Database) (l : Lookup) : Prop :=
  ∀ record, l.record = some record → record.state = .unknown ∧
    ∃ n row row', l.db.webhookDedup.find record.key = some (n, row) ∧ row.state = .unknown ∧
      start.webhookDedup.find record.key = some (n, row')

section

variable {start : Database} {ceiling : Nat} (hceiling : ceiling ≤ start.webhookDedup.last)

include hceiling

theorem Shown.old {cursor : Option DedupKey} {db : Database} {record : DedupRecord}
    (h : Shown cursor ceiling db record) (hsince : Since start db) :
    record.state = .unknown ∧ ∃ n row row', db.webhookDedup.find record.key = some (n, row) ∧
      row.state = .unknown ∧ start.webhookDedup.find record.key = some (n, row') := by
  obtain ⟨n, row, hfind, hstate, hle, hsame⟩ := h.there
  obtain ⟨row', hold⟩ := hsince.old record.key n row hfind (hle.trans hceiling)
  exact ⟨hsame, n, row, row', hfind, hstate, hold⟩

end

end Bondry.Store
