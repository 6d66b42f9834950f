/-
  TABLES and TRANSACTIONS of a relational store, over arbitrary rows.

  A `Table S` is a list of rows in ROWID order under a schema `S`: a UNIQUE key and a CHECK
  constraint.  The table carries the proof that its rows satisfy both, so a row that breaks a
  constraint cannot be in a table; the statement that would put it there FAILS instead
  (`insert` and `update` return `none`).  Row numbers come from an AUTOINCREMENT counter `last`,
  which never goes back, so a number names one insertion for good.

  A program talks to the store through `Op ε δ α`: a computation over a `Session` that knows what
  is COMMITTED, what the open transaction sees (`working`), and which of the coming calls fail
  (`faults`).  An operation that stops early leaves `working` behind, which is the rollback of a
  dropped transaction; only `commit` moves `working` into `committed`.
-/
import Mathlib

namespace Bondry.Sql

/-! ## Tables -/

/-- What a schema fixes about a row: its UNIQUE key and its CHECK constraint. -/
structure Schema (ρ κ : Type) where
  key : ρ → κ
  check : ρ → Bool

def maxRowid : Nat := 2 ^ 63 - 1

/-- A table: numbered rows in ascending order, all of them valid, no key twice. -/
structure Table {ρ κ : Type} (S : Schema ρ κ) where
  rows : List (Nat × ρ)
  last : Nat
  checked : ∀ e ∈ rows, S.check e.2 = true
  unique : (rows.map fun e => S.key e.2).Nodup
  ascending : (rows.map Prod.fst).Pairwise (· < ·)
  bounded : ∀ e ∈ rows, e.1 ≤ last

namespace Table

variable {ρ κ : Type} {S : Schema ρ κ}

variable {t : Table S}

@[ext] theorem ext {u : Table S} (hr : t.rows = u.rows) (hl : t.last = u.last) : t = u := by
  cases t
  cases u
  cases hr
  cases hl
  rfl

def empty (S : Schema ρ κ) : Table S where
  rows := []
  last := 0
  checked := by simp
  unique := by simp
  ascending := by simp
  bounded := by simp

/-- The rows a `WHERE` clause selects. -/
def matched (t : Table S) (p : ρ → Bool) : List (Nat × ρ) := t.rows.filter fun e => p e.2

def total (w : ρ → Int) (t : Table S) : Int := (t.rows.map fun e => w e.2).sum

/-- `DELETE … WHERE p`. -/
def delete (t : Table S) (p : ρ → Bool) : Table S where
  rows := t.rows.filter fun e => !p e.2
  last := t.last
  checked e he := t.checked e (List.mem_of_mem_filter he)
  unique := t.unique.sublist (List.filter_sublist.map _)
  ascending := t.ascending.sublist (List.filter_sublist.map _)
  bounded e he := t.bounded e (List.mem_of_mem_filter he)

/-- One row under `UPDATE … SET f WHERE p`. -/
def amend (p : ρ → Bool) (f : ρ → ρ) (row : ρ) : ρ := if p row then f row else row

section Keyed

variable [DecidableEq κ]

/-- The row with this key, and its number. -/
def find (t : Table S) (k : κ) : Option (Nat × ρ) := t.rows.find? fun e => S.key e.2 = k

/-- `INSERT` of one row: fails on a broken constraint, and when the numbers run out. -/
def insert (t : Table S) (row : ρ) : Option (Table S) :=
  if h : S.check row = true ∧ S.key row ∉ t.rows.map (fun e => S.key e.2) ∧ t.last < maxRowid then
    some {
      rows := t.rows ++ [(t.last + 1, row)]
      last := t.last + 1
      checked := by
        intro e he
        rcases List.mem_append.mp he with he | he
        · exact t.checked e he
        · rw [List.mem_singleton.mp he]
          exact h.1
      unique := by
        rw [List.map_append, List.map_singleton, ← List.concat_eq_append]
        exact t.unique.concat h.2.1
      ascending := by
        rw [List.map_append, List.map_singleton, List.pairwise_append]
        refine ⟨t.ascending, List.pairwise_singleton _ _, ?_⟩
        intro a ha b hb
        obtain ⟨e, he, rfl⟩ := List.mem_map.mp ha
        rw [List.mem_singleton.mp hb]
        exact Nat.lt_succ_of_le (t.bounded e he)
      bounded := by
        intro e he
        rcases List.mem_append.mp he with he | he
        · exact Nat.le_succ_of_le (t.bounded e he)
        · rw [List.mem_singleton.mp he] }
  else none

/-- `UPDATE … SET f WHERE p`: fails when a changed row breaks a constraint. -/
def update (t : Table S) (p : ρ → Bool) (f : ρ → ρ) : Option (Table S) :=
  if h : (∀ e ∈ t.rows, S.check (amend p f e.2) = true) ∧
      (t.rows.map fun e => S.key (amend p f e.2)).Nodup then
    some {
      rows := t.rows.map fun e => (e.1, amend p f e.2)
      last := t.last
      checked := by
        intro e he
        obtain ⟨e', he', rfl⟩ := List.mem_map.mp he
        exact h.1 e' he'
      unique := by
        rw [List.map_map]
        exact h.2
      ascending := by
        rw [List.map_map]
        exact t.ascending
      bounded := by
        intro e he
        obtain ⟨e', he', rfl⟩ := List.mem_map.mp he
        exact t.bounded e' he' }
  else none

/-! ## What is in a table -/

variable {t : Table S} {k : κ} {e : Nat × ρ}

theorem find_eq_some : t.find k = some e ↔ e ∈ t.rows ∧ S.key e.2 = k := by
  constructor
  · intro h
    exact ⟨List.mem_of_find?_eq_some h, by simpa using List.find?_some h⟩
  · rintro ⟨he, hk⟩
    have hsome : (t.find k).isSome := by
      rw [find, List.find?_isSome]
      exact ⟨e, he, by simpa using hk⟩
    obtain ⟨e', he'⟩ := Option.isSome_iff_exists.mp hsome
    have hm' := List.mem_of_find?_eq_some he'
    have hk' : S.key e'.2 = k := by simpa using List.find?_some he'
    -- two rows with one key are one row
    rw [he', List.inj_on_of_nodup_map t.unique hm' he (hk'.trans hk.symm)]

theorem find_eq_none : t.find k = none ↔ ∀ e ∈ t.rows, S.key e.2 ≠ k := by
  rw [find, List.find?_eq_none]
  simp

theorem key_mem_iff : k ∈ t.rows.map (fun e => S.key e.2) ↔ t.find k ≠ none := by
  rw [ne_eq, find_eq_none, List.mem_map]
  constructor
  · rintro ⟨e, he, hk⟩ hall
    exact hall e he hk
  · intro h
    by_contra hno
    exact h fun e he hk => hno ⟨e, he, hk⟩

theorem find_empty (k : κ) : (empty S).find k = none := rfl

theorem check_of_find (h : t.find k = some e) : S.check e.2 = true :=
  t.checked e (find_eq_some.mp h).1

theorem key_of_find (h : t.find k = some e) : S.key e.2 = k :=
  (find_eq_some.mp h).2

theorem number_le_of_find (h : t.find k = some e) : e.1 ≤ t.last :=
  t.bounded e (find_eq_some.mp h).1

/-! ## How each statement moves the rows -/

variable {t' : Table S} {row : ρ}

theorem insert_eq_some (h : t.insert row = some t') :
    S.check row = true ∧ t.find (S.key row) = none ∧ t'.rows = t.rows ++ [(t.last + 1, row)] ∧
      t'.last = t.last + 1 := by
  unfold insert at h
  by_cases hc : S.check row = true ∧ S.key row ∉ t.rows.map (fun e => S.key e.2) ∧
      t.last < maxRowid
  · rw [dif_pos hc] at h
    cases h
    have hnone := not_not.mp (mt key_mem_iff.mpr hc.2.1)
    exact ⟨hc.1, hnone, rfl, rfl⟩
  · rw [dif_neg hc] at h
    cases h

theorem insert_isSome (hc : S.check row = true) (hk : t.find (S.key row) = none)
    (hl : t.last < maxRowid) : (t.insert row).isSome := by
  have hk' : S.key row ∉ t.rows.map (fun e => S.key e.2) := fun hm => key_mem_iff.mp hm hk
  rw [insert, dif_pos ⟨hc, hk', hl⟩]
  rfl

theorem find_insert (h : t.insert row = some t') (k : κ) :
    t'.find k = if S.key row = k then some (t.last + 1, row) else t.find k := by
  obtain ⟨_, hnone, hrows, _⟩ := insert_eq_some h
  rw [find, hrows, List.find?_append]
  by_cases hk : S.key row = k
  · subst hk
    have hn : List.find? (fun e => decide (S.key e.2 = S.key row)) t.rows = none := hnone
    rw [if_pos rfl, hn]
    simp
  · simp [find, hk]

theorem find_delete (t : Table S) (p : ρ → Bool) (k : κ) :
    (t.delete p).find k = (t.find k).filter fun e => !p e.2 := by
  apply Option.ext
  intro e
  rw [Option.filter_eq_some_iff, find_eq_some, find_eq_some, delete, List.mem_filter]
  tauto

variable {p : ρ → Bool} {f : ρ → ρ}

theorem update_eq_some (h : t.update p f = some t') :
    t'.rows = t.rows.map (fun e => (e.1, amend p f e.2)) ∧ t'.last = t.last := by
  unfold update at h
  split at h
  · cases h
    exact ⟨rfl, rfl⟩
  · cases h

theorem update_isSome (hk : ∀ r, p r = true → S.key (f r) = S.key r)
    (hc : ∀ r, p r = true → S.check r = true → S.check (f r) = true) : (t.update p f).isSome := by
  have hkey : ∀ r, S.key (amend p f r) = S.key r := by
    intro r
    unfold amend
    split
    · exact hk r ‹_›
    · rfl
  have hcheck : ∀ e ∈ t.rows, S.check (amend p f e.2) = true := by
    intro e he
    unfold amend
    split
    · exact hc e.2 ‹_› (t.checked e he)
    · exact t.checked e he
  have hnodup : (t.rows.map fun e => S.key (amend p f e.2)).Nodup := by
    simp only [hkey]
    exact t.unique
  rw [update, dif_pos ⟨hcheck, hnodup⟩]
  rfl

theorem find_update (h : t.update p f = some t') (hk : ∀ r, p r = true → S.key (f r) = S.key r)
    (k : κ) : t'.find k = (t.find k).map fun e => (e.1, amend p f e.2) := by
  have hkey : ∀ r, S.key (amend p f r) = S.key r := by
    intro r
    unfold amend
    split
    · exact hk r ‹_›
    · rfl
  rw [find, (update_eq_some h).1, List.find?_map]
  simp only [Function.comp_def, hkey]
  rfl

/-! ## A statement about one key -/

/-- A `WHERE` clause that pins the key selects at most the row `find` returns. -/
theorem matched_of_key (hp : ∀ r, p r = true → S.key r = k) :
    t.matched p = ((t.find k).filter fun e => p e.2).toList := by
  have hnodup : t.rows.Nodup := List.Nodup.of_map _ t.unique
  cases hf : (t.find k).filter fun e => p e.2 with
  | none =>
    rw [matched, Option.toList_none, List.filter_eq_nil_iff]
    intro e he hpe
    have hfind : t.find k = some e := find_eq_some.mpr ⟨he, hp _ hpe⟩
    rw [hfind, Option.filter_some, if_pos hpe] at hf
    cases hf
  | some e =>
    obtain ⟨hfind, hpe⟩ := Option.filter_eq_some_iff.mp hf
    obtain ⟨he, hk⟩ := find_eq_some.mp hfind
    have hall : ∀ e' ∈ t.rows.filter (fun e => p e.2), e' = e := by
      intro e' he'
      obtain ⟨hm, hpe'⟩ := List.mem_filter.mp he'
      exact List.inj_on_of_nodup_map t.unique hm he ((hp _ hpe').trans hk.symm)
    have hmem : e ∈ t.rows.filter (fun e => p e.2) := List.mem_filter.mpr ⟨he, hpe⟩
    have hnd : (t.rows.filter fun e => p e.2).Nodup := hnodup.filter _
    rw [matched, Option.toList_some]
    cases hl : t.rows.filter (fun e => p e.2) with
    | nil => rw [hl] at hmem; cases hmem
    | cons a rest =>
      rw [hl] at hall hnd
      have ha : a = e := hall a (by simp)
      cases rest with
      | nil => rw [ha]
      | cons b more =>
        have hb : b = e := hall b (by simp)
        rw [ha, hb] at hnd
        simp at hnd

end Keyed

/-! ## The first row, the last number -/

/-- `INSERT INTO … SELECT … ORDER BY rowid`: the rows one after another, numbered anew. -/
def insertAll [DecidableEq κ] (t : Table S) (rows : List (Nat × ρ)) : Option (Table S) :=
  rows.foldlM (fun t e => t.insert e.2) t

variable {t' : Table S}

theorem insertAll_eq_some [DecidableEq κ] {rows : List (Nat × ρ)} (h : t.insertAll rows = some t') :
    t'.rows.map Prod.snd = t.rows.map Prod.snd ++ rows.map Prod.snd := by
  unfold insertAll at h
  induction rows generalizing t with
  | nil =>
    cases h
    simp
  | cons e rest ih =>
    obtain ⟨t₁, hins, hrest⟩ := Option.bind_eq_some_iff.mp h
    rw [ih hrest, (insert_eq_some hins).2.2.1]
    simp

theorem insertAll_isSome [DecidableEq κ] {rows : List (Nat × ρ)}
    (hcheck : ∀ e ∈ rows, S.check e.2 = true) (hnodup : (rows.map fun e => S.key e.2).Nodup)
    (hfresh : ∀ e ∈ rows, t.find (S.key e.2) = none) (hroom : t.last + rows.length ≤ maxRowid) :
    (t.insertAll rows).isSome := by
  unfold insertAll
  induction rows generalizing t with
  | nil => rfl
  | cons e rest ih =>
    rw [List.length_cons] at hroom
    rw [List.map_cons, List.nodup_cons] at hnodup
    have hsome := insert_isSome (hcheck e (by simp)) (hfresh e (by simp)) (by omega)
    obtain ⟨t₁, ht₁⟩ := Option.isSome_iff_exists.mp hsome
    rw [List.foldlM_cons, ht₁]
    have hlast := (insert_eq_some ht₁).2.2.2
    refine ih (fun e' he' => hcheck e' (by simp [he'])) hnodup.2 (fun e' he' => ?_) (by omega)
    -- the row just inserted has another key than the ones still to come
    have hne : S.key e.2 ≠ S.key e'.2 := fun heq =>
      hnodup.1 (heq ▸ List.mem_map_of_mem (f := fun e => S.key e.2) he')
    rw [find_insert ht₁, if_neg hne]
    exact hfresh e' (by simp [he'])

/-! ## Sums over the rows -/

theorem total_append_row (w : ρ → Int) {n : Nat} {row : ρ} (h : t'.rows = t.rows ++ [(n, row)]) :
    t'.total w = t.total w + w row := by
  rw [total, h, List.map_append, List.sum_append]
  simp [total]

theorem total_delete (w : ρ → Int) (t : Table S) (p : ρ → Bool) :
    (t.delete p).total w + ((t.matched p).map fun e => w e.2).sum = t.total w := by
  change ((t.rows.filter fun e => !p e.2).map fun e => w e.2).sum +
    ((t.rows.filter fun e => p e.2).map fun e => w e.2).sum = (t.rows.map fun e => w e.2).sum
  induction t.rows with
  | nil => rfl
  | cons e rest ih =>
    by_cases hp : p e.2 = true
    · simp only [List.filter_cons, hp, Bool.not_true, Bool.false_eq_true, if_false, if_true,
        List.map_cons, List.sum_cons]
      omega
    · simp only [List.filter_cons, hp, Bool.not_false, if_true, if_false,
        Bool.false_eq_true, List.map_cons, List.sum_cons]
      omega

theorem total_map (w : ρ → Int) {p : ρ → Bool} {f : ρ → ρ}
    (h : t'.rows = t.rows.map fun e => (e.1, amend p f e.2)) (hw : ∀ r, p r = true → w (f r) = w r) :
    t'.total w = t.total w := by
  have hamend : ∀ r, w (amend p f r) = w r := by
    intro r
    unfold amend
    split
    · exact hw r ‹_›
    · rfl
  rw [total, h, List.map_map]
  simp only [Function.comp_def, hamend]
  rfl

theorem total_one (t : Table S) : t.total (fun _ => 1) = t.rows.length := by
  unfold total
  induction t.rows with
  | nil => rfl
  | cons e rest ih =>
    rw [List.map_cons, List.sum_cons, ih, List.length_cons]
    push_cast
    ring

end Table

/-! ## Schema objects -/

/-- The indexes, or the triggers, of a database: the table each of them is on. -/
abbrev Objects (ν τ : Type) : Type := ν → Option τ

namespace Objects

variable {ν τ : Type} [DecidableEq ν] [DecidableEq τ]

/-- `CREATE INDEX`, `CREATE TRIGGER`: fails when the name is taken. -/
def create (objects : Objects ν τ) (name : ν) (table : τ) : Option (Objects ν τ) :=
  if objects name = none then some (Function.update objects name (some table)) else none

/-- What `DROP TABLE` leaves: the objects of the table go with it. -/
def dropTable (objects : Objects ν τ) (table : τ) : Objects ν τ := fun name =>
  if objects name = some table then none else objects name

/-- What `ALTER TABLE … RENAME` leaves: the objects of the table follow it. -/
def renameTable (objects : Objects ν τ) (table renamed : τ) : Objects ν τ := fun name =>
  if objects name = some table then some renamed else objects name

/-- The objects after all these names were created on one table. -/
def on (objects : Objects ν τ) (names : List ν) (table : τ) : Objects ν τ := fun name =>
  if name ∈ names then some table else objects name

omit [DecidableEq τ] in
theorem on_cons (objects : Objects ν τ) (first : ν) (rest : List ν) (table : τ) :
    objects.on (first :: rest) table =
      Objects.on (Function.update objects first (some table)) rest table := by
  funext name
  unfold on
  by_cases hrest : name ∈ rest
  · rw [if_pos (List.mem_cons_of_mem first hrest), if_pos hrest]
  · by_cases hfirst : name = first
    · subst hfirst
      rw [if_pos (by simp), if_neg hrest, Function.update_self]
    · rw [if_neg (by simp [hfirst, hrest]), if_neg hrest, Function.update_of_ne hfirst]

end Objects

/-! ## Transactions -/

structure Session (δ : Type) where
  committed : δ
  working : δ
  /-- Whether each of the coming calls fails for a reason outside the tables; no entry, no failure. -/
  faults : List Bool

/-- A computation over a session that may stop with an error. -/
def Op (ε δ α : Type) : Type := Session δ → Except ε α × Session δ

namespace Op

variable {ε δ α β : Type}

protected def pure (a : α) : Op ε δ α := fun s => (.ok a, s)

protected def bind (x : Op ε δ α) (f : α → Op ε δ β) : Op ε δ β := fun s =>
  match x s with
  | (.ok a, s') => f a s'
  | (.error e, s') => (.error e, s')

instance : Monad (Op ε δ) where
  pure := Op.pure
  bind := Op.bind

/-- Stops the operation (`return Err(e)`, or `?` on an error). -/
def fail (e : ε) : Op ε δ α := fun s => (.error e, s)

/-- `?` on a computed result. -/
def ofExcept : Except ε α → Op ε δ α
  | .ok a => pure a
  | .error e => fail e

/-- One call to the store inside the open transaction; `e` is what its failure is mapped to. -/
def call (e : ε) (statement : δ → Option (α × δ)) : Op ε δ α := fun s =>
  match s.faults with
  | true :: rest => (.error e, { s with faults := rest })
  | _ =>
    match statement s.working with
    | none => (.error e, { s with faults := s.faults.tail })
    | some (a, w) => (.ok a, { s with working := w, faults := s.faults.tail })

/-- Taking the connection's lock, and `BEGIN IMMEDIATE`: calls that can fail and change nothing. -/
def enter (e : ε) : Op ε δ Unit := call e fun w => some ((), w)

def query (e : ε) (f : δ → Option α) : Op ε δ α := call e fun w => (f w).map fun a => (a, w)

def commit (e : ε) : Op ε δ Unit := fun s =>
  match s.faults with
  | true :: rest => (.error e, { s with faults := rest })
  | _ => (.ok (), { s with committed := s.working, faults := s.faults.tail })

def autocommit (e : ε) (statement : δ → Option (α × δ)) : Op ε δ α := fun s =>
  match call e statement s with
  | (.ok a, s') => (.ok a, { s' with committed := s'.working })
  | (.error e', s') => (.error e', s')

/-- Runs an operation against the committed tables: the answer, and what is committed after it. -/
def run (x : Op ε δ α) (faults : List Bool) (db : δ) : Except ε α × δ :=
  let (r, s) := x ⟨db, db, faults⟩
  (r, s.committed)

/-! ## Pre- and postconditions -/

/-- Whatever calls fail, `x` started with `c` committed and `w` open ends well: with an answer and
    the tables in `Q`, or with an error and the committed tables in `E`. -/
def Meets (x : Op ε δ α) (c w : δ) (Q : α → δ → δ → Prop) (E : ε → δ → Prop) : Prop :=
  ∀ faults, match x ⟨c, w, faults⟩ with
    | (.ok a, s) => Q a s.committed s.working
    | (.error e, s) => E e s.committed

namespace Meets

variable {c w : δ} {Q : α → δ → δ → Prop} {E : ε → δ → Prop}

theorem pure {a : α} (h : Q a c w) : Meets (pure a) c w Q E := fun _ => h

variable {e : ε}

theorem fail (h : E e c) : Meets (fail e) c w Q E := fun _ => h

theorem bind {x : Op ε δ β} {f : β → Op ε δ α}
    (h : Meets x c w (fun b c' w' => Meets (f b) c' w' Q E) E) : Meets (x >>= f) c w Q E := by
  intro faults
  have hx := h faults
  change match Op.bind x f ⟨c, w, faults⟩ with
    | (.ok a, s) => Q a s.committed s.working
    | (.error e, s) => E e s.committed
  unfold Op.bind
  match hr : x ⟨c, w, faults⟩ with
  | (.ok b, s) =>
    rw [hr] at hx
    exact hx s.faults
  | (.error e, s) =>
    rw [hr] at hx
    exact hx

theorem call {statement : δ → Option (α × δ)} (hf : E e c)
    (h : ∀ a w', statement w = some (a, w') → Q a c w') : Meets (call e statement) c w Q E := by
  intro faults
  unfold Op.call
  match faults with
  | true :: rest => exact hf
  | [] | false :: rest =>
    match hs : statement w with
    | none => simpa only [hs] using hf
    | some (a, w') => simpa only [hs] using h a w' hs

theorem enter {Q : Unit → δ → δ → Prop} (hf : E e c) (h : Q () c w) : Meets (enter e) c w Q E :=
  call hf fun _ _ hw => by cases hw; exact h

theorem query {f : δ → Option α} (hf : E e c) (h : ∀ a, f w = some a → Q a c w) :
    Meets (query e f) c w Q E := by
  refine call hf fun a w' hw => ?_
  obtain ⟨b, hb, he⟩ := Option.map_eq_some_iff.mp hw
  cases he
  exact h a hb

theorem commit {Q : Unit → δ → δ → Prop} (hf : E e c) (h : Q () w w) : Meets (commit e) c w Q E := by
  intro faults
  match faults with
  | true :: rest => exact hf
  | [] | false :: rest => exact h

theorem autocommit {statement : δ → Option (α × δ)} (hf : E e c)
    (h : ∀ a w', statement w = some (a, w') → Q a w' w') : Meets (autocommit e statement) c w Q E := by
  intro faults
  have hcall : Meets (Op.call e statement) c w (fun a _ w' => Q a w' w') E := call hf h
  have hx := hcall faults
  unfold Op.autocommit
  match hr : Op.call e statement ⟨c, w, faults⟩ with
  | (.ok a, s) =>
    rw [hr] at hx
    exact hx
  | (.error e', s) =>
    rw [hr] at hx
    exact hx

theorem run {x : Op ε δ α} {P : Except ε α → δ → Prop} {faults : List Bool} {db db' : δ}
    {r : Except ε α} (h : x.run faults db = (r, db'))
    (hm : Meets x db db (fun a c _ => P (.ok a) c) fun e c => P (.error e) c) : P r db' := by
  have hx := hm faults
  unfold Op.run at h
  match hr : x ⟨db, db, faults⟩ with
  | (.ok a, s) =>
    rw [hr] at hx h
    cases h
    exact hx
  | (.error e, s) =>
    rw [hr] at hx h
    cases h
    exact hx

end Meets

/-- Two operations that do the same from these tables, whatever calls fail. -/
def Agree (x y : Op ε δ α) (c w : δ) : Prop := ∀ faults, x ⟨c, w, faults⟩ = y ⟨c, w, faults⟩

namespace Agree

variable {c w : δ}

theorem refl (x : Op ε δ α) : Agree x x c w := fun _ => rfl

theorem bind {x : Op ε δ β} {f g : β → Op ε δ α}
    (h : Meets x c w (fun b c' w' => Agree (f b) (g b) c' w') fun _ _ => True) :
    Agree (x >>= f) (x >>= g) c w := by
  intro faults
  have hx := h faults
  change Op.bind x f ⟨c, w, faults⟩ = Op.bind x g ⟨c, w, faults⟩
  unfold Op.bind
  match hr : x ⟨c, w, faults⟩ with
  | (.ok b, s) =>
    rw [hr] at hx
    exact hx s.faults
  | (.error e, s) => rfl

theorem query {e : ε} {f g : δ → Option β} {k : β → Op ε δ α} (h : f w = g w) :
    Agree (query e f >>= k) (query e g >>= k) c w := by
  intro faults
  have hq : Op.query e f ⟨c, w, faults⟩ = Op.query e g ⟨c, w, faults⟩ := by
    unfold Op.query Op.call
    simp only [h]
  change Op.bind _ k _ = Op.bind _ k _
  unfold Op.bind
  rw [hq]

theorem run {x y : Op ε δ α} {db : δ} (h : Agree x y db db) (faults : List Bool) :
    x.run faults db = y.run faults db := by
  unfold Op.run
  rw [h faults]

end Agree

/-! ## Two shapes of operation -/

/-- Runs one statement in a transaction of its own and commits it only if it changed exactly one
    row; otherwise says whether the record it was about is there. -/
def changeOne (unavailable refused missing : ε) (there : δ → Bool)
    (update : δ → Option (Nat × δ)) : Op ε δ Unit := do
  enter unavailable
  enter unavailable
  let changed ← call unavailable update
  if changed = 1 then commit unavailable
  else do
    let found ← query unavailable fun w => some (there w)
    if found then fail refused else fail missing

/-- Everything `changeOne` can do: change exactly one row, or nothing. -/
inductive ChangeOneRun (unavailable refused missing : ε) (there : δ → Bool)
    (update : δ → Option (Nat × δ)) (db : δ) : Except ε Unit → δ → Prop
  | failed : ChangeOneRun unavailable refused missing there update db (.error unavailable) db
  | changed {db' : δ} (h : update db = some (1, db')) :
      ChangeOneRun unavailable refused missing there update db (.ok ()) db'
  | refused {n : Nat} {db₁ : δ} (h : update db = some (n, db₁)) (hn : n ≠ 1)
      (hthere : there db₁ = true) :
      ChangeOneRun unavailable refused missing there update db (.error refused) db
  | missing {n : Nat} {db₁ : δ} (h : update db = some (n, db₁)) (hn : n ≠ 1)
      (hgone : there db₁ = false) :
      ChangeOneRun unavailable refused missing there update db (.error missing) db

variable {db : δ}

theorem Meets.changeOne {unavailable refused missing : ε} {there : δ → Bool}
    {update : δ → Option (Nat × δ)} {P : Except ε Unit → δ → Prop}
    (h : ∀ answer db', ChangeOneRun unavailable refused missing there update db answer db' → P answer db') :
    Meets (changeOne unavailable refused missing there update) db db
      (fun a c _ => P (.ok a) c) fun e c => P (.error e) c := by
  have hfail := h _ _ .failed
  refine .bind (.enter hfail ?_)
  refine .bind (.enter hfail ?_)
  refine .bind (.call hfail fun n db₁ hupd => ?_)
  split
  · next hn => exact .commit hfail (h _ _ (.changed (hn ▸ hupd)))
  · next hn =>
    refine .bind (.query hfail fun found hfound => ?_)
    simp only [Option.some.injEq] at hfound
    split
    · next ht => exact .fail (h _ _ (.refused hupd hn (hfound.trans ht)))
    · next ht => exact .fail (h _ _ (.missing hupd hn (hfound.trans (Bool.eq_false_iff.mpr ht))))

/-- Runs one statement on its own: everything it can do is fail, or happen. -/
inductive StatementRun (unavailable : ε) (statement : δ → Option (α × δ)) (db : δ) :
    Except ε α → δ → Prop
  | failed : StatementRun unavailable statement db (.error unavailable) db
  | done {a : α} {db' : δ} (h : statement db = some (a, db')) :
      StatementRun unavailable statement db (.ok a) db'

def single (unavailable : ε) (statement : δ → Option (α × δ)) : Op ε δ α := do
  enter unavailable
  autocommit unavailable statement

theorem Meets.single {unavailable : ε} {statement : δ → Option (α × δ)} {P : Except ε α → δ → Prop}
    (h : ∀ answer db', StatementRun unavailable statement db answer db' → P answer db') :
    Meets (single unavailable statement) db db (fun a c _ => P (.ok a) c) fun e c => P (.error e) c := by
  have hfail := h _ _ .failed
  exact .bind (.enter hfail (.autocommit hfail fun a db' hs => h _ _ (.done hs)))

/-! ## Batches -/

/-- What a batch of statements computes: nothing, once one of them fails. -/
def runStatements (statements : List (δ → Option δ)) (db : δ) : Option δ :=
  statements.foldlM (fun db statement => statement db) db

/-- `execute_batch`: the statements in order, each of them a call. -/
def batch (e : ε) : List (δ → Option δ) → Op ε δ Unit
  | [] => pure ()
  | statement :: rest => do
      call e fun w => (statement w).map fun w' => ((), w')
      batch e rest

theorem runStatements_cons (statement : δ → Option δ) (rest : List (δ → Option δ)) (db : δ) :
    runStatements (statement :: rest) db = (statement db).bind (runStatements rest) := rfl

theorem runStatements_append (first second : List (δ → Option δ)) (db : δ) :
    runStatements (first ++ second) db = (runStatements first db).bind (runStatements second) := by
  unfold runStatements
  rw [List.foldlM_append]
  rfl

/-- `CREATE … name ON table` in a database whose objects `get` reads and `put` writes. -/
def createOn {ν τ : Type} [DecidableEq ν] [DecidableEq τ] (get : δ → Objects ν τ)
    (put : Objects ν τ → δ → δ) (there : δ → Bool) (table : τ) (name : ν) (db : δ) : Option δ :=
  if there db then ((get db).create name table).map fun objects => put objects db else none

theorem runStatements_createOn {ν τ : Type} [DecidableEq ν] [DecidableEq τ] {get : δ → Objects ν τ}
    {put : Objects ν τ → δ → δ} {there : δ → Bool} {table : τ} {names : List ν}
    (hget : ∀ objects db, get (put objects db) = objects)
    (hput : ∀ objects objects' db, put objects (put objects' db) = put objects db)
    (hsame : put (get db) db = db) (hthere : ∀ objects db, there (put objects db) = there db)
    (hhas : there db = true) (hnodup : names.Nodup) (hfree : ∀ name ∈ names, get db name = none) :
    runStatements (names.map fun name => createOn get put there table name) db =
      some (put ((get db).on names table) db) := by
  induction names generalizing db with
  | nil => exact congrArg some hsame.symm
  | cons first rest ih =>
    rw [List.nodup_cons] at hnodup
    have hcreated : createOn get put there table first db =
        some (put (Function.update (get db) first (some table)) db) := by
      rw [createOn, if_pos hhas, Objects.create, if_pos (hfree first (by simp))]
      rfl
    rw [List.map_cons, runStatements_cons, hcreated, Option.bind_some, Objects.on_cons, ih]
    · rw [hget, hput]
    · rw [hget, hput]
    · rw [hthere]
      exact hhas
    · exact hnodup.2
    · intro name hname
      have hne : name ≠ first := fun heq => hnodup.1 (heq ▸ hname)
      rw [hget, Function.update_of_ne hne]
      exact hfree name (by simp [hname])

theorem Meets.batch {e : ε} {statements : List (δ → Option δ)} {c w : δ}
    {Q : Unit → δ → δ → Prop} {E : ε → δ → Prop} (hf : E e c)
    (h : ∀ w', runStatements statements w = some w' → Q () c w') : Meets (batch e statements) c w Q E := by
  induction statements generalizing w with
  | nil => exact .pure (h w rfl)
  | cons statement rest ih =>
    refine .bind (.call hf fun _ w₁ hcall => ih fun w' hrest => ?_)
    obtain ⟨w₂, hstatement, heq⟩ := Option.map_eq_some_iff.mp hcall
    cases heq
    refine h w' ?_
    rw [runStatements_cons, hstatement]
    exact hrest

/-! ## Evaluation when no call fails -/

@[simp] theorem pure_apply (a : α) (s : Session δ) : (pure a : Op ε δ α) s = (.ok a, s) := rfl

@[simp] theorem bind_apply (x : Op ε δ α) (f : α → Op ε δ β) (s : Session δ) :
    (x >>= f) s = match x s with
      | (.ok a, s') => f a s'
      | (.error e, s') => (.error e, s') := rfl

@[simp] theorem fail_apply (e : ε) (s : Session δ) : (fail e : Op ε δ α) s = (.error e, s) := rfl

@[simp] theorem ofExcept_ok (a : α) : (ofExcept (.ok a) : Op ε δ α) = pure a := rfl

@[simp] theorem ofExcept_error (e : ε) : (ofExcept (.error e) : Op ε δ α) = fail e := rfl

@[simp] theorem enter_apply (e : ε) (c w : δ) :
    (enter e : Op ε δ Unit) ⟨c, w, []⟩ = (.ok (), ⟨c, w, []⟩) := rfl

@[simp] theorem commit_apply (e : ε) (c w : δ) :
    (commit e : Op ε δ Unit) ⟨c, w, []⟩ = (.ok (), ⟨w, w, []⟩) := rfl

theorem call_apply (e : ε) (statement : δ → Option (α × δ)) (c w : δ) :
    call e statement ⟨c, w, []⟩ = match statement w with
      | none => (.error e, ⟨c, w, []⟩)
      | some (a, w') => (.ok a, ⟨c, w', []⟩) := by
  unfold call
  cases statement w with
  | none => rfl
  | some aw => rfl

theorem query_apply (e : ε) (f : δ → Option α) (c w : δ) :
    query e f ⟨c, w, []⟩ = match f w with
      | none => (.error e, ⟨c, w, []⟩)
      | some a => (.ok a, ⟨c, w, []⟩) := by
  rw [query, call_apply]
  cases f w with
  | none => rfl
  | some a => rfl

theorem batch_apply (e : ε) (statements : List (δ → Option δ)) (c w : δ) :
    match runStatements statements w with
    | none => ∃ w', batch e statements ⟨c, w, []⟩ = (.error e, ⟨c, w', []⟩)
    | some w' => batch e statements ⟨c, w, []⟩ = (.ok (), ⟨c, w', []⟩) := by
  induction statements generalizing w with
  | nil => rfl
  | cons statement rest ih =>
    unfold runStatements
    rw [List.foldlM_cons, batch, bind_apply, call_apply]
    cases statement w with
    | none => exact ⟨w, rfl⟩
    | some w₁ => exact ih w₁

theorem changeOne_run (unavailable refused missing : ε) (there : δ → Bool)
    (update : δ → Option (Nat × δ)) (db : δ) :
    (changeOne unavailable refused missing there update).run [] db =
      match update db with
      | none => (.error unavailable, db)
      | some (n, db₁) =>
        if n = 1 then (.ok (), db₁)
        else if there db₁ then (.error refused, db) else (.error missing, db) := by
  unfold run changeOne
  simp only [bind_apply, enter_apply, call_apply]
  cases update db with
  | none => rfl
  | some out =>
    obtain ⟨n, db₁⟩ := out
    by_cases hn : n = 1
    · simp [hn]
    · simp only [hn, if_false, bind_apply, query_apply]
      cases there db₁ with
      | true => rfl
      | false => rfl

end Op

end Bondry.Sql
