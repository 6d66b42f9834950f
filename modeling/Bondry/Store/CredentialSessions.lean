/-
  SEQUENCES OF OPERATIONS ON CREDENTIAL FILES.

  What a name means are its file, the file's bytes and its links (`SameAt`): replacing or deleting a credential
  keeps what every other name means, because a credential that was opened has one name only.  So after any
  sequence of operations a load returns what the last effective rename or unlink of its identifier has left
  (`credential_files_atomic`).
-/
import Bondry.Store.CredentialReplace

namespace Bondry.Credential

open Program

variable {faulty : Prop} {s s' : Machine}

/-! ## What the other names see -/

structure SameAt (name : FileName) (files files' : Files) : Prop where
  directory : files'.directory = files.directory
  entry : files'.entries[name]? = files.entries[name]?
  node : ∀ n, files.entries[name]? = some n → files'.nodes n = files.nodes n
  links : ∀ n, files.entries[name]? = some n → files'.links n = files.links n

section

variable {files files' : Files} {name temporary : FileName} {n : Nat} {node : FileNode}

def Files.contents (files : Files) (id : CredentialId) : Option Bytes :=
  files.entries[id.value]?.map fun n => (files.nodes n).bytes

variable {id : CredentialId}

theorem SameAt.contents (h : SameAt id.value files files') : files'.contents id = files.contents id := by
  rw [Files.contents, Files.contents, h.entry]
  rcases hentry : files.entries[id.value]? with _ | n
  · rfl
  · rw [Option.map_some, Option.map_some, h.node n hentry]

theorem SameAt.loaded (h : SameAt id.value files files') (owner : Nat) :
    files'.loaded owner id = files.loaded owner id := by
  rw [Files.loaded, Files.loaded, h.directory, h.entry]
  rcases hentry : files.entries[id.value]? with _ | n
  · rfl
  · have hnode := h.node n hentry
    have hstatus : files'.status n = files.status n := by
      rw [Files.status, Files.status, hnode, h.links n hentry]
    have htype : files'.IsType n linkType ↔ files.IsType n linkType := by
      rw [Files.IsType, Files.IsType, hnode]
    simp only [hstatus, htype, hnode]

def namesOf (n : Nat) (entries : BTreeMap FileName Nat) : Nat :=
  BTreeMap.sumOf (fun _ m => if decide (m = n) then 1 else 0) entries

section

variable {entries entries' : BTreeMap FileName Nat} {key : FileName}

theorem namesOf_congr (h : ∀ name : FileName, entries'[name]? = entries[name]?) (n : Nat) :
    namesOf n entries' = namesOf n entries :=
  BTreeMap.sumOf_congr_find (fun _ m => if decide (m = n) then 1 else 0) h

theorem namesOf_erase (hold : entries[key]? ≠ some n) : namesOf n (entries.erase key) = namesOf n entries := by
  rcases hentry : entries[key]? with _ | old
  · refine namesOf_congr (fun name => ?_) n
    rw [BTreeMap.find_erase]
    split_ifs with hname
    · rw [← hname, hentry]
    · rfl
  · have hne : old ≠ n := fun h => hold (h ▸ hentry)
    simpa [namesOf, hne] using BTreeMap.sumOf_erase (fun _ m => if decide (m = n) then 1 else 0) hentry

theorem namesOf_insert (key : FileName) (m : Nat) (hold : entries[key]? ≠ some n) :
    namesOf n (entries.insert key m) = namesOf n entries + if m = n then 1 else 0 := by
  rcases hentry : entries[key]? with _ | old
  · simpa [namesOf] using BTreeMap.sumOf_insert_fresh (fun _ m => if decide (m = n) then 1 else 0) m hentry
  · have hne : old ≠ n := fun h => hold (h ▸ hentry)
    simpa [namesOf, hne] using BTreeMap.sumOf_insert_replace (fun _ m => if decide (m = n) then 1 else 0) m hentry

end

theorem two_le_links {other : FileName} (hname : files.entries[name]? = some n)
    (hother : files.entries[other]? = some n) (hne : name ≠ other) : 2 ≤ files.links n := by
  have herase := BTreeMap.sumOf_erase (fun _ m => if decide (m = n) then 1 else 0) hname
  have hrest : (files.entries.erase name)[other]? = some n := by rw [BTreeMap.find_erase_ne _ hne, hother]
  have hone := BTreeMap.le_sumOf (fun _ m => if decide (m = n) then 1 else 0) hrest
  rw [Files.links, BTreeMap.tally]
  simp only [decide_true, if_true] at herase hone
  omega

variable {owner : Nat}

theorem IsCredential.unlinked {other : FileName} (h : IsCredential files owner n)
    (hname : files.entries[name]? = some n) (hne : name ≠ other) : files.entries[other]? ≠ some n := by
  intro hother
  have hlinks : files.links n = 1 := h.metadata.2.2.1
  have htwo := two_le_links hname hother hne
  omega

theorem Opened.entry_ne {found : Option Descriptor} (h : Opened files owner id found) (hne : name ≠ id.value)
    {m : Nat} (hentry : files.entries[name]? = some m) : files.entries[id.value]? ≠ some m := by
  obtain ⟨-, rfl, hcredential⟩ := h
  exact fun hown => (hcredential m hown).unlinked hown (Ne.symm hne) hentry

theorem SameAt.refl (name : FileName) (files : Files) : SameAt name files files :=
  ⟨rfl, rfl, fun _ _ => rfl, fun _ _ => rfl⟩

section

variable (h : Fresh files temporary n)

include h

theorem Fresh.node_ne {m : Nat} (hentry : files.entries[name]? = some m) : n ≠ m := by
  rintro rfl
  exact h.unlinked name hentry

theorem Fresh.node_eq {m : Nat} (hentry : files.entries[name]? = some m) :
    Function.update files.nodes n node m = files.nodes m :=
  Function.update_of_ne (h.node_ne hentry).symm node files.nodes

theorem Fresh.sameAt_create (hne : name ≠ temporary) : SameAt name files (files.create temporary n node) where
  directory := rfl
  entry := BTreeMap.find_insert_ne _ _ (Ne.symm hne)
  node m hentry := h.node_eq hentry
  links m hentry := by
    have hnode : (files.create temporary n node).nodes m = files.nodes m := h.node_eq hentry
    have hnames : namesOf m (files.entries.insert temporary n) = _ := namesOf_insert temporary n (by simp [h.unused])
    rw [if_neg (h.node_ne hentry)] at hnames
    rw [Files.links, Files.links, hnode]
    exact congrArg (· + _) hnames

theorem Fresh.entries_eq (name : FileName) :
    ((files.entries.insert temporary n).erase temporary)[name]? = files.entries[name]? := by
  by_cases hname : temporary = name
  · subst hname
    rw [BTreeMap.find_erase_self, h.unused]
  · rw [BTreeMap.find_erase_ne _ hname, BTreeMap.find_insert_ne _ _ hname]

theorem Fresh.sameAt_removed (name : FileName) :
    SameAt name files ((files.create temporary n node).unlink temporary) where
  directory := rfl
  entry := h.entries_eq name
  node _ hentry := h.node_eq hentry
  links m hentry := by
    have hnode : ((files.create temporary n node).unlink temporary).nodes m = files.nodes m := h.node_eq hentry
    rw [Files.links, Files.links, hnode]
    exact congrArg (· + _) (namesOf_congr h.entries_eq m)

theorem Fresh.sameAt_renamed {found : Option Descriptor} (hopened : Opened files owner id found)
    (hne : name ≠ id.value) : SameAt name files ((files.create temporary n node).rename temporary id.value n) where
  directory := rfl
  entry := by
    show (((files.entries.insert temporary n).erase temporary).insert id.value n)[name]? = _
    rw [BTreeMap.find_insert_ne _ _ (Ne.symm hne)]
    exact h.entries_eq name
  node m hentry := h.node_eq hentry
  links m hentry := by
    have hnode : ((files.create temporary n node).rename temporary id.value n).nodes m = files.nodes m :=
      h.node_eq hentry
    have hold : ((files.entries.insert temporary n).erase temporary)[id.value]? ≠ some m := by
      rw [h.entries_eq]
      exact hopened.entry_ne hne hentry
    have hnames := namesOf_insert id.value n hold
    rw [if_neg (h.node_ne hentry)] at hnames
    rw [Files.links, Files.links, hnode]
    exact congrArg (· + _) (hnames.trans (namesOf_congr h.entries_eq m))

/-- A file that is renamed keeps its links. -/
theorem Fresh.links_renamed (target : FileName) :
    ((files.create temporary n node).rename temporary target n).links n =
      (files.create temporary n node).links n := by
  have hnone := h.entries_eq
  have hcreated := namesOf_insert temporary n (h.unlinked temporary)
  have hrenamed := namesOf_insert target n (fun hentry => h.unlinked target (hnone target ▸ hentry))
  rw [namesOf_congr hnone] at hrenamed
  exact congrArg (· + _) (hrenamed.trans hcreated.symm)

end

theorem Opened.sameAt_unlink (hopened : Opened files owner id (some n)) (hne : name ≠ id.value) :
    SameAt name files (files.unlink id.value) where
  directory := rfl
  entry := BTreeMap.find_erase_ne _ (Ne.symm hne)
  node _ _ := rfl
  links _ hentry := congrArg (· + _) (namesOf_erase (hopened.entry_ne hne hentry))

/-- **A replaced credential is the one that is loaded.** -/
theorem Replaced.loaded {value : CredentialValue} (h : Replaced files owner id value temporary s) :
    s.files.loaded owner id = .ok (some value) := by
  obtain ⟨n, node, hfresh, hbytes, hregular, hprivate, hfiles⟩ := h.file
  obtain ⟨found, hdirectory, -⟩ := h.opened
  rw [hfiles]
  have hentry : ((files.create temporary n node).rename temporary id.value n).entries[id.value]? = some n :=
    BTreeMap.find_insert_self _ _ _
  have hnode : ((files.create temporary n node).rename temporary id.value n).nodes n = node := by
    simp [Files.create, Files.rename]
  have hlink : ¬ ((files.create temporary n node).rename temporary id.value n).IsType n linkType := by
    rw [Files.IsType, hnode, hregular]
    decide
  have hstatus : ((files.create temporary n node).rename temporary id.value n).status n =
      (files.create temporary n node).status n := by
    rw [Files.status, Files.status, hfresh.links_renamed]
    rfl
  have hdirectory' : PrivateDirectory owner
      ((files.create temporary n node).rename temporary id.value n).directory := hdirectory
  refine Files.loaded_value hdirectory' hentry hlink ?_ ?_
  · rw [hstatus]
    exact hprivate
  · rw [hnode, hbytes]

/-- **A deleted credential is not there.** -/
theorem Opened.loaded_unlink {found : Option Descriptor} (h : Opened files owner id found) :
    (files.unlink id.value).loaded owner id = .ok none := by
  have hentry : (files.unlink id.value).entries[id.value]? = none := BTreeMap.find_erase_self _ _
  have hdirectory : PrivateDirectory owner (files.unlink id.value).directory := h.1
  exact Files.loaded_none hdirectory hentry

end

/-! ## Sessions -/

inductive Record where
  | load (id : CredentialId) (outcome : Outcome CredentialStoreError (Option CredentialValue))
      (log : List (SystemCall × Bool))
  | store (id : CredentialId) (value : CredentialValue) (outcome : Outcome CredentialStoreError Unit)
      (log : List (SystemCall × Bool))
  | delete (id : CredentialId) (outcome : Outcome CredentialStoreError Bool) (log : List (SystemCall × Bool))

def Record.id : Record → CredentialId
  | load id _ _ | store id _ _ _ | delete id _ _ => id

def Record.log : Record → List (SystemCall × Bool)
  | load _ _ log | store _ _ _ log | delete _ _ log => log

def renames (id : CredentialId) (log : List (SystemCall × Bool)) : Bool :=
  log.any fun
    | (.renameat _ target, true) => decide (target = id.value)
    | _ => false

def unlinks (id : CredentialId) (log : List (SystemCall × Bool)) : Bool :=
  log.any fun
    | (.unlinkat name, true) => decide (name = id.value)
    | _ => false

/-- What an operation has made of a credential, if its rename or its unlink took effect. -/
def Record.settles (id : CredentialId) : Record → Option (Option Bytes)
  | load .. => none
  | store id' value _ log => if id' = id ∧ renames id log then some (some value.bytes) else none
  | delete id' _ log => if id' = id ∧ unlinks id log then some none else none

/-- The value of the last store whose rename took effect, unless an effective unlink has followed. -/
def held (initial : Option Bytes) (history : List Record) (id : CredentialId) : Option Bytes :=
  history.foldl (fun value record => (record.settles id).getD value) initial

section

variable (store : UnixFileCredentialStore)

/-- An operation: any call can fail, and the process can stop anywhere. -/
inductive Performed : Files → Record → Files → Prop where
  | load {files after : Files} {id : CredentialId} {outcome} {log : List (SystemCall × Bool)} :
      Runs (Answers True) ⟨files, []⟩ (store.load id) outcome ⟨after, log⟩ →
      Performed files (.load id outcome log) after
  | store {files after : Files} {id : CredentialId} {value : CredentialValue} {outcome}
      {log : List (SystemCall × Bool)} :
      Runs (Answers True) ⟨files, []⟩ (store.storeCredential id value) outcome ⟨after, log⟩ →
      Performed files (.store id value outcome log) after
  | delete {files after : Files} {id : CredentialId} {outcome} {log : List (SystemCall × Bool)} :
      Runs (Answers True) ⟨files, []⟩ (store.delete id) outcome ⟨after, log⟩ →
      Performed files (.delete id outcome log) after

inductive Session (initial : Files) : List Record → Files → Prop where
  | start : Session initial [] initial
  | step {history : List Record} {files after : Files} {record : Record} : Session initial history files →
      Performed store files record after → Session initial (history ++ [record]) after

def Loads (files : Files) (id : CredentialId)
    (outcome : Outcome CredentialStoreError (Option CredentialValue)) : Prop :=
  outcome ≠ .stopped ∧ ∃ s, Runs (Answers False) ⟨files, []⟩ (store.load id) outcome s

end

/-- The identifiers in use, and random names that are none of theirs. -/
structure Apart (used : CredentialId → Prop) (record : Record) : Prop where
  id_used : used record.id
  names : ∀ name effect, (.openCreate name, effect) ∈ record.log → ∀ id, used id → name ≠ id.value

section

variable {store : UnixFileCredentialStore} {used : CredentialId → Prop} {files after initial : Files}
  {record : Record} {history : List Record}

variable {id : CredentialId} {log : List (SystemCall × Bool)}

theorem renames_iff : renames id log = true ↔ ∃ source, (.renameat source id.value, true) ∈ log := by
  rw [renames, List.any_eq_true]
  constructor
  · rintro ⟨⟨call, effect⟩, hmem, hmatch⟩
    split at hmatch
    · next source target heq =>
      cases heq
      obtain rfl := of_decide_eq_true hmatch
      exact ⟨source, hmem⟩
    · cases hmatch
  · rintro ⟨source, hmem⟩
    exact ⟨_, hmem, by simp⟩

theorem unlinks_iff : unlinks id log = true ↔ (.unlinkat id.value, true) ∈ log := by
  rw [unlinks, List.any_eq_true]
  constructor
  · rintro ⟨⟨call, effect⟩, hmem, hmatch⟩
    split at hmatch
    · next name heq =>
      cases heq
      obtain rfl := of_decide_eq_true hmatch
      exact hmem
    · cases hmatch
  · intro hmem
    exact ⟨_, hmem, by simp⟩

theorem credentialId_value_ne {id' : CredentialId} (h : id ≠ id') : id.value ≠ id'.value := by
  intro hvalue
  obtain ⟨value, hvalid⟩ := id
  obtain ⟨value', hvalid'⟩ := id'
  subst hvalue
  exact h rfl

variable {stopped : Prop} {s : Machine}

theorem Undone.unrenamed (h : Undone files stopped s) : Unrenamed s.log := by
  cases h <;> assumption

theorem Undone.sameAt (h : Undone files stopped s) {name : FileName}
    (hname : ∀ temporary, (.openCreate temporary, true) ∈ s.log → name ≠ temporary) :
    SameAt name files s.files := by
  cases h with
  | untouched => exact .refl name files
  | leaves hfresh _ hcreated => exact hfresh.sameAt_create (hname _ hcreated)
  | removed hfresh => exact hfresh.sameAt_removed name

theorem Undone.remains (h : Undone files stopped s) (name : FileName) :
    s.files.entries[name]? = files.entries[name]? ∨
      (files.entries[name]? = none ∧ (stopped ∨ (.unlinkat name, false) ∈ s.log)) := by
  cases h with
  | untouched => exact .inl rfl
  | removed hfresh => exact .inl (hfresh.sameAt_removed name).entry
  | leaves hfresh _ _ hleft =>
    rename_i temporary n node _ _
    by_cases htemporary : name = temporary
    · subst htemporary
      exact .inr ⟨hfresh.unused, hleft⟩
    · exact .inl (hfresh.sameAt_create htemporary).entry

theorem UndoneBy.undone {α : Type} {outcome : Outcome CredentialStoreError α} (h : UndoneBy files outcome s) :
    ∃ stopped, Undone files stopped s ∧ (stopped → outcome = .stopped) := by
  cases outcome with
  | returned _ => exact h.elim
  | failed _ => exact ⟨False, h, False.elim⟩
  | stopped => exact ⟨True, h, fun _ => rfl⟩

variable {owner : Nat} {value : CredentialValue}

theorem Replaced.sameAt {temporary name : FileName} (h : Replaced files owner id value temporary s)
    (hne : name ≠ id.value) : SameAt name files s.files := by
  obtain ⟨n, node, hfresh, -, -, -, hfiles⟩ := h.file
  obtain ⟨found, hopened⟩ := h.opened
  rw [hfiles]
  exact hfresh.sameAt_renamed hopened hne

theorem Replaced.contents {temporary : FileName} (h : Replaced files owner id value temporary s) :
    s.files.contents id = some value.bytes := by
  obtain ⟨n, node, -, hbytes, -, -, hfiles⟩ := h.file
  have hentry : ((files.create temporary n node).rename temporary id.value n).entries[id.value]? = some n :=
    BTreeMap.find_insert_self _ _ _
  rw [Files.contents, hfiles, hentry]
  simp [Files.create, Files.rename, hbytes]

theorem Performed.load_files {outcome : Outcome CredentialStoreError (Option CredentialValue)}
    (h : Performed store files (.load id outcome log) after) :
    after = files ∧ ∀ value, outcome = .returned value → files.loaded store.ownerUserId id = .ok value := by
  cases h with
  | load hruns =>
    obtain ⟨hreads, hsays⟩ := load_finds id ⟨files, []⟩ rfl outcome _ hruns
    refine ⟨hreads.1, ?_⟩
    rintro value rfl
    exact hsays

theorem Performed.store_ends {outcome : Outcome CredentialStoreError Unit}
    (h : Performed store files (.store id value outcome log) after)
    (hapart : Apart used (.store id value outcome log)) :
    StoreEnds files store.ownerUserId id value outcome ⟨after, log⟩ := by
  cases h with
  | store hruns =>
    refine storeCredential_meets id value files outcome _ hruns fun name hname => ?_
    exact hapart.names name true hname id hapart.id_used

theorem Performed.delete_ends {outcome : Outcome CredentialStoreError Bool}
    (h : Performed store files (.delete id outcome log) after) :
    DeleteEnds files store.ownerUserId id outcome ⟨after, log⟩ := by
  cases h with
  | delete hruns => exact delete_meets id files outcome _ hruns

/-- **An operation** leaves every other identifier alone. -/
theorem Performed.sameAt (h : Performed store files record after) (hapart : Apart used record)
    (hused : used id) (hne : id ≠ record.id) : SameAt id.value files after := by
  have hvalue : id.value ≠ record.id.value := credentialId_value_ne hne
  cases record with
  | load id' outcome log =>
    obtain ⟨rfl, -⟩ := h.load_files
    exact .refl _ _
  | store id' value outcome log =>
    rcases h.store_ends hapart with hundone | ⟨temporary, hreplaced⟩
    · obtain ⟨stopped, hundone, -⟩ := hundone.undone
      exact hundone.sameAt fun temporary hcreated => (hapart.names temporary true hcreated id hused).symm
    · exact hreplaced.sameAt hvalue
  | delete id' outcome log =>
    rcases h.delete_ends with ⟨hfiles, -⟩ | ⟨hfiles, -, n, hopened⟩
    · obtain rfl : after = files := hfiles
      exact .refl _ _
    · obtain rfl : after = files.unlink id'.value := hfiles
      exact hopened.sameAt_unlink hvalue

/-- **An operation** makes of its own credential what its log says. -/
theorem Performed.contents (h : Performed store files record after) (hapart : Apart used record)
    (hused : used id) : after.contents id = (record.settles id).getD (files.contents id) := by
  by_cases hid : id = record.id
  · subst hid
    cases record with
    | load id' outcome log =>
      obtain ⟨rfl, -⟩ := h.load_files
      rfl
    | store id' value outcome log =>
      rcases h.store_ends hapart with hundone | ⟨temporary, hreplaced⟩
      · obtain ⟨stopped, hundone, -⟩ := hundone.undone
        have hnone : ¬ (id' = id' ∧ renames id' log = true) := by
          rintro ⟨-, hrenames⟩
          obtain ⟨source, hmem⟩ := renames_iff.mp hrenames
          exact hundone.unrenamed source id'.value hmem
        show after.contents id' = (if id' = id' ∧ renames id' log = true then _ else _ : Option _).getD _
        rw [if_neg hnone]
        exact (hundone.sameAt fun temporary hcreated =>
          (hapart.names temporary true hcreated id' hused).symm).contents
      · have hrenamed : id' = id' ∧ renames id' log = true :=
          ⟨rfl, renames_iff.mpr ⟨temporary, hreplaced.renamed⟩⟩
        show after.contents id' = (if id' = id' ∧ renames id' log = true then _ else _ : Option _).getD _
        rw [if_pos hrenamed]
        exact hreplaced.contents
    | delete id' outcome log =>
      show after.contents id' = (if id' = id' ∧ unlinks id' log = true then _ else _ : Option _).getD _
      rcases h.delete_ends with ⟨hfiles, hkept, -⟩ | ⟨hfiles, hremoved, -⟩
      · rw [if_neg fun hboth => hkept (unlinks_iff.mp hboth.2)]
        obtain rfl : after = files := hfiles
        rfl
      · rw [if_pos ⟨rfl, unlinks_iff.mpr hremoved⟩]
        obtain rfl : after = files.unlink id'.value := hfiles
        show (files.entries.erase id'.value)[id'.value]?.map _ = none
        rw [BTreeMap.find_erase_self]
        rfl
  · have hnone : record.settles id = none := by
      cases record with
      | load => rfl
      | store id' => exact if_neg fun hboth => hid hboth.1.symm
      | delete id' => exact if_neg fun hboth => hid hboth.1.symm
    rw [hnone]
    exact (h.sameAt hapart hused hid).contents

/-- **A session** holds of each identifier what its last effective rename or unlink has left. -/
theorem Session.contents (h : Session store initial history files)
    (hapart : ∀ record ∈ history, Apart used record) (hused : used id) :
    files.contents id = held (initial.contents id) history id := by
  induction h with
  | start => rfl
  | step _ hperformed ih =>
    have hlast := hapart _ (List.mem_append_right _ (List.mem_singleton_self _))
    rw [hperformed.contents hlast hused, ih fun record hrecord => hapart record (List.mem_append_left _ hrecord),
      held, held, List.foldl_append]
    rfl

/-! ## What a load returns, without faults -/

theorem exists_unlinked (files : Files) : ∃ n, ∀ name : FileName, files.entries[name]? ≠ some n := by
  obtain ⟨n, hn⟩ := Infinite.exists_notMem_finset (files.entries.toList.map Prod.snd).toFinset
  refine ⟨n, fun name hentry => hn ?_⟩
  rw [List.mem_toFinset]
  exact List.mem_map.mpr ⟨(name, n), (BTreeMap.mem_toList _ _ _).mpr hentry, rfl⟩

theorem exists_behaves (files : Files) (call : SystemCall) : ∃ reply after, Behaves files call reply after := by
  cases call with
  | fstatDirectory => exact ⟨_, _, .fstatDirectory⟩
  | openRead name =>
    rcases hentry : files.entries[name]? with _ | n
    · exact ⟨_, _, .openMissing hentry⟩
    · by_cases hlink : files.IsType n linkType
      · exact ⟨_, _, .openLink hentry hlink⟩
      · exact ⟨_, _, .openRead hentry hlink⟩
  | getrandom => exact ⟨_, _, .getrandom (List.length_replicate (n := 16) (a := (0 : UInt8)))⟩
  | openCreate name =>
    rcases hentry : files.entries[name]? with _ | n
    · obtain ⟨n, hunlinked⟩ := exists_unlinked files
      have hcreate : Behaves files (.openCreate name) (.ok n) (files.create name n ⟨regularType, 0, 0, []⟩) :=
        .openCreate hentry hunlinked (by decide)
      exact ⟨_, _, hcreate⟩
    · exact ⟨_, _, .openTaken hentry⟩
  | fchmod n mode => exact ⟨_, _, .fchmod⟩
  | fstat n => exact ⟨_, _, .fstat⟩
  | write n position bytes => exact ⟨_, _, .write (Nat.zero_le _)⟩
  | fsync n => exact ⟨_, _, .fsync⟩
  | read n position limit => exact ⟨_, _, .read le_rfl id⟩
  | renameat source target =>
    rcases hsource : files.entries[source]? with _ | n
    · exact ⟨_, _, .renameMissing hsource⟩
    rcases htarget : files.entries[target]? with _ | m
    · exact ⟨_, _, .renameat hsource fun m hm => absurd (htarget.symm.trans hm) nofun⟩
    by_cases hsame : m = n
    · subst hsame
      exact ⟨_, _, .renameSame hsource htarget⟩
    by_cases hdirectory : files.IsType m directoryType
    · exact ⟨_, _, .renameDirectory hsource htarget hsame hdirectory⟩
    · refine ⟨_, _, .renameat hsource fun k hk => ?_⟩
      obtain rfl := Option.some.inj (htarget.symm.trans hk)
      exact ⟨hsame, hdirectory⟩
  | unlinkat name =>
    rcases hentry : files.entries[name]? with _ | n
    · exact ⟨_, _, .unlinkMissing hentry⟩
    · by_cases hdirectory : files.IsType n directoryType
      · exact ⟨_, _, .unlinkDirectory hentry hdirectory⟩
      · exact ⟨_, _, .unlinkat hentry hdirectory⟩
  | fsyncDirectory => exact ⟨_, _, .fsyncDirectory⟩

def outcomeOf {α : Type} : Except CredentialStoreError α → Outcome CredentialStoreError α
  | .ok value => .returned value
  | .error error => .failed error

/-- **Without faults a load returns what the files hold**, and nothing else. -/
theorem loads_iff {outcome : Outcome CredentialStoreError (Option CredentialValue)} :
    Loads store files id outcome ↔ outcome = outcomeOf (files.loaded store.ownerUserId id) := by
  have hends : ∀ {outcome}, Loads store files id outcome →
      outcome = outcomeOf (files.loaded store.ownerUserId id) := by
    rintro outcome ⟨hended, s, hruns⟩
    obtain ⟨-, hsays⟩ := load_finds id ⟨files, []⟩ rfl outcome s hruns
    cases outcome with
    | returned value => rw [show files.loaded store.ownerUserId id = .ok value from hsays]; rfl
    | failed error =>
      rw [show files.loaded store.ownerUserId id = .error error from hsays.resolve_left fun h => h]
      rfl
    | stopped => exact absurd rfl hended
  refine ⟨hends, ?_⟩
  rintro rfl
  have htotal : ∀ (s : Machine) (call : SystemCall), ∃ reply s', Answers False s call reply s' := by
    rintro ⟨files, log⟩ call
    obtain ⟨reply, after, hbehaves⟩ := exists_behaves files call
    exact ⟨reply, _, .works hbehaves⟩
  obtain ⟨outcome, s, hruns, hended⟩ := exists_run htotal (store.load id) ⟨files, []⟩
  have hloads : Loads store files id outcome := ⟨hended, s, hruns⟩
  rw [← hends hloads]
  exact hloads

theorem contents_of_loaded {value : Option CredentialValue} (h : files.loaded owner id = .ok value) :
    files.contents id = value.map CredentialValue.bytes := by
  unfold Files.loaded at h
  rw [Files.contents]
  split_ifs at h
  rcases hentry : files.entries[id.value]? with _ | n
  · rw [hentry] at h
    cases h
    rfl
  rw [hentry] at h
  dsimp only at h
  split_ifs at h
  split at h
  · next found hfound =>
    cases h
    unfold CredentialValue.new at hfound
    split_ifs at hfound
    cases hfound
    rfl
  · cases h

/-- **Credential files are replaced atomically.**  After any sequence of operations, whatever calls failed and
    wherever the process stopped, a load that succeeds returns what the last effective rename or unlink has left;
    and of the next operation: no other identifier sees it, a store that returned is what is loaded, a credential
    that was deleted is not there, and a store that ended leaves no file but one it could not unlink. -/
theorem credential_files_atomic (store : UnixFileCredentialStore) (used : CredentialId → Prop)
    {initial files after : Files} {history : List Record} {record : Record}
    (hsession : Session store initial history files) (hhistory : ∀ record ∈ history, Apart used record)
    (hperformed : Performed store files record after) (hrecord : Apart used record) :
    (∀ id value log after', used id → Performed store files (.load id (.returned value) log) after' →
      value.map CredentialValue.bytes = held (initial.contents id) history id) ∧
    (∀ id, used id → id ≠ record.id → ∀ outcome, Loads store after id outcome ↔ Loads store files id outcome) ∧
    (∀ id value log, record = .store id value (.returned ()) log →
      ∀ outcome, Loads store after id outcome ↔ outcome = .returned (some value)) ∧
    (∀ id log, record = .delete id (.returned true) log →
      ∀ outcome, Loads store after id outcome ↔ outcome = .returned none) ∧
    (∀ id value outcome log, record = .store id value outcome log → outcome ≠ .stopped →
      ∀ name : FileName, name ≠ id.value → after.entries[name]? = files.entries[name]? ∨
        (files.entries[name]? = none ∧ (.unlinkat name, false) ∈ log)) := by
  refine ⟨?_, ?_, ?_, ?_, ?_⟩
  · intro id value log after' hused hload
    rw [← hsession.contents hhistory hused]
    exact (contents_of_loaded (hload.load_files.2 value rfl)).symm
  · intro id hused hne outcome
    rw [loads_iff, loads_iff, (hperformed.sameAt hrecord hused hne).loaded]
  · rintro id value log rfl outcome
    obtain ⟨temporary, hreplaced⟩ := (hperformed.store_ends hrecord).resolve_left fun h => h
    rw [loads_iff, hreplaced.loaded]
    rfl
  · rintro id log rfl outcome
    rcases hperformed.delete_ends with ⟨-, -, hne⟩ | ⟨hfiles, -, n, hopened⟩
    · exact absurd rfl hne
    · obtain rfl : after = files.unlink id.value := hfiles
      rw [loads_iff, hopened.loaded_unlink]
      rfl
  · rintro id value outcome log rfl hended name hname
    rcases hperformed.store_ends hrecord with hundone | ⟨temporary, hreplaced⟩
    · obtain ⟨stopped, hundone, hstopped⟩ := hundone.undone
      exact (hundone.remains name).imp_right fun ⟨hunused, hleft⟩ =>
        ⟨hunused, hleft.resolve_left fun h => hended (hstopped h)⟩
    · exact .inl (hreplaced.sameAt hname).entry

def sampleId : CredentialId := ⟨"key".toList, by decide⟩
def sampleValue : CredentialValue := ⟨[7], by decide, by decide⟩

/-- A directory that holds a credential. -/
def sampleFiles : Files :=
  ⟨⟨0o040700, 1000, 2, 0⟩, (∅ : BTreeMap FileName Nat).insert sampleId.value 0, fun _ => ⟨0o100600, 1000, 0, [1]⟩⟩

def sampleStore : UnixFileCredentialStore := ⟨1000⟩

def sampleName (byte : UInt8) : FileName := UnixFileCredentialStore.nameOf (List.replicate 16 byte)

/-- The calls that open the credential that is there. -/
def openingLog : List (SystemCall × Bool) :=
  [(.fstatDirectory, true), (.openRead sampleId.value, true), (.fstat 0, true), (.getrandom, true)]

/-- A store that stops before it has written anything. -/
def interruptedLog : List (SystemCall × Bool) :=
  openingLog ++ [(.openCreate (sampleName 0), true), (.fchmod 1 credentialMode, true), (.fstat 1, true)]

/-- A store that first draws the name the interrupted one has left. -/
def replacingLog : List (SystemCall × Bool) :=
  openingLog ++ [(.openCreate (sampleName 0), false), (.getrandom, true), (.openCreate (sampleName 1), true),
    (.fchmod 2 credentialMode, true), (.fstat 2, true), (.write 2 0 [7], true), (.fsync 2, true),
    (.renameat (sampleName 1) sampleId.value, true), (.fsyncDirectory, true)]

/-- What the interrupted store leaves. -/
def interruptedFiles : Files :=
  (sampleFiles.create (sampleName 0) 1 ⟨0o100644, 1000, 0, []⟩).setNode 1 ⟨0o100600, 1000, 0, []⟩

theorem sample_entries (name : FileName) :
    sampleFiles.entries[name]? = if sampleId.value = name then some 0 else none := by
  show (Std.TreeMap.insert _ _ _)[name]? = _
  rw [BTreeMap.find_insert]
  split_ifs <;> rfl

theorem interrupted_entries (name : FileName) : interruptedFiles.entries[name]? =
    if sampleName 0 = name then some 1 else if sampleId.value = name then some 0 else none := by
  show (Std.TreeMap.insert sampleFiles.entries _ _)[name]? = _
  rw [BTreeMap.find_insert, sample_entries]
  split_ifs <;> rfl

theorem sample_store_stops : Runs (Answers True) ⟨sampleFiles, []⟩
    (sampleStore.storeCredential sampleId sampleValue) .stopped ⟨interruptedFiles, interruptedLog⟩ := by
  have hcreate : Behaves sampleFiles (.openCreate (sampleName 0)) (.ok 1)
      (sampleFiles.create (sampleName 0) 1 ⟨0o100644, 1000, 0, []⟩) := by
    refine .openCreate (sample_entries _) (fun other => ?_) (by decide)
    rw [sample_entries]
    split <;> simp
  refine .call (.works .fstatDirectory) ?_
  refine .call (.works (.openRead (n := 0) (sample_entries _) (by decide))) ?_
  refine .call (.works .fstat) ?_
  refine .call (.works (.getrandom (List.length_replicate (n := 16) (a := (0 : UInt8))))) ?_
  refine .call (.works hcreate) ?_
  refine .call (.works .fchmod) ?_
  refine .call (.works .fstat) ?_
  exact .stopped _ _

theorem sample_store_replaces : ∃ after, Runs (Answers True) ⟨interruptedFiles, []⟩
    (sampleStore.storeCredential sampleId sampleValue) (.returned ()) ⟨after, replacingLog⟩ := by
  have hcreate : Behaves interruptedFiles (.openCreate (sampleName 1)) (.ok 2)
      (interruptedFiles.create (sampleName 1) 2 ⟨0o100644, 1000, 0, []⟩) := by
    refine .openCreate (interrupted_entries _) (fun other => ?_) (by decide)
    rw [interrupted_entries]
    split_ifs <;> simp
  have hwrite : ∀ files, Behaves files (.write 2 0 [7]) (.ok 1)
      (files.setNode 2 { files.nodes 2 with bytes := overwrite (files.nodes 2).bytes 0 [7] }) :=
    fun _ => .write (by decide)
  have hrename : ∀ files : Files, files.entries = interruptedFiles.entries.insert (sampleName 1) 2 →
      ¬ files.IsType 0 directoryType → Behaves files (.renameat (sampleName 1) sampleId.value) (.ok ())
        (files.rename (sampleName 1) sampleId.value 2) := by
    intro files hentries hregular
    refine .renameat ?_ fun m hm => ?_
    · rw [hentries]
      exact BTreeMap.find_insert_self _ _ _
    · rw [hentries, BTreeMap.find_insert_ne _ _ (by decide), interrupted_entries] at hm
      obtain rfl : 0 = m := Option.some.inj hm
      exact ⟨by decide, hregular⟩
  apply Exists.intro
  refine .call (.works .fstatDirectory) ?_
  refine .call (.works (.openRead (n := 0) (interrupted_entries _) (by decide))) ?_
  refine .call (.works .fstat) ?_
  refine .call (.works (.getrandom (List.length_replicate (n := 16) (a := (0 : UInt8))))) ?_
  refine .call (.works (.openTaken (n := 1) (interrupted_entries _))) ?_
  refine .call (.works (.getrandom (List.length_replicate (n := 16) (a := (1 : UInt8))))) ?_
  refine .call (.works hcreate) ?_
  refine .call (.works .fchmod) ?_
  refine .call (.works .fstat) ?_
  show Runs _ _ ((UnixFileCredentialStore.writeAll 2 0 [7]).bind _ |>.onFailure _ |>.bind _) _ _
  rw [UnixFileCredentialStore.writeAll]
  refine .call (.works (hwrite _)) ?_
  show Runs _ _ ((UnixFileCredentialStore.writeAll 2 1 []).bind _ |>.onFailure _ |>.bind _) _ _
  rw [UnixFileCredentialStore.writeAll]
  refine .call (.works .fsync) ?_
  refine .call (.works (hrename _ rfl (by decide))) ?_
  refine .call (.works .fsyncDirectory) ?_
  exact .done _ _

/-- After a store that was interrupted the old credential is loaded, and after the next one the new. -/
theorem replacement_after_interruption : ∃ after,
    Performed sampleStore interruptedFiles (.store sampleId sampleValue (.returned ()) replacingLog) after ∧
      (∀ value log after', Performed sampleStore interruptedFiles (.load sampleId (.returned value) log) after' →
        value.map CredentialValue.bytes = some [1]) ∧
      ∀ outcome, Loads sampleStore after sampleId outcome ↔ outcome = .returned (some sampleValue) := by
  obtain ⟨after, hruns⟩ := sample_store_replaces
  have hsession : Session sampleStore sampleFiles [.store sampleId sampleValue .stopped interruptedLog]
      interruptedFiles := .step .start (.store sample_store_stops)
  have hapart : ∀ outcome log, (log = interruptedLog ∨ log = replacingLog) →
      Apart (· = sampleId) (.store sampleId sampleValue outcome log) := by
    refine fun outcome log hlog => ⟨rfl, ?_⟩
    rintro name effect hmem _ rfl
    have hname : name = sampleName 0 ∨ name = sampleName 1 := by
      rcases hlog with rfl | rfl
      · simp_all [Record.log, interruptedLog, openingLog]
      · have hdrawn : (name = sampleName 0 ∧ effect = false) ∨ (name = sampleName 1 ∧ effect = true) := by
          simpa [Record.log, replacingLog, openingLog] using hmem
        exact hdrawn.imp And.left And.left
    rcases hname with rfl | rfl <;> decide
  obtain ⟨hloaded, -, hstored, -⟩ := credential_files_atomic sampleStore (· = sampleId) hsession
    (by simpa using hapart _ _ (.inl rfl)) (.store hruns) (hapart _ _ (.inr rfl))
  exact ⟨after, .store hruns, fun value log after' => hloaded sampleId value log after' rfl,
    hstored _ _ _ rfl⟩

end

end Bondry.Credential
