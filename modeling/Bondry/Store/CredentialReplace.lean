/-
  REPLACING CREDENTIALS.

  A store makes a file under a random name (`Temporary`), fills it and renames it.  Wherever a call fails or the
  process stops, the credential is either untouched (`Undone`) or replaced by a private file with the whole value
  (`Replaced`): `storeCredential_meets`.  A delete unlinks what it has found or changes nothing (`delete_meets`).
-/
import Bondry.Store.CredentialLoad

namespace Bondry.Credential

open Program

variable {faulty : Prop} {s s' : Machine}

/-! ## What no program changes, and what only a rename does -/

theorem log_grows {α : Type} (program : Sys α) (s : Machine) :
    Meets (Answers faulty) s program fun _ s' => ∀ entry ∈ s.log, entry ∈ s'.log := by
  refine program.only_always.frame (fun s s' => ∀ entry ∈ s.log, entry ∈ s'.log) (fun _ _ h => h) ?_ s
  intro s call reply s' s'' _ hstep hgrows entry hentry
  refine hgrows entry ?_
  cases hstep <;> exact List.mem_append_left _ hentry

/-- Any call but a rename. -/
def SystemCall.Stays : SystemCall → Prop
  | .renameat .. => False
  | _ => True

/-- No rename has succeeded. -/
def Unrenamed (log : List (SystemCall × Bool)) : Prop := ∀ source target, (.renameat source target, true) ∉ log

theorem Unrenamed.concat {log : List (SystemCall × Bool)} (h : Unrenamed log) {call : SystemCall} {effect : Bool}
    (hcall : call.Stays ∨ effect = false) : Unrenamed (log ++ [(call, effect)]) := by
  intro source target hmem
  rcases List.mem_append.mp hmem with hmem | hmem
  · exact h source target hmem
  · cases List.mem_singleton.mp hmem
    rcases hcall with hcall | hcall
    · exact hcall
    · cases hcall

theorem Reads.unrenamed (h : Reads s s') (hlog : Unrenamed s.log) : Unrenamed s'.log := by
  obtain ⟨-, extra, hextra, hpassive⟩ := h
  intro source target hmem
  rw [hextra] at hmem
  rcases List.mem_append.mp hmem with hmem | hmem
  · exact hlog source target hmem
  · exact hpassive _ hmem

/-! ## Calls that change the directory -/

/-- A name that is free and a file that has none. -/
structure Fresh (files : Files) (name : FileName) (n : Nat) : Prop where
  unused : files.entries[name]? = none
  unlinked : ∀ other : FileName, files.entries[other]? ≠ some n

theorem Answers.openCreate {name : FileName} {reply : Except Errno Descriptor}
    (h : Answers faulty s (.openCreate name) reply s') :
    (∃ n mode uid, reply = .ok n ∧ Fresh s.files name n ∧ mode &&& typeBits = regularType ∧
        s' = ⟨s.files.create name n ⟨mode, uid, 0, []⟩, s.log ++ [(.openCreate name, true)]⟩) ∨
      ∃ errno, reply = .error errno ∧ s' = ⟨s.files, s.log ++ [(.openCreate name, false)]⟩ := by
  cases h with
  | works hbehaves =>
    cases hbehaves with
    | openCreate hunused hunlinked hregular =>
      exact .inl ⟨_, _, _, rfl, ⟨hunused, hunlinked⟩, hregular, rfl⟩
    | openTaken => exact .inr ⟨_, rfl, rfl⟩
  | fails => exact .inr ⟨_, rfl, rfl⟩
  | failsLate _ hlate => exact hlate.elim

variable {n : Nat} {reply : Except Errno Unit}

theorem Answers.fchmod {mode : Nat} (h : Answers faulty s (.fchmod n mode) reply s') :
    (reply = .ok () ∧ s' = ⟨s.files.setNode n { s.files.nodes n with
          mode := ((s.files.nodes n).mode &&& typeBits) ||| mode }, s.log ++ [(.fchmod n mode, true)]⟩) ∨
      ∃ errno, reply = .error errno ∧ s' = ⟨s.files, s.log ++ [(.fchmod n mode, false)]⟩ := by
  cases h with
  | works hbehaves =>
    cases hbehaves
    exact .inl ⟨rfl, rfl⟩
  | fails => exact .inr ⟨_, rfl, rfl⟩
  | failsLate _ hlate => exact hlate.elim

theorem Answers.write {position : Nat} {bytes : Bytes} {reply : Except Errno Nat}
    (h : Answers faulty s (.write n position bytes) reply s') :
    ∃ written effect, s' = ⟨s.files.setNode n { s.files.nodes n with bytes := written },
        s.log ++ [(.write n position bytes, effect)]⟩ ∧
      ∀ count, reply = .ok count → count ≤ bytes.length ∧
        written = overwrite (s.files.nodes n).bytes position (bytes.take count) := by
  cases h with
  | works hbehaves =>
    cases hbehaves with
    | write hcount =>
      refine ⟨_, _, rfl, ?_⟩
      rintro _ ⟨⟩
      exact ⟨hcount, rfl⟩
  | fails =>
    rename_i files log errno _ _
    refine ⟨(files.nodes n).bytes, false, ?_, nofun⟩
    show Machine.mk files _ = ⟨{ files with nodes := Function.update files.nodes n (files.nodes n) }, _⟩
    rw [Function.update_eq_self]
  | failsLate _ _ hbehaves =>
    cases hbehaves
    exact ⟨_, _, rfl, nofun⟩

theorem Answers.unlinkat {name : FileName} (h : Answers faulty s (.unlinkat name) reply s') :
    ((∃ n, s.files.entries[name]? = some n) ∧ s' = ⟨s.files.unlink name, s.log ++ [(.unlinkat name, true)]⟩) ∨
      ((∃ errno, reply = .error errno) ∧ s' = ⟨s.files, s.log ++ [(.unlinkat name, false)]⟩) := by
  cases h with
  | works hbehaves =>
    cases hbehaves with
    | unlinkat hentry => exact .inl ⟨⟨_, hentry⟩, rfl⟩
    | unlinkDirectory => exact .inr ⟨⟨_, rfl⟩, rfl⟩
    | unlinkMissing => exact .inr ⟨⟨_, rfl⟩, rfl⟩
  | fails => exact .inr ⟨⟨_, rfl⟩, rfl⟩
  | failsLate _ _ hbehaves =>
    cases hbehaves with
    | unlinkat hentry => exact .inl ⟨⟨_, hentry⟩, rfl⟩

theorem Answers.renameat {source target : FileName} (h : Answers faulty s (.renameat source target) reply s')
    (hsource : s.files.entries[source]? = some n) (htarget : s.files.entries[target]? ≠ some n) :
    s' = ⟨s.files.rename source target n, s.log ++ [(.renameat source target, true)]⟩ ∨
      ((∃ errno, reply = .error errno) ∧ s' = ⟨s.files, s.log ++ [(.renameat source target, false)]⟩) := by
  cases h with
  | works hbehaves =>
    cases hbehaves with
    | renameat hentry =>
      obtain rfl := Option.some.inj (hsource.symm.trans hentry)
      exact .inl rfl
    | renameSame hentry hsame =>
      obtain rfl := Option.some.inj (hsource.symm.trans hentry)
      exact absurd hsame htarget
    | renameDirectory => exact .inr ⟨⟨_, rfl⟩, rfl⟩
    | renameMissing => exact .inr ⟨⟨_, rfl⟩, rfl⟩
  | fails => exact .inr ⟨⟨_, rfl⟩, rfl⟩
  | failsLate _ _ hbehaves =>
    cases hbehaves with
    | renameat hentry =>
      obtain rfl := Option.some.inj (hsource.symm.trans hentry)
      exact .inl rfl
    | renameSame hentry hsame =>
      obtain rfl := Option.some.inj (hsource.symm.trans hentry)
      exact absurd hsame htarget

/-! ## How a store can end -/

/-- Nothing was replaced: there is no new file, or one that a stop or a failed unlink has left, or it is removed
    again. -/
inductive Undone (files : Files) (stopped : Prop) : Machine → Prop where
  | untouched {log : List (SystemCall × Bool)} : Unrenamed log → Undone files stopped ⟨files, log⟩
  | leaves {log : List (SystemCall × Bool)} {name : FileName} {n : Nat} {node : FileNode} :
      Fresh files name n → Unrenamed log → (.openCreate name, true) ∈ log →
      (stopped ∨ (.unlinkat name, false) ∈ log) → Undone files stopped ⟨files.create name n node, log⟩
  | removed {log : List (SystemCall × Bool)} {name : FileName} {n : Nat} {node : FileNode} :
      Fresh files name n → Unrenamed log → (.openCreate name, true) ∈ log →
      Undone files stopped ⟨(files.create name n node).unlink name, log⟩

/-- A run that has not returned and replaced nothing. -/
def UndoneBy {α : Type} (files : Files) : Outcome CredentialStoreError α → Machine → Prop
  | .returned _, _ => False
  | .failed _, s => Undone files False s
  | .stopped, s => Undone files True s

/-- A file under a random name, as far as it has come. -/
structure Temporary (files : Files) (name : FileName) (n : Nat) (node : FileNode) (s : Machine) : Prop where
  fresh : Fresh files name n
  files_eq : s.files = files.create name n node
  created : (.openCreate name, true) ∈ s.log
  unrenamed : Unrenamed s.log

section

variable {files : Files} {name : FileName} {n : Nat} {node : FileNode} {α : Type}

theorem Temporary.stopped (h : Temporary files name n node s) : Undone files True s := by
  obtain ⟨hfresh, hfiles, hcreated, hunrenamed⟩ := h
  obtain ⟨current, log⟩ := s
  subst hfiles
  exact .leaves hfresh hunrenamed hcreated (.inl trivial)

theorem Temporary.reads (h : Temporary files name n node s) (hreads : Reads s s') :
    Temporary files name n node s' := by
  obtain ⟨hfiles, extra, hlog, -⟩ := id hreads
  exact ⟨h.fresh, hfiles.trans h.files_eq, by rw [hlog]; exact List.mem_append_left _ h.created,
    hreads.unrenamed h.unrenamed⟩

theorem Temporary.cleanup (h : Temporary files name n node s) (error : CredentialStoreError) :
    Meets (Answers faulty) s ((attempt (.unlinkat name)).bind fun _ => (.fail error : Sys α)) (UndoneBy files) := by
  obtain ⟨hfresh, hfiles, hcreated, hunrenamed⟩ := id h
  obtain ⟨current, log⟩ := s
  subst hfiles
  refine meets_call h.stopped fun reply s' hreply => ?_
  rcases hreply.unlinkat with ⟨-, rfl⟩ | ⟨-, rfl⟩
  · have hremoved : ∀ stopped, Undone files stopped
        ⟨(files.create name n node).unlink name, log ++ [(.unlinkat name, true)]⟩ := fun stopped =>
      .removed hfresh (hunrenamed.concat (.inl trivial)) (List.mem_append_left _ hcreated)
    exact meets_fail (hremoved False) (hremoved True)
  · have hleft : ∀ stopped, Undone files stopped
        ⟨files.create name n node, log ++ [(.unlinkat name, false)]⟩ := fun stopped =>
      .leaves hfresh (hunrenamed.concat (.inl trivial)) (List.mem_append_left _ hcreated) (.inr (by simp))
    exact meets_fail (hleft False) (hleft True)

theorem Temporary.concat (h : Temporary files name n node s) {call : SystemCall} {effect : Bool}
    (hcall : call.Stays ∨ effect = false) : Temporary files name n node ⟨s.files, s.log ++ [(call, effect)]⟩ :=
  ⟨h.fresh, h.files_eq, List.mem_append_left _ h.created, h.unrenamed.concat hcall⟩

theorem Temporary.setNode (h : Temporary files name n node s) {node' : FileNode} {call : SystemCall} {effect : Bool}
    (hs' : s' = ⟨s.files.setNode n node', s.log ++ [(call, effect)]⟩) (hcall : call.Stays) :
    Temporary files name n node' s' := by
  subst hs'
  refine ⟨h.fresh, ?_, List.mem_append_left _ h.created, h.unrenamed.concat (.inl hcall)⟩
  rw [h.files_eq]
  simp [Files.setNode, Files.create]

theorem Temporary.nodes_eq (h : Temporary files name n node s) : s.files.nodes n = node := by
  rw [h.files_eq]
  exact Function.update_self n node files.nodes

variable {store : UnixFileCredentialStore}

open UnixFileCredentialStore

theorem overwrite_end (old bytes : Bytes) : overwrite old old.length bytes = old ++ bytes := by
  simp [overwrite]

theorem writeAll_meets (bytes : Bytes) : ∀ {node : FileNode} {s : Machine}, Temporary files name n node s →
    Meets (Answers faulty) s (writeAll n node.bytes.length bytes) fun outcome s' =>
      ∃ written, Temporary files name n { node with bytes := written } s' ∧
        (outcome = .returned () → written = node.bytes ++ bytes) := by
  induction hlength : bytes.length using Nat.strong_induction_on generalizing bytes with
  | _ length ih =>
    intro node s h
    rw [writeAll]
    split_ifs with hempty
    · subst hempty
      exact meets_done ⟨node.bytes, h, fun _ => by simp⟩ ⟨node.bytes, h, nofun⟩
    refine meets_call ⟨node.bytes, h, nofun⟩ fun (reply : Except Errno Nat) s' hreply => ?_
    obtain ⟨written, effect, hs', hcount⟩ := hreply.write
    rw [h.nodes_eq] at hs' hcount
    have htemporary : Temporary files name n { node with bytes := written } s' := h.setNode hs' trivial
    rcases reply with errno | count
    · exact meets_fail ⟨written, htemporary, nofun⟩ ⟨written, htemporary, nofun⟩
    obtain ⟨hle, hwritten⟩ := hcount count rfl
    rw [overwrite_end] at hwritten
    show Meets _ s' (if hzero : count = 0 then _ else _) _
    split_ifs with hzero
    · exact meets_fail ⟨written, htemporary, nofun⟩ ⟨written, htemporary, nofun⟩
    have hposition : node.bytes.length + count = written.length := by
      rw [hwritten, List.length_append, List.length_take, min_eq_left hle]
    rw [hposition]
    refine (ih (bytes.drop count).length (by rw [List.length_drop]; omega) (bytes.drop count) rfl
      htemporary).mono fun outcome s'' hend => ?_
    obtain ⟨final, hfinal, hreturned⟩ := hend
    refine ⟨final, hfinal, fun houtcome => ?_⟩
    rw [hreturned houtcome, hwritten, List.append_assoc, List.take_append_drop]

/-- How `create_temporary` ends: undone, or with an empty private file. -/
def CreateEnds (files : Files) (owner : Nat) (outcome : Outcome CredentialStoreError (FileName × Descriptor))
    (s : Machine) : Prop :=
  UndoneBy files outcome s ∨ ∃ name n node, outcome = .returned (name, n) ∧
    Temporary files name n node s ∧ node.bytes = [] ∧ node.mode &&& typeBits = regularType ∧
    PrivateFile owner (s.files.status n)

theorem temporaryName_finds : Finds faulty files temporaryName (fun _ => True) (fun _ => True) :=
  finds_bind (finds_perform (by exact trivial) (fun _ _ => trivial) fun _ _ => trivial)
    (fun _ _ => finds_done trivial) fun _ h => h

theorem prepareTemporary_meets {mode uid : Nat} (h : Temporary files name n ⟨mode, uid, 0, []⟩ s)
    (hregular : mode &&& typeBits = regularType) :
    Meets (Answers faulty) s (store.prepareTemporary name n) (CreateEnds files store.ownerUserId) := by
  refine meets_call (.inl h.stopped) fun reply s₁ hreply => ?_
  rcases hreply.fchmod with ⟨rfl, hs₁⟩ | ⟨errno, rfl, rfl⟩
  · rw [h.nodes_eq, hregular] at hs₁
    have htemporary : Temporary files name n ⟨regularType ||| credentialMode, uid, 0, []⟩ s₁ :=
      h.setNode hs₁ trivial
    have hchecked : Finds faulty s₁.files (store.validateCredentialMetadata n)
        (fun status => status = s₁.files.status n ∧ PrivateFile store.ownerUserId (s₁.files.status n))
        (fun _ => True) := validateCredentialMetadata_finds fun _ => trivial
    show Meets _ s₁ (((store.validateCredentialMetadata n).onFailure (attempt (.unlinkat name))).bind
      fun _ => .done (name, n)) _
    refine meets_bind (meets_onFailure ((hchecked s₁ rfl).mono fun outcome s₂ hend => ?_))
    obtain ⟨hreads, hsays⟩ := hend
    have htemporary₂ := htemporary.reads hreads
    cases outcome with
    | returned status =>
      refine meets_done (.inr ⟨name, n, _, rfl, htemporary₂, rfl, ?_, ?_⟩) (.inl htemporary₂.stopped)
      · show (regularType ||| credentialMode) &&& typeBits = regularType
        decide
      · rw [hreads.1]
        exact hsays.2
    | failed error =>
      refine (htemporary₂.cleanup error).mono fun outcome s₃ hend => ?_
      cases outcome with
      | returned _ => exact hend.elim
      | failed _ => exact .inl hend
      | stopped => exact .inl hend
    | stopped => exact .inl htemporary₂.stopped
  · have htemporary : Temporary files name n ⟨mode, uid, 0, []⟩
        ⟨s.files, s.log ++ [(.fchmod n credentialMode, false)]⟩ := h.concat (.inr rfl)
    exact (htemporary.cleanup _).mono fun _ _ hend => .inl hend

theorem createTemporaryIn_meets (attempts : Nat) : ∀ {s : Machine}, s.files = files → Unrenamed s.log →
    Meets (Answers faulty) s (store.createTemporaryIn attempts) (CreateEnds files store.ownerUserId) := by
  induction attempts with
  | zero =>
    rintro ⟨current, log⟩ rfl hlog
    exact meets_fail (.inl (.untouched hlog)) (.inl (.untouched hlog))
  | succ attempts ih =>
    intro s hs hlog
    refine meets_bind ((temporaryName_finds s hs).mono fun outcome s₁ hend => ?_)
    obtain ⟨hreads, -⟩ := hend
    have hlog₁ := hreads.unrenamed hlog
    have hfiles₁ := hreads.1.trans hs
    obtain ⟨current, log₁⟩ := s₁
    obtain rfl : current = files := hfiles₁
    cases outcome with
    | failed error => exact .inl (.untouched hlog₁)
    | stopped => exact .inl (.untouched hlog₁)
    | returned name =>
      refine meets_call (.inl (.untouched hlog₁)) fun reply s₂ hreply => ?_
      rcases hreply.openCreate with ⟨n, mode, uid, rfl, hfresh, hregular, rfl⟩ | ⟨errno, rfl, rfl⟩
      · have hcreated : Temporary current name n ⟨mode, uid, 0, []⟩
            ⟨current.create name n ⟨mode, uid, 0, []⟩, log₁ ++ [(.openCreate name, true)]⟩ :=
          ⟨hfresh, rfl, by simp, hlog₁.concat (.inl trivial)⟩
        exact prepareTemporary_meets hcreated hregular
      · have hlog₂ : Unrenamed (log₁ ++ [(.openCreate name, false)]) := hlog₁.concat (.inl trivial)
        have hfail : Meets (Answers faulty) ⟨current, log₁ ++ [(.openCreate name, false)]⟩
            (.fail (mapOpenError errno)) (CreateEnds current store.ownerUserId) :=
          meets_fail (.inl (.untouched hlog₂)) (.inl (.untouched hlog₂))
        cases errno <;> first | exact ih rfl hlog₂ | exact hfail

/-- The credential is replaced: the file has the value, is private and has given up its name for the other. -/
structure Replaced (files : Files) (owner : Nat) (id : CredentialId) (value : CredentialValue) (name : FileName)
    (s : Machine) : Prop where
  opened : ∃ found, Opened files owner id found
  name_ne : name ≠ id.value
  created : (.openCreate name, true) ∈ s.log
  renamed : (.renameat name id.value, true) ∈ s.log
  file : ∃ n node, Fresh files name n ∧ node.bytes = value.bytes ∧ node.mode &&& typeBits = regularType ∧
    PrivateFile owner ((files.create name n node).status n) ∧
    s.files = (files.create name n node).rename name id.value n

/-- How a store ends: undone, or with the file replaced. -/
def StoreEnds (files : Files) (owner : Nat) (id : CredentialId) (value : CredentialValue)
    (outcome : Outcome CredentialStoreError Unit) (s : Machine) : Prop :=
  UndoneBy files outcome s ∨ ∃ name, Replaced files owner id value name s

variable {owner : Nat} {id : CredentialId} {value : CredentialValue}

theorem Replaced.keeps (h : Replaced files owner id value name s) (hfiles : s'.files = s.files)
    (hlog : ∀ entry ∈ s.log, entry ∈ s'.log) : Replaced files owner id value name s' where
  opened := h.opened
  name_ne := h.name_ne
  created := hlog _ h.created
  renamed := hlog _ h.renamed
  file := by
    rw [hfiles]
    exact h.file

theorem Replaced.name_free (h : Replaced files owner id value name s) : s.files.entries[name]? = none := by
  obtain ⟨n, node, -, -, -, -, hfiles⟩ := h.file
  rw [hfiles]
  show (((files.entries.insert name n).erase name).insert id.value n)[name]? = none
  rw [BTreeMap.find_insert_ne _ _ (Ne.symm h.name_ne), BTreeMap.find_erase_self]

theorem privateFile_setBytes (h : PrivateFile owner ((files.create name n node).status n)) (bytes : Bytes) :
    PrivateFile owner ((files.create name n { node with bytes := bytes }).status n) := by
  simpa [PrivateFile, Files.status, Files.links, Files.create] using h

theorem fillAndRename_meets (h : Temporary files name n node s) (hname : name ≠ id.value)
    (hempty : node.bytes = []) (hregular : node.mode &&& typeBits = regularType)
    (hprivate : PrivateFile store.ownerUserId (s.files.status n))
    (hopened : ∃ found, Opened files store.ownerUserId id found) :
    Meets (Answers faulty) s (fillAndRename id value name n) fun outcome s' =>
      ((∃ node', Temporary files name n node' s') ∧ outcome ≠ .returned ()) ∨
        Replaced files store.ownerUserId id value name s' := by
  have hwrite : Meets (Answers faulty) s (writeAll n node.bytes.length value.bytes) _ :=
    writeAll_meets value.bytes h
  rw [hempty] at hwrite
  refine meets_bind (hwrite.mono fun outcome s₁ hend => ?_)
  obtain ⟨written, htemporary, hwritten⟩ := hend
  cases outcome with
  | failed error => exact .inl ⟨⟨_, htemporary⟩, nofun⟩
  | stopped => exact .inl ⟨⟨_, htemporary⟩, nofun⟩
  | returned _ =>
    obtain rfl : written = value.bytes := hwritten rfl
    refine meets_call (.inl ⟨⟨_, htemporary⟩, nofun⟩) fun (reply : Except Errno Unit) s₂ hreply => ?_
    have htemporary₂ := htemporary.reads (hreply.passive trivial)
    rcases reply with errno | _
    · exact meets_fail (.inl ⟨⟨_, htemporary₂⟩, nofun⟩) (.inl ⟨⟨_, htemporary₂⟩, nofun⟩)
    refine meets_call (.inl ⟨⟨_, htemporary₂⟩, nofun⟩) fun (reply : Except Errno Unit) s₃ hreply => ?_
    have hsource : s₂.files.entries[name]? = some n := by
      rw [htemporary₂.files_eq]
      exact BTreeMap.find_insert_self _ _ _
    have htarget : s₂.files.entries[id.value]? ≠ some n := by
      rw [htemporary₂.files_eq]
      show (files.entries.insert name n)[id.value]? ≠ some n
      rw [BTreeMap.find_insert_ne _ _ hname]
      exact h.fresh.unlinked id.value
    rcases hreply.renameat hsource htarget with rfl | ⟨⟨errno, rfl⟩, rfl⟩
    · have hreplaced : Replaced files store.ownerUserId id value name
          ⟨s₂.files.rename name id.value n, s₂.log ++ [(.renameat name id.value, true)]⟩ := by
        refine ⟨hopened, hname, List.mem_append_left _ htemporary₂.created, by simp, n,
          { node with bytes := value.bytes }, h.fresh, rfl, hregular, ?_, by rw [htemporary₂.files_eq]⟩
        rw [h.files_eq] at hprivate
        exact privateFile_setBytes hprivate value.bytes
      rcases reply with errno | _
      · exact meets_fail (.inr hreplaced) (.inr hreplaced)
      · exact meets_done (.inr hreplaced) (.inr hreplaced)
    · have htemporary₃ : Temporary files name n _
          ⟨s₂.files, s₂.log ++ [(.renameat name id.value, false)]⟩ := htemporary₂.concat (.inr rfl)
      exact meets_fail (.inl ⟨⟨_, htemporary₃⟩, nofun⟩) (.inl ⟨⟨_, htemporary₃⟩, nofun⟩)

theorem guard_meets (h : Temporary files name n node s) (hname : name ≠ id.value)
    (hempty : node.bytes = []) (hregular : node.mode &&& typeBits = regularType)
    (hprivate : PrivateFile store.ownerUserId (s.files.status n))
    (hopened : ∃ found, Opened files store.ownerUserId id found) :
    Meets (Answers faulty) s ((fillAndRename id value name n).onFailure (attempt (.unlinkat name)))
      (StoreEnds files store.ownerUserId id value) := by
  refine meets_onFailure ((fillAndRename_meets h hname hempty hregular hprivate hopened).mono fun outcome s₁ hend => ?_)
  cases outcome with
  | returned _ => exact .inr ⟨name, hend.resolve_left fun hundone => hundone.2 rfl⟩
  | stopped =>
    rcases hend with ⟨⟨node', htemporary⟩, -⟩ | hreplaced
    · exact .inl htemporary.stopped
    · exact .inr ⟨name, hreplaced⟩
  | failed error =>
    rcases hend with ⟨⟨node', htemporary⟩, -⟩ | hreplaced
    · exact (htemporary.cleanup error).mono fun _ _ hend => .inl hend
    -- the rename took effect although it failed: there is nothing left to unlink
    refine meets_call (.inr ⟨name, hreplaced⟩) fun (reply : Except Errno Unit) s₂ hreply => ?_
    rcases hreply.unlinkat with ⟨⟨n', hentry⟩, -⟩ | ⟨-, rfl⟩
    · rw [hreplaced.name_free] at hentry
      cases hentry
    · have hreplaced₂ : Replaced files store.ownerUserId id value name
          ⟨s₁.files, s₁.log ++ [(.unlinkat name, false)]⟩ :=
        hreplaced.keeps rfl fun entry hentry => List.mem_append_left _ hentry
      exact meets_fail (.inr ⟨name, hreplaced₂⟩) (.inr ⟨name, hreplaced₂⟩)

/-- **A store** ends with the credential replaced or with nothing replaced, if its random names are not the
    identifier's. -/
theorem storeCredential_meets (id : CredentialId) (value : CredentialValue) (files : Files) :
    Meets (Answers faulty) ⟨files, []⟩ (store.storeCredential id value) fun outcome s' =>
      (∀ name, (.openCreate name, true) ∈ s'.log → name ≠ id.value) →
        StoreEnds files store.ownerUserId id value outcome s' := by
  have hstart : Unrenamed [] := by
    intro source target hmem
    cases hmem
  refine meets_bind ((openCredential_finds id ⟨files, []⟩ rfl).mono fun outcome s₁ hend => ?_)
  obtain ⟨hreads, hsays⟩ := hend
  have hlog₁ := hreads.unrenamed hstart
  obtain ⟨current, log₁⟩ := s₁
  obtain rfl : current = files := hreads.1
  cases outcome with
  | failed error => exact fun _ => .inl (.untouched hlog₁)
  | stopped => exact fun _ => .inl (.untouched hlog₁)
  | returned found =>
    refine meets_bind ((createTemporaryIn_meets temporaryNameAttempts rfl hlog₁).mono fun outcome s₂ hend => ?_)
    rcases hend with hundone | ⟨name, n, node, rfl, htemporary, hempty, hregular, hprivate⟩
    · cases outcome with
      | returned _ => exact hundone.elim
      | failed error => exact fun _ => .inl hundone
      | stopped => exact fun _ => .inl hundone
    by_cases hname : name = id.value
    · -- the random name is the identifier's, and the log says so
      refine (log_grows _ s₂).mono fun _ s₃ hgrows hdistinct => ?_
      exact absurd hname (hdistinct name (hgrows _ htemporary.created))
    refine meets_bind ((guard_meets htemporary hname hempty hregular hprivate ⟨found, hsays⟩).mono
      fun outcome s₃ hend => ?_)
    cases outcome with
    | failed error => exact fun _ => hend
    | stopped => exact fun _ => hend
    | returned _ =>
      obtain ⟨name', hreplaced⟩ := hend.resolve_left fun hundone => hundone
      refine meets_call (fun _ => .inr ⟨name', hreplaced⟩) fun (reply : Except Errno Unit) s₄ hreply => ?_
      have hreplaced₄ : Replaced current store.ownerUserId id value name' s₄ := by
        obtain ⟨hfiles, extra, hlog, -⟩ := hreply.passive trivial
        refine hreplaced.keeps hfiles fun entry hentry => ?_
        rw [hlog]
        exact List.mem_append_left _ hentry
      rcases reply with errno | _
      · exact meets_fail (fun _ => .inr ⟨name', hreplaced₄⟩) fun _ => .inr ⟨name', hreplaced₄⟩
      · exact meets_done (fun _ => .inr ⟨name', hreplaced₄⟩) fun _ => .inr ⟨name', hreplaced₄⟩

/-- How a delete ends: with nothing changed, or unlinked. -/
def DeleteEnds (files : Files) (owner : Nat) (id : CredentialId) (outcome : Outcome CredentialStoreError Bool)
    (s : Machine) : Prop :=
  (s.files = files ∧ (.unlinkat id.value, true) ∉ s.log ∧ outcome ≠ .returned true) ∨
    (s.files = files.unlink id.value ∧ (.unlinkat id.value, true) ∈ s.log ∧
      ∃ n, Opened files owner id (some n))

theorem Reads.unlinks (h : Reads s s') (name : FileName) :
    (.unlinkat name, true) ∈ s'.log ↔ (.unlinkat name, true) ∈ s.log := by
  obtain ⟨-, extra, hlog, hpassive⟩ := h
  rw [hlog, List.mem_append]
  exact ⟨fun h => h.resolve_right fun hmem => hpassive _ hmem, .inl⟩

/-- **A delete** unlinks the credential it has found, or changes nothing. -/
theorem delete_meets (id : CredentialId) (files : Files) :
    Meets (Answers faulty) ⟨files, []⟩ (store.delete id) (DeleteEnds files store.ownerUserId id) := by
  refine meets_bind ((openCredential_finds id ⟨files, []⟩ rfl).mono fun outcome s₁ hend => ?_)
  obtain ⟨hreads, hsays⟩ := hend
  have hkept : ∀ outcome, outcome ≠ .returned true → DeleteEnds files store.ownerUserId id outcome s₁ := by
    intro outcome houtcome
    refine .inl ⟨hreads.1, ?_, houtcome⟩
    rw [hreads.unlinks]
    simp
  cases outcome with
  | failed error => exact hkept _ nofun
  | stopped => exact hkept _ nofun
  | returned found =>
    cases found with
    | none => exact meets_done (hkept _ nofun) (hkept _ nofun)
    | some n =>
      refine meets_call (hkept _ nofun) fun (reply : Except Errno Unit) s₂ hreply => ?_
      rcases hreply.unlinkat with ⟨-, rfl⟩ | ⟨⟨errno, rfl⟩, rfl⟩
      · have hremoved : ∀ {s' : Machine}, s'.files = s₁.files.unlink id.value →
            (.unlinkat id.value, true) ∈ s'.log → ∀ outcome, DeleteEnds files store.ownerUserId id outcome s' := by
          intro s' hfiles hlog outcome
          rw [hreads.1] at hfiles
          exact .inr ⟨hfiles, hlog, n, hsays⟩
        rcases reply with errno | _
        · exact meets_fail (hremoved rfl (by simp) _) (hremoved rfl (by simp) _)
        refine meets_call (hremoved rfl (by simp) _) fun (reply : Except Errno Unit) s₃ hreply => ?_
        have hreads₃ := hreply.passive trivial
        have hfiles₃ : s₃.files = s₁.files.unlink id.value := hreads₃.1
        have hlog₃ : (.unlinkat id.value, true) ∈ s₃.log := (hreads₃.unlinks _).mpr (by simp)
        rcases reply with errno | _
        · exact meets_fail (hremoved hfiles₃ hlog₃ _) (hremoved hfiles₃ hlog₃ _)
        · exact meets_done (hremoved hfiles₃ hlog₃ _) (hremoved hfiles₃ hlog₃ _)
      · have hfailed : ∀ outcome, outcome ≠ .returned true → DeleteEnds files store.ownerUserId id outcome
            ⟨s₁.files, s₁.log ++ [(.unlinkat id.value, false)]⟩ := by
          intro outcome houtcome
          refine .inl ⟨hreads.1, ?_, houtcome⟩
          show (SystemCall.unlinkat id.value, true) ∉ s₁.log ++ [(.unlinkat id.value, false)]
          rw [List.mem_append, hreads.unlinks]
          simp
        exact meets_fail (hfailed _ nofun) (hfailed _ nofun)

end

end Bondry.Credential
