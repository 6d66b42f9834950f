/-
  LOADING CREDENTIALS.

  A program that makes passive calls only changes nothing, so what it returns is a statement about the files it
  runs on (`Finds`).  A load returns what the files hold (`Files.loaded`): always when no call fails, and never
  anything else when one does (`load_finds`).
-/
import Bondry.Store.CredentialFiles

namespace Bondry.Credential

open Program

/-! ## What a call can do -/

variable {faulty : Prop} {s s' : Machine}

/-- The call changes no file. -/
def SystemCall.Passive : SystemCall → Prop
  | .openCreate _ | .fchmod .. | .write .. | .renameat .. | .unlinkat _ => False
  | _ => True

/-- Nothing has changed, and only passive calls were made. -/
def Reads (s s' : Machine) : Prop :=
  s'.files = s.files ∧ ∃ extra, s'.log = s.log ++ extra ∧ ∀ entry ∈ extra, entry.1.Passive

theorem Reads.refl (s : Machine) : Reads s s := ⟨rfl, [], by simp, by simp⟩

theorem Reads.trans {s'' : Machine} (h : Reads s s') (h' : Reads s' s'') : Reads s s'' := by
  obtain ⟨hfiles, extra, hlog, hpassive⟩ := h
  obtain ⟨hfiles', extra', hlog', hpassive'⟩ := h'
  refine ⟨hfiles'.trans hfiles, extra ++ extra', by rw [hlog', hlog, List.append_assoc], ?_⟩
  intro entry hentry
  rcases List.mem_append.mp hentry with hentry | hentry
  · exact hpassive entry hentry
  · exact hpassive' entry hentry

variable {call : SystemCall} {reply : call.Reply}

theorem Behaves.passive {files after : Files} (h : Behaves files call reply after)
    (hpassive : call.Passive) : after = files := by
  cases h <;> first | rfl | exact hpassive.elim

theorem Answers.passive (h : Answers faulty s call reply s') (hpassive : call.Passive) : Reads s s' := by
  cases h with
  | works hbehaves => exact ⟨hbehaves.passive hpassive, _, rfl, by simpa using hpassive⟩
  | fails => exact ⟨rfl, _, rfl, by simpa using hpassive⟩
  | failsLate _ _ hbehaves => exact ⟨hbehaves.passive hpassive, _, rfl, by simpa using hpassive⟩

theorem Answers.replies (h : Answers faulty s call reply s') (hpassive : call.Passive) :
    Behaves s.files call reply s.files ∨
      faulty ∧ ∃ errno, reply = .error errno ∧ Honest s.files call errno := by
  cases h with
  | works hbehaves =>
    have hsame := hbehaves.passive hpassive
    subst hsame
    exact .inl hbehaves
  | fails hfaulty hhonest => exact .inr ⟨hfaulty, _, rfl, hhonest⟩
  | failsLate _ hlate => cases call <;> first | exact hlate.elim | exact hpassive.elim

/-! ## Programs that only read -/

/-- What a run says of the files: what it returns, and what it fails with unless a call has failed. -/
def Says {α : Type} (faulty : Prop) (P : α → Prop) (E : CredentialStoreError → Prop) :
    Outcome CredentialStoreError α → Prop
  | .returned value => P value
  | .failed error => faulty ∨ E error
  | .stopped => True

/-- A program that changes nothing and ends as its postconditions say, on these files. -/
def Finds {α : Type} (faulty : Prop) (files : Files) (program : Sys α) (P : α → Prop)
    (E : CredentialStoreError → Prop) : Prop :=
  ∀ s : Machine, s.files = files →
    Meets (Answers faulty) s program fun outcome s' => Reads s s' ∧ Says faulty P E outcome

section

variable {files : Files} {α β : Type} {P : α → Prop} {E : CredentialStoreError → Prop}

theorem finds_done {value : α} (h : P value) : Finds faulty files (.done value) P E :=
  fun s _ => meets_done ⟨.refl s, h⟩ ⟨.refl s, trivial⟩

theorem finds_fail {error : CredentialStoreError} (h : faulty ∨ E error) :
    Finds faulty files (.fail error : Sys α) P E :=
  fun s _ => meets_fail ⟨.refl s, h⟩ ⟨.refl s, trivial⟩

theorem finds_bind {program : Sys β} {next : β → Sys α} {P' : β → Prop} {E' : CredentialStoreError → Prop}
    (h : Finds faulty files program P' E') (hnext : ∀ value, P' value → Finds faulty files (next value) P E)
    (herror : ∀ error, E' error → E error) : Finds faulty files (program >>= next) P E := by
  intro s hs
  refine meets_bind ((h s hs).mono fun outcome s' hend => ?_)
  obtain ⟨hreads, hsays⟩ := hend
  cases outcome with
  | returned value =>
    refine (hnext value hsays s' (hreads.1.trans hs)).mono fun outcome' s'' hend' => ?_
    exact ⟨hreads.trans hend'.1, hend'.2⟩
  | failed error => exact ⟨hreads, hsays.imp id (herror error)⟩
  | stopped => exact ⟨hreads, trivial⟩

theorem finds_attempt {call : SystemCall} (hpassive : call.Passive) {P : call.Reply → Prop}
    (h : ∀ reply, Behaves files call reply files → P reply)
    (hfault : faulty → ∀ errno, Honest files call errno → P (.error errno)) :
    Finds faulty files (attempt call) P E := by
  intro s hs
  subst hs
  refine meets_call ⟨.refl s, trivial⟩ fun reply s' hreply => ?_
  have hreads := hreply.passive hpassive
  have hsaid : P reply := by
    rcases hreply.replies hpassive with hbehaves | ⟨hfaulty, errno, rfl, hhonest⟩
    · exact h reply hbehaves
    · exact hfault hfaulty errno hhonest
  exact meets_done ⟨hreads, hsaid⟩ ⟨hreads, trivial⟩

theorem finds_perform {call : SystemCall} (hpassive : call.Passive) {P : call.Value → Prop}
    {error : Errno → CredentialStoreError} (h : ∀ value, Behaves files call (.ok value) files → P value)
    (herror : ∀ errno, Behaves files call (.error errno) files → E (error errno)) :
    Finds faulty files (perform call error) P E := by
  intro s hs
  subst hs
  refine meets_call ⟨.refl s, trivial⟩ fun reply s' hreply => ?_
  have hreads := hreply.passive hpassive
  rcases reply with errno | value
  · refine meets_fail ⟨hreads, ?_⟩ ⟨hreads, trivial⟩
    rcases hreply.replies hpassive with hbehaves | ⟨hfaulty, -⟩
    · exact .inr (herror errno hbehaves)
    · exact .inl hfaulty
  · refine meets_done ⟨hreads, ?_⟩ ⟨hreads, trivial⟩
    rcases hreply.replies hpassive with hbehaves | ⟨-, errno, herrno, -⟩
    · exact h value hbehaves
    · cases herrno

end

/-! ## What a load returns -/

/-- What a load returns when no call fails. -/
def Files.loaded (files : Files) (owner : Nat) (id : CredentialId) :
    Except CredentialStoreError (Option CredentialValue) :=
  if PrivateDirectory owner files.directory then
    match files.entries[id.value]? with
    | none => .ok none
    | some n =>
      if files.IsType n linkType then .error .unsafeStorage
      else if PrivateFile owner (files.status n) then
        match CredentialValue.new (files.nodes n).bytes with
        | some value => .ok (some value)
        | none => .error .invalidMaterial
      else .error .unsafeStorage
  else .error .unsafeStorage

theorem credentialValue_new (value : CredentialValue) : CredentialValue.new value.bytes = some value := by
  rw [CredentialValue.new, dif_neg value.nonempty, dif_neg (not_lt.mpr value.bounded)]

section

variable {files : Files} {owner n : Nat} {id : CredentialId}

theorem Files.loaded_none (hdirectory : PrivateDirectory owner files.directory)
    (hentry : files.entries[id.value]? = none) : files.loaded owner id = .ok none := by
  rw [Files.loaded, if_pos hdirectory, hentry]

theorem Files.loaded_some (hdirectory : PrivateDirectory owner files.directory)
    (hentry : files.entries[id.value]? = some n) (hlink : ¬ files.IsType n linkType) :
    files.loaded owner id = if PrivateFile owner (files.status n) then
        match CredentialValue.new (files.nodes n).bytes with
        | some value => .ok (some value)
        | none => .error .invalidMaterial
      else .error .unsafeStorage := by
  rw [Files.loaded, if_pos hdirectory, hentry]
  exact if_neg hlink

theorem Files.loaded_value (hdirectory : PrivateDirectory owner files.directory)
    (hentry : files.entries[id.value]? = some n) (hlink : ¬ files.IsType n linkType)
    (hmetadata : PrivateFile owner (files.status n)) {value : CredentialValue}
    (hbytes : (files.nodes n).bytes = value.bytes) : files.loaded owner id = .ok (some value) := by
  rw [Files.loaded_some hdirectory hentry hlink, if_pos hmetadata, hbytes, credentialValue_new]

end

/-- The node passes the checks of a load. -/
structure IsCredential (files : Files) (owner n : Nat) : Prop where
  nonlink : ¬ files.IsType n linkType
  metadata : PrivateFile owner (files.status n)
  nonempty : (files.nodes n).bytes ≠ []
  bounded : (files.nodes n).bytes.length ≤ maxCredentialBytes

/-- What `open_credential` finds. -/
def Opened (files : Files) (owner : Nat) (id : CredentialId) (found : Option Descriptor) : Prop :=
  PrivateDirectory owner files.directory ∧ files.entries[id.value]? = found ∧
    ∀ n, found = some n → IsCredential files owner n

section

variable {files : Files} {store : UnixFileCredentialStore} {E : CredentialStoreError → Prop}

open UnixFileCredentialStore

theorem validateDirectory_finds (hrefused : ¬ PrivateDirectory store.ownerUserId files.directory → E .unsafeStorage) :
    Finds faulty files store.validateDirectory
      (fun _ => PrivateDirectory store.ownerUserId files.directory) E := by
  have hstatus : Finds faulty files (perform .fstatDirectory mapOperationError)
      (fun status => status = files.directory) E := by
    refine finds_perform (by exact trivial) (fun value hvalue => ?_) fun errno herrno => ?_
    · cases hvalue
      rfl
    · cases herrno
  refine finds_bind hstatus (fun status hstatus => ?_) fun _ h => h
  subst hstatus
  by_cases hprivate : PrivateDirectory store.ownerUserId files.directory
  · rw [if_pos hprivate]
    exact finds_done hprivate
  · rw [if_neg hprivate]
    exact finds_fail (.inr (hrefused hprivate))

variable {n : Nat}

theorem validateCredentialMetadata_finds
    (hrefused : ¬ PrivateFile store.ownerUserId (files.status n) → E .unsafeStorage) :
    Finds faulty files (store.validateCredentialMetadata n)
      (fun status => status = files.status n ∧ PrivateFile store.ownerUserId (files.status n)) E := by
  have hstatus : Finds faulty files (perform (.fstat n) mapOperationError)
      (fun status => status = files.status n) E := by
    refine finds_perform (by exact trivial) (fun value hvalue => ?_) fun errno herrno => ?_
    · cases hvalue
      rfl
    · cases herrno
  refine finds_bind hstatus (fun status hstatus => ?_) fun _ h => h
  subst hstatus
  by_cases hprivate : PrivateFile store.ownerUserId (files.status n)
  · rw [if_pos hprivate]
    exact finds_done ⟨rfl, hprivate⟩
  · rw [if_neg hprivate]
    exact finds_fail (.inr (hrefused hprivate))

theorem credentialValue_new_none {bytes : Bytes} :
    CredentialValue.new bytes = none ↔ bytes.length = 0 ∨ maxCredentialBytes < bytes.length := by
  unfold CredentialValue.new
  split_ifs with hempty hlong
  · simp [hempty]
  · simp [hlong]
  · simpa [hempty] using hlong

theorem validatedCredentialSize_finds
    (hrefused : ¬ PrivateFile store.ownerUserId (files.status n) → E .unsafeStorage)
    (hinvalid : PrivateFile store.ownerUserId (files.status n) →
      CredentialValue.new (files.nodes n).bytes = none → E .invalidMaterial) :
    Finds faulty files (store.validatedCredentialSize n)
      (fun size => size = (files.nodes n).bytes.length ∧ PrivateFile store.ownerUserId (files.status n) ∧
        (files.nodes n).bytes ≠ [] ∧ (files.nodes n).bytes.length ≤ maxCredentialBytes) E := by
  refine finds_bind (validateCredentialMetadata_finds hrefused) (fun status hstatus => ?_) fun _ h => h
  obtain ⟨rfl, hprivate⟩ := hstatus
  by_cases hsize : (files.status n).size = 0 ∨ maxCredentialBytes < (files.status n).size
  · rw [if_pos hsize]
    exact finds_fail (.inr (hinvalid hprivate (credentialValue_new_none.mpr hsize)))
  · rw [if_neg hsize]
    obtain ⟨hempty, hlong⟩ := not_or.mp hsize
    exact finds_done ⟨rfl, hprivate, fun h => hempty (by simp [Files.status, h]), not_lt.mp hlong⟩

/-- What `openat` may answer. -/
def OpenReply (faulty : Prop) (files : Files) (name : FileName) : Except Errno Descriptor → Prop
  | .ok n => files.entries[name]? = some n ∧ ¬ files.IsType n linkType
  | .error errno =>
    if errno = .ENOENT then files.entries[name]? = none
    else faulty ∨ errno = .ELOOP ∧ ∃ n, files.entries[name]? = some n ∧ files.IsType n linkType

theorem openRead_finds (name : FileName) :
    Finds faulty files (attempt (.openRead name)) (OpenReply faulty files name) E := by
  refine finds_attempt (by exact trivial) (fun reply hreply => ?_) fun hfaulty errno hhonest => ?_
  · cases hreply with
    | openRead hentry hlink => exact ⟨hentry, hlink⟩
    | openMissing hentry => exact hentry
    | openLink hentry hlink => exact .inr ⟨rfl, _, hentry, hlink⟩
  · by_cases hmissing : errno = .ENOENT
    · subst hmissing
      exact hhonest
    · exact (if_neg hmissing).mpr (.inl hfaulty)

/-- **`open_credential`** finds the credential of an identifier, or that there is none. -/
theorem openCredential_finds (id : CredentialId) :
    Finds faulty files (store.openCredential id) (Opened files store.ownerUserId id)
      (fun error => files.loaded store.ownerUserId id = .error error) := by
  refine finds_bind (validateDirectory_finds fun hpublic => ?_) (fun _ hprivate => ?_) fun _ h => h
  · rw [Files.loaded, if_neg hpublic]
  refine finds_bind (openRead_finds id.value) (fun reply hreply => ?_) fun _ h => h
  rcases reply with errno | n
  · by_cases hmissing : errno = .ENOENT
    · subst hmissing
      exact finds_done ⟨hprivate, hreply, nofun⟩
    have hfails := (if_neg hmissing).mp hreply
    have hfail : Finds faulty files (.fail (mapOpenError errno) : Sys (Option Descriptor))
        (Opened files store.ownerUserId id) fun error => files.loaded store.ownerUserId id = .error error := by
      refine finds_fail (hfails.imp_right ?_)
      rintro ⟨rfl, n, hentry, hlink⟩
      rw [Files.loaded, if_pos hprivate, hentry]
      exact if_pos hlink
    cases errno <;> first | exact absurd rfl hmissing | exact hfail
  · obtain ⟨hentry, hlink⟩ := hreply
    have hloaded := Files.loaded_some hprivate hentry hlink
    refine finds_bind (validatedCredentialSize_finds (fun hshared => ?_) fun hmetadata hinvalid => ?_)
      (fun size hsize => ?_) fun _ h => h
    · rw [hloaded, if_neg hshared]
    · rw [hloaded, if_pos hmetadata, hinvalid]
    · obtain ⟨-, hmetadata, hnonempty, hbounded⟩ := hsize
      refine finds_done ⟨hprivate, hentry, ?_⟩
      rintro _ ⟨⟩
      exact ⟨hlink, hmetadata, hnonempty, hbounded⟩

theorem readToEnd_finds : ∀ (limit : Nat) (bytes : Bytes), bytes = (files.nodes n).bytes.take bytes.length →
    Finds faulty files (readToEnd n bytes limit)
      (fun read => read = (files.nodes n).bytes.take (bytes.length + limit)) E := by
  intro limit
  induction limit using Nat.strong_induction_on with
  | _ limit ih =>
    intro bytes hbytes
    rw [readToEnd]
    split_ifs with hlimit
    · subst hlimit
      exact finds_done hbytes
    have hchunk : Finds faulty files (perform (.read n bytes.length limit) mapIoError)
        (fun chunk => ∃ count, count ≤ limit ∧ count ≠ 0 ∧
          chunk = ((files.nodes n).bytes.drop bytes.length).take count) E := by
      refine finds_perform (by exact trivial) (fun value hvalue => ?_) fun errno herrno => ?_
      · cases hvalue with
        | read hcount hsome => exact ⟨_, hcount, fun h => hlimit (hsome h), rfl⟩
      · cases herrno
    refine finds_bind hchunk (fun chunk hchunk => ?_) fun _ h => h
    obtain ⟨count, hcount, hnonzero, rfl⟩ := hchunk
    split_ifs with hend
    · -- nothing is only read at the end
      refine finds_done ?_
      have hover : (files.nodes n).bytes.length ≤ bytes.length := by
        rw [List.take_eq_nil_iff] at hend
        exact List.drop_eq_nil_iff.mp (hend.resolve_left hnonzero)
      rw [List.take_of_length_le (by omega)]
      rw [hbytes]
      exact List.take_of_length_le hover
    · have hlength : (((files.nodes n).bytes.drop bytes.length).take count).length ≤ limit :=
        (List.length_take_le _ _).trans hcount
      have hpositive := List.length_pos_iff.mpr hend
      have hjoined : bytes ++ ((files.nodes n).bytes.drop bytes.length).take count =
          (files.nodes n).bytes.take (bytes.length + count) := by
        rw [List.take_add, ← hbytes]
      have hread := ih (limit - (((files.nodes n).bytes.drop bytes.length).take count).length) (by omega)
        (bytes ++ ((files.nodes n).bytes.drop bytes.length).take count) (by
          rw [hjoined, List.length_take, List.take_eq_take_iff]
          omega)
      rw [List.length_append, Nat.add_assoc, Nat.add_sub_cancel' hlength] at hread
      exact hread

/-- **A load** returns what the files hold. -/
theorem load_finds (id : CredentialId) :
    Finds faulty files (store.load id) (fun value => files.loaded store.ownerUserId id = .ok value)
      (fun error => files.loaded store.ownerUserId id = .error error) := by
  refine finds_bind (openCredential_finds id) (fun found hfound => ?_) fun _ h => h
  obtain ⟨hprivate, hentry, hcredential⟩ := hfound
  cases found with
  | none => exact finds_done (Files.loaded_none hprivate hentry)
  | some n =>
    obtain ⟨hlink, hmetadata, hnonempty, hbounded⟩ := hcredential n rfl
    have hvalue : CredentialValue.new (files.nodes n).bytes =
        some ⟨(files.nodes n).bytes, hnonempty, hbounded⟩ := credentialValue_new ⟨_, hnonempty, hbounded⟩
    refine finds_bind (validatedCredentialSize_finds (fun h => absurd hmetadata h) fun _ h => ?_)
      (fun size hsize => ?_) fun _ h => h
    · rw [hvalue] at h
      cases h
    obtain ⟨rfl, -⟩ := hsize
    refine finds_bind (readToEnd_finds (maxCredentialBytes + 1) [] (by simp)) (fun bytes hbytes => ?_) fun _ h => h
    have hall : bytes = (files.nodes n).bytes := by
      rw [hbytes]
      exact List.take_of_length_le (by simp only [List.length_nil]; omega)
    subst hall
    rw [if_neg (not_not.mpr rfl), hvalue]
    exact finds_done (Files.loaded_value hprivate hentry hlink hmetadata rfl)

end

end Bondry.Credential
