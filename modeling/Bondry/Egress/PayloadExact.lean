/-
  WHICH PAYLOADS ARE ACCEPTED (`bondry-egress`, `payload.rs`).

  Validation is a visitor that runs inside the deserializer, with a depth counter, a set of names for each
  object and a loop over the top-level members.  What it decides is a property of the document alone.
-/
import Bondry.Egress.Mcp

namespace Bondry.Egress

open Encoding Json

/-! ## What the visitor looks for -/

mutual

/-- No object of the document has two members of one name. -/
def Unambiguous : Json → Prop
  | .array items => ItemsUnambiguous items
  | .object members => (members.map Prod.fst).Nodup ∧ MembersUnambiguous members
  | _ => True

def ItemsUnambiguous : List Json → Prop
  | [] => True
  | item :: rest => Unambiguous item ∧ ItemsUnambiguous rest

def MembersUnambiguous : List (Text × Json) → Prop
  | [] => True
  | (_, value) :: rest => Unambiguous value ∧ MembersUnambiguous rest

end

def shape : Json → PayloadFieldType
  | .null => .null
  | .bool _ => .boolean
  | .number _ => .number
  | .string _ => .string
  | .array _ => .array
  | .object _ => .object

/-- A value whose outermost container is on level `level` has none below the bound. -/
def Within (level : Nat) (depth : Nat) : Prop := depth = 0 ∨ level + depth ≤ maxJsonNestingDepth + 1

variable {level : Nat}

theorem within_container {inner : Nat} :
    Within level (1 + inner) ↔ level ≤ maxJsonNestingDepth ∧ Within (level + 1) inner := by
  unfold Within
  omega

theorem within_max {a b : Nat} : Within level (max a b) ↔ Within level a ∧ Within level b := by
  unfold Within
  omega

/-! ## The visitor -/

theorem visitContainer_iff {pass : Bool} {own fieldType : PayloadFieldType} {Passes : Prop}
    (h : pass = true ↔ Passes) :
    (if maxJsonNestingDepth < level then none else if pass then some own else none) = some fieldType ↔
      fieldType = own ∧ level ≤ maxJsonNestingDepth ∧ Passes := by
  split_ifs <;> simp_all [eq_comm]

mutual

/-- **A value passes** iff it is unambiguous and deep enough below the bound. -/
theorem visitValue_iff (level : Nat) (v : Json) (fieldType : PayloadFieldType) :
    visitValue level v = some fieldType ↔ fieldType = shape v ∧ Unambiguous v ∧ Within level (depth v) := by
  match v with
  | .null | .bool _ | .number _ | .string _ =>
    simp [visitValue, shape, Unambiguous, Within, depth, eq_comm]
  | .array items =>
    rw [visitValue, visitContainer_iff (visitItems_iff (level + 1) items), depth, within_container]
    tauto
  | .object members =>
    rw [visitValue, visitContainer_iff (visitMembers_iff (level + 1) [] members), depth,
      within_container]
    simp only [shape, Unambiguous, List.not_mem_nil, not_false_eq_true, implies_true, true_and]
    tauto

theorem visitItems_iff (level : Nat) (items : List Json) :
    visitItems level items = true ↔ ItemsUnambiguous items ∧ Within level (itemsDepth items) := by
  match items with
  | [] => simp [visitItems, ItemsUnambiguous, Within, itemsDepth]
  | item :: rest =>
    have hitem := visitValue_iff level item
    have hrest := visitItems_iff level rest
    simp only [visitItems, ItemsUnambiguous, itemsDepth, within_max, Bool.and_eq_true,
      Option.isSome_iff_exists, hitem, hrest, exists_eq_left]
    tauto

theorem visitMembers_iff (level : Nat) (names : List Text) (members : List (Text × Json)) :
    visitMembers level names members = true ↔
      (∀ name ∈ members.map Prod.fst, name ∉ names) ∧ (members.map Prod.fst).Nodup ∧
        MembersUnambiguous members ∧ Within level (membersDepth members) := by
  match members with
  | [] => simp [visitMembers, MembersUnambiguous, Within, membersDepth]
  | (name, value) :: rest =>
    have hvalue := visitValue_iff level value
    have hrest := visitMembers_iff level (name :: names) rest
    simp only [visitMembers, MembersUnambiguous, membersDepth, within_max, Bool.and_eq_true,
      Option.isSome_iff_exists, hvalue, hrest, exists_eq_left, decide_eq_true_eq, List.map_cons,
      List.nodup_cons, List.forall_mem_cons]
    -- the name joins the ones seen: later names have to differ from it
    have hseen : (∀ other ∈ rest.map Prod.fst, other ∉ name :: names) ↔
        name ∉ rest.map Prod.fst ∧ ∀ other ∈ rest.map Prod.fst, other ∉ names := by
      constructor
      · intro h
        exact ⟨fun hname => h name hname (List.mem_cons_self ..),
          fun other hother hin => h other hother (List.mem_cons_of_mem _ hin)⟩
      · rintro ⟨hname, hnames⟩ other hother hin
        rcases List.mem_cons.mp hin with rfl | hin
        · exact hname hother
        · exact hnames other hother hin
    tauto

end

/-! ## The members of a document -/

/-- What the loop over the members demands, with the shapes in `before` already collected. -/
structure Passes (members : List (Text × Json)) (before : BTreeMap Text PayloadFieldType) : Prop where
  few : before.size + members.length ≤ maxPayloadFields
  fresh : ∀ name ∈ members.map Prod.fst, before[name]? = none
  nodup : (members.map Prod.fst).Nodup
  unambiguous : MembersUnambiguous members
  within : Within 2 (membersDepth members)

def shapes (members : List (Text × Json)) (before : BTreeMap Text PayloadFieldType) :
    BTreeMap Text PayloadFieldType :=
  members.foldl (fun collected entry => collected.insert entry.1 (shape entry.2)) before

variable {before : BTreeMap Text PayloadFieldType}

theorem size_insert_fresh {name : Text} (h : before[name]? = none) (fieldType : PayloadFieldType) :
    (before.insert name fieldType).size = before.size + 1 := by
  rw [BTreeMap.size_eq_sumOf, BTreeMap.size_eq_sumOf, BTreeMap.sumOf_insert_fresh _ _ h]

theorem passes_cons {name : Text} {value : Json} {rest : List (Text × Json)} :
    Passes ((name, value) :: rest) before ↔ before.size < maxPayloadFields ∧ before[name]? = none ∧
        (Unambiguous value ∧ Within 2 (depth value)) ∧ Passes rest (before.insert name (shape value)) := by
  constructor
  · intro h
    have hfresh : before[name]? = none := h.fresh name (by simp)
    have hnodup := List.nodup_cons.mp h.nodup
    have hwithin := within_max.mp h.within
    have hfew := h.few
    rw [List.length_cons] at hfew
    refine ⟨by omega, hfresh, ⟨h.unambiguous.1, hwithin.1⟩, ?_⟩
    refine ⟨?_, fun other hother => ?_, hnodup.2, h.unambiguous.2, hwithin.2⟩
    · rw [size_insert_fresh hfresh]
      omega
    · have hne : name ≠ other := fun heq => hnodup.1 (heq ▸ hother)
      rw [BTreeMap.find_insert_ne _ _ hne]
      exact h.fresh other (List.mem_cons_of_mem _ hother)
  · rintro ⟨hsize, hfresh, ⟨hvalue, hlevel⟩, h⟩
    have hfew := h.few
    rw [size_insert_fresh hfresh] at hfew
    have hother : ∀ other ∈ rest.map Prod.fst, name ≠ other ∧ before[other]? = none := by
      intro other hin
      have hnone := h.fresh other hin
      rw [BTreeMap.find_insert] at hnone
      split_ifs at hnone with heq
      exact ⟨heq, hnone⟩
    refine ⟨by rw [List.length_cons]; omega, fun other hin => ?_, ?_, ⟨hvalue, h.unambiguous⟩,
      within_max.mpr ⟨hlevel, h.within⟩⟩
    · rcases List.mem_cons.mp hin with rfl | hin
      · exact hfresh
      · exact (hother other hin).2
    · exact List.nodup_cons.mpr ⟨fun hin => (hother name hin).1 rfl, h.nodup⟩

variable {members : List (Text × Json)}

/-- **The loop over the members** collects their shapes if they pass. -/
theorem visitDocument_iff {after : BTreeMap Text PayloadFieldType} (hsize : before.size ≤ maxPayloadFields) :
    visitDocument members before = some after ↔ Passes members before ∧ after = shapes members before := by
  induction members generalizing before with
  | nil =>
    have hpass : Passes [] before := ⟨hsize, by simp, by simp, trivial, Or.inl rfl⟩
    simp [visitDocument, hpass, shapes, eq_comm]
  | cons first rest ih =>
    obtain ⟨name, value⟩ := first
    rw [visitDocument, passes_cons, ← Nat.not_le]
    by_cases hfull : maxPayloadFields ≤ before.size
    · simp [hfull]
    rcases hfresh : before[name]? with _ | seen
    · rcases hvalue : visitValue 2 value with _ | fieldType
      · have hbad : ¬ (Unambiguous value ∧ Within 2 (depth value)) := fun hgood => by
          rw [(visitValue_iff 2 value (shape value)).mpr ⟨rfl, hgood⟩] at hvalue
          cases hvalue
        simp [hfull, hbad]
      · obtain ⟨rfl, hgood⟩ := (visitValue_iff 2 value fieldType).mp hvalue
        have hnext : (before.insert name (shape value)).size ≤ maxPayloadFields := by
          rw [size_insert_fresh hfresh]
          omega
        simp only [Option.isSome_none, Bool.false_eq_true, if_false, ih hnext, hfull,
          not_false_eq_true, true_and, hgood, and_self]
        rfl
    · simp [hfull]

theorem find_shapes (h : Passes members before) (name : Text) (fieldType : PayloadFieldType) :
    (shapes members before)[name]? = some fieldType ↔
      before[name]? = some fieldType ∨ ∃ value, (name, value) ∈ members ∧ shape value = fieldType := by
  induction members generalizing before with
  | nil => simp [shapes]
  | cons first rest ih =>
    obtain ⟨other, value⟩ := first
    obtain ⟨-, hfresh, -, hrest⟩ := passes_cons.mp h
    show (shapes rest (before.insert other (shape value)))[name]? = _ ↔ _
    rw [ih hrest, BTreeMap.find_insert]
    by_cases hname : other = name
    · subst hname
      simp [hfresh]
    · have hne : name ≠ other := Ne.symm hname
      simp [hname, hne]

/-! ## Validation -/

def PayloadField.Allows (field : PayloadField) (fieldType : PayloadFieldType) : Prop :=
  field.fieldType = .any ∨ field.fieldType = fieldType

theorem checkFields_iff {declared : BTreeMap Text PayloadField} {actual : List (Text × PayloadFieldType)} :
    checkFields declared actual = .ok () ↔
      ∀ entry ∈ actual, ∃ field, declared[entry.1]? = some field ∧ field.Allows entry.2 := by
  induction actual with
  | nil => simp [checkFields]
  | cons first rest ih =>
    obtain ⟨name, fieldType⟩ := first
    rw [checkFields, List.forall_mem_cons]
    rcases hfield : declared[name]? with _ | field
    · simp
    rw [← ih]
    by_cases hallowed : field.Allows fieldType
    · have hno : ¬ (field.fieldType ≠ .any ∧ field.fieldType ≠ fieldType) := by
        rintro ⟨hany, hown⟩
        exact hallowed.elim hany hown
      simp [if_neg hno, hallowed]
    · have hyes : field.fieldType ≠ .any ∧ field.fieldType ≠ fieldType := not_or.mp hallowed
      simp [if_pos hyes, hallowed]

/-- **What a contract accepts**, said of the document alone. -/
structure AcceptsPayload (contract : PayloadContract) (members : List (Text × Json)) : Prop where
  few : members.length ≤ maxPayloadFields
  unambiguous : Unambiguous (.object members)
  shallow : depth (.object members) ≤ maxJsonNestingDepth
  declared : ∀ entry ∈ members, ∃ field, contract.fields[entry.1]? = some field ∧
    field.Allows (shape entry.2)
  present : ∀ (name : Text) (field : PayloadField), contract.fields[name]? = some field →
    field.required = true → name ∈ members.map Prod.fst

theorem passes_empty : Passes members ∅ ↔ members.length ≤ maxPayloadFields ∧ Unambiguous (.object members) ∧
      depth (.object members) ≤ maxJsonNestingDepth := by
  have hempty : (∅ : BTreeMap Text PayloadFieldType).size = 0 := rfl
  have hlevel : depth (.object members) ≤ maxJsonNestingDepth ↔ Within 2 (membersDepth members) := by
    rw [depth]
    unfold Within maxJsonNestingDepth
    omega
  rw [hlevel]
  constructor
  · intro h
    have hfew := h.few
    rw [hempty, Nat.zero_add] at hfew
    exact ⟨hfew, ⟨h.nodup, h.unambiguous⟩, h.within⟩
  · rintro ⟨hfew, ⟨hnodup, hunambiguous⟩, hwithin⟩
    exact ⟨by rwa [hempty, Nat.zero_add], by simp, hnodup, hunambiguous, hwithin⟩

/-- The fields that are there, as the loops of `validate` see them. -/
theorem mem_toList_shapes (h : Passes members ∅) (name : Text) (fieldType : PayloadFieldType) :
    (name, fieldType) ∈ (shapes members ∅).toList ↔
      ∃ value, (name, value) ∈ members ∧ shape value = fieldType := by
  rw [BTreeMap.mem_toList, find_shapes h]
  simp

theorem validate_object_iff (contract : PayloadContract) {parse : Bytes → Option Json}
    {bytes : Bytes} (hparse : parse bytes = some (.object members)) (payload : Bytes) :
    contract.validate parse bytes = .ok payload ↔
      payload = bytes ∧ bytes.length ≤ contract.limit.value ∧ AcceptsPayload contract members := by
  have hempty : (∅ : BTreeMap Text PayloadFieldType).size ≤ maxPayloadFields := Nat.zero_le _
  rw [PayloadContract.validate, hparse, ← Nat.not_lt]
  by_cases hlong : contract.limit.value < bytes.length
  · simp [hlong]
  rw [if_neg hlong, Option.bind_some, payloadDocument]
  by_cases hpass : Passes members ∅
  · rw [(visitDocument_iff hempty).mpr ⟨hpass, rfl⟩, Option.map_some]
    obtain ⟨hfew, hunambiguous, hshallow⟩ := passes_empty.mp hpass
    have hmem := mem_toList_shapes hpass
    have hdeclared : checkFields contract.fields (shapes members ∅).toList = .ok () ↔
        ∀ entry ∈ members, ∃ field, contract.fields[entry.1]? = some field ∧
          field.Allows (shape entry.2) := by
      rw [checkFields_iff]
      constructor
      · rintro h ⟨name, value⟩ hentry
        exact h (name, shape value) ((hmem name _).mpr ⟨value, hentry, rfl⟩)
      · rintro h ⟨name, fieldType⟩ hentry
        obtain ⟨value, hvalue, rfl⟩ := (hmem name fieldType).mp hentry
        exact h (name, value) hvalue
    have hnames : ∀ name, name ∈ (shapes members ∅).toList.map Prod.fst ↔
        name ∈ members.map Prod.fst := by
      intro name
      simp only [List.mem_map, Prod.exists, exists_and_right, exists_eq_right, hmem]
      constructor
      · rintro ⟨_, value, hvalue, -⟩
        exact ⟨value, hvalue⟩
      · rintro ⟨value, hvalue⟩
        exact ⟨_, value, hvalue, rfl⟩
    have hpresent : (contract.fields.toList.any fun entry =>
          entry.2.required && !((shapes members ∅).toList.map Prod.fst).contains entry.1) = false ↔
        ∀ (name : Text) (field : PayloadField), contract.fields[name]? = some field →
          field.required = true → name ∈ members.map Prod.fst := by
      simp only [List.any_eq_false, Prod.forall, BTreeMap.mem_toList, Bool.and_eq_true,
        Bool.not_eq_true', not_and, Bool.not_eq_false, List.contains_iff_mem, hnames]
    dsimp only
    rcases hcheck : checkFields contract.fields (shapes members ∅).toList with error | done
    · have hbad : ¬ AcceptsPayload contract members := fun h => by
        rw [hdeclared.mpr h.declared] at hcheck
        cases hcheck
      simp [hbad]
    · have hgood := hdeclared.mp hcheck
      by_cases hmissing : (contract.fields.toList.any fun entry =>
          entry.2.required && !((shapes members ∅).toList.map Prod.fst).contains entry.1) = true
      · have hbad : ¬ AcceptsPayload contract members := fun h => by
          rw [hpresent.mpr h.present] at hmissing
          cases hmissing
        simp only [hmissing, if_true, hbad, and_false, iff_false]
        exact fun h => nomatch h
      · have haccepts : AcceptsPayload contract members :=
          ⟨hfew, hunambiguous, hshallow, hgood, hpresent.mp (Bool.eq_false_iff.mpr hmissing)⟩
        simp only [if_neg hmissing, haccepts, hlong, not_false_eq_true, and_true]
        exact ⟨fun h => (Except.ok.inj h).symm, fun h => h ▸ rfl⟩
  · have hnone : visitDocument members ∅ = none := by
      rcases hvisit : visitDocument members ∅ with _ | after
      · rfl
      · exact absurd ((visitDocument_iff hempty).mp hvisit).1 hpass
    have hbad : ¬ AcceptsPayload contract members := fun h =>
      hpass (passes_empty.mpr ⟨h.few, h.unambiguous, h.shallow⟩)
    rw [hnone]
    simp [hbad]

theorem validate_not_object (contract : PayloadContract) {parse : Bytes → Option Json} {bytes : Bytes}
    (hparse : ∀ members, parse bytes ≠ some (.object members)) (payload : Bytes) :
    contract.validate parse bytes ≠ .ok payload := by
  have hnone : (parse bytes).bind payloadDocument = none := by
    rcases hdocument : parse bytes with _ | document
    · rfl
    · match document with
      | .null | .bool _ | .number _ | .string _ | .array _ => rfl
      | .object members => exact absurd hdocument (hparse members)
  unfold PayloadContract.validate
  rw [hnone]
  split_ifs <;> exact fun h => nomatch h

/-- **The accepted payloads.**  A contract accepts exactly the texts within its limit that are one object of
    at most 64 members, name no member twice in any object, nest at most 32 containers, declare every
    member they have and have every member that is required; it keeps the exact bytes; and what is read
    from them again is never refused for its shape by a tool. -/
theorem payload_accepted_iff (float : List Char → Option (List Char)) (contract : PayloadContract) :
    (∀ bytes payload, contract.validate (document float) bytes = .ok payload ↔
      payload = bytes ∧ bytes.length ≤ contract.limit.value ∧
        ∃ members, document float bytes = some (.object members) ∧ AcceptsPayload contract members) ∧
    ∀ bytes payload, contract.validate (document float) bytes = .ok payload →
      ∃ value, fromSlice float payload = some value ∧ depth value ≤ maxJsonNestingDepth ∧
        ∀ tool : McpToolBinding, tool.validateInput value ≠ .error .invalidShape := by
  have hexact : ∀ bytes payload, contract.validate (document float) bytes = .ok payload ↔
      payload = bytes ∧ bytes.length ≤ contract.limit.value ∧
        ∃ members, document float bytes = some (.object members) ∧ AcceptsPayload contract members := by
    intro bytes payload
    by_cases hobject : ∃ members, document float bytes = some (.object members)
    · obtain ⟨members, hmembers⟩ := hobject
      rw [validate_object_iff contract hmembers payload, hmembers]
      simp
    · constructor
      · exact fun h => absurd h (validate_not_object contract (not_exists.mp hobject) payload)
      · rintro ⟨-, -, members, hmembers, -⟩
        exact absurd ⟨members, hmembers⟩ hobject
  refine ⟨hexact, fun bytes payload h => ?_⟩
  obtain ⟨rfl, -, members, hmembers, haccepts⟩ := (hexact bytes payload).mp h
  have hdepth : depth (normal float (.object members)) ≤ maxJsonNestingDepth :=
    (depth_normal _).trans haccepts.shallow
  refine ⟨normal float (.object members), by rw [fromSlice, hmembers, Option.map_some], hdepth,
    fun tool => ?_⟩
  have hshape : ¬ ((normal float (.object members)).isObject = false ∨
      maxJsonNestingDepth < depth (normal float (.object members))) := by
    rintro (hobject | hdeep)
    · cases hobject
    · exact absurd hdepth (Nat.not_le.mpr hdeep)
  unfold McpToolBinding.validateInput
  rw [if_neg hshape]
  split_ifs <;> (intro h; cases h)

end Bondry.Egress
