/-
  PAYLOAD CONTRACTS (`bondry-egress`, `payload.rs`).

  A route declares the top-level fields of its events.  `serde_json` is outside the repository: its
  grammar is the parameter `parse`, which keeps every member of an object in the order of the text,
  repeated names included.  The visitor that runs inside the deserializer is the repository's own and
  is modelled over that tree: at most 64 top-level members, no name twice in any object, containers at
  most 32 deep.
-/
import Bondry.Contract.Dispatch
import Bondry.Egress.Lifecycle
import Bondry.Lib.BTreeMap

namespace Bondry.Egress

inductive PayloadError where
  | emptyFieldName
  | fieldNameTooLong
  | invalidFieldName
  | tooManyFields
  | duplicateContractField
  | tooLarge
  | invalidJson
  | undeclaredField
  | missingRequiredField
  | fieldTypeMismatch
  deriving DecidableEq, Repr

def maxPayloadFields : Nat := 64

def maxPayloadFieldNameBytes : Nat := 128

def maxJsonNestingDepth : Nat := 32

/-- What `PayloadLimit::new` accepts. -/
structure PayloadLimit where
  value : Nat
  mem : 1024 ≤ value ∧ value ≤ 224 * 1024
  deriving DecidableEq

/-! ## Contracts -/

/-- A bounded portable top-level JSON field name. -/
@[ext] structure PayloadFieldName where
  text : Text
  nonempty : text ≠ []
  bounded : utf8Len text ≤ maxPayloadFieldNameBytes
  portable : text.all isAllowed = true

instance : DecidableEq PayloadFieldName := fun a b =>
  decidable_of_iff (a.text = b.text) PayloadFieldName.ext_iff.symm

inductive PayloadFieldType where
  | any
  | null
  | boolean
  | number
  | string
  | array
  | object
  deriving DecidableEq, Repr

structure PayloadField where
  name : PayloadFieldName
  fieldType : PayloadFieldType
  required : Bool
  deriving DecidableEq

/-- The declared fields by their names, and the largest payload. -/
structure PayloadContract where
  fields : BTreeMap Text PayloadField
  limit : PayloadLimit

/-! ## The visitor -/

mutual

/-- `PayloadValueVisitor`: the shape of a value at a depth, or a refusal. -/
def visitValue (depth : Nat) : Json → Option PayloadFieldType
  | .null => some .null
  | .bool _ => some .boolean
  | .number _ => some .number
  | .string _ => some .string
  | .array items =>
    if maxJsonNestingDepth < depth then none
    else if visitItems (depth + 1) items then some .array else none
  | .object members =>
    if maxJsonNestingDepth < depth then none
    else if visitMembers (depth + 1) [] members then some .object else none

def visitItems (depth : Nat) : List Json → Bool
  | [] => true
  | item :: rest => (visitValue depth item).isSome && visitItems depth rest

def visitMembers (depth : Nat) (names : List Text) : List (Text × Json) → Bool
  | [] => true
  | (name, value) :: rest =>
    decide (name ∉ names) && (visitValue depth value).isSome &&
      visitMembers depth (name :: names) rest

end

def visitDocument : List (Text × Json) → BTreeMap Text PayloadFieldType →
    Option (BTreeMap Text PayloadFieldType)
  | [], fields => some fields
  | (name, value) :: rest, fields =>
    if maxPayloadFields ≤ fields.size then none
    else if fields[name]?.isSome then none
    else match visitValue 2 value with
      | none => none
      | some fieldType => visitDocument rest (fields.insert name fieldType)

/-- `PayloadDocumentSeed`: the shapes of the top-level fields, in the order of their names. -/
def payloadDocument : Json → Option (List (Text × PayloadFieldType))
  | .object members => (visitDocument members ∅).map fun fields => fields.toList
  | _ => none

/-! ## Validation -/

/-- The loop of `PayloadContract::validate` over the fields that are there. -/
def checkFields (declared : BTreeMap Text PayloadField) :
    List (Text × PayloadFieldType) → Except PayloadError Unit
  | [] => .ok ()
  | (name, fieldType) :: rest =>
    match declared[name]? with
    | none => .error .undeclaredField
    | some field =>
      if field.fieldType ≠ .any ∧ field.fieldType ≠ fieldType then .error .fieldTypeMismatch
      else checkFields declared rest

/-- `PayloadContract::validate`.  The validated payload is the exact bytes. -/
def PayloadContract.validate (contract : PayloadContract) (parse : Bytes → Option Json)
    (bytes : Bytes) : Except PayloadError Bytes :=
  if contract.limit.value < bytes.length then .error .tooLarge
  else match (parse bytes).bind payloadDocument with
    | none => .error .invalidJson
    | some actual =>
      match checkFields contract.fields actual with
      | .error error => .error error
      | .ok () =>
        if contract.fields.toList.any fun entry =>
            entry.2.required && !(actual.map Prod.fst).contains entry.1 then
          .error .missingRequiredField
        else .ok bytes

/-- **Validation keeps the exact bytes, and at most as many as the limit.** -/
theorem validate_ok {contract : PayloadContract} {parse : Bytes → Option Json}
    {bytes payload : Bytes} (h : contract.validate parse bytes = .ok payload) :
    payload = bytes ∧ payload.length ≤ contract.limit.value := by
  revert h
  fun_cases PayloadContract.validate contract parse bytes <;> intro h <;> cases h
  next hsize _ _ _ _ => exact ⟨rfl, Nat.le_of_not_lt hsize⟩

end Bondry.Egress
