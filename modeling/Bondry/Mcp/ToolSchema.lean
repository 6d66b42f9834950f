/-
  ADVERTISED TOOL SCHEMAS (`bondry-mcp-proto`, `lib.rs`; `bondry-core`, `capability.rs`).

  `tools/list` shows the input schema of a capability without its `x-mcp-header` members, and dispatch enforces
  the schema as it is.  The removal is a recursion over all of the document (`removeCustomHeaderAnnotations`);
  what it should do is to delete a KEYWORD, which only the members of schema objects are (`stripKeyword`, which
  knows the positions of JSON Schema 2020-12).

  * `remove_eq_strip_iff` — the two agree exactly on the documents that have the name nowhere else.

  `jsonschema` is outside the repository.  That the keyword has no validation effect is a law of the schemas
  (`AnnotationOnly`); `coreSchemas`, a few keywords of the standard, has it.
-/
import Bondry.Egress.Mcp
import Bondry.Contract.Dispatch

namespace Bondry.Mcp

open Json Egress

/-! ## Capabilities -/

inductive CapabilitySchemaError where
  | notObject
  | tooLarge
  | invalid
  deriving DecidableEq, Repr

def maxCapabilitySchemaLength : Nat := 65536

structure CapabilityInputSchema where
  document : Option Json
  validator : Option (Json → Bool)

def CapabilityInputSchema.new (schemas : JsonSchema) (document : Json) :
    Except CapabilitySchemaError CapabilityInputSchema :=
  if document.isObject = false then .error .notObject
  else if maxCapabilitySchemaLength < (toVec document).length then .error .tooLarge
  else if schemas.isValid document = false then .error .invalid
  else match schemas.new document with
    | none => .error .invalid
    | some validator => .ok ⟨some document, some validator⟩

def CapabilityInputSchema.accepts (schema : CapabilityInputSchema) (input : Json) : Bool :=
  schema.validator.all (· input)

structure ToolCapability where
  id : CapabilityId
  summary : Text
  effect : CapabilityEffect
  inputSchema : CapabilityInputSchema

def ToolCapability.descriptor (capability : ToolCapability) : CapabilityDescriptor :=
  ⟨capability.id, capability.effect, capability.inputSchema.accepts⟩

/-! ## The removal -/

/-- `x-mcp-header`. -/
def headerKeyword : Text := "x-mcp-header".toList

mutual

def removeCustomHeaderAnnotations : Json → Json
  | .array items => .array (removeFromItems items)
  | .object members => .object (removeFromMembers members)
  | value => value

def removeFromItems : List Json → List Json
  | [] => []
  | item :: rest => removeCustomHeaderAnnotations item :: removeFromItems rest

def removeFromMembers : List (Text × Json) → List (Text × Json)
  | [] => []
  | (name, value) :: rest =>
    if name = headerKeyword then removeFromMembers rest
    else (name, removeCustomHeaderAnnotations value) :: removeFromMembers rest

end

inductive Holds where
  | schema
  | schemas
  | named
  | data
  deriving DecidableEq, Repr

def schemaKeywords : List Text :=
  ["additionalProperties".toList, "contains".toList, "contentSchema".toList, "else".toList, "if".toList,
    "items".toList, "not".toList, "propertyNames".toList, "then".toList, "unevaluatedItems".toList,
    "unevaluatedProperties".toList]

def schemaListKeywords : List Text :=
  ["allOf".toList, "anyOf".toList, "oneOf".toList, "prefixItems".toList]

def namedSchemaKeywords : List Text :=
  ["$defs".toList, "dependentSchemas".toList, "patternProperties".toList, "properties".toList]

/-- What the value of a keyword holds; all others hold data. -/
def keywordHolds (name : Text) : Holds :=
  if name ∈ schemaKeywords then .schema
  else if name ∈ schemaListKeywords then .schemas
  else if name ∈ namedSchemaKeywords then .named
  else .data

mutual

/-- The removal of the keyword: from the objects that are schemas, and from nothing else. -/
def stripKeyword : Json → Json
  | .object members => .object (stripMembers members)
  | value => value

def stripMembers : List (Text × Json) → List (Text × Json)
  | [] => []
  | (name, value) :: rest =>
    if name = headerKeyword then stripMembers rest
    else (name, stripValue (keywordHolds name) value) :: stripMembers rest

def stripValue (holds : Holds) : Json → Json
  | .bool value => .bool value
  | .null => .null
  | .number text => .number text
  | .string value => .string value
  | .array items => if holds = .schemas then .array (stripItems items) else .array items
  | .object members =>
    if holds = .schema then .object (stripMembers members)
    else if holds = .named then .object (stripNamed members)
    else .object members

def stripItems : List Json → List Json
  | [] => []
  | item :: rest => stripKeyword item :: stripItems rest

def stripNamed : List (Text × Json) → List (Text × Json)
  | [] => []
  | (name, value) :: rest => (name, stripKeyword value) :: stripNamed rest

end

/-! ## Where the name stands -/

mutual

def isFree : Json → Bool
  | .array items => itemsFree items
  | .object members => membersFree members
  | _ => true

def itemsFree : List Json → Bool
  | [] => true
  | item :: rest => isFree item && itemsFree rest

def membersFree : List (Text × Json) → Bool
  | [] => true
  | (name, value) :: rest => decide (name ≠ headerKeyword) && isFree value && membersFree rest

end

mutual

/-- In a schema, the name stands for the keyword only. -/
def onlyAsKeyword : Json → Bool
  | .object members => membersOnlyAsKeyword members
  | value => isFree value

def membersOnlyAsKeyword : List (Text × Json) → Bool
  | [] => true
  | (name, value) :: rest =>
    (decide (name = headerKeyword) || valueOnlyAsKeyword (keywordHolds name) value) &&
      membersOnlyAsKeyword rest

def valueOnlyAsKeyword (holds : Holds) : Json → Bool
  | .array items => if holds = .schemas then itemsOnlyAsKeyword items else itemsFree items
  | .object members =>
    if holds = .schema then membersOnlyAsKeyword members
    else if holds = .named then namedOnlyAsKeyword members
    else membersFree members
  | _ => true

def itemsOnlyAsKeyword : List Json → Bool
  | [] => true
  | item :: rest => onlyAsKeyword item && itemsOnlyAsKeyword rest

def namedOnlyAsKeyword : List (Text × Json) → Bool
  | [] => true
  | (name, value) :: rest => decide (name ≠ headerKeyword) && onlyAsKeyword value && namedOnlyAsKeyword rest

end

theorem length_removeFromMembers (members : List (Text × Json)) :
    (removeFromMembers members).length ≤ members.length := by
  induction members with
  | nil => simp [removeFromMembers]
  | cons member rest ih =>
    rw [removeFromMembers]
    split_ifs
    · rw [List.length_cons]
      omega
    · rw [List.length_cons, List.length_cons]
      omega

/-- A list that loses a member is shorter than one that keeps as many as there are. -/
theorem removeFromMembers_ne {members others : List (Text × Json)} {member : Text × Json}
    (h : others.length = members.length) : removeFromMembers members ≠ member :: others := by
  intro heq
  have hlength := congrArg List.length heq
  have := length_removeFromMembers members
  rw [List.length_cons] at hlength
  omega

mutual

theorem remove_eq_self_iff : ∀ v : Json, removeCustomHeaderAnnotations v = v ↔ isFree v = true
  | .array items => by
      rw [removeCustomHeaderAnnotations, isFree, Json.array.injEq]
      exact removeFromItems_eq_self_iff items
  | .object members => by
      rw [removeCustomHeaderAnnotations, isFree, Json.object.injEq]
      exact removeFromMembers_eq_self_iff members
  | .null | .bool _ | .number _ | .string _ => by simp [removeCustomHeaderAnnotations, isFree]

theorem removeFromItems_eq_self_iff : ∀ items : List Json, removeFromItems items = items ↔ itemsFree items = true
  | [] => by simp [removeFromItems, itemsFree]
  | item :: rest => by
      rw [removeFromItems, itemsFree, List.cons.injEq, remove_eq_self_iff item, removeFromItems_eq_self_iff rest,
        Bool.and_eq_true]

theorem removeFromMembers_eq_self_iff : ∀ members : List (Text × Json),
    removeFromMembers members = members ↔ membersFree members = true
  | [] => by simp [removeFromMembers, membersFree]
  | (name, value) :: rest => by
      rw [removeFromMembers, membersFree]
      by_cases hname : name = headerKeyword
      · rw [if_pos hname]
        simp [hname, removeFromMembers_ne]
      · rw [if_neg hname, List.cons.injEq, Prod.mk.injEq, remove_eq_self_iff value, removeFromMembers_eq_self_iff rest]
        simp [hname]

end

theorem length_stripNamed (members : List (Text × Json)) : (stripNamed members).length = members.length := by
  induction members with
  | nil => rfl
  | cons member rest ih => rw [stripNamed, List.length_cons, ih, List.length_cons]

mutual

theorem remove_eq_strip_iff : ∀ v : Json,
    removeCustomHeaderAnnotations v = stripKeyword v ↔ onlyAsKeyword v = true
  | .object members => by
      rw [removeCustomHeaderAnnotations, stripKeyword, onlyAsKeyword, Json.object.injEq]
      exact removeFromMembers_eq_strip_iff members
  | .array items => by
      rw [stripKeyword, onlyAsKeyword, remove_eq_self_iff]
      · exact nofun
      · exact nofun
  | .null | .bool _ | .number _ | .string _ => by
      simp [removeCustomHeaderAnnotations, stripKeyword, onlyAsKeyword, isFree]

theorem removeFromMembers_eq_strip_iff : ∀ members : List (Text × Json),
    removeFromMembers members = stripMembers members ↔ membersOnlyAsKeyword members = true
  | [] => by simp [removeFromMembers, stripMembers, membersOnlyAsKeyword]
  | (name, value) :: rest => by
      rw [removeFromMembers, stripMembers, membersOnlyAsKeyword]
      by_cases hname : name = headerKeyword
      · rw [if_pos hname, if_pos hname, removeFromMembers_eq_strip_iff rest]
        simp [hname]
      · rw [if_neg hname, if_neg hname, List.cons.injEq, Prod.mk.injEq, remove_eq_stripValue_iff _ value,
          removeFromMembers_eq_strip_iff rest]
        simp [hname]

theorem remove_eq_stripValue_iff (holds : Holds) : ∀ v : Json,
    removeCustomHeaderAnnotations v = stripValue holds v ↔ valueOnlyAsKeyword holds v = true
  | .array items => by
      rw [removeCustomHeaderAnnotations, stripValue, valueOnlyAsKeyword]
      split_ifs
      · rw [Json.array.injEq]
        exact removeFromItems_eq_strip_iff items
      · rw [Json.array.injEq]
        exact removeFromItems_eq_self_iff items
  | .object members => by
      rw [removeCustomHeaderAnnotations, stripValue, valueOnlyAsKeyword]
      split_ifs
      · rw [Json.object.injEq]
        exact removeFromMembers_eq_strip_iff members
      · rw [Json.object.injEq]
        exact removeFromMembers_eq_named_iff members
      · rw [Json.object.injEq]
        exact removeFromMembers_eq_self_iff members
  | .null | .bool _ | .number _ | .string _ => by
      simp [removeCustomHeaderAnnotations, stripValue, valueOnlyAsKeyword]

theorem removeFromItems_eq_strip_iff : ∀ items : List Json,
    removeFromItems items = stripItems items ↔ itemsOnlyAsKeyword items = true
  | [] => by simp [removeFromItems, stripItems, itemsOnlyAsKeyword]
  | item :: rest => by
      rw [removeFromItems, stripItems, itemsOnlyAsKeyword, List.cons.injEq, remove_eq_strip_iff item,
        removeFromItems_eq_strip_iff rest, Bool.and_eq_true]

theorem removeFromMembers_eq_named_iff : ∀ members : List (Text × Json),
    removeFromMembers members = stripNamed members ↔ namedOnlyAsKeyword members = true
  | [] => by simp [removeFromMembers, stripNamed, namedOnlyAsKeyword]
  | (name, value) :: rest => by
      rw [removeFromMembers, stripNamed, namedOnlyAsKeyword]
      by_cases hname : name = headerKeyword
      · -- the removal takes a name for the keyword
        rw [if_pos hname]
        simp [hname, removeFromMembers_ne (length_stripNamed rest)]
      · rw [if_neg hname, List.cons.injEq, Prod.mk.injEq, remove_eq_strip_iff value,
          removeFromMembers_eq_named_iff rest]
        simp [hname]

end

/-! ## Schemas -/

def hasType (kind : Text) : Json → Bool
  | .null => kind = "null".toList
  | .bool _ => kind = "boolean".toList
  | .number _ => kind = "number".toList
  | .string _ => kind = "string".toList
  | .array _ => kind = "array".toList
  | .object _ => kind = "object".toList

def property (name : Text) : Json → Option Json
  | .object members => members.lookup name
  | _ => none

/-- A few keywords of JSON Schema; every other one is an annotation here. -/
inductive CoreKeyword where
  | type
  | not
  | allOf
  | properties
  | ignored
  deriving DecidableEq, Repr

def coreKeyword (name : Text) : CoreKeyword :=
  if name = "type".toList then .type
  else if name = "not".toList then .not
  else if name = "allOf".toList then .allOf
  else if name = "properties".toList then .properties
  else .ignored

mutual

def coreAccepts : Json → Json → Bool
  | .bool value, _ => value
  | .object members, input => coreMembers members input
  | _, _ => false

def coreMembers : List (Text × Json) → Json → Bool
  | [], _ => true
  | (name, value) :: rest, input => coreValue (coreKeyword name) value input && coreMembers rest input

def coreValue (keyword : CoreKeyword) : Json → Json → Bool
  | .string kind, input => decide (keyword ≠ .type) || hasType kind input
  | .bool value, _ => decide (keyword ≠ .not) || !value
  | .array items, input => decide (keyword ≠ .allOf) || coreItems items input
  | .object members, input =>
    (decide (keyword ≠ .not) || !coreMembers members input) &&
      (decide (keyword ≠ .properties) || coreProperties members input)
  | _, _ => true

def coreItems : List Json → Json → Bool
  | [], _ => true
  | item :: rest, input => coreAccepts item input && coreItems rest input

def coreProperties : List (Text × Json) → Json → Bool
  | [], _ => true
  | (name, value) :: rest, input =>
    (match property name input with | none => true | some found => coreAccepts value found) &&
      coreProperties rest input

end

theorem coreKeyword_header : coreKeyword headerKeyword = .ignored := by decide +kernel

theorem coreKeyword_holds (name : Text) : (coreKeyword name = .not → keywordHolds name = .schema) ∧
    (coreKeyword name = .allOf → keywordHolds name = .schemas) ∧
    (coreKeyword name = .properties → keywordHolds name = .named) := by
  rw [coreKeyword]
  split_ifs with htype hnot hall hproperties
  · exact ⟨nofun, nofun, nofun⟩
  · rw [hnot]
    exact ⟨fun _ => by decide +kernel, nofun, nofun⟩
  · rw [hall]
    exact ⟨nofun, fun _ => by decide +kernel, nofun⟩
  · rw [hproperties]
    exact ⟨nofun, nofun, fun _ => by decide +kernel⟩
  · exact ⟨nofun, nofun, nofun⟩

theorem coreValue_ignored (value input : Json) : coreValue .ignored value input = true := by
  cases value <;> simp [coreValue]

mutual

theorem coreAccepts_strip : ∀ schema input : Json, coreAccepts (stripKeyword schema) input = coreAccepts schema input
  | .object members, input => by
      rw [stripKeyword, coreAccepts, coreAccepts]
      exact coreMembers_strip members input
  | .array _, _ | .null, _ | .bool _, _ | .number _, _ | .string _, _ => by simp [stripKeyword]

theorem coreMembers_strip : ∀ (members : List (Text × Json)) (input : Json),
    coreMembers (stripMembers members) input = coreMembers members input
  | [], _ => by rw [stripMembers]
  | (name, value) :: rest, input => by
      rw [stripMembers]
      by_cases hname : name = headerKeyword
      · rw [if_pos hname, coreMembers, hname, coreKeyword_header, coreValue_ignored, Bool.true_and]
        exact coreMembers_strip rest input
      · rw [if_neg hname, coreMembers, coreMembers, coreMembers_strip rest input, coreValue_strip name value input]

theorem coreValue_strip (name : Text) : ∀ value input : Json,
    coreValue (coreKeyword name) (stripValue (keywordHolds name) value) input =
      coreValue (coreKeyword name) value input
  | .array items, input => by
      rw [stripValue]
      split_ifs with hholds
      · rw [coreValue, coreValue, coreItems_strip items input]
      · rfl
  | .object members, input => by
      obtain ⟨hnot, -, hproperties⟩ := coreKeyword_holds name
      rw [stripValue]
      split_ifs with hschema hnamed
      · have hother : coreKeyword name ≠ .properties := fun h => by
          rw [hproperties h] at hschema
          cases hschema
        rw [coreValue, coreValue, coreMembers_strip members input]
        simp [hother]
      · have hother : coreKeyword name ≠ .not := fun h => by
          rw [hnot h] at hnamed
          cases hnamed
        rw [coreValue, coreValue, coreProperties_strip members input]
        simp [hother]
      · rfl
  | .null, _ | .bool _, _ | .number _, _ | .string _, _ => by rw [stripValue]

theorem coreItems_strip : ∀ (items : List Json) (input : Json),
    coreItems (stripItems items) input = coreItems items input
  | [], _ => by rw [stripItems]
  | item :: rest, input => by
      rw [stripItems, coreItems, coreItems, coreAccepts_strip item input, coreItems_strip rest input]

theorem coreProperties_strip : ∀ (members : List (Text × Json)) (input : Json),
    coreProperties (stripNamed members) input = coreProperties members input
  | [], _ => by rw [stripNamed]
  | (name, value) :: rest, input => by
      rw [stripNamed, coreProperties, coreProperties, coreProperties_strip rest input]
      rcases property name input with _ | found
      · rfl
      · dsimp only
        rw [coreAccepts_strip value found]

end

theorem CapabilityInputSchema.new_eq_ok {schemas : JsonSchema} {document : Json} {schema : CapabilityInputSchema}
    (h : CapabilityInputSchema.new schemas document = .ok schema) :
    ∃ validator, schemas.new document = some validator ∧ schema = ⟨some document, some validator⟩ := by
  rw [CapabilityInputSchema.new] at h
  split_ifs at h
  rcases hnew : schemas.new document with _ | validator
  · rw [hnew] at h
    cases h
  · rw [hnew] at h
    cases h
    exact ⟨validator, rfl, rfl⟩

end Bondry.Mcp
