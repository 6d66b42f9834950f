/-
  GRANTS, DISCOVERY and the whole of one dispatch (`bondry-core`: `policy.rs`, `registry.rs`,
  `dispatch.rs`).

  `GrantPolicy` keeps its grants in two levels of maps and removes a level that becomes empty.  What it
  is FOR is a set of triples (principal, adapter, capability).
-/
import Bondry.Contract.Dispatch
import Bondry.Lib.BTreeMap

namespace Bondry

/-! ## The grant policy -/

inductive PolicyUpdateError where
  | unavailable
  deriving DecidableEq, Repr

/-- Exact grants behind a lock; `poisoned` is the lock's poison flag. -/
structure GrantPolicy where
  grants : BTreeMap PrincipalId (BTreeMap AdapterId (Finset CapabilityId))
  poisoned : Bool

namespace GrantPolicy

def new : GrantPolicy := ⟨∅, false⟩

def grant (policy : GrantPolicy) (principal : PrincipalId) (adapter : AdapterId)
    (capability : CapabilityId) : Except PolicyUpdateError Bool × GrantPolicy :=
  if policy.poisoned then (.error .unavailable, policy)
  else
    let adapters := policy.grants[principal]?.getD ∅
    let capabilities := adapters[adapter]?.getD ∅
    (.ok (decide (capability ∉ capabilities)),
      { policy with
        grants := policy.grants.insert principal
          (adapters.insert adapter (insert capability capabilities)) })

/-- `GrantPolicy::revoke`: a level that becomes empty is removed from the one above. -/
def revoke (policy : GrantPolicy) (principal : PrincipalId) (adapter : AdapterId)
    (capability : CapabilityId) : Except PolicyUpdateError Bool × GrantPolicy :=
  if policy.poisoned then (.error .unavailable, policy)
  else
    match policy.grants[principal]? with
    | none => (.ok false, policy)
    | some adapters =>
      match adapters[adapter]? with
      | none => (.ok false, policy)
      | some capabilities =>
        let removed := decide (capability ∈ capabilities)
        let capabilities := capabilities.erase capability
        let adapters :=
          if capabilities = ∅ then adapters.erase adapter else adapters.insert adapter capabilities
        let grants :=
          if adapters.isEmpty then policy.grants.erase principal
          else policy.grants.insert principal adapters
        (.ok removed, { policy with grants })

def evaluate (policy : GrantPolicy) (principal : Principal) (adapter : AdapterId)
    (capability : CapabilityDescriptor) : AuthorizationDecision :=
  if policy.poisoned then .deny .policyUnavailable
  else
    let allowed := match policy.grants[principal.id]?.bind fun adapters => adapters[adapter]? with
      | none => false
      | some capabilities => decide (capability.id ∈ capabilities)
    if allowed then .allow else .deny .notGranted

/-! ### What one call does -/

def held (policy : GrantPolicy) (principal : PrincipalId) (adapter : AdapterId) : Finset CapabilityId :=
  ((policy.grants[principal]?.getD ∅)[adapter]?).getD ∅

variable {policy : GrantPolicy} {principal : PrincipalId} {adapter : AdapterId}
  {capability : CapabilityId}

theorem grant_answer (hlock : policy.poisoned = false) : (policy.grant principal adapter capability).1 =
      .ok (decide (capability ∉ policy.held principal adapter)) := by
  unfold grant held
  rw [if_neg (by simp [hlock])]

theorem poisoned_grant : (policy.grant principal adapter capability).2.poisoned = policy.poisoned := by
  unfold grant
  split <;> rfl

theorem held_grant (hlock : policy.poisoned = false) (principal' : PrincipalId) (adapter' : AdapterId) :
    (policy.grant principal adapter capability).2.held principal' adapter' =
      if principal = principal' ∧ adapter = adapter' then insert capability (policy.held principal adapter)
      else policy.held principal' adapter' := by
  simp only [grant, hlock, Bool.false_eq_true, if_false, held, BTreeMap.find_insert]
  by_cases hp : principal = principal'
  · subst hp
    by_cases ha : adapter = adapter'
    · subst ha
      simp
    · simp [ha, BTreeMap.find_insert_ne _ _ ha]
  · simp [hp]

theorem revoke_answer (hlock : policy.poisoned = false) : (policy.revoke principal adapter capability).1 =
      .ok (decide (capability ∈ policy.held principal adapter)) := by
  unfold revoke held
  rw [if_neg (by simp [hlock])]
  rcases policy.grants[principal]? with _ | adapters
  · simp
  · rcases Option.eq_none_or_eq_some adapters[adapter]? with hnone | ⟨capabilities, hsome⟩
    · simp [hnone]
    · simp [hsome]

theorem poisoned_revoke : (policy.revoke principal adapter capability).2.poisoned = policy.poisoned := by
  unfold revoke
  split
  · rfl
  · split
    · rfl
    · split <;> rfl

theorem find_adapters (adapters : BTreeMap AdapterId (Finset CapabilityId))
    (adapter adapter' : AdapterId) (capabilities : Finset CapabilityId) :
    (if capabilities = ∅ then adapters.erase adapter
      else adapters.insert adapter capabilities)[adapter']?.getD ∅ =
      if adapter = adapter' then capabilities else adapters[adapter']?.getD ∅ := by
  by_cases hempty : capabilities = ∅
  · rw [if_pos hempty, BTreeMap.find_erase, hempty]
    split <;> rfl
  · rw [if_neg hempty, BTreeMap.find_insert]
    split <;> rfl

theorem find_grants (grants : BTreeMap PrincipalId (BTreeMap AdapterId (Finset CapabilityId)))
    (principal principal' : PrincipalId) (adapters : BTreeMap AdapterId (Finset CapabilityId))
    (adapter : AdapterId) : ((if adapters.isEmpty then grants.erase principal
        else grants.insert principal adapters)[principal']?.getD ∅)[adapter]?.getD ∅ =
      if principal = principal' then adapters[adapter]?.getD ∅
      else (grants[principal']?.getD ∅)[adapter]?.getD ∅ := by
  by_cases hempty : adapters.isEmpty = true
  · rw [if_pos hempty, BTreeMap.find_erase, Std.TreeMap.getElem?_of_isEmpty hempty]
    split <;> simp
  · rw [if_neg hempty, BTreeMap.find_insert]
    split <;> rfl

theorem held_revoke (hlock : policy.poisoned = false) (principal' : PrincipalId) (adapter' : AdapterId) :
    (policy.revoke principal adapter capability).2.held principal' adapter' =
      if principal = principal' ∧ adapter = adapter' then (policy.held principal adapter).erase capability
      else policy.held principal' adapter' := by
  have hmissing : policy.held principal adapter = ∅ →
      policy.held principal' adapter' =
        if principal = principal' ∧ adapter = adapter' then
          (policy.held principal adapter).erase capability
        else policy.held principal' adapter' := by
    intro hnone
    split
    · next hsame =>
      obtain ⟨rfl, rfl⟩ := hsame
      rw [hnone, Finset.erase_empty]
    · rfl
  unfold revoke
  rw [if_neg (by simp [hlock])]
  rcases hadapters : policy.grants[principal]? with _ | adapters
  · exact hmissing (by simp [held, hadapters])
  rcases hcapabilities : adapters[adapter]? with _ | capabilities
  · simp only [hcapabilities]
    exact hmissing (by simp [held, hadapters, hcapabilities])
  have hheld : policy.held principal adapter = capabilities := by
    simp [held, hadapters, hcapabilities]
  simp only [hcapabilities]
  rw [hheld, held, find_grants, find_adapters]
  by_cases hp : principal = principal'
  · subst hp
    simp [held, hadapters]
  · simp [hp, held]

theorem evaluate_eq (hlock : policy.poisoned = false) (principal : Principal) (adapter : AdapterId)
    (descriptor : CapabilityDescriptor) : policy.evaluate principal adapter descriptor =
      if descriptor.id ∈ policy.held principal.id adapter then .allow else .deny .notGranted := by
  unfold evaluate held
  rw [if_neg (by simp [hlock])]
  rcases policy.grants[principal.id]? with _ | adapters
  · simp
  · rcases Option.eq_none_or_eq_some adapters[adapter]? with hnone | ⟨capabilities, hsome⟩
    · simp [hnone]
    · simp [hsome]

end GrantPolicy

/-! ### Histories -/

inductive GrantChange where
  | grant (principal : PrincipalId) (adapter : AdapterId) (capability : CapabilityId)
  | revoke (principal : PrincipalId) (adapter : AdapterId) (capability : CapabilityId)

/-- The triple a change is about, and whether it is a grant. -/
def GrantChange.triple : GrantChange → PrincipalId × AdapterId × CapabilityId
  | .grant principal adapter capability | .revoke principal adapter capability =>
    (principal, adapter, capability)

def GrantChange.isGrant : GrantChange → Bool
  | .grant .. => true
  | .revoke .. => false

/-- The set of triples that were granted and not revoked since their last grant. -/
def grantedTriples (history : List GrantChange) : Set (PrincipalId × AdapterId × CapabilityId) :=
  { triple | ∃ before change after_, history = before ++ change :: after_ ∧
      change.triple = triple ∧ change.isGrant = true ∧
      ∀ later ∈ after_, later.triple = triple → later.isGrant = true }

def GrantPolicy.change (policy : GrantPolicy) : GrantChange → Except PolicyUpdateError Bool × GrantPolicy
  | .grant principal adapter capability => policy.grant principal adapter capability
  | .revoke principal adapter capability => policy.revoke principal adapter capability

def GrantPolicy.after (history : List GrantChange) : GrantPolicy :=
  history.foldl (fun policy change => (policy.change change).2) .new

theorem grantedTriples_snoc (history : List GrantChange) (change : GrantChange)
    (triple : PrincipalId × AdapterId × CapabilityId) : triple ∈ grantedTriples (history ++ [change]) ↔
      if change.triple = triple then change.isGrant = true else triple ∈ grantedTriples history := by
  constructor
  · rintro ⟨before, granting, after_, heq, htriple, hgrant, hlater⟩
    rcases List.eq_nil_or_concat after_ with rfl | ⟨rest, last, rfl⟩
    · obtain ⟨-, hchange⟩ := List.append_inj' heq rfl
      cases hchange
      rwa [if_pos htriple]
    · rw [List.concat_eq_append, ← List.cons_append, ← List.append_assoc] at heq
      obtain ⟨rfl, hchange⟩ := List.append_inj' heq rfl
      cases hchange
      split
      · next hsame => exact hlater change (by simp) hsame
      · exact ⟨before, granting, rest, rfl, htriple, hgrant, fun later hmem => hlater later (by simp [hmem])⟩
  · intro h
    split at h
    · next hsame => exact ⟨history, change, [], rfl, hsame, h, by simp⟩
    · next hother =>
      obtain ⟨before, granting, after_, rfl, htriple, hgrant, hlater⟩ := h
      refine ⟨before, granting, after_ ++ [change], by simp, htriple, hgrant, ?_⟩
      intro later hmem hlast
      rcases List.mem_append.mp hmem with hmem | hmem
      · exact hlater later hmem hlast
      · rw [List.mem_singleton.mp hmem] at hlast
        exact absurd hlast hother

namespace GrantPolicy

theorem after_snoc (history : List GrantChange) (change : GrantChange) :
    after (history ++ [change]) = ((after history).change change).2 := by
  simp [after, List.foldl_append]

/-- No call ever panics while it holds the lock. -/
theorem poisoned_after (history : List GrantChange) : (after history).poisoned = false := by
  induction history using List.reverseRecOn with
  | nil => rfl
  | append_singleton history change ih =>
    rw [after_snoc]
    rcases change with _ | _
    · exact poisoned_grant.trans ih
    · exact poisoned_revoke.trans ih

/-- **The policy holds exactly the triples of its history.** -/
theorem holds_after (history : List GrantChange) (principal : PrincipalId) (adapter : AdapterId)
    (capability : CapabilityId) : capability ∈ (after history).held principal adapter ↔
      (principal, adapter, capability) ∈ grantedTriples history := by
  induction history using List.reverseRecOn with
  | nil => simp [after, new, held, grantedTriples]
  | append_singleton history change ih =>
    have hlock := poisoned_after history
    rw [after_snoc, grantedTriples_snoc, ← ih]
    rcases change with ⟨p, a, c⟩ | ⟨p, a, c⟩
    · rw [change, held_grant hlock]
      simp only [GrantChange.triple, GrantChange.isGrant, Prod.mk.injEq]
      split_ifs with hwhere htriple htriple
      · simp [htriple.2.2]
      · obtain ⟨rfl, rfl⟩ := hwhere
        have hne : capability ≠ c := fun h => htriple ⟨rfl, rfl, h.symm⟩
        simp [hne]
      · exact absurd ⟨htriple.1, htriple.2.1⟩ hwhere
      · rfl
    · rw [change, held_revoke hlock]
      simp only [GrantChange.triple, GrantChange.isGrant, Prod.mk.injEq]
      split_ifs with hwhere htriple htriple
      · simp [htriple.2.2]
      · obtain ⟨rfl, rfl⟩ := hwhere
        have hne : capability ≠ c := fun h => htriple ⟨rfl, rfl, h.symm⟩
        simp [hne]
      · exact absurd ⟨htriple.1, htriple.2.1⟩ hwhere
      · rfl

theorem change_answer (history : List GrantChange) (change : GrantChange) :
    ∃ changed, ((after history).change change).1 = .ok changed ∧
      (changed = true ↔ grantedTriples (history ++ [change]) ≠ grantedTriples history) := by
  have hlock := poisoned_after history
  -- the set changes iff the membership of the change's own triple does
  have hset : grantedTriples (history ++ [change]) ≠ grantedTriples history ↔
      ¬ (change.isGrant = true ↔ change.triple ∈ grantedTriples history) := by
    rw [not_iff_not]
    constructor
    · intro heq
      rw [← heq, grantedTriples_snoc, if_pos rfl]
    · intro hsame
      ext triple
      rw [grantedTriples_snoc]
      split
      · next htriple => rw [← htriple, hsame]
      · rfl
  rcases change with ⟨p, a, c⟩ | ⟨p, a, c⟩
  · refine ⟨_, grant_answer hlock, ?_⟩
    rw [hset, decide_eq_true_eq, holds_after]
    simp [GrantChange.isGrant, GrantChange.triple]
  · refine ⟨_, revoke_answer hlock, ?_⟩
    rw [hset, decide_eq_true_eq, holds_after]
    simp [GrantChange.isGrant, GrantChange.triple]

theorem evaluate_after (history : List GrantChange) (principal : Principal) (adapter : AdapterId)
    (descriptor : CapabilityDescriptor) : (after history).evaluate principal adapter descriptor = .allow ∧
        (principal.id, adapter, descriptor.id) ∈ grantedTriples history ∨
      (after history).evaluate principal adapter descriptor = .deny .notGranted ∧
        (principal.id, adapter, descriptor.id) ∉ grantedTriples history := by
  rw [evaluate_eq (poisoned_after history), ← holds_after]
  split
  · next hheld => exact .inl ⟨rfl, hheld⟩
  · next hheld => exact .inr ⟨rfl, hheld⟩

end GrantPolicy

/-! ## One dispatch -/

def resumeAll : List DispatchEvent × Poll InvocationContext → List DispatchWorld →
    List DispatchEvent × Poll InvocationContext
  | (events, .ready result), _ => (events, .ready result)
  | (events, .pending context), [] => (events, .pending context)
  | (events, .pending context), world :: later =>
    let next := CapabilityRegistry.resume world context
    resumeAll (events ++ next.1, next.2) later

theorem resumeAll_ready (events : List DispatchEvent) (result : Except DispatchError Json)
    (later : List DispatchWorld) : resumeAll (events, .ready result) later = (events, .ready result) := by
  rcases later with _ | _ <;> rfl

/-- `Dispatcher::dispatch`: started in one world and resumed in others. -/
def CapabilityRegistry.dispatch (registry : CapabilityRegistry) (world : DispatchWorld)
    (later : List DispatchWorld) (invocation : Invocation) : List DispatchEvent × Poll InvocationContext :=
  resumeAll (registry.start world invocation) later

def recordedOutcomes (events : List DispatchEvent) : List AuditOutcome :=
  events.filterMap fun
    | .audited outcome true => some outcome
    | _ => none

/-- The whole sequence of records that matches a result; an audit error has none. -/
def sequenceOf : Except DispatchError Json → Option (List AuditOutcome)
  | .ok _ => some [.started, .succeeded]
  | .error .audit => none
  | .error (.capabilityNotFound _) => some [.capabilityNotFound]
  | .error (.accessDenied reason) => some [.denied reason]
  | .error .invalidInput => some [.invalidInput]
  | .error (.handler code) => some [.started, .handlerFailed code]

/-- What was recorded is a prefix of a whole sequence, and a result that is not an audit error comes
    with the whole sequence that matches it. -/
structure Recorded (progress : List DispatchEvent × Poll InvocationContext) : Prop where
  partly : ∃ result sequence, sequenceOf result = some sequence ∧
    recordedOutcomes progress.1 <+: sequence
  wholly : ∀ result, progress.2 = .ready result → result ≠ .error .audit →
    sequenceOf result = some (recordedOutcomes progress.1)

theorem recordThen_recorded (world : DispatchWorld) (context : InvocationContext)
    {outcome : AuditOutcome} {error : DispatchError}
    (hsequence : sequenceOf (.error error) = some [outcome]) :
    Recorded (recordThen world context outcome (.error error)) := by
  unfold recordThen
  split
  · refine ⟨⟨_, _, hsequence, by simp [recordedOutcomes]⟩, fun result hresult _ => ?_⟩
    cases hresult
    exact hsequence
  · refine ⟨⟨_, _, hsequence, by simp [recordedOutcomes]⟩, fun result hresult hother => ?_⟩
    cases hresult
    exact absurd rfl hother

theorem waiting_recorded (context : InvocationContext) :
    Recorded ([.audited .started true, .invoked], .pending context) :=
  ⟨⟨.ok .null, _, rfl, by simp [recordedOutcomes]⟩, fun _ hresult => nomatch hresult⟩

theorem sequenceOf_finalResult (answer : Except HandlerErrorCode Json) :
    sequenceOf (finalResult answer) = some [.started, finalOutcome answer] := by
  rcases answer with _ | _ <;> rfl

/-- However often a waiting dispatch is resumed: its records are as they should be, and its handler
    was invoked once. -/
theorem resumeAll_waiting (later : List DispatchWorld) (context : InvocationContext) :
    let progress := resumeAll ([.audited .started true, .invoked], .pending context) later
    Recorded progress ∧ .invoked ∈ progress.1 ∧
      ∀ reason recorded, .audited (.denied reason) recorded ∉ progress.1 := by
  induction later with
  | nil => exact ⟨waiting_recorded context, by simp [resumeAll], by simp [resumeAll]⟩
  | cons world rest ih =>
    simp only [resumeAll, CapabilityRegistry.resume]
    rcases world.handler with _ | answer
    · exact ih
    -- the handler has answered: one more record, and the dispatch is over
    have hsequence := sequenceOf_finalResult answer
    have hdenied : ∀ reason, finalOutcome answer ≠ .denied reason := by
      rcases answer with _ | _ <;> simp [finalOutcome]
    simp only [recordThen]
    split
    · rw [resumeAll_ready]
      refine ⟨⟨⟨_, _, hsequence, by simp [recordedOutcomes]⟩, fun result hresult _ => ?_⟩,
        by simp, by simpa using fun reason h => hdenied reason h.symm⟩
      cases hresult
      simpa [recordedOutcomes] using hsequence
    · rw [resumeAll_ready]
      refine ⟨⟨⟨_, _, hsequence, by simp [recordedOutcomes]⟩, fun result hresult hother => ?_⟩,
        by simp, by simpa using fun reason h => hdenied reason h.symm⟩
      cases hresult
      exact absurd rfl hother

theorem resumeAll_recordThen (world : DispatchWorld) (context : InvocationContext)
    (outcome : AuditOutcome) (result : Except DispatchError Json) (later : List DispatchWorld) :
    resumeAll (recordThen world context outcome result) later = recordThen world context outcome result := by
  unfold recordThen
  split <;> exact resumeAll_ready _ _ _

theorem dispatch_eq (registry : CapabilityRegistry) (world : DispatchWorld)
    (later : List DispatchWorld) (invocation : Invocation) :
    registry.dispatch world later invocation =
      match registry.resolve invocation.capability with
      | none => recordThen world invocation.context .capabilityNotFound
          (.error (.capabilityNotFound invocation.capability))
      | some descriptor =>
        match world.policy invocation.principal invocation.adapter descriptor with
        | .deny reason =>
          recordThen world invocation.context (.denied reason) (.error (.accessDenied reason))
        | .allow =>
          if descriptor.accepts invocation.input then
            if world.records (.of invocation.context .started) then
              resumeAll ([.audited .started true, .invoked], .pending invocation.context) later
            else ([.audited .started false], .ready (.error .audit))
          else recordThen world invocation.context .invalidInput (.error .invalidInput) := by
  unfold CapabilityRegistry.dispatch CapabilityRegistry.start
  rcases registry.resolve invocation.capability with _ | descriptor
  · exact resumeAll_recordThen _ _ _ _ _
  · dsimp only
    rcases world.policy invocation.principal invocation.adapter descriptor with _ | reason
    · split_ifs
      · rfl
      · exact resumeAll_ready _ _ _
      · exact resumeAll_recordThen _ _ _ _ _
    · exact resumeAll_recordThen _ _ _ _ _

theorem dispatch_recorded (registry : CapabilityRegistry) (world : DispatchWorld)
    (later : List DispatchWorld) (invocation : Invocation) :
    Recorded (registry.dispatch world later invocation) := by
  rw [dispatch_eq]
  split
  · exact recordThen_recorded _ _ rfl
  split
  · exact recordThen_recorded _ _ rfl
  · split
    · split
      · exact (resumeAll_waiting later _).1
      · refine ⟨⟨.ok .null, _, rfl, by simp [recordedOutcomes]⟩, fun result hresult hother => ?_⟩
        cases hresult
        exact absurd rfl hother
    · exact recordThen_recorded _ _ rfl

theorem invoked_notMem_recordThen (world : DispatchWorld) (context : InvocationContext)
    (outcome : AuditOutcome) (result : Except DispatchError Json) :
    DispatchEvent.invoked ∉ (recordThen world context outcome result).1 := by
  unfold recordThen
  split <;> simp

/-- **When the handler runs.** -/
theorem invoked_iff (registry : CapabilityRegistry) (world : DispatchWorld)
    (later : List DispatchWorld) (invocation : Invocation) :
    .invoked ∈ (registry.dispatch world later invocation).1 ↔
      ∃ descriptor, registry.resolve invocation.capability = some descriptor ∧
        world.policy invocation.principal invocation.adapter descriptor = .allow ∧
        descriptor.accepts invocation.input = true ∧
        world.records (.of invocation.context .started) = true := by
  rw [dispatch_eq]
  rcases hresolve : registry.resolve invocation.capability with _ | descriptor
  · simp [invoked_notMem_recordThen]
  simp only [Option.some.injEq, exists_eq_left']
  rcases hpolicy : world.policy invocation.principal invocation.adapter descriptor with _ | reason
  · simp only [true_and]
    split
    · next haccepts =>
      simp only [haccepts, true_and]
      split
      · next hstarted => simp [hstarted, (resumeAll_waiting later _).2.1]
      · next hstarted => simp [hstarted]
    · next haccepts => simp [invoked_notMem_recordThen, haccepts]
  · simp [invoked_notMem_recordThen]

theorem denied_iff (registry : CapabilityRegistry) (world : DispatchWorld)
    (later : List DispatchWorld) (invocation : Invocation) :
    (∃ reason recorded, .audited (.denied reason) recorded ∈ (registry.dispatch world later invocation).1) ↔
      ∃ descriptor reason, registry.resolve invocation.capability = some descriptor ∧
        world.policy invocation.principal invocation.adapter descriptor = .deny reason := by
  have hevents : ∀ outcome result, ∃ recorded,
      (recordThen world invocation.context outcome result).1 = [.audited outcome recorded] := by
    intro outcome result
    unfold recordThen
    split
    · exact ⟨true, rfl⟩
    · exact ⟨false, rfl⟩
  rw [dispatch_eq]
  rcases hresolve : registry.resolve invocation.capability with _ | descriptor
  · obtain ⟨recorded, hrecord⟩ := hevents .capabilityNotFound
      (.error (.capabilityNotFound invocation.capability))
    simp [hrecord]
  rcases hpolicy : world.policy invocation.principal invocation.adapter descriptor with _ | reason
  · simp only [Option.some.injEq, hpolicy]
    constructor
    · rintro ⟨reason, recorded, hmem⟩
      exfalso
      split at hmem
      · split at hmem
        · exact (resumeAll_waiting later _).2.2 reason recorded hmem
        · simp at hmem
      · obtain ⟨recorded', hrecord⟩ := hevents .invalidInput (.error .invalidInput)
        simp [hrecord] at hmem
    · rintro ⟨descriptor', reason, rfl, hdeny⟩
      rw [hpolicy] at hdeny
      cases hdeny
  · obtain ⟨recorded, hrecord⟩ := hevents (.denied reason) (.error (.accessDenied reason))
    simp only [hpolicy, hrecord, List.mem_singleton, Option.some.injEq]
    exact ⟨fun _ => ⟨descriptor, reason, rfl, hpolicy⟩, fun _ => ⟨reason, recorded, rfl⟩⟩

/-! ## The registry and discovery -/

def CapabilityRegistry.descriptors (registry : CapabilityRegistry) : List CapabilityDescriptor :=
  registry.capabilities.mergeSort fun a b => decide (a.id ≤ b.id)

inductive CapabilityDiscoveryError where
  | policyUnavailable
  deriving DecidableEq, Repr

/-- The loop of `Dispatcher::capabilities`. -/
def capabilitiesLoop (evaluate : CapabilityDescriptor → AuthorizationDecision) :
    List CapabilityDescriptor → List CapabilityDescriptor →
      Except CapabilityDiscoveryError (List CapabilityDescriptor)
  | allowed, [] => .ok allowed
  | allowed, descriptor :: rest =>
    match evaluate descriptor with
    | .allow => capabilitiesLoop evaluate (allowed ++ [descriptor]) rest
    | .deny .notGranted => capabilitiesLoop evaluate allowed rest
    | .deny .policyUnavailable => .error .policyUnavailable

/-- `Dispatcher::capabilities`. -/
def CapabilityRegistry.authorized (registry : CapabilityRegistry)
    (policy : Principal → AdapterId → CapabilityDescriptor → AuthorizationDecision)
    (principal : Principal) (adapter : AdapterId) :
    Except CapabilityDiscoveryError (List CapabilityDescriptor) :=
  capabilitiesLoop (policy principal adapter) [] registry.descriptors

theorem capabilitiesLoop_eq {evaluate : CapabilityDescriptor → AuthorizationDecision}
    (havailable : ∀ descriptor, evaluate descriptor ≠ .deny .policyUnavailable)
    (allowed descriptors : List CapabilityDescriptor) : capabilitiesLoop evaluate allowed descriptors =
      .ok (allowed ++ descriptors.filter fun descriptor => evaluate descriptor = .allow) := by
  induction descriptors generalizing allowed with
  | nil => simp [capabilitiesLoop]
  | cons descriptor rest ih =>
    rcases hevaluate : evaluate descriptor with _ | _ | _
    · simp [capabilitiesLoop, hevaluate, ih]
    · simp [capabilitiesLoop, hevaluate, ih]
    · exact absurd hevaluate (havailable descriptor)

theorem descriptors_perm (registry : CapabilityRegistry) :
    registry.descriptors.Perm registry.capabilities := List.mergeSort_perm _ _

theorem descriptors_ascending (registry : CapabilityRegistry) :
    registry.descriptors.Pairwise fun a b => a.id < b.id := by
  have hsorted : registry.descriptors.Pairwise fun a b => decide (a.id ≤ b.id) = true :=
    List.pairwise_mergeSort (fun a b c hab hbc => by simp only [decide_eq_true_eq] at *; exact hab.trans hbc)
      (fun a b => by simpa using le_total a.id b.id) _
  have hunique : registry.descriptors.Pairwise fun a b => a.id ≠ b.id := by
    have := (((descriptors_perm registry).map CapabilityDescriptor.id).nodup_iff).mpr registry.unique
    exact List.pairwise_map.mp this
  refine (hsorted.and hunique).imp ?_
  rintro a b ⟨hle, hne⟩
  exact lt_of_le_of_ne (of_decide_eq_true hle) hne

theorem resolve_eq_some (registry : CapabilityRegistry) (descriptor : CapabilityDescriptor) :
    registry.resolve descriptor.id = some descriptor ↔ descriptor ∈ registry.capabilities := by
  constructor
  · exact List.mem_of_find?_eq_some
  · intro hmem
    rcases hfound : registry.resolve descriptor.id with _ | other
    · have := List.find?_eq_none.mp hfound descriptor hmem
      simp at this
    · have hid : other.id = descriptor.id := by simpa using List.find?_some hfound
      rw [List.inj_on_of_nodup_map registry.unique (List.mem_of_find?_eq_some hfound) hmem hid]

/-! ## Authorization and audit -/

/-- **Authorization and audit are exact.**  For every history of grants and revocations, every registry
    and every audit sink, in the policy state the history leads to:
    1. a dispatch invokes its handler iff the capability is registered, its triple is granted, the
       input is accepted and the start was recorded;
    2. its records are always the beginning of a whole sequence, and a result other than an audit
       error comes with the whole sequence that matches it;
    3. a change answers true exactly when it changes the set of granted triples;
    4. discovery returns the registered descriptors, each once in id order, that no dispatch in this
       state would deny. -/
theorem dispatch_authorized (history : List GrantChange) (registry : CapabilityRegistry) :
    let policy := (GrantPolicy.after history).evaluate
    (∀ records later invocation,
      let progress := registry.dispatch ⟨policy, records, none⟩ later invocation
      (.invoked ∈ progress.1 ↔
        ∃ descriptor, registry.resolve invocation.capability = some descriptor ∧
          (invocation.principal.id, invocation.adapter, invocation.capability)
            ∈ grantedTriples history ∧
          descriptor.accepts invocation.input = true ∧
          records (.of invocation.context .started) = true) ∧
        Recorded progress) ∧
      (∀ change, ∃ changed, ((GrantPolicy.after history).change change).1 = .ok changed ∧
        (changed = true ↔ grantedTriples (history ++ [change]) ≠ grantedTriples history)) ∧
      ∀ principal adapter, ∃ descriptors,
        registry.authorized policy principal adapter = .ok descriptors ∧
        descriptors.Pairwise (fun a b => a.id < b.id) ∧
        ∀ descriptor, descriptor ∈ descriptors ↔
          descriptor ∈ registry.capabilities ∧
          ∀ records later invocation, invocation.principal = principal →
            invocation.adapter = adapter → invocation.capability = descriptor.id →
            ¬ ∃ reason recorded, .audited (.denied reason) recorded ∈
              (registry.dispatch ⟨policy, records, none⟩ later invocation).1 := by
  intro policy
  refine ⟨?_, GrantPolicy.change_answer history, ?_⟩
  · intro records later invocation
    refine ⟨?_, dispatch_recorded registry _ later invocation⟩
    rw [invoked_iff]
    refine exists_congr fun descriptor => and_congr_right fun hresolve => and_congr_left fun _ => ?_
    have hid : descriptor.id = invocation.capability := by simpa using List.find?_some hresolve
    rw [← hid]
    rcases GrantPolicy.evaluate_after history invocation.principal invocation.adapter descriptor with
      ⟨hallow, hgranted⟩ | ⟨hdeny, hgranted⟩
    · simp [policy, hallow, hgranted]
    · simp [policy, hdeny, hgranted]
  · intro principal adapter
    have havailable : ∀ descriptor, policy principal adapter descriptor ≠ .deny .policyUnavailable := by
      intro descriptor
      rcases GrantPolicy.evaluate_after history principal adapter descriptor with ⟨h, -⟩ | ⟨h, -⟩ <;>
        simp [policy, h]
    refine ⟨_, capabilitiesLoop_eq havailable [] _, ?_, ?_⟩
    · exact (descriptors_ascending registry).filter _
    · intro descriptor
      rw [List.nil_append, List.mem_filter, (descriptors_perm registry).mem_iff]
      refine and_congr_right fun hmem => ?_
      have hresolve := (resolve_eq_some registry descriptor).mpr hmem
      rw [decide_eq_true_eq]
      constructor
      · rintro hallow records later invocation rfl rfl hcapability hdenied
        obtain ⟨other, reason, hother, hdeny⟩ := (denied_iff _ _ _ _).mp hdenied
        rw [hcapability, hresolve] at hother
        cases hother
        exact absurd (hallow.symm.trans hdeny) (by simp)
      · intro hnever
        rcases GrantPolicy.evaluate_after history principal adapter descriptor with
          ⟨hallow, -⟩ | ⟨hdeny, -⟩
        · exact hallow
        · -- a denied descriptor: any invocation of it is denied
          let invocation : Invocation :=
            ⟨⟨descriptor.id.text, descriptor.id.valid⟩, adapter, principal, descriptor.id, .null⟩
          exact absurd ((denied_iff registry ⟨policy, fun _ => true, none⟩ [] invocation).mpr
            ⟨descriptor, _, hresolve, hdeny⟩) (hnever _ [] invocation rfl rfl rfl)

end Bondry
