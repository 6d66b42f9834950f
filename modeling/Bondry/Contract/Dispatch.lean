/-
  THE DISPATCHER (`bondry-core`: `registry.rs`, `policy.rs`, `audit.rs`, `dispatch.rs`).

  An invocation is resolved, authorized, validated, executed and audited.  The only point where
  `Dispatcher::dispatch` waits is the handler, so it is two segments: `start` runs up to the handler's
  invocation, `resume` from the handler's answer to the end.  What the outside decides during a
  segment (the policy's verdict, whether the audit sink accepts the record, what the handler returns)
  is a `DispatchWorld`, an argument of the segment.
-/
import Bondry.Contract.Identifier
import Bondry.Lib.Json

namespace Bondry

/-! ## Capabilities -/

inductive CapabilityEffect where
  | readOnly
  | mutating
  deriving DecidableEq, Repr

/-- Protocol-neutral metadata of a capability; `accepts` is its compiled input schema. -/
structure CapabilityDescriptor where
  id : CapabilityId
  effect : CapabilityEffect
  accepts : Json → Bool

structure CapabilityRegistry where
  capabilities : List CapabilityDescriptor
  unique : (capabilities.map CapabilityDescriptor.id).Nodup

def CapabilityRegistry.resolve (registry : CapabilityRegistry) (id : CapabilityId) :
    Option CapabilityDescriptor :=
  registry.capabilities.find? fun descriptor => descriptor.id = id

/-! ## Invocations -/

structure Principal where
  id : PrincipalId
  deriving DecidableEq

structure Invocation where
  id : InvocationId
  adapter : AdapterId
  principal : Principal
  capability : CapabilityId
  input : Json

structure InvocationContext where
  id : InvocationId
  adapter : AdapterId
  principal : Principal
  capability : CapabilityId
  deriving DecidableEq

/-- `InvocationContext::from_invocation`. -/
def Invocation.context (invocation : Invocation) : InvocationContext :=
  ⟨invocation.id, invocation.adapter, invocation.principal, invocation.capability⟩

/-! ## Policy and audit -/

inductive DenialReason where
  | notGranted
  | policyUnavailable
  deriving DecidableEq, Repr

inductive AuthorizationDecision where
  | allow
  | deny (reason : DenialReason)
  deriving DecidableEq, Repr

inductive AuditOutcome where
  | capabilityNotFound
  | denied (reason : DenialReason)
  | started
  | invalidInput
  | succeeded
  | handlerFailed (code : HandlerErrorCode)
  deriving DecidableEq

structure AuditEvent where
  invocation : InvocationId
  principal : PrincipalId
  adapter : AdapterId
  capability : CapabilityId
  outcome : AuditOutcome
  deriving DecidableEq

/-- `AuditEvent::new`. -/
def AuditEvent.of (context : InvocationContext) (outcome : AuditOutcome) : AuditEvent :=
  ⟨context.id, context.principal.id, context.adapter, context.capability, outcome⟩

/-! ## Dispatch -/

inductive DispatchError where
  | audit
  | capabilityNotFound (capability : CapabilityId)
  | accessDenied (reason : DenialReason)
  | invalidInput
  | handler (code : HandlerErrorCode)
  deriving DecidableEq

/-- Where a dispatch stands after a segment: done, or waiting with what it needs to go on. -/
inductive Poll (χ : Type) where
  | ready (result : Except DispatchError Json)
  | pending (state : χ)

/-- An `AutomationService` seen from an adapter, cut where it waits: `ε` is what the outside decides
    during a segment, `χ` what a waiting dispatch keeps, `ω` what can be observed. -/
structure Service (ε χ ω : Type) where
  start : ε → Invocation → List ω × Poll χ
  resume : ε → χ → List ω × Poll χ

structure DispatchWorld where
  policy : Principal → AdapterId → CapabilityDescriptor → AuthorizationDecision
  records : AuditEvent → Bool
  handler : Option (Except HandlerErrorCode Json)

inductive DispatchEvent where
  | audited (outcome : AuditOutcome) (recorded : Bool)
  | invoked
  | returned (answer : Except HandlerErrorCode Json)

/-- `audit.record(…)?` in front of a return. -/
def recordThen (world : DispatchWorld) (context : InvocationContext) (outcome : AuditOutcome)
    (result : Except DispatchError Json) : List DispatchEvent × Poll InvocationContext :=
  if world.records (.of context outcome) then ([.audited outcome true], .ready result)
  else ([.audited outcome false], .ready (.error .audit))

def finalOutcome : Except HandlerErrorCode Json → AuditOutcome
  | .ok _ => .succeeded
  | .error code => .handlerFailed code

def finalResult : Except HandlerErrorCode Json → Except DispatchError Json
  | .ok output => .ok output
  | .error code => .error (.handler code)

/-- `Dispatcher::dispatch` up to its only `await`. -/
def CapabilityRegistry.start (registry : CapabilityRegistry) (world : DispatchWorld)
    (invocation : Invocation) : List DispatchEvent × Poll InvocationContext :=
  let context := invocation.context
  match registry.resolve invocation.capability with
  | none =>
    recordThen world context .capabilityNotFound
      (.error (.capabilityNotFound invocation.capability))
  | some descriptor =>
    match world.policy invocation.principal invocation.adapter descriptor with
    | .deny reason => recordThen world context (.denied reason) (.error (.accessDenied reason))
    | .allow =>
      if descriptor.accepts invocation.input then
        if world.records (.of context .started) then
          ([.audited .started true, .invoked], .pending context)
        else ([.audited .started false], .ready (.error .audit))
      else recordThen world context .invalidInput (.error .invalidInput)

/-- `Dispatcher::dispatch` from the handler's answer on; without one it keeps waiting. -/
def CapabilityRegistry.resume (world : DispatchWorld) (context : InvocationContext) :
    List DispatchEvent × Poll InvocationContext :=
  match world.handler with
  | none => ([], .pending context)
  | some answer =>
    let ending := recordThen world context (finalOutcome answer) (finalResult answer)
    (.returned answer :: ending.1, ending.2)

def dispatcher (registry : CapabilityRegistry) : Service DispatchWorld InvocationContext DispatchEvent where
  start := registry.start
  resume := CapabilityRegistry.resume

/-! ## Every way a dispatch can go -/

/-- What a dispatch has done when it waits or has ended. -/
inductive Trail : List DispatchEvent → Poll InvocationContext → Prop
  | refused {outcome error}
      (h : (∃ capability, error = .capabilityNotFound capability) ∨
        (∃ reason, error = .accessDenied reason) ∨ error = .invalidInput) :
      Trail [.audited outcome true] (.ready (.error error))
  | unaudited {outcome} : Trail [.audited outcome false] (.ready (.error .audit))
  | running {context} : Trail [.audited .started true, .invoked] (.pending context)
  | finished {answer} :
      Trail [.audited .started true, .invoked, .returned answer,
        .audited (finalOutcome answer) true] (.ready (finalResult answer))
  | uncertain {answer} :
      Trail [.audited .started true, .invoked, .returned answer,
        .audited (finalOutcome answer) false] (.ready (.error .audit))

theorem recordThen_trail {world : DispatchWorld} {context : InvocationContext}
    {outcome : AuditOutcome} {error : DispatchError}
    (h : (∃ capability, error = .capabilityNotFound capability) ∨
      (∃ reason, error = .accessDenied reason) ∨ error = .invalidInput) :
    Trail (recordThen world context outcome (.error error)).1
      (recordThen world context outcome (.error error)).2 := by
  unfold recordThen
  split
  · exact .refused h
  · exact .unaudited

/-- **The first segment**: refused, unaudited, or the handler invoked. -/
theorem start_trail (registry : CapabilityRegistry) (world : DispatchWorld) (invocation : Invocation) :
    Trail (registry.start world invocation).1 (registry.start world invocation).2 := by
  unfold CapabilityRegistry.start
  dsimp only
  split
  · exact recordThen_trail (.inl ⟨_, rfl⟩)
  · split
    · exact recordThen_trail (.inr (.inl ⟨_, rfl⟩))
    · split
      · split
        · exact .running
        · exact .unaudited
      · exact recordThen_trail (.inr (.inr rfl))

/-- **The second segment** continues the trail of a waiting dispatch. -/
theorem resume_trail {events : List DispatchEvent} {context : InvocationContext}
    (world : DispatchWorld) (h : Trail events (.pending context)) :
    Trail (events ++ (CapabilityRegistry.resume world context).1)
      (CapabilityRegistry.resume world context).2 := by
  cases h with
  | running =>
    unfold CapabilityRegistry.resume
    split
    · exact .running
    · dsimp only
      unfold recordThen
      split
      · exact .finished
      · exact .uncertain

end Bondry
