/-
  DELIVERY KINDS AND ATTEMPTS (`bondry-egress`, `kind.rs`; `bondry-egress-runtime`, `attempt.rs`).

  A delivery kind is sans-I/O: it answers requests with the next thing to do, and the runtime does it.
  Requests and the completions of the transport are outside the engine's view, so both are type
  variables, `Q` and `A`.

  A `DeliveryOperation` is a Rust object with `&mut self` methods.  What such an object answers is a
  function of everything it was given so far, and that function is what the model keeps.

  `executeAttempt` is the loop of `execute_attempt` over what the outside does during one attempt
  (`AttemptWorld`): what each secret reference resolves to, and for every request the time it was about
  to be sent and what came back.  An attempt whose world ends before the operation completes is still
  running: `none`.
-/
import Bondry.Contract.Secrets
import Bondry.Egress.Lifecycle

namespace Bondry.Egress

/-! ## Kinds -/

inductive OperationMode where
  | emit
  | call
  deriving DecidableEq, Repr

structure AttemptContext where
  unixMs : Nat
  deadline : Nat
  deriving DecidableEq, Repr

inductive AttemptDisposition where
  | delivered (result : Option DeliveryResultMetadata)
  | retryable (failure : RetryableFailure)
  | failed (failure : DeliveryFailure)
  | failedWithResult (failure : DeliveryFailure) (result : DeliveryResultMetadata)
  deriving DecidableEq, Repr

inductive KindOperationError where
  | unsupportedOperation
  | invalidEvent
  | unavailable
  deriving DecidableEq, Repr

inductive KindTransition (Q : Type) where
  | http (request : Q)
  | complete (disposition : AttemptDisposition)
  | completeWithResult (disposition : AttemptDisposition) (result : Bytes)

abbrev SecretRef := Text

/-- One sans-I/O attempt: what it answers to its start and to every completion since. -/
structure DeliveryOperation (Q A : Type) where
  secretReferences : List SecretRef
  respond : AttemptContext → List ResolvedSecret → List (AttemptContext × A) → KindTransition Q

structure DeliveryKind (Q A : Type) where
  name : String
  targetSummary : String
  supportsCall : Bool
  permitsAutomaticRetry : Bool
  maxPayloadBytes : Nat
  validatePayload : OperationMode → Bytes → Except KindOperationError Unit
  operation : OperationMode → DeliveryId → Bytes →
    Except KindOperationError (DeliveryOperation Q A)

/-! ## Attempts -/

structure AttemptCompletion where
  disposition : AttemptDisposition
  result : Option Bytes
  deriving DecidableEq

/-- `completion`: a kind that forbids retries turns a retryable failure into a final one. -/
def completion (permitsRetry : Bool) (disposition : AttemptDisposition) : AttemptCompletion :=
  match disposition with
  | .retryable failure =>
    if permitsRetry then ⟨.retryable failure, none⟩ else ⟨.failed failure.toFailure, none⟩
  | disposition => ⟨disposition, none⟩

/-- One request of an attempt: when it is about to be sent, and what comes back before the deadline. -/
structure AttemptRound (A : Type) where
  now : Nat
  answer : Option A
  unixMs : Nat

structure AttemptWorld (A : Type) where
  deadline : Nat
  unixMs : Nat
  secrets : SecretRef → SecretAnswer
  rounds : List (AttemptRound A)

/-- `secret_references().iter().map(resolve).collect()`: the first failure ends it. -/
def resolveAll (secrets : SecretRef → SecretAnswer) :
    List SecretRef → Except SecretProviderError (List ResolvedSecret)
  | [] => .ok []
  | reference :: rest =>
    match secrets reference with
    | .error error => .error error
    | .ok secret => (resolveAll secrets rest).map (secret :: ·)

section

variable {Q A : Type}

/-- A result goes with a delivery that announced its exact size. -/
def validResult (disposition : AttemptDisposition) (result : Bytes) : Bool :=
  match disposition with
  | .delivered (some metadata) => metadata.bytes.toNat = result.length
  | _ => false

/-- The loop of `execute_attempt`. -/
def attemptLoop (permitsRetry : Bool) (deadline : Nat)
    (respond : List (AttemptContext × A) → KindTransition Q) :
    List (AttemptContext × A) → List (AttemptRound A) → Option AttemptCompletion
  | history, rounds =>
    match respond history, rounds with
    | .complete disposition, _ => some (completion permitsRetry disposition)
    | .completeWithResult disposition result, _ =>
      if validResult disposition result then some ⟨disposition, some result⟩
      else some (completion permitsRetry (.failed .internal))
    | .http _, [] => none
    | .http _, round :: rounds =>
      if deadline ≤ round.now then some (completion permitsRetry (.retryable .deadlineExceeded))
      else match round.answer with
        | none => some (completion permitsRetry (.retryable .deadlineExceeded))
        | some answer =>
          attemptLoop permitsRetry deadline respond
            (history ++ [(⟨round.unixMs, deadline⟩, answer)]) rounds

def executeAttempt (kind : DeliveryKind Q A) (mode : OperationMode) (delivery : DeliveryId)
    (payload : Bytes) (world : AttemptWorld A) : Option AttemptCompletion :=
  match kind.operation mode delivery payload with
  | .error _ => some (completion kind.permitsAutomaticRetry (.failed .internal))
  | .ok operation =>
    match resolveAll world.secrets operation.secretReferences with
    | .error .unavailable =>
      some (completion kind.permitsAutomaticRetry (.retryable .secretUnavailable))
    | .error .notFound | .error .invalidMaterial =>
      some (completion kind.permitsAutomaticRetry (.failed .secretUnavailable))
    | .ok resolved =>
      attemptLoop kind.permitsAutomaticRetry world.deadline
        (operation.respond ⟨world.unixMs, world.deadline⟩ resolved) [] world.rounds

end

end Bondry.Egress
