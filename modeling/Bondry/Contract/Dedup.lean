/-
  THE REPLAY-PROTECTION CONTRACT (`bondry-delivery-store`, `dedup.rs`).

  Keys, states and errors of webhook deduplication.  A key is produced only after verification;
  its hash is 32 bytes by construction.
-/
import Bondry.Contract.Identifier
import Bondry.Contract.Limits

namespace Bondry

structure TrustedDeliveryIdHash where
  bytes : Bytes
  length_eq : bytes.length = 32
  deriving DecidableEq

structure DedupKey where
  route : RouteId
  verifier : VerifierNamespace
  deliveryHash : TrustedDeliveryIdHash
  deriving DecidableEq

def DedupKey.columns (key : DedupKey) : RouteId ×ₗ VerifierNamespace ×ₗ List Nat :=
  toLex (key.route, toLex (key.verifier, key.deliveryHash.bytes.map UInt8.toNat))

theorem DedupKey.columns_injective : Function.Injective DedupKey.columns := by
  rintro ⟨route, verifier, ⟨bytes, hbytes⟩⟩ ⟨route', verifier', ⟨bytes', hbytes'⟩⟩ h
  simp only [DedupKey.columns, EmbeddingLike.apply_eq_iff_eq, Prod.mk.injEq] at h
  obtain ⟨rfl, rfl, hmap⟩ := h
  have hsame : bytes = bytes' :=
    List.map_injective_iff.mpr (fun _ _ heq => UInt8.toNat_inj.mp heq) hmap
  subst hsame
  rfl

/-- Keys in the order of their columns, each in the order of its text or bytes. -/
instance : LinearOrder DedupKey := LinearOrder.lift' DedupKey.columns DedupKey.columns_injective

inductive DedupState where
  | inFlight
  | completed
  | unknown
  deriving DecidableEq, Repr

structure DedupRecord where
  key : DedupKey
  state : DedupState
  updatedAtUnixMs : Nat
  deriving DecidableEq

inductive DedupClaim where
  | claimed
  | duplicate (state : DedupState)
  deriving DecidableEq, Repr

inductive DedupClaimPolicy where
  | retainCompleted
  | expireCompleted
  deriving DecidableEq, Repr

inductive DedupResolution where
  | completed
  | retryAllowed
  deriving DecidableEq, Repr

inductive DedupStoreError where
  | capacityExhausted
  | notFound
  | invalidTransition
  | unavailable
  deriving DecidableEq, Repr

end Bondry
