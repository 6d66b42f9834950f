/-
  DURATIONS AND STORAGE LIMITS (`bondry-delivery-store`, `limits.rs`).

  A Rust `Duration` is its number of nanoseconds.  The two limit sets of the persistent stores are
  structures that carry their validation: a `DedupStoreLimits` outside the documented ranges
  cannot be built, so every later proof may use `retention_mem` without asking how the limits
  were made.
-/
import Mathlib

namespace Bondry

def nanosPerMilli : Nat := 1000000
def nanosPerSecond : Nat := 1000000000

def Duration.asMillis (d : Nat) : Nat := d / nanosPerMilli

def Duration.asSecs (d : Nat) : Nat := d / nanosPerSecond

def Duration.fromSecs (seconds : Nat) : Nat := seconds * nanosPerSecond

/-- `i64::MAX`, the largest integer a column holds. -/
def i64Max : Nat := 2 ^ 63 - 1

def u64Max : Nat := 2 ^ 64 - 1

/-- What `DedupStoreLimits::new` accepts. -/
structure DedupStoreLimits where
  records : Nat
  bytes : Nat
  retention : Nat
  records_mem : 1000 ≤ records ∧ records ≤ 1000000
  bytes_mem : 1024 * 1024 ≤ bytes ∧ bytes ≤ 128 * 1024 * 1024
  retention_mem : Duration.fromSecs 86400 ≤ retention ∧ retention ≤ Duration.fromSecs (90 * 86400)
  deriving DecidableEq

/-- `DedupStoreLimits::default`. -/
def DedupStoreLimits.standard : DedupStoreLimits :=
  ⟨100000, 16 * 1024 * 1024, Duration.fromSecs (7 * 86400), by decide, by decide, by decide⟩

/-- What `PersistentDeliveryLogLimits::new` accepts. -/
structure PersistentDeliveryLogLimits where
  records : Nat
  bytes : Nat
  retention : Nat
  records_mem : 1000 ≤ records ∧ records ≤ 1000000
  bytes_mem : 1024 * 1024 ≤ bytes ∧ bytes ≤ 512 * 1024 * 1024
  retention_mem : Duration.fromSecs 86400 ≤ retention ∧ retention ≤ Duration.fromSecs (90 * 86400)
  deriving DecidableEq

/-- `PersistentDeliveryLogLimits::default`. -/
def PersistentDeliveryLogLimits.standard : PersistentDeliveryLogLimits :=
  ⟨100000, 64 * 1024 * 1024, Duration.fromSecs (7 * 86400), by decide, by decide, by decide⟩

theorem retention_asMillis {retention : Nat}
    (h : Duration.fromSecs 86400 ≤ retention ∧ retention ≤ Duration.fromSecs (90 * 86400)) :
    86400000 ≤ Duration.asMillis retention ∧ Duration.asMillis retention ≤ 7776000000 := by
  unfold Duration.fromSecs nanosPerSecond at h
  unfold Duration.asMillis nanosPerMilli
  omega

end Bondry
