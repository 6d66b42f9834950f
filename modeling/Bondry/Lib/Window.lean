/-
  SLIDING LOGS: what a limiter that forgets old entries still knows.

  A limiter with a window of length `w` admits at some times and records them.  The LOG is every time
  it ever recorded, in ascending order; the limiter KEEPS only a suffix of it, because it drops the
  entries that have left the window whenever it happens to look.
-/
import Mathlib

namespace Bondry.Window

variable {w now : Nat} {log kept : List Nat}

/-- The entries of a log inside `(now - w, now]`. -/
def live (w now : Nat) (log : List Nat) : List Nat := log.filter (now < · + w)

/-- `kept` is `log`, ascending up to `now`, without some entries that had left the window by then. -/
structure Keeps (w now : Nat) (log kept : List Nat) : Prop where
  ascending : log.Pairwise (· ≤ ·)
  past : ∀ t ∈ log, t ≤ now
  dropped : ∃ gone, log = gone ++ kept ∧ ∀ t ∈ gone, t + w ≤ now

theorem dropWhile_eq_live {p : Nat → Bool} (hp : ∀ t ∈ kept, p t ↔ t + w ≤ now)
    (hasc : kept.Pairwise (· ≤ ·)) : kept.dropWhile p = live w now kept := by
  induction kept with
  | nil => rfl
  | cons a rest ih =>
    have hrest : rest.dropWhile p = live w now rest :=
      ih (fun t ht => hp t (by simp [ht])) (List.pairwise_cons.mp hasc).2
    have ha := hp a (by simp)
    by_cases hexpired : a + w ≤ now
    · rw [List.dropWhile_cons_of_pos (ha.mpr hexpired), hrest, live, live,
        List.filter_cons_of_neg (by simpa using hexpired)]
    -- the head is live, and so is everything behind it
    have hall : ∀ t ∈ a :: rest, now < t + w := by
      intro t ht
      rcases List.mem_cons.mp ht with rfl | ht
      · omega
      · have := (List.pairwise_cons.mp hasc).1 t ht
        omega
    rw [List.dropWhile_cons_of_neg (by rw [ha]; exact hexpired), live,
      List.filter_eq_self.mpr (by simpa using hall)]

namespace Keeps

theorem empty (w now : Nat) : Keeps w now [] [] :=
  ⟨.nil, by simp, [], by simp⟩

theorem later {now' : Nat} (h : Keeps w now log kept) (hle : now ≤ now') : Keeps w now' log kept := by
  obtain ⟨gone, hlog, hgone⟩ := h.dropped
  refine ⟨h.ascending, fun t ht => (h.past t ht).trans hle, gone, hlog, ?_⟩
  intro t ht
  have := hgone t ht
  omega

theorem mem_log (h : Keeps w now log kept) {t : Nat} (ht : t ∈ kept) : t ∈ log := by
  obtain ⟨gone, rfl, -⟩ := h.dropped
  exact List.mem_append_right _ ht

theorem live_eq (h : Keeps w now log kept) : live w now kept = live w now log := by
  obtain ⟨gone, rfl, hgone⟩ := h.dropped
  have hnone : gone.filter (now < · + w) = [] := by
    rw [List.filter_eq_nil_iff]
    intro t ht
    have := hgone t ht
    simp only [decide_eq_true_eq]
    omega
  rw [live, live, List.filter_append, hnone, List.nil_append]

/-- **Dropping the expired front leaves the live part of the whole log.** -/
theorem pruned {p : Nat → Bool} (h : Keeps w now log kept)
    (hp : ∀ t ∈ log, p t ↔ t + w ≤ now) : kept.dropWhile p = live w now log := by
  obtain ⟨gone, hlog, -⟩ := h.dropped
  have hasc : kept.Pairwise (· ≤ ·) :=
    h.ascending.sublist (hlog ▸ List.sublist_append_right gone kept)
  rw [dropWhile_eq_live (fun t ht => hp t (h.mem_log ht)) hasc, h.live_eq]

theorem prune {p : Nat → Bool} (h : Keeps w now log kept)
    (hp : ∀ t ∈ log, p t ↔ t + w ≤ now) : Keeps w now log (kept.dropWhile p) := by
  obtain ⟨gone, hlog, hgone⟩ := h.dropped
  refine ⟨h.ascending, h.past, gone ++ kept.takeWhile p, ?_, ?_⟩
  · rw [List.append_assoc, List.takeWhile_append_dropWhile, hlog]
  · intro t ht
    rcases List.mem_append.mp ht with ht | ht
    · exact hgone t ht
    · have hmem : t ∈ kept := (List.takeWhile_sublist p).subset ht
      exact (hp t (h.mem_log hmem)).mp (List.mem_takeWhile_imp ht)

theorem push (h : Keeps w now log kept) : Keeps w now (log ++ [now]) (kept ++ [now]) := by
  obtain ⟨gone, hlog, hgone⟩ := h.dropped
  refine ⟨?_, ?_, gone, by rw [hlog, List.append_assoc], hgone⟩
  · refine List.pairwise_append.mpr ⟨h.ascending, List.pairwise_singleton _ _, ?_⟩
    intro t ht t' ht'
    rw [List.mem_singleton.mp ht']
    exact h.past t ht
  · intro t ht
    rcases List.mem_append.mp ht with ht | ht
    · exact h.past t ht
    · exact (List.mem_singleton.mp ht).le

end Keeps

/-- A log that grows only while fewer than `limit` of its entries are live. -/
inductive Paced (w limit : Nat) : List Nat → Prop
  | nil : Paced w limit []
  | snoc {log : List Nat} {now : Nat} (earlier : Paced w limit log) (past : ∀ t ∈ log, t ≤ now)
      (room : (live w now log).length < limit) : Paced w limit (log ++ [now])

/-- **Any half-open window of length `w` holds at most `limit` entries.** -/
theorem Paced.within {limit : Nat} (h : Paced w limit log) (a : Nat) :
    (log.filter fun t => a ≤ t ∧ t < a + w).length ≤ limit := by
  induction h with
  | nil => simp
  | @snoc log now earlier past room ih =>
    rw [List.filter_append, List.length_append]
    by_cases hin : a ≤ now ∧ now < a + w
    · -- every entry that shares a window with the newest one was live when it was admitted
      have hsub : (log.filter fun t => a ≤ t ∧ t < a + w).length ≤ (live w now log).length := by
        apply List.Sublist.length_le
        apply List.monotone_filter_right
        intro t ht
        simp only [decide_eq_true_eq] at ht ⊢
        omega
      rw [List.filter_cons_of_pos (by simpa using hin)]
      simp only [List.filter_nil, List.length_singleton]
      omega
    · rw [List.filter_cons_of_neg (by simpa using hin)]
      simpa using ih

end Bondry.Window
