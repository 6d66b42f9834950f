/-
  INCREMENTAL PARSERS, over arbitrary states, symbols, errors and results.

  A parser is fed segment by segment.  What it has not read yet it holds, and a call ADVANCES it: it makes
  steps over state and held input until one fails, is done, or has to wait for more.  A step that goes on
  takes something off the front of the input.

  When does it not matter how the input was cut?  `Stable step tight` are three local laws of one step:

  * `next` — a step that goes on has read its part to the end, and does the same whatever follows it;
  * `done` — a step that is done has read everything: with more behind, it fails;
  * `fail` — a step that fails fails with more behind, too, unless it stands at a `tight` place.

  From these, cutting a stream never changes a result (`delivers_whole`), and the only cuts that lose one
  are those that leave the parser at a tight place (`delivers_segments`).
-/
import Mathlib

namespace Bondry.Incremental

variable {σ β ε ρ : Type}

/-- One step of a parser: it goes on in a state with the rest of the input, or stops. -/
inductive Step (σ β ε ρ : Type) where
  | fail (error : ε)
  | wait
  | done (result : ρ)
  | next (state : σ) (rest : List β)

/-- How a call ends; unless it fails, with the state and the input it stopped at. -/
inductive Outcome (σ β ε ρ : Type) where
  | fail (error : ε)
  | wait (state : σ) (held : List β)
  | done (result : ρ) (state : σ) (held : List β)

def advanceFuel (step : σ → List β → Step σ β ε ρ) : Nat → σ → List β → Outcome σ β ε ρ
  | fuel, s, input =>
    match step s input with
    | .fail e => .fail e
    | .wait => .wait s input
    | .done r => .done r s input
    | .next s' rest =>
      match fuel with
      | 0 => .wait s' rest
      | fuel + 1 => advanceFuel step fuel s' rest

/-- One call.  Every step reads a symbol, so the input is as many steps as there can be. -/
def advance (step : σ → List β → Step σ β ε ρ) (s : σ) (input : List β) : Outcome σ β ε ρ :=
  advanceFuel step input.length s input

/-- The three laws; `tight` are the places where a failure may be premature. -/
structure Stable (step : σ → List β → Step σ β ε ρ) (tight : σ → List β → Prop) : Prop where
  next : ∀ {s s' : σ} {input rest : List β}, step s input = .next s' rest →
    ∃ read, read ≠ [] ∧ input = read ++ rest ∧ ∀ more, step s (read ++ more) = .next s' more
  done : ∀ {s : σ} {input more : List β} {r : ρ}, step s input = .done r → more ≠ [] →
    ∃ e, step s (input ++ more) = .fail e
  fail : ∀ {s : σ} {input : List β} {e : ε}, step s input = .fail e → ¬ tight s input →
    ∀ more, ∃ e', step s (input ++ more) = .fail e'

/-- The parser reads `input` completely and is then in the second state. -/
def Reads (step : σ → List β → Step σ β ε ρ) (s : σ) (input : List β) (s' : σ) : Prop :=
  ∀ more, advance step s (input ++ more) = advance step s' more

/-- Every segment but the last leaves the parser waiting, and the last one gives the result. -/
def Delivers (step : σ → List β → Step σ β ε ρ) : σ → List β → List (List β) → ρ → Prop
  | _, _, [], _ => False
  | s, held, [last], r => ∃ s' held', advance step s (held ++ last) = .done r s' held'
  | s, held, segment :: next :: segments, r =>
    ∃ s' held', advance step s (held ++ segment) = .wait s' held' ∧
      Delivers step s' held' (next :: segments) r

variable {step : σ → List β → Step σ β ε ρ} {tight : σ → List β → Prop} {s s' : σ}
  {input held more : List β} {r : ρ} {e : ε}

/-! ## Calls -/

theorem advance_fail (h : step s input = .fail e) : advance step s input = .fail e := by
  rw [advance, advanceFuel, h]

theorem advance_wait (h : step s input = .wait) : advance step s input = .wait s input := by
  rw [advance, advanceFuel, h]

theorem advance_done (h : step s input = .done r) : advance step s input = .done r s input := by
  rw [advance, advanceFuel, h]

/-- A step that goes on leaves less input. -/
theorem Stable.shorter (law : Stable step tight) {rest : List β} (h : step s input = .next s' rest) :
    rest.length < input.length := by
  obtain ⟨read, hread, rfl, -⟩ := law.next h
  rw [List.length_append]
  exact Nat.lt_add_of_pos_left (List.length_pos_of_ne_nil hread)

/-- Fuel beyond the length of the input changes nothing. -/
theorem advanceFuel_eq (law : Stable step tight) : ∀ {n : Nat} {s : σ} {input : List β},
    input.length ≤ n → advanceFuel step n s input = advance step s input := by
  intro n
  induction n using Nat.strong_induction_on with
  | _ n ih =>
    intro s input hn
    rw [advance, advanceFuel, advanceFuel]
    cases hstep : step s input with
    | fail | wait | done => rfl
    | next s' rest =>
      have hshorter := law.shorter hstep
      obtain ⟨m, hm⟩ : ∃ m, input.length = m + 1 := ⟨input.length - 1, by omega⟩
      obtain ⟨k, rfl⟩ : ∃ k, n = k + 1 := ⟨n - 1, by omega⟩
      rw [hm]
      exact (ih k (by omega) (by omega)).trans (ih m (by omega) (by omega)).symm

theorem advance_next (law : Stable step tight) {rest : List β} (h : step s input = .next s' rest) :
    advance step s input = advance step s' rest := by
  have hshorter := law.shorter h
  obtain ⟨m, hm⟩ : ∃ m, input.length = m + 1 := ⟨input.length - 1, by omega⟩
  rw [advance, advanceFuel, h, hm]
  exact advanceFuel_eq law (by omega)

/-- A call makes a step and goes on from there. -/
theorem advance_eq (law : Stable step tight) (s : σ) (input : List β) : advance step s input =
    match step s input with
    | .fail e => .fail e
    | .wait => .wait s input
    | .done r => .done r s input
    | .next s' rest => advance step s' rest := by
  cases hstep : step s input with
  | fail e => exact advance_fail hstep
  | wait => exact advance_wait hstep
  | done r => exact advance_done hstep
  | next s' rest => exact advance_next law hstep

/-- **A call reads a part of its input and stops at the rest**, where its last step says how it ends. -/
theorem advance_settles (law : Stable step tight) : ∀ (s : σ) (input : List β),
    ∃ read s' held, input = read ++ held ∧ Reads step s read s' ∧
      match advance step s input with
      | .fail e => step s' held = .fail e
      | .wait s₁ held₁ => s₁ = s' ∧ held₁ = held
      | .done r s₁ held₁ => s₁ = s' ∧ held₁ = held ∧ step s' held = .done r := by
  intro s input
  induction hn : input.length using Nat.strong_induction_on generalizing s input with
  | _ n ih =>
    have hstop : Reads step s [] s := fun more => rfl
    rw [advance_eq law]
    cases hstep : step s input with
    | fail e => exact ⟨[], s, input, rfl, hstop, hstep⟩
    | wait => exact ⟨[], s, input, rfl, hstop, rfl, rfl⟩
    | done r => exact ⟨[], s, input, rfl, hstop, rfl, rfl, hstep⟩
    | next s₁ rest =>
      have hshorter := law.shorter hstep
      obtain ⟨read, -, rfl, hlocal⟩ := law.next hstep
      obtain ⟨read', s', held, rfl, hreads, hend⟩ := ih rest.length (hn ▸ hshorter) s₁ rest rfl
      refine ⟨read ++ read', s', held, (List.append_assoc ..).symm, fun more => ?_, hend⟩
      rw [List.append_assoc, advance_next law (hlocal (read' ++ more))]
      exact hreads more

/-- **The invariant rule**: what every step keeps, of the input taken so far and the state, holds where a call
    stops, and what is done from there holds of all the input. -/
theorem advance_rule (law : Stable step tight) (Inv : List β → σ → Prop) (Post : List β → ρ → Prop)
    (hnext : ∀ {taken s s' read rest}, Inv taken s → step s (read ++ rest) = .next s' rest → Inv (taken ++ read) s')
    (hdone : ∀ {taken s input r}, Inv taken s → step s input = .done r → Post (taken ++ input) r) :
    ∀ (taken : List β) (s : σ) (input : List β), Inv taken s →
      match advance step s input with
      | .fail _ => True
      | .wait s' held => ∃ read, input = read ++ held ∧ Inv (taken ++ read) s'
      | .done r s' held => Post (taken ++ input) r ∧ ∃ read, input = read ++ held ∧ Inv (taken ++ read) s' := by
  intro taken s input
  induction hn : input.length using Nat.strong_induction_on generalizing taken s input with
  | _ n ih =>
    intro hs
    have hstop : ∃ read, input = read ++ input ∧ Inv (taken ++ read) s := ⟨[], rfl, by simpa using hs⟩
    rw [advance_eq law]
    cases hstep : step s input with
    | fail e => trivial
    | wait => exact hstop
    | done r => exact ⟨hdone hs hstep, hstop⟩
    | next s' rest =>
      have hshorter := law.shorter hstep
      obtain ⟨read, -, rfl, -⟩ := law.next hstep
      have hrest := ih rest.length (hn ▸ hshorter) _ s' rest rfl (hnext hs hstep)
      dsimp only
      cases hadvance : advance step s' rest with
      | fail e => trivial
      | wait s₁ held =>
        rw [hadvance] at hrest
        obtain ⟨read', rfl, hs₁⟩ := hrest
        exact ⟨read ++ read', by simp, by simpa using hs₁⟩
      | done r s₁ held =>
        rw [hadvance] at hrest
        obtain ⟨hpost, read', rfl, hs₁⟩ := hrest
        exact ⟨by simpa using hpost, read ++ read', by simp, by simpa using hs₁⟩

/-! ## Longer inputs -/

theorem reads_of_wait (law : Stable step tight) (h : advance step s input = .wait s' held) :
    ∃ read, input = read ++ held ∧ Reads step s read s' := by
  obtain ⟨read, s₁, held₁, hinput, hreads, hend⟩ := advance_settles law s input
  rw [h] at hend
  obtain ⟨rfl, rfl⟩ := hend
  exact ⟨read, hinput, hreads⟩

theorem Reads.trans {s₁ s₂ s₃ : σ} {front back : List β} (h : Reads step s₁ front s₂)
    (h' : Reads step s₂ back s₃) : Reads step s₁ (front ++ back) s₃ := by
  intro more
  rw [List.append_assoc, h, h']

/-- **A parser that waits goes on where it stopped.** -/
theorem advance_resume (law : Stable step tight) (h : advance step s input = .wait s' held)
    (more : List β) : advance step s (input ++ more) = advance step s' (held ++ more) := by
  obtain ⟨read, rfl, hreads⟩ := reads_of_wait law h
  rw [List.append_assoc]
  exact hreads (held ++ more)

theorem advance_done_append (law : Stable step tight) (h : advance step s input = .done r s' held)
    (hmore : more ≠ []) : ∃ e, advance step s (input ++ more) = .fail e := by
  obtain ⟨read, s₁, held₁, rfl, hreads, hend⟩ := advance_settles law s input
  rw [h] at hend
  obtain ⟨e, hfail⟩ := law.done hend.2.2 hmore
  exact ⟨e, by rw [List.append_assoc, hreads]; exact advance_fail hfail⟩

/-- **A failure is final, or happened at a tight place.** -/
theorem advance_fail_append (law : Stable step tight) (h : advance step s input = .fail e)
    (more : List β) : (∃ e', advance step s (input ++ more) = .fail e') ∨
      ∃ read s' held, input = read ++ held ∧ Reads step s read s' ∧ tight s' held := by
  obtain ⟨read, s₁, held₁, rfl, hreads, hend⟩ := advance_settles law s input
  rw [h] at hend
  by_cases htight : tight s₁ held₁
  · exact .inr ⟨read, s₁, held₁, rfl, hreads, htight⟩
  · obtain ⟨e', hfail⟩ := law.fail hend htight more
    exact .inl ⟨e', by rw [List.append_assoc, hreads]; exact advance_fail hfail⟩

/-! ## Segments -/

/-- **What the segments deliver, the whole input delivers.** -/
theorem delivers_whole (law : Stable step tight) {segments : List (List β)}
    (h : Delivers step s held segments r) :
    ∃ s' held', advance step s (held ++ segments.flatten) = .done r s' held' := by
  induction segments generalizing s held with
  | nil => exact h.elim
  | cons segment segments ih =>
    cases segments with
    | nil => simpa [Delivers] using h
    | cons next segments =>
      obtain ⟨s', held', hwait, hrest⟩ := h
      rw [List.flatten_cons, ← List.append_assoc, advance_resume law hwait]
      exact ih hrest

theorem delivers_waits (law : Stable step tight) {before after_ : List (List β)}
    (h : Delivers step s held (before ++ after_) r) (hbefore : before ≠ []) (hafter : after_ ≠ []) :
    ∃ s' held', advance step s (held ++ before.flatten) = .wait s' held' := by
  induction before generalizing s held with
  | nil => exact (hbefore rfl).elim
  | cons segment before ih =>
    obtain ⟨next, rest, hrest⟩ : ∃ next rest, before ++ after_ = next :: rest :=
      List.exists_cons_of_ne_nil (by simp [hafter])
    rw [List.cons_append, hrest] at h
    obtain ⟨s', held', hwait, hdelivers⟩ := h
    rw [← hrest] at hdelivers
    by_cases hlast : before = []
    · subst hlast
      exact ⟨s', held', by simpa using hwait⟩
    · rw [List.flatten_cons, ← List.append_assoc, advance_resume law hwait]
      exact ih hdelivers hlast

/-- **What the whole input delivers, the segments deliver**, if no cut leaves the parser tight. -/
theorem delivers_segments (law : Stable step tight) {segments : List (List β)} (hnonempty : segments ≠ [])
    (hsegments : ∀ segment ∈ segments, segment ≠ [])
    (h : ∃ s' held', advance step s (held ++ segments.flatten) = .done r s' held')
    (hcuts : ∀ before after_, segments = before ++ after_ → before ≠ [] → after_ ≠ [] →
      ¬ ∃ read s' rest, held ++ before.flatten = read ++ rest ∧ Reads step s read s' ∧ tight s' rest) :
    Delivers step s held segments r := by
  induction segments generalizing s held with
  | nil => exact (hnonempty rfl).elim
  | cons segment segments ih =>
    cases segments with
    | nil => simpa [Delivers] using h
    | cons next segments =>
      have hmore : (next :: segments).flatten ≠ [] := by
        have hnext := hsegments next (by simp)
        simp [hnext]
      rw [List.flatten_cons, ← List.append_assoc] at h
      -- the first segment can neither be enough nor fail
      cases hfirst : advance step s (held ++ segment) with
      | done r₁ s₁ held₁ =>
        obtain ⟨e, hfail⟩ := advance_done_append law hfirst hmore
        simp only [hfail, reduceCtorEq, exists_false] at h
      | fail e =>
        rcases advance_fail_append law hfirst (next :: segments).flatten with ⟨e', hfail⟩ | hcut
        · simp only [hfail, reduceCtorEq, exists_false] at h
        · exact (hcuts [segment] (next :: segments) rfl (by simp) (by simp) (by simpa using hcut)).elim
      | wait s' held' =>
        rw [advance_resume law hfirst] at h
        refine ⟨s', held', hfirst, ih (by simp)
          (fun x hx => hsegments x (List.mem_cons_of_mem _ hx)) h ?_⟩
        rintro before after_ hsplit hbefore hafter ⟨read, s₁, rest, hinput, hreads, htight⟩
        obtain ⟨read₀, hread₀, hreads₀⟩ := reads_of_wait law hfirst
        refine hcuts (segment :: before) after_ (by rw [hsplit]; rfl) (by simp) hafter
          ⟨read₀ ++ read, s₁, rest, ?_, hreads₀.trans hreads, htight⟩
        rw [List.flatten_cons, ← List.append_assoc, hread₀, List.append_assoc, hinput,
          List.append_assoc]

end Bondry.Incremental
