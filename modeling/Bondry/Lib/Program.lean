/-
  PROGRAMS THAT CALL A SYSTEM and may be stopped anywhere.

  A program returns, fails, or makes a call and goes on with the reply.  The system is a relation: which reply a
  call can get in a state, and which state it leaves.  A run ends when the program returns or fails — or at any
  point before, if whoever runs it stops.

  * `Runs`       — the runs of a program;
  * `Meets`      — every run from a state ends as the postcondition says, a stopped run included.  There is one
                   rule for each way to build a program (`meets_done`, `meets_fail`, `meets_call`, `meets_bind`,
                   `meets_onFailure`), so a specification is put together like the program;
  * `Only`       — the calls a program can make, and with them what no run of it can change (`Only.frame`);
  * `exists_run` — a system that always replies lets every program end.
-/
import Mathlib

namespace Bondry

/-- A program: a value, an error, or a call and what to do with its reply. -/
inductive Program (Call : Type) (Reply : Call → Type) (ε α : Type) where
  | done (value : α)
  | fail (error : ε)
  | call (call : Call) (next : Reply call → Program Call Reply ε α)

/-- How a program ends; `stopped` is in the middle. -/
inductive Outcome (ε α : Type) where
  | returned (value : α)
  | failed (error : ε)
  | stopped
  deriving DecidableEq

variable {Call : Type} {Reply : Call → Type} {ε α β σ : Type}

namespace Program

def bind : Program Call Reply ε α → (α → Program Call Reply ε β) → Program Call Reply ε β
  | done value, next => next value
  | fail error, _ => fail error
  | call c reply, next => call c fun r => (reply r).bind next

instance : Monad (Program Call Reply ε) where
  pure := done
  bind := bind

/-- A program with a clean-up for its errors. -/
def onFailure (program : Program Call Reply ε α) (cleanup : Program Call Reply ε β) : Program Call Reply ε α :=
  match program with
  | done value => done value
  | fail error => cleanup.bind fun _ => fail error
  | call c reply => call c fun r => (reply r).onFailure cleanup

/-- All calls of the program are of a kind. -/
def Only (A : Call → Prop) : Program Call Reply ε α → Prop
  | done _ => True
  | fail _ => True
  | call c next => A c ∧ ∀ reply, (next reply).Only A

theorem only_always (program : Program Call Reply ε α) : program.Only fun _ => True := by
  induction program with
  | done value => trivial
  | fail error => trivial
  | call c next ih => exact ⟨trivial, ih⟩

end Program

open Program

/-- The runs of a program, under a system that replies as `step` says. -/
inductive Runs (step : σ → (c : Call) → Reply c → σ → Prop) :
    σ → Program Call Reply ε α → Outcome ε α → σ → Prop where
  | done (s : σ) (value : α) : Runs step s (.done value) (.returned value) s
  | fail (s : σ) (error : ε) : Runs step s (.fail error) (.failed error) s
  | stopped (s : σ) (program : Program Call Reply ε α) : Runs step s program .stopped s
  | call {s s' s'' : σ} {c : Call} {reply : Reply c} {next : Reply c → Program Call Reply ε α}
      {outcome : Outcome ε α} : step s c reply s' → Runs step s' (next reply) outcome s'' →
      Runs step s (.call c next) outcome s''

variable {step : σ → (c : Call) → Reply c → σ → Prop}

/-- Every run from a state ends as `Q` says. -/
def Meets (step : σ → (c : Call) → Reply c → σ → Prop) (s : σ) (program : Program Call Reply ε α)
    (Q : Outcome ε α → σ → Prop) : Prop :=
  ∀ outcome s', Runs step s program outcome s' → Q outcome s'

section

variable {s : σ} {Q R : Outcome ε α → σ → Prop}

variable {program : Program Call Reply ε α}

theorem Meets.mono (h : Meets step s program Q) (himp : ∀ outcome s', Q outcome s' → R outcome s') :
    Meets step s program R :=
  fun outcome s' hruns => himp outcome s' (h outcome s' hruns)

theorem meets_done {value : α} (h : Q (.returned value) s) (hstop : Q .stopped s) :
    Meets step s (.done value) Q := by
  intro outcome s' hruns
  cases hruns with
  | done => exact h
  | stopped => exact hstop

theorem meets_fail {error : ε} (h : Q (.failed error) s) (hstop : Q .stopped s) :
    Meets step s (.fail error) Q := by
  intro outcome s' hruns
  cases hruns with
  | fail => exact h
  | stopped => exact hstop

theorem meets_call {c : Call} {next : Reply c → Program Call Reply ε α} (hstop : Q .stopped s)
    (h : ∀ reply s', step s c reply s' → Meets step s' (next reply) Q) : Meets step s (.call c next) Q := by
  intro outcome s' hruns
  cases hruns with
  | stopped => exact hstop
  | call hstep hnext => exact h _ _ hstep outcome s' hnext

/-- What is left to show of a program once its first part has ended. -/
def Behind (step : σ → (c : Call) → Reply c → σ → Prop) (next : α → Program Call Reply ε β)
    (Q : Outcome ε β → σ → Prop) : Outcome ε α → σ → Prop
  | .returned value, s => Meets step s (next value) Q
  | .failed error, s => Q (.failed error) s
  | .stopped, s => Q .stopped s

theorem meets_bind {next : α → Program Call Reply ε β} {Q : Outcome ε β → σ → Prop}
    (h : Meets step s program (Behind step next Q)) : Meets step s (program.bind next) Q := by
  induction program generalizing s with
  | done value => exact h _ _ (.done s value)
  | fail error => exact meets_fail (h _ _ (.fail s error)) (h _ _ (.stopped s _))
  | call c reply ih =>
    refine meets_call (h _ _ (.stopped s _)) fun r s' hstep => ih r fun outcome s'' hruns => ?_
    exact h outcome s'' (.call hstep hruns)

/-- What is left to show of a program that cleans up, once what it guards has ended. -/
def Cleaned (step : σ → (c : Call) → Reply c → σ → Prop) (cleanup : Program Call Reply ε β)
    (Q : Outcome ε α → σ → Prop) : Outcome ε α → σ → Prop
  | .returned value, s => Q (.returned value) s
  | .failed error, s => Meets step s (cleanup.bind fun _ => .fail error) Q
  | .stopped, s => Q .stopped s

theorem meets_onFailure {cleanup : Program Call Reply ε β}
    (h : Meets step s program (Cleaned step cleanup Q)) : Meets step s (program.onFailure cleanup) Q := by
  induction program generalizing s with
  | done value => exact meets_done (h _ _ (.done s value)) (h _ _ (.stopped s _))
  | fail error => exact h _ _ (.fail s error)
  | call c reply ih =>
    refine meets_call (h _ _ (.stopped s _)) fun r s' hstep => ih r fun outcome s'' hruns => ?_
    exact h outcome s'' (.call hstep hruns)

theorem Program.Only.frame {A : Call → Prop} (h : program.Only A) (Keeps : σ → σ → Prop)
    (hrefl : ∀ s, Keeps s s)
    (hstep : ∀ {s c reply s' s''}, A c → step s c reply s' → Keeps s' s'' → Keeps s s'') (s : σ) :
    Meets step s program fun _ s' => Keeps s s' := by
  induction program generalizing s with
  | done value => exact meets_done (hrefl s) (hrefl s)
  | fail error => exact meets_fail (hrefl s) (hrefl s)
  | call c next ih =>
    refine meets_call (hrefl s) fun reply s' hreply => ?_
    exact (ih reply (h.2 reply) s').mono fun _ s'' hkeeps => hstep h.1 hreply hkeeps

end

theorem exists_run (htotal : ∀ (s : σ) (c : Call), ∃ reply s', step s c reply s')
    (program : Program Call Reply ε α) (s : σ) :
    ∃ outcome s', Runs step s program outcome s' ∧ outcome ≠ .stopped := by
  induction program generalizing s with
  | done value => exact ⟨_, s, .done s value, nofun⟩
  | fail error => exact ⟨_, s, .fail s error, nofun⟩
  | call c next ih =>
    obtain ⟨reply, s', hstep⟩ := htotal s c
    obtain ⟨outcome, s'', hruns, hended⟩ := ih reply s'
    exact ⟨outcome, s'', .call hstep hruns, hended⟩

end Bondry
