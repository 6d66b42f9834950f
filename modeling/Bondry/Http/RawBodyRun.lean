/-
  RAW-BODY GENERATIONS OVER WHOLE RUNS (`raw_body.rs`).

  `RawBodyLifecycle` shows for each critical section that it keeps `Sound`.  Here the sections are put
  together, and what a step SHOWS is said beside it (`Effect`): how a lifecycle moves, who is accepted,
  which entries leave the map.  A step is then `Goes s s'`: the state behind is sound and the step had
  such an effect.
-/
import Bondry.Http.RawBodyLifecycle

namespace Bondry.Http

/-- A lifecycle stays, or takes its next step. -/
def RawBodyLifecycle.Moves : RawBodyLifecycle → RawBodyLifecycle → Prop
  | .enabled, .draining | .draining, .detached => True
  | before, behind => before = behind

theorem RawBodyLifecycle.Moves.refl (lifecycle : RawBodyLifecycle) : lifecycle.Moves lifecycle := by
  cases lifecycle <;> rfl

/-- `begin_draining` closes the admission; the lifecycle is nobody else's to change but `close`'s. -/
theorem drained_moves (generation : Generation) :
    generation.lifecycle.Moves (drained generation).2.lifecycle := by
  obtain ⟨path, lifecycle, active, handler⟩ := generation
  cases lifecycle <;> by_cases hactive : active = 0 <;>
    simp [drained, detachIfIdle, RawBodyLifecycle.Moves, hactive]

theorem finished_lifecycle (generation : Generation) :
    (finished generation).2.lifecycle = generation.lifecycle := by
  unfold finished detachIfIdle
  split <;> rfl

theorem accepted_lifecycle {generation generation' : Generation}
    (h : accepted generation = some generation') :
    generation.lifecycle = .enabled ∧ generation'.lifecycle = .enabled := by
  unfold accepted at h
  split_ifs at h with hlifecycle
  cases h
  exact ⟨not_not.mp hlifecycle, not_not.mp hlifecycle⟩

/-- The order in which locks are taken: the registry's first, then one generation's. -/
def Lock.rank : Lock → Nat
  | .registry => 0
  | .generation _ => 1

namespace RawBodyRegistry

variable {ι : Type} {s s' : RawBodyRegistry ι} {i : ι} {point : ProcessPoint}

/-- What a step may change. -/
structure Effect (s s' : RawBodyRegistry ι) : Prop where
  born : ∀ g, s.registered ≤ g → g < s'.registered → (s'.generations g).lifecycle = .enabled
  lifecycle : ∀ g < s.registered, (s.generations g).lifecycle.Moves (s'.generations g).lifecycle
  accepts : ∀ j g, (s'.points j).live g = true →
    (s.points j).live g = true ∨ (s.generations g).lifecycle = .enabled
  removes : ∀ (path : Text) (g : Nat), s.routes[path]? = some g →
    s'.routes[path]? = some g ∨ (s'.generations g).lifecycle = .detached
  stopping : s.stopping = true → s'.stopping = true

/-- A step to a sound state, with such an effect. -/
def Goes (s s' : RawBodyRegistry ι) : Prop := s'.Sound ∧ Effect s s'

variable {path : Text} {g : Nat}

theorem Sound.found (h : s.Sound) (hroute : s.routes[path]? = some g) :
    (s.generations g).lifecycle ≠ .detached :=
  (h.map.mapped path g hroute).2.2

variable [DecidableEq ι]

theorem accepts_update (hlive : ∀ g, point.live g = true →
      (s.points i).live g = true ∨ (s.generations g).lifecycle = .enabled) (j : ι) (g : Nat)
    (h : (Function.update s.points i point j).live g = true) :
    (s.points j).live g = true ∨ (s.generations g).lifecycle = .enabled := by
  rcases eq_or_ne j i with rfl | hne
  · rw [Function.update_self] at h
    exact hlive g h
  · rw [Function.update_of_ne hne] at h
    exact .inl h

theorem Effect.quiet (hregistered : s'.registered = s.registered)
    (hgenerations : s'.generations = s.generations) (hroutes : s'.routes = s.routes)
    (hstopping : s.stopping = true → s'.stopping = true)
    (hpoints : s'.points = Function.update s.points i point)
    (hlive : ∀ g, point.live g = (s.points i).live g) : Effect s s' where
  born := fun _ hg hlt => absurd hlt (Nat.not_lt.mpr (hregistered ▸ hg))
  lifecycle := fun _ _ => hgenerations ▸ .refl _
  accepts := fun j g h => accepts_update (fun g' h' => .inl (hlive g' ▸ h')) j g (hpoints ▸ h)
  removes := fun _ _ h => .inl (hroutes ▸ h)
  stopping := hstopping

variable {lock : Lock}

theorem Effect.change {generation : Generation}
    (hmoves : (s.generations g).lifecycle.Moves generation.lifecycle) (hlive : ∀ g', point.live g' = true →
      (s.points i).live g' = true ∨ (s.generations g').lifecycle = .enabled) :
    Effect s ((s.setGeneration g generation).unlock lock i point) where
  born := fun g' hg' hlt => absurd hlt (Nat.not_lt.mpr hg')
  lifecycle := by
    intro g' _
    simp only [RawBodyRegistry.unlock, setGeneration]
    rcases eq_or_ne g' g with rfl | hne
    · rwa [Function.update_self]
    · rw [Function.update_of_ne hne]
      exact .refl _
  accepts := accepts_update hlive
  removes := fun _ _ h => .inl h
  stopping := fun h => h

theorem Goes.goto (h : s.Sound) (hlocks : ∀ lock, point.holds lock = (s.points i).holds lock)
    (hfits : s.Fits point) (hlive : ∀ g, point.live g = (s.points i).live g)
    (hdetaches : ∀ g, point.detaches g = (s.points i).detaches g) : Goes s (s.goto i point) :=
  ⟨h.goto hlocks hfits hlive hdetaches, .quiet rfl rfl rfl (fun h => h) rfl hlive⟩

theorem Goes.unlock (h : s.Sound)
    (hlocks : ∀ other, (s.points i).holds other = true ↔ point.holds other = true ∨ other = lock)
    (hgives : point.holds lock = false) (hfits : s.Fits point)
    (hlive : ∀ g, point.live g = (s.points i).live g)
    (hdetaches : ∀ g, point.detaches g = (s.points i).detaches g) : Goes s (s.unlock lock i point) :=
  ⟨h.unlock hlocks hgives hfits hlive hdetaches, .quiet rfl rfl rfl (fun h => h) rfl hlive⟩

variable {code : CriticalSection}

theorem Goes.leave (h : s.Sound) (hpoint : s.points i = .inside code) (houter : code.nested = false)
    (hfree : ∀ lock, point.holds lock = false) (hfits : s.Fits point)
    (hlive : ∀ g, point.live g = (ProcessPoint.inside code).live g)
    (hdetaches : ∀ g, point.detaches g = (ProcessPoint.inside code).detaches g) :
    Goes s (s.unlock code.lock i point) :=
  .unlock h (holds_leave hpoint houter hfree) (hfree _) hfits (hpoint ▸ hlive) (hpoint ▸ hdetaches)

theorem Goes.leaveNested (h : s.Sound) (hpoint : s.points i = .inside code)
    (hnested : code.nested = true) (hlock : code.lock = .generation g)
    (hholds : ∀ lock, point.holds lock = decide (lock = .registry)) (hfits : s.Fits point)
    (hlive : ∀ g, point.live g = (ProcessPoint.inside code).live g)
    (hdetaches : ∀ g, point.detaches g = (ProcessPoint.inside code).detaches g) :
    Goes s (s.unlock (.generation g) i point) := by
  refine .unlock h (fun other => ?_) ?_ hfits (hpoint ▸ hlive) (hpoint ▸ hdetaches)
  · rw [hpoint, ProcessPoint.holds_inside, hholds, hnested, hlock]
    simp [or_comm]
  · rw [hholds]
    rfl

/-! ## The sections that change no data -/

theorem Goes.register (h : s.Sound) (hpoint : s.points i = .inside (.register path))
    (timeout : Bool) : Goes s (s.body i timeout (.register path)) := by
  have hholds : ∀ lock, (s.points i).holds lock = decide (lock = .registry) := by
    intro lock
    rw [Bool.eq_iff_iff, hpoint, ProcessPoint.holds_inside, decide_eq_true_eq]
    simp [CriticalSection.lock, CriticalSection.nested]
  rw [RawBodyRegistry.body]
  split
  · exact .goto h (fun lock => (hholds lock).symm) trivial (fun g => by rw [hpoint]; rfl)
      fun g => by rw [hpoint]; rfl
  · next hstopping =>
    rw [Bool.not_eq_true] at hstopping
    split
    · next g hroute =>
      refine .goto h (fun lock => ?_) ⟨hroute, hstopping⟩ (fun g => by rw [hpoint]; rfl)
        fun g => by rw [hpoint]; rfl
      rw [hholds]
      rfl
    · next hroute =>
      have hretain := fun lock g => retainFrom_point lock g s.routes path s.routes.keys
      refine .goto h (fun lock => ?_) (.retainFrom hroute hstopping _) (fun g => ?_) fun g => ?_
      · rw [hholds, (hretain lock 0).1]
      · rw [hpoint, (hretain .registry g).2.1]
        rfl
      · rw [hpoint, (hretain .registry g).2.2]
        rfl

theorem Goes.existing (h : s.Sound) (hpoint : s.points i = .inside (.existing path g))
    (timeout : Bool) : Goes s (s.body i timeout (.existing path g)) := by
  obtain ⟨hroute, -⟩ := h.fits_at hpoint
  rw [RawBodyRegistry.body, if_pos (h.found hroute)]
  exact .leaveNested h hpoint rfl rfl (fun _ => rfl) trivial (fun _ => rfl) fun _ => rfl

/-- No entry is ever dropped by `retain`: those of detached generations are gone already. -/
theorem Goes.retain (h : s.Sound) {key : Text} {rest : List Text}
    (hpoint : s.points i = .inside (.retain path key g rest)) (timeout : Bool) :
    Goes s (s.body i timeout (.retain path key g rest)) := by
  obtain ⟨hkey, hroute, hstopping⟩ := h.fits_at hpoint
  have hbody : s.body i timeout (.retain path key g rest) =
      s.unlock (.generation g) i (retainFrom s.routes path rest) := by
    simp only [RawBodyRegistry.body, if_neg (h.found hkey)]
  have hretain := fun lock g => retainFrom_point lock g s.routes path rest
  rw [hbody]
  exact .leaveNested h hpoint rfl rfl (fun lock => (hretain lock 0).1) (.retainFrom hroute hstopping _)
    (fun g => (hretain .registry g).2.1) fun g => (hretain .registry g).2.2

theorem Goes.matchRequest (h : s.Sound) (hpoint : s.points i = .inside (.matchRequest path))
    (timeout : Bool) : Goes s (s.body i timeout (.matchRequest path)) := by
  rw [RawBodyRegistry.body]
  split
  · next g hroute =>
    exact .leave h hpoint rfl (fun _ => rfl) (h.map.mapped path g hroute).1 (fun _ => rfl) fun _ => rfl
  · exact .leave h hpoint rfl (fun _ => rfl) trivial (fun _ => rfl) fun _ => rfl

theorem Goes.waitForShutdown (h : s.Sound) (hpoint : s.points i = .inside .waitForShutdown)
    (timeout : Bool) : Goes s (s.body i timeout .waitForShutdown) :=
  .leave h hpoint rfl (fun _ => holds_waitFrom _ _ _ _)
    (.waitFrom h.map.values.1 h.map.values.2 timeout) (fun _ => live_waitFrom _ _ _ _)
    fun _ => detaches_waitFrom _ _ _ _

theorem Goes.waitDetached (h : s.Sound) {waiter : Waiter}
    (hpoint : s.points i = .inside (.waitDetached g waiter)) (timeout : Bool) :
    Goes s (s.body i timeout (.waitDetached g waiter)) := by
  have hfits : s.FitsCode (.waitDetached g waiter) := h.fits_at hpoint
  have hagain : Goes s (s.unlock (.generation g) i (.entering (.waitDetached g waiter))) :=
    .leave h hpoint rfl (fun _ => rfl) hfits (fun _ => rfl) fun _ => rfl
  rcases waiter with _ | ⟨rest, stopping⟩
  · have hreturned : Goes s (s.unlock (.generation g) i .returned) :=
      .leave h hpoint rfl (fun _ => rfl) trivial (fun _ => rfl) fun _ => rfl
    rw [RawBodyRegistry.body]
    split
    · exact hreturned
    · split
      · exact hreturned
      · exact hagain
  · rw [RawBodyRegistry.body]
    split
    · next hdetached =>
      refine .leave h hpoint rfl (fun _ => holds_waitFrom _ _ _ _) (.waitFrom hfits.2.1 ?_ timeout)
        (fun _ => live_waitFrom _ _ _ _) fun _ => detaches_waitFrom _ _ _ _
      -- one generation less to wait for
      intro hstop
      obtain ⟨hstopping, hall⟩ := hfits.2.2 hstop
      refine ⟨hstopping, fun g' hg' => ?_⟩
      rcases hall g' hg' with hd | hmem
      · exact .inl hd
      · rcases List.mem_cons.mp hmem with rfl | hmem
        · exact .inl hdetached
        · exact .inr hmem
    · split
      · exact .leave h hpoint rfl (fun _ => rfl) (fun hfalse => nomatch hfalse) (fun _ => rfl)
          fun _ => rfl
      · exact hagain

/-! ## All sections -/

theorem Goes.accept (h : s.Sound) (hpoint : s.points i = .inside (.accept g)) (timeout : Bool) :
    Goes s (s.body i timeout (.accept g)) := by
  rw [RawBodyRegistry.body]
  split
  · next generation haccepted =>
    obtain ⟨henabled, hstill⟩ := accepted_lifecycle haccepted
    refine ⟨h.accept hpoint haccepted, .change ?_ fun g' hlive => ?_⟩
    · rw [henabled, hstill]
      exact .refl _
    · have : g = g' := by simpa [ProcessPoint.live] using hlive
      exact .inr (this ▸ henabled)
  · exact .leave h hpoint rfl (fun _ => rfl) trivial (fun _ => rfl) fun _ => rfl

theorem Goes.finishRequest (h : s.Sound) (hpoint : s.points i = .inside (.finishRequest g))
    (timeout : Bool) : Goes s (s.body i timeout (.finishRequest g)) := by
  show Goes s ((s.setGeneration g (finished (s.generations g)).2).unlock (.generation g) i
    (if (finished (s.generations g)).1 then .detaching g .finish else .returned))
  refine ⟨h.finishRequest hpoint, .change ?_ fun g' hlive => ?_⟩
  · rw [finished_lifecycle]
    exact .refl _
  · split at hlive <;> cases hlive

variable {next : Next}

theorem Goes.beginDraining (h : s.Sound) (hpoint : s.points i = .inside (.beginDraining g next))
    (timeout : Bool) : Goes s (s.body i timeout (.beginDraining g next)) := by
  show Goes s ((s.setGeneration g (drained (s.generations g)).2).unlock (.generation g) i
    (if (drained (s.generations g)).1 then .detaching g next else next.point))
  refine ⟨h.beginDraining hpoint, .change (drained_moves _) fun g' hlive => ?_⟩
  split at hlive
  · cases hlive
  · rw [live_point] at hlive
    cases hlive

theorem Goes.detach (h : s.Sound) (hpoint : s.points i = .inside (.detach g next)) (timeout : Bool) :
    Goes s (s.body i timeout (.detach g next)) := by
  have hfits := h.fits_at hpoint
  refine .goto h (fun lock => ?_) hfits (fun g => by rw [hpoint]; rfl) fun g => by rw [hpoint]; rfl
  rw [Bool.eq_iff_iff, hpoint, ProcessPoint.holds_inside, ProcessPoint.holds_entering]
  simp [CriticalSection.lock, CriticalSection.nested]

theorem Goes.close (h : s.Sound) (hpoint : s.points i = .inside (.close g next)) (timeout : Bool) :
    Goes s (s.body i timeout (.close g next)) := by
  obtain ⟨hg, -⟩ := h.fits_at hpoint
  have hdetaches : (s.points i).detaches g = true := by simp [hpoint, ProcessPoint.detaches]
  have hdraining := ((h.generation g hg).of_detaches hdetaches).1
  refine ⟨h.close hpoint, fun g' hg' hlt => absurd hlt (Nat.not_lt.mpr hg'), fun g' _ => ?_,
    fun j g' hlive => accepts_update (fun _ hnone => by cases hnone) j g' hlive,
    fun path g' hroute => ?_, fun h => h⟩
  · simp only [RawBodyRegistry.body, RawBodyRegistry.unlock, setGeneration]
    rcases eq_or_ne g' g with rfl | hne
    · rw [Function.update_self, hdraining]
      trivial
    · rw [Function.update_of_ne hne]
      exact .refl _
  · simp only [RawBodyRegistry.body, RawBodyRegistry.unlock, setGeneration]
    rcases eq_or_ne g' g with rfl | hne
    · rw [Function.update_self]
      exact .inr rfl
    left
    split
    · next hown =>
      rw [BTreeMap.find_erase_ne _ fun hpath => ?_]
      · exact hroute
      · rw [hpath, hroute] at hown
        cases hown
        exact hne rfl
    · exact hroute

theorem Goes.beginShutdown (h : s.Sound) (hpoint : s.points i = .inside .beginShutdown)
    (timeout : Bool) : Goes s (s.body i timeout .beginShutdown) := by
  refine ⟨h.beginShutdown hpoint, .quiet rfl rfl rfl (fun _ => rfl) rfl fun g => ?_⟩
  rw [live_point, hpoint]
  rfl

theorem Goes.body (h : s.Sound) (hpoint : s.points i = .inside code) (timeout : Bool) :
    Goes s (s.body i timeout code) := by
  cases code with
  | register path => exact .register h hpoint timeout
  | existing path g => exact .existing h hpoint timeout
  | retain path key g rest => exact .retain h hpoint timeout
  | matchRequest path => exact .matchRequest h hpoint timeout
  | accept g => exact .accept h hpoint timeout
  | finishRequest g => exact .finishRequest h hpoint timeout
  | beginDraining g next => exact .beginDraining h hpoint timeout
  | detach g next => exact .detach h hpoint timeout
  | close g next => exact .close h hpoint timeout
  | beginShutdown => exact .beginShutdown h hpoint timeout
  | waitForShutdown => exact .waitForShutdown h hpoint timeout
  | waitDetached g waiter => exact .waitDetached h hpoint timeout

theorem Goes.insertGeneration (h : s.Sound) (hpoint : s.points i = .inserting path) :
    Goes s (s.insertGeneration i path) := by
  obtain ⟨hpath, -⟩ := h.fits_at hpoint
  refine ⟨h.insertGeneration hpoint, ?_⟩
  unfold RawBodyRegistry.insertGeneration
  split
  · exact .quiet rfl rfl rfl (fun h => h) rfl fun g => by rw [hpoint]; rfl
  refine ⟨fun g hg hlt => ?_, fun g hg => ?_,
    fun j g hlive => accepts_update (fun _ hnone => by cases hnone) j g hlive,
    fun path' g hroute => .inl ?_, fun h => h⟩
  · obtain rfl : g = s.registered := Nat.le_antisymm (Nat.le_of_lt_succ hlt) hg
    simp only [RawBodyRegistry.unlock, setGeneration, Function.update_self]
  · simp only [RawBodyRegistry.unlock, setGeneration, Function.update_of_ne (Nat.ne_of_lt hg)]
    exact .refl _
  · refine (BTreeMap.find_insert_ne _ _ fun hsame => ?_).trans hroute
    rw [← hsame, hpath] at hroute
    cases hroute

/-- **One step of one process.** -/
theorem Goes.step (h : s.Sound) (move : Move ι) : Goes s (s.step move) := by
  have hrefl : Goes s s :=
    ⟨h, fun g hg hlt => absurd hlt (Nat.not_lt.mpr hg), fun _ _ => .refl _, fun _ _ h => .inl h,
      fun _ _ h => .inl h, fun h => h⟩
  unfold RawBodyRegistry.step
  dsimp only
  split
  · next hpoint =>
    refine ⟨h.start hpoint _, .quiet rfl rfl rfl (fun h => h) rfl fun g => ?_⟩
    rw [(plain_start rfl).live, hpoint]
    rfl
  · next code hpoint =>
    split
    · exact hrefl
    · next hfree =>
      rw [Bool.not_eq_true] at hfree
      refine ⟨h.enter hpoint hfree, .quiet rfl rfl rfl (fun h => h) rfl fun g => ?_⟩
      rw [hpoint]
      cases code <;> rfl
  · next code hpoint => exact .body h hpoint _
  · next path hpoint => exact .insertGeneration h hpoint
  · next next hpoint =>
    have hfits := h.fits_at hpoint
    refine .unlock h (fun other => ?_) (holds_point _ _) (.point hfits) (fun g => ?_) fun g => ?_
    · rw [hpoint, ProcessPoint.holds_unlocking, holds_point]
      simp
    · rw [live_point, hpoint]
      rfl
    · rw [detaches_point, hpoint]
      rfl
  · next g hpoint =>
    have hfits := h.fits_at hpoint
    exact .goto h (fun lock => by rw [hpoint]; rfl) hfits (fun g => by rw [hpoint]; rfl)
      fun g => by rw [hpoint]; rfl
  · next g next hpoint =>
    refine ⟨h.dropHandler hpoint, .quiet rfl rfl rfl (fun h => h) rfl fun g => ?_⟩
    rw [hpoint]
    rfl
  · exact hrefl
  · exact hrefl

theorem sound_run (aggregateRetainedBytes : Nat) (moves : List (Move ι)) :
    (run step (new aggregateRetainedBytes) moves).Sound :=
  All.run (C := fun _ _ => True) Sound (fun _ move h _ => (Goes.step h move).1)
    (sound_new aggregateRetainedBytes) (All.always fun _ _ => trivial)

/-! ## No deadlock -/

theorem body_other (s : RawBodyRegistry ι) {i j : ι} (hne : j ≠ i) (timeout : Bool)
    (code : CriticalSection) : (s.body i timeout code).points j = s.points j := by
  fun_cases s.body i timeout code <;>
    simp [RawBodyRegistry.goto, RawBodyRegistry.unlock, setGeneration, hne]

theorem step_other (s : RawBodyRegistry ι) (move : Move ι) {j : ι} (hne : j ≠ move.process) :
    (s.step move).points j = s.points j := by
  unfold step
  dsimp only
  split
  · simp [RawBodyRegistry.goto, hne]
  · split
    · rfl
    · simp [RawBodyRegistry.goto, hne]
  · exact body_other s hne _ _
  · unfold RawBodyRegistry.insertGeneration
    split <;> simp [RawBodyRegistry.unlock, setGeneration, hne]
  · simp [RawBodyRegistry.unlock, hne]
  · simp [RawBodyRegistry.goto, hne]
  · simp [RawBodyRegistry.goto, hne]
  · rfl
  · rfl

end RawBodyRegistry

end Bondry.Http
