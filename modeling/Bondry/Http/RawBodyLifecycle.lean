/-
  THE LIFECYCLE OF RAW-BODY GENERATIONS under every interleaving (`raw_body.rs`).

  Four invariants, kept by every step of every process:

  1. `locks`        — each lock has at most one owner (`Lib/Token`).  Sections of a generation nest
                      inside sections of the registry and never the other way round, so nothing
                      deadlocks (`Locks.progress`).
  2. `fits`         — what a process relies on still holds: an entry of the map it has looked up under the
                      registry's lock, the reference it has dropped, the generations it waits for.
  3. `generation`   — of each generation: the count of requests, the one process that detaches it, and
                      the PHASE it is in: the slot holds the handler; the handler was taken; detached.
  4. `map`          — the map holds exactly the generations that are not detached.
-/
import Bondry.Http.RawBody

namespace Bondry.Http

/-! ## What a program point means -/

namespace ProcessPoint

/-- A live `ActiveRequest` of the generation: counted until `finish_request` has run. -/
def live (g : Nat) : ProcessPoint → Bool
  | .serving g' | .entering (.finishRequest g') | .inside (.finishRequest g') => decide (g' = g)
  | _ => false

/-- Has taken the handler out of the generation's slot and is on its way to close it. -/
def detaches (g : Nat) : ProcessPoint → Bool
  | .detaching g' _ | .entering (.detach g' _) | .inside (.detach g' _) | .entering (.close g' _)
  | .inside (.close g' _) => decide (g' = g)
  | _ => false

theorem holds_inside (code : CriticalSection) (lock : Lock) :
    (inside code).holds lock = true ↔ lock = code.lock ∨ code.nested = true ∧ lock = .registry := by
  simp [holds]

theorem holds_entering (code : CriticalSection) (lock : Lock) :
    (entering code).holds lock = true ↔ code.nested = true ∧ lock = .registry := by
  simp [holds]

theorem holds_unlocking (next : Next) (lock : Lock) :
    (unlocking next).holds lock = true ↔ lock = .registry := by
  simp [holds]

end ProcessPoint

/-- The generations it goes on with are registered. -/
def Next.Within (registered : Nat) : Next → Prop
  | .finish => True
  | .wait g => g < registered
  | .drain rest => ∀ g ∈ rest, g < registered

theorem Next.Within.mono {next : Next} {m n : Nat} (h : next.Within m) (hle : m ≤ n) : next.Within n := by
  rcases next with _ | g | rest
  · trivial
  · exact lt_of_lt_of_le h hle
  · exact fun g hg => lt_of_lt_of_le (h g hg) hle

namespace RawBodyRegistry

variable {ι : Type}

/-- `stopping` is set and every generation but those listed is detached. -/
def DetachedBut (s : RawBodyRegistry ι) (rest : List Nat) : Prop :=
  s.stopping = true ∧
    ∀ g < s.registered, (s.generations g).lifecycle = .detached ∨ g ∈ rest

/-- What a process relies on at or in a critical section. -/
def FitsCode (s : RawBodyRegistry ι) : CriticalSection → Prop
  | .register _ | .matchRequest _ | .beginShutdown | .waitForShutdown => True
  | .existing path g => s.routes[path]? = some g ∧ s.stopping = false
  | .retain path key g _ => s.routes[key]? = some g ∧ s.routes[path]? = none ∧ s.stopping = false
  | .accept g | .finishRequest g => g < s.registered
  | .beginDraining g next => g < s.registered ∧ next.Within s.registered
  | .detach g next | .close g next =>
    g < s.registered ∧ s.dropped g = 1 ∧ next.Within s.registered
  | .waitDetached g .disable => g < s.registered
  | .waitDetached g (.shutdown rest stopping) =>
    g < s.registered ∧ (∀ g' ∈ rest, g' < s.registered) ∧
      (stopping = true → s.DetachedBut (g :: rest))

/-- What a process relies on where it is. -/
def Fits (s : RawBodyRegistry ι) : ProcessPoint → Prop
  | .idle | .returned => True
  | .entering code | .inside code => s.FitsCode code
  | .inserting path => s.routes[path]? = none ∧ s.stopping = false
  | .unlocking next => next.Within s.registered
  | .serving g => g < s.registered
  | .detaching g next => g < s.registered ∧ s.dropped g = 0 ∧ next.Within s.registered
  | .waited result stopping => result = true → stopping = true → s.DetachedBut []

/-- The three phases of a generation: its handler is in the slot; it was taken, when no request was
    left; the generation is detached. -/
def Phase (generation : Generation) (dropped : Nat) : Prop :=
  (generation.handler = true ∧ generation.lifecycle ≠ .detached ∧ dropped = 0) ∨
    (generation.handler = false ∧ generation.lifecycle = .draining ∧ generation.activeRequests = 0 ∧
      dropped ≤ 1) ∨
    (generation.handler = false ∧ generation.lifecycle = .detached ∧ generation.activeRequests = 0 ∧
      dropped = 1)

/-- The handler was taken, and the generation is not closed yet. -/
def taken (generation : Generation) : Bool :=
  decide (generation.lifecycle = .draining) && !generation.handler

/-- One generation: who detaches it, its count, and its phase. -/
structure GenerationOk (s : RawBodyRegistry ι) (g : Nat) : Prop where
  detacher : Token (ProcessPoint.detaches g) s.points (taken (s.generations g))
  count : ∃ requests : Finset ι, (∀ i, i ∈ requests ↔ (s.points i).live g = true) ∧
    (s.generations g).activeRequests = requests.card
  phase : Phase (s.generations g) (s.dropped g)

/-- The map holds the generations that are not detached, each under its path. -/
structure MapOk (s : RawBodyRegistry ι) : Prop where
  mapped : ∀ path g, s.routes[path]? = some g →
    g < s.registered ∧ (s.generations g).path = path ∧ (s.generations g).lifecycle ≠ .detached
  there : ∀ g < s.registered, (s.generations g).lifecycle ≠ .detached →
    s.routes[(s.generations g).path]? = some g
  size : s.routes.size ≤ maxRegisteredHandlers
  unborn : ∀ g, s.registered ≤ g → s.dropped g = 0

/-- The invariant of the registry. -/
structure Sound (s : RawBodyRegistry ι) : Prop where
  locks : Locks ProcessPoint.holds s.points s.locked
  fits : ∀ i, s.Fits (s.points i)
  generation : ∀ g < s.registered, s.GenerationOk g
  map : s.MapOk

theorem sound_new (aggregateRetainedBytes : Nat) :
    (new aggregateRetainedBytes : RawBodyRegistry ι).Sound where
  locks := fun _ => Token.free fun _ => rfl
  fits := fun _ => trivial
  generation := fun g hg => absurd hg (Nat.not_lt_zero g)
  map := ⟨by simp [new], by simp [new], by simp [new], fun _ _ => rfl⟩

variable {s : RawBodyRegistry ι} {i : ι}

theorem Sound.fits_at (h : s.Sound) {point : ProcessPoint} (hpoint : s.points i = point) : s.Fits point := by
  have hfits := h.fits i
  rwa [hpoint] at hfits

/-! ## What a step may do to the others -/

/-- What a step of process `i` may do to the shared state. -/
structure Advances (s s' : RawBodyRegistry ι) (i : ι) : Prop where
  registered : s.registered ≤ s'.registered
  detached : ∀ g < s.registered, (s.generations g).lifecycle = .detached →
    (s'.generations g).lifecycle = .detached
  stopping : s.stopping = true → s'.stopping = true ∧ s'.registered = s.registered
  guarded : (s.points i).holds .registry = false → s'.routes = s.routes ∧ s'.stopping = s.stopping
  dropped : ∀ g, (s.points i).detaches g = false → s'.dropped g = s.dropped g

variable {s' : RawBodyRegistry ι} {j : ι}

theorem Advances.detachedBut (h : Advances s s' i) {rest : List Nat} (hs : s.DetachedBut rest) :
    s'.DetachedBut rest := by
  obtain ⟨hstopping, hregistered⟩ := h.stopping hs.1
  refine ⟨hstopping, fun g hg => ?_⟩
  rw [hregistered] at hg
  exact (hs.2 g hg).imp_left (h.detached g hg)

theorem Sound.same_routes (hsound : s.Sound) (h : Advances s s' i) (hne : j ≠ i)
    (hholds : (s.points j).holds .registry = true) : s'.routes = s.routes ∧ s'.stopping = s.stopping := by
  refine h.guarded ?_
  rw [← Bool.not_eq_true]
  exact fun hi => hne ((hsound.locks .registry).unique j i hholds hi)

variable {g : Nat}

theorem Sound.same_dropped (hsound : s.Sound) (h : Advances s s' i) (hne : j ≠ i)
    (hg : g < s.registered) (hdetaches : (s.points j).detaches g = true) : s'.dropped g = s.dropped g := by
  refine h.dropped g ?_
  rw [← Bool.not_eq_true]
  exact fun hi => hne ((hsound.generation g hg).detacher.unique j i hdetaches hi)

theorem fitsCode_other (hsound : s.Sound) (h : Advances s s' i) (hne : j ≠ i)
    {code : CriticalSection} (hcode : s.points j = .entering code ∨ s.points j = .inside code)
    (hfits : s.FitsCode code) : s'.FitsCode code := by
  have hnested : code.nested = true → s'.routes = s.routes ∧ s'.stopping = s.stopping := by
    intro hnested
    refine hsound.same_routes h hne ?_
    rcases hcode with hj | hj <;> simp [hj, ProcessPoint.holds, hnested]
  have hmono : ∀ {g}, g < s.registered → g < s'.registered := fun hg => lt_of_lt_of_le hg h.registered
  cases code with
  | register _ | matchRequest _ | beginShutdown | waitForShutdown => trivial
  | existing path g =>
    obtain ⟨hroutes, hstopping⟩ := hnested rfl
    exact ⟨hroutes ▸ hfits.1, hstopping.trans hfits.2⟩
  | retain path key g rest =>
    obtain ⟨hroutes, hstopping⟩ := hnested rfl
    exact ⟨hroutes ▸ hfits.1, hroutes ▸ hfits.2.1, hstopping.trans hfits.2.2⟩
  | accept g | finishRequest g => exact hmono hfits
  | beginDraining g next => exact ⟨hmono hfits.1, Next.Within.mono hfits.2 h.registered⟩
  | detach g next | close g next =>
    refine ⟨hmono hfits.1, ?_, Next.Within.mono hfits.2.2 h.registered⟩
    refine (hsound.same_dropped h hne hfits.1 ?_).trans hfits.2.1
    rcases hcode with hj | hj <;> simp [hj, ProcessPoint.detaches]
  | waitDetached g waiter =>
    cases waiter with
    | disable => exact hmono hfits
    | shutdown rest stopping =>
      exact ⟨hmono hfits.1, fun g' hg' => hmono (hfits.2.1 g' hg'),
        fun hstop => h.detachedBut (hfits.2.2 hstop)⟩

/-- **What the other processes rely on still holds.** -/
theorem fits_other (hsound : s.Sound) (h : Advances s s' i) (hne : j ≠ i) : s'.Fits (s.points j) := by
  have hfits := hsound.fits j
  cases hj : s.points j with
  | idle | returned => trivial
  | entering code | inside code =>
    rw [hj] at hfits
    exact fitsCode_other hsound h hne (by simp [hj]) hfits
  | inserting path =>
    rw [hj] at hfits
    obtain ⟨hroutes, hstopping⟩ := hsound.same_routes h hne (by simp [hj, ProcessPoint.holds])
    exact ⟨hroutes ▸ hfits.1, hstopping.trans hfits.2⟩
  | unlocking next =>
    rw [hj] at hfits
    exact Next.Within.mono hfits h.registered
  | serving g =>
    rw [hj] at hfits
    exact lt_of_lt_of_le hfits h.registered
  | detaching g next =>
    rw [hj] at hfits
    refine ⟨lt_of_lt_of_le hfits.1 h.registered, ?_, Next.Within.mono hfits.2.2 h.registered⟩
    exact (hsound.same_dropped h hne hfits.1 (by simp [hj, ProcessPoint.detaches])).trans hfits.2.1
  | waited result stopping =>
    rw [hj] at hfits
    exact fun hresult hstop => h.detachedBut (hfits hresult hstop)

/-! ## One generation -/

/-- What `begin_draining` does: take the handler, close the admission, or nothing. -/
theorem drained_cases {generation : Generation} {dropped : Nat} (h : Phase generation dropped) :
    (generation.handler = true ∧ generation.lifecycle ≠ .detached ∧ dropped = 0 ∧
        generation.activeRequests = 0 ∧
        drained generation = (true, { generation with lifecycle := .draining, handler := false })) ∨
      (generation.handler = true ∧ generation.lifecycle ≠ .detached ∧ dropped = 0 ∧
        drained generation = (false, { generation with lifecycle := .draining })) ∨
      drained generation = (false, generation) := by
  obtain ⟨path, lifecycle, active, handler⟩ := generation
  rcases h with ⟨rfl, hlifecycle, hdropped⟩ | ⟨rfl, rfl, rfl, -⟩ | ⟨rfl, rfl, rfl, -⟩
  · by_cases hactive : active = 0
    · left
      cases lifecycle <;> simp_all [drained, detachIfIdle]
    · right
      left
      cases lifecycle <;> simp_all [drained, detachIfIdle]
  · right
    right
    rfl
  · right
    right
    rfl

/-- A request that is counted keeps the handler in the slot. -/
theorem GenerationOk.of_live (h : s.GenerationOk g) (hlive : (s.points i).live g = true) :
    (s.generations g).handler = true ∧ (s.generations g).lifecycle ≠ .detached ∧ s.dropped g = 0 := by
  obtain ⟨requests, hmem, hcard⟩ := h.count
  have hpos : 0 < requests.card := Finset.card_pos.mpr ⟨i, (hmem i).mpr hlive⟩
  rcases h.phase with hphase | ⟨-, -, hzero, -⟩ | ⟨-, -, hzero, -⟩
  · exact hphase
  · omega
  · omega

/-- The process that detaches a generation has found it draining, and nobody in it. -/
theorem GenerationOk.of_detaches (h : s.GenerationOk g) (hdetaches : (s.points i).detaches g = true) :
    (s.generations g).lifecycle = .draining ∧ (s.generations g).handler = false ∧
      (s.generations g).activeRequests = 0 := by
  have htaken := h.detacher.taken_iff.mpr ⟨i, hdetaches⟩
  simp only [taken, Bool.and_eq_true, decide_eq_true_eq, Bool.not_eq_true'] at htaken
  obtain ⟨hdraining, hnone⟩ := htaken
  refine ⟨hdraining, hnone, ?_⟩
  rcases h.phase with ⟨hhandler, -, -⟩ | ⟨-, -, hactive, -⟩ | ⟨-, -, hactive, -⟩
  · rw [hnone] at hhandler
    cases hhandler
  · exact hactive
  · exact hactive

section

variable [DecidableEq ι] {point : ProcessPoint}

/-- The requests of a generation are counted, when process `i` is at `point`. -/
def Counted (s : RawBodyRegistry ι) (i : ι) (point : ProcessPoint) (g count : Nat) : Prop :=
  ∃ requests : Finset ι, (∀ j, j ∈ requests ↔ (Function.update s.points i point j).live g = true) ∧
    count = requests.card

theorem GenerationOk.counts (h : s.GenerationOk g) (hsame : point.live g = (s.points i).live g) :
    s.Counted i point g (s.generations g).activeRequests := by
  obtain ⟨requests, hmem, hcard⟩ := h.count
  refine ⟨requests, fun j => ?_, hcard⟩
  rw [hmem]
  rcases eq_or_ne j i with rfl | hne
  · rw [Function.update_self, hsame]
  · rw [Function.update_of_ne hne]

theorem GenerationOk.counts_more (h : s.GenerationOk g) (hbefore : (s.points i).live g = false)
    (hafter : point.live g = true) : s.Counted i point g ((s.generations g).activeRequests + 1) := by
  obtain ⟨requests, hmem, hcard⟩ := h.count
  refine ⟨insert i requests, fun j => ?_, ?_⟩
  · rw [Finset.mem_insert, hmem]
    rcases eq_or_ne j i with rfl | hne
    · simp [hafter]
    · simp [hne]
  · rw [hcard, Finset.card_insert_of_notMem]
    rw [hmem, hbefore]
    simp

theorem GenerationOk.counts_less (h : s.GenerationOk g) (hbefore : (s.points i).live g = true)
    (hafter : point.live g = false) : s.Counted i point g ((s.generations g).activeRequests - 1) := by
  obtain ⟨requests, hmem, hcard⟩ := h.count
  refine ⟨requests.erase i, fun j => ?_, ?_⟩
  · rw [Finset.mem_erase, hmem]
    rcases eq_or_ne j i with rfl | hne
    · simp [hafter]
    · simp [hne]
  · rw [hcard, Finset.card_erase_of_mem ((hmem i).mpr hbefore)]

theorem GenerationOk.keep (h : s.GenerationOk g) (hpoints : s'.points = Function.update s.points i point)
    (hlive : point.live g = (s.points i).live g) (hdetaches : point.detaches g = (s.points i).detaches g)
    (hgeneration : s'.generations g = s.generations g) (hdropped : s'.dropped g = s.dropped g) :
    s'.GenerationOk g := by
  constructor
  · rw [hpoints, hgeneration]
    exact h.detacher.keep hdetaches
  · rw [hpoints, hgeneration]
    exact h.counts hlive
  · rw [hgeneration, hdropped]
    exact h.phase

/-- A step of process `i` to `point`, with everything it has to show. -/
theorem Sound.advance (h : s.Sound) (hpoints : s'.points = Function.update s.points i point)
    (hadvances : Advances s s' i) (hlocks : Locks ProcessPoint.holds s'.points s'.locked)
    (hfits : s'.Fits point) (hgeneration : ∀ g < s'.registered, s'.GenerationOk g) (hmap : s'.MapOk) :
    s'.Sound := by
  refine ⟨hlocks, fun j => ?_, hgeneration, hmap⟩
  rw [hpoints]
  rcases eq_or_ne j i with rfl | hne
  · rwa [Function.update_self]
  · rw [Function.update_of_ne hne]
    exact fits_other h hadvances hne

theorem Sound.quiet (h : s.Sound) (locked : Lock → Bool)
    (hlocks : Locks ProcessPoint.holds (Function.update s.points i point) locked)
    (hfits : s.Fits point) (hlive : ∀ g, point.live g = (s.points i).live g)
    (hdetaches : ∀ g, point.detaches g = (s.points i).detaches g) :
    Sound { s with locked := locked, points := Function.update s.points i point } := by
  refine h.advance rfl ⟨le_rfl, fun _ _ h => h, fun h => ⟨h, rfl⟩, fun _ => ⟨rfl, rfl⟩, fun _ _ => rfl⟩
    hlocks ?_ (fun g hg => (h.generation g hg).keep rfl (hlive g) (hdetaches g) rfl rfl)
    ⟨h.map.mapped, h.map.there, h.map.size, h.map.unborn⟩
  -- what a point relies on does not mention the locks
  cases point with
  | entering code | inside code =>
    cases code with
    | waitDetached g waiter => cases waiter <;> exact hfits
    | _ => exact hfits
  | _ => exact hfits

end

/-! ## Where processes go on -/

section

variable (lock : Lock) (g : Nat)

@[simp] theorem holds_point (next : Next) : next.point.holds lock = false := by
  rcases next with _ | _ | _ | _ <;> rfl

@[simp] theorem live_point (next : Next) : next.point.live g = false := by
  rcases next with _ | _ | _ | _ <;> rfl

@[simp] theorem detaches_point (next : Next) : next.point.detaches g = false := by
  rcases next with _ | _ | _ | _ <;> rfl

@[simp] theorem holds_waitFrom (timeout stopping : Bool) (rest : List Nat) :
    (waitFrom timeout stopping rest).holds lock = false := by
  rcases rest with _ | _ <;> rcases timeout with _ | _ <;> rfl

@[simp] theorem live_waitFrom (timeout stopping : Bool) (rest : List Nat) :
    (waitFrom timeout stopping rest).live g = false := by
  rcases rest with _ | _ <;> rcases timeout with _ | _ <;> rfl

@[simp] theorem detaches_waitFrom (timeout stopping : Bool) (rest : List Nat) :
    (waitFrom timeout stopping rest).detaches g = false := by
  rcases rest with _ | _ <;> rcases timeout with _ | _ <;> rfl

/-- `retain` goes on under the registry's lock, and is neither live nor detaching. -/
theorem retainFrom_point (routes : BTreeMap Text Nat) (path : Text) (keys : List Text) :
    (retainFrom routes path keys).holds lock = decide (lock = .registry) ∧
      (retainFrom routes path keys).live g = false ∧ (retainFrom routes path keys).detaches g = false := by
  induction keys with
  | nil => exact ⟨rfl, rfl, rfl⟩
  | cons key rest ih =>
    rw [retainFrom]
    rcases routes[key]? with _ | g'
    · exact ih
    · exact ⟨by simp [ProcessPoint.holds, CriticalSection.nested], rfl, rfl⟩

end

theorem holds_leave {point : ProcessPoint} {code : CriticalSection} (hpoint : s.points i = .inside code)
    (houter : code.nested = false) (hfree : ∀ lock, point.holds lock = false) (other : Lock) :
    (s.points i).holds other = true ↔ point.holds other = true ∨ other = code.lock := by
  rw [hpoint, ProcessPoint.holds_inside, hfree, houter]
  simp

theorem Fits.point {next : Next} (h : next.Within s.registered) : s.Fits next.point := by
  rcases next with _ | g | _ | ⟨g, rest⟩
  · trivial
  · exact h
  · trivial
  · exact ⟨h g (by simp), fun g' hg' => h g' (by simp [hg'])⟩

theorem Fits.retainFrom {path : Text} (hpath : s.routes[path]? = none) (hstopping : s.stopping = false)
    (keys : List Text) : s.Fits (retainFrom s.routes path keys) := by
  induction keys with
  | nil => exact ⟨hpath, hstopping⟩
  | cons key rest ih =>
    rw [Http.retainFrom]
    rcases hkey : s.routes[key]? with _ | g
    · exact ih
    · exact ⟨hkey, hpath, hstopping⟩

theorem Fits.waitFrom {stopping : Bool} {rest : List Nat} (hrest : ∀ g ∈ rest, g < s.registered)
    (hstop : stopping = true → s.DetachedBut rest) (timeout : Bool) :
    s.Fits (waitFrom timeout stopping rest) := by
  rcases rest with _ | ⟨g, rest⟩
  · exact fun _ => hstop
  · rcases timeout with _ | _
    · exact ⟨hrest g (by simp), fun g' hg' => hrest g' (by simp [hg']), hstop⟩
    · exact fun h => nomatch h

theorem MapOk.values (h : s.MapOk) : (∀ g ∈ s.routes.toList.map Prod.snd, g < s.registered) ∧
      (s.stopping = true → s.DetachedBut (s.routes.toList.map Prod.snd)) := by
  constructor
  · intro g hg
    obtain ⟨⟨path, g'⟩, hmem, rfl⟩ := List.mem_map.mp hg
    exact (h.mapped path g' ((BTreeMap.mem_toList _ _ _).mp hmem)).1
  · intro hstopping
    refine ⟨hstopping, fun g hg => ?_⟩
    by_cases hdetached : (s.generations g).lifecycle = .detached
    · exact .inl hdetached
    · exact .inr (List.mem_map.mpr ⟨(_, g), (BTreeMap.mem_toList _ _ _).mpr (h.there g hg hdetached), rfl⟩)

theorem Fits.registered {point : ProcessPoint} (h : s.Fits point)
    (hg : point.live g = true ∨ point.detaches g = true) : g < s.registered := by
  cases point with
  | entering code | inside code =>
    cases code with
    | finishRequest g' =>
      have : g' = g := by simpa [ProcessPoint.live, ProcessPoint.detaches] using hg
      exact this ▸ h
    | detach g' next | close g' next =>
      have : g' = g := by simpa [ProcessPoint.live, ProcessPoint.detaches] using hg
      exact this ▸ h.1
    | _ => simp [ProcessPoint.live, ProcessPoint.detaches] at hg
  | serving g' =>
    have : g' = g := by simpa [ProcessPoint.live, ProcessPoint.detaches] using hg
    exact this ▸ h
  | detaching g' next =>
    have : g' = g := by simpa [ProcessPoint.live, ProcessPoint.detaches] using hg
    exact this ▸ h.1
  | _ => simp [ProcessPoint.live, ProcessPoint.detaches] at hg

/-! ## The steps that change no data -/

/-- A point outside every critical section. -/
structure Plain (s : RawBodyRegistry ι) (point : ProcessPoint) : Prop where
  holds : ∀ lock, point.holds lock = false
  live : ∀ g, point.live g = false
  detaches : ∀ g, point.detaches g = false
  fits : s.Fits point

theorem plain_start {call : RegistryCall} {point : ProcessPoint} (hstart : s.start call = point) : Plain s point := by
  have hreturned : Plain s .returned := ⟨fun _ => rfl, fun _ => rfl, fun _ => rfl, trivial⟩
  cases call with
  | register path retainedBytes =>
    rw [RawBodyRegistry.start] at hstart
    split at hstart <;> subst hstart
    · exact hreturned
    · exact ⟨fun _ => rfl, fun _ => rfl, fun _ => rfl, trivial⟩
  | matchRequest post path =>
    rw [RawBodyRegistry.start] at hstart
    split at hstart <;> subst hstart
    · exact ⟨fun _ => rfl, fun _ => rfl, fun _ => rfl, trivial⟩
    · exact hreturned
  | disable g validDeadline =>
    rw [RawBodyRegistry.start] at hstart
    split at hstart <;> subst hstart
    · next hg => exact ⟨fun _ => rfl, fun _ => rfl, fun _ => rfl, hg.2, hg.2⟩
    · exact hreturned
  | dropRegistration g =>
    rw [RawBodyRegistry.start] at hstart
    split at hstart <;> subst hstart
    · next hg => exact ⟨fun _ => rfl, fun _ => rfl, fun _ => rfl, hg, trivial⟩
    · exact hreturned
  | beginShutdown | waitForShutdown =>
    subst hstart
    exact ⟨fun _ => rfl, fun _ => rfl, fun _ => rfl, trivial⟩

section

variable [DecidableEq ι] {point : ProcessPoint}

theorem Sound.goto (h : s.Sound) (hlocks : ∀ lock, point.holds lock = (s.points i).holds lock)
    (hfits : s.Fits point) (hlive : ∀ g, point.live g = (s.points i).live g)
    (hdetaches : ∀ g, point.detaches g = (s.points i).detaches g) : (s.goto i point).Sound :=
  h.quiet s.locked (h.locks.keep hlocks) hfits hlive hdetaches

theorem Sound.unlock (h : s.Sound) {lock : Lock}
    (hlocks : ∀ other, (s.points i).holds other = true ↔ point.holds other = true ∨ other = lock)
    (hgives : point.holds lock = false) (hfits : s.Fits point)
    (hlive : ∀ g, point.live g = (s.points i).live g)
    (hdetaches : ∀ g, point.detaches g = (s.points i).detaches g) : (s.unlock lock i point).Sound :=
  h.quiet _ (h.locks.release hlocks hgives) hfits hlive hdetaches

theorem Sound.start (h : s.Sound) (hpoint : s.points i = .idle) (call : RegistryCall) :
    (s.goto i (s.start call)).Sound := by
  have hplain : Plain s (s.start call) := plain_start rfl
  refine h.goto (fun lock => ?_) hplain.fits (fun g => ?_) fun g => ?_
  · rw [hplain.holds, hpoint]
    rfl
  · rw [hplain.live, hpoint]
    rfl
  · rw [hplain.detaches, hpoint]
    rfl

theorem Sound.enter (h : s.Sound) {code : CriticalSection} (hpoint : s.points i = .entering code)
    (hfree : s.locked code.lock = false) :
    Sound ({ s with locked := Function.update s.locked code.lock true }.goto i (.inside code)) := by
  have hfits := h.fits_at hpoint
  refine h.quiet _ (h.locks.acquire hfree ?_ fun other hne => ?_) hfits (fun g => ?_) fun g => ?_
  · simp [ProcessPoint.holds]
  · simp [hpoint, ProcessPoint.holds, hne]
  · rw [hpoint]
    cases code <;> rfl
  · rw [hpoint]
    cases code <;> rfl

/-! ## The steps of one generation -/

variable {g : Nat} {generation : Generation}

/-- A step under the lock of a generation that changes this generation, but neither its path nor
    whether it is detached. -/
theorem Sound.change (h : s.Sound) (hpath : generation.path = (s.generations g).path)
    (hdetached : generation.lifecycle = .detached ↔ (s.generations g).lifecycle = .detached)
    (hlocks : ∀ other, (s.points i).holds other = true ↔ point.holds other = true ∨ other = .generation g)
    (hgives : point.holds (.generation g) = false)
    (hother : ∀ g', g' ≠ g → point.live g' = (s.points i).live g' ∧
      point.detaches g' = (s.points i).detaches g')
    (hfits : ((s.setGeneration g generation).unlock (.generation g) i point).Fits point)
    (hdetacher : Token (ProcessPoint.detaches g) (Function.update s.points i point) (taken generation))
    (hcount : s.Counted i point g generation.activeRequests) (hphase : Phase generation (s.dropped g)) :
    ((s.setGeneration g generation).unlock (.generation g) i point).Sound := by
  have hlifecycle : ∀ g', (Function.update s.generations g generation g').lifecycle = .detached ↔
      (s.generations g').lifecycle = .detached := by
    intro g'
    rcases eq_or_ne g' g with rfl | hne
    · rw [Function.update_self, hdetached]
    · rw [Function.update_of_ne hne]
  have hpaths : ∀ g', (Function.update s.generations g generation g').path = (s.generations g').path := by
    intro g'
    rcases eq_or_ne g' g with rfl | hne
    · rw [Function.update_self, hpath]
    · rw [Function.update_of_ne hne]
  refine h.advance rfl
    ⟨le_rfl, fun g' _ hg' => (hlifecycle g').mpr hg', fun h => ⟨h, rfl⟩, fun _ => ⟨rfl, rfl⟩,
      fun _ _ => rfl⟩
    (h.locks.release hlocks hgives) hfits (fun g' hg' => ?_) ⟨?_, ?_, h.map.size, h.map.unborn⟩
  · rcases eq_or_ne g' g with rfl | hne
    · constructor <;> simp only [RawBodyRegistry.unlock, setGeneration, Function.update_self]
      · exact hdetacher
      · exact hcount
      · exact hphase
    · exact (h.generation g' hg').keep rfl (hother g' hne).1 (hother g' hne).2
        (Function.update_of_ne hne _ _) rfl
  · intro path g' hg'
    obtain ⟨hlt, hp, hlive⟩ := h.map.mapped path g' hg'
    exact ⟨hlt, (hpaths g').trans hp, fun hd => hlive ((hlifecycle g').mp hd)⟩
  · intro g' hg' hlive
    simp only [RawBodyRegistry.unlock, setGeneration, hpaths]
    exact h.map.there g' hg' fun hd => hlive ((hlifecycle g').mpr hd)

theorem Sound.accept (h : s.Sound) (hpoint : s.points i = .inside (.accept g))
    (haccepted : accepted (s.generations g) = some generation) :
    ((s.setGeneration g generation).unlock (.generation g) i (.serving g)).Sound := by
  have hg : g < s.registered := h.fits_at hpoint
  -- only an enabled generation accepts
  have henabled : (s.generations g).lifecycle = .enabled ∧ (s.generations g).handler = true ∧
      generation = { s.generations g with
        activeRequests := (s.generations g).activeRequests + 1 } := by
    unfold accepted at haccepted
    split_ifs at haccepted with hlifecycle hhandler
    cases haccepted
    exact ⟨not_not.mp hlifecycle, by simpa using hhandler, rfl⟩
  obtain ⟨hlifecycle, hhandler, rfl⟩ := henabled
  have hok := h.generation g hg
  refine h.change rfl Iff.rfl (holds_leave hpoint rfl fun _ => rfl) rfl (fun g' hne => ?_) hg
    (hok.detacher.keep (by rw [hpoint]; rfl))
    (hok.counts_more (by rw [hpoint]; rfl) (by simp [ProcessPoint.live])) ?_
  · simp [hpoint, ProcessPoint.live, ProcessPoint.detaches, Ne.symm hne]
  · refine .inl ⟨hhandler, by simp [hlifecycle], ?_⟩
    rcases hok.phase with ⟨-, -, hdropped⟩ | ⟨hnone, -⟩ | ⟨hnone, -⟩
    · exact hdropped
    · rw [hhandler] at hnone
      cases hnone
    · rw [hhandler] at hnone
      cases hnone

theorem Sound.finishRequest (h : s.Sound) (hpoint : s.points i = .inside (.finishRequest g)) :
    ((s.setGeneration g (finished (s.generations g)).2).unlock (.generation g) i
      (if (finished (s.generations g)).1 then .detaching g .finish else .returned)).Sound := by
  have hg : g < s.registered := h.fits_at hpoint
  have hok := h.generation g hg
  have hlive : (s.points i).live g = true := by simp [hpoint, ProcessPoint.live]
  obtain ⟨hhandler, hdetached, hdropped⟩ := hok.of_live hlive
  have hbefore : taken (s.generations g) = false := by simp [taken, hhandler]
  by_cases hidle : (s.generations g).lifecycle = .draining ∧ (s.generations g).activeRequests - 1 = 0
  · -- the last request of a draining generation takes the handler
    have hfinished : finished (s.generations g) = (true, { s.generations g with
        activeRequests := (s.generations g).activeRequests - 1, handler := false }) := by
      simp [finished, detachIfIdle, hidle, hhandler]
    rw [hfinished]
    have hdetacher := hok.detacher
    rw [hbefore] at hdetacher
    refine h.change rfl Iff.rfl (holds_leave hpoint rfl fun _ => rfl) rfl (fun g' hne => ?_)
      ⟨hg, hdropped, trivial⟩ ?_ (hok.counts_less hlive rfl) (.inr (.inl ⟨rfl, hidle.1, hidle.2, by omega⟩))
    · simp [hpoint, ProcessPoint.live, ProcessPoint.detaches, Ne.symm hne]
    · simp only [taken, hidle.1]
      exact hdetacher.acquire (by simp [ProcessPoint.detaches])
  · have hfinished : finished (s.generations g) = (false, { s.generations g with
        activeRequests := (s.generations g).activeRequests - 1 }) := by
      rw [finished, detachIfIdle, if_neg hidle]
    rw [hfinished]
    refine h.change rfl Iff.rfl (holds_leave hpoint rfl fun _ => rfl) rfl (fun g' hne => ?_) trivial
      (hok.detacher.keep (by rw [hpoint]; rfl)) (hok.counts_less hlive rfl) (.inl ⟨hhandler, hdetached, hdropped⟩)
    simp [hpoint, ProcessPoint.live, ProcessPoint.detaches, Ne.symm hne]

variable {next : Next}

theorem Sound.beginDraining (h : s.Sound) (hpoint : s.points i = .inside (.beginDraining g next)) :
    ((s.setGeneration g (drained (s.generations g)).2).unlock (.generation g) i
      (if (drained (s.generations g)).1 then .detaching g next else next.point)).Sound := by
  obtain ⟨hg, hnext⟩ := h.fits_at hpoint
  have hok := h.generation g hg
  have hlive : ∀ g', (s.points i).live g' = false := fun g' => by rw [hpoint]; rfl
  have hdetaches : ∀ g', (s.points i).detaches g' = false := fun g' => by rw [hpoint]; rfl
  have hsame : ∀ g', next.point.live g' = (s.points i).live g' ∧
      next.point.detaches g' = (s.points i).detaches g' := by
    intro g'
    rw [hlive, hdetaches, live_point, detaches_point]
    exact ⟨rfl, rfl⟩
  rcases drained_cases hok.phase with ⟨hhandler, hdetached, hdropped, hactive, hdrained⟩ |
    ⟨hhandler, hdetached, hdropped, hdrained⟩ | hdrained
  · -- nobody is left: this process takes the handler
    have hdetacher := hok.detacher
    rw [show taken (s.generations g) = false by simp [taken, hhandler]] at hdetacher
    simp only [hdrained, if_true]
    refine h.change rfl (by simp [hdetached]) (holds_leave hpoint rfl fun _ => rfl) rfl (fun g' hne => ?_)
      ⟨hg, hdropped, hnext⟩ (hdetacher.acquire (by simp [ProcessPoint.detaches])) (hok.counts (hlive g).symm)
      (.inr (.inl ⟨rfl, rfl, hactive, by omega⟩))
    rw [hlive, hdetaches]
    simp [ProcessPoint.live, ProcessPoint.detaches, Ne.symm hne]
  · simp only [hdrained, Bool.false_eq_true, if_false]
    refine h.change rfl (by simp [hdetached]) (holds_leave hpoint rfl fun _ => holds_point _ _)
      (holds_point _ _) (fun g' _ => hsame g') (Fits.point hnext) ?_ (hok.counts (hsame g).1)
      (.inl ⟨hhandler, by simp, hdropped⟩)
    have hdetacher := hok.detacher
    rw [show taken (s.generations g) = false by simp [taken, hhandler]] at hdetacher
    simp only [taken, hhandler]
    exact hdetacher.keep (hsame g).2
  · simp only [hdrained, Bool.false_eq_true, if_false]
    exact h.change rfl Iff.rfl (holds_leave hpoint rfl fun _ => holds_point _ _) (holds_point _ _)
      (fun g' _ => hsame g') (Fits.point hnext) (hok.detacher.keep (hsame g).2) (hok.counts (hsame g).1) hok.phase

theorem Sound.dropHandler (h : s.Sound) (hpoint : s.points i = .detaching g next) :
    Sound ({ s with dropped := Function.update s.dropped g (s.dropped g + 1) }.goto i
      (.entering (.detach g next))) := by
  obtain ⟨hg, hdropped, hnext⟩ := h.fits_at hpoint
  have hdetaches : (s.points i).detaches g = true := by simp [hpoint, ProcessPoint.detaches]
  have hother : ∀ g', g' ≠ g → Function.update s.dropped g (s.dropped g + 1) g' = s.dropped g' :=
    fun g' hne => Function.update_of_ne hne _ _
  refine h.advance rfl ⟨le_rfl, fun _ _ h => h, fun h => ⟨h, rfl⟩, fun _ => ⟨rfl, rfl⟩, fun g' hg' => ?_⟩
    (h.locks.keep fun lock => by rw [hpoint]; rfl) ⟨hg, ?_, hnext⟩ (fun g' hg' => ?_)
    ⟨h.map.mapped, h.map.there, h.map.size, fun g' hg' => ?_⟩
  · refine hother g' ?_
    rintro rfl
    rw [hdetaches] at hg'
    cases hg'
  · simp [RawBodyRegistry.goto, hdropped]
  · rcases eq_or_ne g' g with rfl | hne
    · have hok := h.generation g' hg
      obtain ⟨hdraining, hnone, hactive⟩ := hok.of_detaches hdetaches
      refine ⟨hok.detacher.keep (by rw [hpoint]; rfl), hok.counts (by rw [hpoint]; rfl),
        .inr (.inl ⟨hnone, hdraining, hactive, ?_⟩)⟩
      simp [RawBodyRegistry.goto, hdropped]
    · refine (h.generation g' hg').keep rfl ?_ ?_ rfl (hother g' hne)
      · rw [hpoint]
        rfl
      · simp [hpoint, ProcessPoint.detaches]
  · refine (hother g' ?_).trans (h.map.unborn g' hg')
    rintro rfl
    exact absurd hg (Nat.not_lt.mpr hg')

/-- **A generation is closed**: it leaves the map and becomes detached in one step. -/
theorem Sound.close (h : s.Sound) (hpoint : s.points i = .inside (.close g next)) :
    Sound (({ s with
        routes :=
          if s.routes[(s.generations g).path]? = some g then s.routes.erase (s.generations g).path
          else s.routes }.setGeneration g { s.generations g with lifecycle := .detached }).unlock
      (.generation g) i (.unlocking next)) := by
  obtain ⟨hg, hdropped, hnext⟩ := h.fits_at hpoint
  have hok := h.generation g hg
  have hdetaches : (s.points i).detaches g = true := by simp [hpoint, ProcessPoint.detaches]
  obtain ⟨hdraining, hnone, hactive⟩ := hok.of_detaches hdetaches
  have hthere := h.map.there g hg (by simp [hdraining])
  rw [if_pos hthere]
  have hholds : ∀ other, (s.points i).holds other = true ↔
      (ProcessPoint.unlocking next).holds other = true ∨ other = .generation g := by
    intro other
    rw [hpoint, ProcessPoint.holds_inside, ProcessPoint.holds_unlocking]
    simp only [CriticalSection.lock, CriticalSection.nested, true_and]
    exact or_comm
  refine h.advance rfl ⟨le_rfl, fun g' _ hg' => ?_, fun h => ⟨h, rfl⟩, fun hfree => ?_, fun _ _ => rfl⟩
    (h.locks.release hholds (by simp [ProcessPoint.holds])) hnext
    (fun g' hg' => ?_) ⟨fun path g' hg' => ?_, fun g' hg' hlive => ?_, ?_, h.map.unborn⟩
  · simp only [RawBodyRegistry.unlock, setGeneration]
    rcases eq_or_ne g' g with rfl | hne
    · rw [Function.update_self]
    · rw [Function.update_of_ne hne]
      exact hg'
  · rw [(hholds .registry).mpr (.inl ((ProcessPoint.holds_unlocking _ _).mpr rfl))] at hfree
    cases hfree
  · rcases eq_or_ne g' g with rfl | hne
    · constructor <;> simp only [RawBodyRegistry.unlock, setGeneration, Function.update_self]
      · exact hok.detacher.release hdetaches rfl
      · exact hok.counts (by rw [hpoint]; rfl)
      · exact .inr (.inr ⟨hnone, rfl, hactive, hdropped⟩)
    · refine (h.generation g' hg').keep rfl ?_ ?_ (Function.update_of_ne hne _ _) rfl
      · rw [hpoint]
        rfl
      · rw [hpoint]
        simp [ProcessPoint.detaches, Ne.symm hne]
  · -- the entry that is gone was this generation's own
    simp only [RawBodyRegistry.unlock, setGeneration] at hg' ⊢
    rw [BTreeMap.find_erase] at hg'
    split at hg'
    · cases hg'
    · next hpath =>
      obtain ⟨hlt, hp, hlive⟩ := h.map.mapped path g' hg'
      have hne : g' ≠ g := by
        rintro rfl
        exact hpath hp
      rw [Function.update_of_ne hne]
      exact ⟨hlt, hp, hlive⟩
  · simp only [RawBodyRegistry.unlock, setGeneration] at hlive ⊢
    rcases eq_or_ne g' g with rfl | hne
    · rw [Function.update_self] at hlive
      exact absurd rfl hlive
    · rw [Function.update_of_ne hne] at hlive ⊢
      have hold := h.map.there g' hg' hlive
      rw [BTreeMap.find_erase_ne _ fun hpath => ?_]
      · exact hold
      · rw [← hpath, hthere] at hold
        cases hold
        exact hne rfl
  · exact Std.TreeMap.size_erase_le.trans h.map.size

theorem Sound.beginShutdown (h : s.Sound) (hpoint : s.points i = .inside .beginShutdown) :
    Sound ({ s with stopping := true }.unlock .registry i
      (Next.drain (s.routes.toList.map Prod.snd)).point) := by
  have hholds := holds_leave hpoint rfl fun lock => holds_point lock (.drain (s.routes.toList.map Prod.snd))
  refine h.advance rfl ⟨le_rfl, fun _ _ h => h, fun _ => ⟨rfl, rfl⟩, fun hfree => ?_, fun _ _ => rfl⟩
    (h.locks.release hholds (holds_point _ _)) (Fits.point h.map.values.1)
    (fun g hg => (h.generation g hg).keep rfl ?_ ?_ rfl rfl)
    ⟨h.map.mapped, h.map.there, h.map.size, h.map.unborn⟩
  · rw [(hholds .registry).mpr (.inr rfl)] at hfree
    cases hfree
  · rw [hpoint, live_point]
    rfl
  · rw [hpoint, detaches_point]
    rfl

/-- **A generation is registered.** -/
theorem Sound.insertGeneration {path : Text} (h : s.Sound) (hpoint : s.points i = .inserting path) :
    (s.insertGeneration i path).Sound := by
  obtain ⟨hpath, hstopping⟩ := h.fits_at hpoint
  have hholds : ∀ other, (s.points i).holds other = true ↔
      ProcessPoint.returned.holds other = true ∨ other = .registry := by
    intro other
    rw [hpoint]
    simp [ProcessPoint.holds]
  unfold RawBodyRegistry.insertGeneration
  split
  · exact h.unlock hholds rfl trivial (fun g => by rw [hpoint]; rfl) fun g => by rw [hpoint]; rfl
  · next hroom =>
    have hold : ∀ g < s.registered,
        Function.update s.generations s.registered ⟨path, .enabled, 0, true⟩ g = s.generations g :=
      fun g hg => Function.update_of_ne (Nat.ne_of_lt hg) _ _
    have hnobody : ∀ j, (s.points j).live s.registered = false ∧ (s.points j).detaches s.registered = false := by
      intro j
      rw [← Bool.not_eq_true, ← Bool.not_eq_true]
      exact ⟨fun hlive => lt_irrefl _ ((h.fits j).registered (.inl hlive)),
        fun hdetaches => lt_irrefl _ ((h.fits j).registered (.inr hdetaches))⟩
    refine h.advance rfl ⟨Nat.le_succ _, fun g hg hd => ?_, fun hstop => ?_, fun hfree => ?_, fun _ _ => rfl⟩
      (h.locks.release hholds rfl) trivial (fun g hg => ?_)
      ⟨fun path' g hg => ?_, fun g hg hlive => ?_, ?_, fun g hg => h.map.unborn g (Nat.le_of_succ_le hg)⟩
    · simp only [RawBodyRegistry.unlock, setGeneration, hold g hg]
      exact hd
    · rw [hstopping] at hstop
      cases hstop
    · rw [(hholds _).mpr (.inr rfl)] at hfree
      cases hfree
    · rcases Nat.lt_succ_iff_lt_or_eq.mp hg with hg | rfl
      · refine (h.generation g hg).keep rfl ?_ ?_ (hold g hg) rfl
        · rw [hpoint]
          rfl
        · rw [hpoint]
          rfl
      · -- the new generation: nobody can have heard of it
        have hfresh : ∀ j, (Function.update s.points i .returned j).live s.registered = false ∧
            (Function.update s.points i .returned j).detaches s.registered = false := by
          intro j
          rcases eq_or_ne j i with rfl | hne
          · rw [Function.update_self]
            exact ⟨rfl, rfl⟩
          · rw [Function.update_of_ne hne]
            exact hnobody j
        constructor <;> simp only [RawBodyRegistry.unlock, setGeneration, Function.update_self]
        · exact Token.free fun j => (hfresh j).2
        · exact ⟨∅, fun j => by simp [(hfresh j).1], rfl⟩
        · exact .inl ⟨rfl, by simp, h.map.unborn _ le_rfl⟩
    · simp only [RawBodyRegistry.unlock, setGeneration] at hg ⊢
      rw [BTreeMap.find_insert] at hg
      split at hg
      · next hsame =>
        cases hg
        rw [Function.update_self]
        exact ⟨Nat.lt_succ_self _, hsame, by simp⟩
      · obtain ⟨hlt, hp, hlive⟩ := h.map.mapped path' g hg
        rw [hold g hlt]
        exact ⟨Nat.lt_succ_of_lt hlt, hp, hlive⟩
    · simp only [RawBodyRegistry.unlock, setGeneration] at hg hlive ⊢
      rcases Nat.lt_succ_iff_lt_or_eq.mp hg with hg | rfl
      · rw [hold g hg] at hlive ⊢
        have hthere := h.map.there g hg hlive
        rw [BTreeMap.find_insert_ne _ _ fun hsame => ?_]
        · exact hthere
        · rw [← hsame, hpath] at hthere
          cases hthere
      · rw [Function.update_self, BTreeMap.find_insert_self]
    · have := Std.TreeMap.size_insert_le (t := s.routes) (k := path) (v := s.registered)
      simp only [RawBodyRegistry.unlock, setGeneration]
      omega

end

end RawBodyRegistry

end Bondry.Http
