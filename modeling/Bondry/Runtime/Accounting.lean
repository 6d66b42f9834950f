/-
  THE ENGINE'S BOOKS.

  The engine counts its deliveries nine times: how many are pending and how many bytes they hold, globally
  and for each route; how many are in flight, globally and for each route; how many calls a route has and
  how many of them are in flight.  None of these counters is ever computed from the maps, and every
  decrement saturates, so a double decrement would go unnoticed.
-/
import Bondry.Lib.Ledger
import Bondry.Runtime.Backed
import Bondry.Runtime.MemoryLog

namespace Bondry.Runtime

open Egress

namespace Engine

variable {σ Q A : Type} {svc : Services σ}

/-! ## Marks -/

/-- What the books see of an entry: its route, its bytes, and whether it is in flight. -/
abbrev Mark := RouteId × Nat × Bool

def mark {ρ : Type} (a : Active Q A ρ) : Mark := (a.parts.route, a.parts.payload.length, a.abort.isSome)

/-- A delivery counts as one. -/
def each (_ : Mark) : Nat := 1

/-- A delivery counts as its payload. -/
def bytesOf (m : Mark) : Nat := m.2.1

/-- A delivery counts while it is in flight. -/
def held (m : Mark) : Nat := if m.2.2 then 1 else 0

/-- Only the deliveries of one route count. -/
def on (route : RouteId) (w : Mark → Nat) (m : Mark) : Nat := if m.1 = route then w m else 0

/-- The usage of a route, computed from the weights of the deliveries and of the calls. -/
def usageOf (E K : (Mark → Nat) → Nat) (route : RouteId) : RouteUsage :=
  ⟨E (on route each), E (on route bytesOf), E (on route held), K (on route each)⟩

/-- **The counters are right** for the weights of the deliveries and of the calls. -/
structure Balanced (E K : (Mark → Nat) → Nat) (s : Engine σ Q A) : Prop where
  pending : s.globalPending = E each
  bytes : s.globalBytes = E bytesOf
  flight : s.globalInFlight = E held
  calls : s.callInFlight = K held
  usage : Posted RouteUsage.isIdle (usageOf E K) s.usage
  exact : s.saturated = false

theorem on_self (route : RouteId) (w : Mark → Nat) (bytes : Nat) (flying : Bool) :
    on route w (route, bytes, flying) = w (route, bytes, flying) := if_pos rfl

variable {route : RouteId}

theorem on_other {route' : RouteId} (h : route ≠ route') (w : Mark → Nat) (bytes : Nat)
    (flying : Bool) : on route' w (route, bytes, flying) = 0 := if_neg h

variable {E K : (Mark → Nat) → Nat}

theorem busy_of_pending (h : 1 ≤ E (on route each)) : (usageOf E K route).isIdle = false := by
  have hne : E (on route each) ≠ 0 := by omega
  simp [RouteUsage.isIdle, usageOf, hne]

theorem lack_false {have_ take : Nat} (h : take ≤ have_) : lack have_ take = false := by
  simp only [lack, decide_eq_false_iff_not]
  omega

section Entries

variable {E E' K K' : (Mark → Nat) → Nat} {s s' : Engine σ Q A} {route : RouteId} {bytes : Nat}
  {b b' : Bool}

/-! ## A mark that turns

A delivery that takes off or lands is replaced by one of the same route and length. -/

/-- One entry goes in or out of flight. -/
def Turns (route : RouteId) (bytes : Nat) (b b' : Bool) (E E' : (Mark → Nat) → Nat) : Prop :=
  ∀ w, E' w + w (route, bytes, b) = E w + w (route, bytes, b')

/-- A weight that does not look at the flight of a delivery. -/
def Grounded (w : Mark → Nat) : Prop := ∀ route bytes, w (route, bytes, true) = w (route, bytes, false)

theorem grounded_each : Grounded each := fun _ _ => rfl

theorem grounded_bytesOf : Grounded bytesOf := fun _ _ => rfl

theorem Grounded.on {w : Mark → Nat} (hw : Grounded w) (route : RouteId) : Grounded (on route w) := by
  intro r bytes
  simp only [Engine.on, hw r bytes]

theorem Turns.grounded (h : Turns route bytes b b' E E') {w : Mark → Nat} (hw : Grounded w) : E' w = E w := by
  have hsame : w (route, bytes, b) = w (route, bytes, b') := by
    cases b <;> cases b' <;> simp [hw route bytes]
  have hmoved := h w
  omega

theorem Turns.other (h : Turns route bytes b b' E E') {g : RouteId} (hg : route ≠ g) :
    usageOf E' K g = usageOf E K g := by
  have hsame : ∀ w, E' (on g w) = E (on g w) := fun w => by simpa [on_other hg] using h (on g w)
  simp only [usageOf, hsame]

theorem Turns.own (h : Turns route bytes b b' E E') :
    usageOf E' K route = { usageOf E K route with inFlight := E' (on route held) } := by
  simp only [usageOf, h.grounded (grounded_each.on route), h.grounded (grounded_bytesOf.on route)]

theorem Turns.held (h : Turns route bytes b b' E E') (g : RouteId) :
    E' held + held (g, bytes, b) = E held + held (g, bytes, b') ∧
      E' (on route held) + held (g, bytes, b) = E (on route held) + held (g, bytes, b') := by
  have hroute := h (on route Engine.held)
  rw [on_self, on_self] at hroute
  exact ⟨h Engine.held, hroute⟩

theorem Balanced.find (h : Balanced E K s) (hpending : 1 ≤ E (on route each)) :
    s.usage[route]? = some (usageOf E K route) :=
  h.usage.find (busy_of_pending hpending)

theorem Balanced.turned (h : Balanced E K s) (hturns : Turns route bytes b b' E E')
    (hpending : 1 ≤ E (on route each)) : Posted RouteUsage.isIdle (usageOf E' K) (s.usage.insert route
      { usageOf E K route with inFlight := E' (on route Engine.held) }) := by
  rw [← hturns.own (K := K)]
  refine h.usage.insert (busy_of_pending ?_) fun g hg => hturns.other hg
  rw [hturns.grounded (grounded_each.on route)]
  exact hpending

/-! ## The entries of the books -/

theorem Balanced.landed (h : Balanced E K s) (hthere : ∀ w, w (route, bytes, true) ≤ E w)
    (hturns : Turns route bytes true false E E') : Balanced E' K (s.landed route) := by
  have hflying : 1 ≤ E held := hthere held
  have hroute : 1 ≤ E (on route held) := by simpa [on_self, held] using hthere (on route held)
  have hpending : 1 ≤ E (on route each) := by simpa [on_self, each] using hthere (on route each)
  have hheld := hturns.held route
  simp only [held, if_true, Bool.false_eq_true, if_false] at hheld
  have hposted := h.turned hturns hpending
  rw [show E' (on route held) = (usageOf E K route).inFlight - 1 by simp only [usageOf]; omega]
    at hposted
  simp only [Engine.landed, h.find hpending]
  refine ⟨?_, ?_, ?_, h.calls, hposted, ?_⟩
  · exact h.pending.trans (hturns.grounded grounded_each).symm
  · exact h.bytes.trans (hturns.grounded grounded_bytesOf).symm
  · show s.globalInFlight - 1 = E' held
    rw [h.flight]
    omega
  · show (s.saturated || lack s.globalInFlight 1 || lack (E (on route held)) 1) = false
    rw [h.exact, lack_false (h.flight ▸ hflying), lack_false hroute]
    rfl

theorem Balanced.spawned (h : Balanced E K s) (hthere : ∀ w, w (route, bytes, false) ≤ E w)
    (hturns : Turns route bytes false true E E') :
    Balanced E' K ({ s with globalInFlight := s.globalInFlight + 1 }.withUsage route fun usage =>
      { usage with inFlight := usage.inFlight + 1 }) := by
  have hpending : 1 ≤ E (on route each) := by simpa [on_self, each] using hthere (on route each)
  have hheld := hturns.held route
  simp only [held, if_true, Bool.false_eq_true, if_false] at hheld
  have hposted := h.turned hturns hpending
  rw [show E' (on route held) = (usageOf E K route).inFlight + 1 by simp only [usageOf]; omega]
    at hposted
  simp only [withUsage, h.find hpending, Option.getD_some]
  refine ⟨?_, ?_, ?_, h.calls, hposted, h.exact⟩
  · exact h.pending.trans (hturns.grounded grounded_each).symm
  · exact h.bytes.trans (hturns.grounded grounded_bytesOf).symm
  · show s.globalInFlight + 1 = E' held
    rw [h.flight]
    omega

theorem Balanced.released (h : Balanced E K s) (hleave : ∀ w, E' w + w (route, bytes, false) = E w) :
    Balanced E' K (s.released route bytes) := by
  have hown : ∀ w, E' (on route w) + w (route, bytes, false) = E (on route w) := fun w => by
    rw [← hleave (on route w), on_self]
  have heach : E' (on route each) + 1 = E (on route each) := hown each
  have hbytes : E' (on route bytesOf) + bytes = E (on route bytesOf) := hown bytesOf
  have hheld : E' (on route held) = E (on route held) := hown held
  have hglobal : E' each + 1 = E each := hleave each
  have hglobalBytes : E' bytesOf + bytes = E bytesOf := hleave bytesOf
  have hother : ∀ g, route ≠ g → usageOf E' K g = usageOf E K g := fun g hg => by
    simp only [usageOf, ← hleave, on_other hg, Nat.add_zero]
  have hposted := h.usage.settle hother
  have husage : usageOf E' K route = { usageOf E K route with
      pending := (usageOf E K route).pending - 1
      bytes := (usageOf E K route).bytes - bytes } := by
    simp only [usageOf, RouteUsage.mk.injEq, and_true]
    omega
  rw [husage] at hposted
  simp only [Engine.released, h.find (show 1 ≤ E (on route each) by omega)]
  refine ⟨?_, ?_, ?_, h.calls, hposted, ?_⟩
  · show s.globalPending - 1 = E' each
    rw [h.pending]
    omega
  · show s.globalBytes - bytes = E' bytesOf
    rw [h.bytes]
    omega
  · rw [h.flight]
    exact (hleave held).symm
  · show (s.saturated || lack s.globalPending 1 || lack s.globalBytes bytes ||
      lack (E (on route each)) 1 || lack (E (on route bytesOf)) bytes) = false
    rw [h.exact, h.pending, h.bytes, lack_false (by omega), lack_false (by omega),
      lack_false (by omega), lack_false (by omega)]
    rfl

theorem Balanced.callLanded (h : Balanced E K s) (hthere : ∀ w, w (route, bytes, true) ≤ K w)
    (hturns : Turns route bytes true false K K') : Balanced E K' s.callLanded := by
  have hflying : 1 ≤ K held := hthere held
  have hheld : K' held + 1 = K held := by simpa [held] using hturns held
  refine ⟨h.pending, h.bytes, h.flight, ?_, h.usage.congr fun g => ?_, ?_⟩
  · show s.callInFlight - 1 = K' held
    rw [h.calls]
    omega
  · simp only [usageOf, hturns.grounded (grounded_each.on g)]
  · show (s.saturated || lack s.callInFlight 1) = false
    rw [h.exact, lack_false (h.calls ▸ hflying)]
    rfl

theorem Balanced.callSpawned (h : Balanced E K s) (hturns : Turns route bytes false true K K') :
    Balanced E K' { s with callInFlight := s.callInFlight + 1 } := by
  have hheld : K' held = K held + 1 := by simpa [held] using hturns held
  refine ⟨h.pending, h.bytes, h.flight, ?_, h.usage.congr fun g => ?_, h.exact⟩
  · rw [hheld, ← h.calls]
  · simp only [usageOf, hturns.grounded (grounded_each.on g)]

theorem Balanced.callReleased (h : Balanced E K s) (hleave : ∀ w, K' w + w (route, bytes, false) = K w) :
    Balanced E K' (s.callReleased route) := by
  have hcalls : K' (on route each) + 1 = K (on route each) := by
    simpa [on_self, each] using hleave (on route each)
  have hbusy : (usageOf E K route).isIdle = false := by
    have hne : K (on route each) ≠ 0 := by omega
    simp [RouteUsage.isIdle, usageOf, hne]
  have hfind : s.usage[route]? = some (usageOf E K route) := h.usage.find hbusy
  have hown : usageOf E K' route =
      { usageOf E K route with calls := (usageOf E K route).calls - 1 } := by
    simp only [usageOf, RouteUsage.mk.injEq, true_and]
    omega
  have hother : ∀ g, route ≠ g → usageOf E K' g = usageOf E K g := fun g hg => by
    simp only [usageOf, ← hleave, on_other hg, Nat.add_zero]
  have hposted := h.usage.settle hother
  rw [hown] at hposted
  simp only [Engine.callReleased, hfind]
  refine ⟨h.pending, h.bytes, h.flight, ?_, hposted, ?_⟩
  · rw [h.calls]
    exact (hleave held).symm
  · show (s.saturated || lack (usageOf E K route).calls 1) = false
    rw [h.exact, lack_false (by simp only [usageOf]; omega)]
    rfl

theorem Balanced.usage_getD (h : Balanced E K s) (hempty : E (on route each) = 0 → E (on route bytesOf) = 0) :
    s.usage[route]?.getD .zero = usageOf E K route := by
  cases hidle : (usageOf E K route).isIdle with
  | false =>
    rw [h.usage.find hidle]
    rfl
  | true =>
    rw [h.usage.find_idle hidle]
    simp only [RouteUsage.isIdle, usageOf, Bool.and_eq_true, beq_iff_eq] at hidle
    obtain ⟨⟨hpending, hflight⟩, hcalls⟩ := hidle
    simp only [Option.getD_none, RouteUsage.zero, usageOf, hpending, hempty hpending, hflight,
      hcalls]

theorem Balanced.accepted (h : Balanced E K s)
    (hempty : E (on route each) = 0 → E (on route bytesOf) = 0)
    (henter : ∀ w, E' w = E w + w (route, bytes, false)) :
    Balanced E' K ({ s with
        globalPending := s.globalPending + 1, globalBytes := s.globalBytes + bytes }.withUsage route
      fun usage => { usage with pending := usage.pending + 1, bytes := usage.bytes + bytes }) := by
  have hother : ∀ g, route ≠ g → usageOf E' K g = usageOf E K g := fun g hg => by
    simp [usageOf, henter, on_other hg]
  have hposted := h.usage.insert
    (busy_of_pending (by rw [henter, on_self]; exact Nat.le_add_left _ _)) hother
  rw [show usageOf E' K route = { usageOf E K route with
      pending := (usageOf E K route).pending + 1
      bytes := (usageOf E K route).bytes + bytes } by
    simp [usageOf, henter, on_self, each, bytesOf, held]] at hposted
  simp only [withUsage, h.usage_getD hempty]
  refine ⟨?_, ?_, ?_, h.calls, hposted, h.exact⟩
  · rw [henter, ← h.pending]
    rfl
  · rw [henter, ← h.bytes]
    rfl
  · rw [henter, h.flight]
    rfl

theorem Balanced.callAccepted (h : Balanced E K s) (hempty : E (on route each) = 0 → E (on route bytesOf) = 0)
    (henter : ∀ w, K' w = K w + w (route, bytes, false)) :
    Balanced E K' (s.withUsage route fun usage => { usage with calls := usage.calls + 1 }) := by
  have hown : usageOf E K' route =
      { usageOf E K route with calls := (usageOf E K route).calls + 1 } := by
    simp [usageOf, henter, on_self, each]
  have hother : ∀ g, route ≠ g → usageOf E K' g = usageOf E K g := fun g hg => by
    simp [usageOf, henter, on_other hg]
  have hposted := h.usage.insert (by rw [hown]; simp [RouteUsage.isIdle]) hother
  rw [hown] at hposted
  simp only [withUsage, h.usage_getD hempty]
  refine ⟨h.pending, h.bytes, h.flight, ?_, hposted, h.exact⟩
  rw [henter, h.calls]
  rfl

end Entries

/-! ## The invariant -/

/-- A delivery that is about to start has no abort handle yet, and there is room for it. -/
def Hand.Unheld (room : Prop) (active : BTreeMap DeliveryId (ActiveDelivery Q A))
    (calls : BTreeMap DeliveryId (ActiveCall Q A)) : Hand → Prop
  | .taken .emit d | .driven .emit d _ _ | .recorded .emit d _ _ =>
    room ∧ ∀ a, active[d]? = some a → a.abort = none
  | .taken .call d | .driven .call d _ _ | .recorded .call d _ _ =>
    ∀ a, calls[d]? = some a → a.abort = none
  | _ => True

/-- The limits hold for the weights of the deliveries and of the calls. -/
structure Within (limits : EgressRuntimeLimits) (E K : (Mark → Nat) → Nat) : Prop where
  pending : E each ≤ limits.globalPendingDeliveries
  routePending : ∀ route, E (on route each) ≤ limits.routePendingDeliveries
  bytes : E bytesOf ≤ limits.globalPendingBytes
  routeBytes : ∀ route, E (on route bytesOf) ≤ limits.routePendingBytes
  flight : E held ≤ limits.globalInFlight
  calls : K each ≤ limits.callInFlight

/-- **The books of the engine**: balanced, within the limits, and ready for what is in hand. -/
structure Accounts (svc : Services σ) (h : Hand) (s : Engine σ Q A) : Prop where
  balanced : Balanced (weigh mark s.active) (weigh mark s.activeCalls) s
  within : Within svc.limits (weigh mark s.active) (weigh mark s.activeCalls)
  unheld : h.Unheld (s.globalInFlight < svc.limits.globalInFlight) s.active s.activeCalls

theorem Within.mono {limits : EgressRuntimeLimits} {E' K' : (Mark → Nat) → Nat}
    (h : Within limits E K) (hground : ∀ w, Grounded w → E' w ≤ E w)
    (hflight : E' held ≤ limits.globalInFlight) (hcalls : K' each ≤ K each) : Within limits E' K' :=
  ⟨(hground each grounded_each).trans h.pending,
    fun route => (hground _ (grounded_each.on route)).trans (h.routePending route),
    (hground bytesOf grounded_bytesOf).trans h.bytes,
    fun route => (hground _ (grounded_bytesOf.on route)).trans (h.routeBytes route),
    hflight, hcalls.trans h.calls⟩

variable {s : Engine σ Q A}

theorem Balanced.repack {s' : Engine σ Q A} (h : Balanced E K s)
    (hpending : s'.globalPending = s.globalPending) (hbytes : s'.globalBytes = s.globalBytes)
    (hflight : s'.globalInFlight = s.globalInFlight) (hcall : s'.callInFlight = s.callInFlight)
    (husage : s'.usage = s.usage) (hexact : s'.saturated = s.saturated) : Balanced E K s' :=
  ⟨hpending.trans h.pending, hbytes.trans h.bytes, hflight.trans h.flight, hcall.trans h.calls,
    husage ▸ h.usage, hexact.trans h.exact⟩

theorem Balanced.note (h : Balanced E K s) (event : Event σ) : Balanced E K (s.note event) :=
  ⟨h.pending, h.bytes, h.flight, h.calls, h.usage, h.exact⟩

variable {h h' : Hand}

/-- An effect that changes no mark and no counter. -/
theorem Accounts.same {s' : Engine σ Q A} (ha : Accounts svc h s)
    (hactive : ∀ w, weigh mark s'.active w = weigh mark s.active w)
    (hcalls : ∀ w, weigh mark s'.activeCalls w = weigh mark s.activeCalls w)
    (hpending : s'.globalPending = s.globalPending) (hbytes : s'.globalBytes = s.globalBytes)
    (hflight : s'.globalInFlight = s.globalInFlight) (hcall : s'.callInFlight = s.callInFlight)
    (husage : s'.usage = s.usage) (hexact : s'.saturated = s.saturated)
    (hunheld : h'.Unheld (s.globalInFlight < svc.limits.globalInFlight) s'.active s'.activeCalls) :
    Accounts svc h' s' := by
  have hE : weigh mark s'.active = weigh mark s.active := funext hactive
  have hK : weigh mark s'.activeCalls = weigh mark s.activeCalls := funext hcalls
  refine ⟨?_, by rw [hE, hK]; exact ha.within, by rw [hflight]; exact hunheld⟩
  rw [hE, hK]
  exact ha.balanced.repack hpending hbytes hflight hcall husage hexact

variable {ρ : Type} {lane : BTreeMap DeliveryId (Active Q A ρ)} {d : DeliveryId}

theorem unheld_insert {a a' : Active Q A ρ} (hactive : lane[d]? = some a)
    (hsame : a'.abort = a.abort) (hfree : ∀ x, lane[d]? = some x → x.abort = none) :
    ∀ x, (lane.insert d a')[d]? = some x → x.abort = none := by
  intro x hx
  rw [BTreeMap.find_insert_self] at hx
  cases hx
  rw [hsame]
  exact hfree a hactive

theorem turns_insert {a : Active Q A ρ} (hactive : lane[d]? = some a) (abort : Option Nat) :
    Turns a.parts.route a.parts.payload.length a.abort.isSome abort.isSome (weigh mark lane)
      (weigh mark (lane.insert d { a with abort := abort })) :=
  fun w => weigh_replace hactive w

theorem le_marked {ρ : Type} {lane : BTreeMap DeliveryId (Active Q A ρ)} {a : Active Q A ρ}
    (hactive : lane[d]? = some a) (w : Mark → Nat) :
    w (a.parts.route, a.parts.payload.length, a.abort.isSome) ≤ weigh mark lane w :=
  show w (mark a) ≤ _ from le_weigh hactive w

variable {a : ActiveDelivery Q A}

theorem Accounts.landed {task : Nat} (tasks : BTreeMap Nat (Task Q A)) (ha : Accounts svc h s)
    (hactive : s.active[d]? = some a) (habort : a.abort = some task)
    (hfree : ∀ room active calls, h'.Unheld (Q := Q) (A := A) room active calls) :
    Accounts svc h' ({ s with
      active := s.active.insert d (unhandled a), attempts := tasks }.landed a.parts.route) := by
  have hturns := turns_insert hactive none
  have hthere := le_marked hactive
  rw [habort] at hthere
  rw [habort] at hturns
  refine ⟨?_, ?_, hfree _ _ _⟩
  · rw [landed_active, landed_activeCalls]
    exact Balanced.landed (ha.balanced.repack rfl rfl rfl rfl rfl rfl) hthere hturns
  · rw [landed_active, landed_activeCalls]
    refine ha.within.mono (fun w hw => (hturns.grounded hw).le) ?_ (Nat.le_refl _)
    have hmoved := hturns held
    have hroom := ha.within.flight
    show weigh mark (s.active.insert d (unhandled a)) held ≤ _
    exact Nat.le_trans (Nat.le.intro hmoved) hroom

theorem Accounts.callLanded {a : ActiveCall Q A} {task : Nat} (tasks : BTreeMap Nat (Task Q A))
    (ha : Accounts svc h s) (hactive : s.activeCalls[d]? = some a) (habort : a.abort = some task)
    (hfree : ∀ room active calls, h'.Unheld (Q := Q) (A := A) room active calls) :
    Accounts svc h' { s with
      activeCalls := s.activeCalls.insert d (unhandled a), calls := tasks }.callLanded := by
  have hturns := turns_insert hactive none
  have hthere := le_marked hactive
  rw [habort] at hthere
  rw [habort] at hturns
  refine ⟨?_, ?_, hfree _ _ _⟩
  · exact Balanced.callLanded (ha.balanced.repack rfl rfl rfl rfl rfl rfl) hthere hturns
  · exact ha.within.mono (fun w _ => Nat.le_refl _) ha.within.flight
      (hturns.grounded grounded_each).le

theorem Accounts.finished (ha : Accounts svc h s) (hactive : s.active[d]? = some a)
    (outcome : DeliveryOutcome) (result : Option DeliveryResultMetadata) :
    Accounts svc .idle (s.finishDelivery d outcome result) := by
  have hleave : ∀ w, weigh mark (s.active.erase d) w +
      w (a.parts.route, a.parts.payload.length, a.abort.isSome) = weigh mark s.active w :=
    weigh_erase hactive
  have hless : ∀ w, weigh mark (s.active.erase d) w ≤ weigh mark s.active w := fun w =>
    Nat.le.intro (hleave w)
  have hbooks : Balanced (weigh mark (s.active.erase d)) (weigh mark s.activeCalls)
      (s.finishDelivery d outcome result) := by
    simp only [finishDelivery, hactive]
    cases habort : a.abort with
    | none =>
      rw [habort] at hleave
      exact (Balanced.released (s := { s with active := s.active.erase d })
        (ha.balanced.repack rfl rfl rfl rfl rfl rfl) hleave).note _
    | some task =>
      rw [habort] at hleave
      -- it lands first, and leaves then
      have hland : Balanced (fun w => weigh mark (s.active.erase d) w +
          w (a.parts.route, a.parts.payload.length, false)) (weigh mark s.activeCalls)
          ({ s with active := s.active.erase d, attempts := abortTask s.attempts task }.landed
            a.parts.route) :=
        Balanced.landed (ha.balanced.repack rfl rfl rfl rfl rfl rfl)
          (fun w => hleave w ▸ Nat.le_add_left _ _)
          fun w => by rw [← hleave w, Nat.add_right_comm]; rfl
      exact (hland.released fun w => rfl).note _
  obtain ⟨_, _, _, _, _, heq⟩ := finishDelivery_shape hactive outcome result
  rw [heq] at hbooks ⊢
  exact ⟨hbooks, ha.within.mono (fun w _ => hless w) ((hless held).trans ha.within.flight)
    (Nat.le_refl _), trivial⟩

theorem Accounts.callFinished {a : ActiveCall Q A} (ha : Accounts svc h s)
    (hactive : s.activeCalls[d]? = some a) (outcome : DeliveryOutcome)
    (result : Option DeliveryResultMetadata) (response : Except EgressRuntimeError CallResult) :
    Accounts svc .idle (s.finishCall d outcome result response) := by
  have hleave : ∀ w, weigh mark (s.activeCalls.erase d) w +
      w (a.parts.route, a.parts.payload.length, a.abort.isSome) = weigh mark s.activeCalls w :=
    weigh_erase hactive
  have hless : weigh mark (s.activeCalls.erase d) each ≤ weigh mark s.activeCalls each :=
    Nat.le.intro (hleave each)
  have hbooks : Balanced (weigh mark s.active) (weigh mark (s.activeCalls.erase d))
      (s.finishCall d outcome result response) := by
    simp only [finishCall, hactive]
    cases habort : a.abort with
    | none =>
      rw [habort] at hleave
      exact ((Balanced.callReleased (s := { s with activeCalls := s.activeCalls.erase d })
        (ha.balanced.repack rfl rfl rfl rfl rfl rfl) hleave).note _).note _
    | some task =>
      rw [habort] at hleave
      have hland : Balanced (weigh mark s.active) (fun w => weigh mark (s.activeCalls.erase d) w +
          w (a.parts.route, a.parts.payload.length, false))
          { s with
            activeCalls := s.activeCalls.erase d, calls := abortTask s.calls task }.callLanded :=
        Balanced.callLanded (ha.balanced.repack rfl rfl rfl rfl rfl rfl)
          (fun w => hleave w ▸ Nat.le_add_left _ _)
          fun w => by rw [← hleave w, Nat.add_right_comm]; rfl
      exact ((hland.callReleased fun w => rfl).note _).note _
  obtain ⟨_, _, _, heq⟩ := finishCall_shape hactive outcome result response
  rw [heq] at hbooks ⊢
  exact ⟨hbooks, ha.within.mono (fun w _ => Nat.le_refl _) ha.within.flight hless, trivial⟩

theorem Accounts.spawned {k time : Nat} (ha : Accounts svc (.recorded .emit d k time) s)
    (hactive : s.active[d]? = some a) : Accounts svc .idle (s.spawnAttempt d k time) := by
  obtain ⟨hroom, hfree⟩ := ha.unheld
  have hturns := turns_insert hactive (some s.nextTask)
  have hthere := le_marked hactive
  rw [hfree a hactive] at hthere
  rw [hfree a hactive] at hturns
  rw [spawnAttempt_eq hactive]
  refine ⟨(ha.balanced.spawned hthere hturns).repack rfl rfl rfl rfl rfl rfl, ?_, trivial⟩
  refine ha.within.mono (fun w hw => (hturns.grounded hw).le) ?_ (Nat.le_refl _)
  have hmoved := hturns held
  rw [← ha.balanced.flight] at hmoved
  show weigh mark (s.active.insert d { a with abort := some s.nextTask }) held ≤ _
  exact Nat.le_trans hmoved.le hroom

theorem Accounts.callSpawned {k time : Nat} {a : ActiveCall Q A}
    (ha : Accounts svc (.recorded .call d k time) s) (hactive : s.activeCalls[d]? = some a) :
    Accounts svc .idle (s.spawnCall d k time) := by
  have hturns := turns_insert hactive (some s.nextTask)
  rw [ha.unheld a hactive] at hturns
  rw [spawnCall_eq hactive]
  refine ⟨(ha.balanced.callSpawned hturns).repack rfl rfl rfl rfl rfl rfl, ?_, trivial⟩
  exact ha.within.mono (fun w _ => Nat.le_refl _) ha.within.flight
    (hturns.grounded grounded_each).le

/-- **Every effect keeps the books.** -/
theorem accounts_kept : KeptByMicro (Q := Q) (A := A) svc (Accounts svc) := by
  intro h s h' s' _ hm ha
  cases hm with
  | ticked | looked | sent | configured | drained | stopped | rotated | discarded | callDiscarded |
    retryDropped | retryDue =>
    exact ha.same (fun _ => rfl) (fun _ => rfl) rfl rfl rfl rfl rfl rfl ha.unheld
  | ignored | callIgnored | joined | callJoined | confirmed | overrode | unrecorded | stored |
    unstored =>
    exact ha.same (fun _ => rfl) (fun _ => rfl) rfl rfl rfl rfl rfl rfl trivial
  | @recorded _ mode =>
    refine ha.same (fun _ => rfl) (fun _ => rfl) rfl rfl rfl rfl rfl rfl ?_
    cases mode with
    | emit => exact ha.unheld
    | call => exact ha.unheld
  | @skipped _ route routes queue =>
    obtain ⟨_, _, heq⟩ := s.requeued_shape route routes (s.popWaiting queue).2
    rw [heq]
    exact ha.same (fun _ => rfl) (fun _ => rfl) rfl rfl rfl rfl rfl rfl trivial
  | @took _ route routes queue d _ _ hsome _ hglobal =>
    obtain ⟨_, _, heq⟩ := s.requeued_shape route routes (s.popWaiting queue).2
    rw [heq]
    refine ha.same (fun _ => rfl) (fun _ => rfl) rfl rfl rfl rfl rfl rfl ⟨hglobal, fun a hactive => ?_⟩
    obtain ⟨a', ha', hfree⟩ := waiting_active (popWaiting_waits hsome)
    rw [ha'] at hactive
    cases hactive
    exact hfree
  | drove hactive _ =>
    exact ha.same (weigh_same hactive rfl) (fun _ => rfl) rfl rfl rfl rfl rfl rfl
      ⟨ha.unheld.1, unheld_insert hactive rfl ha.unheld.2⟩
  | callDrove hactive _ =>
    exact ha.same (fun _ => rfl) (weigh_same hactive rfl) rfl rfl rfl rfl rfl rfl
      (unheld_insert hactive rfl ha.unheld)
  | stranded hactive _ | parked hactive _ _ | advanced _ _ hactive =>
    exact ha.same (weigh_same hactive rfl) (fun _ => rfl) rfl rfl rfl rfl rfl rfl trivial
  | callAdvanced _ _ hactive =>
    exact ha.same (fun _ => rfl) (weigh_same hactive rfl) rfl rfl rfl rfl rfl rfl trivial
  | spawned hactive => exact ha.spawned hactive
  | callSpawned hactive => exact ha.callSpawned hactive
  | cleared hactive habort => exact ha.landed s.attempts hactive habort fun _ _ _ => trivial
  | aborted hactive habort => exact ha.landed _ hactive habort fun _ _ _ => trivial
  | callCleared hactive habort => exact ha.callLanded s.calls hactive habort fun _ _ _ => trivial
  | callAborted hactive habort => exact ha.callLanded _ hactive habort fun _ _ _ => trivial
  | finished hactive => exact ha.finished hactive _ _
  | callFinished response hactive => exact ha.callFinished hactive _ _ response

/-! ## Admissions -/

theorem no_bytes (h : weigh mark lane (on route each) = 0) : weigh mark lane (on route bytesOf) = 0 := by
  rw [weigh, BTreeMap.sumOf_eq_zero] at h ⊢
  intro d a ha
  have hnot := h d a ha
  simp only [on, each] at hnot ⊢
  split at hnot
  · cases hnot
  · next hr => rw [if_neg hr]

theorem Accounts.emitted {registry : RouteRegistry Q A} {parts : AdmittedDeliveryParts Q A}
    {at_ : Nat} (ha : Accounts svc .idle s) (hroute : parts.route = route) (hfresh : s.active[d]? = none)
    (hroom : s.checkPendingCapacity svc route parts.payload.length = .ok ()) :
    Accounts svc .idle (({ s.ticked with registry := registry }.persist svc
      (.insertIntent (parts.intent at_))).2.acceptEmit parts at_ route d) := by
  have henter : ∀ w, weigh mark (s.active.insert d (activeOf parts at_ ())) w =
      weigh mark s.active w + w (route, parts.payload.length, false) := by
    intro w
    rw [weigh_insert hfresh, ← hroute]
    rfl
  have hbooks := ha.balanced.accepted no_bytes henter
  have husage : s.usage[route]?.getD .zero = usageOf _ _ route := ha.balanced.usage_getD no_bytes
  -- what the capacity check has seen
  simp only [checkPendingCapacity, husage] at hroom
  split at hroom
  · cases hroom
  next hpending =>
  split at hroom
  · cases hroom
  next hbytes =>
  obtain ⟨hglobal, hlocal⟩ := not_or.mp hpending
  obtain ⟨hglobalBytes, hlocalBytes⟩ := not_or.mp hbytes
  rw [ha.balanced.pending] at hglobal
  rw [ha.balanced.bytes] at hglobalBytes
  simp only [usageOf] at hlocal hlocalBytes
  refine ⟨hbooks.repack rfl rfl rfl rfl rfl rfl, ?_, trivial⟩
  show Within svc.limits (weigh mark (s.active.insert d (activeOf parts at_ ()))) _
  refine ⟨?_, fun r => ?_, ?_, fun r => ?_, ?_, ha.within.calls⟩
  · rw [henter]
    simp only [each]
    omega
  · rw [henter]
    by_cases hr : route = r
    · subst hr
      rw [on_self]
      simp only [each] at hlocal ⊢
      omega
    · rw [on_other hr]
      exact ha.within.routePending r
  · rw [henter]
    simp only [bytesOf]
    omega
  · rw [henter]
    by_cases hr : route = r
    · subst hr
      rw [on_self]
      show _ + parts.payload.length ≤ _
      omega
    · rw [on_other hr]
      exact ha.within.routeBytes r
  · rw [henter]
    exact ha.within.flight

theorem Accounts.called {registry : RouteRegistry Q A} {parts : AdmittedDeliveryParts Q A}
    {at_ reply : Nat} (ha : Accounts svc .idle s) (hroute : parts.route = route)
    (hfresh : s.activeCalls[d]? = none) (hroom : s.activeCalls.size < svc.limits.callInFlight) :
    Accounts svc (.taken .call d) (({ s.ticked with registry := registry }.persist svc
      (.insertIntent (parts.intent at_))).2.acceptCall parts at_ route d reply) := by
  have henter : ∀ w, weigh mark (s.activeCalls.insert d (activeOf parts at_ reply)) w =
      weigh mark s.activeCalls w + w (route, parts.payload.length, false) := by
    intro w
    rw [weigh_insert hfresh, ← hroute]
    rfl
  have hbooks := ha.balanced.callAccepted no_bytes henter
  have hsize : weigh mark s.activeCalls each = s.activeCalls.size :=
    (BTreeMap.size_eq_sumOf s.activeCalls).symm
  refine ⟨hbooks.repack rfl rfl rfl rfl rfl rfl, ?_, fun a hactive => ?_⟩
  · refine ⟨ha.within.pending, ha.within.routePending, ha.within.bytes, ha.within.routeBytes,
      ha.within.flight, ?_⟩
    show weigh mark (s.activeCalls.insert d (activeOf parts at_ reply)) each ≤ _
    rw [henter, hsize]
    exact hroom
  · have hself : (s.activeCalls.insert d (activeOf parts at_ reply))[d]? = some a := hactive
    rw [BTreeMap.find_insert_self] at hself
    cases hself
    rfl

/-- **Over a lawful log every beginning keeps the books.** -/
theorem accounts_begins {records : σ → DeliveryId → Option DeliveryRecord}
    (hlaw : LawfulLog svc.log records) : KeptByBegins (Q := Q) (A := A) svc (fun _ _ => True)
      (fun h s => Backed records h s ∧ Accounts svc h s) := by
  intro s label h s₁ hk hc hbegins hboth
  obtain ⟨hb, ha⟩ := hboth
  refine ⟨backed_begins hlaw s label h s₁ hk hc hbegins hb, ?_⟩
  cases hbegins with
  | nothing => exact ha
  | lost | callLost | refused =>
    exact ha.same (fun _ => rfl) (fun _ => rfl) rfl rfl rfl rfl rfl rfl trivial
  | @emitted _ d _ _ parts _ _ hadmitted hroom hok =>
    obtain ⟨hroute, hown, -⟩ := RouteRegistry.admitDelivery_ok hadmitted
    have hfresh := hb.fresh hlaw hok .emit
    rw [show (parts.intent (s.time svc).unixMs).delivery = d from hown] at hfresh
    exact ha.emitted hroute (Option.not_isSome_iff_eq_none.mp (Bool.eq_false_iff.mp hfresh)) hroom
  | @called _ d _ _ parts _ _ hadmitted hroom hok =>
    obtain ⟨hroute, hown, -⟩ := RouteRegistry.admitDelivery_ok hadmitted
    have hfresh := hb.fresh hlaw hok .call
    rw [show (parts.intent (s.time svc).unixMs).delivery = d from hown] at hfresh
    exact ha.called hroute (Option.not_isSome_iff_eq_none.mp (Bool.eq_false_iff.mp hfresh)) hroom

theorem accounts_new (svc : Services σ) (registry : RouteRegistry Q A) (log : σ) :
    Accounts svc .idle (Engine.new registry log) := by
  have hzero : ∀ {ρ : Type} (w : Mark → Nat),
      weigh mark (∅ : BTreeMap DeliveryId (Active Q A ρ)) w = 0 := fun w => weigh_empty w
  refine ⟨⟨(hzero _).symm, (hzero _).symm, (hzero _).symm, (hzero _).symm, ?_, rfl⟩, ?_, trivial⟩
  · refine posted_empty fun route => ?_
    rfl
  · simp only [Engine.new]
    constructor <;> simp [hzero]

/-! ## The statement in the engine's own terms -/

/-- The usage of a route, counted anew. -/
def routeUsage (s : Engine σ Q A) (route : RouteId) : RouteUsage where
  pending := BTreeMap.tally (fun _ a => decide (a.parts.route = route)) s.active
  bytes := BTreeMap.sumOf
    (fun _ a => if a.parts.route = route then a.parts.payload.length else 0) s.active
  inFlight := BTreeMap.tally (fun _ a => decide (a.parts.route = route) && a.abort.isSome) s.active
  calls := BTreeMap.tally (fun _ a => decide (a.parts.route = route)) s.activeCalls

/-- **The counters of the engine are exact and within their limits.** -/
structure Accounted (svc : Services σ) (s : Engine σ Q A) : Prop where
  globalPending : s.globalPending = s.active.size
  globalBytes : s.globalBytes = BTreeMap.sumOf (fun _ a => a.parts.payload.length) s.active
  usage : ∀ route, s.usage[route]?.getD .zero = routeUsage s route
  usageEntry : ∀ route, s.usage[route]?.isSome = true ↔ routeUsage s route ≠ .zero
  globalInFlight : s.globalInFlight = BTreeMap.tally (fun _ a => a.abort.isSome) s.active
  callInFlight : s.callInFlight = BTreeMap.tally (fun _ a => a.abort.isSome) s.activeCalls
  pendingLimit : s.globalPending ≤ svc.limits.globalPendingDeliveries
  routePendingLimit : ∀ route, (routeUsage s route).pending ≤ svc.limits.routePendingDeliveries
  bytesLimit : s.globalBytes ≤ svc.limits.globalPendingBytes
  routeBytesLimit : ∀ route, (routeUsage s route).bytes ≤ svc.limits.routePendingBytes
  inFlightLimit : s.globalInFlight ≤ svc.limits.globalInFlight
  callLimit : s.callInFlight ≤ svc.limits.callInFlight
  neverSaturated : s.saturated = false

theorem routeUsage_eq (s : Engine σ Q A) (route : RouteId) :
    routeUsage s route = usageOf (weigh mark s.active) (weigh mark s.activeCalls) route := by
  have hcount : ∀ {ρ : Type} (a : Active Q A ρ),
      (if decide (a.parts.route = route) = true then 1 else 0) = on route each (mark a) := by
    intro ρ a
    by_cases hr : a.parts.route = route <;> simp [on, each, mark, hr]
  have hheld : ∀ {ρ : Type} (a : Active Q A ρ),
      (if (decide (a.parts.route = route) && a.abort.isSome) = true then 1 else 0) =
        on route held (mark a) := by
    intro ρ a
    by_cases hr : a.parts.route = route <;> simp [on, held, mark, hr]
  simp only [routeUsage, usageOf, weigh, BTreeMap.tally, hcount, hheld]
  rfl

theorem Accounts.accounted (ha : Accounts svc h s) : Accounted svc s := by
  have hgetD : ∀ route, s.usage[route]?.getD .zero = routeUsage s route := fun route => by
    rw [routeUsage_eq]
    exact ha.balanced.usage_getD no_bytes
  have hless : weigh mark s.activeCalls held ≤ weigh mark s.activeCalls each :=
    weigh_mono fun m => by
      simp only [held, each]
      split <;> omega
  refine
    { globalPending := ha.balanced.pending.trans (BTreeMap.size_eq_sumOf s.active).symm
      globalBytes := ha.balanced.bytes
      usage := hgetD
      usageEntry := fun route => ?_
      globalInFlight := ha.balanced.flight
      callInFlight := ha.balanced.calls
      pendingLimit := ha.balanced.pending ▸ ha.within.pending
      routePendingLimit := fun route => by
        rw [routeUsage_eq]
        exact ha.within.routePending route
      bytesLimit := ha.balanced.bytes ▸ ha.within.bytes
      routeBytesLimit := fun route => by
        exact ha.within.routeBytes route
      inFlightLimit := ha.balanced.flight ▸ ha.within.flight
      callLimit := ha.balanced.calls ▸ hless.trans ha.within.calls
      neverSaturated := ha.balanced.exact }
  -- an entry is there exactly when one of its counts is not zero
  rw [routeUsage_eq]
  have hfind := ha.balanced.usage route
  cases hidle : (usageOf (weigh mark s.active) (weigh mark s.activeCalls) route).isIdle with
  | true =>
    rw [hidle] at hfind
    have hzero := hgetD route
    rw [hfind, routeUsage_eq] at hzero
    rw [hfind, ← hzero]
    simp
  | false =>
    rw [hidle] at hfind
    rw [hfind]
    simp only [Bool.false_eq_true, if_false, Option.isSome_some, true_iff]
    intro hzero
    rw [hzero] at hidle
    cases hidle

/-- **Engine accounting.**  Over any lawful log, whichever of its operations fail and whatever happens to
    the engine, all its counters are exact and within their limits: whenever it waits, and after every
    handler. -/
theorem engine_accounting (svc : Services σ) {records : σ → DeliveryId → Option DeliveryRecord}
    (hlaw : LawfulLog svc.log records) (registry : RouteRegistry Q A) (log : σ) (labels : List (Label Q A)) :
    Accounted svc (run (step svc) (start svc registry log) labels) ∧
      ∀ label, Accounted svc ((run (step svc) (start svc registry log) labels).handle svc label) := by
  have hmicro : KeptByMicro (Q := Q) (A := A) svc (fun h s => Backed records h s ∧ Accounts svc h s) :=
    fun h s h' s' hk hm hboth => ⟨backed_kept hlaw h s h' s' hk hm hboth.1,
      accounts_kept h s h' s' hk hm hboth.2⟩
  have hhandle : ∀ (s : Engine σ Q A) label, Keyed s → True →
      (Backed records .idle s ∧ Accounts svc .idle s) →
      Backed records .idle (s.handle svc label) ∧ Accounts svc .idle (s.handle svc label) :=
    fun s label hk hc hinv => hmicro.handle (accounts_begins hlaw) hk hc hinv
  obtain ⟨hk, hinv⟩ := invariant_run hmicro hhandle
    ⟨backed_new registry log, accounts_new svc registry log⟩
    (All.always (fun _ _ => trivial) : All (step svc) _ (start svc registry log) labels)
  exact ⟨hinv.2.accounted, fun label => (hhandle _ label hk trivial hinv).2.accounted⟩

/-- The books of a delivery that was rejected once and then delivered. -/
theorem engine_accounting_retried : LawfulLog Host.services.log InMemoryDeliveryLog.table ∧
      Accounted Host.services (run (step Host.services)
        (start Host.services Host.registry InMemoryDeliveryLog.empty) Host.retried) :=
  ⟨InMemoryDeliveryLog.lawful _, (engine_accounting Host.services (InMemoryDeliveryLog.lawful _)
    Host.registry InMemoryDeliveryLog.empty Host.retried).1⟩

end Engine

end Bondry.Runtime
