import Mathlib.Data.List.Sort
import Mossward.Core.Run
import Mossward.Core.Table
import Mossward.L1Encoding.Names

/-!
# Failover between approved routes (`internal/relaytransport/failover.go`)

`Select` stays on the active route while it is healthy and has not failed too
often, and otherwise goes to the approved route of the lowest priority number
that is healthy. `SelectApprovedRoute` goes to a named route, and
`RecordDelivery` counts failures. Every call holds the controller's lock, so a
history is a list of calls.

A time is its nanoseconds since Go's zero time. A route is `Available` if the
list holds one observation of it, healthy, with a time that is set and in the
window; a second observation takes the route out, whatever it says.

Results: `mem_availableRouteIDs`, `failover_stays_approved`, `select_complete_iff`.
-/
namespace Mossward.L4.RelayFailover

open L1.Names (trimSpace)
open Table List
open Run

/-! ## Policy -/

def nanosecondsPerSecond : Int := 1000000000
def minimumObservationAge : Int := 10 * nanosecondsPerSecond
def maximumObservationAge : Int := 3600 * nanosecondsPerSecond
/-- How far ahead the clock of an observer may be. -/
def clockSkew : Int := 300 * nanosecondsPerSecond
def maximumFailureThreshold : Int := 10
def maximumFailoverRoutes : Nat := 16
def maximumRouteIDLength : Nat := 200

inductive RouteKind
  | relay
  | direct
  | other (text : String)
deriving DecidableEq

structure ApprovedRoute where
  id : String
  kind : RouteKind
  relayEndpointID : String
  priority : Int
deriving DecidableEq

structure FailoverPolicy where
  endpointID : String
  routes : List ApprovedRoute
  failureThreshold : Int
  observationMaxAge : Int
deriving DecidableEq

inductive FailoverError
  | policyInvalid
  | notUnique          -- "relay failover routes require unique IDs and priorities"
  | relayEndpoint      -- "relay route requires a different approved relay endpoint"
  | directFallback     -- "direct fallback must be explicit and unique"
  | routeKind
  | noApprovedRoute
  | notActive          -- "delivery result does not match the active approved route"
deriving DecidableEq

/-- What the loop over the routes remembers. -/
structure RoutesSeen where
  ids : List String
  priorities : List Int
  directRoutes : Nat

/-- The part of the loop that depends on the kind. -/
def validateKind (policy : FailoverPolicy) (seen : RoutesSeen) (route : ApprovedRoute) :
    Except FailoverError RoutesSeen :=
  match route.kind with
  | .relay =>
    if route.relayEndpointID = "" ∨ route.relayEndpointID = policy.endpointID then .error .relayEndpoint else .ok seen
  | .direct =>
    if route.relayEndpointID ≠ "" ∨ 1 < seen.directRoutes + 1 then .error .directFallback
    else .ok { seen with directRoutes := seen.directRoutes + 1 }
  | .other _ => .error .routeKind

/-- One turn of the loop. Mirrors `failover.go:150-168`. -/
def validateRoute (policy : FailoverPolicy) (seen : RoutesSeen) (route : ApprovedRoute) :
    Except FailoverError RoutesSeen :=
  if trimSpace route.id.toList = [] ∨ maximumRouteIDLength < route.id.utf8ByteSize ∨
      maximumRouteIDLength < route.relayEndpointID.utf8ByteSize ∨ route.priority < 1 ∨ route.id ∈ seen.ids ∨
      route.priority ∈ seen.priorities then
    .error .notUnique
  else
    validateKind policy
      { seen with ids := route.id :: seen.ids, priorities := route.priority :: seen.priorities } route

/-- Mirrors `failover.go:142-171`. -/
def validateFailoverPolicy (policy : FailoverPolicy) : Except FailoverError Unit :=
  if trimSpace policy.endpointID.toList = [] ∨ maximumRouteIDLength < policy.endpointID.utf8ByteSize ∨
      policy.routes.length = 0 ∨ maximumFailoverRoutes < policy.routes.length ∨ policy.failureThreshold < 1 ∨
      maximumFailureThreshold < policy.failureThreshold ∨ policy.observationMaxAge < minimumObservationAge ∨
      maximumObservationAge < policy.observationMaxAge then
    .error .policyInvalid
  else (policy.routes.foldlM (validateRoute policy) ⟨[], [], 0⟩).map fun _ => ()

/-! ## Controller -/

structure RouteAvailability where
  routeID : String
  healthy : Bool
  observedAt : Int

inductive Reason
  | activeRouteHealthy
  | approvedInitialRoute
  | approvedFailover
  | serverSelectedApprovedRoute
deriving DecidableEq

structure RouteDecision where
  route : ApprovedRoute
  previousRouteID : String
  reason : Option Reason
  consecutiveFailures : Int
  selectedAt : Int
deriving DecidableEq

/-- `RouteDecision{}`. -/
def RouteDecision.zero : RouteDecision := ⟨⟨"", .other "", "", 0⟩, "", none, 0, 0⟩

structure FailoverController where
  policy : FailoverPolicy
  activeRouteID : String
  consecutiveFailures : Int
deriving DecidableEq

/-- The routes by priority. The priorities of an accepted policy differ, so
there is one such order. -/
def sortRoutes (routes : List ApprovedRoute) : List ApprovedRoute :=
  routes.insertionSort fun a b => a.priority ≤ b.priority

/-- Mirrors `failover.go:61-70`. -/
def newFailoverController (policy : FailoverPolicy) : Except FailoverError FailoverController := do
  validateFailoverPolicy policy
  return ⟨{ policy with routes := sortRoutes policy.routes }, "", 0⟩

/-- The two maps of `availableRouteIDs`, as the keys they hold. -/
structure Health where
  available : List String
  seen : List String

/-- Healthy, with a time that is set and in the window. -/
def usable (maximumAge now : Int) (o : RouteAvailability) : Bool :=
  o.healthy && o.observedAt ≠ 0 && o.observedAt ≤ now + clockSkew && now - maximumAge ≤ o.observedAt

/-- One turn of the loop. Mirrors `failover.go:176-188`. -/
def observe (maximumAge now : Int) (h : Health) (o : RouteAvailability) : Health :=
  if o.routeID = "" then h
  else if o.routeID ∈ h.seen then { h with available := h.available.filter (· ≠ o.routeID) }
  else
    ⟨if usable maximumAge now o then o.routeID :: h.available else h.available, o.routeID :: h.seen⟩

/-- Mirrors `failover.go:173-190`. -/
def availableRouteIDs (observations : List RouteAvailability) (maximumAge now : Int) : List String :=
  (observations.foldl (observe maximumAge now) ⟨[], []⟩).available

/-- Mirrors `failover.go:132-140`. -/
def FailoverController.decision (c : FailoverController) (routeID previous : String) (reason : Reason) (now : Int) :
    Option RouteDecision :=
  (c.policy.routes.find? fun route => route.id = routeID).map fun route =>
    ⟨route, previous, some reason, c.consecutiveFailures, now⟩

/-- The loop of `Select` over the routes. Mirrors `failover.go:80-96`. -/
def FailoverController.failover (c : FailoverController) (health : List String) (now : Int) :
    FailoverController × Except FailoverError RouteDecision :=
  match c.policy.routes.find? fun route => route.id ≠ c.activeRouteID && health.contains route.id with
  | none => (c, .error .noApprovedRoute)
  | some route =>
    let c' := { c with activeRouteID := route.id, consecutiveFailures := 0 }
    let reason := if c.activeRouteID = "" then Reason.approvedInitialRoute else .approvedFailover
    let decision := (c'.decision route.id c.activeRouteID reason now).getD .zero
    (c', .ok { decision with consecutiveFailures := c.consecutiveFailures })

/-- Mirrors `failover.go:72-97`. -/
def FailoverController.select (c : FailoverController) (availability : List RouteAvailability) (now : Int) :
    FailoverController × Except FailoverError RouteDecision :=
  let health := availableRouteIDs availability c.policy.observationMaxAge now
  if c.activeRouteID ≠ "" ∧ c.consecutiveFailures < c.policy.failureThreshold ∧ c.activeRouteID ∈ health then
    (c, .ok ((c.decision c.activeRouteID c.activeRouteID .activeRouteHealthy now).getD .zero))
  else c.failover health now

/-- Mirrors `failover.go:99-113`. -/
def FailoverController.recordDelivery (c : FailoverController) (routeID : String) (succeeded : Bool) :
    FailoverController × Except FailoverError Unit :=
  if routeID = "" ∨ routeID ≠ c.activeRouteID then (c, .error .notActive)
  else if succeeded then ({ c with consecutiveFailures := 0 }, .ok ())
  else if c.consecutiveFailures < c.policy.failureThreshold then
    ({ c with consecutiveFailures := c.consecutiveFailures + 1 }, .ok ())
  else (c, .ok ())

/-- Mirrors `failover.go:115-130`. -/
def FailoverController.selectApprovedRoute (c : FailoverController) (routeID : String)
    (availability : List RouteAvailability) (now : Int) : FailoverController × Except FailoverError RouteDecision :=
  if routeID ∈ availableRouteIDs availability c.policy.observationMaxAge now then
    match c.decision routeID c.activeRouteID .serverSelectedApprovedRoute now with
    | none => (c, .error .noApprovedRoute)
    | some decision => ({ c with activeRouteID := routeID, consecutiveFailures := 0 }, .ok decision)
  else (c, .error .noApprovedRoute)

/-! ## Histories -/

inductive Call
  | select (availability : List RouteAvailability) (now : Int)
  | recordDelivery (routeID : String) (succeeded : Bool)
  | selectApprovedRoute (routeID : String) (availability : List RouteAvailability) (now : Int)

/-- The state afterwards, and the decision if the call returns one. -/
def call (c : FailoverController) : Call → FailoverController × Except FailoverError (Option RouteDecision)
  | .select availability now => ((c.select availability now).1, (c.select availability now).2.map some)
  | .recordDelivery routeID succeeded =>
    ((c.recordDelivery routeID succeeded).1, (c.recordDelivery routeID succeeded).2.map fun _ => none)
  | .selectApprovedRoute routeID availability now =>
    ((c.selectApprovedRoute routeID availability now).1, (c.selectApprovedRoute routeID availability now).2.map some)

def step (c : FailoverController) (op : Call) : FailoverController := (call c op).1

/-! ## Availability -/

/-- The one observation of the route is healthy, with a time that is set and
in the window. -/
def Available (observations : List RouteAvailability) (maximumAge now : Int) (routeID : String) : Prop :=
  ∃ o, observations.filter (fun o => o.routeID = routeID) = [o] ∧ o.healthy = true ∧ o.observedAt ≠ 0 ∧
    now - maximumAge ≤ o.observedAt ∧ o.observedAt ≤ now + clockSkew

section
variable {maximumAge now : Int} {observations : List RouteAvailability} {h : Health} {id : String}

theorem usable_iff {o : RouteAvailability} : usable maximumAge now o = true ↔
      o.healthy = true ∧ o.observedAt ≠ 0 ∧ now - maximumAge ≤ o.observedAt ∧ o.observedAt ≤ now + clockSkew := by
  simp only [usable, Bool.and_eq_true, decide_eq_true_eq]
  tauto

theorem available_iff : Available observations maximumAge now id ↔
      ∃ o, observations.filter (fun o => o.routeID = id) = [o] ∧ usable maximumAge now o = true := by
  simp only [Available, usable_iff]

/-- What the maps hold of a route after these observations. -/
structure Health.Tracks (maximumAge now : Int) (observations : List RouteAvailability) (h : Health) (id : String) :
    Prop where
  seen : id ∈ h.seen ↔ observations.filter (fun o => o.routeID = id) ≠ []
  available : id ∈ h.available ↔ Available observations maximumAge now id

theorem Available.ne_nil (ha : Available observations maximumAge now id) :
    observations.filter (fun o => o.routeID = id) ≠ [] := by
  obtain ⟨o, ho, -⟩ := ha
  rw [ho]
  simp

theorem Health.Tracks.observe (hi : id ≠ "") (ht : h.Tracks maximumAge now observations id) (o : RouteAvailability) :
    (RelayFailover.observe maximumAge now h o).Tracks maximumAge now (observations ++ [o]) id := by
  by_cases ho : o.routeID = id
  · have hf : (observations ++ [o]).filter (fun o => o.routeID = id) =
        observations.filter (fun o => o.routeID = id) ++ [o] := by simp [ho]
    subst ho
    unfold RelayFailover.observe
    rw [if_neg hi]
    split
    · -- a second observation takes the route out
      rename_i hs
      have hb := ht.seen.mp hs
      refine ⟨by rw [hf]; simp [hs], ?_⟩
      rw [available_iff, hf]
      constructor
      · intro hm
        simp at hm
      · intro ⟨o', he, _⟩
        have hl := congrArg length he
        have hp := length_pos_of_ne_nil hb
        rw [length_append, length_singleton, length_singleton] at hl
        omega
    rename_i hs
    have hb : observations.filter (fun x => x.routeID = o.routeID) = [] := by
      by_contra hne
      exact hs (ht.seen.mpr hne)
    have hn : o.routeID ∉ h.available := fun hm => (ht.available.mp hm).ne_nil hb
    refine ⟨by rw [hf]; simp, ?_⟩
    rw [available_iff, hf, hb]
    split
    · rename_i hu
      simp [hu]
    · rename_i hu
      simp [hn, hu]
  · have hf : (observations ++ [o]).filter (fun o => o.routeID = id) =
        observations.filter (fun o => o.routeID = id) := by simp [ho]
    have hs : id ∈ (RelayFailover.observe maximumAge now h o).seen ↔ id ∈ h.seen := by
      unfold RelayFailover.observe
      split
      · rfl
      · split
        · rfl
        · simp [Ne.symm ho]
    have ha : id ∈ (RelayFailover.observe maximumAge now h o).available ↔ id ∈ h.available := by
      unfold RelayFailover.observe
      split
      · rfl
      split
      · simp [Ne.symm ho]
      · split
        · simp [Ne.symm ho]
        · rfl
    refine ⟨by rw [hs, hf]; exact ht.seen, ?_⟩
    rw [ha, ht.available, Available, Available, hf]

/-- **Availability.** -/
theorem mem_availableRouteIDs (hi : id ≠ "") :
    id ∈ availableRouteIDs observations maximumAge now ↔ Available observations maximumAge now id := by
  have ht : (observations.foldl (observe maximumAge now) ⟨[], []⟩).Tracks maximumAge now observations id := by
    induction observations using reverseRecOn with
    | nil => exact ⟨by simp, by simp [Available]⟩
    | append_singleton observations o ih =>
      rw [foldl_append]
      exact ih.observe hi o
  exact ht.available

end

/-! ## Accepted policies -/

structure Accepted (policy : FailoverPolicy) : Prop where
  threshold : 1 ≤ policy.failureThreshold
  named : ∀ r ∈ policy.routes, r.id ≠ ""
  ids : Keyed ApprovedRoute.id policy.routes
  priorities : Keyed ApprovedRoute.priority policy.routes

variable {seen seen' : RoutesSeen}

theorem validateKind_ok {pol : FailoverPolicy} {route : ApprovedRoute}
    (h : validateKind pol seen route = .ok seen') : seen'.ids = seen.ids ∧ seen'.priorities = seen.priorities := by
  unfold validateKind at h
  split at h
  · split at h
    · cases h
    · cases h
      exact ⟨rfl, rfl⟩
  · split at h
    · cases h
    · cases h
      exact ⟨rfl, rfl⟩
  · cases h

theorem validateRoute_ok {pol : FailoverPolicy} {route : ApprovedRoute}
    (h : validateRoute pol seen route = .ok seen') :
    route.id ≠ "" ∧ route.id ∉ seen.ids ∧ route.priority ∉ seen.priorities ∧ seen'.ids = route.id :: seen.ids ∧
      seen'.priorities = route.priority :: seen.priorities := by
  unfold validateRoute at h
  split at h
  · cases h
  rename_i ho
  simp only [not_or] at ho
  obtain ⟨hb, -, -, -, hid, hpr⟩ := ho
  obtain ⟨hi, hp⟩ := validateKind_ok h
  refine ⟨?_, hid, hpr, hi, hp⟩
  intro he
  rw [he] at hb
  exact hb (by decide)

theorem validateRoutes_ok {pol : FailoverPolicy} {rts : List ApprovedRoute}
    (h : rts.foldlM (validateRoute pol) seen = .ok seen') (hi : seen.ids.Nodup)
    (hp : seen.priorities.Nodup) :
    (∀ r ∈ rts, r.id ≠ "") ∧ ((rts.map (·.id)).reverse ++ seen.ids).Nodup ∧
      ((rts.map (·.priority)).reverse ++ seen.priorities).Nodup := by
  induction rts generalizing seen with
  | nil => exact ⟨by simp, hi, hp⟩
  | cons route rts ih =>
    obtain ⟨seen1, hr, hre⟩ := bind_eq_ok.mp h
    obtain ⟨hn, hid, hpr, hi1, hp1⟩ := validateRoute_ok hr
    obtain ⟨ha, hi', hp'⟩ := ih hre (by rw [hi1]; exact nodup_cons.mpr ⟨hid, hi⟩)
      (by rw [hp1]; exact nodup_cons.mpr ⟨hpr, hp⟩)
    rw [hi1] at hi'
    rw [hp1] at hp'
    refine ⟨forall_mem_cons.mpr ⟨hn, ha⟩, by simpa using hi', by simpa using hp'⟩

/-- The start: the accepted policy with its routes sorted. -/
theorem newFailoverController_ok {pol : FailoverPolicy} {c : FailoverController}
    (h : newFailoverController pol = .ok c) :
    Accepted pol ∧ c = ⟨{ pol with routes := sortRoutes pol.routes }, "", 0⟩ := by
  obtain ⟨_, hv, hs⟩ := bind_eq_ok.mp h
  cases hs
  refine ⟨?_, rfl⟩
  unfold validateFailoverPolicy at hv
  split at hv
  · cases hv
  rename_i ho
  simp only [not_or, not_lt] at ho
  obtain ⟨-, -, -, -, ht, -⟩ := ho
  cases hr : pol.routes.foldlM (validateRoute pol) ⟨[], [], 0⟩ with
  | error e =>
    rw [hr] at hv
    cases hv
  | ok seen =>
    obtain ⟨hn, hi, hp⟩ := validateRoutes_ok hr nodup_nil nodup_nil
    rw [append_nil, nodup_reverse] at hi hp
    exact ⟨ht, hn, hi, hp⟩

theorem mem_sortRoutes {rts : List ApprovedRoute} {r : ApprovedRoute} : r ∈ sortRoutes rts ↔ r ∈ rts :=
  mem_insertionSort _

theorem Accepted.sorted {pol : FailoverPolicy} (h : Accepted pol) :
    (sortRoutes pol.routes).Pairwise fun a b => a.priority < b.priority := by
  have hl : (sortRoutes pol.routes).Pairwise fun a b => a.priority ≤ b.priority := pairwise_insertionSort _ _
  have hn : (sortRoutes pol.routes).Pairwise fun a b => a.priority ≠ b.priority := by
    have hp := (perm_insertionSort (fun a b : ApprovedRoute => a.priority ≤ b.priority) pol.routes).map
      ApprovedRoute.priority
    exact pairwise_map.mp (hp.nodup_iff.mpr h.priorities)
  exact (hl.and hn).imp fun ⟨ha, hn⟩ => lt_of_le_of_ne ha hn

theorem Accepted.sorted_ids {pol : FailoverPolicy} (h : Accepted pol) :
    Keyed ApprovedRoute.id (sortRoutes pol.routes) :=
  ((perm_insertionSort _ pol.routes).map _).nodup_iff.mpr h.ids

theorem find?_least {α : Type} {R : α → α → Prop} {l : List α} (hs : l.Pairwise R) {p : α → Bool} {a : α}
    (hf : l.find? p = some a) {b : α} (hb : b ∈ l) (hp : p b = true) : a = b ∨ R a b := by
  induction l with
  | nil => cases hb
  | cons x l ih =>
    obtain ⟨hfi, hr⟩ := pairwise_cons.mp hs
    by_cases hx : p x = true
    · rw [find?_cons_of_pos hx] at hf
      cases hf
      rcases mem_cons.mp hb with rfl | hb
      · exact .inl rfl
      · exact .inr (hfi b hb)
    · rw [find?_cons_of_neg hx] at hf
      rcases mem_cons.mp hb with rfl | hb
      · exact absurd hp hx
      · exact ih hr hf hb

/-! ## One call -/

section
variable {policy : FailoverPolicy} {c : FailoverController} {availability : List RouteAvailability} {now : Int}

/-- The state of a controller for an accepted policy. -/
structure ControllerInv (policy : FailoverPolicy) (c : FailoverController) : Prop where
  sorted : c.policy = { policy with routes := sortRoutes policy.routes }
  active : c.activeRouteID = "" ∨ ∃ r ∈ policy.routes, r.id = c.activeRouteID
  failures : c.consecutiveFailures ≤ policy.failureThreshold

/-- The active route is below the threshold and available. -/
def Stays (policy : FailoverPolicy) (c : FailoverController) (availability : List RouteAvailability)
    (now : Int) : Prop :=
  c.activeRouteID ≠ "" ∧ c.consecutiveFailures < policy.failureThreshold ∧
    Available availability policy.observationMaxAge now c.activeRouteID

/-- An available route other than the active one, and before all others of
these. -/
structure Best (policy : FailoverPolicy) (c : FailoverController) (availability : List RouteAvailability) (now : Int)
    (route : ApprovedRoute) : Prop where
  approved : route ∈ policy.routes
  other : route.id ≠ c.activeRouteID
  available : Available availability policy.observationMaxAge now route.id
  least : ∀ r ∈ policy.routes, r ≠ route → r.id ≠ c.activeRouteID →
    Available availability policy.observationMaxAge now r.id → route.priority < r.priority

variable {route : ApprovedRoute}

theorem ControllerInv.decision (ha : Accepted policy) (hc : ControllerInv policy c)
    (hr : route ∈ policy.routes) (prev : String) (why : Reason) :
    c.decision route.id prev why now = some ⟨route, prev, some why, c.consecutiveFailures, now⟩ := by
  have hf := ha.sorted_ids.find?_eq (mem_sortRoutes.mpr hr)
  rw [FailoverController.decision, hc.sorted, hf]
  rfl

theorem ControllerInv.moved (ha : Accepted policy) (hc : ControllerInv policy c)
    (hr : route ∈ policy.routes) :
    ControllerInv policy { c with activeRouteID := route.id, consecutiveFailures := 0 } := by
  have ht := ha.threshold
  refine ⟨hc.sorted, .inr ⟨route, hr, rfl⟩, ?_⟩
  dsimp only
  omega

theorem stays_iff (hc : ControllerInv policy c) :
    (c.activeRouteID ≠ "" ∧ c.consecutiveFailures < c.policy.failureThreshold ∧
      c.activeRouteID ∈ availableRouteIDs availability c.policy.observationMaxAge now) ↔
      Stays policy c availability now := by
  rw [hc.sorted]
  constructor
  · intro ⟨hn, hb, hm⟩
    exact ⟨hn, hb, (mem_availableRouteIDs hn).mp hm⟩
  · intro ⟨hn, hb, ha⟩
    exact ⟨hn, hb, (mem_availableRouteIDs hn).mpr ha⟩

section
variable (ha : Accepted policy)
include ha

section
variable (hc : ControllerInv policy c)
include hc

theorem select_stays (hs : Stays policy c availability now) :
    ∃ route ∈ policy.routes, route.id = c.activeRouteID ∧ c.select availability now =
      (c, .ok ⟨route, c.activeRouteID, some .activeRouteHealthy, c.consecutiveFailures, now⟩) := by
  obtain ⟨route, hr, hi⟩ := hc.active.resolve_left hs.1
  refine ⟨route, hr, hi, ?_⟩
  unfold FailoverController.select
  rw [if_pos ((stays_iff hc).mpr hs), ← hi, hc.decision ha hr]
  rfl

theorem candidate_iff (hr : route ∈ policy.routes) : (route.id ≠ c.activeRouteID &&
        (availableRouteIDs availability c.policy.observationMaxAge now).contains route.id) = true ↔
      route.id ≠ c.activeRouteID ∧ Available availability policy.observationMaxAge now route.id := by
  rw [hc.sorted, Bool.and_eq_true, decide_eq_true_eq, contains_iff_mem,
    mem_availableRouteIDs (ha.named route hr)]

theorem select_moves (hmo : ¬ Stays policy c availability now) :
    (∃ route why, Best policy c availability now route ∧ c.select availability now =
        ({ c with activeRouteID := route.id, consecutiveFailures := 0 },
          .ok ⟨route, c.activeRouteID, some why, c.consecutiveFailures, now⟩)) ∨
      ((∀ route ∈ policy.routes, route.id ≠ c.activeRouteID →
          ¬ Available availability policy.observationMaxAge now route.id) ∧
        c.select availability now = (c, .error .noApprovedRoute)) := by
  unfold FailoverController.select FailoverController.failover
  rw [if_neg fun h => hmo ((stays_iff hc).mp h)]
  split
  · rename_i hn
    refine .inr ⟨?_, rfl⟩
    intro route hro ho hav
    have hm : route ∈ c.policy.routes := by
      rw [hc.sorted]
      exact mem_sortRoutes.mpr hro
    exact find?_eq_none.mp hn route hm ((candidate_iff ha hc hro).mpr ⟨ho, hav⟩)
  rename_i route hf
  left
  have hro : route ∈ policy.routes := by
    have hm := mem_of_find?_eq_some hf
    rw [hc.sorted] at hm
    exact mem_sortRoutes.mp hm
  have hfo := find?_some hf
  obtain ⟨ho, hav⟩ := (candidate_iff ha hc hro).mp hfo
  refine ⟨route, if c.activeRouteID = "" then .approvedInitialRoute else .approvedFailover,
    ⟨hro, ho, hav, ?_⟩, ?_⟩
  · intro r hr hne hr' hra
    have hs : c.policy.routes.Pairwise fun a b => a.priority < b.priority := by
      rw [hc.sorted]
      exact ha.sorted
    have hm : r ∈ c.policy.routes := by
      rw [hc.sorted]
      exact mem_sortRoutes.mpr hr
    have hca := (candidate_iff ha hc hr).mpr ⟨hr', hra⟩
    exact (find?_least hs hf hm hca).resolve_left (Ne.symm hne)
  · dsimp only
    rw [(hc.moved ha hro).decision ha hro]
    rfl

theorem selectApprovedRoute_cases (rid : String) (av : List RouteAvailability) (now : Int) :
    (∃ route ∈ policy.routes, route.id = rid ∧ Available av policy.observationMaxAge now rid ∧
        c.selectApprovedRoute rid av now = ({ c with activeRouteID := rid, consecutiveFailures := 0 },
          .ok ⟨route, c.activeRouteID, some .serverSelectedApprovedRoute, c.consecutiveFailures, now⟩)) ∨
      c.selectApprovedRoute rid av now = (c, .error .noApprovedRoute) := by
  unfold FailoverController.selectApprovedRoute
  split
  · rename_i hh
    unfold FailoverController.decision
    cases hf : c.policy.routes.find? fun route => route.id = rid with
    | none => exact .inr rfl
    | some route =>
      left
      have hm := mem_of_find?_eq_some hf
      have hi : route.id = rid := by simpa using find?_some hf
      rw [hc.sorted] at hm hh
      have hr := mem_sortRoutes.mp hm
      have hn : rid ≠ "" := hi ▸ ha.named route hr
      exact ⟨route, hr, hi, (mem_availableRouteIDs hn).mp hh, rfl⟩
  · exact .inr rfl

/-- The count goes up to the threshold, or back to zero; other results are
errors. -/
theorem recordDelivery_cases (rid : String) (ok1 : Bool) :
    (∃ fails ≤ policy.failureThreshold, c.recordDelivery rid ok1 =
        ({ c with consecutiveFailures := fails }, .ok ())) ∨
      c.recordDelivery rid ok1 = (c, .error .notActive) := by
  have ht := ha.threshold
  have hb := hc.failures
  have hs : c.policy.failureThreshold = policy.failureThreshold := by rw [hc.sorted]
  unfold FailoverController.recordDelivery
  split
  · exact .inr rfl
  left
  split
  · exact ⟨0, by omega, rfl⟩
  · split
    · exact ⟨c.consecutiveFailures + 1, by omega, rfl⟩
    · exact ⟨c.consecutiveFailures, by omega, rfl⟩

end

end

end

/-! ## Histories of calls -/

/-- The observations a call is given, and its time. -/
def Call.observed : Call → Option (List RouteAvailability × Int)
  | .select availability now => some (availability, now)
  | .selectApprovedRoute _ availability now => some (availability, now)
  | .recordDelivery _ _ => none

/-- The decision names an approved route that is available in the observations
of the call. -/
def Sanctioned (policy : FailoverPolicy) (op : Call) (d : RouteDecision) : Prop :=
  d.route ∈ policy.routes ∧ ∃ availability now, op.observed = some (availability, now) ∧
    Available availability policy.observationMaxAge now d.route.id

/-- What every call keeps to. -/
structure Proper (policy : FailoverPolicy) (c : FailoverController) (op : Call) : Prop where
  inv : ControllerInv policy (step c op)
  decision : ∀ d, (call c op).2 = .ok (some d) → Sanctioned policy op d
  error : ∀ e, (call c op).2 = .error e → step c op = c

section
variable {policy : FailoverPolicy} {c : FailoverController}

theorem Proper.failed (hc : ControllerInv policy c) {op : Call} {e : FailoverError} (h : call c op = (c, .error e)) :
    Proper policy c op where
  inv := by
    rw [step, h]
    exact hc
  decision d hd := by
    rw [h] at hd
    cases hd
  error _ _ := by rw [step, h]

theorem Proper.decided {op : Call} {c' : FailoverController} {d : RouteDecision} (h : call c op = (c', .ok (some d)))
    (hc' : ControllerInv policy c') (hd : Sanctioned policy op d) : Proper policy c op where
  inv := by
    rw [step, h]
    exact hc'
  decision d' hd' := by
    rw [h] at hd'
    cases hd'
    exact hd
  error e he := by
    rw [h] at he
    cases he

theorem ControllerInv.proper (ha : Accepted policy) (hc : ControllerInv policy c) (op : Call) :
    Proper policy c op := by
  cases op with
  | select av now =>
    by_cases hst : Stays policy c av now
    · obtain ⟨route, hro, hi, hs⟩ := select_stays ha hc hst
      refine Proper.decided (by rw [call, hs]; rfl) hc ⟨hro, av, now, rfl, ?_⟩
      rw [hi]
      exact hst.2.2
    · rcases select_moves ha hc hst with ⟨route, why, hb, hs⟩ | ⟨-, hs⟩
      · exact Proper.decided (by rw [call, hs]; rfl) (hc.moved ha hb.approved)
          ⟨hb.approved, av, now, rfl, hb.available⟩
      · exact Proper.failed hc (by rw [call, hs]; rfl)
  | recordDelivery rid ok =>
    rcases recordDelivery_cases ha hc rid ok with ⟨fails, hbo, hr⟩ | hr
    · refine ⟨?_, ?_, ?_⟩
      · rw [step, call, hr]
        exact ⟨hc.sorted, hc.active, hbo⟩
      · intro d hd
        rw [call, hr] at hd
        cases hd
      · intro e he
        rw [call, hr] at he
        cases he
    · exact Proper.failed hc (by rw [call, hr]; rfl)
  | selectApprovedRoute rid av now =>
    rcases selectApprovedRoute_cases ha hc rid av now with
      ⟨route, hro, hi, hav, hs⟩ | hs
    · subst hi
      exact Proper.decided (by rw [call, hs]; rfl) (hc.moved ha hro) ⟨hro, av, now, rfl, hav⟩
    · exact Proper.failed hc (by rw [call, hs]; rfl)

theorem reachable_inv {c₀ : FailoverController} (hnew : newFailoverController policy = .ok c₀) (ops : List Call) :
    Accepted policy ∧ ControllerInv policy (run step c₀ ops) := by
  obtain ⟨ha, hst⟩ := newFailoverController_ok hnew
  have ht := ha.threshold
  refine ⟨ha, run_invariant (fun _ op h => (h.proper ha op).inv) ?_ ops⟩
  rw [hst]
  exact ⟨rfl, .inl rfl, by dsimp only; omega⟩

end

/-- **Failover stays within the approved healthy routes.** For every policy
that is accepted and after every sequence of calls:
the active route is approved or empty, and the failures are at most the
threshold; every decision of a further call names an approved route that is
available in its observations; `Select` keeps the active route if it is
available and below the threshold, otherwise it goes to the available approved
route of the lowest priority other than the active one and starts to count
anew, or fails if there is none; and a call that fails changes nothing. -/
theorem failover_stays_approved (policy : FailoverPolicy) (c₀ : FailoverController)
    (hnew : newFailoverController policy = .ok c₀) (ops : List Call) (c : FailoverController)
    (hrun : c = run step c₀ ops) :
    ((c.activeRouteID = "" ∨ ∃ r ∈ policy.routes, r.id = c.activeRouteID) ∧
        c.consecutiveFailures ≤ policy.failureThreshold) ∧
      (∀ op d, (call c op).2 = .ok (some d) → Sanctioned policy op d) ∧
      (∀ availability now, Stays policy c availability now → ∃ d, c.select availability now = (c, .ok d) ∧
        d.route ∈ policy.routes ∧ d.route.id = c.activeRouteID) ∧
      (∀ availability now, ¬ Stays policy c availability now →
        (∃ d, Best policy c availability now d.route ∧ c.select availability now =
            ({ c with activeRouteID := d.route.id, consecutiveFailures := 0 }, .ok d)) ∨
          (∀ route ∈ policy.routes, route.id ≠ c.activeRouteID →
              ¬ Available availability policy.observationMaxAge now route.id) ∧
            c.select availability now = (c, .error .noApprovedRoute)) ∧
      ∀ op e, (call c op).2 = .error e → step c op = c := by
  obtain ⟨ha, hi⟩ := reachable_inv hnew ops
  rw [← hrun] at hi
  refine ⟨⟨hi.active, hi.failures⟩, fun op => (hi.proper ha op).decision, ?_, ?_,
    fun op => (hi.proper ha op).error⟩
  · intro availability now hsta
    obtain ⟨route, hr, hid, hs⟩ := select_stays ha hi hsta
    exact ⟨_, hs, hr, hid⟩
  · intro availability now hm
    rcases select_moves ha hi hm with ⟨route, why, hb, hs⟩ | ⟨hn, hs⟩
    · exact .inl ⟨⟨route, c.activeRouteID, some why, c.consecutiveFailures, now⟩, hb, hs⟩
    · exact .inr ⟨hn, hs⟩

/-- A relay first and the direct route second. -/
def twoRoutes : FailoverPolicy where
  endpointID := "endpoint"
  routes := [⟨"direct", .direct, "", 2⟩, ⟨"relay", .relay, "other", 1⟩]
  failureThreshold := 2
  observationMaxAge := minimumObservationAge

/-- The controller of `twoRoutes` at the start. -/
def twoRoutesStart : FailoverController :=
  ⟨{ twoRoutes with routes := [⟨"relay", .relay, "other", 1⟩, ⟨"direct", .direct, "", 2⟩] }, "", 0⟩

theorem failover_stays_approved_two : newFailoverController twoRoutes = .ok twoRoutesStart ∧
      (run step twoRoutesStart [.select [⟨"relay", true, 5⟩] 5,
        .recordDelivery "relay" false]).consecutiveFailures ≤ 2 := by
  have hn : newFailoverController twoRoutes = .ok twoRoutesStart := by decide +kernel
  exact ⟨hn, (failover_stays_approved twoRoutes twoRoutesStart hn _ _ rfl).1.2⟩

/-- The one observation of the active route is healthy and in the window, but
its time is Go's zero time, which counts as not set: the route is not kept. -/
theorem select_ignores_zero_time : newFailoverController twoRoutes = .ok twoRoutesStart ∧
      (run step twoRoutesStart [.select [⟨"relay", true, 5⟩] 5]).activeRouteID = "relay" ∧
      (run step twoRoutesStart [.select [⟨"relay", true, 5⟩] 5]).consecutiveFailures < twoRoutes.failureThreshold ∧
      (5 - twoRoutes.observationMaxAge ≤ 0 ∧ (0 : Int) ≤ 5 + clockSkew) ∧
      ((run step twoRoutesStart [.select [⟨"relay", true, 5⟩] 5]).select [⟨"relay", true, 0⟩] 5).2 =
        .error .noApprovedRoute := by
  decide +kernel

/-- The one observation of the route is healthy and in the window, whether or
not its time is set. -/
def Current (observations : List RouteAvailability) (maximumAge now : Int) (routeID : String) : Prop :=
  ∃ o, observations.filter (fun o => o.routeID = routeID) = [o] ∧ o.healthy = true ∧
    now - maximumAge ≤ o.observedAt ∧ o.observedAt ≤ now + clockSkew

/-- The route is available and, if it is the active one, has not failed as often as
the threshold. -/
def Choosable (policy : FailoverPolicy) (c : FailoverController) (availability : List RouteAvailability) (now : Int)
    (route : ApprovedRoute) : Prop :=
  Available availability policy.observationMaxAge now route.id ∧
    (route.id = c.activeRouteID → c.consecutiveFailures < policy.failureThreshold)

/-- `Select` finds no route exactly if none is choosable. -/
theorem select_fails_iff {policy : FailoverPolicy} {c₀ : FailoverController}
    (hnew : newFailoverController policy = .ok c₀) (ops : List Call) (availability : List RouteAvailability)
    (now : Int) :
    ((run step c₀ ops).select availability now).2 = .error .noApprovedRoute ↔
      ∀ route ∈ policy.routes, ¬ Choosable policy (run step c₀ ops) availability now route := by
  obtain ⟨ha, hi⟩ := reachable_inv hnew ops
  generalize run step c₀ ops = c at hi ⊢
  by_cases hs : Stays policy c availability now
  · obtain ⟨route, hr, hid, he⟩ := select_stays ha hi hs
    rw [he]
    exact iff_of_false (by simp) fun hall => hall route hr ⟨hid ▸ hs.2.2, fun _ => hs.2.1⟩
  · rcases select_moves ha hi hs with ⟨route, why, hb, he⟩ | ⟨hn, he⟩
    · rw [he]
      exact iff_of_false (by simp) fun hall =>
        hall route hb.approved ⟨hb.available, fun h => absurd h hb.other⟩
    · rw [he]
      refine iff_of_true rfl fun route hr hc => ?_
      have hid : route.id = c.activeRouteID := by
        by_contra hne
        exact hn route hr hne hc.1
      refine hs ⟨?_, hc.2 hid, hid ▸ hc.1⟩
      rw [← hid]
      exact ha.named route hr

/-- **`Select` fails only without a current route**, after any calls, exactly when
one of the approved routes is choosable if any is current. -/
theorem select_complete_iff (policy : FailoverPolicy) (c₀ : FailoverController)
    (hnew : newFailoverController policy = .ok c₀) (ops : List Call) (availability : List RouteAvailability)
    (now : Int) :
    (((run step c₀ ops).select availability now).2 = .error .noApprovedRoute →
        ∀ route ∈ policy.routes, ¬ Current availability policy.observationMaxAge now route.id) ↔
      ((∃ route ∈ policy.routes, Current availability policy.observationMaxAge now route.id) →
        ∃ route ∈ policy.routes, Choosable policy (run step c₀ ops) availability now route) := by
  rw [select_fails_iff hnew]
  constructor
  · rintro h ⟨route, hr, hcur⟩
    by_contra hnone
    exact h (fun r hm hc => hnone ⟨r, hm, hc⟩) route hr hcur
  · intro h hall route hr hcur
    obtain ⟨r, hm, hc⟩ := h ⟨route, hr, hcur⟩
    exact hall r hm hc

theorem select_complete_two : newFailoverController twoRoutes = .ok twoRoutesStart ∧
      ¬ Current [⟨"relay", false, 5⟩] twoRoutes.observationMaxAge 5 "relay" := by
  have hn : newFailoverController twoRoutes = .ok twoRoutesStart := by decide +kernel
  refine ⟨hn, (select_complete_iff twoRoutes twoRoutesStart hn [] [⟨"relay", false, 5⟩] 5).mpr ?_
    (by decide +kernel) ⟨"relay", .relay, "other", 1⟩ (by simp [twoRoutes])⟩
  rintro ⟨route, -, o, hone, hhealthy, -⟩
  have ho : o ∈ [(⟨"relay", false, 5⟩ : RouteAvailability)] := (mem_filter.mp (hone ▸ mem_singleton_self o)).1
  rw [mem_singleton.mp ho] at hhealthy
  cases hhealthy

/-- The only available route is the active one, and has failed twice: it is not
tried again. -/
theorem healthy_route_refused : newFailoverController twoRoutes = .ok twoRoutesStart ∧
      Current [⟨"relay", true, 5⟩] twoRoutes.observationMaxAge 5 "relay" ∧
      ((run step twoRoutesStart [.select [⟨"relay", true, 5⟩] 5, .recordDelivery "relay" false,
        .recordDelivery "relay" false]).select [⟨"relay", true, 5⟩] 5).2 = .error .noApprovedRoute :=
  ⟨by decide +kernel, ⟨⟨"relay", true, 5⟩, by simp, by decide +kernel⟩, by decide +kernel⟩

end Mossward.L4.RelayFailover
