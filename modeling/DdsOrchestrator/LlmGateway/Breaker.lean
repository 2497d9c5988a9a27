import Mathlib.Logic.Function.Basic
import Mathlib.Tactic.SplitIfs
import DdsOrchestrator.Lib.Machine

/-!
The circuit breaker in front of a failover target. Its four atomics are read and written by
callers that run side by side, so a call is here a sequence of atomic operations and a run
is any interleaving of them. Beside it stand the calls as a caller that is alone sees them.
-/

namespace DdsOrchestrator.LlmGateway

inductive BreakerState where
  | closed
  | opened
  | halfOpen
  deriving DecidableEq

structure CircuitBreaker where
  state : BreakerState
  consecutiveFailures : UInt32
  /-- A call that was let through in half-open is in flight. -/
  probeInFlight : Bool
  failureThreshold : UInt32
  resetAfterMs : Nat
  openedAtMs : Nat
  deriving DecidableEq

namespace CircuitBreaker

def new (failureThreshold : UInt32) (resetAfterMs : Nat) : CircuitBreaker :=
  { state := .closed, consecutiveFailures := 0, probeInFlight := false
    failureThreshold := max failureThreshold 1, resetAfterMs, openedAtMs := 0 }

/-! ### Calls of a caller that is alone -/

def tryAcquireProbe (b : CircuitBreaker) : Bool × CircuitBreaker :=
  if b.probeInFlight then (false, b) else (true, { b with probeInFlight := true })

def isAvailable (nowMs : Nat) (b : CircuitBreaker) : Bool × CircuitBreaker :=
  match b.state with
  | .closed => (true, b)
  | .halfOpen => b.tryAcquireProbe
  | .opened =>
    if nowMs - b.openedAtMs < b.resetAfterMs then (false, b)
    else ({ b with state := .halfOpen } : CircuitBreaker).tryAcquireProbe

def recordSuccess (b : CircuitBreaker) : CircuitBreaker :=
  { b with consecutiveFailures := 0, probeInFlight := false, state := .closed }

def recordFailure (nowMs : Nat) (b : CircuitBreaker) : CircuitBreaker :=
  let failures := b.consecutiveFailures + 1
  if b.state = .halfOpen ∨ b.failureThreshold ≤ failures then
    { b with consecutiveFailures := failures, state := .opened, openedAtMs := nowMs
             probeInFlight := false }
  else { b with consecutiveFailures := failures, probeInFlight := false }

end CircuitBreaker

/-! ### Callers side by side -/

/-- What a caller got from `is_available`: whether it holds the probe, and how often the
breaker had opened by then. -/
structure Grant where
  probe : Bool
  epoch : Nat
  deriving DecidableEq

/-- The operation a caller comes to next. -/
inductive Caller where
  | idle
  | loadOpenedAt
  | leaveOpen
  | acquireProbe
  /-- Let through, the outcome of the call is still to come. -/
  | authorised (g : Grant)
  | successProbe (g : Grant)
  | successState (g : Grant)
  | failureState (g : Grant) (failures : UInt32)
  | failureOpen (g : Grant)
  | failureOpenedAt (g : Grant)
  | failureProbe (g : Grant)
  deriving DecidableEq

namespace Caller

/-- The grant of a caller whose outcome is not recorded to its end. -/
def grant : Caller → Option Grant
  | authorised g | successProbe g | successState g | failureState g _ | failureOpen g
  | failureOpenedAt g | failureProbe g => some g
  | idle | loadOpenedAt | leaveOpen | acquireProbe => none

/-- A probe that is in flight. -/
def HoldsProbe (c : Caller) : Prop := ∃ g, c.grant = some g ∧ g.probe = true

end Caller

structure Shared where
  breaker : CircuitBreaker
  callers : Nat → Caller
  /-- How often the breaker has opened. -/
  epoch : Nat

/-- One atomic operation. The clock is read with the operation it goes with, and the outcome
counts where a call starts to record it. -/
structure Turn where
  caller : Nat
  nowMs : Nat
  succeeded : Bool
  deriving DecidableEq

namespace Shared

def start (b : CircuitBreaker) : Shared := { breaker := b, callers := fun _ => .idle, epoch := 0 }

def goto (i : Nat) (c : Caller) (s : Shared) : Shared :=
  { s with callers := Function.update s.callers i c }

def write (f : CircuitBreaker → CircuitBreaker) (s : Shared) : Shared :=
  { s with breaker := f s.breaker }

/-- The store of `Open`, counted where it changes the state. -/
def storeOpen (s : Shared) : Shared :=
  { s with breaker := { s.breaker with state := .opened }
           epoch := if s.breaker.state = .opened then s.epoch else s.epoch + 1 }

def step (s : Shared) (t : Turn) : Shared :=
  match s.callers t.caller with
  | .idle =>
    match s.breaker.state with
    | .closed => s.goto t.caller (.authorised ⟨false, s.epoch⟩)
    | .halfOpen => s.goto t.caller .acquireProbe
    | .opened => s.goto t.caller .loadOpenedAt
  | .loadOpenedAt =>
    if t.nowMs - s.breaker.openedAtMs < s.breaker.resetAfterMs then s.goto t.caller .idle
    else s.goto t.caller .leaveOpen
  | .leaveOpen =>
    -- Another caller may have left Open in between, which is as good.
    (s.write fun b => if b.state = .opened then { b with state := .halfOpen } else b).goto
      t.caller .acquireProbe
  | .acquireProbe =>
    if s.breaker.probeInFlight then s.goto t.caller .idle
    else (s.write fun b => { b with probeInFlight := true }).goto
      t.caller (.authorised ⟨true, s.epoch⟩)
  | .authorised g =>
    if t.succeeded then
      (s.write fun b => { b with consecutiveFailures := 0 }).goto t.caller (.successProbe g)
    else
      (s.write fun b => { b with consecutiveFailures := b.consecutiveFailures + 1 }).goto
        t.caller (.failureState g (s.breaker.consecutiveFailures + 1))
  | .successProbe g =>
    (s.write fun b => { b with probeInFlight := false }).goto t.caller (.successState g)
  | .successState _ =>
    (s.write fun b => { b with state := .closed }).goto t.caller .idle
  | .failureState g failures =>
    -- The state is loaded only now, so it may be half-open on account of another caller's probe.
    if s.breaker.state = .halfOpen ∨ s.breaker.failureThreshold ≤ failures then
      s.goto t.caller (.failureOpen g)
    else s.goto t.caller (.failureProbe g)
  | .failureOpen g => s.storeOpen.goto t.caller (.failureOpenedAt g)
  | .failureOpenedAt g =>
    (s.write fun b => { b with openedAtMs := t.nowMs }).goto t.caller (.failureProbe g)
  | .failureProbe _ =>
    (s.write fun b => { b with probeInFlight := false }).goto t.caller .idle

variable {s : Shared} {i j : Nat} {c : Caller}

@[simp] theorem callers_goto_self : (s.goto i c).callers i = c := by simp [goto]

@[simp] theorem callers_goto_of_ne (h : j ≠ i) : (s.goto i c).callers j = s.callers j := by
  simp [goto, h]

@[simp] theorem breaker_goto : (s.goto i c).breaker = s.breaker := rfl

@[simp] theorem epoch_goto : (s.goto i c).epoch = s.epoch := rfl

@[simp] theorem callers_write {f : CircuitBreaker → CircuitBreaker} :
    (s.write f).callers = s.callers := rfl

@[simp] theorem breaker_write {f : CircuitBreaker → CircuitBreaker} :
    (s.write f).breaker = f s.breaker := rfl

@[simp] theorem callers_storeOpen : s.storeOpen.callers = s.callers := rfl

@[simp] theorem probe_storeOpen :
    s.storeOpen.breaker.probeInFlight = s.breaker.probeInFlight := rfl

/-! ### One probe at a time -/

/-- At most one call that was let through by the probe is in flight. -/
def OneProbe (s : Shared) : Prop :=
  ∀ i j, (s.callers i).HoldsProbe → (s.callers j).HoldsProbe → i = j

/-- The breaker closes on the outcome of a call that was let through before it opened. -/
def ClosesLate (s : Shared) (t : Turn) : Prop :=
  ∃ g, s.callers t.caller = .successState g ∧ g.epoch < s.epoch ∧ s.breaker.state ≠ .closed

/-- The stores of a caller that does not hold the probe do it no harm. -/
structure OnTime (s : Shared) (t : Turn) : Prop where
  /-- Whoever clears the probe clears no other caller's. -/
  clears : ∀ g, s.callers t.caller = .successProbe g ∨ s.callers t.caller = .failureProbe g →
    ∀ j, (s.callers j).HoldsProbe → j = t.caller
  /-- A success that is recorded while the breaker is not closed is that of a call let
  through since it opened. -/
  succeeds : ∀ g, (s.callers t.caller = .authorised g ∧ t.succeeded = true) ∨
    s.callers t.caller = .successProbe g ∨ s.callers t.caller = .successState g →
    s.breaker.state = .closed ∨ g.epoch = s.epoch
  /-- Nobody takes the probe between the two last stores of a probe that succeeded. -/
  takes : s.callers t.caller = .acquireProbe → s.breaker.probeInFlight = false →
    ∀ j g, s.callers j = .successState g → g.probe = false

/-- The probe is marked for as long as its caller has not cleared it. -/
structure Guarded (s : Shared) : Prop where
  one : s.OneProbe
  marked : ∀ i, (s.callers i).HoldsProbe → (∀ g, s.callers i ≠ .successState g) →
    s.breaker.probeInFlight = true

variable {t : Turn}

theorem callers_step_of_ne (h : j ≠ t.caller) : (s.step t).callers j = s.callers j := by
  unfold step
  cases s.callers t.caller with
  | idle => cases s.breaker.state <;> simp [h]
  | loadOpenedAt => simp only []; split_ifs <;> simp [h]
  | acquireProbe => simp only []; split_ifs <;> simp [h]
  | authorised g => simp only []; split_ifs <;> simp [h]
  | failureState g failures => simp only []; split_ifs <;> simp [h]
  | _ => simp [h]

/-- Only who wins the probe becomes a holder. -/
theorem holdsProbe_step (h : ((s.step t).callers t.caller).HoldsProbe) :
    (s.callers t.caller).HoldsProbe ∨
      (s.callers t.caller = .acquireProbe ∧ s.breaker.probeInFlight = false) := by
  unfold step at h
  cases hat : s.callers t.caller with
  | idle => cases hstate : s.breaker.state <;> simp_all [Caller.HoldsProbe, Caller.grant]
  | acquireProbe =>
      cases hprobe : s.breaker.probeInFlight <;> simp_all [Caller.HoldsProbe, Caller.grant]
  | loadOpenedAt =>
      simp only [hat] at h
      split_ifs at h <;> simp_all [Caller.HoldsProbe, Caller.grant]
  | authorised g =>
      simp only [hat] at h
      split_ifs at h <;> simp_all [Caller.HoldsProbe, Caller.grant]
  | failureState g failures =>
      simp only [hat] at h
      split_ifs at h <;> simp_all [Caller.HoldsProbe, Caller.grant]
  | _ => simp_all [Caller.HoldsProbe, Caller.grant]

/-- The flag goes down only where it is cleared. -/
theorem probe_step (hset : s.breaker.probeInFlight = true)
    (hclears : ∀ g, s.callers t.caller ≠ .successProbe g ∧ s.callers t.caller ≠ .failureProbe g) :
    (s.step t).breaker.probeInFlight = true := by
  unfold step
  cases hat : s.callers t.caller with
  | idle => cases s.breaker.state <;> simp [hset]
  | loadOpenedAt => simp only []; split_ifs <;> simp [hset]
  | leaveOpen => simp only [breaker_goto, breaker_write]; split_ifs <;> simp [hset]
  | acquireProbe => simp [hset]
  | authorised g => simp only []; split_ifs <;> simp [hset]
  | failureState g failures => simp only []; split_ifs <;> simp [hset]
  | successProbe g => exact absurd hat (hclears g).1
  | failureProbe g => exact absurd hat (hclears g).2
  | _ => simp [hset]

theorem Guarded.oneProbe_step (h : s.Guarded) (htime : s.OnTime t) : (s.step t).OneProbe := by
  -- A new holder finds the flag down, so the only holder there can be has cleared it itself.
  have hnew : ∀ j, s.callers t.caller = .acquireProbe → s.breaker.probeInFlight = false →
      j ≠ t.caller → ¬ (s.callers j).HoldsProbe := by
    rintro j hat hdown - hj
    obtain ⟨g, hg, hprobe⟩ := hj
    by_cases hlast : ∃ g', s.callers j = .successState g'
    · obtain ⟨g', hlast⟩ := hlast
      have hno := htime.takes hat hdown j g' hlast
      rw [hlast] at hg
      obtain rfl : g' = g := by simpa [Caller.grant] using hg
      rw [hno] at hprobe
      exact absurd hprobe (by simp)
    · have hup := h.marked j ⟨g, hg, hprobe⟩ fun g' hj => hlast ⟨g', hj⟩
      rw [hdown] at hup
      exact absurd hup (by simp)
  intro i j hi hj
  -- Of two holders after the step at most one has moved.
  by_cases hic : i = t.caller <;> by_cases hjc : j = t.caller
  · rw [hic, hjc]
  · rw [callers_step_of_ne hjc] at hj
    subst hic
    rcases holdsProbe_step hi with hheld | ⟨hat, hdown⟩
    · exact h.one _ _ hheld hj
    · exact absurd hj (hnew j hat hdown hjc)
  · rw [callers_step_of_ne hic] at hi
    subst hjc
    rcases holdsProbe_step hj with hheld | ⟨hat, hdown⟩
    · exact h.one _ _ hi hheld
    · exact absurd hi (hnew i hat hdown hic)
  · rw [callers_step_of_ne hic] at hi
    rw [callers_step_of_ne hjc] at hj
    exact h.one i j hi hj

theorem Guarded.marked_step (h : s.Guarded) (htime : s.OnTime t) (i : Nat)
    (hi : ((s.step t).callers i).HoldsProbe)
    (hlast : ∀ g, (s.step t).callers i ≠ .successState g) :
    (s.step t).breaker.probeInFlight = true := by
  by_cases hic : i = t.caller
  · subst hic
    rcases holdsProbe_step hi with hheld | ⟨hat, hdown⟩
    · have hclears : ∀ g, s.callers t.caller ≠ .successProbe g ∧
          s.callers t.caller ≠ .failureProbe g := by
        refine fun g => ⟨fun hat => ?_, fun hat => ?_⟩
        · exact hlast g (by simp [step, hat])
        · exact absurd hi (by simp [step, hat, Caller.HoldsProbe, Caller.grant])
      have hbefore : ∀ g, s.callers t.caller ≠ .successState g := by
        intro g hat
        exact absurd hi (by simp [step, hat, Caller.HoldsProbe, Caller.grant])
      exact probe_step (h.marked _ hheld hbefore) hclears
    · simp [step, hat, hdown]
  · rw [callers_step_of_ne hic] at hi
    simp only [callers_step_of_ne hic] at hlast
    refine probe_step (h.marked i hi hlast) fun g => ⟨fun hat => ?_, fun hat => ?_⟩
    · exact hic (htime.clears g (.inl hat) i hi)
    · exact hic (htime.clears g (.inr hat) i hi)

theorem Guarded.step (h : s.Guarded) (htime : s.OnTime t) : (s.step t).Guarded where
  one := h.oneProbe_step htime
  marked := h.marked_step htime

theorem guarded_start (b : CircuitBreaker) : (start b).Guarded where
  one := fun i j hi => absurd hi (by simp [start, Caller.HoldsProbe, Caller.grant])
  marked := fun i hi => absurd hi (by simp [start, Caller.HoldsProbe, Caller.grant])

theorem OnTime.not_closesLate (h : s.OnTime t) : ¬ s.ClosesLate t := by
  rintro ⟨g, hat, hold, hopen⟩
  rcases h.succeeds g (.inr (.inr hat)) with hclosed | hepoch
  · exact hopen hclosed
  · omega

/-- Only the caller `i` is in a call, and the breaker has not opened since it was let
through. -/
structure Alone (i : Nat) (s : Shared) : Prop where
  others : ∀ j, j ≠ i → s.callers j = .idle
  fresh : ∀ g, s.callers i = .authorised g ∨ s.callers i = .successProbe g ∨
    s.callers i = .successState g → g.epoch = s.epoch

theorem Alone.onTime (h : s.Alone t.caller) : s.OnTime t where
  clears := by
    intro g _ j hj
    by_contra hother
    exact absurd hj (by simp [h.others j hother, Caller.HoldsProbe, Caller.grant])
  succeeds := by
    rintro g (⟨hat, -⟩ | hat | hat)
    · exact .inr (h.fresh g (.inl hat))
    · exact .inr (h.fresh g (.inr (.inl hat)))
    · exact .inr (h.fresh g (.inr (.inr hat)))
  takes := by
    intro hat _ j g hj
    by_cases hself : j = t.caller
    · rw [hself, hat] at hj
      exact absurd hj (by simp)
    · rw [h.others j hself] at hj
      exact absurd hj (by simp)

theorem Alone.step (h : s.Alone t.caller) : (s.step t).Alone t.caller where
  others := fun j hj => (callers_step_of_ne hj).trans (h.others j hj)
  fresh := by
    have hfresh := h.fresh
    unfold Shared.step
    cases hat : s.callers t.caller with
    | idle => cases s.breaker.state <;> simp
    | loadOpenedAt => simp only []; split_ifs <;> simp
    | acquireProbe => simp only []; split_ifs <;> simp [write]
    | authorised g => simp only []; split_ifs <;> simp_all [write]
    | failureState g failures => simp only []; split_ifs <;> simp
    | _ => simp_all [write]

/-- A caller whose calls nobody comes between is always on time. -/
theorem alone_onTime (b : CircuitBreaker) {turns : List Turn}
    (hall : ∀ t ∈ turns, t.caller = i) : Machine.Along step OnTime (start b) turns := by
  have hstart : (start b).Alone i := ⟨fun j _ => rfl, fun g => by simp [start]⟩
  have hsame : Machine.Along step (fun _ t => t.caller = i) (start b) turns := by
    rw [Machine.along_iff_forall]
    rintro before t after rfl
    exact hall t (by simp)
  refine hsame.of_invariant hstart ?_ ?_
  · rintro s t h rfl
    exact h.step
  · rintro s t h rfl
    exact h.onTime

/-- One call from its first operation to its last, `n` operations long. -/
def callOf (caller nowMs n : Nat) (succeeded : Bool) : List Turn :=
  List.replicate n ⟨caller, nowMs, succeeded⟩

theorem single_probe (failureThreshold : UInt32) (resetAfterMs : Nat) (turns : List Turn)
    (hrun : Machine.Along step OnTime (start (.new failureThreshold resetAfterMs)) turns) :
    (∀ before after, turns = before ++ after →
      (before.foldl step (start (.new failureThreshold resetAfterMs))).OneProbe) ∧
    Machine.Along step (fun s t => ¬ s.ClosesLate t)
      (start (.new failureThreshold resetAfterMs)) turns := by
  constructor
  · rintro before after rfl
    rw [Machine.along_append] at hrun
    have hguarded := hrun.1.invariant (guarded_start _) fun s t h ht => h.step ht
    exact hguarded.one
  · exact hrun.mono fun s t ht => ht.not_closesLate

/-- One caller opens the breaker, gets the probe after the pause and closes it. -/
theorem single_probe_reclosed :
    let turns := callOf 0 0 1 true ++ callOf 0 5 5 false ++ callOf 0 20 7 true
    (∀ before after, turns = before ++ after →
      (before.foldl step (start (.new 1 10))).OneProbe) ∧
    Machine.Along step (fun s t => ¬ s.ClosesLate t) (start (.new 1 10)) turns ∧
    ((callOf 0 0 1 true ++ callOf 0 5 5 false).foldl step (start (.new 1 10))).breaker.state =
      .opened ∧
    (turns.foldl step (start (.new 1 10))).breaker.state = .closed := by
  intro turns
  have hsafe := single_probe 1 10 turns (alone_onTime (i := 0) _ (by decide +kernel))
  exact ⟨hsafe.1, hsafe.2, by decide +kernel, by decide +kernel⟩

/-- Two calls are let through while the breaker is closed. The first fails and opens it, and
after the pause a third caller gets the probe. Now the second call ends. If it fails, it
opens the breaker again and a fourth caller gets a probe beside the third. If it succeeds,
it closes the breaker. -/
theorem late_outcomes_break :
    let first := callOf 0 0 1 true ++ callOf 1 0 1 true ++ callOf 0 5 5 false ++
      callOf 2 20 4 true
    let failed := (first ++ callOf 1 21 5 false ++ callOf 3 40 4 true).foldl step
      (start (.new 1 10))
    let succeeds := (first ++ callOf 1 21 2 true).foldl step (start (.new 1 10))
    ¬ failed.OneProbe ∧ succeeds.ClosesLate ⟨1, 21, true⟩ ∧
      (succeeds.step ⟨1, 21, true⟩).breaker.state = .closed ∧
      ((succeeds.step ⟨1, 21, true⟩).callers 2).HoldsProbe := by
  intro first failed succeeds
  refine ⟨fun hone => ?_, ⟨⟨false, 0⟩, by decide +kernel, by decide +kernel, by decide +kernel⟩,
    by decide +kernel, ⟨⟨true, 1⟩, by decide +kernel, rfl⟩⟩
  have hthird : (failed.callers 2).HoldsProbe := ⟨⟨true, 1⟩, by decide +kernel, rfl⟩
  have hfourth : (failed.callers 3).HoldsProbe := ⟨⟨true, 2⟩, by decide +kernel, rfl⟩
  exact absurd (hone 2 3 hthird hfourth) (by decide)

end Shared

end DdsOrchestrator.LlmGateway
