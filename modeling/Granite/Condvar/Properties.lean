import Granite.Condvar.Build

/-!
# What a Condition Variable Guarantees

The token-flow results of `Condvar.Tokens`, for every net the translator can
build around a condition variable: `Condvar::new`, then any number of wait
calls, notify calls and unrelated operations in any order (`buildCondvar`),
then any firing sequence of the whole net from its initial marking.

`lostSignalPossible_add_waitInput_eq_one` is the gadget's place invariant and
what it buys: `wait_input` never holds two tokens, and a notify that arrives
while a thread waits cannot be dropped as a lost signal.
`signal_firings_bounded` is the counting bound of the gadget: signals are
passed no more often than threads started waiting, waits end no more often
than signals were passed, and each notify is either passed or lost once.

The bounds hold for the wait calls together, not one call site at a time.
All sites share `signal_output`, and `create_wait_function_call` leaves
nothing between a site's start and its end, so a signal passed to a thread
waiting at one site can be taken by the end transition of another site whose
thread never started waiting. `waitEnd_fires_without_waitStart` exhibits that
run in a net with two wait sites and one notify; what survives is
`waitEnd_firings_le_waitStart_firings`, the same bound summed over the sites.

## Main definitions

* `signalStealingSteps`: Two wait sites on one condition variable and
  mutex, one of whose threads locks and waits, and a notify.

## Theorems

* `lostSignalPossible_add_waitInput_eq_one`: The place invariant.
* `signal_firings_bounded`: Signals, wait ends and notifies, counted.
* `lostSignal_and_signal_not_both_enabled`: A notify is either passed on or
  lost, as the place invariant decides.
* `waitEnd_firings_le_waitStart_firings`: Waits end no more often than they
  start, over all sites.
* `waitEnd_fires_without_waitStart`: Per site they can.
-/

namespace Granite

open PetriNet

section

variable {index : Nat} {net : PetriNet} {steps : List Step} {cv : Condvar} {b : Build}
  {σ : List TransitionRef} {m : Marking}

/-- In every reachable marking `lost_signal_possible` and `wait_input` hold
    one token together, so `wait_input` holds at most one and
    `lost_signal_transition` is disabled while it holds one. -/
theorem lostSignalPossible_add_waitInput_eq_one (hb : buildCondvar index net steps = (cv, b))
    (hs : ∀ s ∈ steps, s.Avoids cv) (hrun : b.net.run b.net.marking σ = some m) :
    m cv.lostSignalPossible + m cv.waitInput = 1 ∧ m cv.waitInput ≤ 1 ∧
      (0 < m cv.waitInput → b.net.enabled m (Condvar.lostSignalTransition net) = false) := by
  have h := (buildCondvar_wired hb hs).arcs
  have hsum := h.run_lostSignalPossible_add_waitInput hrun
  exact ⟨hsum, by omega, h.lostSignalTransition_not_enabled hrun⟩

/-- Along every firing sequence, `signal_transition` fires no more often than
    the wait starts, the wait ends no more often than `signal_transition`, and
    the two gadget transitions together no more often than the notifies; so
    `signal_output` stays empty until some wait has started. -/
theorem signal_firings_bounded (hb : buildCondvar index net steps = (cv, b))
    (hs : ∀ s ∈ steps, s.Avoids cv) (hrun : b.net.run b.net.marking σ = some m) :
    σ.count (Condvar.signalTransition net) ≤ firings σ (b.waits.map Prod.fst) ∧
      firings σ (b.waits.map Prod.snd) ≤ σ.count (Condvar.signalTransition net) ∧
      σ.count (Condvar.signalTransition net) + σ.count (Condvar.lostSignalTransition net) ≤
        firings σ b.notifies ∧
      (firings σ (b.waits.map Prod.fst) = 0 → m cv.signalOutput = 0) := by
  have h := (buildCondvar_wired hb hs).arcs
  have hw := h.run_waitInput hrun
  have ho := h.run_signalOutput hrun
  have hi := h.run_signalInput hrun
  refine ⟨by omega, by omega, by omega, fun h0 => by omega⟩

/-- Along every firing sequence, the wait ends of all sites together fire no
    more often than their wait starts together. -/
theorem waitEnd_firings_le_waitStart_firings (hb : buildCondvar index net steps = (cv, b))
    (hs : ∀ s ∈ steps, s.Avoids cv) (hrun : b.net.run b.net.marking σ = some m) :
    firings σ (b.waits.map Prod.snd) ≤ firings σ (b.waits.map Prod.fst) := by
  have h := (buildCondvar_wired hb hs).arcs
  have hw := h.run_waitInput hrun
  have ho := h.run_signalOutput hrun
  omega

/-- In every reachable marking at most one of the two gadget transitions is
    enabled: `signal_transition` needs the token of `wait_input`, which
    `lost_signal_transition` would need in `lost_signal_possible`, so a
    notify is passed on while a thread waits and can be lost only while none
    does. -/
theorem lostSignal_and_signal_not_both_enabled (hb : buildCondvar index net steps = (cv, b))
    (hs : ∀ s ∈ steps, s.Avoids cv) (hrun : b.net.run b.net.marking σ = some m) :
    (b.net.enabled m (Condvar.lostSignalTransition net) &&
      b.net.enabled m (Condvar.signalTransition net)) = false := by
  have h := (buildCondvar_wired hb hs).arcs
  cases hst : b.net.enabled m (Condvar.signalTransition net)
  · simp
  · have hc : 1 ≤ b.net.consumes cv.waitInput (Condvar.signalTransition net) := by
      simp [consumes, h.postset_waitInput]
    have hw := consumes_le_of_enabled hst cv.waitInput
    simp [h.lostSignalTransition_not_enabled hrun (by omega)]

end

/-- Two threads wait on condition variable `0` under one mutex, at sites
    `(5, 6)` and `(7, 8)`; a third notifies from place `9`. The first thread
    starts at place `4` and locks the mutex (places `11` and `12`) on its way
    to its wait. -/
def signalStealingSteps : List Step :=
  [.addPlace "THREAD_1", .addToken ⟨4⟩ 1, .addPlace "WAIT_1_START", .addPlace "WAIT_1_END",
    .addPlace "WAIT_2_START", .addPlace "WAIT_2_END", .addPlace "NOTIFY_START",
    .addToken ⟨9⟩ 1, .addPlace "NOTIFY_END", .addPlace "MUTEX_UNLOCKED", .addToken ⟨11⟩ 1,
    .addPlace "MUTEX_LOCKED", .addTransition "LOCK", .addArcPlaceTransition ⟨4⟩ ⟨2⟩,
    .addArcTransitionPlace ⟨2⟩ ⟨5⟩, .addArcPlaceTransition ⟨11⟩ ⟨2⟩,
    .addArcTransitionPlace ⟨2⟩ ⟨12⟩,
    .wait (⟨5⟩, ⟨6⟩, none) ("WAIT_1", "WAIT_1_END", "WAIT_1_UNWIND") ⟨⟨11⟩, ⟨12⟩⟩,
    .wait (⟨7⟩, ⟨8⟩, none) ("WAIT_2", "WAIT_2_END", "WAIT_2_UNWIND") ⟨⟨11⟩, ⟨12⟩⟩,
    .notifyOne (⟨9⟩, ⟨10⟩, none) ("NOTIFY", "NOTIFY_UNWIND")]

/-- The invariant while the first thread of `signalStealingSteps` waits: the
    token of `lost_signal_possible` is in `wait_input`. -/
theorem lostSignalPossible_add_waitInput_while_waiting :
    let cv := (buildCondvar 0 PetriNet.new signalStealingSteps).1
    let b := (buildCondvar 0 PetriNet.new signalStealingSteps).2
    let m := b.net.fire (b.net.fire b.net.marking ⟨2⟩) ⟨3⟩
    m cv.waitInput = 1 ∧ m cv.lostSignalPossible + m cv.waitInput = 1 ∧ m cv.waitInput ≤ 1 ∧
      (0 < m cv.waitInput → b.net.enabled m (Condvar.lostSignalTransition PetriNet.new) = false) :=
  ⟨by decide,
    @lostSignalPossible_add_waitInput_eq_one 0 _ _ _ _ [⟨2⟩, ⟨3⟩] _ Prod.mk.eta.symm (by decide) rfl⟩

/-- Once the first thread waits and the notify has fired, only
    `signal_transition` is enabled. -/
theorem lostSignal_and_signal_not_both_enabled_after_notify :
    let b := (buildCondvar 0 PetriNet.new signalStealingSteps).2
    let m := b.net.fire (b.net.fire (b.net.fire b.net.marking ⟨2⟩) ⟨3⟩) ⟨7⟩
    (b.net.enabled m (Condvar.lostSignalTransition PetriNet.new) &&
      b.net.enabled m (Condvar.signalTransition PetriNet.new)) = false :=
  @lostSignal_and_signal_not_both_enabled 0 _ _ _ _ [⟨2⟩, ⟨3⟩, ⟨7⟩] _ Prod.mk.eta.symm (by decide)
    rfl

/-- The counts once the signal has been passed to the waiting thread. -/
theorem signal_firings_bounded_after_signal :
    let cv := (buildCondvar 0 PetriNet.new signalStealingSteps).1
    let b := (buildCondvar 0 PetriNet.new signalStealingSteps).2
    let σ : List TransitionRef := [⟨2⟩, ⟨3⟩, ⟨7⟩, ⟨1⟩]
    let m := b.net.fire (b.net.fire (b.net.fire (b.net.fire b.net.marking ⟨2⟩) ⟨3⟩) ⟨7⟩) ⟨1⟩
    σ.count (Condvar.signalTransition PetriNet.new) ≤ firings σ (b.waits.map Prod.fst) ∧
      firings σ (b.waits.map Prod.snd) ≤ σ.count (Condvar.signalTransition PetriNet.new) ∧
      σ.count (Condvar.signalTransition PetriNet.new) +
          σ.count (Condvar.lostSignalTransition PetriNet.new) ≤ firings σ b.notifies ∧
      (firings σ (b.waits.map Prod.fst) = 0 → m cv.signalOutput = 0) :=
  @signal_firings_bounded 0 _ _ _ _ _ _ Prod.mk.eta.symm (by decide) rfl

/-- The summed bound on the run of `waitEnd_fires_without_waitStart`. -/
theorem waitEnd_firings_le_waitStart_firings_when_stolen :
    let b := (buildCondvar 0 PetriNet.new signalStealingSteps).2
    let σ : List TransitionRef := [⟨2⟩, ⟨3⟩, ⟨7⟩, ⟨1⟩, ⟨6⟩]
    firings σ (b.waits.map Prod.snd) ≤ firings σ (b.waits.map Prod.fst) :=
  @waitEnd_firings_le_waitStart_firings 0 _ _ _ _ _
    (((buildCondvar 0 PetriNet.new signalStealingSteps).2.net.run
      (buildCondvar 0 PetriNet.new signalStealingSteps).2.net.marking
      [⟨2⟩, ⟨3⟩, ⟨7⟩, ⟨1⟩, ⟨6⟩]).getD fun _ => 0) Prod.mk.eta.symm (by decide) rfl

/-- The first thread locks and starts waiting, the notify fires,
    `signal_transition` passes the signal, and the second site's end takes it:
    its wait ends once although it never started. -/
theorem waitEnd_fires_without_waitStart :
    (∀ s ∈ signalStealingSteps, s.Avoids (buildCondvar 0 PetriNet.new signalStealingSteps).1) ∧
      ∃ σ, ∃ w ∈ (buildCondvar 0 PetriNet.new signalStealingSteps).2.waits,
        ((buildCondvar 0 PetriNet.new signalStealingSteps).2.net.run
          (buildCondvar 0 PetriNet.new signalStealingSteps).2.net.marking σ).isSome ∧
        σ.count w.1 < σ.count w.2 :=
  ⟨by decide, [⟨2⟩, ⟨3⟩, ⟨7⟩, ⟨1⟩, ⟨6⟩], (⟨5⟩, ⟨6⟩), by decide, by decide, by decide⟩

end Granite
