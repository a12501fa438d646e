import Granite.Condvar.Arcs

/-!
# Token Flow Through a Condition Variable

What every firing sequence does to the gadget's places, for any net in which
the gadget is wired as `Condvar::new` and the link functions wire it.

`CondvarArcs` (in `Condvar.Arcs`) is that wiring, stated on the four places
alone, with the wait calls and notify calls linked so far as parameters. The
rest of the net is unconstrained, so the results hold inside any translated
program.

Two kinds of result come out of it. `lostSignalPossible` and `waitInput` form
a place invariant: the gadget's own transitions and the wait starts move a
token between the two or put it back, so the pair always holds one token
together. And the other three places each have a state equation whose sums
are firing counts: `waitInput` is fed only by wait starts and drained only by
`signal_transition`, `signalOutput` is fed only by `signal_transition` and
drained only by wait ends, and `signalInput` is fed only by notifies and
drained only by the gadget's two transitions. Since a place never holds a
negative count, each equation bounds one count by another.

## Theorems

* `CondvarArcs.run_lostSignalPossible_add_waitInput`: The place invariant.
* `CondvarArcs.run_waitInput`, `CondvarArcs.run_signalOutput`,
  `CondvarArcs.run_signalInput`: The three state equations as firing counts.
* `CondvarArcs.lostSignalTransition_not_enabled`: A waiter blocks the lost
  signal.
-/

namespace Granite

open PetriNet

namespace CondvarArcs

variable {net : PetriNet} {cv : Condvar} {lst st : TransitionRef}
  {waits : List (TransitionRef × TransitionRef)} {notifies : List TransitionRef}
  {σ : List TransitionRef} {m : Marking}

/-- Summing a singleton arc list over a run counts one transition. -/
theorem sum_map_count_singleton (σ : List TransitionRef) (a : TransitionRef) :
    (σ.map fun t => [a].count t).sum = σ.count a := by
  rw [sum_map_count_cons, sum_map_count_nil, Nat.add_zero]

/-- Every transition gives `lostSignalPossible` and `waitInput` together what
    it takes from them together. -/
theorem consumes_add_eq_produces_add (h : CondvarArcs net cv lst st waits notifies)
    (t : TransitionRef) :
    net.consumes cv.lostSignalPossible t + net.consumes cv.waitInput t =
      net.produces t cv.lostSignalPossible + net.produces t cv.waitInput := by
  simp only [consumes, produces, h.postset_lostSignalPossible, h.postset_waitInput,
    h.preset_lostSignalPossible, h.preset_waitInput, List.count_cons, List.count_singleton',
    List.count_nil]
  omega

/-- The place invariant: `lostSignalPossible` and `waitInput` hold one token
    together after every firing sequence from the initial marking. -/
theorem run_lostSignalPossible_add_waitInput (h : CondvarArcs net cv lst st waits notifies)
    (hrun : net.run net.marking σ = some m) :
    m cv.lostSignalPossible + m cv.waitInput = 1 := by
  rw [run_pair_invariant (consumes_add_eq_produces_add h) hrun, h.marking_lostSignalPossible,
    h.marking_waitInput]

/-- `waitInput` holds the wait starts not yet answered by `signal_transition`. -/
theorem run_waitInput (h : CondvarArcs net cv lst st waits notifies)
    (hrun : net.run net.marking σ = some m) :
    m cv.waitInput + σ.count st = firings σ (waits.map Prod.fst) := by
  have := run_balance hrun cv.waitInput
  simp only [consumes, produces, h.postset_waitInput, h.preset_waitInput, h.marking_waitInput,
    sum_map_count_singleton, sum_map_count_of_nodup σ h.nodup_waitStarts] at this
  omega

/-- `signalOutput` holds the signals not yet taken by a wait end. -/
theorem run_signalOutput (h : CondvarArcs net cv lst st waits notifies)
    (hrun : net.run net.marking σ = some m) :
    m cv.signalOutput + firings σ (waits.map Prod.snd) = σ.count st := by
  have := run_balance hrun cv.signalOutput
  simp only [consumes, produces, h.postset_signalOutput, h.preset_signalOutput,
    h.marking_signalOutput, sum_map_count_singleton, sum_map_count_of_nodup σ h.nodup_waitEnds]
    at this
  omega

/-- `signalInput` holds the notifies that neither gadget transition has
    consumed. -/
theorem run_signalInput (h : CondvarArcs net cv lst st waits notifies)
    (hrun : net.run net.marking σ = some m) :
    m cv.signalInput + σ.count lst + σ.count st = firings σ notifies := by
  have := run_balance hrun cv.signalInput
  simp only [consumes, produces, h.postset_signalInput, h.preset_signalInput,
    h.marking_signalInput, sum_map_count_cons, sum_map_count_nil,
    sum_map_count_of_nodup σ h.nodup_notifies] at this
  omega

/-- With a token in `waitInput`, `lostSignalPossible` is empty, and
    `lost_signal_transition`, which needs its token, cannot fire. -/
theorem lostSignalTransition_not_enabled (h : CondvarArcs net cv lst st waits notifies)
    (hrun : net.run net.marking σ = some m) (hw : 0 < m cv.waitInput) :
    net.enabled m lst = false := by
  have hsum := run_lostSignalPossible_add_waitInput h hrun
  have hc : 1 ≤ net.consumes cv.lostSignalPossible lst := by
    simp [consumes, h.postset_lostSignalPossible, List.count_cons]
  by_contra hen
  have := consumes_le_of_enabled (Bool.eq_true_of_not_eq_false hen) cv.lostSignalPossible
  omega

end CondvarArcs

end Granite
