import Granite.Condvar.Properties

/-!
# The Gadget Refines a Condition Variable

What the four places and two transitions of `condvar.rs` are for, stated as
a machine of its own, and the proof that every firing sequence of a net the
translator builds around the gadget is a run of that machine.

`CondvarState` is the abstract condition variable: whether a thread waits,
how many notifications are pending, and how many have been passed to a
thread that has not yet ended its wait. Its actions are the five parts a
transition can play at the gadget: the start and the end of a wait, a
notify, and the gadget's own `lost_signal_transition` and
`signal_transition`. Their guards are the condition variable's contract: a
thread starts waiting only while none waits, a notification is lost only
while none waits and passed on only to a waiting thread, and a wait ends
only on a notification passed on.

`Condvar.Abstracts` reads the abstract state off the gadget's places, and
`Condvar.actionOf` reads the part a transition plays off the net's arcs at
those places. A firing is then one abstract step, or none for a transition
that plays no part (`CondvarArcs.fire_abstracts`), provided each transition
plays at most one part (`CallsDistinct`, which `Wired` keeps). So every
firing sequence of a net built from `Condvar::new` is a run of the abstract
machine from a new condition variable (`buildCondvar_refines`).

## Main definitions

* `CondvarState`, `CondvarAction`, `CondvarState.step`: The abstract
  condition variable.
* `Condvar.actionOf`: The part a transition plays at the gadget.
* `Condvar.Abstracts`: The abstract state the gadget's places stand for.

## Theorems

* `CondvarArcs.fire_abstracts`: One firing is one abstract step or none.
* `CondvarArcs.run_abstracts`: A firing sequence is an abstract run.
* `buildCondvar_refines`: The refinement.
-/

namespace Granite

open PetriNet

/-- A condition variable as the gadget implements it: at most one thread
    waits at a time; a notification is pending until it is passed to the
    waiting thread or, while none waits, lost; and a thread that has been
    passed one ends its wait. -/
structure CondvarState where
  waiting : Bool
  pending : Nat
  signalled : Nat
  deriving DecidableEq, Repr

/-- What can happen to a condition variable. -/
inductive CondvarAction
  | waitStart | waitEnd | notifyOne | loseSignal | signal
  deriving DecidableEq, Repr

namespace CondvarState

/-- A new condition variable. -/
def initial : CondvarState := ⟨false, 0, 0⟩

/-- One action, or `none` where the condition variable does not allow it. -/
def step (s : CondvarState) : CondvarAction → Option CondvarState
  | .waitStart => if s.waiting then none else some { s with waiting := true }
  | .waitEnd => if s.signalled = 0 then none else some { s with signalled := s.signalled - 1 }
  | .notifyOne => some { s with pending := s.pending + 1 }
  | .loseSignal =>
      if s.waiting ∨ s.pending = 0 then none else some { s with pending := s.pending - 1 }
  | .signal =>
      if s.waiting ∧ s.pending ≠ 0 then some ⟨false, s.pending - 1, s.signalled + 1⟩ else none

/-- The actions in order, or `none` at the first one the condition variable
    does not allow. -/
def run (s : CondvarState) (as : List CondvarAction) : Option CondvarState :=
  as.foldlM step s

end CondvarState

/-- The part the transition `t` plays at the gadget of `cv` in `net`, read
    off the arcs at its four places: what takes from `wait_input` passes a
    notification on; what else takes from `signal_input` loses one; what
    else takes from `lost_signal_possible` starts a wait; what takes from
    `signal_output` ends one; and what gives to `signal_input` notifies. -/
def Condvar.actionOf (cv : Condvar) (net : PetriNet) (t : TransitionRef) :
    Option CondvarAction :=
  if t ∈ net.postset cv.waitInput then some .signal
  else if t ∈ net.postset cv.signalInput then some .loseSignal
  else if t ∈ net.postset cv.lostSignalPossible then some .waitStart
  else if t ∈ net.postset cv.signalOutput then some .waitEnd
  else if t ∈ net.preset cv.signalInput then some .notifyOne
  else none

/-- The gadget's places hold what the abstract state says: the token of a
    waiting thread in `wait_input`, and otherwise in `lost_signal_possible`;
    the pending notifications in `signal_input`; and those passed on in
    `signal_output`. -/
structure Condvar.Abstracts (cv : Condvar) (m : Marking) (s : CondvarState) : Prop where
  waitInput : m cv.waitInput = s.waiting.toNat
  lostSignalPossible : m cv.lostSignalPossible + s.waiting.toNat = 1
  signalInput : m cv.signalInput = s.pending
  signalOutput : m cv.signalOutput = s.signalled

namespace CondvarArcs

variable {net : PetriNet} {cv : Condvar} {lst st : TransitionRef}
  {waits : List (TransitionRef × TransitionRef)} {notifies : List TransitionRef}
  {m m₀ : Marking} {s : CondvarState} {t : TransitionRef} {σ : List TransitionRef}

/-- A new gadget stands for a new condition variable. -/
theorem abstracts_initial (h : CondvarArcs net cv lst st waits notifies) :
    cv.Abstracts net.marking CondvarState.initial :=
  ⟨h.marking_waitInput, by simp [CondvarState.initial, h.marking_lostSignalPossible],
    h.marking_signalInput, h.marking_signalOutput⟩

/-- What an enabled transition needs at the four places, by how often it
    occurs in each of the gadget's lists. -/
theorem le_of_enabled (h : CondvarArcs net cv lst st waits notifies)
    (hen : net.enabled m t = true) :
    [lst].count t + (waits.map Prod.fst).count t ≤ m cv.lostSignalPossible ∧
      [lst].count t + [st].count t ≤ m cv.signalInput ∧ [st].count t ≤ m cv.waitInput ∧
      (waits.map Prod.snd).count t ≤ m cv.signalOutput := by
  have c₁ := consumes_le_of_enabled hen cv.lostSignalPossible
  have c₂ := consumes_le_of_enabled hen cv.signalInput
  have c₃ := consumes_le_of_enabled hen cv.waitInput
  have c₄ := consumes_le_of_enabled hen cv.signalOutput
  simp only [consumes, h.postset_lostSignalPossible, h.postset_signalInput, h.postset_waitInput,
    h.postset_signalOutput] at c₁ c₂ c₃ c₄
  exact ⟨(List.count_append t [lst] _).symm.trans_le c₁,
    (List.count_append t [lst] [st]).symm.trans_le c₂, c₃, c₄⟩

/-- What the four places hold after a transition fires, by how often it
    occurs in each of the gadget's lists. -/
theorem fire_eq (h : CondvarArcs net cv lst st waits notifies) (m : Marking) (t : TransitionRef) :
    net.fire m t cv.lostSignalPossible = m cv.lostSignalPossible -
        ([lst].count t + (waits.map Prod.fst).count t) + ([lst].count t + [st].count t) ∧
      net.fire m t cv.signalInput =
        m cv.signalInput - ([lst].count t + [st].count t) + notifies.count t ∧
      net.fire m t cv.waitInput = m cv.waitInput - [st].count t + (waits.map Prod.fst).count t ∧
      net.fire m t cv.signalOutput =
        m cv.signalOutput - (waits.map Prod.snd).count t + [st].count t := by
  have k₁ : (lst :: waits.map Prod.fst).count t = [lst].count t + (waits.map Prod.fst).count t :=
    List.count_append t [lst] _
  have k₂ : [lst, st].count t = [lst].count t + [st].count t := List.count_append t [lst] [st]
  simp only [fire, consumes, produces, h.postset_lostSignalPossible, h.preset_lostSignalPossible,
    h.postset_signalInput, h.preset_signalInput, h.postset_waitInput, h.preset_waitInput,
    h.postset_signalOutput, h.preset_signalOutput, k₁, k₂, and_self]

/-- Firing an enabled transition is the abstract step `actionOf` names, or no
    step for a transition that plays no part: what the transition needs at
    the four places is the step's guard, and what it moves is the step. -/
theorem fire_abstracts (h : CondvarArcs net cv lst st waits notifies)
    (hd : CallsDistinct lst st waits notifies) (hm : cv.Abstracts m s)
    (hen : net.enabled m t = true) :
    ∃ s', (cv.actionOf net t).elim (some s) s.step = some s' ∧
      cv.Abstracts (net.fire m t) s' := by
  have hone := List.nodup_iff_count_le_one.1 hd t
  simp only [List.count_append] at hone
  have k₁ : (lst :: waits.map Prod.fst).count t = [lst].count t + (waits.map Prod.fst).count t :=
    List.count_append t [lst] _
  have k₂ : [lst, st].count t = [lst].count t + [st].count t := List.count_append t [lst] [st]
  have hc := h.le_of_enabled hen
  have hf := h.fire_eq m t
  simp only [Condvar.actionOf, h.postset_waitInput, h.postset_signalInput,
    h.postset_lostSignalPossible, h.postset_signalOutput, h.preset_signalInput,
    ← List.count_pos_iff, k₁, k₂]
  -- the counts decide the part; the facts of the firing wait in the goal
  revert hm hc hf
  clear k₁ k₂
  generalize [lst].count t = a, [st].count t = b, (waits.map Prod.fst).count t = w,
    (waits.map Prod.snd).count t = v, notifies.count t = n at hone ⊢
  by_cases h₁ : 0 < b
  · -- `signal_transition` needs `wait_input`: a thread waits
    rw [if_pos h₁]
    obtain ⟨rfl, rfl, rfl, rfl, rfl⟩ : a = 0 ∧ b = 1 ∧ w = 0 ∧ v = 0 ∧ n = 0 := by omega
    rintro ⟨hw, hl, hi, ho⟩ ⟨-, c₂, c₃, -⟩ ⟨f₁, f₂, f₃, f₄⟩
    cases hwt : s.waiting <;> simp only [hwt, Bool.toNat_false, Bool.toNat_true, Nat.add_zero] at hw hl
    · omega
    refine ⟨⟨false, s.pending - 1, s.signalled + 1⟩, ?_, ?_⟩
    · simp [CondvarState.step, hwt, ← hi]
      omega
    exact ⟨by simp [f₃, hw], by simp [f₁, hl], by simp [f₂, hi], by simp [f₄, ho]⟩
  rw [if_neg h₁]
  by_cases h₂ : 0 < a + b
  · -- `lost_signal_transition` needs `lost_signal_possible`: no thread waits
    rw [if_pos h₂]
    obtain ⟨rfl, rfl, rfl, rfl, rfl⟩ : a = 1 ∧ b = 0 ∧ w = 0 ∧ v = 0 ∧ n = 0 := by omega
    rintro ⟨hw, hl, hi, ho⟩ ⟨c₁, c₂, -, -⟩ ⟨f₁, f₂, f₃, f₄⟩
    cases hwt : s.waiting <;> simp only [hwt, Bool.toNat_false, Bool.toNat_true, Nat.add_zero] at hw hl
    swap
    · omega
    refine ⟨{ s with pending := s.pending - 1 }, ?_, ?_⟩
    · simp [CondvarState.step, hwt, ← hi]
      omega
    exact ⟨by simp [f₃, hw, hwt], by simp [f₁, hwt, hl], by simp [f₂, hi], by simp [f₄, ho]⟩
  rw [if_neg h₂]
  by_cases h₃ : 0 < a + w
  · -- a wait start needs `lost_signal_possible`: no thread waits
    rw [if_pos h₃]
    obtain ⟨rfl, rfl, rfl, rfl, rfl⟩ : a = 0 ∧ b = 0 ∧ w = 1 ∧ v = 0 ∧ n = 0 := by omega
    rintro ⟨hw, hl, hi, ho⟩ ⟨c₁, -, -, -⟩ ⟨f₁, f₂, f₃, f₄⟩
    cases hwt : s.waiting <;> simp only [hwt, Bool.toNat_false, Bool.toNat_true, Nat.add_zero] at hw hl
    swap
    · omega
    exact ⟨{ s with waiting := true }, by simp [CondvarState.step, hwt],
      by simp [f₃, hw], by simp [f₁, hl], by simp [f₂, hi], by simp [f₄, ho]⟩
  rw [if_neg h₃]
  by_cases h₄ : 0 < v
  · -- a wait end needs `signal_output`: a notification was passed on
    rw [if_pos h₄]
    obtain ⟨rfl, rfl, rfl, rfl, rfl⟩ : a = 0 ∧ b = 0 ∧ w = 0 ∧ v = 1 ∧ n = 0 := by omega
    rintro ⟨hw, hl, hi, ho⟩ ⟨-, -, -, c₄⟩ ⟨f₁, f₂, f₃, f₄⟩
    refine ⟨{ s with signalled := s.signalled - 1 }, ?_, by simpa [f₃] using hw,
      by simpa [f₁] using hl, by simpa [f₂] using hi, by simp [f₄, ho]⟩
    simp [CondvarState.step, ← ho]
    omega
  rw [if_neg h₄]
  by_cases h₅ : 0 < n
  · -- a notify puts a notification in `signal_input`
    rw [if_pos h₅]
    obtain ⟨rfl, rfl, rfl, rfl, rfl⟩ : a = 0 ∧ b = 0 ∧ w = 0 ∧ v = 0 ∧ n = 1 := by omega
    rintro ⟨hw, hl, hi, ho⟩ - ⟨f₁, f₂, f₃, f₄⟩
    exact ⟨{ s with pending := s.pending + 1 }, rfl, by simpa [f₃] using hw,
      by simpa [f₁] using hl, by simp [f₂, hi], by simpa [f₄] using ho⟩
  · -- any other transition leaves the four places alone
    rw [if_neg h₅]
    obtain ⟨rfl, rfl, rfl, rfl, rfl⟩ : a = 0 ∧ b = 0 ∧ w = 0 ∧ v = 0 ∧ n = 0 := by omega
    rintro ⟨hw, hl, hi, ho⟩ - ⟨f₁, f₂, f₃, f₄⟩
    exact ⟨s, rfl, by simpa [f₃] using hw, by simpa [f₁] using hl, by simpa [f₂] using hi,
      by simpa [f₄] using ho⟩

/-- Every firing sequence from a marking the abstract state stands for is a
    run of the abstract machine, over the parts its transitions play. -/
theorem run_abstracts (h : CondvarArcs net cv lst st waits notifies)
    (hd : CallsDistinct lst st waits notifies) (hm : cv.Abstracts m₀ s)
    (hrun : net.run m₀ σ = some m) :
    ∃ s', s.run (σ.filterMap (cv.actionOf net)) = some s' ∧ cv.Abstracts m s' :=
  net.run_simulates (fun _ _ _ hm hen => h.fire_abstracts hd hm hen) hm hrun

end CondvarArcs

/-- Every firing sequence of a net built from `Condvar::new`, by any steps
    that leave the gadget's places to it, is a run of the abstract condition
    variable from a new one, over the parts its transitions play, and ends in
    the abstract state the gadget's places stand for. -/
theorem buildCondvar_refines {index : Nat} {net : PetriNet} {steps : List Step} {cv : Condvar}
    {b : Build} {σ : List TransitionRef} {m : Marking}
    (hb : buildCondvar index net steps = (cv, b)) (hs : ∀ s ∈ steps, s.Avoids cv)
    (hrun : b.net.run b.net.marking σ = some m) :
    ∃ s, CondvarState.initial.run (σ.filterMap (cv.actionOf b.net)) = some s ∧
      cv.Abstracts m s := by
  have h := buildCondvar_wired hb hs
  exact h.arcs.run_abstracts h.distinct h.arcs.abstracts_initial hrun

/-- The run of `waitEnd_fires_without_waitStart`, abstractly: a thread starts
    waiting, a notify is passed on to it and a wait ends on it; the lock
    plays no part at the condition variable. -/
theorem buildCondvar_refines_signal_stealing :
    let cv := (buildCondvar 0 PetriNet.new signalStealingSteps).1
    let b := (buildCondvar 0 PetriNet.new signalStealingSteps).2
    let σ : List TransitionRef := [⟨2⟩, ⟨3⟩, ⟨7⟩, ⟨1⟩, ⟨6⟩]
    ∃ s, CondvarState.initial.run (σ.filterMap (cv.actionOf b.net)) = some s ∧
      cv.Abstracts ((b.net.run b.net.marking σ).getD fun _ => 0) s :=
  @buildCondvar_refines 0 _ _ _ _ _ _ Prod.mk.eta.symm (by decide) rfl

end Granite
