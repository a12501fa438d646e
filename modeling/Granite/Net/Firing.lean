import Granite.Net.Basic
import Mathlib.Data.List.Nodup
import Mathlib.Algebra.Order.Ring.Nat

/-!
# Firing Sequences

The meaning of a finished net, as the model checker downstream reads it. A
transition is enabled when every place holds at least as many tokens as its
arcs from that place weigh, and firing it moves those tokens to the places its
outgoing arcs reach. `run` fires a sequence of transitions from a marking and
fails at the first one that is not enabled, so the firing sequences from a
marking are exactly the lists on which `run` succeeds.

Everything proved about the translator's gadgets is a statement about all such
sequences, and two facts carry all of them. `run_balance` is the state
equation of one place: what a run leaves there, plus what it consumed from
there, is what was there at the start plus what it produced there. Nothing is
subtracted, so the equation holds in `Nat` without side conditions.
`run_pair_invariant` is the place invariant of two places whose joint
consumption equals their joint production at every transition: their total
never changes. `run_simulates` lifts one firing to a whole sequence for the
refinements of the gadgets: when each enabled firing is one step of an
abstract machine, or none, each firing sequence is a run of the machine.

The counting lemmas at the end turn the sums over a sequence that the state
equation produces into firing counts, for the lists of transitions a gadget
records.

## Main definitions

* `PetriNet.consumes`, `PetriNet.produces`: Arc multiplicities.
* `PetriNet.enabled`: A transition of the net whose input places are covered.
* `PetriNet.fire`: The marking after one firing.
* `PetriNet.run`: Firing a sequence, or `none`.
* `firings`: How often a sequence fires a transition from a list.

## Theorems

* `PetriNet.consumes_le_of_enabled`: An enabled transition finds its tokens.
* `PetriNet.fire_add_consumes`: One firing, as a balance.
* `PetriNet.run_balance`: The state equation of a place along a run.
* `PetriNet.run_pair_invariant`: A conserved pair of places keeps its total.
* `PetriNet.run_simulates`: Firing sequences are runs of an abstract machine
  that every firing steps.
* `sum_map_count_cons`, `sum_map_count_of_nodup`: Summed arc counts are
  firing counts.
-/

namespace Granite

/-- Tokens per place. -/
abbrev Marking := PlaceRef → Nat

namespace PetriNet

/-- The multiplicity of the arc from place `p` to transition `t`. -/
def consumes (net : PetriNet) (p : PlaceRef) (t : TransitionRef) : Nat :=
  (net.postset p).count t

/-- The multiplicity of the arc from transition `t` to place `p`. -/
def produces (net : PetriNet) (t : TransitionRef) (p : PlaceRef) : Nat :=
  (net.preset p).count t

/-- `t` is a transition of the net and every place holds what `t` consumes
    from it. -/
def enabled (net : PetriNet) (m : Marking) (t : TransitionRef) : Bool :=
  decide (t.index < net.transitions.length) &&
    (List.range net.places.length).all fun i => net.consumes ⟨i⟩ t ≤ m ⟨i⟩

/-- The marking after `t` fires. -/
def fire (net : PetriNet) (m : Marking) (t : TransitionRef) : Marking :=
  fun p => m p - net.consumes p t + net.produces t p

/-- Fire a sequence from `m`, or `none` at the first transition that is not
    enabled. -/
def run (net : PetriNet) : Marking → List TransitionRef → Option Marking
  | m, [] => some m
  | m, t :: σ => if net.enabled m t then net.run (net.fire m t) σ else none

variable {net : PetriNet} {m m' : Marking} {t : TransitionRef} {σ : List TransitionRef}

@[simp] theorem run_nil : net.run m [] = some m := rfl

theorem run_cons : net.run m (t :: σ) = if net.enabled m t then net.run (net.fire m t) σ else none :=
  rfl

/-- A transition takes from a place exactly when it is in the place's
    postset. -/
theorem mem_postset_iff {p : PlaceRef} : t ∈ net.postset p ↔ 0 < net.consumes p t :=
  List.count_pos_iff.symm

theorem consumes_le_of_enabled (h : net.enabled m t = true) (p : PlaceRef) :
    net.consumes p t ≤ m p := by
  simp only [enabled, Bool.and_eq_true, decide_eq_true_eq, List.all_eq_true, List.mem_range] at h
  by_cases hp : net.HasPlace p
  · exact h.2 p.index hp
  · simp [consumes, postset_eq_nil net p hp]

theorem fire_add_consumes (h : net.enabled m t = true) (p : PlaceRef) :
    net.fire m t p + net.consumes p t = m p + net.produces t p := by
  have := consumes_le_of_enabled h p
  simp only [fire]
  omega

/-- The state equation of a place: the tokens a run leaves at `p`, plus those
    it took from `p`, are those at `p` before, plus those it put there. -/
theorem run_balance (h : net.run m σ = some m') (p : PlaceRef) :
    m' p + (σ.map fun t => net.consumes p t).sum = m p + (σ.map fun t => net.produces t p).sum := by
  induction σ generalizing m with
  | nil => cases h; simp
  | cons t σ ih =>
      rw [run_cons] at h
      split at h
      · have := fire_add_consumes ‹_› p
        have := ih h
        simp only [List.map_cons, List.sum_cons]
        omega
      · cases h

/-- A place invariant: when every transition takes from `p` and `q` together
    what it gives them together, a run keeps their total. -/
theorem run_pair_invariant {p q : PlaceRef}
    (hpq : ∀ t, net.consumes p t + net.consumes q t = net.produces t p + net.produces t q)
    (h : net.run m σ = some m') : m' p + m' q = m p + m q := by
  induction σ generalizing m with
  | nil => cases h; rfl
  | cons t σ ih =>
      rw [run_cons] at h
      split at h
      · have := fire_add_consumes ‹_› p
        have := fire_add_consumes ‹_› q
        have := hpq t
        have := ih h
        omega
      · cases h

/-- Firing sequences as runs of an abstract machine. `R m a` says that the
    marking `m` stands for the abstract state `a`, and `act` reads the action
    a transition plays, if any. When every enabled firing from a marking that
    stands for `a` is the step `act` names, or no step where it names none,
    every firing sequence is a run of the machine over the actions its
    transitions play. -/
theorem run_simulates {α β : Type} {R : Marking → α → Prop} {act : TransitionRef → Option β}
    {step : α → β → Option α}
    (hfire : ∀ m a t, R m a → net.enabled m t = true →
      ∃ a', (act t).elim (some a) (step a) = some a' ∧ R (net.fire m t) a')
    {a : α} (hm : R m a) (hrun : net.run m σ = some m') :
    ∃ a', (σ.filterMap act).foldlM step a = some a' ∧ R m' a' := by
  induction σ generalizing m a with
  | nil =>
      cases hrun
      exact ⟨a, rfl, hm⟩
  | cons t σ ih =>
      rw [run_cons] at hrun
      split at hrun
      · obtain ⟨a₁, ha₁, hm₁⟩ := hfire m a t hm ‹_›
        obtain ⟨a', ha', hm'⟩ := ih hm₁ hrun
        refine ⟨a', ?_, hm'⟩
        cases hact : act t with
        | none =>
            obtain rfl : a = a₁ := Option.some.inj (by simpa [hact] using ha₁)
            simpa [List.filterMap_cons, hact] using ha'
        | some b =>
            simpa [List.filterMap_cons, hact, show step a b = some a₁ by simpa [hact] using ha₁]
              using ha'
      · cases hrun

end PetriNet

/-- How often `σ` fires a transition of `ts`. -/
def firings (σ ts : List TransitionRef) : Nat := σ.countP (· ∈ ts)

@[simp] theorem sum_map_count_nil (σ : List TransitionRef) :
    (σ.map fun t => ([] : List TransitionRef).count t).sum = 0 := by
  induction σ <;> simp_all

/-- Summing the multiplicities of an arc list over a sequence: the first
    transition listed counts its own firings. -/
theorem sum_map_count_cons (σ L : List TransitionRef) (a : TransitionRef) :
    (σ.map fun t => (a :: L).count t).sum = σ.count a + (σ.map fun t => L.count t).sum := by
  induction σ with
  | nil => rfl
  | cons t σ ih =>
      rw [List.map_cons, List.sum_cons, ih, List.map_cons, List.sum_cons, List.count_cons,
        List.count_cons]
      by_cases h : a = t
      · subst h
        simp only [beq_self_eq_true, if_true]
        omega
      · simp only [h, Ne.symm h, beq_iff_eq, if_false]
        omega

/-- Over an arc list without repeats, the summed multiplicities count the
    firings of the listed transitions. -/
theorem sum_map_count_of_nodup (σ : List TransitionRef) {L : List TransitionRef} (hL : L.Nodup) :
    (σ.map fun t => L.count t).sum = firings σ L := by
  induction σ with
  | nil => rfl
  | cons t σ ih =>
      rw [List.map_cons, List.sum_cons, ih, List.count_eq_of_nodup hL, firings, firings,
        List.countP_cons]
      by_cases h : t ∈ L <;> simp [h, Nat.add_comm]

end Granite
