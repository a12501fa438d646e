import Granite.Condvar.Gadget

/-!
# The Wiring of a Condition Variable

What the gadget's four places are connected to, as a predicate of its own, and
the proof that the functions of `condvar.rs` produce exactly that.

`CondvarArcs` lists, for each of the four places, the transitions that take
from it and the transitions that give to it, in the order the arcs were
added, and the initial tokens. The wait calls and notify calls linked so far
are its parameters. This is the abstract view the token-flow results of
`Condvar.Tokens` are stated on: it mentions nothing but the four places, so it
says nothing about the rest of the net.

Each function that touches the gadget moves the view in one way:
`Condvar::new` starts it with no calls linked (`Condvar.new_arcs`),
`link_to_wait_call` and `link_to_notify_one_call` each append one call
(`CondvarArcs.linkToWaitCall`, `CondvarArcs.linkToNotifyOneCall`), and any
change to the net that leaves the four places as they were keeps it
(`CondvarArcs.congr`).

## Main definitions

* `CondvarArcs`: The arcs and initial tokens of the gadget's places.

## Theorems

* `Condvar.new_arcs`: `Condvar::new` builds the gadget with nothing linked.
* `CondvarArcs.congr`: The view depends only on the four places.
* `CondvarArcs.linkToWaitCall`: Linking a wait call appends it.
* `CondvarArcs.linkToNotifyOneCall`: Linking a notify call appends it.
-/

namespace Granite

open PetriNet

/-- The gadget of `cv`, with transitions `lst` and `st`, linked to the start
    and end transitions of `waits` and the notify transitions `notifies`, and
    to nothing else. -/
structure CondvarArcs (net : PetriNet) (cv : Condvar) (lst st : TransitionRef)
    (waits : List (TransitionRef × TransitionRef)) (notifies : List TransitionRef) : Prop where
  postset_lostSignalPossible : net.postset cv.lostSignalPossible = lst :: waits.map Prod.fst
  preset_lostSignalPossible : net.preset cv.lostSignalPossible = [lst, st]
  postset_signalInput : net.postset cv.signalInput = [lst, st]
  preset_signalInput : net.preset cv.signalInput = notifies
  postset_waitInput : net.postset cv.waitInput = [st]
  preset_waitInput : net.preset cv.waitInput = waits.map Prod.fst
  postset_signalOutput : net.postset cv.signalOutput = waits.map Prod.snd
  preset_signalOutput : net.preset cv.signalOutput = [st]
  marking_lostSignalPossible : net.marking cv.lostSignalPossible = 1
  marking_signalInput : net.marking cv.signalInput = 0
  marking_waitInput : net.marking cv.waitInput = 0
  marking_signalOutput : net.marking cv.signalOutput = 0
  nodup_waitStarts : (waits.map Prod.fst).Nodup
  nodup_waitEnds : (waits.map Prod.snd).Nodup
  nodup_notifies : notifies.Nodup

namespace Condvar

variable (index : Nat) (net : PetriNet)

theorem new_places_nodup : (new index net).1.places.Nodup := by
  simp [new_fst, places]

theorem new_hasPlace : ∀ p ∈ (new index net).1.places, (new index net).2.HasPlace p := by
  simp [new_fst, places, HasPlace]

/-- The gadget's places are new: none is a place the net had. -/
theorem le_index_of_mem_new_places {p : PlaceRef} (hp : p ∈ (new index net).1.places) :
    net.places.length ≤ p.index := by
  simp only [new_fst, places, List.mem_cons, List.not_mem_nil, or_false] at hp
  rcases hp with rfl | rfl | rfl | rfl <;> simp

/-- `Condvar::new` builds the gadget with no call linked: the two transitions
    are the net's next two, and the new places are wired only to them. -/
theorem new_arcs :
    CondvarArcs (new index net).2 (new index net).1 (lostSignalTransition net)
      (signalTransition net) [] [] := by
  rw [new_fst, lostSignalTransition, signalTransition]
  constructor <;>
    simp [new, addPlace, addTransition, HasPlace, Nat.add_assoc, postset_addArcPlaceTransition_self,
      postset_addArcPlaceTransition_of_ne, preset_addArcTransitionPlace_self,
      preset_addArcTransitionPlace_of_ne, marking_addToken_self, marking_addToken_of_ne,
      marking_eq_zero, preset_eq_nil, postset_eq_nil]

end Condvar

namespace CondvarArcs

variable {net net' : PetriNet} {cv : Condvar} {lst st : TransitionRef}
  {waits : List (TransitionRef × TransitionRef)} {notifies : List TransitionRef}

/-- The view reads only the four places. -/
theorem congr (h : CondvarArcs net cv lst st waits notifies)
    (hs : ∀ p ∈ cv.places, net.SameAt net' p) : CondvarArcs net' cv lst st waits notifies := by
  have h1 := hs cv.lostSignalPossible (by simp [Condvar.places])
  have h2 := hs cv.signalInput (by simp [Condvar.places])
  have h3 := hs cv.waitInput (by simp [Condvar.places])
  have h4 := hs cv.signalOutput (by simp [Condvar.places])
  exact ⟨h1.postset.trans h.1, h1.preset.trans h.2, h2.postset.trans h.3, h2.preset.trans h.4,
    h3.postset.trans h.5, h3.preset.trans h.6, h4.postset.trans h.7, h4.preset.trans h.8,
    h1.marking.trans h.9, h2.marking.trans h.10, h3.marking.trans h.11, h4.marking.trans h.12,
    h.13, h.14, h.15⟩

/-- The four places are distinct, named pairwise. -/
theorem places_ne (hnd : cv.places.Nodup) :
    cv.lostSignalPossible ≠ cv.signalInput ∧ cv.lostSignalPossible ≠ cv.waitInput ∧
      cv.lostSignalPossible ≠ cv.signalOutput ∧ cv.signalInput ≠ cv.waitInput ∧
      cv.signalInput ≠ cv.signalOutput ∧ cv.waitInput ≠ cv.signalOutput := by
  simp only [Condvar.places, List.nodup_cons, List.mem_cons, List.not_mem_nil, not_or] at hnd
  tauto

/-- Linking a wait call appends its start and end to the view. -/
theorem linkToWaitCall (h : CondvarArcs net cv lst st waits notifies) (hnd : cv.places.Nodup)
    (hhas : ∀ p ∈ cv.places, net.HasPlace p) {ws we : TransitionRef}
    (hws : ws ∉ waits.map Prod.fst) (hwe : we ∉ waits.map Prod.snd) :
    CondvarArcs (cv.linkToWaitCall ws we net) cv lst st (waits ++ [(ws, we)]) notifies := by
  obtain ⟨h12, h13, h14, h23, h24, h34⟩ := places_ne hnd
  have hL : net.HasPlace cv.lostSignalPossible := hhas _ (by simp [Condvar.places])
  have hW : net.HasPlace cv.waitInput := hhas _ (by simp [Condvar.places])
  have hS : net.HasPlace cv.signalOutput := hhas _ (by simp [Condvar.places])
  simp only [HasPlace] at hL hW hS
  constructor <;>
    simp [Condvar.linkToWaitCall, HasPlace, hL, hW, hS, postset_addArcPlaceTransition_self,
      postset_addArcPlaceTransition_of_ne, preset_addArcTransitionPlace_self,
      preset_addArcTransitionPlace_of_ne, h12, h13, h14, h23, h24, h34, h12.symm, h13.symm,
      h14.symm, h23.symm, h24.symm, h34.symm, h.1, h.2, h.3, h.4, h.5, h.6, h.7, h.8, h.9, h.10,
      h.11, h.12, h.13, h.14, h.15, List.nodup_append, hws, hwe]

/-- Linking a notify call appends its transition to the view. -/
theorem linkToNotifyOneCall (h : CondvarArcs net cv lst st waits notifies)
    (hnd : cv.places.Nodup) (hhas : ∀ p ∈ cv.places, net.HasPlace p) {t : TransitionRef}
    (ht : t ∉ notifies) :
    CondvarArcs (cv.linkToNotifyOneCall t net) cv lst st waits (notifies ++ [t]) := by
  obtain ⟨h12, h13, h14, h23, h24, h34⟩ := places_ne hnd
  have hI : net.HasPlace cv.signalInput := hhas _ (by simp [Condvar.places])
  constructor <;>
    simp [Condvar.linkToNotifyOneCall, hI, preset_addArcTransitionPlace_self,
      preset_addArcTransitionPlace_of_ne, h12, h23.symm, h24.symm, h.1, h.2, h.3, h.4, h.5, h.6,
      h.7, h.8, h.9, h.10, h.11, h.12, h.13, h.14, h.15, List.nodup_append, ht]

end CondvarArcs

end Granite
