import Granite.Net.Firing

/-!
# The Condition Variable Gadget

A condition variable becomes four places and two transitions
(`translator/sync/condvar.rs`). `lost_signal_possible` starts with a token;
a notify puts a token in `signal_input`; a waiter moves the token of
`lost_signal_possible` to `wait_input`. The two transitions are in conflict
over `signal_input`: `lost_signal_transition` drops a signal when no one
waits, `signal_transition` hands it to a waiter through `signal_output`.

`Condvar::new` builds the gadget; `link_to_wait_call` and
`link_to_notify_one_call` attach the transitions of a call site to it. A wait
call site is two transitions, built by `create_wait_function_call` from the
call's start and end places: the start consumes the token of
`lost_signal_possible` and produces into `wait_input`, and the end consumes
from `signal_output`. Nothing else links the two, which is what the token
counts of `Condvar.Tokens` turn on.

Two collaborators of these functions are not in the source: the labels of
`naming/condvar.rs`, and the opaque call of `special_function.rs` that a
notify call is translated into. Both are modelled from the spec, as is the
mutex gadget that `translate_side_effects_wait` releases at the start of a
wait and reacquires at its end.

## Main definitions

* `Condvar`: The four places of the gadget.
* `Condvar.new`: The gadget, added to a net.
* `Condvar.linkToWaitCall`, `Condvar.linkToNotifyOneCall`: Attaching call
  sites.
* `createWaitFunctionCall`: The two transitions of a wait call site.
* `callForeignFunction`: The transition of an opaque call.
* `Mutex.addLockGuard`, `Mutex.addUnlockGuard`: The mutex side of a wait.

## Theorems

* `Condvar.new_fst`, `createWaitFunctionCall_fst`,
  `callForeignFunction_fst`: The refs handed out are the net's next ones.
* `createWaitFunctionCall_transitions`, `callForeignFunction_transitions`:
  The labels a call site appends.
* `sameAt_createWaitFunctionCall`, `Condvar.sameAt_new`,
  `Condvar.sameAt_linkToWaitCall` and their siblings: Each operation touches
  only its own places.
-/

namespace Granite

open PetriNet

/-- The start place, end place and optional cleanup place of a call site. -/
abbrev FunctionPlaces := PlaceRef × PlaceRef × Option PlaceRef

/-- Modelled from the spec: `naming/condvar.rs` is not under `src/`. The
    places of condition variable `index`, named after their roles. -/
def placeLabels (index : Nat) : String × String × String × String :=
  (s!"CONDVAR_{index}_LOST_SIGNAL_POSSIBLE", s!"CONDVAR_{index}_SIGNAL_INPUT",
    s!"CONDVAR_{index}_WAIT_INPUT", s!"CONDVAR_{index}_SIGNAL_OUTPUT")

/-- Modelled from the spec: `naming/condvar.rs` is not under `src/`. The two
    transitions of condition variable `index`. -/
def transitionLabels (index : Nat) : String × String :=
  (s!"CONDVAR_{index}_LOST_SIGNAL", s!"CONDVAR_{index}_SIGNAL")

/-- The places of a condition variable; the struct keeps no transition. -/
structure Condvar where
  lostSignalPossible : PlaceRef
  signalInput : PlaceRef
  waitInput : PlaceRef
  signalOutput : PlaceRef
  deriving DecidableEq, Repr

namespace Condvar

/-- Add the gadget of condition variable `index` to the net: four places, a
    token in `lost_signal_possible`, two transitions and seven arcs. -/
def new (index : Nat) (net : PetriNet) : Condvar × PetriNet :=
  let (p1, p2, p3, p4) := placeLabels index
  let (lostSignalPossible, net) := net.addPlace p1
  let (signalInput, net) := net.addPlace p2
  let (waitInput, net) := net.addPlace p3
  let (signalOutput, net) := net.addPlace p4
  let net := net.addToken lostSignalPossible 1
  let (t1, t2) := transitionLabels index
  let (lostSignalTransition, net) := net.addTransition t1
  let (signalTransition, net) := net.addTransition t2
  let net := net.addArcPlaceTransition lostSignalPossible lostSignalTransition
  let net := net.addArcPlaceTransition signalInput lostSignalTransition
  let net := net.addArcPlaceTransition waitInput signalTransition
  let net := net.addArcPlaceTransition signalInput signalTransition
  let net := net.addArcTransitionPlace lostSignalTransition lostSignalPossible
  let net := net.addArcTransitionPlace signalTransition lostSignalPossible
  let net := net.addArcTransitionPlace signalTransition signalOutput
  (⟨lostSignalPossible, signalInput, waitInput, signalOutput⟩, net)

/-- Link the gadget to a call of `std::sync::Condvar::wait`: the start takes
    the token of `lost_signal_possible` and puts it in `wait_input`, the end
    takes from `signal_output`. -/
def linkToWaitCall (cv : Condvar) (waitStartTransition waitEndTransition : TransitionRef)
    (net : PetriNet) : PetriNet :=
  let net := net.addArcPlaceTransition cv.lostSignalPossible waitStartTransition
  let net := net.addArcTransitionPlace waitStartTransition cv.waitInput
  net.addArcPlaceTransition cv.signalOutput waitEndTransition

/-- Link the gadget to a call of `std::sync::Condvar::notify_one`: the call
    puts a token in `signal_input`. -/
def linkToNotifyOneCall (cv : Condvar) (signalTransition : TransitionRef) (net : PetriNet) :
    PetriNet :=
  net.addArcTransitionPlace signalTransition cv.signalInput

/-- `lost_signal_transition` of the gadget `new` adds to `net`, which the
    struct does not keep: the net's next transition. -/
def lostSignalTransition (net : PetriNet) : TransitionRef := ⟨net.transitions.length⟩

/-- `signal_transition` of the gadget `new` adds to `net`: the one after. -/
def signalTransition (net : PetriNet) : TransitionRef := ⟨net.transitions.length + 1⟩

/-- The four places, for stating what other code leaves alone. -/
def places (cv : Condvar) : List PlaceRef :=
  [cv.lostSignalPossible, cv.signalInput, cv.waitInput, cv.signalOutput]

section

variable (cv : Condvar) (ws we t : TransitionRef) (net : PetriNet)

@[simp] theorem linkToWaitCall_transitions :
    (cv.linkToWaitCall ws we net).transitions = net.transitions := rfl

@[simp] theorem linkToWaitCall_places_length :
    (cv.linkToWaitCall ws we net).places.length = net.places.length := by
  simp [linkToWaitCall]

@[simp] theorem linkToNotifyOneCall_transitions :
    (cv.linkToNotifyOneCall t net).transitions = net.transitions := rfl

@[simp] theorem linkToNotifyOneCall_places_length :
    (cv.linkToNotifyOneCall t net).places.length = net.places.length := by
  simp [linkToNotifyOneCall]

end

/-- The gadget's places and transitions are the net's next ones. -/
theorem new_fst (index : Nat) (net : PetriNet) :
    (new index net).1 = ⟨⟨net.places.length⟩, ⟨net.places.length + 1⟩, ⟨net.places.length + 2⟩,
      ⟨net.places.length + 3⟩⟩ := by
  simp [new, addPlace]

@[simp] theorem new_transitions_length (index : Nat) (net : PetriNet) :
    (new index net).2.transitions.length = net.transitions.length + 2 := by
  simp [new, addPlace, addTransition]

@[simp] theorem new_places_length (index : Nat) (net : PetriNet) :
    (new index net).2.places.length = net.places.length + 4 := by
  simp [new, addPlace, addTransition]

/-- The gadget wires only its own new places. -/
theorem sameAt_new (index : Nat) {net : PetriNet} {q : PlaceRef} (hq : net.HasPlace q) :
    net.SameAt (new index net).2 q := by
  have h : ∀ k, q ≠ ⟨net.places.length + k⟩ := by
    rintro k rfl
    simp [HasPlace] at hq
  have h0 : q ≠ ⟨net.places.length⟩ := by simpa using h 0
  constructor <;>
    simp [new, addPlace, addTransition, preset_addArcTransitionPlace_of_ne,
      postset_addArcPlaceTransition_of_ne, marking_addToken_of_ne, h, h0, Nat.add_assoc]

section

variable (cv : Condvar) (ws we t : TransitionRef) (net : PetriNet) {q : PlaceRef}

/-- Linking a call wires only the gadget's places. -/
theorem sameAt_linkToWaitCall (hq : q ∉ cv.places) : net.SameAt (cv.linkToWaitCall ws we net) q := by
  simp only [places, List.mem_cons, List.not_mem_nil, or_false, not_or] at hq
  exact ((sameAt_addArcPlaceTransition _ _ _ _ hq.1).trans
    (sameAt_addArcTransitionPlace _ _ _ _ hq.2.2.1)).trans
    (sameAt_addArcPlaceTransition _ _ _ _ hq.2.2.2)

theorem sameAt_linkToNotifyOneCall (hq : q ∉ cv.places) :
    net.SameAt (cv.linkToNotifyOneCall t net) q :=
  sameAt_addArcTransitionPlace _ _ _ _ fun h => hq (by simp [places, h])

end

end Condvar

/-- Translate a call to `std::sync::Condvar::wait`: a start transition
    consuming from the call's start place, an end transition producing into
    its end place, and, when the call has a cleanup place, an unwind
    transition from the start place to it. Returns the start and end
    transitions. -/
def createWaitFunctionCall (functionCallPlaces : FunctionPlaces)
    (transitionLabels : String × String × String) (net : PetriNet) :
    (TransitionRef × TransitionRef) × PetriNet :=
  let (startPlace, endPlace, cleanupPlace) := functionCallPlaces
  let (waitStartTransition, net) := net.addTransition transitionLabels.1
  let net := net.addArcPlaceTransition startPlace waitStartTransition
  let (waitEndTransition, net) := net.addTransition transitionLabels.2.1
  let net := net.addArcTransitionPlace waitEndTransition endPlace
  let net := match cleanupPlace with
    | some cleanupPlace =>
        let (unwindTransition, net) := net.addTransition transitionLabels.2.2
        let net := net.addArcPlaceTransition startPlace unwindTransition
        net.addArcTransitionPlace unwindTransition cleanupPlace
    | none => net
  ((waitStartTransition, waitEndTransition), net)

/-- Modelled from the spec: `translator/special_function.rs` is not under
    `src/`. An opaque call: one transition from the start place to the end
    place, and an unwind transition to the cleanup place when there is one.
    Returns the first. -/
def callForeignFunction (functionCallPlaces : FunctionPlaces) (transitionLabels : String × String)
    (net : PetriNet) : TransitionRef × PetriNet :=
  let (startPlace, endPlace, cleanupPlace) := functionCallPlaces
  let (transition, net) := net.addTransition transitionLabels.1
  let net := net.addArcPlaceTransition startPlace transition
  let net := net.addArcTransitionPlace transition endPlace
  let net := match cleanupPlace with
    | some cleanupPlace =>
        let (unwindTransition, net) := net.addTransition transitionLabels.2
        let net := net.addArcPlaceTransition startPlace unwindTransition
        net.addArcTransitionPlace unwindTransition cleanupPlace
    | none => net
  (transition, net)

/-- Modelled from the spec: `translator/sync/mutex.rs` is not under `src/`.
    A mutex is a pair of places, `unlocked` marked initially. -/
structure Mutex where
  unlocked : PlaceRef
  locked : PlaceRef
  deriving DecidableEq, Repr

namespace Mutex

/-- Modelled from the spec: make `t` take the mutex, from `unlocked` to
    `locked`. -/
def addLockGuard (mutex : Mutex) (t : TransitionRef) (net : PetriNet) : PetriNet :=
  (net.addArcPlaceTransition mutex.unlocked t).addArcTransitionPlace t mutex.locked

/-- Modelled from the spec: make `t` release the mutex, from `locked` back
    to `unlocked`. -/
def addUnlockGuard (mutex : Mutex) (t : TransitionRef) (net : PetriNet) : PetriNet :=
  (net.addArcPlaceTransition mutex.locked t).addArcTransitionPlace t mutex.unlocked

/-- The places a mutex guard wires. -/
def places (mutex : Mutex) : List PlaceRef := [mutex.unlocked, mutex.locked]

variable (mutex : Mutex) (t : TransitionRef) (net : PetriNet) (q : PlaceRef)

@[simp] theorem addLockGuard_places_length :
    (mutex.addLockGuard t net).places.length = net.places.length := by
  simp [addLockGuard]

@[simp] theorem addUnlockGuard_places_length :
    (mutex.addUnlockGuard t net).places.length = net.places.length := by
  simp [addUnlockGuard]

@[simp] theorem addLockGuard_transitions : (mutex.addLockGuard t net).transitions = net.transitions :=
  rfl

@[simp] theorem addUnlockGuard_transitions :
    (mutex.addUnlockGuard t net).transitions = net.transitions := rfl

theorem sameAt_addLockGuard (hq : q ∉ mutex.places) : net.SameAt (mutex.addLockGuard t net) q := by
  simp only [places, List.mem_cons, List.not_mem_nil, or_false, not_or] at hq
  exact (sameAt_addArcPlaceTransition _ _ _ _ hq.1).trans (sameAt_addArcTransitionPlace _ _ _ _ hq.2)

theorem sameAt_addUnlockGuard (hq : q ∉ mutex.places) :
    net.SameAt (mutex.addUnlockGuard t net) q := by
  simp only [places, List.mem_cons, List.not_mem_nil, or_false, not_or] at hq
  exact (sameAt_addArcPlaceTransition _ _ _ _ hq.2).trans (sameAt_addArcTransitionPlace _ _ _ _ hq.1)

end Mutex

/-- The places a call site wires. -/
def callPlaces (functionCallPlaces : FunctionPlaces) : List PlaceRef :=
  [functionCallPlaces.1, functionCallPlaces.2.1] ++ functionCallPlaces.2.2.toList

section

variable (fp : FunctionPlaces) (net : PetriNet) (q : PlaceRef)

/-- A wait call site's transitions are the net's next two. -/
theorem createWaitFunctionCall_fst (labels : String × String × String) :
    (createWaitFunctionCall fp labels net).1 =
      (⟨net.transitions.length⟩, ⟨net.transitions.length + 1⟩) := by
  simp [createWaitFunctionCall, addTransition]

/-- A wait call site appends its start and end transitions, and an unwind
    transition when it has a cleanup place, under the labels it is given. -/
theorem createWaitFunctionCall_transitions (labels : String × String × String) :
    (createWaitFunctionCall fp labels net).2.transitions =
      net.transitions ++ labels.1 :: labels.2.1 :: (fp.2.2.map fun _ => labels.2.2).toList := by
  obtain ⟨s, e, _ | c⟩ := fp <;> simp [createWaitFunctionCall, addTransition, pushTransition]

theorem le_createWaitFunctionCall_transitions_length (labels : String × String × String) :
    net.transitions.length + 2 ≤ (createWaitFunctionCall fp labels net).2.transitions.length := by
  simp [createWaitFunctionCall_transitions]

@[simp] theorem createWaitFunctionCall_places_length (labels : String × String × String) :
    (createWaitFunctionCall fp labels net).2.places.length = net.places.length := by
  obtain ⟨s, e, _ | c⟩ := fp <;> simp [createWaitFunctionCall, addTransition]

/-- A wait call site wires only its own places. -/
theorem sameAt_createWaitFunctionCall (labels : String × String × String)
    (hq : q ∉ callPlaces fp) : net.SameAt (createWaitFunctionCall fp labels net).2 q := by
  obtain ⟨s, e, _ | c⟩ := fp <;>
    simp only [callPlaces, List.cons_append, List.mem_cons, Option.toList, List.nil_append,
      List.not_mem_nil, or_false, not_or] at hq <;>
    constructor <;>
    simp [createWaitFunctionCall, addTransition, postset_addArcPlaceTransition_of_ne,
      preset_addArcTransitionPlace_of_ne, hq]

/-- An opaque call's transition is the net's next one. -/
theorem callForeignFunction_fst (labels : String × String) :
    (callForeignFunction fp labels net).1 = ⟨net.transitions.length⟩ := by
  simp [callForeignFunction, addTransition]

/-- An opaque call appends its transition, and an unwind transition when it
    has a cleanup place, under the labels it is given. -/
theorem callForeignFunction_transitions (labels : String × String) :
    (callForeignFunction fp labels net).2.transitions =
      net.transitions ++ labels.1 :: (fp.2.2.map fun _ => labels.2).toList := by
  obtain ⟨s, e, _ | c⟩ := fp <;> simp [callForeignFunction, addTransition, pushTransition]

theorem lt_callForeignFunction_transitions_length (labels : String × String) :
    net.transitions.length < (callForeignFunction fp labels net).2.transitions.length := by
  simp [callForeignFunction_transitions]

@[simp] theorem callForeignFunction_places_length (labels : String × String) :
    (callForeignFunction fp labels net).2.places.length = net.places.length := by
  obtain ⟨s, e, _ | c⟩ := fp <;> simp [callForeignFunction, addTransition]

/-- An opaque call wires only its own places. -/
theorem sameAt_callForeignFunction (labels : String × String) (hq : q ∉ callPlaces fp) :
    net.SameAt (callForeignFunction fp labels net).2 q := by
  obtain ⟨s, e, _ | c⟩ := fp <;>
    simp only [callPlaces, List.cons_append, List.mem_cons, Option.toList, List.nil_append,
      List.not_mem_nil, or_false, not_or] at hq <;>
    constructor <;>
    simp [callForeignFunction, addTransition, postset_addArcPlaceTransition_of_ne,
      preset_addArcTransitionPlace_of_ne, hq]

end

end Granite
