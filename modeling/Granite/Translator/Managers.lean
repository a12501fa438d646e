import Granite.Condvar.Build
import Granite.Sync.Link

/-!
# The Condition Variable and Mutex Managers

The translator keeps every condition variable it has met in a
`CondvarManager` (`translator/sync/condvar_manager.rs`): a vector of gadgets,
indexed by the references the memory stores, and two counters that number
the wait and notify calls for their labels. A call is translated in two
parts. `translate_call_*` builds the call's transitions; then
`translate_side_effects_*` reads the call's arguments from the memory and
wires the transitions to the gadgets: a new condition variable is added and
bound to the call's destination, a wait releases and retakes the mutex of
its guard and is linked to its condition variable, a notify is linked to
its condition variable.

A reference is only an index, so `get_condvar_from_ref` can fail; it panics
when the index is past the vector. Whether that can happen depends on what
the memory holds, which `Translator.Invariants` follows over whole runs.

The mutex manager (`MutexManager` of `translator/sync`) and the labels of
`naming/condvar.rs` are not under `src/` and are modelled from the spec: a
mutex is its pair of places, created with a token in `unlocked`, and the
manager adds lock and unlock arcs to the mutex a reference names. The drop
of a place that denotes a guard releases its mutex; the drop of any other
place leaves the mutexes alone.

## Main definitions

* `CondvarManager`: The vector of condition variables and the counters.
* `CondvarManager.translateCallWait`, `CondvarManager.translateSideEffectsWait`
  and their siblings: Translating the three calls.
* `CondvarManager.getCondvarFromRef`: The lookup that can panic.
* `MutexManager`, `MutexManager.handleLockGuardDrop`: The mutexes, modelled
  from the spec.

## Theorems

* `CondvarManager.getCondvarFromRef_eq_ok`: The lookup succeeds exactly on
  the indices of the vector.
* `CondvarManager.linkToWaitCall_eq_ok`, `CondvarManager.linkToNotifyOneCall_eq_ok`:
  What linking a call does.
* `MutexManager.addMutex_mutexes`, `MutexManager.sameAt_addMutex`: A new
  mutex takes two new places and touches no other.
* `MutexManager.handleLockGuardDrop_eq_ok`: A drop unlocks exactly when the
  dropped place denotes a guard.
-/

namespace Granite

open PetriNet

/-- A reference to a condition variable: its index in the manager. -/
structure CondvarRef where
  index : Nat
deriving DecidableEq, Repr

/-- Modelled from the spec: `naming/condvar.rs` is not under `src/`. The call
    transition of the `index`-th `std::sync::Condvar::new`, and its unwind
    variant. -/
def newTransitionLabels (index : Nat) : String × String :=
  (s!"std_sync_Condvar_new_{index}", s!"std_sync_Condvar_new_{index}_UNWIND")

/-- Modelled from the spec: the start, end and unwind transitions of the
    `index`-th wait call. -/
def waitTransitionLabels (index : Nat) : String × String × String :=
  (s!"std_sync_Condvar_wait_{index}_START", s!"std_sync_Condvar_wait_{index}_END",
    s!"std_sync_Condvar_wait_{index}_UNWIND")

/-- Modelled from the spec: the call transition of the `index`-th notify
    call, and its unwind variant. -/
def notifyOneTransitionLabels (index : Nat) : String × String :=
  (s!"std_sync_Condvar_notify_one_{index}", s!"std_sync_Condvar_notify_one_{index}_UNWIND")

/-- The condition variables met so far, and the number of wait and notify
    calls translated. -/
structure CondvarManager where
  condvars : List Condvar
  waitCounter : Nat
  notifyOneCounter : Nat

/-- Modelled from the spec: the mutexes met so far. -/
structure MutexManager where
  mutexes : List Mutex

/-- Modelled from the spec: the places of mutex `index`. -/
def mutexPlaceLabels (index : Nat) : String × String :=
  (s!"MUTEX_{index}_UNLOCKED", s!"MUTEX_{index}_LOCKED")

namespace MutexManager

/-- Modelled from the spec: a new mutex, its two places, `unlocked` marked. -/
def addMutex (self : MutexManager) (net : PetriNet) : Nat × MutexManager × PetriNet :=
  let index := self.mutexes.length
  let (unlockedLabel, lockedLabel) := mutexPlaceLabels index
  let (unlocked, net) := net.addPlace unlockedLabel
  let (locked, net) := net.addPlace lockedLabel
  let net := net.addToken unlocked 1
  (index, ⟨self.mutexes ++ [⟨unlocked, locked⟩]⟩, net)

/-- Modelled from the spec: the mutex a reference names. -/
def getMutexFromRef (self : MutexManager) (mutexRef : Nat) : Except Sync.Bug Mutex :=
  match self.mutexes[mutexRef]? with
  | some mutex => .ok mutex
  | none => .error (.invalidMutexRef mutexRef)

/-- Modelled from the spec: `t` takes the mutex a reference names. -/
def addLockGuard (self : MutexManager) (mutexRef : Nat) (t : TransitionRef) (net : PetriNet) :
    Except Sync.Bug PetriNet := do
  let mutex ← self.getMutexFromRef mutexRef
  pure (mutex.addLockGuard t net)

/-- Modelled from the spec: `t` releases the mutex a reference names. -/
def addUnlockGuard (self : MutexManager) (mutexRef : Nat) (t : TransitionRef) (net : PetriNet) :
    Except Sync.Bug PetriNet := do
  let mutex ← self.getMutexFromRef mutexRef
  pure (mutex.addUnlockGuard t net)

/-- Modelled from the spec: at the drop of `place`, the drop transition `t`
    releases the mutex of the guard `place` denotes; a place that denotes no
    guard is dropped with no effect on the mutexes. -/
def handleLockGuardDrop (self : MutexManager) (place : Sync.Place) (t : TransitionRef)
    (memory : Sync.Memory) (net : PetriNet) : Except Sync.Bug PetriNet :=
  match memory.getLinkedLockGuard place with
  | .ok mutexRef => self.addUnlockGuard mutexRef t net
  | .error _ => pure net

end MutexManager

namespace CondvarManager

/-- `CondvarManager::new`: no condition variable and no call yet. -/
def new : CondvarManager := ⟨[], 0, 0⟩

/-- A call to `std::sync::Condvar::new`, as an opaque call labelled after the
    condition variable it creates. -/
def translateCallNew (self : CondvarManager) (functionCallPlaces : FunctionPlaces)
    (net : PetriNet) : TransitionRef × PetriNet :=
  let index := self.condvars.length
  callForeignFunction functionCallPlaces (newTransitionLabels index) net

/-- A call to `std::sync::Condvar::wait`, labelled by the wait counter. -/
def translateCallWait (self : CondvarManager) (functionCallPlaces : FunctionPlaces)
    (net : PetriNet) : ((TransitionRef × TransitionRef) × PetriNet) × CondvarManager :=
  let index := self.waitCounter
  (createWaitFunctionCall functionCallPlaces (waitTransitionLabels index) net,
    { self with waitCounter := index + 1 })

/-- A call to `std::sync::Condvar::notify_one`, labelled by the notify
    counter. -/
def translateCallNotifyOne (self : CondvarManager) (functionCallPlaces : FunctionPlaces)
    (net : PetriNet) : (TransitionRef × PetriNet) × CondvarManager :=
  let index := self.notifyOneCounter
  (callForeignFunction functionCallPlaces (notifyOneTransitionLabels index) net,
    { self with notifyOneCounter := index + 1 })

/-- A new condition variable, numbered by its place in the vector. -/
def addCondvar (self : CondvarManager) (net : PetriNet) :
    CondvarRef × CondvarManager × PetriNet :=
  let index := self.condvars.length
  let (condvar, net) := Condvar.new index net
  (⟨index⟩, { self with condvars := self.condvars ++ [condvar] }, net)

/-- The condition variable a reference names, or the panic. -/
def getCondvarFromRef (self : CondvarManager) (condvarRef : CondvarRef) :
    Except Sync.Bug Condvar :=
  match self.condvars[condvarRef.index]? with
  | some condvar => .ok condvar
  | none => .error (.invalidCondvarRef condvarRef.index)

/-- Link the condition variable a reference names to a wait call. -/
def linkToWaitCall (self : CondvarManager) (condvarRef : CondvarRef)
    (waitTransitions : TransitionRef × TransitionRef) (net : PetriNet) :
    Except Sync.Bug PetriNet := do
  let condvar ← self.getCondvarFromRef condvarRef
  pure (condvar.linkToWaitCall waitTransitions.1 waitTransitions.2 net)

/-- Link the condition variable a reference names to a notify call. -/
def linkToNotifyOneCall (self : CondvarManager) (condvarRef : CondvarRef)
    (signalTransition : TransitionRef) (net : PetriNet) : Except Sync.Bug PetriNet := do
  let condvar ← self.getCondvarFromRef condvarRef
  pure (condvar.linkToNotifyOneCall signalTransition net)

/-- The side effects of `std::sync::Condvar::new`: a new condition variable,
    which the call's return value denotes. -/
def translateSideEffectsNew (self : CondvarManager) (returnValue : Sync.Place) (net : PetriNet)
    (memory : Sync.Memory) : CondvarManager × PetriNet × Sync.Memory :=
  let (condvarRef, self, net) := self.addCondvar net
  (self, net, memory.linkPlaceToCondvar returnValue condvarRef.index)

/-- The side effects of `std::sync::Condvar::wait`: the mutex of the guard in
    the second argument is released at the start and retaken at the end, and
    the condition variable of the first argument is linked to the call. -/
def translateSideEffectsWait (self : CondvarManager) (args : List Sync.Operand)
    (waitTransitions : TransitionRef × TransitionRef) (net : PetriNet)
    (mutexManager : MutexManager) (memory : Sync.Memory) : Except Sync.Bug PetriNet := do
  let lockGuard ← Sync.extractNthArgument args 1
  let mutexRef ← memory.getLinkedLockGuard lockGuard
  let net ← mutexManager.addUnlockGuard mutexRef waitTransitions.1 net
  let net ← mutexManager.addLockGuard mutexRef waitTransitions.2 net
  let selfRef ← Sync.extractNthArgument args 0
  let condvarRef ← memory.getLinkedCondvar selfRef
  self.linkToWaitCall ⟨condvarRef⟩ waitTransitions net

/-- The side effects of `std::sync::Condvar::notify_one`: the condition
    variable of the first argument is linked to the call. -/
def translateSideEffectsNotifyOne (self : CondvarManager) (args : List Sync.Operand)
    (notifyOneTransition : TransitionRef) (net : PetriNet) (memory : Sync.Memory) :
    Except Sync.Bug PetriNet := do
  let selfRef ← Sync.extractNthArgument args 0
  let condvarRef ← memory.getLinkedCondvar selfRef
  self.linkToNotifyOneCall ⟨condvarRef⟩ notifyOneTransition net

variable {self : CondvarManager} {condvarRef : CondvarRef} {condvar : Condvar} {net net' : PetriNet}

theorem getCondvarFromRef_eq_ok :
    self.getCondvarFromRef condvarRef = .ok condvar ↔ self.condvars[condvarRef.index]? = some condvar := by
  unfold getCondvarFromRef
  cases h : self.condvars[condvarRef.index]? <;> simp

theorem linkToWaitCall_eq_ok {waitTransitions : TransitionRef × TransitionRef} :
    self.linkToWaitCall condvarRef waitTransitions net = .ok net' ↔
      ∃ condvar, self.condvars[condvarRef.index]? = some condvar ∧
        condvar.linkToWaitCall waitTransitions.1 waitTransitions.2 net = net' := by
  simp only [linkToWaitCall, Sync.Memory.except_bind_eq_ok, getCondvarFromRef_eq_ok,
    Sync.Memory.except_pure_eq_ok]

theorem linkToNotifyOneCall_eq_ok {t : TransitionRef} :
    self.linkToNotifyOneCall condvarRef t net = .ok net' ↔
      ∃ condvar, self.condvars[condvarRef.index]? = some condvar ∧
        condvar.linkToNotifyOneCall t net = net' := by
  simp only [linkToNotifyOneCall, Sync.Memory.except_bind_eq_ok, getCondvarFromRef_eq_ok,
    Sync.Memory.except_pure_eq_ok]

end CondvarManager

namespace MutexManager

variable {self : MutexManager} {mutexRef : Nat} {t : TransitionRef} {net net' : PetriNet}

theorem getMutexFromRef_eq_ok {mutex : Mutex} :
    self.getMutexFromRef mutexRef = .ok mutex ↔ self.mutexes[mutexRef]? = some mutex := by
  unfold getMutexFromRef
  cases h : self.mutexes[mutexRef]? <;> simp

theorem addLockGuard_eq_ok :
    self.addLockGuard mutexRef t net = .ok net' ↔
      ∃ mutex, self.mutexes[mutexRef]? = some mutex ∧ mutex.addLockGuard t net = net' := by
  simp only [addLockGuard, Sync.Memory.except_bind_eq_ok, getMutexFromRef_eq_ok,
    Sync.Memory.except_pure_eq_ok]

theorem addUnlockGuard_eq_ok :
    self.addUnlockGuard mutexRef t net = .ok net' ↔
      ∃ mutex, self.mutexes[mutexRef]? = some mutex ∧ mutex.addUnlockGuard t net = net' := by
  simp only [addUnlockGuard, Sync.Memory.except_bind_eq_ok, getMutexFromRef_eq_ok,
    Sync.Memory.except_pure_eq_ok]

/-- A drop releases the mutex of the guard the place denotes, or changes
    nothing when the place denotes no guard. -/
theorem handleLockGuardDrop_eq_ok {place : Sync.Place} {memory : Sync.Memory} :
    self.handleLockGuardDrop place t memory net = .ok net' ↔
      (∃ mutexRef mutex, memory.getLinkedLockGuard place = .ok mutexRef ∧
        self.mutexes[mutexRef]? = some mutex ∧ mutex.addUnlockGuard t net = net') ∨
      ((∀ mutexRef, memory.getLinkedLockGuard place ≠ .ok mutexRef) ∧ net = net') := by
  unfold handleLockGuardDrop
  cases h : memory.getLinkedLockGuard place <;> simp [addUnlockGuard_eq_ok]

/-- A new mutex is numbered by the vector's length and takes the net's next
    two places. -/
theorem addMutex_mutexes :
    (self.addMutex net).2.1.mutexes =
      self.mutexes ++ [⟨⟨net.places.length⟩, ⟨net.places.length + 1⟩⟩] := by
  simp [addMutex, addPlace]

@[simp] theorem addMutex_places_length :
    (self.addMutex net).2.2.places.length = net.places.length + 2 := by
  simp [addMutex, addPlace]

@[simp] theorem addMutex_transitions : (self.addMutex net).2.2.transitions = net.transitions :=
  rfl

/-- A new mutex touches only its own places. -/
theorem sameAt_addMutex {q : PlaceRef} (hq : net.HasPlace q) : net.SameAt (self.addMutex net).2.2 q :=
  ((sameAt_pushPlace _ _ _).trans (sameAt_pushPlace _ _ _)).trans
    (sameAt_addToken _ _ _ _ fun h => by simp [h, HasPlace] at hq)

end MutexManager

end Granite
