import Granite.Translator.Managers

/-!
# Translating Synchronization, Event by Event

The translator meets a program's synchronization one MIR statement or call
at a time, and each of them changes one state: the net under construction,
the condition variable and mutex managers, and the memory of the function
being translated. `Translator.step` is that change for each kind of `Event`:
the three condition variable calls of `condvar_manager.rs`, the mutex calls
and the drop of a place as the spec describes them, the assignments that
`sync.rs` links, and any other operation on the net, which is how the rest
of the translation (control flow, calls, threads) enters. `Translator.run`
applies events in order and stops at the first that fails, as the
translation stops at a panic.

The rest of the translation cannot see a condition variable's places: the
struct keeps them private. `Event.Avoids` states that as the one assumption
on a run: no call site and no other operation uses a gadget place as its
own. `Reachable` are the states a run from the translator on a given net
reaches under it; `reachable_iff_run` says they are the results of the runs
that `avoidsAlong` accepts, which can be computed.

Each event gets one `_eq_ok` lemma that says everything a successful step
does, and `Translator.Invariants` reads its invariants off them. A wait or a
notify is, on the net, a step of `Build.step` of the one condition variable
its first argument denotes (`step_condvarWait_eq_ok`), which connects the
translator to the results of `Condvar.Build`.

## Main definitions

* `NetOp`: A primitive operation on the net.
* `Translator`, `Event`, `Translator.step`: The translation, event by event.
* `Translator.run`: Events in order.
* `Event.Avoids`, `Translator.Reachable`, `Translator.avoidsAlong`: The runs
  considered.

## Theorems

* `Translator.reachable_iff_run`: The reachable states are the results of
  the accepted runs.
* `Translator.step_condvarWait_eq_ok`, `Translator.step_condvarNotifyOne_eq_ok`:
  A wait or notify call is a build step of the condition variable it names.
* `Translator.step_condvarNew_eq_ok` and the other `_eq_ok` lemmas: What each
  event does.
-/

namespace Granite

open PetriNet

/-- A primitive operation on the net, as the rest of the translation makes
    them. -/
inductive NetOp where
  | addPlace (label : String)
  | addTransition (label : String)
  | addArcPlaceTransition (p : PlaceRef) (t : TransitionRef)
  | addArcTransitionPlace (t : TransitionRef) (p : PlaceRef)
  | addToken (p : PlaceRef) (tokens : Nat)
  deriving Repr

namespace NetOp

/-- The operation, on a net. -/
def apply : NetOp → PetriNet → PetriNet
  | .addPlace label, net => (net.addPlace label).2
  | .addTransition label, net => (net.addTransition label).2
  | .addArcPlaceTransition p t, net => net.addArcPlaceTransition p t
  | .addArcTransitionPlace t p, net => net.addArcTransitionPlace t p
  | .addToken p tokens, net => net.addToken p tokens

/-- The place whose arcs or tokens the operation changes. -/
def place? : NetOp → Option PlaceRef
  | .addArcPlaceTransition p _ | .addArcTransitionPlace _ p | .addToken p _ => some p
  | .addPlace _ | .addTransition _ => none

variable (op : NetOp) (net : PetriNet)

theorem sameAt_apply {q : PlaceRef} (hq : op.place? ≠ some q) : net.SameAt (op.apply net) q := by
  cases op with
  | addPlace label => exact sameAt_pushPlace _ _ _
  | addTransition label => exact sameAt_pushTransition _ _ _
  | addArcPlaceTransition p t =>
      exact sameAt_addArcPlaceTransition _ _ _ _ fun h => hq (by simp [place?, h])
  | addArcTransitionPlace t p =>
      exact sameAt_addArcTransitionPlace _ _ _ _ fun h => hq (by simp [place?, h])
  | addToken p tokens => exact sameAt_addToken _ _ _ _ fun h => hq (by simp [place?, h])

theorem places_length_le_apply : net.places.length ≤ (op.apply net).places.length := by
  cases op <;> simp [apply, PetriNet.addPlace, PetriNet.addTransition]

theorem transitions_length_le_apply :
    net.transitions.length ≤ (op.apply net).transitions.length := by
  cases op <;> simp [apply, PetriNet.addPlace, PetriNet.addTransition]

end NetOp

/-- An assignment or a call's result that the linking code of `sync.rs`
    records in the memory. -/
inductive Assignment where
  /-- A copy, move or reference, handled by `link_if_sync_variable`. -/
  | link (placeToLink placeLinked : Sync.Place)
  /-- An aggregate, handled by `handle_aggregate_assignment`. -/
  | aggregate (place : Sync.Place) (operands : List Sync.Operand)
  /-- The result of a call with no body to descend into, handled by
      `link_return_value_if_sync_variable`. -/
  | returnValue (args : List Sync.Operand) (place : Sync.Place)

/-- The linking code an assignment goes to. -/
def Assignment.apply (placeTy : Sync.Place → String) :
    Assignment → Sync.Memory → Except Sync.Bug Sync.Memory
  | .link placeToLink placeLinked, memory =>
      Sync.linkIfSyncVariable placeTy placeToLink placeLinked memory
  | .aggregate place operands, memory => Sync.handleAggregateAssignment placeTy place operands memory
  | .returnValue args place, memory => Sync.linkReturnValueIfSyncVariable placeTy args place memory

/-- The linking code stores only values read from the memory, members of
    them, or aggregates of them. -/
theorem Assignment.all_apply {placeTy : Sync.Place → String} {P : Sync.Value → Prop}
    (hP : ∀ members, P (.aggregate members) ↔ ∀ value ∈ members, P value)
    {memory memory' : Sync.Memory} (h : memory.All P) :
    ∀ {a : Assignment}, a.apply placeTy memory = .ok memory' → memory'.All P
  | .link _ _, ha => Sync.linkIfSyncVariable_all hP h ha
  | .aggregate _ _, ha => Sync.handleAggregateAssignment_all hP h ha
  | .returnValue args _, ha => by
      simp only [apply, Sync.linkReturnValueIfSyncVariable] at ha
      split at ha
      · exact Sync.Memory.except_pure_eq_ok.1 ha ▸ h
      · exact Sync.linkIfSyncVariable_all hP h ha

/-- What the translator carries from one event to the next. -/
structure Translator where
  net : PetriNet
  condvarManager : CondvarManager
  mutexManager : MutexManager
  memory : Sync.Memory

/-- One thing the translator meets in the program. -/
inductive Event where
  /-- A call to `std::sync::Condvar::new` at the call site `functionCallPlaces`. -/
  | condvarNew (functionCallPlaces : FunctionPlaces) (destination : Sync.Place)
  /-- A call to `std::sync::Condvar::wait`. -/
  | condvarWait (functionCallPlaces : FunctionPlaces) (args : List Sync.Operand)
  /-- A call to `std::sync::Condvar::notify_one`. -/
  | condvarNotifyOne (functionCallPlaces : FunctionPlaces) (args : List Sync.Operand)
  /-- Modelled from the spec: a call to `std::sync::Mutex::new`. -/
  | mutexNew (destination : Sync.Place)
  /-- Modelled from the spec: a call to `std::sync::Mutex::lock`, whose call
      transition is `lockTransition`. -/
  | mutexLock (lockTransition : TransitionRef) (args : List Sync.Operand) (destination : Sync.Place)
  /-- The drop of `place` at the drop transition, which releases a guard's
      mutex (`handle_lock_guard_drop`, modelled from the spec). -/
  | drop (dropTransition : TransitionRef) (place : Sync.Place)
  /-- An assignment the linking code records. -/
  | assign (a : Assignment)
  /-- Any other operation on the net. -/
  | net (op : NetOp)

/-- The three calls the condition variable manager translates. -/
inductive CondvarCall where
  | new
  | wait
  | notifyOne
  deriving DecidableEq

/-- The condition variable call an event translates, if any. -/
def Event.condvarCall? : Event → Option CondvarCall
  | .condvarNew _ _ => some .new
  | .condvarWait _ _ => some .wait
  | .condvarNotifyOne _ _ => some .notifyOne
  | .mutexNew _ | .mutexLock _ _ _ | .drop _ _ | .assign _ | .net _ => none

namespace Translator

/-- The translator before the first event, on the net built so far. -/
def init (net : PetriNet) : Translator := ⟨net, CondvarManager.new, ⟨[]⟩, fun _ => none⟩

/-- The places of every condition variable. -/
def condvarPlaces (s : Translator) : List PlaceRef :=
  s.condvarManager.condvars.flatMap Condvar.places

/-- The places of every mutex. -/
def mutexPlaces (s : Translator) : List PlaceRef := s.mutexManager.mutexes.flatMap Mutex.places

variable (placeTy : Sync.Place → String)

/-- One event: a call is translated and its side effects applied, a mutex
    made, locked or released, an assignment linked, or the net extended. -/
def step (s : Translator) : Event → Except Sync.Bug Translator
  | .condvarNew functionCallPlaces destination =>
      let (_, net) := s.condvarManager.translateCallNew functionCallPlaces s.net
      let (condvarManager, net, memory) :=
        s.condvarManager.translateSideEffectsNew destination net s.memory
      pure ⟨net, condvarManager, s.mutexManager, memory⟩
  | .condvarWait functionCallPlaces args => do
      let (((waitStart, waitEnd), net), condvarManager) :=
        s.condvarManager.translateCallWait functionCallPlaces s.net
      let net ← condvarManager.translateSideEffectsWait args (waitStart, waitEnd) net
        s.mutexManager s.memory
      pure ⟨net, condvarManager, s.mutexManager, s.memory⟩
  | .condvarNotifyOne functionCallPlaces args => do
      let ((t, net), condvarManager) :=
        s.condvarManager.translateCallNotifyOne functionCallPlaces s.net
      let net ← condvarManager.translateSideEffectsNotifyOne args t net s.memory
      pure ⟨net, condvarManager, s.mutexManager, s.memory⟩
  | .mutexNew destination =>
      let (index, mutexManager, net) := s.mutexManager.addMutex s.net
      pure ⟨net, s.condvarManager, mutexManager, s.memory.linkPlaceToMutex destination index⟩
  | .mutexLock lockTransition args destination => do
      let mutexPlace ← Sync.extractNthArgument args 0
      let mutexRef ← s.memory.getLinkedMutex mutexPlace
      let net ← s.mutexManager.addLockGuard mutexRef lockTransition s.net
      pure ⟨net, s.condvarManager, s.mutexManager,
        s.memory.linkPlaceToLockGuard destination mutexRef⟩
  | .drop dropTransition place => do
      let net ← s.mutexManager.handleLockGuardDrop place dropTransition s.memory s.net
      pure ⟨net, s.condvarManager, s.mutexManager, s.memory⟩
  | .assign a => do
      let memory ← a.apply placeTy s.memory
      pure ⟨s.net, s.condvarManager, s.mutexManager, memory⟩
  | .net op => pure ⟨op.apply s.net, s.condvarManager, s.mutexManager, s.memory⟩

end Translator

/-- An event uses no gadget place of a condition variable as its own: not as
    a place of its call site, and not as the place of a net operation. -/
def Event.Avoids (s : Translator) : Event → Prop
  | .condvarNew functionCallPlaces _ | .condvarWait functionCallPlaces _
  | .condvarNotifyOne functionCallPlaces _ =>
      ∀ p ∈ s.condvarPlaces, p ∉ callPlaces functionCallPlaces
  | .net op => ∀ p ∈ s.condvarPlaces, op.place? ≠ some p
  | .mutexNew _ | .mutexLock _ _ _ | .drop _ _ | .assign _ => True

instance (s : Translator) : ∀ e, Decidable (Event.Avoids s e)
  | .condvarNew fp _ | .condvarWait fp _ | .condvarNotifyOne fp _ =>
      inferInstanceAs (Decidable (∀ p ∈ s.condvarPlaces, p ∉ callPlaces fp))
  | .net op => inferInstanceAs (Decidable (∀ p ∈ s.condvarPlaces, op.place? ≠ some p))
  | .mutexNew _ | .mutexLock _ _ _ | .drop _ _ | .assign _ =>
      isTrue trivial

namespace Translator

variable (placeTy : Sync.Place → String)

/-- The states a run of events reaches from the translator on `net₀`, every
    event avoiding the gadget places. -/
inductive Reachable (net₀ : PetriNet) : Translator → Prop where
  | init : Reachable net₀ (init net₀)
  | step {s s' : Translator} (e : Event) :
      Reachable net₀ s → e.Avoids s → s.step placeTy e = .ok s' → Reachable net₀ s'

/-- The events in order, as the translator meets them; the first that fails
    stops the translation. -/
def run (s : Translator) : List Event → Except Sync.Bug Translator
  | [] => pure s
  | e :: events => s.step placeTy e >>= fun s' => run s' events

/-- Every event of a run avoids the gadget places of the state it meets. -/
def avoidsAlong (s : Translator) : List Event → Bool
  | [] => true
  | e :: events => decide (e.Avoids s) && match s.step placeTy e with
    | .ok s' => avoidsAlong s' events
    | .error _ => true

section Run

variable {placeTy : Sync.Place → String} {net₀ : PetriNet} {s s' : Translator}

theorem run_append (events events' : List Event) :
    s.run placeTy (events ++ events') = s.run placeTy events >>= fun s' => s'.run placeTy events' := by
  induction events generalizing s with
  | nil => rfl
  | cons e events ih =>
      show (s.step placeTy e >>= fun s' => run placeTy s' (events ++ events')) =
        (s.step placeTy e >>= fun s' => run placeTy s' events) >>= fun s' => run placeTy s' events'
      cases s.step placeTy e with
      | error err => rfl
      | ok s₁ => exact ih

theorem avoidsAlong_append {events events' : List Event} (h : s.avoidsAlong placeTy events = true)
    (hrun : s.run placeTy events = .ok s') (h' : s'.avoidsAlong placeTy events' = true) :
    s.avoidsAlong placeTy (events ++ events') = true := by
  induction events generalizing s with
  | nil =>
      cases hrun
      exact h'
  | cons e events ih =>
      obtain ⟨s₁, h₁, hrun⟩ := Sync.Memory.except_bind_eq_ok.1 hrun
      simp only [avoidsAlong, Bool.and_eq_true, h₁] at h ⊢
      exact ⟨h.1, ih h.2 hrun⟩

/-- A run from a reachable state whose events avoid the gadget places ends in
    a reachable state. -/
theorem Reachable.run {events : List Event} (hs : Reachable placeTy net₀ s)
    (h : s.avoidsAlong placeTy events = true) (hrun : s.run placeTy events = .ok s') :
    Reachable placeTy net₀ s' := by
  induction events generalizing s with
  | nil =>
      cases hrun
      exact hs
  | cons e events ih =>
      obtain ⟨s₁, h₁, hrun⟩ := Sync.Memory.except_bind_eq_ok.1 hrun
      simp only [avoidsAlong, Bool.and_eq_true, decide_eq_true_eq, h₁] at h
      exact ih (hs.step e h.1 h₁) h.2 hrun

/-- The reachable states are the results of the runs from the translator on
    `net₀` whose events avoid the gadget places. -/
theorem reachable_iff_run :
    Reachable placeTy net₀ s' ↔ ∃ events, (init net₀).avoidsAlong placeTy events = true ∧
      (init net₀).run placeTy events = .ok s' := by
  constructor
  · intro hs
    induction hs with
    | init => exact ⟨[], rfl, rfl⟩
    | @step s₀ _ e _ hav hstep ih =>
        obtain ⟨events, h, hrun⟩ := ih
        refine ⟨events ++ [e], avoidsAlong_append h hrun ?_, ?_⟩
        · simp [avoidsAlong, hav, hstep]
        · rw [run_append, hrun]
          show (s₀.step placeTy e >>= fun s' => pure s') = _
          rw [hstep]
          rfl
  · rintro ⟨events, h, hrun⟩
    exact Reachable.init.run h hrun

end Run

section Inversion

variable {placeTy : Sync.Place → String} {s s' : Translator}

/-- A new condition variable: the call's transition, then the gadget,
    numbered by the vector's length and bound to the call's destination. -/
theorem step_condvarNew_eq_ok {fp : FunctionPlaces} {destination : Sync.Place} :
    s.step placeTy (.condvarNew fp destination) = .ok s' ↔
      let index := s.condvarManager.condvars.length
      let new := Condvar.new index (callForeignFunction fp (newTransitionLabels index) s.net).2
      s' = ⟨new.2, { s.condvarManager with condvars := s.condvarManager.condvars ++ [new.1] },
        s.mutexManager, s.memory.linkPlaceToCondvar destination index⟩ := by
  simp only [step, CondvarManager.translateCallNew, CondvarManager.translateSideEffectsNew,
    CondvarManager.addCondvar, Sync.Memory.except_pure_eq_ok]
  exact eq_comm

/-- A wait call is a wait step of the condition variable its first argument
    denotes, releasing and retaking the mutex of the guard its second
    argument denotes; it fails when either argument denotes nothing of its
    kind. -/
theorem step_condvarWait_eq_ok {fp : FunctionPlaces} {args : List Sync.Operand} :
    s.step placeTy (.condvarWait fp args) = .ok s' ↔
      ∃ mutex cv, (∃ guard mutexRef, Sync.extractNthArgument args 1 = .ok guard ∧
          s.memory.getLinkedLockGuard guard = .ok mutexRef ∧
          s.mutexManager.mutexes[mutexRef]? = some mutex) ∧
        (∃ self condvarRef, Sync.extractNthArgument args 0 = .ok self ∧
          s.memory.getLinkedCondvar self = .ok condvarRef ∧
          s.condvarManager.condvars[condvarRef]? = some cv) ∧
        s' = ⟨(Build.step cv ⟨s.net, [], []⟩
            (.wait fp (waitTransitionLabels s.condvarManager.waitCounter) mutex)).net,
          { s.condvarManager with waitCounter := s.condvarManager.waitCounter + 1 },
          s.mutexManager, s.memory⟩ := by
  simp only [step, CondvarManager.translateCallWait, CondvarManager.translateSideEffectsWait,
    Sync.Memory.except_bind_eq_ok, MutexManager.addUnlockGuard_eq_ok,
    MutexManager.addLockGuard_eq_ok, CondvarManager.linkToWaitCall_eq_ok,
    Sync.Memory.except_pure_eq_ok]
  constructor
  · rintro ⟨_, ⟨guard, hg, mutexRef, hm, _, ⟨mutex, hmx, rfl⟩, _, ⟨mutex', hmx', rfl⟩, self, hs,
      condvarRef, hc, cv, hcv, rfl⟩, rfl⟩
    obtain rfl : mutex = mutex' := Option.some.inj (hmx.symm.trans hmx')
    exact ⟨mutex, cv, ⟨guard, mutexRef, hg, hm, hmx⟩, ⟨self, condvarRef, hs, hc, hcv⟩, rfl⟩
  · rintro ⟨mutex, cv, ⟨guard, mutexRef, hg, hm, hmx⟩, ⟨self, condvarRef, hs, hc, hcv⟩, rfl⟩
    exact ⟨_, ⟨guard, hg, mutexRef, hm, _, ⟨mutex, hmx, rfl⟩, _, ⟨mutex, hmx, rfl⟩, self, hs,
      condvarRef, hc, cv, hcv, rfl⟩, rfl⟩

/-- A notify call is a notify step of the condition variable its first
    argument denotes; it fails when the argument denotes none. -/
theorem step_condvarNotifyOne_eq_ok {fp : FunctionPlaces} {args : List Sync.Operand} :
    s.step placeTy (.condvarNotifyOne fp args) = .ok s' ↔
      ∃ cv, (∃ self condvarRef, Sync.extractNthArgument args 0 = .ok self ∧
          s.memory.getLinkedCondvar self = .ok condvarRef ∧
          s.condvarManager.condvars[condvarRef]? = some cv) ∧
        s' = ⟨(Build.step cv ⟨s.net, [], []⟩
            (.notifyOne fp (notifyOneTransitionLabels s.condvarManager.notifyOneCounter))).net,
          { s.condvarManager with notifyOneCounter := s.condvarManager.notifyOneCounter + 1 },
          s.mutexManager, s.memory⟩ := by
  simp only [step, CondvarManager.translateCallNotifyOne,
    CondvarManager.translateSideEffectsNotifyOne, Sync.Memory.except_bind_eq_ok,
    CondvarManager.linkToNotifyOneCall_eq_ok, Sync.Memory.except_pure_eq_ok]
  constructor
  · rintro ⟨_, ⟨self, hs, condvarRef, hc, cv, hcv, rfl⟩, rfl⟩
    exact ⟨cv, ⟨self, condvarRef, hs, hc, hcv⟩, rfl⟩
  · rintro ⟨cv, ⟨self, condvarRef, hs, hc, hcv⟩, rfl⟩
    exact ⟨_, ⟨self, hs, condvarRef, hc, cv, hcv, rfl⟩, rfl⟩

theorem step_mutexNew_eq_ok {destination : Sync.Place} :
    s.step placeTy (.mutexNew destination) = .ok s' ↔
      s' = ⟨(s.mutexManager.addMutex s.net).2.2, s.condvarManager,
        (s.mutexManager.addMutex s.net).2.1,
        s.memory.linkPlaceToMutex destination s.mutexManager.mutexes.length⟩ := by
  simp only [step, Sync.Memory.except_pure_eq_ok]
  exact eq_comm

/-- A lock takes the mutex its first argument denotes, and its destination
    denotes a guard of that mutex. -/
theorem step_mutexLock_eq_ok {t : TransitionRef} {args : List Sync.Operand}
    {destination : Sync.Place} :
    s.step placeTy (.mutexLock t args destination) = .ok s' ↔
      ∃ place mutexRef mutex, Sync.extractNthArgument args 0 = .ok place ∧
        s.memory.getLinkedMutex place = .ok mutexRef ∧
        s.mutexManager.mutexes[mutexRef]? = some mutex ∧
        s' = ⟨mutex.addLockGuard t s.net, s.condvarManager, s.mutexManager,
          s.memory.linkPlaceToLockGuard destination mutexRef⟩ := by
  simp only [step, Sync.Memory.except_bind_eq_ok, MutexManager.addLockGuard_eq_ok,
    Sync.Memory.except_pure_eq_ok]
  constructor
  · rintro ⟨place, hp, mutexRef, hm, _, ⟨mutex, hmx, rfl⟩, rfl⟩
    exact ⟨place, mutexRef, mutex, hp, hm, hmx, rfl⟩
  · rintro ⟨place, mutexRef, mutex, hp, hm, hmx, rfl⟩
    exact ⟨place, hp, mutexRef, hm, _, ⟨mutex, hmx, rfl⟩, rfl⟩

/-- A drop is handled by the mutex manager. -/
theorem step_drop_eq_ok {t : TransitionRef} {place : Sync.Place} :
    s.step placeTy (.drop t place) = .ok s' ↔
      ∃ net, s.mutexManager.handleLockGuardDrop place t s.memory s.net = .ok net ∧
        s' = { s with net := net } := by
  simp only [step, Sync.Memory.except_bind_eq_ok, Sync.Memory.except_pure_eq_ok]
  exact exists_congr fun _ => and_congr_right fun _ => eq_comm

theorem step_assign_eq_ok {a : Assignment} :
    s.step placeTy (.assign a) = .ok s' ↔
      ∃ memory, a.apply placeTy s.memory = .ok memory ∧ s' = { s with memory := memory } := by
  simp only [step, Sync.Memory.except_bind_eq_ok, Sync.Memory.except_pure_eq_ok]
  exact exists_congr fun _ => and_congr_right fun _ => eq_comm

theorem step_net_eq_ok {op : NetOp} :
    s.step placeTy (.net op) = .ok s' ↔ s' = { s with net := op.apply s.net } := by
  simp only [step, Sync.Memory.except_pure_eq_ok]
  exact eq_comm

end Inversion

end Translator

end Granite
