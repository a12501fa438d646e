import Granite.Translator.Invariants

/-!
# Mutual Exclusion of the Mutexes

The mutex gadget is two places, `unlocked` with a token and `locked`
without. Every transition that takes the mutex moves the token from
`unlocked` to `locked`, and every one that releases it moves it back: a lock
call, the drop of a guard, and the start and the end of a condition variable
wait. So the two places hold one token in every marking a firing sequence
reaches, and `locked` at most one: at most one thread holds the mutex.

`TokenPair` is that place invariant, with the arcs in crossed pairs: what a
transition takes from one place it gives to the other, and the two places
hold one token; a run keeps their total by `run_pair_invariant`.
`MutexesSafe` asks it of every mutex of a list, on distinct places of the
net, with the token in `unlocked` at the start. Moving the token of one
mutex leaves the others alone since no two share a place, and every other
event leaves all of them alone, provided it uses no mutex place as its own
(`Event.AvoidsMutexes`, the counterpart for mutexes of `Event.Avoids`).
`MutexReachable` are the states of the runs whose events avoid the places of
both kinds of gadget.

The crossed arcs say more than the total: a firing that takes the token from
`unlocked` puts it in `locked`, and the other way round. So the two places
refine a lock (`lockStep`), acquired only while free and released only while
held: every firing sequence, with each transition read by the place it takes
from (`PetriNet.pairAction`), is a run of the lock from free
(`MutexReachable.mutex_refines`), and acquires and releases alternate.

## Main definitions

* `LockAction`, `lockStep`, `lockRun`: The abstract lock.
* `PetriNet.pairAction`, `LockAbstracts`: The part a transition plays at a
  mutex, and the lock state its places stand for.
* `TokenPair`: Two places that pass one token between them.
* `MutexesSafe`: Every mutex of a list is such a pair, on places of its own.
* `Event.AvoidsMutexes`, `Translator.MutexReachable`: The runs that leave
  the mutex places to the mutex manager.

## Theorems

* `TokenPair.addArcs`: An arc from one place to a transition and one from
  it to the other keep the pair.
* `TokenPair.fire_abstracts`, `TokenPair.run_abstracts`: A pair refines a
  lock.
* `MutexesSafe.addLockGuard`, `MutexesSafe.addUnlockGuard`,
  `MutexesSafe.addMutex`: The mutex manager's operations keep every mutex.
* `Translator.mutexesSafe_step`, `Translator.MutexReachable.mutexesSafe`:
  Every state of such a run keeps them.
* `Translator.MutexReachable.unlocked_add_locked`: Along every firing
  sequence each mutex holds one token, so `locked` at most one.
* `Translator.MutexReachable.mutex_refines`: Every mutex refines a lock.
-/

namespace Granite

open PetriNet

/-- What can happen to a lock. -/
inductive LockAction
  | acquire | release
  deriving DecidableEq, Repr

/-- One action on a lock that is `held` or free, or `none` where the lock
    does not allow it: it is acquired only while free and released only
    while held. -/
def lockStep (held : Bool) : LockAction → Option Bool
  | .acquire => if held then none else some true
  | .release => if held then some false else none

/-- The actions in order, or `none` at the first one the lock does not
    allow. -/
def lockRun (held : Bool) (as : List LockAction) : Option Bool :=
  as.foldlM lockStep held

/-- The part the transition `t` plays at the places `p` and `q`, read off the
    net's arcs: what takes from `p` acquires the lock, and what takes from
    `q` releases it. -/
def PetriNet.pairAction (net : PetriNet) (p q : PlaceRef) (t : TransitionRef) :
    Option LockAction :=
  if t ∈ net.postset p then some .acquire
  else if t ∈ net.postset q then some .release
  else none

/-- The two places hold the lock's state: the token in `q` while it is held,
    in `p` while it is free. -/
structure LockAbstracts (m : Marking) (p q : PlaceRef) (held : Bool) : Prop where
  locked : m q = held.toNat
  unlocked : m p + held.toNat = 1

/-- Every transition that takes from `p` gives as much to `q`, and the other
    way round, and the two places hold one token together. -/
structure TokenPair (net : PetriNet) (p q : PlaceRef) : Prop where
  arcs : ∀ t, net.consumes p t = net.produces t q ∧ net.consumes q t = net.produces t p
  marking : net.marking p + net.marking q = 1

namespace TokenPair

variable {net net' : PetriNet} {p q : PlaceRef} {m m₀ : Marking} {held : Bool}
  {t : TransitionRef} {σ : List TransitionRef}

theorem symm (h : TokenPair net p q) : TokenPair net q p :=
  ⟨fun t => (h.arcs t).symm, by have := h.marking; omega⟩

/-- Every transition gives back to the two places together what it takes
    from them. -/
theorem balanced (h : TokenPair net p q) (t : TransitionRef) :
    net.consumes p t + net.consumes q t = net.produces t p + net.produces t q := by
  have := h.arcs t
  omega

/-- A change of the net away from both places keeps the pair. -/
theorem frame (h : TokenPair net p q) (hp : net.SameAt net' p) (hq : net.SameAt net' q) :
    TokenPair net' p q :=
  ⟨fun t => by
    simpa only [consumes, produces, hp.postset, hq.postset, hp.preset, hq.preset] using h.arcs t,
    by rw [hp.marking, hq.marking]; exact h.marking⟩

/-- An arc from `p` to `t` and one from `t` to `q` keep the pair: `t` moves
    the token from `p` to `q`. -/
theorem addArcs (h : TokenPair net p q) (hpq : p ≠ q) (hp : net.HasPlace p)
    (hq : net.HasPlace q) (t : TransitionRef) :
    TokenPair ((net.addArcPlaceTransition p t).addArcTransitionPlace t q) p q := by
  have hq' : (net.addArcPlaceTransition p t).HasPlace q := by simpa [HasPlace] using hq
  refine ⟨fun t' => ?_, by simpa using h.marking⟩
  have := h.arcs t'
  simp only [consumes, produces, postset_addArcTransitionPlace,
    postset_addArcPlaceTransition_self _ _ _ hp, postset_addArcPlaceTransition_of_ne _ _ _ _ hpq.symm,
    preset_addArcTransitionPlace_self _ _ _ hq', preset_addArcTransitionPlace_of_ne _ _ _ _ hpq,
    preset_addArcPlaceTransition, List.count_append] at this ⊢
  omega

/-- A pair with its token in `p` stands for a free lock. -/
theorem abstracts_marking (h : TokenPair net p q) (hq : net.marking q = 0) :
    LockAbstracts net.marking p q false :=
  ⟨hq, by have := h.marking; simp only [Bool.toNat_false]; omega⟩

/-- Firing an enabled transition is the lock action `pairAction` reads off
    the arcs, or none: a transition that takes the token from one place
    gives it to the other. -/
theorem fire_abstracts (h : TokenPair net p q) (hm : LockAbstracts m p q held)
    (hen : net.enabled m t = true) :
    ∃ held', (net.pairAction p q t).elim (some held) (lockStep held) = some held' ∧
      LockAbstracts (net.fire m t) p q held' := by
  have cp := consumes_le_of_enabled hen p
  have cq := consumes_le_of_enabled hen q
  obtain ⟨hpq, hqp⟩ := h.arcs t
  have fp : net.fire m t p = m p - net.consumes p t + net.consumes q t := by
    simp only [fire, ← hqp]
  have fq : net.fire m t q = m q - net.consumes q t + net.consumes p t := by
    simp only [fire, ← hpq]
  obtain ⟨hl, hu⟩ := hm
  simp only [pairAction, mem_postset_iff]
  cases held <;> simp only [Bool.toNat_false, Bool.toNat_true, Nat.add_zero] at hl hu
  · -- free: the token is in `p`, and `t` takes nothing from `q`
    by_cases ha : 0 < net.consumes p t
    · -- `t` moves the token from `p` to `q`: it acquires the lock
      rw [if_pos ha]
      exact ⟨true, rfl, by simp only [fq, Bool.toNat_true]; omega,
        by simp only [fp, Bool.toNat_true]; omega⟩
    · rw [if_neg ha, if_neg (by omega)]
      exact ⟨false, rfl, by simp only [fq, Bool.toNat_false]; omega,
        by simp only [fp, Bool.toNat_false]; omega⟩
  · -- held: the token is in `q`, and `t` takes nothing from `p`
    rw [if_neg (by omega)]
    by_cases hr : 0 < net.consumes q t
    · -- `t` moves the token from `q` to `p`: it releases the lock
      rw [if_pos hr]
      exact ⟨false, rfl, by simp only [fq, Bool.toNat_false]; omega,
        by simp only [fp, Bool.toNat_false]; omega⟩
    · rw [if_neg hr]
      exact ⟨true, rfl, by simp only [fq, Bool.toNat_true]; omega,
        by simp only [fp, Bool.toNat_true]; omega⟩

/-- Every firing sequence from a marking the lock's state stands for is a
    run of the lock, over the parts its transitions play. -/
theorem run_abstracts (h : TokenPair net p q) (hm : LockAbstracts m₀ p q held)
    (hrun : net.run m₀ σ = some m) :
    ∃ held', lockRun held (σ.filterMap (net.pairAction p q)) = some held' ∧
      LockAbstracts m p q held' :=
  net.run_simulates (fun _ _ _ hm hen => h.fire_abstracts hm hen) hm hrun

end TokenPair

/-- Every mutex of `mutexes` passes one token between its two places, and
    holds it in `unlocked` in the net's marking, and no two of its places, of
    one mutex or of two, are the same place of the net. -/
structure MutexesSafe (net : PetriNet) (mutexes : List Mutex) : Prop where
  nodup : (mutexes.flatMap Mutex.places).Nodup
  hasPlace : ∀ p ∈ mutexes.flatMap Mutex.places, net.HasPlace p
  tokenPair : ∀ mutex ∈ mutexes, TokenPair net mutex.unlocked mutex.locked
  free : ∀ mutex ∈ mutexes, net.marking mutex.locked = 0

namespace MutexesSafe

variable {net net' : PetriNet} {mutexes : List Mutex} {mutex mutex₀ : Mutex}

theorem mem_places (hm : mutex ∈ mutexes) {p : PlaceRef} (hp : p ∈ mutex.places) :
    p ∈ mutexes.flatMap Mutex.places :=
  List.mem_flatMap.2 ⟨mutex, hm, hp⟩

theorem unlocked_ne_locked (h : MutexesSafe net mutexes) (hm : mutex ∈ mutexes) :
    mutex.unlocked ≠ mutex.locked := by
  simpa [Mutex.places] using (List.nodup_flatMap.1 h.nodup).1 mutex hm

/-- Two mutexes of the list share no place. -/
theorem not_mem_places (h : MutexesSafe net mutexes) (hm : mutex ∈ mutexes)
    (hm₀ : mutex₀ ∈ mutexes) (hne : mutex ≠ mutex₀) {p : PlaceRef} (hp : p ∈ mutex.places) :
    p ∉ mutex₀.places :=
  (List.nodup_flatMap.1 h.nodup).2.forall (fun _ _ => List.disjoint_symm) hm hm₀ hne hp

/-- A change of the net away from the mutex places, that removes no place,
    keeps every mutex. -/
theorem frame (h : MutexesSafe net mutexes)
    (hs : ∀ p ∈ mutexes.flatMap Mutex.places, net.SameAt net' p)
    (hp : net.places.length ≤ net'.places.length) : MutexesSafe net' mutexes :=
  ⟨h.nodup, fun p hp' => Nat.lt_of_lt_of_le (h.hasPlace p hp') hp, fun mutex hm =>
    (h.tokenPair mutex hm).frame (hs _ (mem_places hm (by simp [Mutex.places])))
      (hs _ (mem_places hm (by simp [Mutex.places]))), fun mutex hm =>
    (hs _ (mem_places hm (by simp [Mutex.places]))).marking.trans (h.free mutex hm)⟩

/-- Moving the token of one mutex of the list from one of its places to the
    other keeps every mutex of the list. -/
theorem moveToken (h : MutexesSafe net mutexes) (hm₀ : mutex₀ ∈ mutexes) {p q : PlaceRef}
    (hpq : p = mutex₀.unlocked ∧ q = mutex₀.locked ∨ p = mutex₀.locked ∧ q = mutex₀.unlocked)
    (t : TransitionRef) :
    MutexesSafe ((net.addArcPlaceTransition p t).addArcTransitionPlace t q) mutexes := by
  have hmem : p ∈ mutex₀.places ∧ q ∈ mutex₀.places := by
    rcases hpq with ⟨rfl, rfl⟩ | ⟨rfl, rfl⟩ <;> simp [Mutex.places]
  refine ⟨h.nodup, fun r hr => by simpa [HasPlace] using h.hasPlace r hr, fun mutex hm => ?_,
    fun mutex hm => by simpa using h.free mutex hm⟩
  by_cases hne : mutex = mutex₀
  · subst hne
    have hu := h.hasPlace _ (mem_places hm (by simp [Mutex.places] : mutex.unlocked ∈ _))
    have hl := h.hasPlace _ (mem_places hm (by simp [Mutex.places] : mutex.locked ∈ _))
    rcases hpq with ⟨rfl, rfl⟩ | ⟨rfl, rfl⟩
    · exact (h.tokenPair _ hm).addArcs (h.unlocked_ne_locked hm) hu hl t
    · exact ((h.tokenPair _ hm).symm.addArcs (h.unlocked_ne_locked hm).symm hl hu t).symm
  · have hsame : ∀ r ∈ mutex.places,
        net.SameAt ((net.addArcPlaceTransition p t).addArcTransitionPlace t q) r := fun r hr =>
      have hr₀ := h.not_mem_places hm hm₀ hne hr
      (sameAt_addArcPlaceTransition _ _ _ _ fun (e : r = p) => hr₀ (e ▸ hmem.1)).trans
        (sameAt_addArcTransitionPlace _ _ _ _ fun (e : r = q) => hr₀ (e ▸ hmem.2))
    exact (h.tokenPair mutex hm).frame (hsame _ (by simp [Mutex.places]))
      (hsame _ (by simp [Mutex.places]))

theorem addLockGuard (h : MutexesSafe net mutexes) (hm₀ : mutex₀ ∈ mutexes) (t : TransitionRef) :
    MutexesSafe (mutex₀.addLockGuard t net) mutexes :=
  h.moveToken hm₀ (.inl ⟨rfl, rfl⟩) t

theorem addUnlockGuard (h : MutexesSafe net mutexes) (hm₀ : mutex₀ ∈ mutexes) (t : TransitionRef) :
    MutexesSafe (mutex₀.addUnlockGuard t net) mutexes :=
  h.moveToken hm₀ (.inr ⟨rfl, rfl⟩) t

/-- A new mutex keeps every mutex: its places are new, the first holds the
    token and no transition touches either. -/
theorem addMutex (h : MutexesSafe net mutexes) :
    MutexesSafe (MutexManager.addMutex ⟨mutexes⟩ net).2.2
      (MutexManager.addMutex ⟨mutexes⟩ net).2.1.mutexes := by
  have hu : ¬net.HasPlace ⟨net.places.length⟩ := by simp [HasPlace]
  have hl : ¬net.HasPlace ⟨net.places.length + 1⟩ := by simp [HasPlace]
  have hold : ∀ p ∈ mutexes.flatMap Mutex.places, p.index < net.places.length := h.hasPlace
  have hnew : ∀ p ∈ Mutex.places ⟨⟨net.places.length⟩, ⟨net.places.length + 1⟩⟩,
      net.places.length ≤ p.index ∧ p.index < net.places.length + 2 := by
    simp [Mutex.places]
  rw [MutexManager.addMutex_mutexes]
  refine ⟨?_, fun p hp => ?_, fun mutex hm => ?_, fun mutex hm => ?_⟩
  · simp only [List.flatMap_append, List.flatMap_singleton]
    exact List.nodup_append.2 ⟨h.nodup, by simp [Mutex.places], fun p hp hp' =>
      Nat.not_lt.2 (hnew p hp').1 (hold p hp)⟩
  · simp only [List.flatMap_append, List.flatMap_singleton, List.mem_append] at hp
    simp only [HasPlace, MutexManager.addMutex_places_length]
    rcases hp with hp | hp
    · have := hold p hp
      omega
    · exact (hnew p hp).2
  · rcases List.mem_append.1 hm with hm | hm
    · exact (h.tokenPair mutex hm).frame
        (MutexManager.sameAt_addMutex (h.hasPlace _ (mem_places hm (by simp [Mutex.places]))))
        (MutexManager.sameAt_addMutex (h.hasPlace _ (mem_places hm (by simp [Mutex.places]))))
    · obtain rfl := List.mem_singleton.1 hm
      refine ⟨fun t => ?_, ?_⟩
      · simp [MutexManager.addMutex, addPlace, consumes, produces, postset_eq_nil _ _ hu,
          postset_eq_nil _ _ hl, preset_eq_nil _ _ hu, preset_eq_nil _ _ hl]
      · simp only [MutexManager.addMutex, addPlace]
        rw [marking_addToken_self, marking_addToken_of_ne] <;>
          simp [HasPlace, marking_eq_zero _ _ hu, marking_eq_zero _ _ hl]
        omega
  · rcases List.mem_append.1 hm with hm | hm
    · exact (MutexManager.sameAt_addMutex (h.hasPlace _ (mem_places hm
        (by simp [Mutex.places])))).marking.trans (h.free mutex hm)
    · obtain rfl := List.mem_singleton.1 hm
      simp only [MutexManager.addMutex, addPlace]
      rw [marking_addToken_of_ne] <;> simp [HasPlace, marking_eq_zero _ _ hl]

end MutexesSafe

/-- An event uses no mutex place as its own: the counterpart of
    `Event.Avoids` for the places of the mutex manager. -/
def Event.AvoidsMutexes (s : Translator) : Event → Prop
  | .condvarNew functionCallPlaces _ | .condvarWait functionCallPlaces _
  | .condvarNotifyOne functionCallPlaces _ =>
      ∀ p ∈ s.mutexPlaces, p ∉ callPlaces functionCallPlaces
  | .net op => ∀ p ∈ s.mutexPlaces, op.place? ≠ some p
  | .mutexNew _ | .mutexLock _ _ _ | .drop _ _ | .assign _ => True

instance (s : Translator) : ∀ e, Decidable (Event.AvoidsMutexes s e)
  | .condvarNew fp _ | .condvarWait fp _ | .condvarNotifyOne fp _ =>
      inferInstanceAs (Decidable (∀ p ∈ s.mutexPlaces, p ∉ callPlaces fp))
  | .net op => inferInstanceAs (Decidable (∀ p ∈ s.mutexPlaces, op.place? ≠ some p))
  | .mutexNew _ | .mutexLock _ _ _ | .drop _ _ | .assign _ =>
      isTrue trivial

namespace Translator

variable (placeTy : Sync.Place → String)

/-- The states of the runs from the translator on `net₀` whose events leave
    the places of the gadgets to the condvar manager and those of the
    mutexes to the mutex manager. -/
inductive MutexReachable (net₀ : PetriNet) : Translator → Prop where
  | init : MutexReachable net₀ (init net₀)
  | step {s s' : Translator} (e : Event) : MutexReachable net₀ s → e.Avoids s →
      e.AvoidsMutexes s → s.step placeTy e = .ok s' → MutexReachable net₀ s'

variable {placeTy} {s s' : Translator} {net₀ : PetriNet}

theorem MutexReachable.reachable (hs : MutexReachable placeTy net₀ s) :
    Reachable placeTy net₀ s := by
  induction hs with
  | init => exact .init
  | step e _ hav _ hstep ih => exact ih.step e hav hstep

/-- Every event that avoids the mutex places keeps every mutex of a good
    state. -/
theorem mutexesSafe_step (hg : s.Good) (h : MutexesSafe s.net s.mutexManager.mutexes)
    {e : Event} (hav : e.AvoidsMutexes s) (hstep : s.step placeTy e = .ok s') :
    MutexesSafe s'.net s'.mutexManager.mutexes := by
  have hcv : ∀ {cv}, cv ∈ s.condvarManager.condvars → ∀ p ∈ s.mutexPlaces, p ∉ cv.places :=
    fun hcv _ hp hp' => hg.disjoint (mem_condvarPlaces hcv hp') hp
  cases e with
  | condvarNew fp destination =>
      obtain rfl := step_condvarNew_eq_ok.1 hstep
      exact h.frame (fun p hp => (sameAt_callForeignFunction fp s.net p _ (hav p hp)).trans
        (Condvar.sameAt_new _ (by simpa [HasPlace] using h.hasPlace p hp))) (by simp)
  | condvarWait fp args =>
      obtain ⟨mutex, cv, ⟨_, _, _, _, hmx⟩, ⟨_, _, _, _, hc⟩, rfl⟩ := step_condvarWait_eq_ok.1 hstep
      have hm := List.getElem?_mem hmx
      simp only [Build.step]
      exact (((h.frame (fun p hp => sameAt_createWaitFunctionCall fp s.net p _ (hav p hp))
        (by simp)).addUnlockGuard hm _).addLockGuard hm _).frame
        (fun p hp => Condvar.sameAt_linkToWaitCall _ _ _ _ (hcv (List.getElem?_mem hc) p hp))
        (by simp)
  | condvarNotifyOne fp args =>
      obtain ⟨cv, ⟨_, _, _, _, hc⟩, rfl⟩ := step_condvarNotifyOne_eq_ok.1 hstep
      simp only [Build.step]
      exact h.frame (fun p hp => (sameAt_callForeignFunction fp s.net p _ (hav p hp)).trans
        (Condvar.sameAt_linkToNotifyOneCall _ _ _ (hcv (List.getElem?_mem hc) p hp))) (by simp)
  | mutexNew destination =>
      obtain rfl := step_mutexNew_eq_ok.1 hstep
      exact h.addMutex
  | mutexLock t args destination =>
      obtain ⟨_, _, mutex, _, _, hmx, rfl⟩ := step_mutexLock_eq_ok.1 hstep
      exact h.addLockGuard (List.getElem?_mem hmx) t
  | drop t place =>
      obtain ⟨_, hdrop, rfl⟩ := step_drop_eq_ok.1 hstep
      rcases MutexManager.handleLockGuardDrop_eq_ok.1 hdrop with ⟨_, mutex, _, hmx, rfl⟩ | ⟨_, rfl⟩
      · exact h.addUnlockGuard (List.getElem?_mem hmx) t
      · exact h
  | assign a =>
      obtain ⟨_, _, rfl⟩ := step_assign_eq_ok.1 hstep
      exact h
  | net op =>
      obtain rfl := step_net_eq_ok.1 hstep
      exact h.frame (fun p hp => NetOp.sameAt_apply op s.net (hav p hp))
        (NetOp.places_length_le_apply op s.net)

/-- In every state of such a run every mutex passes one token between its
    places. -/
theorem MutexReachable.mutexesSafe (hs : MutexReachable placeTy net₀ s) :
    MutexesSafe s.net s.mutexManager.mutexes := by
  induction hs with
  | init =>
      exact ⟨List.nodup_nil, by simp [Translator.init], by simp [Translator.init],
        by simp [Translator.init]⟩
  | step e hs _ hav hstep ih => exact mutexesSafe_step hs.reachable.good ih hav hstep

/-- Every mutex the translator has made keeps its place invariant in the net
    built so far: along every firing sequence `unlocked` and `locked` hold
    one token together, so `locked` never holds two and at most one thread
    holds the mutex at a time. -/
theorem MutexReachable.unlocked_add_locked (hs : MutexReachable placeTy net₀ s) {mutex : Mutex}
    (hm : mutex ∈ s.mutexManager.mutexes) {σ : List TransitionRef} {m : Marking}
    (hrun : s.net.run s.net.marking σ = some m) : m mutex.unlocked + m mutex.locked = 1 := by
  have hp := hs.mutexesSafe.tokenPair mutex hm
  exact (run_pair_invariant hp.balanced hrun).trans hp.marking

/-- A mutex is made into `_0` and the transition `LOCK` takes it into the
    guard `_1`: once `LOCK` fires, the token is in `locked`. -/
theorem unlocked_add_locked_after_lock :
    ∃ s, MutexReachable (fun _ => "") PetriNet.new s ∧ ∃ mutex ∈ s.mutexManager.mutexes, ∃ m,
      s.net.run s.net.marking [⟨0⟩] = some m ∧ m mutex.locked = 1 ∧
        m mutex.unlocked + m mutex.locked = 1 := by
  have hs : MutexReachable (fun _ => "") PetriNet.new _ :=
    ((MutexReachable.init.step (.mutexNew ⟨0, []⟩) trivial trivial rfl).step
      (.net (.addTransition "LOCK")) (by decide) (by decide) rfl).step
      (.mutexLock ⟨0⟩ [.move ⟨0, []⟩] ⟨1, []⟩) trivial trivial rfl
  exact ⟨_, hs, ⟨⟨0⟩, ⟨1⟩⟩, by decide, _, rfl, by decide,
    @MutexReachable.unlocked_add_locked _ _ _ hs _ (by decide) [⟨0⟩] _ rfl⟩

/-- Every mutex the translator has made behaves as a lock in the net built
    so far: every firing sequence, read at its two places, is a run of a lock
    from free, which is acquired only while free and released only while
    held, and it ends in the state the places stand for. Which transitions
    acquire and which release is read off their arcs; the events that add
    those arcs are described one by one (`step_mutexLock_eq_ok`,
    `Reachable.step_drop_ok`, `step_condvarWait_eq_ok`). -/
theorem MutexReachable.mutex_refines (hs : MutexReachable placeTy net₀ s) {mutex : Mutex}
    (hm : mutex ∈ s.mutexManager.mutexes) {σ : List TransitionRef} {m : Marking}
    (hrun : s.net.run s.net.marking σ = some m) :
    ∃ held, lockRun false (σ.filterMap (s.net.pairAction mutex.unlocked mutex.locked)) =
      some held ∧ LockAbstracts m mutex.unlocked mutex.locked held := by
  have h := hs.mutexesSafe
  have hp := h.tokenPair mutex hm
  exact hp.run_abstracts (hp.abstracts_marking (h.free mutex hm)) hrun

/-- A mutex is made into `_0`, `LOCK` takes it into the guard `_1` and `DROP`
    drops the guard: firing the two acquires the lock and releases it. -/
theorem mutex_refines_lock_drop :
    ∃ s, MutexReachable (fun _ => "") PetriNet.new s ∧ ∃ mutex ∈ s.mutexManager.mutexes, ∃ m,
      s.net.run s.net.marking [⟨0⟩, ⟨1⟩] = some m ∧
      [⟨0⟩, ⟨1⟩].filterMap (s.net.pairAction mutex.unlocked mutex.locked) = [.acquire, .release] ∧
      ∃ held,
        lockRun false ([⟨0⟩, ⟨1⟩].filterMap (s.net.pairAction mutex.unlocked mutex.locked)) =
          some held ∧ LockAbstracts m mutex.unlocked mutex.locked held := by
  have hs : MutexReachable (fun _ => "") PetriNet.new _ :=
    ((((MutexReachable.init.step (.mutexNew ⟨0, []⟩) trivial trivial rfl).step
      (.net (.addTransition "LOCK")) (by decide) (by decide) rfl).step
      (.mutexLock ⟨0⟩ [.move ⟨0, []⟩] ⟨1, []⟩) trivial trivial rfl).step
      (.net (.addTransition "DROP")) (by decide) (by decide) rfl).step
      (.drop ⟨1⟩ ⟨1, []⟩) trivial trivial rfl
  exact ⟨_, hs, ⟨⟨0⟩, ⟨1⟩⟩, by decide, _, rfl, by decide,
    @MutexReachable.mutex_refines _ _ _ hs _ (by decide) [⟨0⟩, ⟨1⟩] _ rfl⟩

end Translator

end Granite
