import Granite.Translator.Events
import Granite.Condvar.Refinement
import Mathlib.Data.List.Pairwise

/-!
# Invariants of the Translator

Two invariants hold in every state a run of events reaches, and the
condition variable manager only grows along a run.

`Good` is about the net. Every condition variable of the manager is wired
(`Wired` of `Condvar.Build`) to the calls linked to it so far, and the places
of the gadgets and of the mutexes are distinct places of the net. A wait or
notify call is a build step of the one condition variable its argument
denotes (`step_condvarWait_eq_ok`), and leaves the places of every other
gadget alone, since the gadgets share no place; every other event leaves all
gadget places alone. So `step_wired` and `Wired.frame` carry each gadget
through each event (`good_step`), and the token results of `Condvar.Tokens`
and the refinement of `Condvar.Refinement` hold for every condition variable
of every reachable state. The same facts
show that each call is linked to the gadget its argument denotes and to no
other: the new transitions are the only new arcs of that gadget, and every
arc of another gadget is an old transition.

`MemoryValid` is about the memory. Every handle it holds, also inside an
aggregate, indexes the manager that made it: handles are only created by
the managers, under the index they have just added, and the linking code
only copies values (`Assignment.all_apply`). So the lookups
`get_condvar_from_ref` and the mutex manager's never panic on a reference
read from the memory: a wait call fails only for want of a linked argument,
and the drop of a guard always finds the mutex it releases.

Along a whole run, the condition variable manager only appends to its
vector and counts the calls it translates (`run_counters`), so a reference
keeps naming the same condition variable, and each wait or notify call's
transitions are labelled with the number of calls of its kind before it
(`run_condvarManager`).

## Main definitions

* `Translator.Good`: The gadgets are wired and their places distinct.
* `Sync.Value.Valid`, `Translator.MemoryValid`: Every stored handle indexes
  its manager.

## Theorems

* `Translator.good_step`, `Translator.Reachable.good`: Every reachable state
  is good.
* `Translator.memoryValid_step`, `Translator.Reachable.memoryValid`: Every
  reachable memory is valid.
* `Translator.Reachable.lostSignalPossible_add_waitInput`: The place invariant
  of every condition variable the translator has made.
* `Translator.Reachable.condvar_refines`: Every condition variable the
  translator has made refines the abstract one of `Condvar.Refinement`.
* `Translator.Reachable.step_condvarWait_linked`,
  `Translator.Reachable.step_condvarNotifyOne_linked`: A call is linked to
  exactly the condition variable its argument denotes.
* `Translator.Reachable.step_condvarWait_ok`: A wait call fails only on its
  arguments.
* `Translator.Reachable.step_drop_ok`: A drop never fails, and releases the
  mutex of the guard it drops.
* `Translator.run_counters`, `Translator.run_condvarManager`: Along a run the
  manager only appends condition variables, and each call is labelled by the
  calls of its kind before it.
-/

namespace Granite

open PetriNet

namespace Translator

/-- The invariant of the net: every condition variable is wired to the calls
    linked to it, with its own two transitions, and the places of the gadgets
    and of the mutexes are distinct places of the net. -/
structure Good (s : Translator) : Prop where
  wired : ∀ cv ∈ s.condvarManager.condvars,
    ∃ lst st waits notifies, Wired cv lst st ⟨s.net, waits, notifies⟩
  nodup : s.condvarPlaces.Nodup
  disjoint : s.condvarPlaces.Disjoint s.mutexPlaces
  mutex_hasPlace : ∀ p ∈ s.mutexPlaces, s.net.HasPlace p

variable {s s' : Translator}

theorem mem_condvarPlaces {cv : Condvar} (hcv : cv ∈ s.condvarManager.condvars) {p : PlaceRef}
    (hp : p ∈ cv.places) : p ∈ s.condvarPlaces :=
  List.mem_flatMap.2 ⟨cv, hcv, hp⟩

theorem mem_mutexPlaces {mutex : Mutex} (hm : mutex ∈ s.mutexManager.mutexes) {p : PlaceRef}
    (hp : p ∈ mutex.places) : p ∈ s.mutexPlaces :=
  List.mem_flatMap.2 ⟨mutex, hm, hp⟩

theorem good_init (net : PetriNet) : (init net).Good :=
  ⟨by simp [init, CondvarManager.new], by simp [init, condvarPlaces, CondvarManager.new],
    by simp [init, condvarPlaces, CondvarManager.new], by simp [init, mutexPlaces]⟩

namespace Good

/-- The places of a gadget are places of the net. -/
theorem condvarPlaces_lt (h : s.Good) {p : PlaceRef} (hp : p ∈ s.condvarPlaces) :
    p.index < s.net.places.length := by
  obtain ⟨cv, hcv, hp⟩ := List.mem_flatMap.1 hp
  obtain ⟨_, _, _, _, hw⟩ := h.wired cv hcv
  exact hw.hasPlace p hp

/-- Two gadgets share no place. -/
theorem not_mem_places (h : s.Good) {c cv : Condvar} (hc : c ∈ s.condvarManager.condvars)
    (hcv : cv ∈ s.condvarManager.condvars) (hne : c ≠ cv) {p : PlaceRef} (hp : p ∈ c.places) :
    p ∉ cv.places := by
  have hpw := (List.nodup_flatMap.1 h.nodup).2
  exact hpw.forall (fun _ _ => List.disjoint_symm) hc hcv hne hp

/-- A gadget place is no place of a mutex of the manager. -/
theorem not_mem_mutex_places (h : s.Good) {mutex : Mutex} (hm : mutex ∈ s.mutexManager.mutexes)
    {p : PlaceRef} (hp : p ∈ s.condvarPlaces) : p ∉ mutex.places :=
  fun hpm => h.disjoint hp (mem_mutexPlaces hm hpm)

/-- A wait that avoids the call places of a good state, with a mutex of the
    manager, is a step every gadget avoids. -/
theorem avoids_wait (h : s.Good) {fp : FunctionPlaces} {args : List Sync.Operand}
    (hav : (Event.condvarWait fp args).Avoids s) {mutex : Mutex}
    (hm : mutex ∈ s.mutexManager.mutexes) (labels : String × String × String) :
    ∀ c ∈ s.condvarManager.condvars, (Step.wait fp labels mutex).Avoids c := fun _ hc p hp =>
  ⟨hav p (mem_condvarPlaces hc hp), h.not_mem_mutex_places hm (mem_condvarPlaces hc hp)⟩

/-- A state whose condition variables are those of a good state, each wired
    in the new net, and whose mutex places are new or were already apart, is
    good. -/
theorem of_wired (h : s.Good) (hc : s'.condvarManager.condvars = s.condvarManager.condvars)
    (hw : ∀ cv ∈ s.condvarManager.condvars,
      ∃ lst st waits notifies, Wired cv lst st ⟨s'.net, waits, notifies⟩)
    (hm : ∀ p ∈ s'.mutexPlaces, p ∉ s.condvarPlaces ∧ s'.net.HasPlace p) : s'.Good := by
  have hcp : s'.condvarPlaces = s.condvarPlaces := by simp only [condvarPlaces, hc]
  exact ⟨hc ▸ hw, hcp ▸ h.nodup, fun p hp hpm => (hm p hpm).1 (hcp ▸ hp),
    fun p hp => (hm p hp).2⟩

/-- An event that keeps the managers, leaves every gadget place alone and
    removes no place or transition keeps the state good. -/
theorem frame (h : s.Good) (hc : s'.condvarManager.condvars = s.condvarManager.condvars)
    (hm : s'.mutexManager = s.mutexManager) (hs : ∀ p ∈ s.condvarPlaces, s.net.SameAt s'.net p)
    (hp : s.net.places.length ≤ s'.net.places.length)
    (ht : s.net.transitions.length ≤ s'.net.transitions.length) : s'.Good := by
  have hmp : s'.mutexPlaces = s.mutexPlaces := by simp only [mutexPlaces, hm]
  refine h.of_wired hc (fun cv hcv => ?_) fun p hpm => ?_
  · obtain ⟨lst, st, waits, notifies, hw⟩ := h.wired cv hcv
    exact ⟨lst, st, waits, notifies, hw.frame (fun p hp => hs p (mem_condvarPlaces hcv hp)) hp ht⟩
  · rw [hmp] at hpm
    exact ⟨fun hpc => h.disjoint hpc hpm, Nat.lt_of_lt_of_le (h.mutex_hasPlace p hpm) hp⟩

/-- A build step of one condition variable of a good state, that every
    gadget avoids, keeps the state good: the step wires its own condition
    variable and leaves the others alone. -/
theorem buildStep (h : s.Good) {cv : Condvar} (hcv : cv ∈ s.condvarManager.condvars)
    {stp : Step} (hnet : s'.net = (Build.step cv ⟨s.net, [], []⟩ stp).net)
    (hav : ∀ c ∈ s.condvarManager.condvars, stp.Avoids c)
    (hc : s'.condvarManager.condvars = s.condvarManager.condvars)
    (hm : s'.mutexManager = s.mutexManager) : s'.Good := by
  have hp : s.net.places.length ≤ s'.net.places.length := by
    rw [hnet]
    exact Build.places_length_le_step ⟨s.net, [], []⟩
  refine h.of_wired hc (fun c hc' => ?_) fun p hpm => ?_
  · obtain ⟨lst, st, waits, notifies, hw⟩ := h.wired c hc'
    by_cases hne : c = cv
    · subst hne
      have hnet' : s'.net = (Build.step c ⟨s.net, waits, notifies⟩ stp).net :=
        hnet.trans (@Build.step_net c ⟨s.net, waits, notifies⟩ stp).symm
      have hw' := step_wired hw (hav c hc')
      generalize Build.step c ⟨s.net, waits, notifies⟩ stp = b at hw' hnet'
      exact ⟨lst, st, b.waits, b.notifies, hnet' ▸ hw'⟩
    · refine ⟨lst, st, waits, notifies, hw.frame (fun p hp => ?_) hp ?_⟩ <;> rw [hnet]
      · exact Build.sameAt_step ⟨s.net, [], []⟩ (hav c hc') hp (h.not_mem_places hc' hcv hne hp)
      · exact Build.transitions_length_le_step ⟨s.net, [], []⟩
  · have hpm : p ∈ s.mutexPlaces := by simpa only [mutexPlaces, hm] using hpm
    exact ⟨fun hpc => h.disjoint hpc hpm, Nat.lt_of_lt_of_le (h.mutex_hasPlace p hpm) hp⟩

/-- A new condition variable, at a call site away from the gadgets, keeps
    the state good: its gadget is wired from the start and its places are
    new. -/
theorem condvarNew (h : s.Good) {fp : FunctionPlaces} (hav : ∀ p ∈ s.condvarPlaces, p ∉ callPlaces fp)
    (labels : String × String) (index : Nat) (memory : Sync.Memory) :
    (⟨(Condvar.new index (callForeignFunction fp labels s.net).2).2,
      { s.condvarManager with condvars := s.condvarManager.condvars ++
        [(Condvar.new index (callForeignFunction fp labels s.net).2).1] },
      s.mutexManager, memory⟩ : Translator).Good := by
  have hlen := callForeignFunction_places_length fp s.net labels
  have hnew : ∀ p ∈ (Condvar.new index (callForeignFunction fp labels s.net).2).1.places,
      s.net.places.length ≤ p.index := fun p hp => hlen ▸ Condvar.le_index_of_mem_new_places _ _ hp
  have hsame : ∀ p ∈ s.condvarPlaces,
      s.net.SameAt (Condvar.new index (callForeignFunction fp labels s.net).2).2 p := fun p hp =>
    (sameAt_callForeignFunction fp s.net p labels (hav p hp)).trans
      (Condvar.sameAt_new index (show p.index < _ by rw [hlen]; exact h.condvarPlaces_lt hp))
  have ht := lt_callForeignFunction_transitions_length fp s.net labels
  refine ⟨fun cv hcv => ?_, ?_, ?_, fun p hp => ?_⟩
  · rcases List.mem_append.1 hcv with hcv | hcv
    · obtain ⟨lst, st, waits, notifies, hw⟩ := h.wired cv hcv
      exact ⟨lst, st, waits, notifies,
        hw.frame (fun p hp => hsame p (mem_condvarPlaces hcv hp)) (by simp) (by simp; omega)⟩
    · rw [List.mem_singleton.1 hcv]
      exact ⟨_, _, _, _, Wired.new index _⟩
  · simp only [condvarPlaces, List.flatMap_append, List.flatMap_singleton]
    refine List.nodup_append.2 ⟨h.nodup, Condvar.new_places_nodup _ _, fun p hp hp' => ?_⟩
    have := h.condvarPlaces_lt hp
    have := hnew p hp'
    omega
  · simp only [condvarPlaces, mutexPlaces, List.flatMap_append, List.flatMap_singleton]
    intro p hp hpm
    rcases List.mem_append.1 hp with hp | hp
    · exact h.disjoint hp hpm
    · have h1 : p.index < s.net.places.length := h.mutex_hasPlace p hpm
      have h2 := hnew p hp
      omega
  · exact Nat.lt_of_lt_of_le (h.mutex_hasPlace p hp) (by simp)

/-- A new mutex keeps the state good: its places are new. -/
theorem mutexNew (h : s.Good) (memory : Sync.Memory) :
    (⟨(s.mutexManager.addMutex s.net).2.2, s.condvarManager, (s.mutexManager.addMutex s.net).2.1,
      memory⟩ : Translator).Good := by
  refine h.of_wired rfl (fun cv hcv => ?_) fun p hp => ?_
  · obtain ⟨lst, st, waits, notifies, hw⟩ := h.wired cv hcv
    exact ⟨lst, st, waits, notifies, hw.frame (fun p hp => MutexManager.sameAt_addMutex
      (h.condvarPlaces_lt (mem_condvarPlaces hcv hp))) (by simp) (by simp)⟩
  · simp only [mutexPlaces, MutexManager.addMutex_mutexes, List.flatMap_append,
      List.flatMap_singleton, List.mem_append] at hp
    rcases hp with hp | hp
    · exact ⟨fun hpc => h.disjoint hpc hp,
        Nat.lt_of_lt_of_le (h.mutex_hasPlace p hp) (by simp)⟩
    · simp only [Mutex.places, List.mem_cons, List.not_mem_nil, or_false] at hp
      refine ⟨fun hpc => ?_, ?_⟩
      · have := h.condvarPlaces_lt hpc
        rcases hp with rfl | rfl <;> simp at this
      · rcases hp with rfl | rfl <;> simp [HasPlace]

/-- Distinct indices of the manager hold distinct condition variables. -/
theorem condvars_nodup (h : s.Good) : s.condvarManager.condvars.Nodup :=
  (List.nodup_flatMap.1 h.nodup).2.imp fun {c _} hd hcc => by
    subst hcc
    have hp : c.lostSignalPossible ∈ c.places := by simp [Condvar.places]
    exact hd hp hp

/-- The transitions wired into a gadget's `signal_input` and `wait_input` and
    out of its `signal_output` are transitions the net already has. -/
theorem index_lt_of_mem_arcs (h : s.Good) {c : Condvar} (hc : c ∈ s.condvarManager.condvars)
    {t : TransitionRef} (ht : t ∈ s.net.preset c.signalInput ∨ t ∈ s.net.preset c.waitInput ∨
      t ∈ s.net.postset c.signalOutput) :
    t.index < s.net.transitions.length := by
  obtain ⟨_, _, waits, notifies, hw⟩ := h.wired c hc
  rw [hw.arcs.preset_signalInput, hw.arcs.preset_waitInput, hw.arcs.postset_signalOutput] at ht
  rcases ht with ht | ht | ht
  · exact hw.notifies_lt t ht
  · obtain ⟨w, hw', rfl⟩ := List.mem_map.1 ht
    exact (hw.waits_lt w hw').1
  · obtain ⟨w, hw', rfl⟩ := List.mem_map.1 ht
    exact (hw.waits_lt w hw').2

/-- A build step of the gadget at `index` leaves the arcs of the gadget at
    any other index as they were, since the two share no place. -/
theorem sameAt_buildStep_of_ne (h : s.Good) {index j : Nat} {cv₀ cv : Condvar}
    (hcv₀ : s.condvarManager.condvars[index]? = some cv₀)
    (hj : s.condvarManager.condvars[j]? = some cv) (hji : j ≠ index) {stp : Step}
    (hav : stp.Avoids cv) {q : PlaceRef} (hq : q ∈ cv.places) :
    s.net.SameAt (Build.step cv₀ ⟨s.net, [], []⟩ stp).net q := by
  have hne : cv ≠ cv₀ := fun heq => hji <| List.getElem?_inj (List.getElem?_eq_some_iff.1 hj).1
    h.condvars_nodup (by rw [hj, hcv₀, heq])
  exact Build.sameAt_step ⟨s.net, [], []⟩ hav hq
    (h.not_mem_places (List.getElem?_mem hj) (List.getElem?_mem hcv₀) hne hq)

end Good

variable {placeTy : Sync.Place → String}

/-- Every event that avoids the gadget places keeps the state good. -/
theorem good_step (h : s.Good) {e : Event} (hav : e.Avoids s)
    (hstep : s.step placeTy e = .ok s') : s'.Good := by
  cases e with
  | condvarNew fp destination =>
      obtain rfl := step_condvarNew_eq_ok.1 hstep
      exact h.condvarNew hav _ _ _
  | condvarWait fp args =>
      obtain ⟨mutex, cv, ⟨_, _, _, _, hmx⟩, ⟨_, _, _, _, hcv⟩, rfl⟩ := step_condvarWait_eq_ok.1 hstep
      exact h.buildStep (List.getElem?_mem hcv) rfl (h.avoids_wait hav (List.getElem?_mem hmx) _)
        rfl rfl
  | condvarNotifyOne fp args =>
      obtain ⟨cv, ⟨_, _, _, _, hcv⟩, rfl⟩ := step_condvarNotifyOne_eq_ok.1 hstep
      exact h.buildStep (List.getElem?_mem hcv) rfl
        (fun c hc p hp => hav p (mem_condvarPlaces hc hp)) rfl rfl
  | mutexNew destination =>
      obtain rfl := step_mutexNew_eq_ok.1 hstep
      exact h.mutexNew _
  | mutexLock t args destination =>
      obtain ⟨_, _, mutex, _, _, hmx, rfl⟩ := step_mutexLock_eq_ok.1 hstep
      exact h.frame rfl rfl (fun p hp => Mutex.sameAt_addLockGuard _ _ _ _
        (h.not_mem_mutex_places (List.getElem?_mem hmx) hp)) (by simp) (by simp)
  | drop t place =>
      obtain ⟨_, hdrop, rfl⟩ := step_drop_eq_ok.1 hstep
      rcases MutexManager.handleLockGuardDrop_eq_ok.1 hdrop with ⟨_, mutex, _, hmx, rfl⟩ | ⟨_, rfl⟩
      · exact h.frame rfl rfl (fun p hp => Mutex.sameAt_addUnlockGuard _ _ _ _
          (h.not_mem_mutex_places (List.getElem?_mem hmx) hp)) (by simp) (by simp)
      · exact h.frame rfl rfl (fun p _ => SameAt.refl _ _) le_rfl le_rfl
  | assign a =>
      obtain ⟨_, _, rfl⟩ := step_assign_eq_ok.1 hstep
      exact h.frame rfl rfl (fun p _ => SameAt.refl _ _) le_rfl le_rfl
  | net op =>
      obtain rfl := step_net_eq_ok.1 hstep
      exact h.frame rfl rfl (fun p hp => NetOp.sameAt_apply op s.net (hav p hp))
        (NetOp.places_length_le_apply op s.net) (NetOp.transitions_length_le_apply op s.net)

/-- Every reachable state is good. -/
theorem Reachable.good {net₀ : PetriNet} (hs : Reachable placeTy net₀ s) : s.Good := by
  induction hs with
  | init => exact good_init net₀
  | step e _ hav hstep ih => exact good_step ih hav hstep

/-- Every condition variable the translator has made keeps the place
    invariant of its gadget in the net built so far: along every firing
    sequence, `lost_signal_possible` and `wait_input` hold one token together,
    so at most one thread waits on it at a time. -/
theorem Reachable.lostSignalPossible_add_waitInput {net₀ : PetriNet} {cv : Condvar}
    {σ : List TransitionRef} {m : Marking} (hs : Reachable placeTy net₀ s)
    (hcv : cv ∈ s.condvarManager.condvars) (hrun : s.net.run s.net.marking σ = some m) :
    m cv.lostSignalPossible + m cv.waitInput = 1 := by
  obtain ⟨_, _, _, _, hw⟩ := hs.good.wired cv hcv
  exact hw.arcs.run_lostSignalPossible_add_waitInput hrun

/-- Every condition variable the translator has made behaves as one in the
    net built so far: every firing sequence, read at the gadget's places, is
    a run of the abstract condition variable from a new one, and ends in the
    abstract state the places stand for. -/
theorem Reachable.condvar_refines {net₀ : PetriNet} {cv : Condvar} {σ : List TransitionRef}
    {m : Marking} (hs : Reachable placeTy net₀ s) (hcv : cv ∈ s.condvarManager.condvars)
    (hrun : s.net.run s.net.marking σ = some m) :
    ∃ a, CondvarState.initial.run (σ.filterMap (cv.actionOf s.net)) = some a ∧
      cv.Abstracts m a := by
  obtain ⟨_, _, _, _, hw⟩ := hs.good.wired cv hcv
  exact hw.arcs.run_abstracts hw.distinct hw.arcs.abstracts_initial hrun

/-- A thread starts at place `0`, with a token, and calls `Condvar::new` into
    `_1` on its way to place `1`; a mutex is made in `_2`, and the same call
    transition locks it into the guard `_3`. -/
def lockEvents : List Event :=
  [.net (.addPlace "START"), .net (.addToken ⟨0⟩ 1), .net (.addPlace "NEW_END"),
    .net (.addPlace "WAIT_END"), .condvarNew (⟨0⟩, ⟨1⟩, none) ⟨1, []⟩, .mutexNew ⟨2, []⟩,
    .mutexLock ⟨0⟩ [.move ⟨2, []⟩] ⟨3, []⟩]

/-- After `lockEvents` the thread waits on `_1` with `_3` until place `2`.
    Once the call and the wait start have fired, the thread waits and the
    token of `lost_signal_possible` is in `wait_input`. -/
theorem lostSignalPossible_add_waitInput_in_wait :
    ∃ s, Reachable (fun _ => "") PetriNet.new s ∧ ∃ cv ∈ s.condvarManager.condvars, ∃ m,
      s.net.run s.net.marking [⟨0⟩, ⟨3⟩] = some m ∧ m cv.waitInput = 1 ∧
        m cv.lostSignalPossible + m cv.waitInput = 1 := by
  have hs := Reachable.init.run (by decide) (rfl : (init PetriNet.new).run (fun _ => "")
    (lockEvents ++ [.condvarWait (⟨1⟩, ⟨2⟩, none) [.move ⟨1, []⟩, .move ⟨3, []⟩]]) = .ok _)
  exact ⟨_, hs, ⟨⟨3⟩, ⟨4⟩, ⟨5⟩, ⟨6⟩⟩, by decide, _, rfl, by decide,
    @Reachable.lostSignalPossible_add_waitInput _ _ _ _ [⟨0⟩, ⟨3⟩] _ hs (by decide) rfl⟩

/-- After `lockEvents` and the wait, the call of `Condvar::new` plays no part
    at the condition variable and the wait start leaves it waiting. -/
theorem condvar_refines_in_wait :
    ∃ s, Reachable (fun _ => "") PetriNet.new s ∧ ∃ cv ∈ s.condvarManager.condvars, ∃ m,
      s.net.run s.net.marking [⟨0⟩, ⟨3⟩] = some m ∧ ∃ a,
        CondvarState.initial.run ([⟨0⟩, ⟨3⟩].filterMap (cv.actionOf s.net)) = some a ∧
          cv.Abstracts m a := by
  have hs := Reachable.init.run (by decide) (rfl : (init PetriNet.new).run (fun _ => "")
    (lockEvents ++ [.condvarWait (⟨1⟩, ⟨2⟩, none) [.move ⟨1, []⟩, .move ⟨3, []⟩]]) = .ok _)
  exact ⟨_, hs, ⟨⟨3⟩, ⟨4⟩, ⟨5⟩, ⟨6⟩⟩, by decide, _, rfl,
    @Reachable.condvar_refines _ _ _ _ [⟨0⟩, ⟨3⟩] _ hs (by decide) rfl⟩

/-- In every reachable state a wait call is linked to exactly the condition
    variable its first argument denotes: its start transition feeds the
    `wait_input` and its end transition drains the `signal_output` of that
    gadget, and of no other. -/
theorem Reachable.step_condvarWait_linked {net₀ : PetriNet} (hs : Reachable placeTy net₀ s)
    {fp : FunctionPlaces} {args : List Sync.Operand} (hav : (Event.condvarWait fp args).Avoids s)
    (hstep : s.step placeTy (.condvarWait fp args) = .ok s') {self : Sync.Place} {index j : Nat}
    (hself : Sync.extractNthArgument args 0 = .ok self)
    (hc : s.memory.getLinkedCondvar self = .ok index) {cv : Condvar}
    (hj : s.condvarManager.condvars[j]? = some cv) :
    (⟨s.net.transitions.length⟩ ∈ s'.net.preset cv.waitInput ↔ j = index) ∧
      (⟨s.net.transitions.length + 1⟩ ∈ s'.net.postset cv.signalOutput ↔ j = index) := by
  have h := hs.good
  obtain ⟨mutex, cv₀, ⟨_, _, _, _, hmx⟩, ⟨_, _, hself', hc', hcv₀⟩, rfl⟩ :=
    step_condvarWait_eq_ok.1 hstep
  obtain rfl := Except.ok.inj (hself.symm.trans hself')
  obtain rfl := Except.ok.inj (hc.symm.trans hc')
  have hmem := List.getElem?_mem hj
  have hav' := h.avoids_wait hav (List.getElem?_mem hmx)
    (waitTransitionLabels s.condvarManager.waitCounter) cv hmem
  by_cases hji : j = index
  · subst hji
    obtain rfl : cv = cv₀ := Option.some.inj (hj.symm.trans hcv₀)
    obtain ⟨lst, st, waits, notifies, hw⟩ := h.wired cv hmem
    have hw' := step_wired hw hav'
    rw [← Build.step_net ⟨s.net, waits, notifies⟩, hw'.arcs.preset_waitInput,
      hw'.arcs.postset_signalOutput]
    simp [Build.step, createWaitFunctionCall_fst]
  · refine ⟨iff_of_false (fun ht => ?_) hji, iff_of_false (fun ht => ?_) hji⟩
    · rw [(h.sameAt_buildStep_of_ne hcv₀ hj hji hav'
        (show cv.waitInput ∈ cv.places by simp [Condvar.places])).preset] at ht
      exact lt_irrefl _ (h.index_lt_of_mem_arcs hmem (.inr (.inl ht)))
    · rw [(h.sameAt_buildStep_of_ne hcv₀ hj hji hav'
        (show cv.signalOutput ∈ cv.places by simp [Condvar.places])).postset] at ht
      exact Nat.not_succ_lt_self (h.index_lt_of_mem_arcs hmem (.inr (.inr ht)))

/-- After `lockEvents` and a second condition variable made into `_4`, the
    wait on `_1` is linked to the first condition variable of the manager,
    the one made into `_1`, and not to the second. -/
theorem step_condvarWait_linked_after_lock :
    ∃ s s', Reachable (fun _ => "") PetriNet.new s ∧
      s.step (fun _ => "") (.condvarWait (⟨1⟩, ⟨2⟩, none) [.move ⟨1, []⟩, .move ⟨3, []⟩]) =
        .ok s' ∧ ∃ cv₀ cv₁, s.condvarManager.condvars[0]? = some cv₀ ∧
        s.condvarManager.condvars[1]? = some cv₁ ∧
        ((⟨s.net.transitions.length⟩ ∈ s'.net.preset cv₀.waitInput ↔ 0 = 0) ∧
          (⟨s.net.transitions.length + 1⟩ ∈ s'.net.postset cv₀.signalOutput ↔ 0 = 0)) ∧
        ((⟨s.net.transitions.length⟩ ∈ s'.net.preset cv₁.waitInput ↔ 1 = 0) ∧
          (⟨s.net.transitions.length + 1⟩ ∈ s'.net.postset cv₁.signalOutput ↔ 1 = 0)) := by
  have hs := Reachable.init.run (by decide) (rfl : (init PetriNet.new).run (fun _ => "")
    (lockEvents ++ [.condvarNew (⟨1⟩, ⟨2⟩, none) ⟨4, []⟩]) = .ok _)
  have h := fun j => @Reachable.step_condvarWait_linked _ _ _ _ hs (⟨1⟩, ⟨2⟩, none)
    [.move ⟨1, []⟩, .move ⟨3, []⟩] (by decide) rfl _ _ j rfl rfl
  exact ⟨_, _, hs, rfl, _, _, rfl, rfl, h 0 rfl, h 1 rfl⟩

/-- In every reachable state a notify call is linked to exactly the condition
    variable its first argument denotes: its transition feeds the
    `signal_input` of that gadget, and of no other. -/
theorem Reachable.step_condvarNotifyOne_linked {net₀ : PetriNet} (hs : Reachable placeTy net₀ s)
    {fp : FunctionPlaces} {args : List Sync.Operand}
    (hav : (Event.condvarNotifyOne fp args).Avoids s)
    (hstep : s.step placeTy (.condvarNotifyOne fp args) = .ok s') {self : Sync.Place}
    {index j : Nat} (hself : Sync.extractNthArgument args 0 = .ok self)
    (hc : s.memory.getLinkedCondvar self = .ok index) {cv : Condvar}
    (hj : s.condvarManager.condvars[j]? = some cv) :
    ⟨s.net.transitions.length⟩ ∈ s'.net.preset cv.signalInput ↔ j = index := by
  have h := hs.good
  obtain ⟨cv₀, ⟨_, _, hself', hc', hcv₀⟩, rfl⟩ := step_condvarNotifyOne_eq_ok.1 hstep
  obtain rfl := Except.ok.inj (hself.symm.trans hself')
  obtain rfl := Except.ok.inj (hc.symm.trans hc')
  have hmem := List.getElem?_mem hj
  have hav' : Step.Avoids cv (.notifyOne fp (notifyOneTransitionLabels
      s.condvarManager.notifyOneCounter)) := fun p hp => hav p (mem_condvarPlaces hmem hp)
  by_cases hji : j = index
  · subst hji
    obtain rfl : cv = cv₀ := Option.some.inj (hj.symm.trans hcv₀)
    obtain ⟨lst, st, waits, notifies, hw⟩ := h.wired cv hmem
    rw [← Build.step_net ⟨s.net, waits, notifies⟩, (step_wired hw hav').arcs.preset_signalInput]
    simp [Build.step, callForeignFunction_fst]
  · refine iff_of_false (fun ht => ?_) hji
    rw [(h.sameAt_buildStep_of_ne hcv₀ hj hji hav'
      (show cv.signalInput ∈ cv.places by simp [Condvar.places])).preset] at ht
    exact lt_irrefl _ (h.index_lt_of_mem_arcs hmem (.inl ht))

/-- After `lockEvents` and a second condition variable made into `_4`, a
    notify on `_1` is linked to the first condition variable and not to the
    second. -/
theorem step_condvarNotifyOne_linked_two_condvars :
    ∃ s s', Reachable (fun _ => "") PetriNet.new s ∧
      s.step (fun _ => "") (.condvarNotifyOne (⟨1⟩, ⟨2⟩, none) [.move ⟨1, []⟩]) = .ok s' ∧
        ∃ cv₀ cv₁, s.condvarManager.condvars[0]? = some cv₀ ∧
          s.condvarManager.condvars[1]? = some cv₁ ∧
          (⟨s.net.transitions.length⟩ ∈ s'.net.preset cv₀.signalInput ↔ 0 = 0) ∧
          (⟨s.net.transitions.length⟩ ∈ s'.net.preset cv₁.signalInput ↔ 1 = 0) := by
  have hs := Reachable.init.run (by decide) (rfl : (init PetriNet.new).run (fun _ => "")
    (lockEvents ++ [.condvarNew (⟨1⟩, ⟨2⟩, none) ⟨4, []⟩]) = .ok _)
  have h := fun j => @Reachable.step_condvarNotifyOne_linked _ _ _ _ hs (⟨1⟩, ⟨2⟩, none)
    [.move ⟨1, []⟩] (by decide) rfl _ _ j rfl rfl
  exact ⟨_, _, hs, rfl, _, _, rfl, rfl, h 0 rfl, h 1 rfl⟩

end Translator

namespace Sync

/-- The handles a value holds index the managers: a condition variable below
    `condvars`, a mutex and the mutex of a guard below `mutexes`. The thread
    manager is not modelled, so a join handle is left unconstrained. -/
inductive Value.Valid (condvars mutexes : Nat) : Value → Prop where
  | mutex {index : Nat} : index < mutexes → Value.Valid condvars mutexes (.mutex index)
  | mutexGuard {index : Nat} : index < mutexes → Value.Valid condvars mutexes (.mutexGuard index)
  | joinHandle (index : Nat) : Value.Valid condvars mutexes (.joinHandle index)
  | condvar {index : Nat} : index < condvars → Value.Valid condvars mutexes (.condvar index)
  | aggregate {members : List Value} :
      (∀ value ∈ members, Value.Valid condvars mutexes value) →
        Value.Valid condvars mutexes (.aggregate members)

namespace Value

variable {condvars mutexes : Nat}

/-- A handle stays valid when the managers grow. -/
theorem Valid.mono {condvars' mutexes' : Nat} {value : Value} (h : value.Valid condvars mutexes)
    (hc : condvars ≤ condvars') (hm : mutexes ≤ mutexes') : value.Valid condvars' mutexes' := by
  induction h with
  | mutex hi => exact .mutex (Nat.lt_of_lt_of_le hi hm)
  | mutexGuard hi => exact .mutexGuard (Nat.lt_of_lt_of_le hi hm)
  | joinHandle index => exact .joinHandle index
  | condvar hi => exact .condvar (Nat.lt_of_lt_of_le hi hc)
  | aggregate _ ih => exact .aggregate ih

theorem valid_aggregate_iff (members : List Value) :
    (Value.aggregate members).Valid condvars mutexes ↔
      ∀ value ∈ members, value.Valid condvars mutexes :=
  ⟨fun h => by cases h; assumption, .aggregate⟩

end Value

end Sync

namespace Translator

/-- Every handle the memory holds indexes its manager. -/
def MemoryValid (s : Translator) : Prop :=
  s.memory.All (Sync.Value.Valid s.condvarManager.condvars.length s.mutexManager.mutexes.length)

variable {s s' : Translator} {placeTy : Sync.Place → String}

theorem memoryValid_init (net : PetriNet) : (init net).MemoryValid :=
  fun _ _ h => Option.noConfusion h

namespace MemoryValid

variable {place : Sync.Place} {index : Nat}

/-- A condition variable the memory denotes is one the manager holds. -/
theorem getLinkedCondvar (h : s.MemoryValid) (hc : s.memory.getLinkedCondvar place = .ok index) :
    ∃ cv, s.condvarManager.condvars[index]? = some cv := by
  cases h _ _ (Sync.Memory.getLinkedCondvar_eq_ok.1 hc) with
  | condvar hi => exact ⟨_, List.getElem?_eq_getElem hi⟩

/-- The mutex of a guard the memory denotes is one the manager holds. -/
theorem getLinkedLockGuard (h : s.MemoryValid) (hg : s.memory.getLinkedLockGuard place = .ok index) :
    ∃ mutex, s.mutexManager.mutexes[index]? = some mutex := by
  cases h _ _ (Sync.Memory.getLinkedLockGuard_eq_ok.1 hg) with
  | mutexGuard hi => exact ⟨_, List.getElem?_eq_getElem hi⟩

end MemoryValid

/-- Every event keeps the memory valid: a new handle indexes what its
    manager has just added, and every other write copies what was read. -/
theorem memoryValid_step (h : s.MemoryValid) {e : Event} (hstep : s.step placeTy e = .ok s') :
    s'.MemoryValid := by
  cases e with
  | condvarNew fp destination =>
      obtain rfl := step_condvarNew_eq_ok.1 hstep
      exact (h.imp fun _ hv => hv.mono (by simp) le_rfl).update (.condvar (by simp)) _
  | condvarWait fp args =>
      obtain ⟨_, _, _, _, rfl⟩ := step_condvarWait_eq_ok.1 hstep
      exact h
  | condvarNotifyOne fp args =>
      obtain ⟨_, _, rfl⟩ := step_condvarNotifyOne_eq_ok.1 hstep
      exact h
  | mutexNew destination =>
      obtain rfl := step_mutexNew_eq_ok.1 hstep
      exact (h.imp fun _ hv => hv.mono le_rfl (by simp [MutexManager.addMutex_mutexes])).update
        (.mutex (by simp [MutexManager.addMutex_mutexes])) _
  | mutexLock t args destination =>
      obtain ⟨_, _, _, _, _, hmx, rfl⟩ := step_mutexLock_eq_ok.1 hstep
      exact h.update (.mutexGuard (List.getElem?_eq_some_iff.1 hmx).1) _
  | drop t place =>
      obtain ⟨_, _, rfl⟩ := step_drop_eq_ok.1 hstep
      exact h
  | assign a =>
      obtain ⟨_, ha, rfl⟩ := step_assign_eq_ok.1 hstep
      exact Assignment.all_apply Sync.Value.valid_aggregate_iff h ha
  | net op =>
      obtain rfl := step_net_eq_ok.1 hstep
      exact h

/-- Every reachable memory is valid. -/
theorem Reachable.memoryValid {net₀ : PetriNet} (hs : Reachable placeTy net₀ s) : s.MemoryValid := by
  induction hs with
  | init => exact memoryValid_init net₀
  | step e _ _ hstep ih => exact memoryValid_step ih hstep

/-- In every reachable state a wait call fails only on its arguments: it is
    translated exactly when its second argument denotes a lock guard and its
    first a condition variable. The lookups of the mutex manager and of
    `get_condvar_from_ref` never panic, since every handle the memory holds
    indexes its manager. -/
theorem Reachable.step_condvarWait_ok {net₀ : PetriNet} (hs : Reachable placeTy net₀ s)
    {fp : FunctionPlaces} {args : List Sync.Operand} :
    (∃ s', s.step placeTy (.condvarWait fp args) = .ok s') ↔
      (∃ guard mutexRef, Sync.extractNthArgument args 1 = .ok guard ∧
          s.memory.getLinkedLockGuard guard = .ok mutexRef) ∧
        ∃ self condvarRef, Sync.extractNthArgument args 0 = .ok self ∧
          s.memory.getLinkedCondvar self = .ok condvarRef := by
  constructor
  · rintro ⟨s', hstep⟩
    obtain ⟨_, _, ⟨guard, mutexRef, hg, hm, _⟩, ⟨self, condvarRef, hse, hc, _⟩, _⟩ :=
      step_condvarWait_eq_ok.1 hstep
    exact ⟨⟨guard, mutexRef, hg, hm⟩, self, condvarRef, hse, hc⟩
  · rintro ⟨⟨guard, mutexRef, hg, hm⟩, self, condvarRef, hse, hc⟩
    obtain ⟨mutex, hmx⟩ := hs.memoryValid.getLinkedLockGuard hm
    obtain ⟨cv, hcv⟩ := hs.memoryValid.getLinkedCondvar hc
    exact ⟨_, step_condvarWait_eq_ok.2
      ⟨mutex, cv, ⟨guard, mutexRef, hg, hm, hmx⟩, ⟨self, condvarRef, hse, hc, hcv⟩, rfl⟩⟩

/-- After `lockEvents` the wait on `_1` with the guard `_3` is translated. -/
theorem step_condvarWait_ok_after_lock :
    ∃ s, Reachable (fun _ => "") PetriNet.new s ∧
      ∃ s', s.step (fun _ => "") (.condvarWait (⟨1⟩, ⟨2⟩, none) [.move ⟨1, []⟩, .move ⟨3, []⟩]) =
        .ok s' := by
  have hs := Reachable.init.run (by decide)
    (rfl : (init PetriNet.new).run (fun _ => "") lockEvents = .ok _)
  exact ⟨_, hs, (Reachable.step_condvarWait_ok hs).2 ⟨⟨⟨3, []⟩, 0, rfl, rfl⟩, ⟨1, []⟩, 0, rfl, rfl⟩⟩

/-- In every reachable state the drop of any place is translated without
    error, and what it does is fixed: a place that denotes a guard denotes one
    of a mutex the manager holds, and the drop transition is made to release
    that mutex, from `locked` back to `unlocked`; the drop of any other place
    changes nothing. -/
theorem Reachable.step_drop_ok {net₀ : PetriNet} (hs : Reachable placeTy net₀ s)
    (t : TransitionRef) (place : Sync.Place) :
    (∀ mutexRef, s.memory.getLinkedLockGuard place = .ok mutexRef →
      ∃ mutex, s.mutexManager.mutexes[mutexRef]? = some mutex ∧
        s.step placeTy (.drop t place) = .ok { s with net := mutex.addUnlockGuard t s.net }) ∧
    ((∀ mutexRef, s.memory.getLinkedLockGuard place ≠ .ok mutexRef) →
      s.step placeTy (.drop t place) = .ok s) := by
  refine ⟨fun mutexRef hg => ?_, fun hg => ?_⟩
  · obtain ⟨mutex, hmx⟩ := hs.memoryValid.getLinkedLockGuard hg
    exact ⟨mutex, hmx, step_drop_eq_ok.2 ⟨_, MutexManager.handleLockGuardDrop_eq_ok.2
      (.inl ⟨mutexRef, mutex, hg, hmx, rfl⟩), rfl⟩⟩
  · exact step_drop_eq_ok.2 ⟨_, MutexManager.handleLockGuardDrop_eq_ok.2 (.inr ⟨hg, rfl⟩), rfl⟩

/-- After `lockEvents` and a drop transition, dropping the guard `_3` releases
    the first mutex at that transition, and dropping the condition variable
    `_1` changes nothing. -/
theorem step_drop_ok_after_lock :
    ∃ s, Reachable (fun _ => "") PetriNet.new s ∧
      (∃ mutex, s.mutexManager.mutexes[0]? = some mutex ∧
        s.step (fun _ => "") (.drop ⟨3⟩ ⟨3, []⟩) = .ok { s with net := mutex.addUnlockGuard ⟨3⟩ s.net }) ∧
      s.step (fun _ => "") (.drop ⟨3⟩ ⟨1, []⟩) = .ok s := by
  have hs := Reachable.init.run (by decide) (rfl : (init PetriNet.new).run (fun _ => "")
    (lockEvents ++ [.net (.addTransition "DROP")]) = .ok _)
  exact ⟨_, hs, (hs.step_drop_ok _ _).1 0 rfl, (hs.step_drop_ok _ _).2 fun _ h => by cases h⟩

section Counters

variable {events : List Event}

/-- A step adds a condition variable exactly when it translates
    `Condvar::new`, and counts the wait and notify calls it translates. -/
theorem step_condvarManager {e : Event} (hstep : s.step placeTy e = .ok s') :
    (∃ cvs, s'.condvarManager.condvars = s.condvarManager.condvars ++ cvs ∧
      cvs.length = if e.condvarCall? = some .new then 1 else 0) ∧
    s'.condvarManager.waitCounter =
      s.condvarManager.waitCounter + (if e.condvarCall? = some .wait then 1 else 0) ∧
    s'.condvarManager.notifyOneCounter =
      s.condvarManager.notifyOneCounter + (if e.condvarCall? = some .notifyOne then 1 else 0) := by
  cases e with
  | condvarNew fp destination =>
      obtain rfl := step_condvarNew_eq_ok.1 hstep
      simp [Event.condvarCall?]
  | condvarWait fp args =>
      obtain ⟨_, _, _, _, rfl⟩ := step_condvarWait_eq_ok.1 hstep
      simp [Event.condvarCall?]
  | condvarNotifyOne fp args =>
      obtain ⟨_, _, rfl⟩ := step_condvarNotifyOne_eq_ok.1 hstep
      simp [Event.condvarCall?]
  | mutexNew destination =>
      obtain rfl := step_mutexNew_eq_ok.1 hstep
      simp [Event.condvarCall?]
  | mutexLock t args destination =>
      obtain ⟨_, _, _, _, _, _, rfl⟩ := step_mutexLock_eq_ok.1 hstep
      simp [Event.condvarCall?]
  | drop t place =>
      obtain ⟨_, _, rfl⟩ := step_drop_eq_ok.1 hstep
      simp [Event.condvarCall?]
  | assign a =>
      obtain ⟨_, _, rfl⟩ := step_assign_eq_ok.1 hstep
      simp [Event.condvarCall?]
  | net op =>
      obtain rfl := step_net_eq_ok.1 hstep
      simp [Event.condvarCall?]

/-- Along every run that completes, the manager only appends condition
    variables, one for each `Condvar::new`, and its two counters count the
    wait and notify calls. -/
theorem run_counters (hrun : s.run placeTy events = .ok s') :
    (∃ cvs, s'.condvarManager.condvars = s.condvarManager.condvars ++ cvs ∧
      cvs.length = events.countP fun e => e.condvarCall? = some .new) ∧
    s'.condvarManager.waitCounter =
      s.condvarManager.waitCounter + events.countP (fun e => e.condvarCall? = some .wait) ∧
    s'.condvarManager.notifyOneCounter =
      s.condvarManager.notifyOneCounter +
        events.countP (fun e => e.condvarCall? = some .notifyOne) := by
  induction events generalizing s with
  | nil =>
      cases hrun
      exact ⟨⟨[], by simp, rfl⟩, rfl, rfl⟩
  | cons e events ih =>
      obtain ⟨s₁, h₁, hrun⟩ := Sync.Memory.except_bind_eq_ok.1 hrun
      obtain ⟨⟨cvs₁, hc₁, hl₁⟩, hw₁, hn₁⟩ := step_condvarManager h₁
      obtain ⟨⟨cvs, hc, hl⟩, hw, hn⟩ := ih hrun
      refine ⟨⟨cvs₁ ++ cvs, by rw [hc, hc₁, List.append_assoc], ?_⟩, ?_, ?_⟩ <;>
        simp only [List.countP_cons, List.length_append, decide_eq_true_eq] <;> omega

/-- A run that completes passes each of its events: the state before it is
    what the events before it reach, and its step succeeds. -/
theorem run_split {pre post : List Event} {e : Event}
    (hrun : s.run placeTy (pre ++ e :: post) = .ok s') :
    ∃ s₁ s₂, s.run placeTy pre = .ok s₁ ∧ s₁.step placeTy e = .ok s₂ := by
  rw [run_append] at hrun
  obtain ⟨s₁, h₁, hrun⟩ := Sync.Memory.except_bind_eq_ok.1 hrun
  obtain ⟨s₂, h₂, -⟩ := Sync.Memory.except_bind_eq_ok.1 hrun
  exact ⟨s₁, s₂, h₁, h₂⟩

/-- A wait call appends its transitions under the labels of the wait
    counter. -/
theorem step_condvarWait_transitions {fp : FunctionPlaces} {args : List Sync.Operand}
    (hstep : s.step placeTy (.condvarWait fp args) = .ok s') :
    let labels := waitTransitionLabels s.condvarManager.waitCounter
    s'.net.transitions =
      s.net.transitions ++ labels.1 :: labels.2.1 :: (fp.2.2.map fun _ => labels.2.2).toList := by
  obtain ⟨_, _, _, _, rfl⟩ := step_condvarWait_eq_ok.1 hstep
  exact Build.step_wait_transitions _

/-- A notify call appends its transitions under the labels of the notify
    counter. -/
theorem step_condvarNotifyOne_transitions {fp : FunctionPlaces} {args : List Sync.Operand}
    (hstep : s.step placeTy (.condvarNotifyOne fp args) = .ok s') :
    let labels := notifyOneTransitionLabels s.condvarManager.notifyOneCounter
    s'.net.transitions = s.net.transitions ++ labels.1 :: (fp.2.2.map fun _ => labels.2).toList := by
  obtain ⟨_, _, rfl⟩ := step_condvarNotifyOne_eq_ok.1 hstep
  exact Build.step_notifyOne_transitions _

/-- Along every run that completes, the manager only appends condition
    variables, one for each `Condvar::new`, so a reference into the vector
    keeps naming the same condition variable. And each wait or notify call of
    the run is numbered by the calls of its kind before it: its transitions
    are appended under the labels of that number, so two calls of a kind in
    one run never share it. -/
theorem run_condvarManager (hrun : s.run placeTy events = .ok s') :
    (∃ cvs, s'.condvarManager.condvars = s.condvarManager.condvars ++ cvs ∧
      cvs.length = events.countP fun e => e.condvarCall? = some .new) ∧
    (∀ pre fp args post, events = pre ++ .condvarWait fp args :: post →
      let labels := waitTransitionLabels
        (s.condvarManager.waitCounter + pre.countP fun e => e.condvarCall? = some .wait)
      ∃ s₁ s₂, s.run placeTy pre = .ok s₁ ∧ s₁.step placeTy (.condvarWait fp args) = .ok s₂ ∧
        s₂.net.transitions =
          s₁.net.transitions ++ labels.1 :: labels.2.1 :: (fp.2.2.map fun _ => labels.2.2).toList) ∧
    (∀ pre fp args post, events = pre ++ .condvarNotifyOne fp args :: post →
      let labels := notifyOneTransitionLabels
        (s.condvarManager.notifyOneCounter + pre.countP fun e => e.condvarCall? = some .notifyOne)
      ∃ s₁ s₂, s.run placeTy pre = .ok s₁ ∧ s₁.step placeTy (.condvarNotifyOne fp args) = .ok s₂ ∧
        s₂.net.transitions = s₁.net.transitions ++ labels.1 :: (fp.2.2.map fun _ => labels.2).toList) := by
  refine ⟨(run_counters hrun).1, ?_, ?_⟩
  · rintro pre fp args post rfl
    obtain ⟨s₁, s₂, h₁, h₂⟩ := run_split hrun
    exact ⟨s₁, s₂, h₁, h₂, (run_counters h₁).2.1 ▸ step_condvarWait_transitions h₂⟩
  · rintro pre fp args post rfl
    obtain ⟨s₁, s₂, h₁, h₂⟩ := run_split hrun
    exact ⟨s₁, s₂, h₁, h₂, (run_counters h₁).2.2 ▸ step_condvarNotifyOne_transitions h₂⟩

/-- In the run of `lostSignalPossible_add_waitInput_in_wait`, the wait after
    `lockEvents` is the first, and its start and end transitions are labelled
    with the number `0`. -/
theorem run_condvarManager_after_wait :
    ∃ s₁ s₂, (init PetriNet.new).run (fun _ => "") lockEvents = .ok s₁ ∧
      s₁.step (fun _ => "") (.condvarWait (⟨1⟩, ⟨2⟩, none) [.move ⟨1, []⟩, .move ⟨3, []⟩]) =
        .ok s₂ ∧
      s₂.net.transitions = s₁.net.transitions ++
        ["std_sync_Condvar_wait_0_START", "std_sync_Condvar_wait_0_END"] :=
  (run_condvarManager (rfl : (init PetriNet.new).run (fun _ => "")
    (lockEvents ++ [.condvarWait (⟨1⟩, ⟨2⟩, none) [.move ⟨1, []⟩, .move ⟨3, []⟩]]) = .ok _)).2.1
    lockEvents _ _ [] rfl

end Counters

end Translator

end Granite
