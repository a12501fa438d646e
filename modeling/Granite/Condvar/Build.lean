import Granite.Condvar.Tokens

/-!
# Building a Net Around a Condition Variable

The construction side of the condvar results: `Condvar::new`, then whatever
the rest of the translation does to the net, in any order and any number of
times.

A `Step` is one of three things. A wait call on the condvar, translated as
`translate_call_wait` and `translate_side_effects_wait` translate it:
`create_wait_function_call` builds the start and end transitions, the mutex
is released at the start and reacquired at the end, and `link_to_wait_call`
attaches both to the gadget. A notify call, translated by
`translate_call_notify_one` and `translate_side_effects_notify_one` as an
opaque call linked by `link_to_notify_one_call`. Or any primitive operation
on the net, which covers every other gadget, call and control-flow arc the
translator emits. `Build` carries the net together with the calls linked so
far, which the code does not store but which name the transitions the
results count.

The only assumption is `Step.Avoids`: no other operation touches the four
places, and no call site or mutex uses them as its own. The `Condvar` struct
keeps its places private, so this is how the code stands.

`Wired` is the invariant: the gadget's view `CondvarArcs` with the calls
recorded, and the freshness facts that keep it true when a call is linked.
Freshness also keeps each transition to one part at the gadget
(`CallsDistinct`): a call's transitions are the net's next ones, so they are
none of those recorded (`Wired.step_distinct`). `step_wired` shows one step
keeps the invariant and `run_wired` that a whole build does;
`buildCondvar_wired` starts it at `Condvar::new`. The token-flow results of
`Condvar.Tokens` and the refinement of `Condvar.Refinement` then apply to the
finished net.

## Main definitions

* `Step`: One thing the translation does to the net.
* `Build`: The net and the calls linked to the condvar.
* `Build.step`, `Build.run`: Applying steps.
* `Step.Avoids`: A step leaves the condvar's places to the condvar.
* `buildCondvar`: `Condvar::new`, then the steps.
* `CallsDistinct`: Each transition plays one part at the gadget.
* `Wired`: The invariant of a build.

## Theorems

* `Build.sameAt_step`: A step leaves alone the places of every other condvar
  it avoids.
* `Build.step_wait_transitions`, `Build.step_notifyOne_transitions`: The
  labels a call appends.
* `Wired.frame`: A change away from the gadget's places keeps it wired.
* `Wired.step_distinct`: Linking a call keeps each transition to one part.
* `Wired.new`, `step_wired`, `run_wired`, `buildCondvar_wired`: Every build
  is wired.
-/

namespace Granite

open PetriNet

/-- One thing the translation does to the net once the condvar exists. -/
inductive Step where
  | wait (functionCallPlaces : FunctionPlaces) (labels : String × String × String)
      (mutex : Mutex)
  | notifyOne (functionCallPlaces : FunctionPlaces) (labels : String × String)
  | addPlace (label : String)
  | addTransition (label : String)
  | addArcPlaceTransition (p : PlaceRef) (t : TransitionRef)
  | addArcTransitionPlace (t : TransitionRef) (p : PlaceRef)
  | addToken (p : PlaceRef) (tokens : Nat)
  deriving Repr

/-- The net, with the wait calls and notify calls linked to the condvar. -/
structure Build where
  net : PetriNet
  waits : List (TransitionRef × TransitionRef)
  notifies : List TransitionRef

namespace Build

/-- One step of the translation, with the condvar `cv`. -/
def step (cv : Condvar) (b : Build) : Step → Build
  | .wait fp labels mutex =>
      let ((waitStart, waitEnd), net) := createWaitFunctionCall fp labels b.net
      let net := mutex.addUnlockGuard waitStart net
      let net := mutex.addLockGuard waitEnd net
      ⟨cv.linkToWaitCall waitStart waitEnd net, b.waits ++ [(waitStart, waitEnd)], b.notifies⟩
  | .notifyOne fp labels =>
      let (t, net) := callForeignFunction fp labels b.net
      ⟨cv.linkToNotifyOneCall t net, b.waits, b.notifies ++ [t]⟩
  | .addPlace label => { b with net := (b.net.addPlace label).2 }
  | .addTransition label => { b with net := (b.net.addTransition label).2 }
  | .addArcPlaceTransition p t => { b with net := b.net.addArcPlaceTransition p t }
  | .addArcTransitionPlace t p => { b with net := b.net.addArcTransitionPlace t p }
  | .addToken p tokens => { b with net := b.net.addToken p tokens }

/-- The steps in order. -/
def run (cv : Condvar) : Build → List Step → Build
  | b, [] => b
  | b, s :: steps => run cv (b.step cv s) steps

end Build

/-- A step uses none of the condvar's places as its own. -/
def Step.Avoids (cv : Condvar) : Step → Prop
  | .wait fp _ mutex => ∀ p ∈ cv.places, p ∉ callPlaces fp ∧ p ∉ mutex.places
  | .notifyOne fp _ => ∀ p ∈ cv.places, p ∉ callPlaces fp
  | .addPlace _ | .addTransition _ => True
  | .addArcPlaceTransition p _ | .addArcTransitionPlace _ p | .addToken p _ => p ∉ cv.places

/-- `Condvar::new` with index `index` on `net`, then `steps`. -/
def buildCondvar (index : Nat) (net : PetriNet) (steps : List Step) : Condvar × Build :=
  let (cv, net') := Condvar.new index net
  (cv, Build.run cv ⟨net', [], []⟩ steps)

/-- Each transition plays at most one part at the gadget: its own two
    transitions and those of the linked calls are all distinct. -/
def CallsDistinct (lst st : TransitionRef) (waits : List (TransitionRef × TransitionRef))
    (notifies : List TransitionRef) : Prop :=
  ([lst] ++ [st] ++ waits.map Prod.fst ++ waits.map Prod.snd ++ notifies).Nodup

/-- The invariant of a build: the gadget is wired to exactly the recorded
    calls, its places are distinct places of the net, every recorded
    transition is one the net has, so that the next call's are new, and no
    two of them are the same. -/
structure Wired (cv : Condvar) (lst st : TransitionRef) (b : Build) : Prop where
  arcs : CondvarArcs b.net cv lst st b.waits b.notifies
  nodup : cv.places.Nodup
  hasPlace : ∀ p ∈ cv.places, b.net.HasPlace p
  waits_lt : ∀ w ∈ b.waits,
    w.1.index < b.net.transitions.length ∧ w.2.index < b.net.transitions.length
  notifies_lt : ∀ t ∈ b.notifies, t.index < b.net.transitions.length
  lst_lt : lst.index < b.net.transitions.length
  st_lt : st.index < b.net.transitions.length
  distinct : CallsDistinct lst st b.waits b.notifies

instance (cv : Condvar) : ∀ s, Decidable (Step.Avoids cv s)
  | .wait fp _ mutex =>
      inferInstanceAs (Decidable (∀ p ∈ cv.places, p ∉ callPlaces fp ∧ p ∉ mutex.places))
  | .notifyOne fp _ => inferInstanceAs (Decidable (∀ p ∈ cv.places, p ∉ callPlaces fp))
  | .addPlace _ | .addTransition _ => isTrue trivial
  | .addArcPlaceTransition p _ | .addArcTransitionPlace _ p | .addToken p _ =>
      inferInstanceAs (Decidable (p ∉ cv.places))

namespace Build

variable {cv c : Condvar} (b : Build) {s : Step}

/-- A step adds places and transitions and removes none. -/
theorem places_length_le_step : b.net.places.length ≤ (b.step cv s).net.places.length := by
  cases s <;> simp [step, addPlace, addTransition]

/-- A wait step appends the transitions of its call site, under its labels;
    linking them to the mutex and the condvar adds only arcs. -/
theorem step_wait_transitions {fp : FunctionPlaces} {labels : String × String × String}
    {mutex : Mutex} :
    (b.step cv (.wait fp labels mutex)).net.transitions =
      b.net.transitions ++ labels.1 :: labels.2.1 :: (fp.2.2.map fun _ => labels.2.2).toList := by
  simp only [step, Condvar.linkToWaitCall_transitions, Mutex.addLockGuard_transitions,
    Mutex.addUnlockGuard_transitions, createWaitFunctionCall_transitions]

/-- A notify step appends the transitions of its call site, under its
    labels. -/
theorem step_notifyOne_transitions {fp : FunctionPlaces} {labels : String × String} :
    (b.step cv (.notifyOne fp labels)).net.transitions =
      b.net.transitions ++ labels.1 :: (fp.2.2.map fun _ => labels.2).toList := by
  simp only [step, Condvar.linkToNotifyOneCall_transitions, callForeignFunction_transitions]

theorem transitions_length_le_step :
    b.net.transitions.length ≤ (b.step cv s).net.transitions.length := by
  cases s with
  | wait fp labels mutex => simp [step_wait_transitions]
  | notifyOne fp labels => simp [step_notifyOne_transitions]
  | _ => simp [step, addPlace, addTransition]

/-- A step that avoids the places of `c` leaves them alone, unless they are
    the places of the condvar `cv` it links. -/
theorem sameAt_step (hs : s.Avoids c) {q : PlaceRef} (hq : q ∈ c.places) (hcv : q ∉ cv.places) :
    b.net.SameAt (b.step cv s).net q := by
  cases s with
  | wait fp labels mutex =>
      exact (((sameAt_createWaitFunctionCall fp b.net q labels (hs q hq).1).trans
        (Mutex.sameAt_addUnlockGuard _ _ _ _ (hs q hq).2)).trans
        (Mutex.sameAt_addLockGuard _ _ _ _ (hs q hq).2)).trans
        (Condvar.sameAt_linkToWaitCall _ _ _ _ hcv)
  | notifyOne fp labels =>
      exact (sameAt_callForeignFunction fp b.net q labels (hs q hq)).trans
        (Condvar.sameAt_linkToNotifyOneCall _ _ _ hcv)
  | addPlace label => exact sameAt_pushPlace _ _ _
  | addTransition label => exact sameAt_pushTransition _ _ _
  | addArcPlaceTransition p t => exact sameAt_addArcPlaceTransition _ _ _ _ (ne_of_mem_of_not_mem hq hs)
  | addArcTransitionPlace t p => exact sameAt_addArcTransitionPlace _ _ _ _ (ne_of_mem_of_not_mem hq hs)
  | addToken p tokens => exact sameAt_addToken _ _ _ _ (ne_of_mem_of_not_mem hq hs)

/-- The recorded calls are bookkeeping: the net a step builds does not
    depend on them. -/
theorem step_net : (b.step cv s).net = (Build.step cv ⟨b.net, [], []⟩ s).net := by
  cases s <;> rfl

end Build

/-- A change of the net away from the gadget's places, that removes no place
    or transition, keeps it wired. -/
theorem Wired.frame {cv : Condvar} {lst st : TransitionRef} {net net' : PetriNet}
    {waits : List (TransitionRef × TransitionRef)} {notifies : List TransitionRef}
    (h : Wired cv lst st ⟨net, waits, notifies⟩) (hs : ∀ p ∈ cv.places, net.SameAt net' p)
    (hp : net.places.length ≤ net'.places.length)
    (ht : net.transitions.length ≤ net'.transitions.length) :
    Wired cv lst st ⟨net', waits, notifies⟩ :=
  ⟨h.arcs.congr hs, h.nodup, fun p hp' => Nat.lt_of_lt_of_le (h.hasPlace p hp') hp,
    fun w hw => ⟨Nat.lt_of_lt_of_le (h.waits_lt w hw).1 ht, Nat.lt_of_lt_of_le (h.waits_lt w hw).2 ht⟩,
    fun t ht' => Nat.lt_of_lt_of_le (h.notifies_lt t ht') ht, Nat.lt_of_lt_of_le h.lst_lt ht,
    Nat.lt_of_lt_of_le h.st_lt ht, h.distinct⟩

/-- A transition the net does not have yet is linked to no call. -/
theorem Wired.not_mem_calls {cv : Condvar} {lst st : TransitionRef} {b : Build}
    (h : Wired cv lst st b) {t : TransitionRef} (ht : b.net.transitions.length ≤ t.index) :
    t ∉ b.waits.map Prod.fst ∧ t ∉ b.waits.map Prod.snd ∧ t ∉ b.notifies := by
  refine ⟨fun hm => ?_, fun hm => ?_, fun hm => Nat.not_lt.2 ht (h.notifies_lt t hm)⟩
  · obtain ⟨w, hw, rfl⟩ := List.mem_map.1 hm
    exact Nat.not_lt.2 ht (h.waits_lt w hw).1
  · obtain ⟨w, hw, rfl⟩ := List.mem_map.1 hm
    exact Nat.not_lt.2 ht (h.waits_lt w hw).2

/-- Linking calls whose transitions are distinct and new keeps each
    transition to one part. -/
theorem CallsDistinct.append {lst st : TransitionRef} {waits waits' : List (TransitionRef × TransitionRef)}
    {notifies notifies' : List TransitionRef} (hd : CallsDistinct lst st waits notifies) {n : Nat}
    (hlt : ∀ t ∈ [lst] ++ [st] ++ waits.map Prod.fst ++ waits.map Prod.snd ++ notifies,
      t.index < n)
    (hnew : (waits'.map Prod.fst ++ waits'.map Prod.snd ++ notifies').Nodup)
    (hge : ∀ t ∈ waits'.map Prod.fst ++ waits'.map Prod.snd ++ notifies', n ≤ t.index) :
    CallsDistinct lst st (waits ++ waits') (notifies ++ notifies') := by
  have hperm : ([lst] ++ [st] ++ (waits ++ waits').map Prod.fst ++ (waits ++ waits').map Prod.snd ++
      (notifies ++ notifies')).Perm (([lst] ++ [st] ++ waits.map Prod.fst ++
        waits.map Prod.snd ++ notifies) ++ (waits'.map Prod.fst ++ waits'.map Prod.snd ++
          notifies')) :=
    List.perm_iff_count.2 fun t => by
      simp only [List.map_append, List.count_append]
      omega
  exact hperm.nodup_iff.2 (List.nodup_append.2 ⟨hd, hnew, fun t h₁ h₂ =>
    Nat.not_lt.2 (hge t h₂) (hlt t h₁)⟩)

/-- Every transition a wired build records is one the net has. -/
theorem Wired.calls_lt {cv : Condvar} {lst st : TransitionRef} {b : Build} (h : Wired cv lst st b) :
    ∀ t ∈ [lst] ++ [st] ++ b.waits.map Prod.fst ++ b.waits.map Prod.snd ++ b.notifies,
      t.index < b.net.transitions.length := by
  simp only [List.mem_append, List.mem_singleton, List.mem_map]
  rintro t ((((rfl | rfl) | ⟨w, hw, rfl⟩) | ⟨w, hw, rfl⟩) | ht)
  exacts [h.lst_lt, h.st_lt, (h.waits_lt w hw).1, (h.waits_lt w hw).2, h.notifies_lt t ht]

/-- One step keeps each transition of a wired build to one part: a call's
    transitions are the net's next ones. -/
theorem Wired.step_distinct {cv : Condvar} {lst st : TransitionRef} {b : Build}
    (h : Wired cv lst st b) (s : Step) :
    CallsDistinct lst st (b.step cv s).waits (b.step cv s).notifies := by
  cases s with
  | wait fp labels mutex =>
      simp only [Build.step, createWaitFunctionCall_fst]
      simpa using @CallsDistinct.append lst st b.waits [(⟨b.net.transitions.length⟩,
        ⟨b.net.transitions.length + 1⟩)] b.notifies [] h.distinct _ h.calls_lt (by simp) (by simp)
  | notifyOne fp labels =>
      simp only [Build.step, callForeignFunction_fst]
      simpa using @CallsDistinct.append lst st b.waits [] b.notifies [⟨b.net.transitions.length⟩]
        h.distinct _ h.calls_lt (by simp) (by simp)
  | _ => exact h.distinct

/-- One step keeps a build wired. -/
theorem step_wired {cv : Condvar} {lst st : TransitionRef} {b : Build} (h : Wired cv lst st b)
    {s : Step} (hs : s.Avoids cv) : Wired cv lst st (b.step cv s) := by
  cases s with
  | wait fp labels mutex =>
      have hd := h.step_distinct (.wait fp labels mutex)
      simp only [Build.step, createWaitFunctionCall_fst] at hd ⊢
      have hlen := le_createWaitFunctionCall_transitions_length fp b.net labels
      have hplen := createWaitFunctionCall_places_length fp b.net labels
      have hsame : ∀ p ∈ cv.places,
          b.net.SameAt (mutex.addLockGuard ⟨b.net.transitions.length + 1⟩
            (mutex.addUnlockGuard ⟨b.net.transitions.length⟩
              (createWaitFunctionCall fp labels b.net).2)) p := fun p hp =>
        ((sameAt_createWaitFunctionCall fp b.net p labels (hs p hp).1).trans
          (Mutex.sameAt_addUnlockGuard _ _ _ _ (hs p hp).2)).trans
          (Mutex.sameAt_addLockGuard _ _ _ _ (hs p hp).2)
      have hhas : ∀ p ∈ cv.places, (createWaitFunctionCall fp labels b.net).2.HasPlace p :=
        fun p hp => by simpa [HasPlace, hplen] using h.hasPlace p hp
      refine ⟨(h.arcs.congr hsame).linkToWaitCall h.nodup (by simpa [HasPlace] using hhas)
        (h.not_mem_calls le_rfl).1 (h.not_mem_calls (Nat.le_succ _)).2.1, h.nodup,
        by simpa [HasPlace] using hhas, fun w hw => ?_, fun t ht => ?_, ?_, ?_, hd⟩ <;>
        simp only [Condvar.linkToWaitCall_transitions, Mutex.addLockGuard_transitions,
          Mutex.addUnlockGuard_transitions]
      · rcases List.mem_append.1 hw with hw | hw
        · have := h.waits_lt w hw
          omega
        · obtain rfl := List.mem_singleton.1 hw
          dsimp only
          omega
      · have := h.notifies_lt t ht
        omega
      · have := h.lst_lt
        omega
      · have := h.st_lt
        omega
  | notifyOne fp labels =>
      have hd := h.step_distinct (.notifyOne fp labels)
      simp only [Build.step, callForeignFunction_fst] at hd ⊢
      have hlen := lt_callForeignFunction_transitions_length fp b.net labels
      have hplen := callForeignFunction_places_length fp b.net labels
      have hsame : ∀ p ∈ cv.places, b.net.SameAt (callForeignFunction fp labels b.net).2 p :=
        fun p hp => sameAt_callForeignFunction fp b.net p labels (hs p hp)
      have hhas : ∀ p ∈ cv.places, (callForeignFunction fp labels b.net).2.HasPlace p :=
        fun p hp => by simpa [HasPlace, hplen] using h.hasPlace p hp
      refine ⟨(h.arcs.congr hsame).linkToNotifyOneCall h.nodup hhas (h.not_mem_calls le_rfl).2.2,
        h.nodup, by simpa [HasPlace] using hhas, fun w hw => ?_, fun t ht => ?_, ?_, ?_, hd⟩ <;>
        simp only [Condvar.linkToNotifyOneCall_transitions]
      · have := h.waits_lt w hw
        omega
      · rcases List.mem_append.1 ht with ht | ht
        · have := h.notifies_lt t ht
          omega
        · obtain rfl := List.mem_singleton.1 ht
          exact hlen
      · exact Nat.lt_trans h.lst_lt hlen
      · exact Nat.lt_trans h.st_lt hlen
  | addPlace label =>
      exact h.frame (fun _ _ => sameAt_pushPlace _ _ _) (by simp [Build.step, addPlace]) le_rfl
  | addTransition label =>
      exact h.frame (fun _ _ => sameAt_pushTransition _ _ _) le_rfl
        (by simp [Build.step, addTransition])
  | addArcPlaceTransition p t =>
      exact h.frame (fun _ hq => sameAt_addArcPlaceTransition _ _ _ _ (ne_of_mem_of_not_mem hq hs))
        (by simp [Build.step]) (by simp [Build.step])
  | addArcTransitionPlace t p =>
      exact h.frame (fun _ hq => sameAt_addArcTransitionPlace _ _ _ _ (ne_of_mem_of_not_mem hq hs))
        (by simp [Build.step]) (by simp [Build.step])
  | addToken p tokens =>
      exact h.frame (fun _ hq => sameAt_addToken _ _ _ _ (ne_of_mem_of_not_mem hq hs))
        (by simp [Build.step]) (by simp [Build.step])

/-- A whole run of steps keeps a build wired. -/
theorem run_wired {cv : Condvar} {lst st : TransitionRef} {b : Build} (h : Wired cv lst st b)
    {steps : List Step} (hs : ∀ s ∈ steps, s.Avoids cv) : Wired cv lst st (b.run cv steps) := by
  induction steps generalizing b with
  | nil => exact h
  | cons s steps ih =>
      exact ih (step_wired h (hs s (List.mem_cons_self _ _)))
        fun s' hs' => hs s' (List.mem_cons_of_mem _ hs')

/-- `Condvar::new` starts a build wired, with the gadget's own two
    transitions and no call. -/
theorem Wired.new (index : Nat) (net : PetriNet) :
    Wired (Condvar.new index net).1 (Condvar.lostSignalTransition net)
      (Condvar.signalTransition net) ⟨(Condvar.new index net).2, [], []⟩ :=
  ⟨Condvar.new_arcs index net, Condvar.new_places_nodup index net, Condvar.new_hasPlace index net,
    by simp, by simp, by simp [Condvar.lostSignalTransition], by simp [Condvar.signalTransition],
    by simp [CallsDistinct, Condvar.lostSignalTransition, Condvar.signalTransition]⟩

/-- Every build from `Condvar::new` is wired, with the gadget's own two
    transitions. -/
theorem buildCondvar_wired {index : Nat} {net : PetriNet} {steps : List Step} {cv : Condvar}
    {b : Build} (hb : buildCondvar index net steps = (cv, b)) (hs : ∀ s ∈ steps, s.Avoids cv) :
    Wired cv (Condvar.lostSignalTransition net) (Condvar.signalTransition net) b := by
  simp only [buildCondvar, Prod.mk.injEq] at hb
  obtain ⟨rfl, rfl⟩ := hb
  exact run_wired (Wired.new index net) hs

end Granite
