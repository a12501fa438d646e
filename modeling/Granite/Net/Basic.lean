import Mathlib.Data.List.Basic

/-!
# Petri Nets Under Construction

The net the translator appends to. Translation never reads a net back while it
builds one: it adds places, transitions, arcs and initial tokens, through
`netcrab`'s `PetriNet` and the two wrappers of `petri_net_interface.rs`, and
hands the finished net to the serializers.

`netcrab` keeps the arcs on the nodes they touch, and so does the model: a
place is a record of its label, its initial marking, and the transitions on
either side of it, each listed once per arc added. An arc added twice is
listed twice and weighs two. `netcrab` (not under `src/`) refuses an arc
that is already there, and the wrappers of `petri_net_interface.rs` turn any
refusal into a `BUG` panic; so where a translation adds one arc twice, the
code panics and the model goes on with the heavier arc.

A ref is a position in the net's lists, and `addPlace` and `addTransition`
hand out the next one. Freshness is then a matter of construction: a place
added later starts with no arcs and no tokens. `netcrab` rejects a ref it
did not hand out, and the wrappers turn that into a `BUG` panic; every ref
the translator holds was handed out by the same net, so that path never runs,
and the model drops an arc or token aimed at a position the net does not
have. A place is therefore never wired before it exists.

## Main definitions

* `PetriNet`: Places with their arcs and initial marking, and transition
  labels.
* `PetriNet.addPlace`, `PetriNet.addTransition`: Append a node, returning its
  ref; `pushPlace` and `pushTransition` are the net they leave.
* `PetriNet.addArcPlaceTransition`, `PetriNet.addArcTransitionPlace`: Add an
  arc of multiplicity one.
* `PetriNet.addToken`: Add initial tokens to a place.
* `PetriNet.marking`, `PetriNet.preset`, `PetriNet.postset`: What the net
  holds at a place.

## Theorems

One lemma per operation and accessor, `_self` where the operation acts and
`_of_ne` or unconditional where it does not, so that later proofs never
unfold an operation.
-/

namespace Granite

/-- A place of the net, by position. -/
@[ext]
structure PlaceRef where
  index : Nat
  deriving DecidableEq, Repr

/-- A transition of the net, by position. -/
@[ext]
structure TransitionRef where
  index : Nat
  deriving DecidableEq, Repr

/-- A place: its label, its initial marking, the transitions with an arc into
    it (`preset`) and those with an arc out of it (`postset`). -/
structure Place where
  label : String
  marking : Nat
  preset : List TransitionRef
  postset : List TransitionRef
  deriving Repr

/-- A net under construction: its places and the labels of its transitions. -/
structure PetriNet where
  places : List Place
  transitions : List String
  deriving Repr

namespace PetriNet

/-- The empty net. -/
def new : PetriNet := ⟨[], []⟩

/-- The net with one more place, with no tokens and no arcs. -/
def pushPlace (net : PetriNet) (label : String) : PetriNet :=
  { net with places := net.places ++ [⟨label, 0, [], []⟩] }

/-- The net with one more transition, with no arcs. -/
def pushTransition (net : PetriNet) (label : String) : PetriNet :=
  { net with transitions := net.transitions ++ [label] }

/-- Add a place with no tokens and no arcs, returning its ref. -/
def addPlace (net : PetriNet) (label : String) : PlaceRef × PetriNet :=
  (⟨net.places.length⟩, net.pushPlace label)

/-- Add a transition with no arcs, returning its ref. -/
def addTransition (net : PetriNet) (label : String) : TransitionRef × PetriNet :=
  (⟨net.transitions.length⟩, net.pushTransition label)

/-- Add `tokens` to the initial marking of a place. -/
def addToken (net : PetriNet) (p : PlaceRef) (tokens : Nat) : PetriNet :=
  { net with
    places := net.places.modify (fun pl => { pl with marking := pl.marking + tokens }) p.index }

/-- Add an arc from a place to a transition. -/
def addArcPlaceTransition (net : PetriNet) (p : PlaceRef) (t : TransitionRef) : PetriNet :=
  { net with places := net.places.modify (fun pl => { pl with postset := pl.postset ++ [t] }) p.index }

/-- Add an arc from a transition to a place. -/
def addArcTransitionPlace (net : PetriNet) (t : TransitionRef) (p : PlaceRef) : PetriNet :=
  { net with places := net.places.modify (fun pl => { pl with preset := pl.preset ++ [t] }) p.index }

/-- The initial marking of a place, `0` where the net has no place. -/
def marking (net : PetriNet) (p : PlaceRef) : Nat :=
  (net.places[p.index]?.map Place.marking).getD 0

/-- The transitions with an arc into a place. -/
def preset (net : PetriNet) (p : PlaceRef) : List TransitionRef :=
  (net.places[p.index]?.map Place.preset).getD []

/-- The transitions with an arc out of a place. -/
def postset (net : PetriNet) (p : PlaceRef) : List TransitionRef :=
  (net.places[p.index]?.map Place.postset).getD []

/-- A place holds a ref the net handed out. -/
def HasPlace (net : PetriNet) (p : PlaceRef) : Prop := p.index < net.places.length

section

variable (net : PetriNet) (p : PlaceRef)

theorem marking_eq_zero (h : ¬net.HasPlace p) : net.marking p = 0 := by
  simp [marking, List.getElem?_eq_none (Nat.le_of_not_lt h)]

theorem preset_eq_nil (h : ¬net.HasPlace p) : net.preset p = [] := by
  simp [preset, List.getElem?_eq_none (Nat.le_of_not_lt h)]

theorem postset_eq_nil (h : ¬net.HasPlace p) : net.postset p = [] := by
  simp [postset, List.getElem?_eq_none (Nat.le_of_not_lt h)]

end

/-! ### Adding a place -/

section

variable (net : PetriNet) (label : String) (p : PlaceRef)

/-- The new place sits where the old net had none, so every accessor is
    unchanged, the new place included. -/
theorem getElem?_pushPlace_map {β : Type} (f : Place → β) (d : β) (hd : f ⟨label, 0, [], []⟩ = d) :
    (((net.pushPlace label).places[p.index]?).map f).getD d =
      ((net.places[p.index]?).map f).getD d := by
  simp only [pushPlace, List.getElem?_append]
  rcases Nat.lt_trichotomy p.index net.places.length with h | h | h
  · simp [h]
  · simp [h, hd]
  · have : [(⟨label, 0, [], []⟩ : Place)].length ≤ p.index - net.places.length := by simp; omega
    simp [h.not_lt, List.getElem?_eq_none (Nat.le_of_lt h), List.getElem?_eq_none this]

@[simp] theorem pushPlace_places_length :
    (net.pushPlace label).places.length = net.places.length + 1 := by
  simp [pushPlace]

@[simp] theorem pushPlace_transitions : (net.pushPlace label).transitions = net.transitions := rfl

@[simp] theorem marking_pushPlace : (net.pushPlace label).marking p = net.marking p :=
  getElem?_pushPlace_map net label p _ _ rfl

@[simp] theorem preset_pushPlace : (net.pushPlace label).preset p = net.preset p :=
  getElem?_pushPlace_map net label p _ _ rfl

@[simp] theorem postset_pushPlace : (net.pushPlace label).postset p = net.postset p :=
  getElem?_pushPlace_map net label p _ _ rfl

end

/-! ### Adding a transition -/

section

variable (net : PetriNet) (label : String) (p : PlaceRef)

@[simp] theorem pushTransition_places : (net.pushTransition label).places = net.places := rfl

@[simp] theorem pushTransition_transitions_length :
    (net.pushTransition label).transitions.length = net.transitions.length + 1 := by
  simp [pushTransition]

@[simp] theorem marking_pushTransition : (net.pushTransition label).marking p = net.marking p := rfl

@[simp] theorem preset_pushTransition : (net.pushTransition label).preset p = net.preset p := rfl

@[simp] theorem postset_pushTransition : (net.pushTransition label).postset p = net.postset p := rfl

end

/-! ### Adding tokens and arcs -/

section

variable (net : PetriNet) (p q : PlaceRef) (t : TransitionRef) (n : Nat)

theorem index_ne_of_ne {q p : PlaceRef} (h : q ≠ p) : p.index ≠ q.index :=
  fun e => h (PlaceRef.ext e.symm)

/-- Modifying a place in a way that keeps one of its fields keeps that field
    at every position. -/
theorem map_getElem?_modify {β : Type} (l : List Place) (f : Place → Place) (g : Place → β)
    (hfg : ∀ x, g (f x) = g x) (i j : Nat) :
    ((l.modify f i)[j]?).map g = (l[j]?).map g := by
  rw [List.getElem?_modify]
  cases l[j]? <;> by_cases h : i = j <;> simp [h, hfg]

@[simp] theorem addToken_places_length : (net.addToken p n).places.length = net.places.length := by
  simp [addToken]

@[simp] theorem addToken_transitions : (net.addToken p n).transitions = net.transitions := rfl

theorem marking_addToken_self (h : net.HasPlace p) :
    (net.addToken p n).marking p = net.marking p + n := by
  simp [addToken, marking, List.getElem?_eq_getElem h]

theorem marking_addToken_of_ne (h : q ≠ p) : (net.addToken p n).marking q = net.marking q := by
  simp [addToken, marking, index_ne_of_ne h]

@[simp] theorem preset_addToken : (net.addToken p n).preset q = net.preset q := by
  rw [preset, addToken, map_getElem?_modify]
  exacts [rfl, fun _ => rfl]

@[simp] theorem postset_addToken : (net.addToken p n).postset q = net.postset q := by
  rw [postset, addToken, map_getElem?_modify]
  exacts [rfl, fun _ => rfl]

@[simp] theorem addArcPlaceTransition_places_length :
    (net.addArcPlaceTransition p t).places.length = net.places.length := by
  simp [addArcPlaceTransition]

@[simp] theorem addArcPlaceTransition_transitions :
    (net.addArcPlaceTransition p t).transitions = net.transitions := rfl

theorem postset_addArcPlaceTransition_self (h : net.HasPlace p) :
    (net.addArcPlaceTransition p t).postset p = net.postset p ++ [t] := by
  simp [addArcPlaceTransition, postset, List.getElem?_eq_getElem h]

theorem postset_addArcPlaceTransition_of_ne (h : q ≠ p) :
    (net.addArcPlaceTransition p t).postset q = net.postset q := by
  simp [addArcPlaceTransition, postset, index_ne_of_ne h]

@[simp] theorem preset_addArcPlaceTransition :
    (net.addArcPlaceTransition p t).preset q = net.preset q := by
  rw [preset, addArcPlaceTransition, map_getElem?_modify]
  exacts [rfl, fun _ => rfl]

@[simp] theorem marking_addArcPlaceTransition :
    (net.addArcPlaceTransition p t).marking q = net.marking q := by
  rw [marking, addArcPlaceTransition, map_getElem?_modify]
  exacts [rfl, fun _ => rfl]

@[simp] theorem addArcTransitionPlace_places_length :
    (net.addArcTransitionPlace t p).places.length = net.places.length := by
  simp [addArcTransitionPlace]

@[simp] theorem addArcTransitionPlace_transitions :
    (net.addArcTransitionPlace t p).transitions = net.transitions := rfl

theorem preset_addArcTransitionPlace_self (h : net.HasPlace p) :
    (net.addArcTransitionPlace t p).preset p = net.preset p ++ [t] := by
  simp [addArcTransitionPlace, preset, List.getElem?_eq_getElem h]

theorem preset_addArcTransitionPlace_of_ne (h : q ≠ p) :
    (net.addArcTransitionPlace t p).preset q = net.preset q := by
  simp [addArcTransitionPlace, preset, index_ne_of_ne h]

@[simp] theorem postset_addArcTransitionPlace :
    (net.addArcTransitionPlace t p).postset q = net.postset q := by
  rw [postset, addArcTransitionPlace, map_getElem?_modify]
  exacts [rfl, fun _ => rfl]

@[simp] theorem marking_addArcTransitionPlace :
    (net.addArcTransitionPlace t p).marking q = net.marking q := by
  rw [marking, addArcTransitionPlace, map_getElem?_modify]
  exacts [rfl, fun _ => rfl]

end

/-! ### Places an operation leaves alone -/

/-- `net'` holds at `q` what `net` holds: the same arcs both ways and the same
    tokens. -/
structure SameAt (net net' : PetriNet) (q : PlaceRef) : Prop where
  preset : net'.preset q = net.preset q
  postset : net'.postset q = net.postset q
  marking : net'.marking q = net.marking q

namespace SameAt

variable {net net' net'' : PetriNet} {q : PlaceRef}

theorem refl (net : PetriNet) (q : PlaceRef) : net.SameAt net q := ⟨rfl, rfl, rfl⟩

theorem trans (h : net.SameAt net' q) (h' : net'.SameAt net'' q) : net.SameAt net'' q :=
  ⟨h'.preset.trans h.preset, h'.postset.trans h.postset, h'.marking.trans h.marking⟩

end SameAt

section

variable (net : PetriNet) (p q : PlaceRef) (t : TransitionRef) (label : String) (n : Nat)

theorem sameAt_pushPlace : net.SameAt (net.pushPlace label) q := by
  constructor <;> simp

theorem sameAt_pushTransition : net.SameAt (net.pushTransition label) q := ⟨rfl, rfl, rfl⟩

theorem sameAt_addToken (h : q ≠ p) : net.SameAt (net.addToken p n) q :=
  ⟨by simp, by simp, marking_addToken_of_ne net p q n h⟩

theorem sameAt_addArcPlaceTransition (h : q ≠ p) : net.SameAt (net.addArcPlaceTransition p t) q :=
  ⟨by simp, postset_addArcPlaceTransition_of_ne net p q t h, by simp⟩

theorem sameAt_addArcTransitionPlace (h : q ≠ p) : net.SameAt (net.addArcTransitionPlace t p) q :=
  ⟨preset_addArcTransitionPlace_of_ne net p q t h, by simp, by simp⟩

end

end PetriNet

end Granite
