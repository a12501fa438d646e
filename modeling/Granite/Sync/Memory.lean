import Mathlib.Logic.Function.Basic
import Mathlib.Data.List.Basic

/-!
# Places, Operands and the Per-Function Memory

The linking code of `translator/sync.rs` reads MIR places and operands and
writes the memory of the function being translated, which records for each
local the synchronization value it denotes. The MIR side is rustc's: a place
is a local with a list of projections, an operand copies or moves a place or
is a constant. Only the projections the linking code looks at are kept apart.

The memory itself (`translator/mir_function.rs`) is not under `src/`, so it
is modelled from the spec: a map from local to a value, where a value is a
handle (an index into the arena of mutexes, guards, join handles or condition
variables) or an aggregate of values. A place is looked up by its local, and
each operation fails with an internal-invariant error when a place it reads
denotes nothing or not what the operation needs.

Every operation either fails or writes exactly one local, and reads through
`Memory.get` only. The `_eq_ok` lemmas say so once per operation, and later
proofs cite them instead of unfolding.

## Main definitions

* `Place`, `ProjectionElem`, `Operand`: The MIR terms the linking code reads.
* `Value`, `Memory`: What a local denotes.
* `Bug`: The panics of the linking code.
* `Memory.linkPlaceToSameValue`, `Memory.linkFieldInAggregate`,
  `Memory.createAggregate`: The three writes the linking code uses.
* `Memory.getLinked`, `Memory.bindNewHandle`: Reading a handle of one kind,
  and binding a new one.

## Theorems

* `Memory.mapM_get_eq_ok`: Reading a list of places reads each one.
* `Memory.linkPlaceToSameValue_eq_ok`, `Memory.linkFieldInAggregate_eq_ok`,
  `Memory.createAggregate_eq_ok`: What each write does.
* `Memory.linkPlaceToSameValue_idem`: Linking twice is linking once.
* `Memory.getLinked_eq_ok`, `Memory.getLinkedCondvar_eq_ok`: What a handle
  lookup reads.
* `Memory.All.linkPlaceToSameValue` and its siblings: The writes store only
  what was read.
-/

namespace Granite.Sync

/-- A projection of a MIR place. The linking code tells apart only `Deref`
    and `Field`; the field's type is left out. -/
inductive ProjectionElem where
  | deref
  | field (number : Nat)
  /-- `Index`, `ConstantIndex`, `Subslice`, `Downcast` and the casts, which
      the linking code skips. -/
  | other
deriving DecidableEq, Repr

/-- A MIR place: a local and the projections applied to it. -/
structure Place where
  «local» : Nat
  projection : List ProjectionElem
deriving DecidableEq, Repr

/-- A MIR operand; a constant's value is left out. -/
inductive Operand where
  | copy (place : Place)
  | move (place : Place)
  | constant
deriving DecidableEq, Repr

/-- The place an operand reads, if it is not a constant. -/
def Operand.place? : Operand → Option Place
  | .copy place | .move place => some place
  | .constant => none

/-- Modelled from the spec: what a local denotes, a handle (by its index in
    the arena of its kind) or an aggregate of values, member by member. -/
inductive Value where
  | mutex (index : Nat)
  | mutexGuard (index : Nat)
  | joinHandle (index : Nat)
  | condvar (index : Nat)
  | aggregate (members : List Value)
deriving Repr

/-- Modelled from the spec: the memory of one function, from local to the
    value it denotes. -/
abbrev Memory := Nat → Option Value

/-- The BUG panics of the translator. `fieldNumberNotFound` is the `expect`
    of `link_if_sync_variable`, "BUG: A field number was not found for an
    indirect place", and `invalidCondvarRef` that of `get_condvar_from_ref`,
    "BUG: The condvar reference should be a valid index for the vector of
    condition variables"; the others are the spec's internal-invariant
    errors. -/
inductive Bug where
  | fieldNumberNotFound
  | unlinkedPlace (place : Place)
  | notAggregate (place : Place)
  | fieldOutOfRange (place : Place) (index : Nat)
  /-- A place denotes a value, but not a handle of the kind asked for. -/
  | wrongHandle (place : Place)
  /-- A call has no `n`-th argument, or it is a constant. -/
  | missingArgument (n : Nat)
  | invalidCondvarRef (index : Nat)
  | invalidMutexRef (index : Nat)
deriving DecidableEq, Repr

/-- The index of a condition variable handle. -/
def Value.condvarIndex? : Value → Option Nat
  | .condvar index => some index
  | _ => none

/-- The index of a mutex handle. -/
def Value.mutexIndex? : Value → Option Nat
  | .mutex index => some index
  | _ => none

/-- The index of the mutex a lock guard holds. -/
def Value.lockGuardIndex? : Value → Option Nat
  | .mutexGuard index => some index
  | _ => none

namespace Memory

variable {memory memory' : Memory} {place placeToLink placeLinked : Place} {value : Value}

/-- Modelled from the spec: the value a place denotes. -/
def get (memory : Memory) (place : Place) : Except Bug Value :=
  match memory place.local with
  | some value => .ok value
  | none => .error (.unlinkedPlace place)

/-- Modelled from the spec (`link`): `placeToLink` now denotes what
    `placeLinked` denotes. -/
def linkPlaceToSameValue (memory : Memory) (placeToLink placeLinked : Place) :
    Except Bug Memory := do
  let value ← memory.get placeLinked
  pure (Function.update memory placeToLink.local (some value))

/-- Modelled from the spec (`link_field`): `placeToLink` now denotes member
    `index` of the aggregate that `placeLinked` denotes. -/
def linkFieldInAggregate (memory : Memory) (placeToLink placeLinked : Place) (index : Nat) :
    Except Bug Memory := do
  match ← memory.get placeLinked with
  | .aggregate members =>
      match members[index]? with
      | some value => pure (Function.update memory placeToLink.local (some value))
      | none => throw (.fieldOutOfRange placeLinked index)
  | _ => throw (.notAggregate placeLinked)

/-- Modelled from the spec: `place` now denotes the aggregate of what
    `placesLinked` denote, in their order. -/
def createAggregate (memory : Memory) (place : Place) (placesLinked : List Place) :
    Except Bug Memory := do
  let members ← placesLinked.mapM memory.get
  pure (Function.update memory place.local (some (.aggregate members)))

/-- Modelled from the spec: the index of the handle of one kind that a place
    denotes, `index?` telling the kind. -/
def getLinked (memory : Memory) (place : Place) (index? : Value → Option Nat) :
    Except Bug Nat := do
  match index? (← memory.get place) with
  | some index => pure index
  | none => throw (.wrongHandle place)

/-- Modelled from the spec: the condition variable a place denotes. -/
def getLinkedCondvar (memory : Memory) (place : Place) : Except Bug Nat :=
  memory.getLinked place Value.condvarIndex?

/-- Modelled from the spec: the mutex a place denotes. -/
def getLinkedMutex (memory : Memory) (place : Place) : Except Bug Nat :=
  memory.getLinked place Value.mutexIndex?

/-- Modelled from the spec: the mutex of the lock guard a place denotes. -/
def getLinkedLockGuard (memory : Memory) (place : Place) : Except Bug Nat :=
  memory.getLinked place Value.lockGuardIndex?

/-- Modelled from the spec (`bind_new_handle`): `place` now denotes a handle
    just created. -/
def bindNewHandle (memory : Memory) (place : Place) (value : Value) : Memory :=
  Function.update memory place.local (some value)

/-- `place` now denotes condition variable `index`. -/
def linkPlaceToCondvar (memory : Memory) (place : Place) (index : Nat) : Memory :=
  memory.bindNewHandle place (.condvar index)

/-- Modelled from the spec: `place` now denotes mutex `index`. -/
def linkPlaceToMutex (memory : Memory) (place : Place) (index : Nat) : Memory :=
  memory.bindNewHandle place (.mutex index)

/-- Modelled from the spec: `place` now denotes a guard of mutex `index`. -/
def linkPlaceToLockGuard (memory : Memory) (place : Place) (index : Nat) : Memory :=
  memory.bindNewHandle place (.mutexGuard index)

/-- Peeling an `Except` computation: a bind succeeds when both parts do. -/
theorem except_bind_eq_ok {α β ε : Type} {x : Except ε α} {f : α → Except ε β} {b : β} :
    x >>= f = .ok b ↔ ∃ a, x = .ok a ∧ f a = .ok b := by
  cases x <;> simp [bind, Except.bind]

@[simp]
theorem except_map_eq_ok {α β ε : Type} {x : Except ε α} {f : α → β} {b : β} :
    f <$> x = .ok b ↔ ∃ a, x = .ok a ∧ f a = b := by
  cases x <;> simp [Functor.map, Except.map]

@[simp]
theorem except_pure_eq_ok {α ε : Type} {a b : α} : (pure a : Except ε α) = .ok b ↔ a = b := by
  simp [pure, Except.pure]

@[simp]
theorem get_eq_ok : memory.get place = .ok value ↔ memory place.local = some value := by
  unfold get
  split <;> simp_all

/-- Reading a list of places succeeds with the values of their locals. -/
theorem mapM_get_eq_ok {places : List Place} {values : List Value} :
    places.mapM memory.get = .ok values ↔
      places.map (fun place => memory place.local) = values.map some := by
  induction places generalizing values with
  | nil => cases values <;> simp [-List.mapM]
  | cons place places ih =>
      cases values <;> simp [except_bind_eq_ok, ih, -List.mapM]

/-- A lookup of a handle of one kind succeeds on a place whose value is such a
    handle, with its index. -/
theorem getLinked_eq_ok {index? : Value → Option Nat} {index : Nat} :
    memory.getLinked place index? = .ok index ↔
      ∃ value, memory place.local = some value ∧ index? value = some index := by
  simp only [getLinked, except_bind_eq_ok, get_eq_ok]
  refine exists_congr fun value => and_congr_right fun _ => ?_
  cases index? value <;> simp [throw, throwThe, MonadExceptOf.throw]

theorem getLinkedCondvar_eq_ok {index : Nat} :
    memory.getLinkedCondvar place = .ok index ↔ memory place.local = some (.condvar index) := by
  refine getLinked_eq_ok.trans ⟨fun ⟨value, hv, hi⟩ => ?_, fun h => ⟨_, h, rfl⟩⟩
  cases value <;> cases hi
  exact hv

theorem getLinkedLockGuard_eq_ok {index : Nat} :
    memory.getLinkedLockGuard place = .ok index ↔
      memory place.local = some (.mutexGuard index) := by
  refine getLinked_eq_ok.trans ⟨fun ⟨value, hv, hi⟩ => ?_, fun h => ⟨_, h, rfl⟩⟩
  cases value <;> cases hi
  exact hv

theorem linkPlaceToSameValue_eq_ok :
    memory.linkPlaceToSameValue placeToLink placeLinked = .ok memory' ↔
      ∃ value, memory placeLinked.local = some value ∧
        Function.update memory placeToLink.local (some value) = memory' := by
  simp only [linkPlaceToSameValue, except_bind_eq_ok, get_eq_ok, except_pure_eq_ok]

/-- After a link, linking the same two places again changes nothing: the
    linked place still denotes the same value. -/
theorem linkPlaceToSameValue_idem
    (h : memory.linkPlaceToSameValue placeToLink placeLinked = .ok memory') :
    memory'.linkPlaceToSameValue placeToLink placeLinked = .ok memory' := by
  obtain ⟨value, hv, rfl⟩ := linkPlaceToSameValue_eq_ok.1 h
  refine linkPlaceToSameValue_eq_ok.2 ⟨value, ?_, Function.update_idem _ _ _⟩
  by_cases hl : placeLinked.local = placeToLink.local
  · rw [hl, Function.update_same]
  · rw [Function.update_noteq hl, hv]

theorem linkFieldInAggregate_eq_ok {index : Nat} :
    memory.linkFieldInAggregate placeToLink placeLinked index = .ok memory' ↔
      ∃ members value, memory placeLinked.local = some (.aggregate members) ∧
        members[index]? = some value ∧
        Function.update memory placeToLink.local (some value) = memory' := by
  simp only [linkFieldInAggregate, except_bind_eq_ok, get_eq_ok]
  constructor
  · rintro ⟨v, hv, h⟩
    cases v with
    | aggregate members =>
        cases hm : members[index]? with
        | none => simp [hm, throw, throwThe, MonadExceptOf.throw] at h
        | some value => exact ⟨members, value, hv, hm, by simpa [hm] using h⟩
    | _ => simp [throw, throwThe, MonadExceptOf.throw] at h
  · rintro ⟨members, value, hv, hm, rfl⟩
    exact ⟨_, hv, by simp [hm]⟩

/-- Past the aggregate's last member, `link_field` fails. -/
theorem linkFieldInAggregate_of_length_le {members : List Value} {index : Nat}
    (h : memory placeLinked.local = some (.aggregate members)) (hlen : members.length ≤ index) :
    memory.linkFieldInAggregate placeToLink placeLinked index =
      .error (.fieldOutOfRange placeLinked index) := by
  have hget : memory.get placeLinked = .ok (.aggregate members) := get_eq_ok.2 h
  simp [linkFieldInAggregate, hget, bind, Except.bind, throw, throwThe, MonadExceptOf.throw,
    List.getElem?_eq_none hlen]

theorem createAggregate_eq_ok {placesLinked : List Place} :
    memory.createAggregate place placesLinked = .ok memory' ↔
      ∃ members, placesLinked.map (fun place => memory place.local) = members.map some ∧
        Function.update memory place.local (some (.aggregate members)) = memory' := by
  simp only [createAggregate, except_bind_eq_ok, mapM_get_eq_ok, except_pure_eq_ok]

/-! ### What the writes store -/

/-- Every value the memory holds has property `P`. -/
def All (P : Value → Prop) (memory : Memory) : Prop :=
  ∀ «local» value, memory «local» = some value → P value

section All

variable {P : Value → Prop}

/-- The three writes store only values read from the memory, members of
    them, or aggregates of them; so a property that an aggregate has exactly
    when its members have it survives every write. -/
theorem All.update (h : memory.All P) (hvalue : P value) (l : Nat) :
    All P (Function.update memory l (some value)) := by
  intro l' v hv
  by_cases hl : l' = l
  · subst hl
    simp only [Function.update_same, Option.some.injEq] at hv
    exact hv ▸ hvalue
  · rw [Function.update_noteq hl] at hv
    exact h l' v hv

theorem All.imp {Q : Value → Prop} (h : memory.All P) (hPQ : ∀ value, P value → Q value) :
    memory.All Q :=
  fun l value hv => hPQ value (h l value hv)

theorem All.linkPlaceToSameValue (h : memory.All P)
    (hlink : memory.linkPlaceToSameValue placeToLink placeLinked = .ok memory') : memory'.All P := by
  obtain ⟨value, hv, rfl⟩ := linkPlaceToSameValue_eq_ok.1 hlink
  exact h.update (h _ _ hv) _

theorem All.linkFieldInAggregate (h : memory.All P)
    (hP : ∀ members, P (.aggregate members) → ∀ value ∈ members, P value) {index : Nat}
    (hlink : memory.linkFieldInAggregate placeToLink placeLinked index = .ok memory') :
    memory'.All P := by
  obtain ⟨members, value, hv, hmember, rfl⟩ := linkFieldInAggregate_eq_ok.1 hlink
  obtain ⟨hi, rfl⟩ := List.getElem?_eq_some_iff.1 hmember
  exact h.update (hP members (h _ _ hv) _ (List.getElem_mem hi)) _

theorem All.createAggregate (h : memory.All P)
    (hP : ∀ members : List Value, (∀ value ∈ members, P value) → P (.aggregate members))
    {placesLinked : List Place}
    (hcreate : memory.createAggregate place placesLinked = .ok memory') : memory'.All P := by
  obtain ⟨members, hmembers, rfl⟩ := createAggregate_eq_ok.1 hcreate
  refine h.update (hP members fun value hv => ?_) _
  have : some value ∈ placesLinked.map (fun place => memory place.local) := by
    rw [hmembers]
    exact List.mem_map_of_mem _ hv
  obtain ⟨place, -, hplace⟩ := List.mem_map.1 this
  exact h _ _ hplace

end All

end Memory

end Granite.Sync
