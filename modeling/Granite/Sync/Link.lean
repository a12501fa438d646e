import Granite.Sync.Memory
import Mathlib.Data.List.Infix

/-!
# Linking Places to Synchronization Values

`translator/sync.rs` keeps the memory of the function being translated up to
date as MIR assignments copy, borrow, dereference and aggregate
synchronization values. Whether a place holds such a value is decided from
its type alone: `check_if_sync_variable` looks for one of four type names in
the printed type. The type of a place is the compiler's, so every definition
here takes it as the parameter `placeTy`.

`handle_aggregate_assignment` keeps only the operands of synchronization type
and stores the aggregate of what they denote. `link_if_sync_variable` then
reads a place back: without projections it links to what the place denotes,
checking the linked place's type; with projections it checks the type of the
place being linked instead, takes the last field number of the projections,
and reads that member of the aggregate that the place's local denotes.

The two meet at a field number. The aggregate holds the synchronization
operands only, in their order, while a field projection counts every operand
of the MIR aggregate. `linkIfSyncVariable_field_eq_ok` and
`placesWithSyncVariables_getElem?` are what the results below are built from:
a field number `k` reads the `k`-th synchronization operand, which is operand
`k` exactly when every operand before it is a synchronization place. After
`_3 = (const, move _1)` the field `_3.1`, which is `_1`, lies past the end of
the stored aggregate (`linkIfSyncVariable_field_after_constant_operand`).

## Main definitions

* `checkIfSyncVariable`: The type test, with the shared table
  `syncVariableTypes`.
* `handleAggregateAssignment`, `placesWithSyncVariables`: Aggregates.
* `linkIfSyncVariable`, `generalizedLinkPlaceIfSyncVariable`,
  `fieldNumberAndDeref`: Linking.
* `linkReturnValueIfSyncVariable`: Linking a call's result to its first
  argument.

## Theorems

* `foldl_scanProjectionElem`: The projection loop finds the last field
  number and whether some projection dereferences.
* `generalizedLinkPlaceIfSyncVariable_eq`: The four checks act as one.
* `handleAggregateAssignment_eq_ok`: What an aggregate assignment stores.
* `linkIfSyncVariable_field_eq_ok`, `linkIfSyncVariable_field_of_length_le`,
  `linkIfSyncVariable_of_forall_not_field`: Linking through projections.
* `linkIfSyncVariable_aggregate_field`: A field of an aggregate whose earlier
  operands are all synchronization places links to what its operand denotes.
* `linkIfSyncVariable_aggregate_field_of_sync_operand`: In general a field
  number selects among the synchronization operands only.
* `linkIfSyncVariable_field_after_constant_operand`: A constant before a
  mutex makes the mutex's field panic.
* `linkIfSyncVariable_copy`: Linking a place without projections.
* `linkIfSyncVariable_all`, `handleAggregateAssignment_all`: Only values
  read from the memory are stored.
-/

namespace Granite.Sync

section Link

variable (placeTy : Place → String)

/-- Modelled from the spec: `check_substring_in_place_type` (`utils.rs`, not
    under `src/`) tells whether the printed type of `place` contains
    `substring`. -/
def checkSubstringInPlaceType (place : Place) (substring : String) : Bool :=
  decide (substring.data <:+: (placeTy place).data)

/-- The type names of the synchronization variables, in the order in which
    `check_if_sync_variable` and `generalized_link_place_if_sync_variable`
    test them. -/
def syncVariableTypes : List String :=
  ["std::sync::MutexGuard<", "std::sync::Mutex<", "std::thread::JoinHandle<",
    "std::sync::Condvar"]

/-- Whether a place holds a mutex, a mutex guard, a join handle or a
    condition variable, by its type. -/
def checkIfSyncVariable (place : Place) : Bool :=
  syncVariableTypes.any (checkSubstringInPlaceType placeTy place)

/-- The operands of an aggregate that `handle_aggregate_assignment` keeps:
    the places of synchronization type, in their order; constants are
    skipped. -/
def placesWithSyncVariables (operands : List Operand) : List Place :=
  operands.filterMap fun operand => operand.place?.filter (checkIfSyncVariable placeTy)

/-- `_X = { .. }`: `place` becomes the aggregate of what the synchronization
    operands denote, if there is one. -/
def handleAggregateAssignment (place : Place) (operands : List Operand) (memory : Memory) :
    Except Bug Memory :=
  let placesWithSyncVariables := placesWithSyncVariables placeTy operands
  if placesWithSyncVariables.isEmpty then pure memory
  else memory.createAggregate place placesWithSyncVariables

/-- Links `placeToLink` to what `placeLinked` denotes once for each type name
    that the type of `placeToCheckType` contains. -/
def generalizedLinkPlaceIfSyncVariable (placeToLink placeLinked placeToCheckType : Place)
    (memory : Memory) : Except Bug Memory :=
  syncVariableTypes.foldlM
    (fun memory substring =>
      if checkSubstringInPlaceType placeTy placeToCheckType substring then
        memory.linkPlaceToSameValue placeToLink placeLinked
      else pure memory)
    memory

/-- One turn of the loop of `link_if_sync_variable` over the projections: a
    `Field` replaces the field number, a `Deref` sets `has_deref`. -/
def scanProjectionElem : Option Nat × Bool → ProjectionElem → Option Nat × Bool
  | (fieldNumber, hasDeref), projectionElem =>
      (match projectionElem with
        | .field number => some number
        | _ => fieldNumber,
        hasDeref || decide (projectionElem = .deref))

/-- The field number and `has_deref` after the loop over the projections. -/
def fieldNumberAndDeref (projection : List ProjectionElem) : Option Nat × Bool :=
  projection.foldl scanProjectionElem (none, false)

/-- `_X = _Y`, `_X = &_Y`, `_X = (*_Y).Z` and the like: links `placeToLink` to
    what `placeLinked` denotes, or to a member of the aggregate it denotes. -/
def linkIfSyncVariable (placeToLink placeLinked : Place) (memory : Memory) :
    Except Bug Memory :=
  if placeLinked.projection.isEmpty then
    generalizedLinkPlaceIfSyncVariable placeTy placeToLink placeLinked placeLinked memory
  else if !checkIfSyncVariable placeTy placeToLink then pure memory
  else
    match fieldNumberAndDeref placeLinked.projection with
    | (none, _) => throw .fieldNumberNotFound
    | (some fieldNumber, true) =>
        memory.linkFieldInAggregate placeToLink ⟨placeLinked.local, []⟩ fieldNumber
    | (some fieldNumber, false) => memory.linkFieldInAggregate placeToLink placeLinked fieldNumber

/-- Modelled from the spec: `extract_nth_argument_as_place` (`utils.rs`, not
    under `src/`) is the place of argument `n`, if it is present and not a
    constant. -/
def extractNthArgumentAsPlace (args : List Operand) (n : Nat) : Option Place :=
  args[n]?.bind Operand.place?

/-- Modelled from the spec: `extract_nth_argument` (`utils.rs`, not under
    `src/`) is the place of argument `n`, and panics when there is none. -/
def extractNthArgument (args : List Operand) (n : Nat) : Except Bug Place :=
  match extractNthArgumentAsPlace args n with
  | some place => pure place
  | none => throw (.missingArgument n)

/-- Links a call's return value to its first argument. -/
def linkReturnValueIfSyncVariable (args : List Operand) (returnValue : Place) (memory : Memory) :
    Except Bug Memory :=
  match extractNthArgumentAsPlace args 0 with
  | none => pure memory
  | some firstArgument => linkIfSyncVariable placeTy returnValue firstArgument memory

end Link

/-- The field number of a `Field` projection. -/
def ProjectionElem.fieldNumber? : ProjectionElem → Option Nat
  | .field number => some number
  | _ => none

/-- The projection loop, from any starting values: the field number is the
    last one among the projections, if any, and `has_deref` records a
    `Deref`. -/
theorem foldl_scanProjectionElem (projection : List ProjectionElem) (fieldNumber : Option Nat)
    (hasDeref : Bool) :
    projection.foldl scanProjectionElem (fieldNumber, hasDeref) =
      ((projection.reverse.findSome? ProjectionElem.fieldNumber?).or fieldNumber,
        hasDeref || projection.contains .deref) := by
  induction projection generalizing fieldNumber hasDeref with
  | nil => simp
  | cons projectionElem projection ih =>
      rw [List.foldl_cons, ih]
      cases projectionElem <;>
        simp [scanProjectionElem, ProjectionElem.fieldNumber?, List.findSome?_append,
          List.findSome?_cons, Option.or_assoc, Option.or_none]

theorem fieldNumberAndDeref_eq (projection : List ProjectionElem) :
    fieldNumberAndDeref projection =
      (projection.reverse.findSome? ProjectionElem.fieldNumber?, projection.contains .deref) := by
  simpa using foldl_scanProjectionElem projection none false

section Properties

variable {placeTy : Place → String} {memory memory' : Memory} {place placeToLink placeLinked : Place}

/-- Linking once per matching type name is linking once, if any matches. -/
theorem foldlM_link_eq (substrings : List String) (memory : Memory) :
    substrings.foldlM
        (fun memory substring =>
          if checkSubstringInPlaceType placeTy place substring then
            memory.linkPlaceToSameValue placeToLink placeLinked
          else pure memory)
        memory =
      if substrings.any (checkSubstringInPlaceType placeTy place) then
        memory.linkPlaceToSameValue placeToLink placeLinked
      else pure memory := by
  induction substrings generalizing memory with
  | nil => rfl
  | cons substring substrings ih =>
      rw [List.foldlM_cons, List.any_cons]
      by_cases hs : checkSubstringInPlaceType placeTy place substring = true
      · cases hl : memory.linkPlaceToSameValue placeToLink placeLinked with
        | error e => simp [hs, hl, bind, Except.bind]
        | ok memory' =>
            have hidem := Memory.linkPlaceToSameValue_idem hl
            simp only [hs, hl, if_true, Bool.true_or, bind, Except.bind, ih]
            split <;> simp [hidem, pure, Except.pure]
      · simp only [hs, Bool.false_eq_true, if_false, Bool.false_or, ih]
        rfl

/-- The four checks of `generalized_link_place_if_sync_variable` act as one
    test of `check_if_sync_variable`, even on a type that matches several. -/
theorem generalizedLinkPlaceIfSyncVariable_eq (placeToCheckType : Place) :
    generalizedLinkPlaceIfSyncVariable placeTy placeToLink placeLinked placeToCheckType memory =
      if checkIfSyncVariable placeTy placeToCheckType then
        memory.linkPlaceToSameValue placeToLink placeLinked
      else pure memory :=
  foldlM_link_eq syncVariableTypes memory

theorem handleAggregateAssignment_of_eq_nil {operands : List Operand}
    (h : placesWithSyncVariables placeTy operands = []) :
    handleAggregateAssignment placeTy place operands memory = .ok memory := by
  simp [handleAggregateAssignment, h, pure, Except.pure]

/-- An aggregate with a synchronization operand stores, at its local, the
    aggregate of what those operands denote, in their order. -/
theorem handleAggregateAssignment_eq_ok {operands : List Operand}
    (hne : placesWithSyncVariables placeTy operands ≠ []) :
    handleAggregateAssignment placeTy place operands memory = .ok memory' ↔
      ∃ members, (placesWithSyncVariables placeTy operands).map (fun place => memory place.local) =
          members.map some ∧
        Function.update memory place.local (some (.aggregate members)) = memory' := by
  simp only [handleAggregateAssignment, List.isEmpty_iff, hne, if_false]
  exact Memory.createAggregate_eq_ok

/-- When every operand before `k` is a place of synchronization type, the
    `k`-th synchronization operand is operand `k`. -/
theorem placesWithSyncVariables_getElem? {operands : List Operand} {k : Nat} {placeK : Place}
    (hbefore : ∀ operand ∈ operands.take k,
      ∃ place, operand.place? = some place ∧ checkIfSyncVariable placeTy place = true)
    (hk : operands[k]?.bind Operand.place? = some placeK)
    (hsync : checkIfSyncVariable placeTy placeK = true) :
    (placesWithSyncVariables placeTy operands)[k]? = some placeK := by
  induction operands generalizing k with
  | nil => simp at hk
  | cons operand operands ih =>
      cases k with
      | zero =>
          simp only [List.getElem?_cons_zero, Option.some_bind] at hk
          simp [placesWithSyncVariables, List.filterMap_cons, hk, hsync, Option.filter]
      | succ k =>
          obtain ⟨place, hp, hps⟩ := hbefore operand (by simp)
          rw [List.getElem?_cons_succ] at hk
          have ih' := ih (fun o ho => hbefore o (by simp [ho])) hk
          simpa [placesWithSyncVariables, List.filterMap_cons, hp, hps, Option.filter] using ih'

/-- After an aggregate assignment with a synchronization operand, the
    aggregate's local denotes an aggregate with one member per such operand,
    and member `k` is what the `k`-th of them denoted. -/
theorem handleAggregateAssignment_members {operands : List Operand} {a : Nat} {mem mem' : Memory}
    (hne : placesWithSyncVariables placeTy operands ≠ [])
    (hagg : handleAggregateAssignment placeTy ⟨a, []⟩ operands mem = .ok mem') :
    ∃ members, mem' a = some (.aggregate members) ∧
      members.length = (placesWithSyncVariables placeTy operands).length ∧
      ∀ (k : Nat) (place : Place), (placesWithSyncVariables placeTy operands)[k]? = some place →
        members[k]? = mem place.local := by
  obtain ⟨members, hmembers, rfl⟩ := (handleAggregateAssignment_eq_ok hne).1 hagg
  refine ⟨members, by simp, by simpa using (congrArg List.length hmembers).symm, fun k place hk => ?_⟩
  have hk' := congrArg (·[k]?) hmembers
  simp only [List.getElem?_map, hk, Option.map_some'] at hk'
  cases h : members[k]? <;> simp_all

/-- With projections and a place to link of synchronization type, a place
    whose last field number is `k` links to member `k` of the aggregate its
    local denotes, whether or not it dereferences. -/
theorem linkIfSyncVariable_field_eq_ok {members : List Value} {k : Nat} {value : Value}
    (hne : placeLinked.projection ≠ [])
    (hsync : checkIfSyncVariable placeTy placeToLink = true)
    (hk : placeLinked.projection.reverse.findSome? ProjectionElem.fieldNumber? = some k)
    (hbase : memory placeLinked.local = some (.aggregate members))
    (hmember : members[k]? = some value) :
    linkIfSyncVariable placeTy placeToLink placeLinked memory =
      .ok (Function.update memory placeToLink.local (some value)) := by
  have hlink : ∀ place : Place, place.local = placeLinked.local →
      memory.linkFieldInAggregate placeToLink place k =
        .ok (Function.update memory placeToLink.local (some value)) := fun place hp =>
    Memory.linkFieldInAggregate_eq_ok.2 ⟨members, value, hp ▸ hbase, hmember, rfl⟩
  cases hd : placeLinked.projection.contains .deref <;>
    simp only [linkIfSyncVariable, List.isEmpty_iff, hne, if_false, hsync, Bool.not_true,
      Bool.false_eq_true, fieldNumberAndDeref_eq, hk, hd] <;>
    exact hlink _ rfl

/-- Past the last member of the aggregate, linking through projections
    fails. -/
theorem linkIfSyncVariable_field_of_length_le {members : List Value} {k : Nat}
    (hne : placeLinked.projection ≠ [])
    (hsync : checkIfSyncVariable placeTy placeToLink = true)
    (hk : placeLinked.projection.reverse.findSome? ProjectionElem.fieldNumber? = some k)
    (hbase : memory placeLinked.local = some (.aggregate members))
    (hlen : members.length ≤ k) :
    ∃ place, linkIfSyncVariable placeTy placeToLink placeLinked memory =
      .error (.fieldOutOfRange place k) := by
  cases hd : placeLinked.projection.contains .deref <;>
    simp only [linkIfSyncVariable, List.isEmpty_iff, hne, if_false, hsync, Bool.not_true,
      Bool.false_eq_true, fieldNumberAndDeref_eq, hk, hd] <;>
    exact ⟨_, Memory.linkFieldInAggregate_of_length_le hbase hlen⟩

/-- With projections but no field among them, such as `*_Y`, linking a place
    of synchronization type panics. -/
theorem linkIfSyncVariable_of_forall_not_field
    (hne : placeLinked.projection ≠ [])
    (hsync : checkIfSyncVariable placeTy placeToLink = true)
    (hfield : ∀ number, ProjectionElem.field number ∉ placeLinked.projection) :
    linkIfSyncVariable placeTy placeToLink placeLinked memory = .error .fieldNumberNotFound := by
  have hnone : placeLinked.projection.reverse.findSome? ProjectionElem.fieldNumber? = none := by
    refine List.findSome?_eq_none_iff.2 fun projectionElem hmem => ?_
    cases projectionElem <;> simp_all [ProjectionElem.fieldNumber?]
  simp [linkIfSyncVariable, hne, hsync, fieldNumberAndDeref_eq, hnone, throw, throwThe,
    MonadExceptOf.throw]

/-- The projections `.k` and `(*_).k` both have last field number `k`. -/
theorem fieldNumber_of_projection_eq {placeLinked : Place} {k : Nat}
    (hproj : placeLinked.projection = [.field k] ∨ placeLinked.projection = [.deref, .field k]) :
    placeLinked.projection ≠ [] ∧
      placeLinked.projection.reverse.findSome? ProjectionElem.fieldNumber? = some k := by
  rcases hproj with h | h <;> simp [h, ProjectionElem.fieldNumber?]

/-- `_X = _A.k` or `_X = (*_R).k`, with `_R` denoting what `_A` does, after
    `_A = (op_0, ..., op_{n-1})`: when `op_0`, ..., `op_k` are all places of
    synchronization type and `_X` has one too, `_X` comes to denote what
    `op_k` denoted, with no panic. -/
theorem linkIfSyncVariable_aggregate_field {operands : List Operand} {k a : Nat}
    {placeK placeToLink placeLinked : Place} {mem mem' memory : Memory} {value : Value}
    (hbefore : ∀ operand ∈ operands.take k,
      ∃ place, operand.place? = some place ∧ checkIfSyncVariable placeTy place = true)
    (hk : operands[k]?.bind Operand.place? = some placeK)
    (hsyncK : checkIfSyncVariable placeTy placeK = true)
    (hvalue : mem placeK.local = some value)
    (hagg : handleAggregateAssignment placeTy ⟨a, []⟩ operands mem = .ok mem')
    (hsync : checkIfSyncVariable placeTy placeToLink = true)
    (hproj : placeLinked.projection = [.field k] ∨ placeLinked.projection = [.deref, .field k])
    (hbase : memory placeLinked.local = mem' a) :
    linkIfSyncVariable placeTy placeToLink placeLinked memory =
      .ok (Function.update memory placeToLink.local (some value)) := by
  have hplace := placesWithSyncVariables_getElem? hbefore hk hsyncK
  have hne : placesWithSyncVariables placeTy operands ≠ [] := by
    rintro h
    simp [h] at hplace
  obtain ⟨members, haggregate, -, hmembers⟩ := handleAggregateAssignment_members hne hagg
  obtain ⟨hne', hlast⟩ := fieldNumber_of_projection_eq hproj
  exact linkIfSyncVariable_field_eq_ok hne' hsync hlast (hbase.trans haggregate)
    ((hmembers k placeK hplace).trans hvalue)

/-- A field number `k` of an aggregate selects the `k`-th operand of
    synchronization type, not operand `k`: linking through it binds what that
    operand denotes, and panics when there are at most `k` of them. -/
theorem linkIfSyncVariable_aggregate_field_of_sync_operand {operands : List Operand} {k a : Nat}
    {placeToLink placeLinked : Place} {mem mem' memory : Memory}
    (hne : placesWithSyncVariables placeTy operands ≠ [])
    (hagg : handleAggregateAssignment placeTy ⟨a, []⟩ operands mem = .ok mem')
    (hsync : checkIfSyncVariable placeTy placeToLink = true)
    (hproj : placeLinked.projection = [.field k] ∨ placeLinked.projection = [.deref, .field k])
    (hbase : memory placeLinked.local = mem' a) :
    (∀ place, (placesWithSyncVariables placeTy operands)[k]? = some place →
      ∃ value, mem place.local = some value ∧
        linkIfSyncVariable placeTy placeToLink placeLinked memory =
          .ok (Function.update memory placeToLink.local (some value))) ∧
    ((placesWithSyncVariables placeTy operands).length ≤ k →
      ∃ place, linkIfSyncVariable placeTy placeToLink placeLinked memory =
        .error (.fieldOutOfRange place k)) := by
  obtain ⟨members, haggregate, hlen, hmembers⟩ := handleAggregateAssignment_members hne hagg
  obtain ⟨hne', hlast⟩ := fieldNumber_of_projection_eq hproj
  refine ⟨fun place hplace => ?_, fun hle =>
    linkIfSyncVariable_field_of_length_le hne' hsync hlast (hbase.trans haggregate) (by omega)⟩
  have hk : k < members.length := hlen ▸ (List.getElem?_eq_some_iff.1 hplace).1
  obtain ⟨value, hvalue⟩ : ∃ value, members[k]? = some value := ⟨_, List.getElem?_eq_getElem hk⟩
  exact ⟨value, (hmembers k place hplace).symm.trans hvalue,
    linkIfSyncVariable_field_eq_ok hne' hsync hlast (hbase.trans haggregate) hvalue⟩

/-- `_4 = (move _1, move _2, move _3)` with `_1 : i32` and mutexes in `_2` and
    `_3`: the field `_4.1` is operand `_2`, yet linking it binds the mutex of
    `_3`. -/
theorem linkIfSyncVariable_field_skips_plain_operand :
    let placeTy : Place → String := fun place =>
      if place.local = 1 then "i32" else "std::sync::Mutex<i32>"
    let mem : Memory := fun n => if n = 2 then some (.mutex 0) else if n = 3 then some (.mutex 1)
      else none
    let mem' := Function.update mem 4 (some (.aggregate [.mutex 0, .mutex 1]))
    handleAggregateAssignment placeTy ⟨4, []⟩ [.move ⟨1, []⟩, .move ⟨2, []⟩, .move ⟨3, []⟩] mem =
        .ok mem' ∧
      linkIfSyncVariable placeTy ⟨5, []⟩ ⟨4, [.field 1]⟩ mem' =
        .ok (Function.update mem' 5 (some (.mutex 1))) := by
  intro placeTy mem mem'
  have hagg : handleAggregateAssignment placeTy ⟨4, []⟩
      [.move ⟨1, []⟩, .move ⟨2, []⟩, .move ⟨3, []⟩] mem = .ok mem' := rfl
  obtain ⟨value, hvalue, hlink⟩ :=
    (@linkIfSyncVariable_aggregate_field_of_sync_operand placeTy
      [.move ⟨1, []⟩, .move ⟨2, []⟩, .move ⟨3, []⟩] 1 4 ⟨5, []⟩ ⟨4, [.field 1]⟩ mem mem' mem'
      (by decide) hagg (by decide) (.inl rfl) rfl).1 ⟨3, []⟩ (by decide)
  cases hvalue
  exact ⟨hagg, hlink⟩

/-- `_3 = (const, move _1)` with a mutex in `_1`: the aggregate stored for `_3`
    holds the mutex alone, so `_4 = move (_3.1)`, which moves `_1`'s mutex,
    reads past its end and panics. -/
theorem linkIfSyncVariable_field_after_constant_operand :
    let placeTy : Place → String := fun place =>
      if place.local = 3 ∧ place.projection = [] then "(i32, std::sync::Mutex<i32>)"
      else "std::sync::Mutex<i32>"
    let mem : Memory := fun n => if n = 1 then some (.mutex 0) else none
    let mem' := Function.update mem 3 (some (.aggregate [.mutex 0]))
    handleAggregateAssignment placeTy ⟨3, []⟩ [.constant, .move ⟨1, []⟩] mem = .ok mem' ∧
      linkIfSyncVariable placeTy ⟨4, []⟩ ⟨3, [.field 1]⟩ mem' =
        .error (.fieldOutOfRange ⟨3, [.field 1]⟩ 1) :=
  ⟨rfl, rfl⟩

/-- `_X = _Y`, `_X = &_Y` or `_X = move _Y`: when the type of `_Y` is a
    synchronization type, `_X` comes to denote exactly what `_Y` denotes,
    whatever the type of `_X`; otherwise nothing changes. -/
theorem linkIfSyncVariable_copy {y : Nat} :
    linkIfSyncVariable placeTy placeToLink ⟨y, []⟩ memory = .ok memory' ↔
      (checkIfSyncVariable placeTy ⟨y, []⟩ = true ∧
        ∃ value, memory y = some value ∧
          Function.update memory placeToLink.local (some value) = memory') ∨
      (checkIfSyncVariable placeTy ⟨y, []⟩ = false ∧ memory = memory') := by
  simp only [linkIfSyncVariable, List.isEmpty_nil, if_true, generalizedLinkPlaceIfSyncVariable_eq]
  cases checkIfSyncVariable placeTy ⟨y, []⟩ <;>
    simp [Memory.linkPlaceToSameValue_eq_ok, pure, Except.pure]

/-- The linking code stores only values read from the memory, members of
    them and aggregates of them: a property that an aggregate has exactly when
    its members have it, held by every value of the memory, still is after a
    link. -/
theorem linkIfSyncVariable_all {P : Value → Prop}
    (hP : ∀ members, P (.aggregate members) ↔ ∀ value ∈ members, P value) (h : memory.All P)
    (hlink : linkIfSyncVariable placeTy placeToLink placeLinked memory = .ok memory') :
    memory'.All P := by
  have hmember : ∀ members, P (.aggregate members) → ∀ value ∈ members, P value :=
    fun members => (hP members).1
  unfold linkIfSyncVariable at hlink
  split at hlink
  · rw [generalizedLinkPlaceIfSyncVariable_eq] at hlink
    split at hlink
    · exact h.linkPlaceToSameValue hlink
    · rw [Memory.except_pure_eq_ok] at hlink
      exact hlink ▸ h
  · split at hlink
    · rw [Memory.except_pure_eq_ok] at hlink
      exact hlink ▸ h
    · split at hlink
      · simp [throw, throwThe, MonadExceptOf.throw] at hlink
      · exact h.linkFieldInAggregate hmember hlink
      · exact h.linkFieldInAggregate hmember hlink

/-- An aggregate assignment stores the aggregate of values read from the
    memory. -/
theorem handleAggregateAssignment_all {P : Value → Prop} {operands : List Operand}
    (hP : ∀ members, P (.aggregate members) ↔ ∀ value ∈ members, P value) (h : memory.All P)
    (hagg : handleAggregateAssignment placeTy place operands memory = .ok memory') :
    memory'.All P := by
  simp only [handleAggregateAssignment] at hagg
  split at hagg
  · rw [Memory.except_pure_eq_ok] at hagg
    exact hagg ▸ h
  · exact h.createAggregate (fun members => (hP members).2) hagg

end Properties

end Granite.Sync
