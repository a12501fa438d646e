import Mathlib.Data.List.Basic
import Mathlib.Data.String.Basic

/-!
# Matching a Type Against a Generic Pattern

`is_place_ty_with_concrete_type` (`utils.rs`) decides whether the printed type
of a place has the shape of a pattern such as `std::sync::Mutex<T>` with a
concrete type in place of `T`. It does not parse: it splits both strings at
every `<` and `>`, requires the same number of pieces, and compares them piece
by piece, where a pattern piece `T` asks for any piece but `T` and every
other piece asks for itself.

The printed types are those of the grammar `ty ::= path | path<ty, ..., ty>`,
`Ty` below, with `Ty.print` printing a type as rustc does. Splitting a
printed type yields its head path first (`split_print_head`), so a type whose
head is not the pattern's is rejected at the first piece. A non-generic
argument yields exactly three pieces, as the pattern does, and the middle
piece is the argument, which is then accepted unless it is `T`
(`isPlaceTyWithConcreteType_spec`).

An argument that is itself generic adds a `<` and a `>` of its own, so the
type splits into at least five pieces against the pattern's three, and the
function rejects it however concrete it is
(`isPlaceTyWithConcreteType_nested`), against the doc comment's promise that
the function checks that `T` is a concrete type: the pattern of that comment
accepts `std::sync::Mutex<i32>` and rejects
`std::sync::Mutex<std::vec::Vec<i32>>`
(`isPlaceTyWithConcreteType_rejects_concrete_generic`). A pattern whose head
is `T` itself would make its head a parameter too, which
`isPlaceTyWithConcreteType_spec` leaves out.

## Main definitions

* `isPlaceTyWithConcreteType`: The matcher, on the printed type.
* `Ty`, `Ty.print`: Type terms and how they print.
* `IsPath`: A path has no angle bracket and no comma.

## Theorems

* `length_splitOnP`: One more piece than separators.
* `split_print_head`: The first piece of a printed type is its head.
* `isPlaceTyWithConcreteType_spec`: Non-generic arguments are matched, and
  other heads rejected.
* `isPlaceTyWithConcreteType_nested`: Generic arguments are rejected.
* `isPlaceTyWithConcreteType_rejects_concrete_generic`: The smallest such
  argument under the doc comment's own pattern.
-/

namespace Granite

/-- The separators of `split(&['<', '>'])`. -/
def isAngle (c : Char) : Bool := c = '<' || c = '>'

/-- The loop over the zipped pieces, with its early returns: a pattern piece
    `T` rejects a piece `T`, any other pattern piece rejects a different
    piece. -/
def partsMatch : List (String × String) → Bool
  | [] => true
  | (part, expectedPart) :: rest =>
      if expectedPart = "T" then
        if part = expectedPart then false else partsMatch rest
      else if part ≠ expectedPart then false
      else partsMatch rest

/-- Whether the printed type of a place matches `expectedTyStr` with a
    concrete type where the pattern has `T`. The place's type is given
    printed, as `place_ty.ty.to_string()` prints it. -/
def isPlaceTyWithConcreteType (placeTy : String) (expectedTyStr : String) : Bool :=
  let expectedParts := expectedTyStr.split isAngle
  let parts := placeTy.split isAngle
  if parts.length ≠ expectedParts.length then false
  else partsMatch (parts.zip expectedParts)

/-- A path: no angle bracket and no comma. -/
def IsPath (s : String) : Prop := ∀ c ∈ s.data, c ≠ '<' ∧ c ≠ '>' ∧ c ≠ ','

instance : DecidablePred IsPath := fun s =>
  inferInstanceAs (Decidable (∀ c ∈ s.data, c ≠ '<' ∧ c ≠ '>' ∧ c ≠ ','))

mutual

/-- A type term: a head path and its arguments. -/
inductive Ty where
  | mk (path : String) (args : Tys)

/-- The arguments of a type term. -/
inductive Tys where
  | nil
  | cons (head : Ty) (tail : Tys)

end

mutual

/-- A type as rustc prints it: `path` or `path<arg, ..., arg>`. -/
def Ty.print : Ty → String
  | .mk p .nil => p
  | .mk p (.cons a as) => p ++ "<" ++ Tys.print (.cons a as) ++ ">"

/-- Arguments, separated by `", "`. -/
def Tys.print : Tys → String
  | .nil => ""
  | .cons a .nil => Ty.print a
  | .cons a (.cons b bs) => Ty.print a ++ ", " ++ Tys.print (.cons b bs)

end

/-- The head path of a type term. -/
def Ty.head : Ty → String
  | .mk p _ => p

/-! ### Splitting -/

theorem split_isAngle (s : String) :
    s.split isAngle = (s.data.splitOnP isAngle).map String.mk :=
  String.split_of_valid s isAngle

theorem isAngle_eq_false {s : String} (hs : IsPath s) : ∀ c ∈ s.data, ¬isAngle c = true := by
  intro c hc
  simp [isAngle, (hs c hc).1, (hs c hc).2.1]

/-- One more piece than separators. -/
theorem length_splitOnP (p : Char → Bool) : ∀ l : List Char, (l.splitOnP p).length = l.countP p + 1
  | [] => rfl
  | c :: l => by
      rw [List.splitOnP_cons, List.countP_cons]
      split <;> simp_all [length_splitOnP p l]

/-- The first piece of a printed type is its head path. -/
theorem split_print_head (t : Ty) (ht : IsPath t.head) :
    ∃ rest, t.print.split isAngle = t.head :: rest := by
  obtain ⟨p, _ | ⟨a, as⟩⟩ := t <;> simp only [Ty.head] at ht ⊢
  · refine ⟨[], ?_⟩
    rw [Ty.print, split_isAngle, List.splitOnP_eq_single _ _ (isAngle_eq_false ht)]
    rfl
  · refine ⟨((Tys.print (.cons a as)).data ++ ['>']).splitOnP isAngle |>.map String.mk, ?_⟩
    rw [split_isAngle]
    simp only [Ty.print, String.toList, String.data_append, List.append_assoc]
    rw [List.singleton_append, List.splitOnP_first _ _ (isAngle_eq_false ht) '<' rfl]
    rfl

/-- The pattern `P<T>` splits into `P`, `T` and an empty piece. -/
theorem split_pattern {P : String} (hP : IsPath P) : (P ++ "<T>").split isAngle = [P, "T", ""] := by
  rw [split_isAngle, String.data_append,
    show "<T>".data = '<' :: ['T', '>'] from rfl, List.splitOnP_first _ _ (isAngle_eq_false hP) '<' rfl]
  rfl

/-- A type with one non-generic argument splits into its head, its argument
    and an empty piece. -/
theorem split_print_flat {P q : String} (hP : IsPath P) (hq : IsPath q) :
    (Ty.mk P (.cons (Ty.mk q .nil) .nil)).print.split isAngle = [P, q, ""] := by
  rw [split_isAngle]
  simp only [Ty.print, Tys.print, String.data_append, List.append_assoc]
  rw [List.singleton_append, List.splitOnP_first _ _ (isAngle_eq_false hP) '<' rfl,
    List.splitOnP_first _ _ (isAngle_eq_false hq) '>' rfl]
  rfl

/-! ### What the matcher accepts -/

/-- Against a pattern `P<T>` whose head is a path other than `T`: a type
    with one non-generic argument is accepted exactly when the argument is not
    `T`, and a type with another head is rejected. -/
theorem isPlaceTyWithConcreteType_spec {P : String} (hP : IsPath P) (hPT : P ≠ "T") :
    (∀ q, IsPath q →
      (isPlaceTyWithConcreteType (Ty.mk P (.cons (Ty.mk q .nil) .nil)).print (P ++ "<T>") = true ↔
        q ≠ "T")) ∧
    ∀ t : Ty, IsPath t.head → t.head ≠ P → isPlaceTyWithConcreteType t.print (P ++ "<T>") = false := by
  have hE : ("" : String) ≠ "T" := by decide
  refine ⟨fun q hq => ?_, fun t ht hne => ?_⟩
  · rw [isPlaceTyWithConcreteType, split_print_flat hP hq, split_pattern hP]
    by_cases h : q = "T" <;> simp [partsMatch, hPT, hE, h]
  · obtain ⟨rest, hsplit⟩ := split_print_head t ht
    rw [isPlaceTyWithConcreteType, hsplit, split_pattern hP]
    cases rest <;> simp [partsMatch, hPT, hne]

/-- The pattern `std::sync::Mutex<T>`, as the translator uses it. -/
theorem isPlaceTyWithConcreteType_mutex :
    IsPath "std::sync::Mutex" ∧ "std::sync::Mutex" ≠ "T" ∧
      (∀ q, IsPath q →
        (isPlaceTyWithConcreteType (Ty.mk "std::sync::Mutex" (.cons (Ty.mk q .nil) .nil)).print
          ("std::sync::Mutex" ++ "<T>") = true ↔ q ≠ "T")) ∧
      ∀ t : Ty, IsPath t.head → t.head ≠ "std::sync::Mutex" →
        isPlaceTyWithConcreteType t.print ("std::sync::Mutex" ++ "<T>") = false :=
  have hP : IsPath "std::sync::Mutex" := by decide
  have hPT : "std::sync::Mutex" ≠ "T" := by decide
  ⟨hP, hPT, isPlaceTyWithConcreteType_spec hP hPT⟩

/-- A generic argument is rejected, however concrete: it brings its own `<`
    and `>`, and the type splits into more pieces than the pattern. -/
theorem isPlaceTyWithConcreteType_nested {P : String} (hP : IsPath P) (Q : String) (b : Ty)
    (bs : Tys) :
    isPlaceTyWithConcreteType (Ty.mk P (.cons (Ty.mk Q (.cons b bs)) .nil)).print (P ++ "<T>") =
      false := by
  have hlen : 4 ≤ (Ty.mk P (.cons (Ty.mk Q (.cons b bs)) .nil)).print.data.countP isAngle := by
    simp only [Ty.print, Tys.print, String.data_append, List.countP_append]
    simp [isAngle]
    omega
  have := length_splitOnP isAngle (Ty.mk P (.cons (Ty.mk Q (.cons b bs)) .nil)).print.data
  rw [isPlaceTyWithConcreteType, split_pattern hP, split_isAngle, if_pos (by simp; omega)]

/-- `std::sync::Mutex<std::vec::Vec<i32>>` does not match `std::sync::Mutex<T>`. -/
theorem isPlaceTyWithConcreteType_mutex_of_vec :
    IsPath "std::sync::Mutex" ∧
      isPlaceTyWithConcreteType
        (Ty.mk "std::sync::Mutex" (.cons (Ty.mk "std::vec::Vec" (.cons (Ty.mk "i32" .nil) .nil)) .nil)).print
        ("std::sync::Mutex" ++ "<T>") = false :=
  have hP : IsPath "std::sync::Mutex" := by decide
  ⟨hP, isPlaceTyWithConcreteType_nested hP _ _ _⟩

/-- Under the pattern of the doc comment, the flat `std::sync::Mutex<i32>` is
    accepted and `std::sync::Mutex<std::vec::Vec<i32>>`, whose argument is as
    concrete, is rejected: it splits into five pieces against three. -/
theorem isPlaceTyWithConcreteType_rejects_concrete_generic :
    isPlaceTyWithConcreteType (Ty.mk "std::sync::Mutex" (.cons (Ty.mk "i32" .nil) .nil)).print
        "std::sync::Mutex<T>" = true ∧
      isPlaceTyWithConcreteType
        (Ty.mk "std::sync::Mutex" (.cons (Ty.mk "std::vec::Vec" (.cons (Ty.mk "i32" .nil) .nil)) .nil)).print
        "std::sync::Mutex<T>" = false := by
  simp only [isPlaceTyWithConcreteType, split_isAngle]
  decide

end Granite
