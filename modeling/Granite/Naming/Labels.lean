import Granite.Naming.Decimal
import Mathlib.Data.Fintype.Basic
import Mathlib.Tactic.DeriveFintype

/-!
# Labels of Threads and Function Calls

The naming functions of `naming/thread.rs` and `naming/function.rs`. The
serializers key places and transitions by label, so two nodes with the same
label would be merged in every output format: the labels a translation
produces have to be distinct.

Two families are built here. The index labels put a counter between a fixed
prefix and a fixed suffix (`std_thread_spawn_3_UNWIND`, `THREAD_3_END`); the
name labels put a fixed suffix after the sanitized name of a function
(`main_RETURN`). `IndexLabel` and `NameLabel` list the producers, each
component of a pair as its own, and `IndexLabel.label` and `NameLabel.label`
call the source functions.

Every prefix is free of digits and every suffix is empty or starts with an
underscore, so an index label splits uniquely into prefix, digits and
suffix (`Naming.append_eq_append_of_head`), and the digits give the index back.
That makes the index labels jointly injective. A name label ends in a suffix
that no digit followed by an index suffix can end in (`endsApart`), whatever
the function's name, so no name label is an index label.

`sanitize` (in `naming/mod.rs`) is not in the source; it is a parameter, and
the results hold for every sanitizer.

## Main definitions

* `spawnTransitionLabels`, `joinTransitionLabels`, `startPlaceLabel`,
  `endPlaceLabel`: `naming/thread.rs`.
* `returnTransitionLabel`, `foreignCallTransitionLabels`,
  `divergingCallTransitionLabel`, `panicTransitionLabel`,
  `unwrapTransitionLabels`, `arcNewTransitionLabels`, `cloneTransitionLabels`,
  `derefTransitionLabels`: `naming/function.rs`.
* `IndexLabel`, `NameLabel`: The producers, component by component.
* `endsApart`: A suffix no index label can end in.

## Theorems

* `IndexLabel.label_toList`, `NameLabel.label_toList`: The shape of a label.
* `append_ne_of_endsApart`: A name label is not an index label.
* `labels_injective`: Index labels are jointly injective and disjoint from
  name labels.
-/

namespace Granite

/-! ### `naming/thread.rs` -/

/-- Labels of the transitions of a call to `std::thread::spawn`. -/
def spawnTransitionLabels (index : Nat) : String × String :=
  (s!"std_thread_spawn_{index}", s!"std_thread_spawn_{index}_UNWIND")

/-- Labels of the transitions of a call to `std::thread::JoinHandle::<T>::join`. -/
def joinTransitionLabels (index : Nat) : String × String :=
  (s!"std_thread_JoinHandle_T_join_{index}", s!"std_thread_JoinHandle_T_join_{index}_UNWIND")

/-- Label of the place of a thread's start. -/
def startPlaceLabel (index : Nat) : String := s!"THREAD_{index}_START"

/-- Label of the place of a thread's end. -/
def endPlaceLabel (index : Nat) : String := s!"THREAD_{index}_END"

/-! ### `naming/function.rs` -/

section

variable (sanitize : String → String)

/-- Label of the transition of a function's return. -/
def returnTransitionLabel (functionName : String) : String :=
  sanitize functionName ++ "_RETURN"

/-- Labels of the transitions of a call to a foreign function. -/
def foreignCallTransitionLabels (functionName : String) : String × String :=
  (sanitize functionName ++ "_CALL", sanitize functionName ++ "_CALL_UNWIND")

/-- Label of the transition of a call to a function that does not return. -/
def divergingCallTransitionLabel (functionName : String) : String :=
  sanitize functionName ++ "_DIVERGING_CALL"

/-- Label of the transition of a call to `panic!`. -/
def panicTransitionLabel (functionName : String) : String :=
  sanitize functionName ++ "_PANIC"

end

/-- Labels of the transitions of a call to `std::result::Result::<T, E>::unwrap`. -/
def unwrapTransitionLabels (index : Nat) : String × String :=
  (s!"std_result_Result_unwrap_{index}", s!"std_result_Result_unwrap_{index}_UNWIND")

/-- Labels of the transitions of a call to `std::sync::Arc::<T>::new`. -/
def arcNewTransitionLabels (index : Nat) : String × String :=
  (s!"std_sync_Arc_T_new_{index}", s!"std_sync_Arc_T_new_{index}_UNWIND")

/-- Labels of the transitions of a call to `std::clone::Clone::clone`. -/
def cloneTransitionLabels (index : Nat) : String × String :=
  (s!"std_clone_Clone_clone_{index}", s!"std_clone_Clone_clone_{index}_UNWIND")

/-- Labels of the transitions of a call to `std::ops::Deref::deref`. -/
def derefTransitionLabels (index : Nat) : String × String :=
  (s!"std_ops_Deref_deref_{index}", s!"std_ops_Deref_deref_{index}_UNWIND")

/-! ### The producers -/

/-- A label built from an index: one component of one naming function. -/
inductive IndexLabel
  | spawn | spawnUnwind | join | joinUnwind | startPlace | endPlace
  | unwrap | unwrapUnwind | arcNew | arcNewUnwind | clone | cloneUnwind | deref | derefUnwind
  deriving DecidableEq, Fintype, Repr

namespace IndexLabel

/-- The label the producer builds for `index`. -/
def label : IndexLabel → Nat → String
  | .spawn, i => (spawnTransitionLabels i).1
  | .spawnUnwind, i => (spawnTransitionLabels i).2
  | .join, i => (joinTransitionLabels i).1
  | .joinUnwind, i => (joinTransitionLabels i).2
  | .startPlace, i => startPlaceLabel i
  | .endPlace, i => endPlaceLabel i
  | .unwrap, i => (unwrapTransitionLabels i).1
  | .unwrapUnwind, i => (unwrapTransitionLabels i).2
  | .arcNew, i => (arcNewTransitionLabels i).1
  | .arcNewUnwind, i => (arcNewTransitionLabels i).2
  | .clone, i => (cloneTransitionLabels i).1
  | .cloneUnwind, i => (cloneTransitionLabels i).2
  | .deref, i => (derefTransitionLabels i).1
  | .derefUnwind, i => (derefTransitionLabels i).2

/-- The text before the index. -/
def labelPrefix : IndexLabel → String
  | .spawn | .spawnUnwind => "std_thread_spawn_"
  | .join | .joinUnwind => "std_thread_JoinHandle_T_join_"
  | .startPlace | .endPlace => "THREAD_"
  | .unwrap | .unwrapUnwind => "std_result_Result_unwrap_"
  | .arcNew | .arcNewUnwind => "std_sync_Arc_T_new_"
  | .clone | .cloneUnwind => "std_clone_Clone_clone_"
  | .deref | .derefUnwind => "std_ops_Deref_deref_"

/-- The text after the index. -/
def labelSuffix : IndexLabel → String
  | .spawn | .join | .unwrap | .arcNew | .clone | .deref => ""
  | .spawnUnwind | .joinUnwind | .unwrapUnwind | .arcNewUnwind | .cloneUnwind | .derefUnwind =>
      "_UNWIND"
  | .startPlace => "_START"
  | .endPlace => "_END"

theorem label_toList (a : IndexLabel) (i : Nat) :
    (a.label i).toList = a.labelPrefix.toList ++ Nat.toDigits 10 i ++ a.labelSuffix.toList := by
  cases a <;> rfl

/-- No producer has a digit before its index or right after it, and no two
    producers share both texts. -/
theorem affixes_spec :
    (∀ a : IndexLabel, ∀ c ∈ a.labelPrefix.toList, c.isDigit = false) ∧
      (∀ a : IndexLabel, ∀ c ∈ a.labelSuffix.toList.head?, (!c.isDigit) = true) ∧
      ∀ a b : IndexLabel, a.labelPrefix.toList = b.labelPrefix.toList →
        a.labelSuffix.toList = b.labelSuffix.toList → a = b := by
  decide

/-- An index label splits into its producer's texts and the index's digits. -/
theorem eq_of_label_eq {a b : IndexLabel} {i j : Nat} (h : a.label i = b.label j) :
    a = b ∧ i = j := by
  have hl := congrArg String.toList h
  rw [label_toList, label_toList, List.append_assoc, List.append_assoc] at hl
  obtain ⟨hpre, hsuf, hsame⟩ := affixes_spec
  have hhead : ∀ k (S : List Char), ∀ c ∈ (Nat.toDigits 10 k ++ S).head?, c.isDigit = true := by
    intro k S c hc
    obtain ⟨d, ds, hds⟩ := List.exists_cons_of_ne_nil (Naming.toDigits_ne_nil k)
    rw [hds] at hc
    simp only [List.cons_append, List.head?_cons, Option.mem_def, Option.some.injEq] at hc
    exact Naming.isDigit_of_mem_toDigits (hc ▸ hds ▸ List.mem_cons_self _ _)
  obtain ⟨hP, hl⟩ := Naming.append_eq_append_of_head (hpre a) (hpre b) (hhead i _) (hhead j _) hl
  have hdig : ∀ k, ∀ c ∈ Nat.toDigits 10 k, (!c.isDigit) = false := fun k c hc => by
    simp [Naming.isDigit_of_mem_toDigits hc]
  obtain ⟨hD, hS⟩ := Naming.append_eq_append_of_head (hdig i) (hdig j) (hsuf a) (hsuf b) hl
  exact ⟨hsame a b hP hS, Naming.toDigits_injective hD⟩

end IndexLabel

/-- A label built from a function's name: one component of one naming
    function. -/
inductive NameLabel
  | functionReturn | foreignCall | foreignCallUnwind | divergingCall | panic
  deriving DecidableEq, Fintype, Repr

namespace NameLabel

/-- The label the producer builds for a function, under `sanitize`. -/
def label (sanitize : String → String) : NameLabel → String → String
  | .functionReturn, f => returnTransitionLabel sanitize f
  | .foreignCall, f => (foreignCallTransitionLabels sanitize f).1
  | .foreignCallUnwind, f => (foreignCallTransitionLabels sanitize f).2
  | .divergingCall, f => divergingCallTransitionLabel sanitize f
  | .panic, f => panicTransitionLabel sanitize f

/-- The text after the name. -/
def labelSuffix : NameLabel → String
  | .functionReturn => "_RETURN"
  | .foreignCall => "_CALL"
  | .foreignCallUnwind => "_CALL_UNWIND"
  | .divergingCall => "_DIVERGING_CALL"
  | .panic => "_PANIC"

theorem label_toList (sanitize : String → String) (n : NameLabel) (f : String) :
    (n.label sanitize f).toList = (sanitize f).toList ++ n.labelSuffix.toList := by
  cases n <;> rfl

end NameLabel

/-- Read backwards, `T` is neither a prefix of `S` nor `S` continued by a
    digit, so no list ending in a digit followed by `S` ends in `T`. -/
def endsApart (T S : List Char) : Bool :=
  !(T.reverse.isPrefixOf S.reverse) &&
    (!(S.reverse.isPrefixOf T.reverse) || (T.reverse.drop S.length).head?.all fun c => !c.isDigit)

theorem append_ne_of_endsApart {T S : List Char} (h : endsApart T S = true) {l₁ l₂ d : List Char}
    (hd : ∀ c ∈ d, c.isDigit = true) (hne : d ≠ []) : l₁ ++ T ≠ l₂ ++ d ++ S := by
  intro heq
  have hr := congrArg List.reverse heq
  simp only [List.reverse_append, List.append_assoc] at hr
  simp only [endsApart, Bool.and_eq_true, Bool.not_eq_true', Bool.or_eq_true] at h
  obtain ⟨hTS, hST⟩ := h
  rcases List.append_eq_append_iff.1 hr with ⟨a', hS, -⟩ | ⟨c', hT, hd'⟩
  · -- `T` read backwards is a prefix of `S` read backwards
    rw [List.isPrefixOf_iff_prefix.2 ⟨a', hS.symm⟩] at hTS
    nomatch hTS
  · obtain ⟨y, ys, hy⟩ := List.exists_cons_of_ne_nil (List.reverse_ne_nil_iff.2 hne)
    rw [hy] at hd'
    cases c' with
    | nil =>
        rw [List.isPrefixOf_iff_prefix.2 ⟨[], by simp [hT]⟩] at hTS
        nomatch hTS
    | cons x c'' =>
        -- the character after `S`, read backwards, is the last digit of `d`
        simp only [List.cons_append, List.cons.injEq] at hd'
        obtain ⟨rfl, -⟩ := hd'
        have hyd : y.isDigit = true := hd y (List.mem_reverse.1 (hy ▸ List.mem_cons_self _ _))
        rw [hT, List.isPrefixOf_iff_prefix.2 (List.prefix_append _ _), ← List.length_reverse S,
          List.drop_left] at hST
        simp [hyd] at hST

/-- The index labels are jointly injective: equal labels come from the same
    component of the same producer and the same index. And whatever the
    sanitized name of a function, its return, call, unwinding call, diverging
    call and panic labels are none of them. -/
theorem labels_injective :
    (∀ (a b : IndexLabel) (i j : Nat), a.label i = b.label j → a = b ∧ i = j) ∧
      ∀ (sanitize : String → String) (functionName : String) (n : NameLabel) (a : IndexLabel)
        (i : Nat), n.label sanitize functionName ≠ a.label i := by
  have hapart : ∀ (n : NameLabel) (a : IndexLabel),
      endsApart n.labelSuffix.toList a.labelSuffix.toList = true := by
    decide
  refine ⟨fun a b i j => IndexLabel.eq_of_label_eq, fun sanitize f n a i h => ?_⟩
  have hl := congrArg String.toList h
  rw [NameLabel.label_toList, IndexLabel.label_toList] at hl
  exact append_ne_of_endsApart (hapart n a) (fun _ => Naming.isDigit_of_mem_toDigits)
    (Naming.toDigits_ne_nil i) hl

end Granite
