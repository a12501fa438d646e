import Mathlib.Data.List.Infix
import Mathlib.Data.Nat.Digits

/-!
# Decimal Indices in Labels

Labels are built with `format!` around a `usize` counter, which prints in
decimal. Lean's `toString` on `Nat` is the same digit list, `Nat.toDigits 10`,
and this module proves the three facts about it that make such labels
readable back: it is never empty, every character in it is a digit, and the
number can be recovered from it (`decimalValue_toDigits`), so two indices with
the same digits are equal.

The other half is `append_eq_append_of_head`: two lists, each cut at the
first character of some class, that agree agree on both pieces. Applied twice,
once at the first digit and once at the first non-digit after it, it splits a
label into the text before the index, the index, and the text after.

## Main definitions

* `decimalValue`: The number a string of decimal digits denotes.

## Theorems

* `toDigits_ne_nil`, `isDigit_of_mem_toDigits`: The digits of an index.
* `decimalValue_toDigits`: Reading the digits back.
* `toDigits_injective`: Distinct indices print differently.
* `append_eq_append_of_head`: Cutting two equal lists at the same class.
-/

namespace Granite

namespace Naming

/-- The number a string of decimal digits denotes. -/
def decimalValue (ds : List Char) : Nat :=
  ds.foldl (fun acc c => 10 * acc + (c.toNat - '0'.toNat)) 0

theorem decimalValue_append_singleton (ds : List Char) (c : Char) :
    decimalValue (ds ++ [c]) = 10 * decimalValue ds + (c.toNat - '0'.toNat) := by
  simp [decimalValue, List.foldl_append]

/-- The digit characters, read back. -/
theorem digitChar_spec : ∀ k < 10,
    (Nat.digitChar k).isDigit = true ∧ (Nat.digitChar k).toNat - '0'.toNat = k := by
  decide

/-- `toDigitsCore` prepends to its accumulator. -/
theorem toDigitsCore_append : ∀ (fuel n : Nat) (ds : List Char),
    Nat.toDigitsCore 10 fuel n ds = Nat.toDigitsCore 10 fuel n [] ++ ds
  | 0, _, _ => rfl
  | fuel + 1, n, ds => by
      simp only [Nat.toDigitsCore]
      split
      · rfl
      · rw [toDigitsCore_append fuel _ (_ :: ds), toDigitsCore_append fuel _ [_]]
        simp

theorem toDigitsCore_spec : ∀ (fuel n : Nat), n < fuel →
    Nat.toDigitsCore 10 fuel n [] ≠ [] ∧ (∀ c ∈ Nat.toDigitsCore 10 fuel n [], c.isDigit = true) ∧
      decimalValue (Nat.toDigitsCore 10 fuel n []) = n
  | 0, _, h => absurd h (Nat.not_lt_zero _)
  | fuel + 1, n, h => by
      have hd := digitChar_spec (n % 10) (Nat.mod_lt _ (by decide))
      simp only [Nat.toDigitsCore]
      split
      · rename_i h0
        refine ⟨List.cons_ne_nil _ _, by simpa using hd.1, ?_⟩
        simp only [decimalValue, List.foldl_cons, List.foldl_nil, hd.2]
        omega
      · rename_i h0
        obtain ⟨_, hdig, hval⟩ := toDigitsCore_spec fuel (n / 10) (by omega)
        rw [toDigitsCore_append]
        refine ⟨by simp, ?_, ?_⟩
        · simp only [List.mem_append, List.mem_singleton]
          rintro c (hc | rfl)
          exacts [hdig c hc, hd.1]
        · rw [decimalValue_append_singleton, hval, hd.2]
          omega

theorem toDigits_ne_nil (n : Nat) : Nat.toDigits 10 n ≠ [] :=
  (toDigitsCore_spec (n + 1) n (Nat.lt_succ_self n)).1

theorem isDigit_of_mem_toDigits {n : Nat} {c : Char} (h : c ∈ Nat.toDigits 10 n) :
    c.isDigit = true :=
  (toDigitsCore_spec (n + 1) n (Nat.lt_succ_self n)).2.1 c h

theorem decimalValue_toDigits (n : Nat) : decimalValue (Nat.toDigits 10 n) = n :=
  (toDigitsCore_spec (n + 1) n (Nat.lt_succ_self n)).2.2

theorem toDigits_injective {a b : Nat} (h : Nat.toDigits 10 a = Nat.toDigits 10 b) : a = b := by
  rw [← decimalValue_toDigits a, h, decimalValue_toDigits]

/-- Two lists cut where a class of characters starts: if the first pieces
    have no character of the class and the second pieces start with one, equal
    lists have equal pieces. -/
theorem append_eq_append_of_head {p : Char → Bool} :
    ∀ {a₁ a₂ b₁ b₂ : List Char}, (∀ c ∈ a₁, p c = false) → (∀ c ∈ a₂, p c = false) →
      (∀ c ∈ b₁.head?, p c = true) → (∀ c ∈ b₂.head?, p c = true) →
      a₁ ++ b₁ = a₂ ++ b₂ → a₁ = a₂ ∧ b₁ = b₂
  | [], [], _, _, _, _, _, _, h => ⟨rfl, h⟩
  | [], c :: a₂, b₁, _, _, ha₂, hb₁, _, h => by
      subst h
      simp [ha₂ c (List.mem_cons_self _ _)] at hb₁
  | c :: a₁, [], _, b₂, ha₁, _, _, hb₂, h => by
      subst h
      simp [ha₁ c (List.mem_cons_self _ _)] at hb₂
  | c :: a₁, c' :: a₂, _, _, ha₁, ha₂, hb₁, hb₂, h => by
      simp only [List.cons_append, List.cons.injEq] at h
      obtain ⟨rfl, h⟩ := h
      have := append_eq_append_of_head (fun x hx => ha₁ x (List.mem_cons_of_mem _ hx))
        (fun x hx => ha₂ x (List.mem_cons_of_mem _ hx)) hb₁ hb₂ h
      exact ⟨congrArg _ this.1, this.2⟩

end Naming

end Granite
