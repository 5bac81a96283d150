import ChatCommands.Chat.Entity

/-!
# Numerals

Digits are read back as the number that was written, and so is the text of an
identifier.
-/

namespace ChatCommands

namespace Numeral

theorem isDigit_of_mem_digits {n : Nat} {c : Char} (h : c ∈ digits n) : c.isDigit = true :=
  Nat.isDigit_of_mem_toDigits (by decide) (by decide) h

theorem digits_ne_nil (n : Nat) : digits n ≠ [] :=
  Nat.toDigits_ne_nil

theorem value_digits (n : Nat) : value (digits n) = n := by
  have hvalue : value (digits n) = Nat.ofDigitChars 10 (Nat.toDigits 10 n) 0 := rfl
  rw [hvalue]
  simp

theorem read?_digits (n : Nat) : read? (digits n) = some n := by
  have hempty : (digits n).isEmpty = false := by
    rw [Bool.eq_false_iff, ne_eq, List.isEmpty_iff]
    exact digits_ne_nil n
  have hall : (digits n).all Char.isDigit = true :=
    List.all_eq_true.mpr fun _ => isDigit_of_mem_digits
  rw [read?, hempty, hall, value_digits]
  rfl

/-- Digits are read as they are where a sign might stand in front. -/
theorem readUnsigned?_digits {limit n : Nat} (h : n ≤ limit) :
    readUnsigned? limit (digits n) = some n := by
  have hplus : ∀ rest, digits n ≠ '+' :: rest := by
    intro rest heq
    have hdigit := isDigit_of_mem_digits (heq ▸ List.mem_cons_self : '+' ∈ digits n)
    revert hdigit
    decide
  unfold readUnsigned?
  split
  next rest heq => exact absurd heq (hplus rest)
  next => simp [read?_digits, h]

end Numeral

namespace Snowflake

theorem isDigit_of_mem_text {id : Snowflake} {c : Char} (h : c ∈ id.text.toList) :
    c.isDigit = true := by
  rw [text, Numeral.text, String.toList_ofList] at h
  exact Numeral.isDigit_of_mem_digits h

theorem read?_text (id : Snowflake) : read? id.text.toList = some id := by
  have hlimit : id.toNat ≤ Numeral.max64 := Nat.le_of_lt_succ id.toNat_lt
  rw [text, Numeral.text, String.toList_ofList, read?, Numeral.readUnsigned?_digits hlimit]
  simp

end Snowflake

end ChatCommands
