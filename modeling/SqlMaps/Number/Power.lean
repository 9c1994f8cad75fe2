/-! Powers of two and of ten: the places of binary and decimal numbers. -/
namespace SqlMaps.Number

/-- The value of a binary place: two to the power of `n`. -/
def pow2 (n : Nat) : Nat :=
  Nat.pow 2 n

/-- The value of a decimal place: ten to the power of `n`. -/
def pow10 (n : Nat) : Nat :=
  Nat.pow 10 n

theorem pow2_succ (n : Nat) : pow2 (n + 1) = pow2 n * 2 := rfl

theorem pow10_succ (n : Nat) : pow10 (n + 1) = pow10 n * 10 := rfl

theorem pow2_pos (n : Nat) : 0 < pow2 n := by
  induction n with
  | zero => decide
  | succ n ih => rw [pow2_succ]; omega

theorem pow10_pos (n : Nat) : 0 < pow10 n := by
  induction n with
  | zero => decide
  | succ n ih => rw [pow10_succ]; omega

end SqlMaps.Number
