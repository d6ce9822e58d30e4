/-!
# Powers and words

Floats are whole numbers times powers of two, decimals whole numbers times
powers of ten, and a word of 64 bits holds the whole numbers up to a power of
two.

- `twoTo`, `tenTo`: the powers.
- `FitsSigned`, `FitsUnsigned`, `FitsWord`: numbers that a word holds.
-/

namespace EntitySql

/-! ## Powers -/

/-- Two to the power of a number. -/
def twoTo (k : Nat) : Nat := Nat.pow 2 k

/-- Ten to the power of a number. -/
def tenTo (k : Nat) : Nat := Nat.pow 10 k

@[simp] theorem twoTo_zero : twoTo 0 = 1 := rfl

theorem twoTo_succ (k : Nat) : twoTo (k + 1) = twoTo k * 2 := rfl

@[simp] theorem tenTo_zero : tenTo 0 = 1 := rfl

theorem twoTo_pos (k : Nat) : 0 < twoTo k := Nat.pow_pos (by decide)

/-! ## Words -/

/-- The number fits a signed word. -/
abbrev FitsSigned (n : Int) : Prop := -9223372036854775808 ≤ n ∧ n < 9223372036854775808

/-- The number fits an unsigned word. -/
abbrev FitsUnsigned (n : Nat) : Prop := n < 18446744073709551616

/-- The number fits a signed or an unsigned word. -/
abbrev FitsWord (n : Int) : Prop := -9223372036854775808 ≤ n ∧ n < 18446744073709551616

end EntitySql
