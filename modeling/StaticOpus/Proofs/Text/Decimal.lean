import Mathlib.Data.Int.Basic

/-!
# Numbers in decimal

A number is written with its sign, if it is negative, and the digits of its absolute value.
-/

namespace StaticOpus.Text

theorem toString_natCast (number : Nat) : toString (number : Int) = toString number := rfl

theorem toString_int (value : Int) :
    toString value = (if value < 0 then "-" else "") ++ toString value.natAbs := by
  change value.repr = _
  rw [Int.repr_eq_if, Nat.toString_eq_repr]
  by_cases negative : value < 0
  · rw [if_neg (by omega), if_pos negative, show (-value).toNat = value.natAbs by omega]
  · rw [if_pos (by omega), if_neg negative, show value.toNat = value.natAbs by omega,
      String.empty_append]

end StaticOpus.Text
