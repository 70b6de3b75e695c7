import Mathlib.Algebra.Group.Int.Defs
import Mathlib.Order.Basic

/-!
# Signed machine arithmetic

A signed operation is its exact integer result as long as that fits. Overflow has no
defined result: `checked` gives `none`, and a program that goes on with some value
gets it from outside.
-/

namespace Signed

/-- A value of the signed type with this many bits. -/
def Fits (bits : Nat) (n : Int) : Prop := -2 ^ (bits - 1) ≤ n ∧ n < 2 ^ (bits - 1)

instance (bits : Nat) (n : Int) : Decidable (Fits bits n) :=
  inferInstanceAs (Decidable (_ ∧ _))

theorem fits32_iff (n : Int) : Fits 32 n ↔ -2147483648 ≤ n ∧ n < 2147483648 := Iff.rfl

theorem fits64_iff (n : Int) :
    Fits 64 n ↔ -9223372036854775808 ≤ n ∧ n < 9223372036854775808 := Iff.rfl

theorem toInt_ofInt32 {n : Int} (fits : Fits 32 n) : (Int32.ofInt n).toInt = n :=
  Int32.toInt_ofInt_of_le ((fits32_iff n).mp fits).1 ((fits32_iff n).mp fits).2

theorem toInt_ofInt64 {n : Int} (fits : Fits 64 n) : (Int64.ofInt n).toInt = n :=
  Int64.toInt_ofInt_of_le ((fits64_iff n).mp fits).1 ((fits64_iff n).mp fits).2

theorem fits_toInt32 (n : Int32) : Fits 32 n.toInt :=
  (fits32_iff _).mpr ⟨Int32.le_toInt n, Int32.toInt_lt n⟩

theorem fits_toInt64 (n : Int64) : Fits 64 n.toInt :=
  (fits64_iff _).mpr ⟨Int64.le_toInt n, Int64.toInt_lt n⟩

/-- The exact result of an operation, unless it overflows. -/
def checked (bits : Nat) (n : Int) : Option Int := if Fits bits n then some n else none

theorem checked_of_fits {bits : Nat} {n : Int} (fits : Fits bits n) : checked bits n = some n :=
  if_pos fits

theorem checked_of_not_fits {bits : Nat} {n : Int} (overflows : ¬Fits bits n) :
    checked bits n = none :=
  if_neg overflows

end Signed
