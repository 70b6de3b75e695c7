import Mathlib.Data.List.TakeWhile
import Mathlib.Data.Nat.Basic

/-!
# Decimal numbers as bytes

`read` is the part of `strtol` that finds a number: blanks are skipped, a sign may
follow, and the digits end at the first byte that is none. `ofInt` prints a number.
What is printed is read back.
-/

namespace Decimal

def isSpace (b : UInt8) : Bool := b == 32 || (9 ≤ b && b ≤ 13)

def isDigit (b : UInt8) : Bool := 48 ≤ b && b ≤ 57

/-- The byte of an ASCII character. -/
def byte (c : Char) : UInt8 := UInt8.ofNat c.toNat

/-- The value of a row of digits. -/
def digitsValue (digits : List UInt8) : Nat :=
  digits.foldl (fun sofar b => 10 * sofar + (b.toNat - 48)) 0

def readDigits (text : List UInt8) : Nat := digitsValue (text.takeWhile isDigit)

/-- The number at the beginning of a text, 0 if there is none. -/
def read (text : List UInt8) : Int :=
  match text.dropWhile isSpace with
  | [] => 0
  | b :: rest =>
    if b = 45 then -(readDigits rest : Int)
    else if b = 43 then readDigits rest
    else readDigits (b :: rest)

def ofNat (n : Nat) : List UInt8 := (Nat.toDigits 10 n).map byte

def ofInt (n : Int) : List UInt8 :=
  if 0 ≤ n then ofNat n.natAbs else 45 :: ofNat n.natAbs

theorem byte_isDigit {c : Char} (digit : c.isDigit = true) :
    (byte c).toNat = c.toNat ∧ isDigit (byte c) = true := by
  simp only [Char.isDigit, Bool.and_eq_true, decide_eq_true_eq] at digit
  have lower : 48 ≤ c.toNat := digit.1
  have upper : c.toNat ≤ 57 := digit.2
  have same : (byte c).toNat = c.toNat := by
    simp only [byte, UInt8.toNat_ofNat']
    omega
  refine ⟨same, ?_⟩
  simp only [isDigit, Bool.and_eq_true, decide_eq_true_eq, UInt8.le_iff_toNat_le, same]
  exact ⟨lower, upper⟩

theorem isDigit_of_mem_ofNat {n : Nat} {b : UInt8} (member : b ∈ ofNat n) : isDigit b = true := by
  obtain ⟨c, inDigits, rfl⟩ := List.mem_map.mp member
  exact (byte_isDigit (Nat.isDigit_of_mem_toDigits (by omega) (by omega) inDigits)).2

theorem digitsValue_ofNat (n : Nat) : digitsValue (ofNat n) = n := by
  have digits : ∀ c ∈ Nat.toDigits 10 n, c.isDigit = true :=
    fun c member => Nat.isDigit_of_mem_toDigits (by omega) (by omega) member
  have same : ∀ (l : List Char) (start : Nat), (∀ c ∈ l, c.isDigit = true) →
      (l.map byte).foldl (fun sofar b => 10 * sofar + (b.toNat - 48)) start =
        Nat.ofDigitChars 10 l start := by
    intro l
    induction l with
    | nil => exact fun start _ => rfl
    | cons c l ih =>
      intro start allDigits
      have first := (byte_isDigit (allDigits c List.mem_cons_self)).1
      rw [List.map_cons, List.foldl_cons, Nat.ofDigitChars_cons, first]
      exact ih _ fun d member => allDigits d (List.mem_cons_of_mem c member)
  rw [digitsValue, ofNat, same _ 0 digits, Nat.ofDigitChars_ten_toDigits]

theorem readDigits_ofNat (n : Nat) : readDigits (ofNat n) = n := by
  have whole : (ofNat n).takeWhile isDigit = ofNat n :=
    List.takeWhile_eq_self_iff.mpr fun b member => isDigit_of_mem_ofNat member
  rw [readDigits, whole, digitsValue_ofNat]

/-- A digit is no blank and no sign. -/
theorem digit_plain {b : UInt8} (digit : isDigit b = true) :
    isSpace b = false ∧ b ≠ 45 ∧ b ≠ 43 := by
  simp only [isDigit, Bool.and_eq_true, decide_eq_true_eq, UInt8.le_iff_toNat_le] at digit
  have lower : 48 ≤ b.toNat := digit.1
  have below : ∀ other : UInt8, other.toNat < 48 → b ≠ other := by
    rintro other small rfl
    omega
  refine ⟨?_, below 45 (by decide), below 43 (by decide)⟩
  have high : ¬b ≤ 13 := by
    rw [UInt8.le_iff_toNat_le]
    exact not_le.mpr (lt_of_lt_of_le (by decide) lower)
  simp [isSpace, below 32 (by decide), high]

theorem ofNat_ne_nil (n : Nat) : ofNat n ≠ [] := by
  simp [ofNat, Nat.toDigits_ne_nil]

/-- What is printed is read back. -/
theorem read_ofInt (n : Int) : read (ofInt n) = n := by
  by_cases nonneg : 0 ≤ n
  · obtain ⟨b, rest, shape⟩ := List.exists_cons_of_ne_nil (ofNat_ne_nil n.natAbs)
    have digit : isDigit b = true := isDigit_of_mem_ofNat (by rw [shape]; exact List.mem_cons_self)
    obtain ⟨notSpace, notMinus, notPlus⟩ := digit_plain digit
    rw [ofInt, if_pos nonneg, read, shape, List.dropWhile_cons_of_neg (by simp [notSpace])]
    simp only [if_neg notMinus, if_neg notPlus]
    rw [← shape, readDigits_ofNat]
    omega
  · have minus : isSpace 45 = false := by decide
    rw [ofInt, if_neg nonneg, read, List.dropWhile_cons_of_neg (by simp [minus])]
    simp only [if_true, readDigits_ofNat]
    omega

/-- A printed number consists of digits and possibly a minus sign. -/
theorem not_mem_ofInt {n : Int} {b : UInt8} (other : isDigit b = false) (notMinus : b ≠ 45) :
    b ∉ ofInt n := by
  intro member
  have inDigits : b ∈ ofNat n.natAbs := by
    rw [ofInt] at member
    split at member
    · exact member
    · exact (List.mem_cons.mp member).resolve_left notMinus
  rw [isDigit_of_mem_ofNat inDigits] at other
  cases other

end Decimal
