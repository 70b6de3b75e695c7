import Mathlib.Data.Rat.Cast.Order
import Safwk.Library.Signed

/-!
# JSON values

The values of `nlohmann::json` and the few operations this code uses on them. A
`std::string` is its bytes. An object is the list of its members; a key occurs once,
so that looking it up finds the first. A floating-point number stands for the rational
it denotes; a parsed text never gives an infinity or a NaN.

Reading a number as an integer type is a `static_cast`: an integer is reduced to the
width of the type, a floating-point number loses its fraction. The cast of a
floating-point number that does not fit has no defined result, and `undefined` says
what it gives.
-/

/-- The bytes of a `std::string`. -/
abbrev StdString := List UInt8

/-- The bytes of a literal in the source, which is ASCII. -/
def StdString.literal (s : String) : StdString := s.toList.map fun c => UInt8.ofNat c.toNat

inductive Json where
  | null
  | boolean (value : Bool)
  | numberInteger (value : Int64)
  | numberUnsigned (value : UInt64)
  | numberFloat (value : ℚ)
  | string (value : StdString)
  | array (elements : List Json)
  | object (members : List (StdString × Json))

namespace Json

open Signed

/-- `contains` and `operator[]` together: only an object has members. -/
def member (json : Json) (key : StdString) : Option Json :=
  match json with
  | object members => members.lookup key
  | _ => none

/-- Assignment to `operator[]`: the null value becomes an object first, and a member that
is there is replaced. On a value of another kind the library throws; the code assigns to
null values and objects only. -/
def assign (json : Json) (key : StdString) (value : Json) : Json :=
  match json with
  | null => object [(key, value)]
  | object members => object ((members.filter fun entry => entry.1 != key) ++ [(key, value)])
  | other => other

/-- The number that a JSON number denotes. -/
def number : Json → Option ℚ
  | numberInteger value => some value.toInt
  | numberUnsigned value => some value.toNat
  | numberFloat value => some value
  | _ => none

def text : Json → Option StdString
  | string value => some value
  | _ => none

/-- The number without its fraction. -/
def truncate (q : ℚ) : Int := Int.tdiv q.num q.den

/-- `is_number` and the `static_cast` to a signed type, before the reduction to its width. -/
def integer (undefined : ℚ → Int) (bits : Nat) : Json → Option Int
  | numberInteger value => some value.toInt
  | numberUnsigned value => some value.toNat
  | numberFloat value =>
    some (if Fits bits (truncate value) then truncate value else undefined value)
  | _ => none

def int32 (undefined : ℚ → Int) (json : Json) : Option Int32 :=
  (json.integer undefined 32).map Int32.ofInt

def int64 (undefined : ℚ → Int) (json : Json) : Option Int64 :=
  (json.integer undefined 64).map Int64.ofInt

theorem truncate_intCast (n : Int) : truncate n = n := by
  rw [truncate, Rat.num_intCast, Rat.den_intCast]
  exact Int.tdiv_one n

theorem integer_none_iff (undefined : ℚ → Int) (bits : Nat) (json : Json) :
    json.integer undefined bits = none ↔ json.number = none := by
  cases json <;> simp [integer, number]

/-- A number that is a value of the integer type is read as it is. -/
theorem integer_of_fits (undefined : ℚ → Int) {bits : Nat} {json : Json} {n : Int}
    (denotes : json.number = some (n : ℚ)) (fits : Fits bits n) :
    json.integer undefined bits = some n := by
  cases json with
  | numberInteger value =>
    have same : ((value.toInt : Int) : ℚ) = n := Option.some.inj denotes
    rw [integer, Int.cast_inj.mp same]
  | numberUnsigned value =>
    have same : ((value.toNat : Int) : ℚ) = n := by
      simpa [number] using denotes
    rw [integer, Int.cast_inj.mp same]
  | numberFloat value =>
    have same : value = n := Option.some.inj denotes
    rw [integer, same, truncate_intCast, if_pos fits]
  | _ => cases denotes

theorem int32_of_fits (undefined : ℚ → Int) {json : Json} {n : Int}
    (denotes : json.number = some (n : ℚ)) (fits : Fits 32 n) :
    json.int32 undefined = some (Int32.ofInt n) := by
  rw [int32, integer_of_fits undefined denotes fits]
  rfl

theorem int64_of_fits (undefined : ℚ → Int) {json : Json} {n : Int}
    (denotes : json.number = some (n : ℚ)) (fits : Fits 64 n) :
    json.int64 undefined = some (Int64.ofInt n) := by
  rw [int64, integer_of_fits undefined denotes fits]
  rfl

theorem int32_none_iff (undefined : ℚ → Int) (json : Json) :
    json.int32 undefined = none ↔ json.number = none := by
  rw [int32, Option.map_eq_none_iff, integer_none_iff]

theorem int64_none_iff (undefined : ℚ → Int) (json : Json) :
    json.int64 undefined = none ↔ json.number = none := by
  rw [int64, Option.map_eq_none_iff, integer_none_iff]

end Json
