import RemoteManage.Foundation.ScanInt
import RemoteManage.Foundation.ValueTree

/-!
# Values of the JSON library

What the configuration asks of a value that has been read from a file: a member, and a
conversion to a text, a number or a truth value. A conversion that throws gives `none`. An
integer is one number whether the library keeps it as signed or as unsigned.
-/

namespace RemoteManage.Common

open RemoteManage.Foundation RemoteManage.Foundation.CString

/-- A value that is neither null nor an object. A real number is given by what its conversions make of
it. -/
inductive JsonLeaf where
  | bool (value : Bool)
  | integer (value : ℤ)
  | real (text : List UInt8) (int : Option Int32) (uint : Option UInt32) (nonzero : Bool)
  | string (text : List UInt8)
  | array

/-- `Json::Value`, as far as members are looked up by their names. -/
abbrev JsonTree := ValueTree String JsonLeaf

namespace JsonTree

/-- A value made from an `int`. -/
def ofInt (x : Int32) : JsonTree := .leaf (.integer x.toInt)

/-- A value made from a `uint32_t`. -/
def ofUInt (x : UInt32) : JsonTree := .leaf (.integer x.toNat)

/-- A value made from a string. -/
def ofString (text : List UInt8) : JsonTree := .leaf (.string text)

/-- A value made from a `bool`. -/
def ofBool (x : Bool) : JsonTree := .leaf (.bool x)

/-- `asString`. -/
def asString : JsonTree → Option (List UInt8)
  | .null => some []
  | .leaf (.bool value) => some (bytes (if value then "true" else "false"))
  | .leaf (.integer value) => some (decimal value)
  | .leaf (.real text _ _ _) => some text
  | .leaf (.string text) => some text
  | .leaf .array => none
  | .object _ => none

/-- `asInt`. -/
def asInt : JsonTree → Option Int32
  | .null => some 0
  | .leaf (.bool value) => some (if value then 1 else 0)
  | .leaf (.integer value) =>
    if Int32.minValue.toInt ≤ value ∧ value ≤ Int32.maxValue.toInt then some (.ofInt value) else none
  | .leaf (.real _ int _ _) => int
  | .leaf (.string _) => none
  | .leaf .array => none
  | .object _ => none

/-- `asUInt`. -/
def asUInt : JsonTree → Option UInt32
  | .null => some 0
  | .leaf (.bool value) => some (if value then 1 else 0)
  | .leaf (.integer value) => if 0 ≤ value ∧ value ≤ UInt32.size - 1 then some (.ofInt value) else none
  | .leaf (.real _ _ uint _) => uint
  | .leaf (.string _) => none
  | .leaf .array => none
  | .object _ => none

/-- `asBool`. -/
def asBool : JsonTree → Option Bool
  | .null => some false
  | .leaf (.bool value) => some value
  | .leaf (.integer value) => some (value ≠ 0)
  | .leaf (.real _ _ _ nonzero) => some nonzero
  | .leaf (.string _) => none
  | .leaf .array => none
  | .object _ => none

/-- A number that is an `int` is read back. -/
@[simp] theorem asInt_ofInt (x : Int32) : asInt (ofInt x) = some x := by
  have hrange : Int32.minValue.toInt ≤ x.toInt ∧ x.toInt ≤ Int32.maxValue.toInt :=
    ⟨x.minValue_le_toInt, x.toInt_le⟩
  rw [ofInt, asInt, if_pos hrange, Int32.ofInt_toInt]

/-- A number that is a `uint32_t` is read back. -/
@[simp] theorem asUInt_ofUInt (x : UInt32) : asUInt (ofUInt x) = some x := by
  have hlt := x.toNat_lt
  have hrange : 0 ≤ (x.toNat : ℤ) ∧ (x.toNat : ℤ) ≤ UInt32.size - 1 :=
    ⟨Int.natCast_nonneg _, Int.le_sub_one_of_lt (Int.ofNat_lt.mpr x.toNat_lt_size)⟩
  rw [ofUInt, asUInt, if_pos hrange]
  congr 1
  apply UInt32.toNat_inj.mp
  rw [UInt32.ofInt, UInt32.toNat_ofNat']
  omega

/-- Null is read as an empty text. -/
@[simp] theorem asString_null : asString .null = some [] := rfl

/-- A text is read back. -/
@[simp] theorem asString_ofString (text : List UInt8) : asString (ofString text) = some text := rfl

/-- A truth value is read back. -/
@[simp] theorem asBool_ofBool (x : Bool) : asBool (ofBool x) = some x := rfl

end JsonTree

end RemoteManage.Common
