import Mathlib.Data.Rat.Defs
import Mathlib.Algebra.Order.Ring.Unbundled.Rat

/-!
# JavaScript values

The values that JSON text and plain object literals denote, with the operators a check on them
uses.  Every double is a number here, and so is every other rational.
-/

namespace FaberHosts.Lib

inductive JsNumber where
  | finite (value : ℚ)
  | infinite (negative : Bool)
  | nan
  deriving DecidableEq

namespace JsNumber

def ofNat (n : Nat) : JsNumber := .finite n

/-- `a < b`: nothing is less or greater than `NaN`. -/
def lt : JsNumber → JsNumber → Bool
  | .finite a, .finite b => decide (a < b)
  | .finite _, .infinite negative => !negative
  | .infinite negative, .finite _ => negative
  | .infinite a, .infinite b => a && !b
  | .nan, _ | _, .nan => false

/-- `a <= b`. -/
def le : JsNumber → JsNumber → Bool
  | .finite a, .finite b => decide (a ≤ b)
  | .infinite a, .infinite b => a || !b
  | .nan, _ | _, .nan => false
  | a, b => a.lt b

/-- `a === b`. -/
def equals : JsNumber → JsNumber → Bool
  | .nan, _ => false
  | a, b => decide (a = b)

/-- `Number.isInteger(a) && a >= 0`, with the integer. -/
def index : JsNumber → Option Nat
  | .finite value => if value.den = 1 ∧ 0 ≤ value.num then some value.num.toNat else none
  | _ => none

@[simp] theorem index_ofNat (n : Nat) : (ofNat n).index = some n := by
  simp [ofNat, index]

end JsNumber

inductive JsValue where
  | undefined
  | null
  | bool (value : Bool)
  | num (value : JsNumber)
  | str (value : String)
  | arr (items : List JsValue)
  | obj (fields : List (String × JsValue))

/-- A value that `===` compares by content. -/
inductive JsPrimitive where
  | bool (value : Bool)
  | num (value : Nat)
  | str (value : String)
  deriving DecidableEq

namespace JsValue

def ofNat (n : Nat) : JsValue := .num (.ofNat n)

/-- The property of an object; nothing else has properties of its own that are asked for. -/
def get : JsValue → String → JsValue
  | .obj fields, name => (fields.lookup name).getD .undefined
  | _, _ => .undefined

/-- `value === expected`. -/
def equals : JsValue → JsPrimitive → Bool
  | .bool a, .bool b => a == b
  | .num a, .num b => a.equals (.ofNat b)
  | .str a, .str b => a == b
  | _, _ => false

/-- `value == null`. -/
def isNullish : JsValue → Bool
  | .undefined | .null => true
  | _ => false

/-- A number that is a non-negative integer. -/
def index : JsValue → Option Nat
  | .num value => value.index
  | _ => none

@[simp] theorem index_ofNat (n : Nat) : (ofNat n).index = some n := JsNumber.index_ofNat n

end JsValue

end FaberHosts.Lib
