import Mathlib.Data.String.Basic
import NasServices.Lib.SortedMap

/-!
# Structured values with typed accessors

`Value` is a tree of dictionaries, lists and scalars. A dictionary is read by the type
that is expected (`findStringKey`, `findIntKey`, …): a value of another type is not
found, except that an integer is also found as a double. A double that is not finite is
stored as zero.
-/

namespace Nas.Lib.Json

structure Double where
  bits : BitVec 64 := 0
  deriving DecidableEq, Repr

def Double.isFinite (d : Double) : Bool := d.bits.extractLsb' 52 11 != 0x7ff

/-- The double that a `Value` holds. -/
def Double.stored (d : Double) : Double := if d.isFinite then d else {}

def Double.ofInt (n : Int) : Double :=
  if n = 0 then {}
  else
    let k := n.natAbs.log2
    let fraction := (n.natAbs - 2 ^ k) * 2 ^ (52 - k)
    ⟨BitVec.ofNat 64 ((if n < 0 then 2 ^ 63 else 0) + (1023 + k) * 2 ^ 52 + fraction)⟩

example : (Double.ofInt 1).bits = 0x3ff0000000000000 ∧ (Double.ofInt (-3)).bits = 0xc008000000000000 := by decide

inductive Value
  | none
  | boolean (b : Bool)
  | integer (n : Int32)
  | double (d : Double)
  | string (s : String)
  | dict (entries : List (String × Value))
  | list (values : List Value)

namespace Value

@[simp] def getIfBool : Value → Option Bool
  | .boolean b => some b
  | _ => Option.none

@[simp] def getIfInt : Value → Option Int32
  | .integer n => some n
  | _ => Option.none

@[simp] def getIfDouble : Value → Option Double
  | .double d => some d
  | .integer n => some (.ofInt n.toInt)
  | _ => Option.none

@[simp] def getIfString : Value → Option String
  | .string s => some s
  | _ => Option.none

def getIfDict : Value → Option (List (String × Value))
  | .dict entries => some entries
  | _ => Option.none

def isDict : Value → Bool
  | .dict _ => true
  | _ => false

def isList : Value → Bool
  | .list _ => true
  | _ => false

def findKey (j : Value) (k : String) : Option Value := j.getIfDict.bind (Lib.findKey k)

@[simp] def findBoolKey (j : Value) (k : String) : Option Bool := (j.findKey k).bind getIfBool
@[simp] def findIntKey (j : Value) (k : String) : Option Int32 := (j.findKey k).bind getIfInt
@[simp] def findDoubleKey (j : Value) (k : String) : Option Double := (j.findKey k).bind getIfDouble
@[simp] def findStringKey (j : Value) (k : String) : Option String := (j.findKey k).bind getIfString
@[simp] def findDictKey (j : Value) (k : String) : Option Value := (j.findKey k).filter isDict
def findListKey (j : Value) (k : String) : Option Value := (j.findKey k).filter isList

def setKey (j : Value) (k : String) (v : Value) : Value :=
  match j with
  | .dict entries => .dict (Lib.setKey k v entries)
  | _ => j

@[simp] def setBoolKey (j : Value) (k : String) (b : Bool) : Value := j.setKey k (.boolean b)
@[simp] def setIntKey (j : Value) (k : String) (n : Int32) : Value := j.setKey k (.integer n)
@[simp] def setDoubleKey (j : Value) (k : String) (d : Double) : Value := j.setKey k (.double d.stored)
@[simp] def setStringKey (j : Value) (k : String) (s : String) : Value := j.setKey k (.string s)

/-! ## Reading what was written -/

@[simp] theorem isDict_dict (entries : List (String × Value)) : (Value.dict entries).isDict = true := by
  rw [isDict]

@[simp] theorem isDict_setKey (j : Value) (k : String) (v : Value) : (j.setKey k v).isDict = j.isDict := by
  cases j <;> rfl

@[simp] theorem findKey_nil (k : String) : (Value.dict []).findKey k = Option.none := rfl

@[simp] theorem findKey_setKey {j : Value} (h : j.isDict = true) (k k' : String) (v : Value) :
    (j.setKey k v).findKey k' = if k' = k then some v else j.findKey k' := by
  cases j with
  | dict entries => exact Lib.findKey_setKey k k' v entries
  | none | boolean | integer | double | string | list => cases h

end Value

end Nas.Lib.Json
