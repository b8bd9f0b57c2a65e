/-
# Text variables

`rtvar` of `proton/rtparam.hpp`: a text as a list of lines, each a key and values
separated by `|`. A pair keeps its values twice, one by one in `m_values` and joined
in `m_value`; the functions below say which copy each operation reads or writes.
-/

import SrmotionProxy.Lib.Remove

namespace SrmotionProxy.Proton

open SrmotionProxy.Lib

/-- `'|'` and `'\n'`. -/
def bar : UInt8 := 124
def newline : UInt8 := 10

/-! ## Pairs -/

/-- `rtvar::pair`. -/
structure Pair where
  mKey : Bytes := []
  mValues : List Bytes := []
  mValue : Bytes := []
  deriving DecidableEq, Repr

namespace Pair

/-- The variables of the loop in `pair::parse`. -/
structure Progress where
  ret : Pair := {}
  key : Bool := true
  first : Bool := true

/-- One token of the line. -/
def Progress.token (progress : Progress) (token : Bytes) : Progress :=
  let ret := progress.ret
  if progress.key then
    { progress with ret := { ret with mKey := token }, key := false }
  else
    let mValue := if progress.first then ret.mValue else ret.mValue ++ [bar]
    { progress with
      ret := { ret with mValue := mValue ++ token, mValues := ret.mValues ++ [token] }
      first := false }

/-- `pair::parse`. -/
def parse (str : Bytes) : Pair :=
  if str.length = 0 then { mValue := ascii "[EMPTY]", mValues := [ascii "[EMPTY]"] }
  else ((Seq.getlines bar str).foldl Progress.token {}).ret

/-- `pair::serialize`. -/
def serialize (pair : Pair) : Bytes :=
  pair.mKey ++ pair.mValues.flatMap fun value => bar :: value

/-- `pair::operator==`: the first values are compared, and read, only when the keys
are equal. -/
def same (left right : Pair) : Except Abort Bool :=
  if left.mKey ≠ right.mKey then .ok false
  else
    match left.mValues, right.mValues with
    | first :: _, second :: _ => .ok (first == second)
    | _, _ => .error .undefinedBehaviour

/-- `pair.m_values[index]`. -/
def valueAt (pair : Pair) (index : Nat) : Except Abort Bytes :=
  match pair.mValues[index]? with
  | some value => .ok value
  | none => .error .undefinedBehaviour

/-- `pair.m_values[0] = ...`. -/
def setFirst (update : Bytes → Bytes) (pair : Pair) : Except Abort Pair :=
  match pair.mValues with
  | first :: rest => .ok { pair with mValues := update first :: rest }
  | [] => .error .undefinedBehaviour

end Pair

/-! ## Lists of pairs -/

/-- `rtvar`. -/
structure Rtvar where
  mPairs : List Pair := []
  deriving DecidableEq, Repr

/-- `utils::is_number`. -/
def isNumber (s : Bytes) : Bool :=
  match s with
  | [] => false
  | first :: rest => if first = 45 then rest.all isDigit else s.all isDigit

namespace Rtvar

/-- `rtvar::append`. -/
def append (var : Rtvar) (str : Bytes) : Rtvar := { mPairs := var.mPairs ++ [Pair.parse str] }

/-- `rtvar::parse`. -/
def parse (str : Bytes) : Rtvar := (Seq.getlines newline str).foldl append {}

/-- `rtvar::get(int)`: an index past the end gives the first pair. -/
def getIndex (var : Rtvar) (i : Nat) : Except Abort Pair :=
  match var.mPairs[i]?, var.mPairs with
  | some pair, _ => .ok pair
  | none, first :: _ => .ok first
  | none, [] => .error .undefinedBehaviour

/-- `rtvar::size`. -/
def size (var : Rtvar) : Nat := var.mPairs.length

/-- `rtvar::valid`. -/
def valid (var : Rtvar) : Bool :=
  match var.mPairs with
  | [] => false
  | first :: _ => decide (1 ≤ first.mValues.length)

/-- `rtvar::find`: the first pair with the key. -/
def find (var : Rtvar) (key : Bytes) : Option Pair :=
  var.mPairs.find? fun pair => pair.mKey = key

/-- A write through the pointer that `find(key)` returned. -/
def modifyFirst (key : Bytes) (update : Pair → Pair) : List Pair → List Pair
  | [] => []
  | pair :: pairs =>
      if pair.mKey = key then update pair :: pairs else pair :: modifyFirst key update pairs

/-- `rtvar::get(key)`. -/
def get (var : Rtvar) (key : Bytes) : Bytes :=
  match var.find key with
  | some pair => pair.mValue
  | none => []

/-- `rtvar::set`. -/
def set (var : Rtvar) (key value : Bytes) : Rtvar :=
  match var.find key with
  | some pair =>
      if 1 ≤ pair.mValues.length then
        { mPairs := modifyFirst key
            (fun pair => { pair with mValues := pair.mValues.set 0 value }) var.mPairs }
      else var
  | none => var

/-- `rtvar::serialize`. The final `ret.erase(ret.end())` erases past the end of the
string: `dropsLast` says whether it takes the last newline or does nothing. -/
def serialize (dropsLast : Bool) (var : Rtvar) : Bytes :=
  let ret := var.mPairs.flatMap fun pair => pair.serialize ++ [newline]
  if dropsLast then ret.dropLast else ret

/-- `rtvar::validate_int`. -/
def validateInt (var : Rtvar) (key : Bytes) : Bool :=
  match var.find key with
  | some pair => isNumber pair.mValue
  | none => false

/-- `rtvar::validate_ints`. -/
def validateInts (var : Rtvar) (vals : List Bytes) : Bool := vals.all var.validateInt

/-- `rtvar::get_int`: the pair is assumed to exist. -/
def getInt (var : Rtvar) (key : Bytes) : Except Abort Int :=
  match var.find key with
  | some pair => .ok (atoi pair.mValue)
  | none => .error .undefinedBehaviour

/-- `rtvar::get_long`, under the same assumption. -/
def getLong (var : Rtvar) (key : Bytes) : Except Abort Int :=
  match var.find key with
  | some pair => .ok (atoll pair.mValue)
  | none => .error .undefinedBehaviour

/-- `rtvar::remove`: the pair that was found is handed to `std::remove` by reference. -/
def remove (var : Rtvar) (key : Bytes) : Except Abort Rtvar :=
  match var.find key with
  | none => .ok var
  | some pair => do
      let index := var.mPairs.findIdx fun pair => pair.mKey = key
      return { mPairs := ← eraseSame Pair.same var.mPairs index pair }

end Rtvar

end SrmotionProxy.Proton
