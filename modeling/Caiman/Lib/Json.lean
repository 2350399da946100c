/-!
# JSON values

The value type of a JSON library and the lenient accessors programs use on it:
a key that is missing, or looked up in something that is not an object, gives
`null`. The text form is left abstract, as a printer and a reader.
-/

namespace Caiman.Lib.Json

/-- A float is held by its bits. -/
inductive Number
  | posInt (n : UInt64)
  | negInt (n : Int64)
  | float (bits : UInt64)
  deriving DecidableEq

inductive Value
  | null
  | bool (b : Bool)
  | number (n : Number)
  | string (s : String)
  | array (items : List Value)
  | object (fields : List (String × Value))

namespace Value

def nat (n : UInt64) : Value := .number (.posInt n)

def asU64 : Value → Option UInt64
  | .number (.posInt n) => some n
  | _ => none

def asStr : Value → Option String
  | .string s => some s
  | _ => none

def asArray : Value → Option (List Value)
  | .array items => some items
  | _ => none

/-- `v[key]` -/
def index (v : Value) (key : String) : Value :=
  match v with
  | .object fields => (fields.lookup key).getD .null
  | _ => .null

/-- `v.get(key)` -/
def get (v : Value) (key : String) : Option Value :=
  match v with
  | .object fields => fields.lookup key
  | _ => none

@[simp] theorem asU64_nat (n : UInt64) : (nat n).asU64 = some n := rfl

@[simp] theorem asArray_array (items : List Value) : (array items).asArray = some items := rfl

end Value

/-- A printer and a reader of JSON text. -/
structure Codec where
  toVec : Value → List UInt8
  fromSlice : List UInt8 → Option Value

/-- The text a value is printed to is one the reader takes. -/
def Codec.ReadsBack (json : Codec) (v : Value) : Prop := (json.fromSlice (json.toVec v)).isSome = true

/-! ## Compact text -/

def digits (n : Nat) : List UInt8 := (Nat.toDigits 10 n).map fun c => c.toNat.toUInt8

/-- A byte inside a string, with the escapes of RFC 8259. -/
def escape (b : UInt8) : List UInt8 :=
  if b = 34 ∨ b = 92 then [92, b]
  else if b = 8 then [92, 98]
  else if b = 9 then [92, 116]
  else if b = 10 then [92, 110]
  else if b = 12 then [92, 102]
  else if b = 13 then [92, 114]
  else if b < 32 then
    [92, 117, 48, 48] ++ (Nat.toDigits 16 (b.toNat / 16)).map (fun c => c.toNat.toUInt8) ++
      (Nat.toDigits 16 (b.toNat % 16)).map fun c => c.toNat.toUInt8
  else [b]

def quoted (s : String) : List UInt8 := 34 :: s.toUTF8.data.toList.flatMap escape ++ [34]

def Number.print (float : UInt64 → List UInt8) : Number → List UInt8
  | .posInt n => digits n.toNat
  | .negInt n => if n < 0 then 45 :: digits n.toInt.natAbs else digits n.toInt.natAbs
  | .float bits => float bits

mutual

/-- The compact text of a value; how a float is written is the library's. -/
def Value.print (float : UInt64 → List UInt8) : Value → List UInt8
  | .null => [110, 117, 108, 108]
  | .bool true => [116, 114, 117, 101]
  | .bool false => [102, 97, 108, 115, 101]
  | .number n => n.print float
  | .string s => quoted s
  | .array [] => [91, 93]
  | .array (v :: rest) => 91 :: v.print float ++ printItems float rest ++ [93]
  | .object [] => [123, 125]
  | .object ((key, v) :: rest) =>
      123 :: quoted key ++ 58 :: v.print float ++ printFields float rest ++ [125]

def printItems (float : UInt64 → List UInt8) : List Value → List UInt8
  | [] => []
  | v :: rest => 44 :: v.print float ++ printItems float rest

def printFields (float : UInt64 → List UInt8) : List (String × Value) → List UInt8
  | [] => []
  | (key, v) :: rest => 44 :: quoted key ++ 58 :: v.print float ++ printFields float rest

end

/-- The compact printer with a reader of the texts of these values. -/
def Codec.knowing (float : UInt64 → List UInt8) (values : List Value) : Codec where
  toVec := Value.print float
  fromSlice bytes := values.find? fun v => v.print float = bytes

theorem Codec.knowing_cons (float : UInt64 → List UInt8) (v : Value) (values : List Value) :
    (Codec.knowing float (v :: values)).fromSlice ((Codec.knowing float (v :: values)).toVec v) =
      some v := by
  simp [Codec.knowing, List.find?_cons]

end Caiman.Lib.Json
