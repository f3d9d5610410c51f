/-!
# JSON values

What a JSON parser returns, and the accessors that look into it. An accessor of the wrong kind of
value, or of a field that is not there, returns nothing.
-/

namespace Json

/-- A number as it was written: an integer of 64 bits, or the bits of a double. -/
inductive Number where
  | posInt (n : UInt64)
  | negInt (n : Int64)
  | float (bits : UInt64)
  deriving DecidableEq

/-- A JSON value. The fields of an object have distinct keys. -/
inductive Value where
  | null
  | bool (b : Bool)
  | number (n : Number)
  | string (s : String)
  | array (elements : List Value)
  | object (fields : List (String × Value))

namespace Value

def get (key : String) : Value → Option Value
  | .object fields => fields.lookup key
  | _ => none

/-- Follow the fields one by one. -/
def pointer : List String → Value → Option Value
  | [], v => some v
  | key :: keys, v => (v.get key).bind (pointer keys)

def asStr : Value → Option String
  | .string s => some s
  | _ => none

def asU64 : Value → Option UInt64
  | .number (.posInt n) => some n
  | _ => none

def asBool : Value → Option Bool
  | .bool b => some b
  | _ => none

def asArray : Value → Option (List Value)
  | .array elements => some elements
  | _ => none

def isString : Value → Bool
  | .string _ => true
  | _ => false

def isNumber : Value → Bool
  | .number _ => true
  | _ => false

def isObject : Value → Bool
  | .object _ => true
  | _ => false

def isNull : Value → Bool
  | .null => true
  | _ => false

end Value

end Json
