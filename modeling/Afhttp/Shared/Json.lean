import Mathlib.Algebra.Group.Nat.Defs
import Mathlib.Data.Nat.Notation

/-!
# JSON values

`serde_json::Value` and its accessors.  A number keeps the three forms of
`serde_json::Number`; only the first is a `u64`.
-/

namespace Afhttp

inductive Json where
  | null
  | bool (b : Bool)
  | posInt (n : ℕ)
  | negInt (n : Int)
  | float (text : String)
  | str (s : String)
  | arr (values : List Json)
  | obj (fields : List (String × Json))

namespace Json

/-- `Value::get` with a key. -/
def get (key : String) : Json → Option Json
  | obj fields => fields.lookup key
  | _ => none

/-- `value[key]`: `null` where there is no such field. -/
def index (key : String) (value : Json) : Json := (value.get key).getD null

def asStr : Json → Option String
  | str s => some s
  | _ => none

def asU64 : Json → Option ℕ
  | posInt n => some n
  | _ => none

def asI64 : Json → Option Int
  | posInt n => if n < 2 ^ 63 then some n else none
  | negInt n => some n
  | _ => none

def asBool : Json → Option Bool
  | bool b => some b
  | _ => none

def asArray : Json → Option (List Json)
  | arr values => some values
  | _ => none

def asObject : Json → Option (List (String × Json))
  | obj fields => some fields
  | _ => none

end Json

end Afhttp
