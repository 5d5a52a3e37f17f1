import Afhttp.Shared.Text

/-!
# Request headers

`http::HeaderMap` as a request carries it: a value is bytes, of which `to_str` reads the visible
ASCII ones.
-/

namespace Afhttp.Host

/-- `HeaderValue`. -/
structure HeaderValue where
  bytes : List UInt8
  deriving DecidableEq, Repr

/-- What `HeaderValue::to_str` reads. -/
def isVisibleAscii (b : UInt8) : Bool := (32 ≤ b && b < 127) || b == 9

def HeaderValue.toStr (value : HeaderValue) : Option String :=
  if value.bytes.all isVisibleAscii then
    some (String.ofList (value.bytes.map fun b => Char.ofNat b.toNat))
  else none

/-- The bytes of a text. -/
def HeaderValue.ofAscii (s : String) : HeaderValue := ⟨s.toList.map fun c => UInt8.ofNat c.toNat⟩

/-- The headers of a request in the order in which they came, names in lower case. -/
structure HeaderMap where
  entries : List (String × HeaderValue)
  deriving DecidableEq, Repr

/-- `HeaderMap::get`: the first value of the name. -/
def HeaderMap.get (headers : HeaderMap) (name : String) : Option HeaderValue := headers.entries.lookup name

end Afhttp.Host
