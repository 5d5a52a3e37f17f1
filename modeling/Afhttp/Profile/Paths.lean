import Afhttp.Shared.Error
import Afhttp.Shared.Text

/-!
# Profile names

`validate_name` of `sdk/profile/paths.rs`: a name is one path component on every system.
-/

namespace Afhttp.Profile

open Text

def isWindowsReserved (name : String) : Bool :=
  ["con", "prn", "aux", "nul", "com1", "com2", "com3", "com4", "com5", "com6", "com7", "com8", "com9",
    "lpt1", "lpt2", "lpt3", "lpt4", "lpt5", "lpt6", "lpt7", "lpt8", "lpt9"].contains
    (toAsciiLowercase (beforeFirst '.' name))

def isNameChar (c : Char) : Bool := c.isAlphanum || c == '-' || c == '_' || c == '.'

def validateName (fmt : DebugFormat) (name : String) : Except Error Unit :=
  if name.isEmpty then .error (.new .profileInvalidName "profile name cannot be empty")
  else if 64 < name.utf8ByteSize then
    .error (.new .profileInvalidName "profile name longer than 64 characters")
  else if startsWith name "." then
    .error (.new .profileInvalidName "profile name cannot start with '.'")
  else if endsWith name "." then
    .error (.new .profileInvalidName "profile name cannot end with '.'")
  else
    match name.toList.find? (!isNameChar ·) with
    | some c =>
      .error (.new .profileInvalidName s!"profile name contains forbidden character: {fmt.char c}")
    | none =>
      if isWindowsReserved name then
        .error (.new .profileInvalidName
          s!"profile name {fmt.str name} matches a Windows reserved device name; pick another to keep profiles portable")
      else .ok ()

end Afhttp.Profile
