import GameLauncher.FileSystem.Errno
import GameLauncher.Path
import GameLauncher.Text.Quoted
import GameLauncher.Text.Utf8

namespace GameLauncher

/-- What a name stands for that is taken for a log level's and is none. -/
inductive NonLevel
  | text (s : String)
  | object (shown : String)
  deriving DecidableEq

inductive Failure
  | noArguments
  | missingArgument (flag : String)
  | notTrueOrFalse (flag : String)
  | badPid (flag : String) (value : String)
  | missingFolder (value : String)
  | gameNotFound (raw : String)
  | system (e : Errno) (path : String)
  | embeddedNull
  | invalidName (name : String)
  | longNumeral (digits : Nat)
  | longInteger
  | unknownLevel (found : NonLevel)
  | notUtf8 (fault : Text.Utf8Fault)
  | noHome
  | noUserDirectory (dir : Path)
  | hugeImage (pixels : Nat)
  | tooDeep (complaint : String)
  deriving DecidableEq

def maxDigits : Nat := 4300

def maxPixels : Nat := 178956970

def Errno.message (e : Errno) (path : String) : String :=
  s!"[Errno {e.number}] {e.description}: {Text.quoted path}"

def Text.Utf8Reason.message : Text.Utf8Reason → String
  | .badStart => "invalid start byte"
  | .badContinuation => "invalid continuation byte"
  | .endsEarly => "unexpected end of data"

def Text.Utf8Fault.message (f : Text.Utf8Fault) : String :=
  let place :=
    if f.length = 1 then
      "byte 0x" ++ String.ofList (Text.hexDigits 2 f.first.toNat) ++ s!" in position {f.offset}"
    else s!"bytes in position {f.offset}-{f.offset + f.length - 1}"
  s!"'utf-8' codec can't decode {place}: {f.reason.message}"

def Failure.message : Failure → String
  | noArguments => "No arguments given."
  | missingArgument flag => s!"Missing argument for {flag}"
  | notTrueOrFalse flag => s!"Invalid argument for {flag}. Use 'true' or 'false'."
  | badPid _ value => s!"Invalid PID argument: {value}"
  | missingFolder value => s!"Folder does not exist: {value}"
  | gameNotFound raw => s!"Game ID or file path not found: {raw}"
  | system e path => e.message path
  | embeddedNull => "embedded null byte"
  | invalidName name => s!"Invalid name {Text.quoted name}"
  | longNumeral digits =>
    s!"Exceeds the limit ({maxDigits} digits) for integer string conversion: value has {digits} digits; use sys.set_int_max_str_digits() to increase the limit"
  | longInteger =>
    s!"Exceeds the limit ({maxDigits} digits) for integer string conversion; use sys.set_int_max_str_digits() to increase the limit"
  | unknownLevel (.text s) => s!"Unknown level: {Text.quoted s}"
  | unknownLevel (.object shown) => s!"Level not an integer or a valid string: {shown}"
  | notUtf8 fault => fault.message
  | noHome => "Could not determine home directory."
  | noUserDirectory dir => s!"User directory could not be created: {dir.text}"
  | hugeImage pixels =>
    s!"Image size ({pixels} pixels) exceeds limit of {maxPixels} pixels, could be decompression bomb DOS attack."
  | tooDeep complaint => complaint

end GameLauncher
