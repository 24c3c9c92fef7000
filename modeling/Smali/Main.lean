import Smali.CommandLine

/-!
# The executable

Reads files and prints; the rest is in `Smali.CommandLine`.
-/

namespace Smali

/-- The operating system's words for what can go wrong with a file, by the number of the error. -/
def systemErrors : List (Nat × String) :=
  [(1, "Operation not permitted"), (2, "No such file or directory"), (5, "Input/output error"),
    (6, "No such device or address"), (13, "Permission denied"), (20, "Not a directory"),
    (21, "Is a directory"), (22, "Invalid argument"), (24, "Too many open files"),
    (36, "File name too long"), (40, "Too many levels of symbolic links")]

/-- Words and number of an error; a number reported with a minus arrives as its complement. -/
def systemErrorText (code : UInt32) (details : String) : String :=
  let number := if code.toNat < 0x80000000 then code.toNat else 0x100000000 - code.toNat
  (systemErrors.lookup number).getD details ++ s!" (os error {number})"

/-- Why a file cannot be read. -/
def fileErrorText : IO.Error → String
  | .noFileOrDirectory _ code details | .permissionDenied _ code details
  | .inappropriateType _ code details | .invalidArgument _ code details
  | .resourceExhausted _ code details | .noSuchThing _ code details
  | .hardwareFault code details | .otherError code details => systemErrorText code details
  | other => toString other

/-- The text of a file, or why it cannot be read. -/
def readSourceFile (name : String) : IO (Except String String) := do
  match ← (IO.FS.readBinFile name).toBaseIO with
  | .error e => return .error (fileErrorText e)
  | .ok bytes =>
    match String.fromUTF8? bytes with
    | some text => return .ok text
    | none => return .error "stream did not contain valid UTF-8"

end Smali

/-- Runs the command line. -/
def main (args : List String) : IO UInt32 := do
  let e ← Smali.CommandLine.program Smali.readSourceFile args
  IO.print e.stdout
  IO.eprint e.stderr
  return UInt32.ofNat e.code
