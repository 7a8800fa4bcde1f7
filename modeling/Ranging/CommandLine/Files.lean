/-!
# Files as the command line sees them

What can go wrong with a file, and the two things that are done with one. The program is written
over any monad in which files can be read and written, so that it runs on a disk as well as on a
tree of files in memory.
-/

namespace Ranging.CommandLine

/-- Why a file cannot be read or written. -/
inductive FileFault where
  /-- The operating system refuses, with its number and its words for the reason. -/
  | system (code : Nat) (reason : String)
  /-- The content is no UTF-8 text. -/
  | notText
deriving DecidableEq

namespace FileFault

/-- Nothing stands at the path, or at a directory on the way. -/
def notFound : FileFault := .system 2 "No such file or directory"

/-- The device is not there to be used. -/
def noDevice : FileFault := .system 6 "No such device or address"

/-- The user may not do this. -/
def denied : FileFault := .system 13 "Permission denied"

/-- Something on the way is no directory. -/
def notDirectory : FileFault := .system 20 "Not a directory"

/-- A directory stands where a file is needed. -/
def isDirectory : FileFault := .system 21 "Is a directory"

/-- What is written does not fit. -/
def noSpace : FileFault := .system 28 "No space left on device"

/-- A name on the path is longer than names can be, or the whole path is. -/
def nameTooLong : FileFault := .system 36 "File name too long"

/-- The faults with words of their own. -/
def known : List FileFault :=
  [notFound, noDevice, denied, notDirectory, isDirectory, noSpace, nameTooLong]

/-- The number of a fault, if it has one. -/
def code? : FileFault → Option Nat
  | .system code _ => some code
  | .notText => none

/-- The fault with a number, in words of its own if it has some. -/
def ofCode (code : Nat) (reason : String) : FileFault :=
  (known.find? (·.code? = some code)).getD (.system code reason)

/-- The message of a fault. -/
def message : FileFault → String
  | .system code reason => s!"{reason} (os error {code})"
  | .notText => "stream did not contain valid UTF-8"

end FileFault

/-- A monad in which files can be read and written. -/
class FileSystem (m : Type → Type) where
  /-- The text of a file. -/
  read (path : String) : m (Except FileFault String)
  /-- Let a file hold this text and nothing else. -/
  write (path text : String) : m (Except FileFault Unit)

end Ranging.CommandLine
