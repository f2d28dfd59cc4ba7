/-!
# Host.FileError — why a file was not read
-/

namespace ProfileAdmin.Host

/-- Why a file was not read. -/
inductive FileError where
  | absent
  | directory
  /-- The bytes are no text, where a text was wanted. -/
  | notText
  /-- Anything else, in the words of the system. -/
  | other (text : String)
  deriving DecidableEq, Repr

/-- The wording of an error. -/
def FileError.message : FileError → String
  | .absent => "No such file or directory (os error 2)"
  | .directory => "Is a directory (os error 21)"
  | .notText => "stream did not contain valid UTF-8"
  | .other text => text

end ProfileAdmin.Host
