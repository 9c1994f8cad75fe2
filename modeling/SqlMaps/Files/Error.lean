/-! Why a file cannot be read, written or moved. -/
namespace SqlMaps

/-- What stands in the way of a file operation. -/
inductive FileError where
  | missing
  | directory
  | notDirectory
  /-- A name, or the whole path, has too many bytes. -/
  | tooLong
  /-- The bytes are no text in UTF-8. -/
  | notText
  deriving DecidableEq

/-- The wording of an error. -/
def FileError.message : FileError → String
  | .missing => "No such file or directory (os error 2)"
  | .directory => "Is a directory (os error 21)"
  | .notDirectory => "Not a directory (os error 20)"
  | .tooLong => "File name too long (os error 36)"
  | .notText => "stream did not contain valid UTF-8"

end SqlMaps
