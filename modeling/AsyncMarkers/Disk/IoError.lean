/-!
# Failures of file operations
-/

namespace AsyncMarkers

/-- Why a file operation has failed. -/
inductive IoError where
  | notFound
  | alreadyExists
  | notDirectory
  | isDirectory
  | nameTooLong
  /-- A path with a zero character can not be followed. -/
  | zeroInPath
  /-- What was read is not text. -/
  | notText
  /-- What was to be copied is not a file. -/
  | notFile
  /-- A path has no parent that could be made. -/
  | noParent
  | other (message : String)
deriving DecidableEq

/-- The text of the error. -/
def IoError.message : IoError → String
  | .notFound => "No such file or directory (os error 2)"
  | .alreadyExists => "File exists (os error 17)"
  | .notDirectory => "Not a directory (os error 20)"
  | .isDirectory => "Is a directory (os error 21)"
  | .nameTooLong => "File name too long (os error 36)"
  | .zeroInPath => "file name contained an unexpected NUL byte"
  | .notText => "stream did not contain valid UTF-8"
  | .notFile => "the source path is neither a regular file nor a symlink to a regular file"
  | .noParent => "failed to create whole tree"
  | .other message => message

end AsyncMarkers
