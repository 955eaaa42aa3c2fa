import AsyncMarkers.CommandLine

/-!
# The program

The file operations of the machine, and the command line on top of them.
-/

namespace AsyncMarkers

/-- The cause of a failure that the machine reports. -/
def IoError.ofReport : IO.Error → IoError
  | .noFileOrDirectory .. | .noSuchThing .. => .notFound
  | .alreadyExists .. => .alreadyExists
  | .inappropriateType .. => .notDirectory
  | e => .other (toString e)

/-- Runs a file operation of the machine. -/
def attempt (operation : IO α) : IO (Except IoError α) :=
  try return .ok (← operation)
  catch e => return .error (.ofReport e)

/-- The file operations of the machine. -/
def machine : FileSystem IO where
  isDirectory p := (System.mkFilePath [p.text]).isDir
  isPresent p := (System.mkFilePath [p.text]).pathExists
  read p := do
    if ← (System.mkFilePath [p.text]).isDir then return .error .isDirectory
    else attempt (IO.FS.readBinFile p.text)
  write p content := do
    if ← (System.mkFilePath [p.text]).isDir then return .error .isDirectory
    else attempt (IO.FS.writeBinFile p.text content)
  makeDirectory p := attempt (IO.FS.createDir p.text)
  list p := attempt do
    return (← (System.mkFilePath [p.text]).readDir).toList.map (·.fileName)

end AsyncMarkers

open AsyncMarkers

/-- Does what the command line asks for, and writes what there is to write. -/
def main (args : List String) : IO UInt32 := do
  let outcome ← CommandLine.run machine args
  (outcome.log ++ outcome.output).forM fun line => IO.println line
  outcome.errors.forM fun line => IO.eprintln line
  return outcome.code.toUInt32
