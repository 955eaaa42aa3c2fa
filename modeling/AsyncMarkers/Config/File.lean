import AsyncMarkers.Config
import AsyncMarkers.Disk.FileSystem

/-!
# Configuration files
-/

namespace AsyncMarkers

/-- Why a configuration could not be loaded. -/
inductive ConfigFileError where
  | unreadable (cause : IoError)
  | undecodable

/-- Loads a configuration from a file that holds it as JSON text. It is not validated. -/
def Config.load {m : Type → Type} [Monad m] (fs : FileSystem m) (p : Path) :
    m (Except ConfigFileError Config) := do
  match ← fs.readText p with
  | .error e => return .error (.unreadable e)
  | .ok text =>
    match Json.decodeText? Config.decode? text with
    | some config => return .ok config
    | none => return .error .undecodable

end AsyncMarkers
