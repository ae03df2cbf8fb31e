import Wiring.Config.Basic
import Wiring.Data.Document
import Wiring.Environment
import Wiring.Files.Basic

/-!
# Loading configurations

The configuration is read from the file that the command line names, else from the one that the
environment names, else from `provgen.toml` in the working directory if there is such a file.
-/

namespace Wiring.Config

/-- The environment variable that may name a configuration file. -/
def pathVariable : String := "PROVGEN_CONFIG"

/-- The configuration file that is read if none is named. -/
def localPath : String := "provgen.toml"

/-- The configuration in the file at a path. -/
def read (files : Files) (path : String) : Except Failure Config := do
  let text ← (files.readText path).mapError fun cause =>
    Failure.within ⟨[], cause⟩ ("Failed to read config file: " ++ path)
  let config ← (decoder.readDocument text).mapError fun e =>
    Failure.within ⟨[], .document e.message⟩ ("Failed to parse config file: " ++ path)
  config.check.mapError Failure.ofError
  return config

/-- The path that is named, by the command line or by the environment. -/
def namedPath? (environment : Environment) (explicit : Option String) : Option String :=
  explicit.or ((environment.lookup pathVariable).filter (!·.isEmpty))

/-- The configuration that applies. -/
def load (files : Files) (environment : Environment) (explicit : Option String) :
    Except Failure Config :=
  match namedPath? environment explicit with
  | some path => read files path
  | none => if (files localPath).isFile then read files localPath else .ok {}

end Wiring.Config
