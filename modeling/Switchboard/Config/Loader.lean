import Switchboard.Config.Apis
import Switchboard.Config.Format
import Switchboard.Json.Parser
import Switchboard.Toml.Parser

/-!
# Switchboard.Config.Loader

From the text of a configuration to the APIs that it describes.
-/

namespace Switchboard

/-- The value that a configuration text describes. -/
def FileFormat.parse (format : FileFormat) (text : String) : Except ConfigError Json :=
  match format with
  | .json => match Json.ofText? text with
    | some j => .ok j
    | none => .error (.parse .json)
  | .toml => match Toml.ofText? text with
    | some j => .ok j
    | none => .error (.parse .toml)

namespace Apis

/-- The APIs that a configuration text describes. -/
def ofText (format : FileFormat) (text : String) : Except ConfigError Apis := do
  ofJson (← format.parse text)

/-- The APIs that the file at a path describes; `content` is what it holds, if there
is one.  The name of the file is looked at before the file is. -/
def load (path : String) (content : Option Bytes) : Except ConfigError Apis := do
  let format ← FileFormat.ofPath path
  match FilePath.fault? path, content with
  | some fault, _ => .error (.load fault)
  | none, none => .error (.load .noFile)
  | none, some bytes => match Text.decode bytes with
    | .ok text => ofText format text
    | .error _ => .error (.load .notText)

end Apis
end Switchboard
