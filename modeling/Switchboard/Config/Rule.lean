import Switchboard.Config.Error
import Switchboard.Text.Blank

/-!
# Switchboard.Config.Rule

The rules for single settings, reported against the API that the setting belongs
to.
-/

namespace Switchboard.Rule

/-- The value is not blank. -/
def notEmpty (api value field : String) : Except ConfigError Unit :=
  if Text.isBlank value then .error (.invalid api (.empty field)) else .ok ()

/-- There is a value, and it is not blank. -/
def required (api : String) (value : Option String) (field : String) : Except ConfigError Unit :=
  match value with
  | some v => notEmpty api v field
  | none => .error (.invalid api (.missing field))

/-- The schemes that an endpoint may have. -/
def schemes : List String := ["http://", "https://", "ws://", "wss://"]

/-- Whether a text starts with the scheme of an endpoint. -/
def hasScheme (value : String) : Bool :=
  schemes.any fun s => s.toList.isPrefixOf value.toList

/-- The value starts with the scheme of an endpoint. -/
def isUrl (api value field : String) : Except ConfigError Unit :=
  if hasScheme value then .ok () else .error (.invalid api (.notUrl field value))

end Switchboard.Rule
