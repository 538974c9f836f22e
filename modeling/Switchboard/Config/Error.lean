/-!
# Switchboard.Config.Error

What can go wrong between a configuration file and a configuration.
-/

namespace Switchboard

/-- Why an entry of the configuration is not acceptable. -/
inductive EntryFault where
  | empty (field : String)
  | missing (field : String)
  | notUrl (field value : String)
  /-- The name belongs to an earlier entry. -/
  | nameTaken
  | other (text : String)
  deriving DecidableEq, Repr

/-- Why no configuration text could be had. -/
inductive LoadFault where
  | noExtension
  | unsupported (extension : String)
  | noFile
  /-- A NUL in a path, where no file name has one. -/
  | nulInPath
  | nameTooLong
  | notText
  | other (text : String)
  deriving DecidableEq, Repr

/-- Why a configuration text says nothing. -/
inductive ParseFault where
  | json
  | toml
  | notAnObject
  | other (text : String)
  deriving DecidableEq, Repr

inductive ConfigError where
  | load (fault : LoadFault)
  | parse (fault : ParseFault)
  | invalid (api : String) (fault : EntryFault)
  /-- An entry that does not decode, in the decoder's words. -/
  | decode (text : String)
  | io (text : String)
  deriving DecidableEq, Repr

def EntryFault.message : EntryFault → String
  | .empty field => s!"{field} cannot be empty"
  | .missing field => s!"{field} is required"
  | .notUrl field value => s!"{field} must be a valid URL, got '{value}'"
  | .nameTaken => "API name is configured twice"
  | .other text => text

def LoadFault.message : LoadFault → String
  | .noExtension => "No file extension found"
  | .unsupported extension => s!"Unsupported format: {extension}"
  | .noFile => "Failed to read file: No such file or directory (os error 2)"
  | .nulInPath => "Failed to read file: file name contained an unexpected NUL byte"
  | .nameTooLong => "Failed to read file: File name too long (os error 36)"
  | .notText => "Failed to read file: stream did not contain valid UTF-8"
  | .other text => text

def ParseFault.message : ParseFault → String
  | .json => "JSON parse error: "
  | .toml => "TOML parse error: "
  | .notAnObject => "API configuration must be an object keyed by API name"
  | .other text => text

/-- The name of the kind of an error. -/
def ConfigError.kind : ConfigError → String
  | .load _ => "LoadError"
  | .parse _ => "ParseError"
  | .invalid _ _ => "ValidationError"
  | .decode _ => "DeserializationError"
  | .io _ => "IoError"

def ConfigError.message : ConfigError → String
  | .load fault => "Failed to load configuration: " ++ fault.message
  | .parse fault => "Failed to parse configuration: " ++ fault.message
  | .invalid api fault => s!"Invalid configuration for API '{api}': {fault.message}"
  | .decode text => "Deserialization error: " ++ text
  | .io text => "IO error: " ++ text

end Switchboard
