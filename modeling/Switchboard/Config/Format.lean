import Switchboard.Config.Error

/-!
# Switchboard.Config.Format

Which format a configuration file has.  The extension of its name tells, in any
letter case.

* `FilePath.extension?` — the extension of a file name;
* `FilePath.fault?` — why no file can be at a path;
* `FileFormat.ofPath` — the format of the file at a path.
-/

namespace Switchboard

inductive FileFormat where
  | json
  | toml
  deriving DecidableEq, Repr

namespace FilePath

/-- The parts of a path between slashes that name something. -/
def components (path : String) : List String :=
  ((path.toList.splitOn '/').map String.ofList).filter fun c => c ≠ "" ∧ c ≠ "."

/-- The last name of a path, unless it ends by going up. -/
def fileName? (path : String) : Option String :=
  match (components path).getLast? with
  | some ".." => none
  | name => name

/-- What follows the last point of a file name, unless that point is its start. -/
def extension? (path : String) : Option String := do
  let name ← fileName? path
  let backwards := name.toList.reverse
  let tail := backwards.takeWhile (· ≠ '.')
  match backwards.dropWhile (· ≠ '.') with
  | _ :: _ :: _ => some (String.ofList tail.reverse)
  | _ => none

/-- How many bytes a name may have. -/
def maxName : Nat := 255

/-- How many bytes a path may have. -/
def maxPath : Nat := 4095

/-- Why no file can be at a path.  Of its names the first one counts that goes down:
what stands after it is looked up only where that one is a directory. -/
def fault? (path : String) : Option LoadFault :=
  if path.toList.any (·.toNat = 0) then some .nulInPath
  else
    let downwards := (components path).dropWhile (· = "..")
    if maxPath < path.utf8ByteSize ∨ downwards.head?.any (maxName < ·.utf8ByteSize) then
      some .nameTooLong
    else none

end FilePath

namespace FileFormat

/-- The format that an extension stands for.  Lower case is taken of ASCII
letters only: no other character has a letter of the two names as its lower case. -/
def ofExtension? (extension : String) : Option FileFormat :=
  match String.ofList (extension.toList.map Char.toLower) with
  | "json" => some .json
  | "toml" => some .toml
  | _ => none

/-- The format of the file at a path. -/
def ofPath (path : String) : Except ConfigError FileFormat :=
  match FilePath.extension? path with
  | none => .error (.load .noExtension)
  | some e => match ofExtension? e with
    | some f => .ok f
    | none => .error (.load (.unsupported e))

end FileFormat
end Switchboard
