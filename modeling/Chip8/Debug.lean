import Chip8.Text.Blank
import Chip8.Text.Lowercase
import Chip8.Text.Percent

/-! Debug lines. A line belongs to a category and is printed while the category
is on. The categories come from a setting that is read at the first question
and then kept until they are forgotten. -/

namespace Chip8.Debug

/-- The categories that are on; `all` turns on every one. -/
structure Categories where
  names : List String
deriving DecidableEq

namespace Categories

def none : Categories := ⟨[]⟩

/-- Parts between commas, stripped and in lower case; empty parts do not count. -/
def ofSetting (value : Option String) : Categories :=
  match value with
  | .none => none
  | some s =>
    ⟨(((s.splitOn ",").map fun part => Text.lowercase (Text.strip part)).filter (· ≠ ""))⟩

/-- Without a category the question is whether any is on. -/
def enabled (c : Categories) (category : Option String) : Bool :=
  if c.names.isEmpty then false
  else if "all" ∈ c.names then true
  else match category with
    | .none => true
    | some s => Text.lowercase s ∈ c.names

/-- The printed record; the category stands as it was given. -/
def record (category message : String) : String := "[CHIP8][" ++ category ++ "] " ++ message

/-- What logging one message prints. -/
def log (c : Categories) (category message : String) : List String :=
  if c.enabled (some category) then [record category message] else []

end Categories

/-- Fills the message when there are arguments; when they do not fit, the
message stands as it is, followed by the arguments. -/
def compose (room : Room) (message : String) (args : List Text.Arg) : Except LimitError String :=
  if args.isEmpty then .ok message
  else match Text.fill room message args with
    | .ok s => .ok s
    | .error .mismatch => .ok (message ++ " " ++ Text.Arg.tuple args)
    | .error (.limit e) => .error e

inductive SettingError
  | nullCharacter
deriving DecidableEq

/-- A value for the setting. It is kept in the environment, where a null character
would end the text. -/
def checked (value : Option String) : Except SettingError (Option String) :=
  if value.any ('\x00' ∈ ·.toList) then .error .nullCharacter else .ok value

/-- The setting and what was read from it. -/
structure Switch where
  setting : Option String := .none
  cached : Option Categories := .none
deriving DecidableEq

namespace Switch

def set (s : Switch) (value : Option String) : Switch := { s with setting := value }

def reload (s : Switch) : Switch := { s with cached := .none }

def categories (s : Switch) : Categories := s.cached.getD (Categories.ofSetting s.setting)

/-- Reads the setting unless that was done since the last reload. -/
def load (s : Switch) : Switch := { s with cached := some s.categories }

def enabled (s : Switch) (category : Option String) : Bool × Switch :=
  (s.categories.enabled category, s.load)

/-- What logging a message prints; a message of a category that is off is not
even put together. -/
def log (room : Room) (category message : String) (args : List Text.Arg) :
    EStateM LimitError Switch (List String) := fun s =>
  if s.categories.enabled (some category) then
    match compose room message args with
    | .ok text => .ok [Categories.record category text] s.load
    | .error e => .error e s.load
  else .ok [] s.load

end Switch

end Chip8.Debug
