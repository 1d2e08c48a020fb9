import Chip8.Frontend.Session
import Chip8.Text.Integer

/-! Command line options. An option may be cut short as long as it stays the only
one of that beginning, and may carry its value behind an equals sign, where two
dashes stand for no value. What looks like a negative number or holds a blank is
not an option; after two dashes nothing is. Faults are reported in the order in
which the arguments are taken. -/

namespace Chip8.CommandLine

inductive Opt
  | help
  | mode
  | scale
  | palette
  | cyclesPerSecond
  | advance
  | disassemble
deriving DecidableEq, Repr

namespace Opt

def all : List Opt := [help, mode, scale, palette, cyclesPerSecond, advance, disassemble]

def longName : Opt → String
  | help => "--help"
  | mode => "--mode"
  | scale => "--scale"
  | palette => "--palette"
  | cyclesPerSecond => "--cycles-per-second"
  | advance => "--load-store-quirk"
  | disassemble => "--disassemble"

def names : Opt → List String
  | help => ["-h", "--help"]
  | o => [o.longName]

def takesValue : Opt → Bool
  | mode | scale | palette | cyclesPerSecond => true
  | _ => false

def ofName? (s : String) : Option Opt := all.find? (s ∈ ·.names)

end Opt

inductive Mode
  | window
  | terminal
deriving DecidableEq, Repr

def Mode.named : List (String × Mode) := [("window", .window), ("terminal", .terminal)]

def paletteNamed : List (String × Palette) := [("mono", .monochrome), ("phosphor", .phosphor)]

inductive UsageError
  | expectedValue (o : Opt)
  | badInteger (o : Opt) (value : String)
  | badChoice (o : Opt) (value : String) (choices : List String)
  | unexpectedValue (o : Opt) (value : String)
  | ambiguous (given : String) (candidates : List Opt)
  | romRequired
  | unrecognized (arguments : List String)
  | romNotFound (path : RomPath)
  | badScale
  | badCycles
deriving DecidableEq

namespace UsageError

/-- A fault of one option's value. -/
def ofOption (o : Opt) (text : String) : String :=
  "argument " ++ "/".intercalate o.names ++ ": " ++ text

def message : UsageError → String
  | expectedValue o => ofOption o "expected one argument"
  | badInteger o value => ofOption o ("invalid int value: " ++ Text.quoted value)
  | badChoice o value choices =>
    ofOption o ("invalid choice: " ++ Text.quoted value ++ " (choose from "
      ++ ", ".intercalate (choices.map Text.quoted) ++ ")")
  | unexpectedValue o value => ofOption o ("ignored explicit argument " ++ Text.quoted value)
  | ambiguous given candidates =>
    "ambiguous option: " ++ given ++ " could match "
      ++ ", ".intercalate (candidates.map Opt.longName)
  | romRequired => "the following arguments are required: rom"
  | unrecognized arguments => "unrecognized arguments: " ++ " ".intercalate arguments
  | romNotFound path => "ROM file not found: " ++ path.text
  | badScale => "--scale must be positive"
  | badCycles => "--cycles-per-second must be positive"

end UsageError

/-- What an argument is taken for. -/
inductive Token
  | plain (s : String)
  | option (o : Opt) (value : Option String)
  /-- Short help with more behind it. -/
  | helpCluster (rest : List Char)
  | unknown (s : String)
  /-- Two dashes: the end of the options. -/
  | separator
deriving DecidableEq

/-- A sign, digits and perhaps a point with digits behind it; a line feed may end it. -/
def looksNegative : List Char → Bool
  | '-' :: cs =>
    let (whole, rest) := cs.span Text.isDecimalDigit
    let atEnd (l : List Char) := l = [] ∨ l = ['\n']
    match rest with
    | '.' :: rest =>
      let (places, rest) := rest.span Text.isDecimalDigit
      !places.isEmpty && atEnd rest
    | _ => !whole.isEmpty && atEnd rest
  | _ => false

/-- The text up to the first equals sign, and what stands behind it if there is one. -/
def splitValue (s : String) : String × Option String :=
  let (name, rest) := s.toList.span (· ≠ '=')
  (String.ofList name, rest.tail?.map String.ofList)

/-- What is left when no option fits. -/
def unmatched (s : String) : Token :=
  if looksNegative s.toList || ' ' ∈ s.toList then .plain s else .unknown s

def classify (s : String) : Except UsageError Token :=
  match s.toList with
  | '-' :: 'h' :: '=' :: c :: more => .ok (.helpCluster (c :: more))
  | '-' :: second :: more =>
    let (name, value) := splitValue s
    match Opt.ofName? s with
    | some o => .ok (.option o none)
    | none => match Opt.ofName? name with
      | some o => .ok (.option o value)
      | none =>
        if second = '-' then
          match Opt.all.filter fun o => name.toList.isPrefixOf o.longName.toList with
          | [] => .ok (unmatched s)
          | [o] => .ok (.option o value)
          | os => .error (.ambiguous s os)
        else if second = 'h' then .ok (.helpCluster more)
        else .ok (unmatched s)
  | _ => .ok (.plain s)

/-- Everything behind two dashes is plain. -/
def classifyAll : List String → Except UsageError (List Token)
  | [] => .ok []
  | s :: ss =>
    if s = "--" then .ok (.separator :: ss.map .plain)
    else do return (← classify s) :: (← classifyAll ss)

/-- What was asked for. Options that were given without a value are none. -/
structure Options where
  rom : Option RomPath := none
  mode : Mode := .window
  scale : Option Int := some 10
  palette : Option Palette := some .monochrome
  cyclesPerSecond : Option Int := some Pacer.defaultCyclesPerSecond
  advances : Bool := false
  disassemble : Bool := false
  extras : List String := []

/-- Why a command stops before it has begun. -/
inductive Halt
  | usage (e : UsageError)
  | help
  | failed (e : SessionError)
deriving DecidableEq

namespace Options

def choose {α : Type} (o : Opt) (value : String) (choices : List (String × α)) : Except Halt α :=
  match choices.lookup value with
  | some a => .ok a
  | none => .error (.usage (.badChoice o value (choices.map Prod.fst)))

def readInteger (o : Opt) (value : String) : Except Halt Int :=
  match Text.integerOf? value with
  | some v => .ok v
  | none => .error (.usage (.badInteger o value))

/-- Takes an option with its value; options without a value ignore it. -/
def take (r : Options) (o : Opt) (value : String) : Except Halt Options :=
  match o with
  | .help => .error .help
  | .mode => return { r with mode := ← choose o value Mode.named }
  | .scale => return { r with scale := some (← readInteger o value) }
  | .palette => return { r with palette := some (← choose o value paletteNamed) }
  | .cyclesPerSecond => return { r with cyclesPerSecond := some (← readInteger o value) }
  | .advance => .ok { r with advances := true }
  | .disassemble => .ok { r with disassemble := true }

/-- Takes an option without the value that it should have. Only the mode can do
without: it is the window then. -/
def takeEmpty (r : Options) : Opt → Options
  | .mode => { r with mode := .window }
  | .scale => { r with scale := none }
  | .palette => { r with palette := none }
  | .cyclesPerSecond => { r with cyclesPerSecond := none }
  | .help | .advance | .disassemble => r

/-- What stands behind a short help option: more of the same, or a value that has
no business there. -/
def helpRest : List Char → Halt
  | [] => .help
  | 'h' :: rest => helpRest rest
  | rest => .usage (.unexpectedValue .help (String.ofList rest))

def addExtra (r : Options) (s : String) : Options := { r with extras := r.extras ++ [s] }

/-- The first plain argument is the program file. -/
def takePlain (r : Options) (s : String) : Options :=
  if r.rom.isNone then { r with rom := some (RomPath.ofText s) } else r.addExtra s

/-- Takes the tokens from the left. Two dashes vanish next to the program file and
are an argument too many elsewhere. -/
def takeAll (r : Options) : List Token → Except Halt Options
  | [] => .ok r
  | .plain s :: .separator :: ts =>
    if r.rom.isNone then takeAll (r.takePlain s) ts else takeAll ((r.addExtra s).addExtra "--") ts
  | .plain s :: ts => takeAll (r.takePlain s) ts
  | .separator :: ts => takeAll (if r.rom.isNone then r else r.addExtra "--") ts
  | .unknown s :: ts => takeAll (r.addExtra s) ts
  | .helpCluster rest :: _ => .error (helpRest rest)
  | .option o (some value) :: ts =>
    if o.takesValue then do
      takeAll (← if value = "--" then pure (r.takeEmpty o) else r.take o value) ts
    else .error (.usage (.unexpectedValue o value))
  | .option o none :: ts =>
    if o.takesValue then
      match ts with
      | .plain value :: ts => do takeAll (← r.take o value) ts
      | _ => .error (.usage (.expectedValue o))
    else do takeAll (← r.take o "") ts

/-- A missing program file is reported before arguments too many. -/
def complete (r : Options) : Except Halt Options :=
  if r.rom.isNone then .error (.usage .romRequired)
  else if r.extras ≠ [] then .error (.usage (.unrecognized r.extras))
  else .ok r

def parse (arguments : List String) : Except Halt Options := do
  let tokens ← (classifyAll arguments).mapError .usage
  ((← takeAll {} tokens).complete)

/-- The value of an option that cannot do without. -/
def required {α : Type} : Option α → Except SessionError α
  | some a => .ok a
  | none => .error .noValue

/-- The settings of the session that the options ask for. -/
def settings (r : Options) : Except SessionError Settings :=
  return { rom := r.rom, scale := ← required r.scale, advances := r.advances,
           cyclesPerSecond := ← required r.cyclesPerSecond,
           colours := (← required r.palette).toColours }

end Options

end Chip8.CommandLine
