import GlyphShelf.Numeral

/-!
# Options

The command line of the service. Settings take a value, attached (`--bind=x`, `-bx`, `-b=x`)
or as the next argument; switches take none. Arguments are read from left to right, and the
first problem is the one reported.

A value in an argument of its own is looked at only when the next known option, or the
end, shows that the setting is complete; an unknown argument before that is the first
problem.
-/

namespace GlyphShelf

structure Options where
  /-- The address to listen on. -/
  bind : String := "127.0.0.1:7420"
  /-- The directory of the records. -/
  data : String := "./remote_fonts"
  capacity : Nat := 250
  /-- Whether the glyphs of an earlier run are kept. -/
  warm : Bool := false
  /-- Whether a running service is asked for its health, instead of starting one. -/
  health : Bool := false
deriving DecidableEq

namespace Options

inductive Problem
  /-- An argument that is no option, nor the value of one. -/
  | unknown
  /-- A setting without its value. -/
  | missingValue
  /-- A capacity that is no number, or too large for 64 bits. -/
  | badValue
  /-- An option given twice. -/
  | givenTwice
  /-- A switch with a value. -/
  | needlessValue
  /-- The help text was asked for. -/
  | help
  /-- The version was asked for. -/
  | version
deriving DecidableEq

/-- Options with a value. -/
inductive Setting
  | bind
  | data
  | capacity
deriving DecidableEq

/-- Options without a value. -/
inductive Switch
  | warm
  | health
  | help
  | version
deriving DecidableEq

inductive Name
  | setting (setting : Setting)
  | switch (switch : Switch)
deriving DecidableEq

def Name.ofLong? : String → Option Name
  | "bind" => some (.setting .bind)
  | "data" => some (.setting .data)
  | "capacity" => some (.setting .capacity)
  | "warm" => some (.switch .warm)
  | "health" => some (.switch .health)
  | "help" => some (.switch .help)
  | "version" => some (.switch .version)
  | _ => none

def Name.ofShort? : Char → Option Name
  | 'b' => some (.setting .bind)
  | 'd' => some (.setting .data)
  | 'c' => some (.setting .capacity)
  | 'h' => some (.switch .help)
  | 'V' => some (.switch .version)
  | _ => none

inductive Form
  /-- Two dashes alone: no options follow. -/
  | stop
  /-- Two dashes and a name, with a value if there is an equals sign. -/
  | long (name : String) (value : Option String)
  /-- A dash and a letter, with all that follows. -/
  | short (letter : Char) (rest : List Char)
  /-- Anything else, a dash alone included. -/
  | plain
deriving DecidableEq

def Form.ofText (argument : String) : Form :=
  match argument.toList with
  | ['-', '-'] => .stop
  | '-' :: '-' :: rest =>
    let name := rest.takeWhile (· ≠ '=')
    match rest.dropWhile (· ≠ '=') with
    | [] => .long (.ofList name) none
    | _ :: value => .long (.ofList name) (some (.ofList value))
  | '-' :: letter :: rest => .short letter rest
  | _ => .plain

/-- A capacity: ASCII digits with an optional plus sign, of a value that 64 bits hold. -/
def readCapacity? (text : String) : Option Nat :=
  let digits :=
    match text.toList with
    | '+' :: digits => digits
    | digits => digits
  Numeral.ofDigitsBelow? UInt64.size digits

structure Reading where
  bind : Option String := none
  data : Option String := none
  capacity : Option Nat := none
  warm : Bool := false
  health : Bool := false
  /-- A setting given last, and its value if that has come. -/
  waiting : Option (Setting × Option String) := none
deriving DecidableEq

namespace Reading

def store (reading : Reading) (setting : Setting) (value : String) : Except Problem Reading :=
  match setting with
  | .bind =>
    if reading.bind.isSome then .error .givenTwice else .ok { reading with bind := some value }
  | .data =>
    if reading.data.isSome then .error .givenTwice else .ok { reading with data := some value }
  | .capacity =>
    if reading.capacity.isSome then .error .givenTwice
    else
      match readCapacity? value with
      | some capacity => .ok { reading with capacity := some capacity }
      | none => .error .badValue

/-- Completes the setting that is waiting. -/
def settle (reading : Reading) : Except Problem Reading :=
  match reading.waiting with
  | none => .ok reading
  | some (_, none) => .error .missingValue
  | some (setting, some value) => { reading with waiting := none }.store setting value

def turnOn (reading : Reading) : Switch → Except Problem Reading
  | .warm => if reading.warm then .error .givenTwice else .ok { reading with warm := true }
  | .health => if reading.health then .error .givenTwice else .ok { reading with health := true }
  | .help => .error .help
  | .version => .error .version

def addOption (reading : Reading) (name : Name) (value : Option String) :
    Except Problem Reading :=
  match name, value with
  | .switch _, some _ => .error .needlessValue
  | .switch switch, none => do (← reading.settle).turnOn switch
  | .setting setting, some value => do (← reading.settle).store setting value
  | .setting setting, none => do
    return { ← reading.settle with waiting := some (setting, none) }

/-- Takes in what follows a dash. A letter that is a switch has no value: what comes after it
is never looked at, because help and version end the reading. -/
def addShort (reading : Reading) (letter : Char) (rest : List Char) : Except Problem Reading :=
  match Name.ofShort? letter, rest with
  | none, _ => .error .unknown
  | some (.switch switch), _ => reading.addOption (.switch switch) none
  | some name, [] => reading.addOption name none
  | some name, '=' :: value => reading.addOption name (some (.ofList value))
  | some name, value => reading.addOption name (some (.ofList value))

def addPlain (reading : Reading) (argument : String) : Except Problem Reading :=
  match reading.waiting with
  | some (setting, none) => .ok { reading with waiting := some (setting, some argument) }
  | _ => .error .unknown

def addAll (reading : Reading) : List String → Except Problem Reading
  | [] => reading.settle
  | argument :: arguments =>
    match Form.ofText argument with
    | .stop => if arguments.isEmpty then reading.settle else .error .unknown
    | .long name value =>
      match Name.ofLong? name with
      | none => .error .unknown
      | some name => do (← reading.addOption name value).addAll arguments
    | .short letter rest => do (← reading.addShort letter rest).addAll arguments
    | .plain => do (← reading.addPlain argument).addAll arguments

/-- The options, defaults for whatever was not given. -/
def options (reading : Reading) : Options :=
  let default : Options := {}
  { bind := reading.bind.getD default.bind
    data := reading.data.getD default.data
    capacity := reading.capacity.getD default.capacity
    warm := reading.warm
    health := reading.health }

end Reading

/-- Reads a command line, the name of the program left out. -/
def ofArguments (arguments : List String) : Except Problem Options := do
  return (← Reading.addAll {} arguments).options

end Options

end GlyphShelf
