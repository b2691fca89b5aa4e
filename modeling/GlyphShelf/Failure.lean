import GlyphShelf.Bytes
import GlyphShelf.Key
import GlyphShelf.Numeral
import GlyphShelf.SystemError

/-!
# Failures

Every way in which a storage, ring or shelf operation can fail, kept as causes; the
wording is in the `text` functions alone. Two device faults are causes of their own,
a missing record and a full device, because callers act on them.
-/

namespace GlyphShelf

inductive DeviceFault
  /-- A failure that was armed beforehand. -/
  | injected
  /-- A write through a record opened for reading. -/
  | readOnly
  /-- A record name with a zero character in it. -/
  | zeroInName
  /-- An error of the operating system. -/
  | system (error : SystemError)
  /-- A report in words. -/
  | report (words : String)
deriving DecidableEq

/-- How callers tell device faults apart. -/
inductive DeviceFault.Kind
  | absent
  | full
  | other
deriving DecidableEq

namespace DeviceFault

def text : DeviceFault → String
  | injected => "injected fault"
  | readOnly => "record opened read-only"
  | zeroInName => "file name contained an unexpected NUL byte"
  | system error => error.text ++ " (os error " ++ toString error.code ++ ")"
  | report words => words

/-- Only the operating system says that a record is absent or a device full. -/
def kind : DeviceFault → Kind
  | system error =>
    if error = .noSuchRecord then .absent else if error = .noSpaceLeft then .full else .other
  | _ => .other

end DeviceFault

/-- The step of a byte scanner that did not match. -/
inductive ScanStep
  | tag
  | digit
  | endOfInput
  | conversion
deriving DecidableEq

inductive ScanProblem
  /-- Another alternative may still match. -/
  | mismatch (input : Bytes) (step : ScanStep)
  /-- No alternative is tried any more. -/
  | fatal (input : Bytes) (step : ScanStep)
  /-- More input is needed, if known how much. -/
  | incomplete (needed : Option Nat)
deriving DecidableEq

namespace ScanProblem

private def stepText : ScanStep → String
  | .tag => "Tag"
  | .digit => "Digit"
  | .endOfInput => "Eof"
  | .conversion => "MapRes"

private def bytesText (input : Bytes) : String :=
  "[" ++ ", ".intercalate (input.map fun byte => toString byte.toNat) ++ "]"

private def place (input : Bytes) (step : ScanStep) : String :=
  "(Error \x7b input: " ++ bytesText input ++ ", code: " ++ stepText step ++ " \x7d)"

/-- The wording of a problem. How much is needed is known only if it is not zero. -/
def text : ScanProblem → String
  | mismatch input step => "Error" ++ place input step
  | fatal input step => "Failure" ++ place input step
  | incomplete none => "Incomplete(Unknown)"
  | incomplete (some 0) => "Incomplete(Unknown)"
  | incomplete (some needed) => "Incomplete(Size(" ++ toString needed ++ "))"

end ScanProblem

/-- What is wrong with the contents of a record or with the ring. -/
inductive Damage
  /-- Fewer bytes than a link needs. -/
  | shortLink (size : Nat)
  /-- The record ended before the bytes asked for. -/
  | endOfRecord (filled wanted : Nat)
  /-- A link that another link refers to is not there. -/
  | missingLink (key : Key)
  /-- Following the ring does not lead from one anchor to the other. -/
  | unclosedRing (start goal : Key)
  /-- The tail anchor names an anchor as the least recent key. -/
  | lastIsAnchor (key : Key)
  /-- A scanner could not read the contents. -/
  | unreadable (problem : ScanProblem)
  /-- A description in words. -/
  | report (words : String)
deriving DecidableEq

def Damage.text : Damage → String
  | shortLink size => "link record too short: " ++ toString size ++ " bytes"
  | endOfRecord filled wanted =>
    "unexpected end of record after " ++ toString filled ++ " of " ++ toString wanted ++ " bytes"
  | missingLink key => "link record for " ++ key.text ++ " is missing"
  | unclosedRing start goal => "ring from " ++ start.text ++ " does not reach " ++ goal.text
  | lastIsAnchor key => "TAIL.prev points at " ++ key.text
  | unreadable problem => problem.text
  | report words => words

/-- The greatest number of glyphs that 16-bit keys can tell apart, the anchors excluded. -/
def maxCapacity : Nat := 65534

inductive SettingsProblem
  /-- A shelf for no glyph at all. -/
  | noRoom
  /-- More glyphs than keys. -/
  | beyondKeys (capacity : Nat)
  /-- A description in words. -/
  | report (words : String)
deriving DecidableEq

def SettingsProblem.text : SettingsProblem → String
  | noRoom => "capacity must be at least 1"
  | beyondKeys capacity =>
    "capacity " ++ toString capacity ++ " exceeds the key space (" ++ toString maxCapacity ++ ")"
  | report words => words

inductive Failure
  /-- The device refused. -/
  | device (fault : DeviceFault)
  /-- There is no such record. -/
  | notFound
  /-- The device is full. -/
  | outOfSpace
  /-- A record or the ring cannot be made sense of. -/
  | corrupt (damage : Damage)
  /-- An anchor was given where a glyph is needed. -/
  | reservedKey (key : Key)
  /-- The key is in the ring already. -/
  | alreadyLinked (key : Key)
  /-- There is no key to evict. -/
  | nothingToEvict
  /-- The settings admit no shelf. -/
  | invalidSettings (problem : SettingsProblem)
  /-- The program stops where it is; nothing can be reported. -/
  | halted
deriving DecidableEq

namespace Failure

/-- The wording of a failure. Anchors are shown by their hexadecimal number. -/
def text : Failure → String
  | device fault => "I/O error: " ++ fault.text
  | notFound => "Record not found"
  | outOfSpace => "Storage out of space"
  | corrupt damage => "Corrupt record: " ++ damage.text
  | reservedKey key => "Key 0x" ++ Numeral.hex 4 key.number ++ " is a reserved sentinel"
  | alreadyLinked key => "Key " ++ toString key.number ++ " is already in the recency ring"
  | nothingToEvict => "Eviction requested from an empty ring"
  | invalidSettings problem => "Invalid configuration: " ++ problem.text
  | halted => "Program halted"

/-- The failure that a device fault of the given kind amounts to. -/
def ofFault (kind : DeviceFault.Kind) (fault : DeviceFault) : Failure :=
  match kind with
  | .absent => notFound
  | .full => outOfSpace
  | .other => device fault

/-- The failure that an error of the operating system amounts to. -/
def ofSystem (error : SystemError) : Failure :=
  ofFault (DeviceFault.system error).kind (.system error)

/-- What the device said, if the failure is the device's. -/
def cause? : Failure → Option String
  | device fault => some fault.text
  | _ => none

end Failure

/-- Keys of glyphs pass; anchors are refused. -/
def Key.requireGlyph (key : Key) : Except Failure Unit :=
  if key.IsAnchor then .error (.reservedKey key) else .ok ()

end GlyphShelf
