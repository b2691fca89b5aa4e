import GlyphShelf.Options
import GlyphShelf.Service.Connection
import GlyphShelf.Service.Site

/-!
# The service

Serves one peer over the standard streams: frames come in on standard input and answers go
out on standard output until the input ends. The records live in a directory held in
memory, so they last as long as the service.
-/

namespace GlyphShelf.Service

/-- What is said about a command line that starts nothing. -/
def problemText : Options.Problem → String
  | .unknown => "unknown argument"
  | .missingValue => "an option lacks its value"
  | .badValue => "the capacity is not a number"
  | .givenTwice => "an option is given twice"
  | .needlessValue => "a switch takes no value"
  | .help => "options: --bind ADDRESS, --data DIRECTORY, --capacity GLYPHS, --warm, --health"
  | .version => "glyph shelf"

/-- The directory and the shelf that the options ask for. -/
def openSite (options : Options) : Except Failure (Directory × Shelf) :=
  match Directory.openShelf options.data ⟨options.capacity, !options.warm⟩ {} with
  | .ok shelf directory => .ok (directory, shelf)
  | .error e _ => .error e

def portionSize : USize := 4096

/-- Answers what comes in until the input ends. -/
partial def serve (input output : IO.FS.Stream) (connection : Connection)
    (site : Directory × Shelf) : IO Unit := do
  let portion ← input.read portionSize
  if portion.isEmpty then return ()
  let (answer, site, connection) := connection.receive portion.data.toList site
  output.write ⟨answer.toArray⟩
  output.flush
  serve input output connection site

end GlyphShelf.Service

open GlyphShelf in
/-- Starts the service. Nothing else listens on its address, so asking for its health fails. -/
def main (arguments : List String) : IO UInt32 := do
  match Options.ofArguments arguments with
  | .error problem =>
    if problem = .help || problem = .version then
      IO.println (Service.problemText problem)
      return 0
    else
      IO.eprintln (Service.problemText problem)
      return 2
  | .ok options =>
    if options.health then
      IO.eprintln "FAILED"
      return 1
    match Service.openSite options with
    | .error e =>
      IO.eprintln e.text
      return 1
    | .ok site =>
      Service.serve (← IO.getStdin) (← IO.getStdout) .fresh site
      return 0
