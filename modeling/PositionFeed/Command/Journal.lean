import PositionFeed.Command.Invocation
import PositionFeed.Json.Writer
import PositionFeed.Telemetry.Notice

namespace PositionFeed

/-!
# The journal

While a pipeline runs, its notices appear on standard output as lines of a
journal.  A quiet program shows warnings only.
-/

namespace Journal

def tree (notice : Notice) : Json.Tree :=
  .object ([
    ("level", .text notice.severity.name),
    ("message", .text notice.message)] ++
    notice.counts.map fun count => (count.1, .integer count.2))

/-- A notice for a person to read. -/
def plainLine (notice : Notice) : String :=
  " ".intercalate (notice.severity.name :: notice.message ::
    notice.counts.map fun count => count.1 ++ "=" ++ toString count.2)

def line (format : LogFormat) (notice : Notice) : String :=
  match format with
  | .json => (tree notice).toCompact
  | .pretty => plainLine notice
  | .compact => plainLine notice

def shows (quiet : Bool) (notice : Notice) : Bool :=
  ! quiet || notice.severity == .warning

/-- The lines of what is to be seen. -/
def lines (quiet : Bool) (format : LogFormat) (events : List Event) :
    List String :=
  ((notices events).filter (shows quiet)).map (line format)

end Journal

end PositionFeed
