import ConstantReply.CommandLine.Help
import ConstantReply.Log.Filter
import ConstantReply.Log.Line
import ConstantReply.Settings

/-!
# The log of a run

Which events a run writes, and how, is settled once, by its settings and the variables around it.
-/

namespace ConstantReply
namespace Log

/-- How the events of a run are written. -/
structure Journal where
  filter : Filter
  format : LogFormat
  colours : Bool
  deriving DecidableEq, Repr

namespace Journal

def create (environment : CommandLine.Environment) (settings : Settings) : Journal where
  filter := Filter.choose (environment "RUST_LOG") settings.logLevel
  format := settings.logFormat
  colours := ((environment "NO_COLOR").map List.isEmpty).getD true

def line? (j : Journal) (time : String) (event : Event) : Option String :=
  if j.filter.allows event then some (event.line j.format j.colours time ++ "\n") else none

def text (j : Journal) (time : String) (events : List Event) : String :=
  String.join (events.filterMap (j.line? time))

end Journal
end Log
end ConstantReply
