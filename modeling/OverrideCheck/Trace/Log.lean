import OverrideCheck.Trace.Account

/-!
# Logs

A run keeps a log if its surroundings ask for one, by variables that hold a filter and a format.

* `Log`, `Log.ofVariables?` — how a log is kept;
* `Log.entries` — the events that go into it.
-/

namespace OverrideCheck

/-- How a log is kept. -/
structure Log where
  filter : LogFilter
  format : LogFormat

namespace Log

/-- The variables that may hold the filter. The first one that is set counts. -/
def filterVariables : List String := ["REBINDC_LOG", "RUST_LOG"]

/-- The variable that may hold the format. -/
def formatVariable : String := "REBINDC_LOG_FORMAT"

/-- How the values of the surrounding variables ask a log to be kept; `none` if they ask for
none. -/
def ofVariables? (valueOf : String → Option String) : Option Log :=
  (filterVariables.findSome? valueOf).map fun filter =>
    ⟨.parse filter, .parse ((valueOf formatVariable).getD "")⟩

/-- The events that go into a log. The validation of a unit is told with them if the filter lets
that through as well. -/
def entries (log : Log) (events : List Event) : List Event :=
  (events.filter fun e => log.filter.allows e.target e.level).map fun e =>
    if log.filter.allows checkTarget .debug then e else { e with unit? := none }

end Log

end OverrideCheck
