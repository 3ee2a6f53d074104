import RoutePages.Text.Basic

/-!
# Events

What a command reports while it runs. An event is one line of a log.
-/
namespace RoutePages

/-- How much an event matters. -/
inductive Level where
  | error
  | warning
  | info
  | debug
  deriving DecidableEq

namespace Level

/-- The name of a level, as wide as the widest. -/
def label : Level → Text
  | error => "ERROR"
  | warning => " WARN"
  | info => " INFO"
  | debug => "DEBUG"

def rank : Level → Nat
  | error => 1
  | warning => 2
  | info => 3
  | debug => 4

end Level

/-- Something that happened, with named details. -/
structure Event where
  level : Level
  message : Text
  details : List (Text × Text)
  deriving DecidableEq

namespace Event

def info (message : Text) (details : List (Text × Text)) : Event := ⟨.info, message, details⟩

def debug (message : Text) (details : List (Text × Text)) : Event := ⟨.debug, message, details⟩

/-- The event as a line of a log, without the end of the line. -/
def line (e : Event) : Text :=
  e.level.label ++ ' ' :: e.message ++
    e.details.flatMap fun (name, value) => ' ' :: name ++ '=' :: value

end Event

/-- The least level that is logged; none where nothing is. -/
structure LogFilter where
  least : Option Level
  deriving DecidableEq

namespace LogFilter

def admits (f : LogFilter) (e : Event) : Bool :=
  match f.least with
  | none => false
  | some least => e.level.rank ≤ least.rank

/-- The level that a name stands for, in whatever case. -/
def ofName? (name : Text) : Option LogFilter :=
  let name := name.map Char.toLower
  if name = "error" then some ⟨some .error⟩
  else if name = "warn" then some ⟨some .warning⟩
  else if name = "info" then some ⟨some .info⟩
  else if name = "debug" ∨ name = "trace" then some ⟨some .debug⟩
  else if name = "off" then some ⟨none⟩
  else none

/-- Reads a level, or a level for this program alone. What cannot be read stands for `info`. -/
def ofText (text : Text) : LogFilter :=
  ((ofName? text).or ((Text.after? "route_scaffold=" text).bind ofName?)).getD ⟨some .info⟩

end LogFilter
end RoutePages
