/-!
# Scripts

A script is a small program whose statements register actions.  It acts on a
machine that has one counter and remembers, in order, all that happened.
-/

namespace ScopeExit
namespace Cleanup

/-- What a panic carries: a text that is part of the program, a text made while
it ran, or a value that is no text. -/
inductive Payload where
  | fixed (text : String)
  | owned (text : String)
  | other
  deriving DecidableEq

namespace Payload

/-- The payload with its kind, as it is shown when it has been caught. -/
def text : Payload -> String
  | fixed text => "static: " ++ text
  | owned text => "string: " ++ text
  | other => "other"

def message : Payload -> String
  | fixed text => text
  | owned text => text
  | other => "Box<dyn Any>"

end Payload

/-- Something that happened.  An event is `discarded` when the panic of an
action goes no further, and `escaped` when it leaves a guard that is dropped by
itself. -/
inductive Event where
  | logged (text : String)
  | shown (counter : Int64)
  | returned (value : Int64)
  | caught (payload : Payload)
  | discarded (payload : Payload)
  | escaped (payload : Payload)
  | described (text : String)
  | absent
  deriving DecidableEq

namespace Event

def text : Event -> String
  | logged text => text
  | shown counter => "counter=" ++ toString counter.toInt
  | returned value => "returned " ++ toString value.toInt
  | caught payload => "caught " ++ payload.text
  | discarded payload =>
      "WARN: deferred action panicked: " ++ payload.message
  | escaped payload => "panicked " ++ payload.text
  | described text => text
  | absent => "absent"

end Event

/-- The statements of a script.  A `defer` registers an action for the end of
the list in which it stands; the `sentinel` is the registering function called
by code that has not been expanded. -/
inductive Command where
  | log (text : String)
  | showCounter
  | set (value : Int64)
  | add (value : Int64)
  | defer (action : List Command)
  | sentinel (action : List Command)
  | block (body : List Command)
  | loop (times : Nat) (body : List Command)
  | branch (counter : Int64) (same different : List Command)
  | call (body : List Command)
  | attempt (body : List Command)
  | ret (value : Option Int64)
  | breakLoop
  | continueLoop
  | panic (payload : Payload)
  | nothing

instance : Inhabited Command := ⟨.nothing⟩

/-- How a list of statements ends.  A script is `aborted` as a whole when an
action panics past its guard while another panic is under way. -/
inductive Flow where
  | done
  | broke
  | continued
  | returned (value : Int64)
  | panicked (payload : Payload)
  | aborted
  deriving DecidableEq

/-- The counter, and the events in the order in which they happened. -/
structure Machine where
  counter : Int64
  events : List Event
  deriving DecidableEq

namespace Machine

def start (counter : Int64) : Machine := ⟨counter, []⟩

def emit (m : Machine) (e : Event) : Machine :=
  { m with events := m.events ++ [e] }

@[simp] theorem counter_emit (m : Machine) (e : Event) :
    (m.emit e).counter = m.counter := rfl

@[simp] theorem events_emit (m : Machine) (e : Event) :
    (m.emit e).events = m.events ++ [e] := rfl

end Machine

/-- The machine behind a list of statements, and how the list ended. -/
structure Ending where
  machine : Machine
  flow : Flow
  deriving DecidableEq

end Cleanup
end ScopeExit
