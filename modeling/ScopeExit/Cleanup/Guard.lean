import ScopeExit.Cleanup.Run

/-!
# Guards by themselves

Guards that are held under names, outside any script: they are made, dropped,
forgotten and described one by one, and those that are left over in the end are
dropped, the newest first.
-/

namespace ScopeExit
namespace Cleanup

/-- A guard, armed as long as it holds its action. -/
structure Guard where
  action : Option (List Command)

namespace Guard

def new (action : List Command) : Guard := ⟨some action⟩

def isArmed (g : Guard) : Bool := g.action.isSome

/-- The description of a guard, on one line with the standard library and on
several without. -/
def describe (build : Build) (g : Guard) : String :=
  let armed := "armed: " ++ toString g.isArmed
  match build with
  | .std => "Guard \x7b " ++ armed ++ " \x7d"
  | .bare => "Guard \x7b\n    " ++ armed ++ ",\n\x7d"

/-- All that happens when the guard is dropped. -/
def dropEvents (build : Build) (g : Guard) : List Event :=
  match g.action with
  | none => []
  | some action =>
      match build.drop (runAll build action) ⟨.start 0, .done⟩ with
      | ⟨m, .panicked payload⟩ => m.events ++ [.escaped payload]
      | ⟨m, _⟩ => m.events

end Guard

/-- What is asked of the held guards. -/
inductive Request where
  | make (name : String) (panics : Option Payload)
  | drop (name : String)
  | forget (name : String)
  | describe (name : String)
  | unknown
  deriving DecidableEq

/-- Named guards, the oldest first.  Several may have the same name. -/
abbrev Held := List (String × Guard)

namespace Held

def guardOf (name : String) (panics : Option Payload) : Guard :=
  .new (.log ("run " ++ name) :: (panics.map Command.panic).toList)

/-- The oldest guard with a name, and the other guards. -/
def take? (name : String) : Held -> Option (Guard × Held)
  | [] => none
  | (other, g) :: rest =>
      if other = name then some (g, rest)
      else (take? name rest).map fun (found, rest) =>
        (found, (other, g) :: rest)

/-- The guards after a request, and what happened. -/
def answer (build : Build) (held : Held) : Request -> Held × List Event
  | .make name panics => (held ++ [(name, guardOf name panics)], [])
  | .drop name =>
      match take? name held with
      | some (g, rest) => (rest, g.dropEvents build)
      | none => (held, [.absent])
  | .forget name =>
      match take? name held with
      | some (_, rest) => (rest, [])
      | none => (held, [.absent])
  | .describe name =>
      match take? name held with
      | some (g, _) => (held, [.described (g.describe build)])
      | none => (held, [.absent])
  | .unknown => (held, [.absent])

/-- What happens when all guards are dropped, the newest first. -/
def dropAll (build : Build) (held : Held) : List Event :=
  held.reverse.flatMap fun (_, g) => g.dropEvents build

/-- What each request causes, and what happens in the end. -/
def answerAll (build : Build) :
    Held -> List Request -> List (List Event) × List Event
  | held, [] => ([], dropAll build held)
  | held, r :: rest =>
      let (held, events) := answer build held r
      let (later, last) := answerAll build held rest
      (events :: later, last)

end Held

end Cleanup
end ScopeExit
