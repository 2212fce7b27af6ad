import ScopeExit.Cleanup.Script

/-!
# Running a script

A registration guards what is left of its list.  However that ends, the guard
is dropped then and runs its action, and only afterwards does the ending go on
outwards.  So the actions of one list run in the reverse order of their
registrations, and those of an inner list before those of an outer one.
-/

namespace ScopeExit
namespace Cleanup

/-- How guards are built: with the standard library a panic of an action is
caught and logged, and without it the panic goes on. -/
inductive Build where
  | std
  | bare
  deriving DecidableEq

/-!
## Endings
-/

namespace Ending

/-- Go on only if nothing left the list early. -/
def andThen (e : Ending) (rest : Machine -> Ending) : Ending :=
  match e.flow with
  | .done => rest e.machine
  | _ => e

@[simp] theorem andThen_done (m : Machine) (rest : Machine -> Ending) :
    andThen ⟨m, .done⟩ rest = rest m := rfl

/-- The ending of a function: it returns, and nothing but a panic goes on. -/
def ofCall : Ending -> Ending
  | ⟨m, .returned value⟩ => ⟨m.emit (.returned value), .done⟩
  | ⟨m, .panicked payload⟩ => ⟨m, .panicked payload⟩
  | ⟨m, .aborted⟩ => ⟨m, .aborted⟩
  | ⟨m, _⟩ => ⟨m, .done⟩

/-- The ending of code whose panics are caught. -/
def ofAttempt : Ending -> Ending
  | ⟨m, .panicked payload⟩ => ⟨m.emit (.caught payload), .done⟩
  | e => e

/-- The ending of a loop with the given number of rounds. -/
def ofLoop (body : Machine -> Ending) : Nat -> Machine -> Ending
  | 0, m => ⟨m, .done⟩
  | n + 1, m =>
      match body m with
      | ⟨m, .done⟩ => ofLoop body n m
      | ⟨m, .continued⟩ => ofLoop body n m
      | ⟨m, .broke⟩ => ⟨m, .done⟩
      | e => e

end Ending

/-!
## Guards
-/

/-- The flow behind a guard whose action has run, given the flow that the guard
interrupted. -/
def Build.settle (build : Build) (flow : Flow) : Ending -> Ending
  | ⟨m, .aborted⟩ => ⟨m, .aborted⟩
  | ⟨m, .panicked payload⟩ =>
      match build, flow with
      | .std, _ => ⟨m.emit (.discarded payload), flow⟩
      | .bare, .panicked _ => ⟨m, .aborted⟩
      | .bare, _ => ⟨m, .panicked payload⟩
  | ⟨m, _⟩ => ⟨m, flow⟩

/-- Drop a guard at the end of what it guards.  Nothing runs once the script is
aborted. -/
def Build.drop (build : Build) (action : Machine -> Ending) :
    Ending -> Ending
  | ⟨m, .aborted⟩ => ⟨m, .aborted⟩
  | ⟨m, flow⟩ => build.settle flow (action m)

/-!
## Statements

A statement is run together with what is left of its list.
-/

mutual

def Command.run (build : Build) :
    Command -> (rest : Machine -> Ending) -> Machine -> Ending
  | .log text, rest, m => rest (m.emit (.logged text))
  | .showCounter, rest, m => rest (m.emit (.shown m.counter))
  | .set value, rest, m => rest { m with counter := value }
  | .add value, rest, m => rest { m with counter := m.counter + value }
  | .defer action, rest, m => build.drop (runAll build action) (rest m)
  | .sentinel _, rest, m => rest m
  | .block body, rest, m => (runAll build body m).andThen rest
  | .loop times body, rest, m =>
      (Ending.ofLoop (runAll build body) times m).andThen rest
  | .branch counter same different, rest, m =>
      if m.counter = counter then (runAll build same m).andThen rest
      else (runAll build different m).andThen rest
  | .call body, rest, m => (runAll build body m).ofCall.andThen rest
  | .attempt body, rest, m => (runAll build body m).ofAttempt.andThen rest
  | .ret value, _, m => ⟨m, .returned (value.getD m.counter)⟩
  | .breakLoop, _, m => ⟨m, .broke⟩
  | .continueLoop, _, m => ⟨m, .continued⟩
  | .panic payload, _, m => ⟨m, .panicked payload⟩
  | .nothing, rest, m => rest m

def runAll (build : Build) : List Command -> Machine -> Ending
  | [], m => ⟨m, .done⟩
  | c :: rest, m => c.run build (runAll build rest) m

end

end Cleanup
end ScopeExit
