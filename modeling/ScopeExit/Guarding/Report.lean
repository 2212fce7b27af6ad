import ScopeExit.Source.Token

/-!
# Reports

A walk over a tree gives the changed tree and what it found wrong, in the
order in which it came by.  Finding a fault does not stop the walk.
-/

namespace ScopeExit

/-- What can be wrong: a registration stands in code that is evaluated at
compile time, or no call can begin with the path of the runtime. -/
inductive Fault where
  | constContext (pos : Position)
  | runtimePath (pos : Position)
  deriving DecidableEq

namespace Fault

def message : Fault -> String
  | constContext _ => "`defer` cannot be used in a const context"
  | runtimePath _ => "comparison operators cannot be chained"

def pos : Fault -> Position
  | constContext p => p
  | runtimePath p => p

end Fault

/-- A value with the faults that were found on the way to it. -/
structure Report (α : Type) where
  value : α
  faults : List Fault

namespace Report

variable {α β : Type}

instance : Monad Report where
  pure a := ⟨a, []⟩
  bind r f :=
    let next := f r.value
    ⟨next.value, r.faults ++ next.faults⟩

def fault (f : Fault) : Report Unit := ⟨(), [f]⟩

@[simp] theorem value_pure (a : α) : (pure a : Report α).value = a := rfl

@[simp] theorem faults_pure (a : α) : (pure a : Report α).faults = [] := rfl

@[simp] theorem value_bind (r : Report α) (f : α -> Report β) :
    (r >>= f).value = (f r.value).value := rfl

@[simp] theorem faults_bind (r : Report α) (f : α -> Report β) :
    (r >>= f).faults = r.faults ++ (f r.value).faults := rfl

@[simp] theorem faults_fault (f : Fault) : (fault f).faults = [f] := rfl

end Report

end ScopeExit
