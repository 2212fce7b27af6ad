import ScopeExit.Syntax.Basic

/-!
# The stack of lexical scopes

Whether a call registers an action depends on what its callee refers to.  The
stack records, innermost scope first, every name that can matter: imports, local
items, and the variables that patterns bind.

Locals have two limits that other names do not have.  A local of an enclosing
function is not visible past the *barrier* of an item, and a local is never
meant by the first segment of a longer path.
-/

namespace ScopeExit

/-- What a name or path refers to: the function that registers actions, the
crate that holds it, a local variable, or anything else. -/
inductive Referent where
  | sentinel
  | runtime
  | localVar
  | item
  deriving DecidableEq

def sentinelName : String := "defer"

/-- One lexical scope: its names, the latest first, and whether it is that of
an item. -/
structure Frame where
  names : List (String × Referent)
  barrier : Bool

namespace Frame

def empty (barrier : Bool) : Frame := ⟨[], barrier⟩

def get? (f : Frame) (name : String) : Option Referent :=
  f.names.lookup name

/-- The scope after a declaration, which replaces an earlier one. -/
def bind (f : Frame) (name : String) (r : Referent) : Frame :=
  { f with names := (name, r) :: f.names }

/-- The scope after a declaration that gives way to an earlier one. -/
def bindWeak (f : Frame) (name : String) (r : Referent) : Frame :=
  if (f.get? name).isSome then f else f.bind name r

@[simp] theorem get?_empty (barrier : Bool) (name : String) :
    (empty barrier).get? name = none := rfl

theorem get?_bind (f : Frame) (name : String) (r : Referent)
    (other : String) :
    (f.bind name r).get? other =
      if other = name then some r else f.get? other := by
  by_cases h : other = name
  · simp [bind, get?, h]
  · have h' : (other == name) = false := by simpa using h
    simp [bind, get?, List.lookup_cons, h, h']

theorem get?_bindWeak (f : Frame) (name : String) (r : Referent)
    (other : String) :
    (f.bindWeak name r).get? other =
      if other = name then some ((f.get? name).getD r)
      else f.get? other := by
  unfold bindWeak
  cases hf : f.get? name with
  | none => simp [get?_bind]
  | some old =>
      by_cases h : other = name
      · simp [h, hf]
      · simp [h]

@[simp] theorem barrier_bind (f : Frame) (name : String) (r : Referent) :
    (f.bind name r).barrier = f.barrier := rfl

@[simp] theorem barrier_bindWeak (f : Frame) (name : String)
    (r : Referent) : (f.bindWeak name r).barrier = f.barrier := by
  unfold bindWeak
  split <;> rfl

end Frame

/-- A stack of scopes, and the path at which the crate of the sentinel is
reached.  There is always an innermost scope. -/
structure ScopeStack where
  runtime : List String
  top : Frame
  outer : List Frame

namespace ScopeStack

/-- The stack in which only the sentinel is known, by its name. -/
def root (runtime : Path) : ScopeStack where
  runtime := runtime.names
  top := (Frame.empty false).bind sentinelName .sentinel
  outer := []

def push (s : ScopeStack) : ScopeStack :=
  { s with top := .empty false, outer := s.top :: s.outer }

/-- Enter an item, past which outer locals are not visible. -/
def pushBarrier (s : ScopeStack) : ScopeStack :=
  { s with top := .empty true, outer := s.top :: s.outer }

/-- Leave the innermost scope.  The outermost one is never left. -/
def pop (s : ScopeStack) : ScopeStack :=
  match s.outer with
  | [] => s
  | f :: rest => { s with top := f, outer := rest }

@[simp] theorem pop_push (s : ScopeStack) : s.push.pop = s := rfl

@[simp] theorem pop_pushBarrier (s : ScopeStack) :
    s.pushBarrier.pop = s := rfl

def bind (s : ScopeStack) (name : String) (r : Referent) : ScopeStack :=
  { s with top := s.top.bind name r }

/-- Declare a name in the innermost scope unless it is declared there. -/
def bindWeak (s : ScopeStack) (name : String) (r : Referent) : ScopeStack :=
  { s with top := s.top.bindWeak name r }

/-!
## Looking names up
-/

/-- What a name refers to in a list of scopes.  `typesOnly` passes over all
locals, and `past` says that a barrier has been passed, behind which locals are
passed over. -/
def lookupIn (name : String) (typesOnly : Bool) :
    (past : Bool) -> List Frame -> Option Referent
  | _, [] => none
  | past, f :: rest =>
      match f.get? name with
      | some r =>
          if r = .localVar && (typesOnly || past) then
            lookupIn name typesOnly (past || f.barrier) rest
          else some r
      | none => lookupIn name typesOnly (past || f.barrier) rest

theorem lookupIn_cons (name : String) (typesOnly past : Bool) (f : Frame)
    (rest : List Frame) :
    lookupIn name typesOnly past (f :: rest) =
      match f.get? name with
      | some r =>
          if r = .localVar && (typesOnly || past) then
            lookupIn name typesOnly (past || f.barrier) rest
          else some r
      | none => lookupIn name typesOnly (past || f.barrier) rest := rfl

/-- What a name refers to, as a path of its own or as the first segment of a
longer path. -/
def lookup (s : ScopeStack) (name : String) (typesOnly : Bool) :
    Option Referent :=
  lookupIn name typesOnly false (s.top :: s.outer)

/-- What a path from the root of all crates refers to. -/
def classify (s : ScopeStack) (full : List String) : Referent :=
  if full = s.runtime ++ [sentinelName] then .sentinel
  else if full = s.runtime then .runtime
  else .item

/-- The path from the root of all crates that a path means, if its first
segment is a name of the runtime crate. -/
def canonical (s : ScopeStack) : List String -> List String
  | [] => []
  | first :: rest =>
      if s.lookup first true = some .runtime then s.runtime ++ rest
      else first :: rest

/-- What the names of a path that does not begin with two colons refer to. -/
def resolveNames (s : ScopeStack) : List String -> Referent
  | [] => .item
  | [name] => (s.lookup name false).getD .item
  | first :: rest =>
      match s.lookup first true with
      | some .runtime => s.classify (s.runtime ++ rest)
      | some _ => .item
      | none => s.classify (first :: rest)

def resolve (s : ScopeStack) (p : Path) : Referent :=
  if p.isAbsolute then s.classify p.names else s.resolveNames p.names

end ScopeStack

end ScopeExit
