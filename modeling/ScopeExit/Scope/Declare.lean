import ScopeExit.Scope.Stack

/-!
# Declarations

How items, imports and patterns enter the innermost scope.  The items of a block
or module are declared before any of its statements is looked at, in order, and
each import is resolved among the names that are known by then.
-/

namespace ScopeExit

/-!
## Names that patterns bind
-/

mutual

def Pat.binders : Pat -> List String
  | .binder _ name sub => name.name :: partsBinders sub
  | .compound parts => partsBinders parts

def partsBinders : List Part -> List String
  | [] => []
  | p :: rest => p.binders ++ partsBinders rest

def Part.binders : Part -> List String
  | .pat p => p.binders
  | _ => []

end

@[simp] theorem partsBinders_append (a b : List Part) :
    partsBinders (a ++ b) = partsBinders a ++ partsBinders b := by
  induction a with
  | nil => simp [partsBinders]
  | cons p rest ih => simp [partsBinders, ih]

mutual

/-- The names that a condition binds for its body: those of the patterns that
are reached through operators and parentheses. -/
def Expr.conditionBinders : Expr -> List String
  | .mk _ kind => kind.conditionBinders

def ExprKind.conditionBinders : ExprKind -> List String
  | .letCond pat _ => pat.binders
  | .binary left _ right => left.conditionBinders ++ right.conditionBinders
  | .paren inner => inner.conditionBinders
  | _ => []

end

namespace ScopeStack

def bindLocals (s : ScopeStack) (names : List String) : ScopeStack :=
  names.foldl (fun s name => s.bind name .localVar) s

@[simp] theorem bindLocals_nil (s : ScopeStack) : s.bindLocals [] = s := rfl

@[simp] theorem bindLocals_cons (s : ScopeStack) (name : String)
    (rest : List String) :
    s.bindLocals (name :: rest) =
      (s.bind name .localVar).bindLocals rest := rfl

def bindPat (s : ScopeStack) (p : Pat) : ScopeStack :=
  s.bindLocals p.binders

/-!
## Imports
-/

def importReferent (s : ScopeStack) (full : List String) : Referent :=
  s.classify (s.canonical full)

def bindImport (s : ScopeStack) (name : String) (full : List String) :
    ScopeStack :=
  s.bind name (s.importReferent full)

/-- Declare the import of all names below a path.  Only the sentinel matters,
and any explicit declaration of its name takes precedence. -/
def bindGlob (s : ScopeStack) (full : List String) : ScopeStack :=
  if s.canonical full = s.runtime then s.bindWeak sentinelName .sentinel
  else s

/-- The path that a leaf imports: the word `self` means the path in front of
it. -/
def leafPath (parent : List String) (name : Ident) : List String :=
  if name.isWord "self" then parent else parent ++ [name.name]

/-- The name that a leaf without a new name declares, if it has one. -/
def leafName? (parent : List String) (name : Ident) : Option String :=
  if name.isWord "self" then parent.getLast? else some name.name

mutual

def declareTree (s : ScopeStack) (parent : List String) :
    UseTree -> ScopeStack
  | .path name rest => declareTree s (parent ++ [name.name]) rest
  | .leaf name =>
      match leafName? parent name with
      | some declared => s.bindImport declared (leafPath parent name)
      | none => s
  | .rename name newName =>
      if newName.isWord "_" then s
      else s.bindImport newName.name (leafPath parent name)
  | .glob => s.bindGlob parent
  | .group trees _ => declareTrees s parent trees

/-- Declare what the members of a group import, from left to right. -/
def declareTrees (s : ScopeStack) (parent : List String) :
    List UseTree -> ScopeStack
  | [] => s
  | t :: rest => declareTrees (declareTree s parent t) parent rest

end

/-!
## Items
-/

def declareItem (s : ScopeStack) : Item -> ScopeStack
  | .mk _ (.imports _ _ tree) => s.declareTree [] tree
  | .mk _ (.externCrate _ name newName) =>
      let referent :=
        if s.runtime = [name.name] then Referent.runtime else .item
      s.bind (newName.getD name).name referent
  | .mk _ (.function _ _ _ name _ _) => s.bind name.name .item
  | .mk _ (.constant _ name _) => s.bind name.name .item
  | .mk _ (.traitDef _ name _ _) => s.bind name.name .item
  | .mk _ (.module _ name _) => s.bind name.name .item
  | .mk _ (.moduleFile _ name) => s.bind name.name .item
  | .mk _ (.definition _ name _) => s.bind name.name .item
  | .mk _ (.implementation _ _) => s
  | .mk _ (.other _) => s

def declareItems (s : ScopeStack) (items : List Item) : ScopeStack :=
  items.foldl declareItem s

def itemsOf (body : List Stmt) : List Item :=
  body.filterMap fun
    | .item i => some i
    | _ => none

def declareStmts (s : ScopeStack) (body : List Stmt) : ScopeStack :=
  s.declareItems (itemsOf body)

/-- The scope behind a statement: a declaration binds the variables of its
pattern. -/
def afterStmt (s : ScopeStack) : Stmt -> ScopeStack
  | .binding _ pat _ => s.bindPat pat
  | _ => s

end ScopeStack

end ScopeExit
