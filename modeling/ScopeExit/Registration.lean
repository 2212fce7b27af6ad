import ScopeExit.Scope.Declare

/-!
# Registrations

A registration is an expression statement that calls the sentinel with exactly
one argument, which may be an action: something that can be called without
arguments and gives nothing back.  Any other statement is an ordinary one.
-/

namespace ScopeExit

/-- The argument of a call that has exactly one; a comma may follow it. -/
def soleArgument? : List Part -> Option Expr
  | [.expr a] => some a
  | [.expr a, .token (.atom (.punct ','))] => some a
  | _ => none

/-- Whether a return type is left out or is the empty tuple. -/
def returnsUnit : List Part -> Bool
  | [] => true
  | [.token (.atom (.punct '-')), .token (.atom (.punct '>')),
      .token (.opening .paren), .token (.closing .paren)] => true
  | _ => false

mutual

/-- Whether an argument may be an action.  A closure must have no parameters,
not be `async` and return nothing; shapes that can never be called are none;
all else is accepted, as only its type could tell. -/
def Expr.isAction : Expr -> Bool
  | .mk _ kind => kind.isAction

def ExprKind.isAction : ExprKind -> Bool
  | .closure _ marks inputs output _ =>
      inputs.isEmpty && !marks.isAsync && returnsUnit output
  | .paren inner => inner.isAction
  | .range _ => false
  | .data _ => false
  | .binary _ _ _ => false
  | .block (.asyncBlock _) _ => false
  | _ => true

end

def Expr.calleePath? : Expr -> Option Path
  | .mk _ (.path p) => some p
  | _ => none

/-- Whether an expression is a path, possibly one that begins with a type in
angle brackets. -/
def Expr.isPath : Expr -> Bool
  | .mk _ (.path _) => true
  | .mk _ (.qualified _) => true
  | _ => false

def Stmt.isRegistration (scope : ScopeStack) : Stmt -> Bool
  | .expr _ (.mk _ (.call callee args)) _ =>
      (callee.calleePath?.any fun p => scope.resolve p = .sentinel) &&
        (soleArgument? args).any Expr.isAction
  | _ => false

/-- A registration taken apart: the attributes of the statement, what is
called, and the action. -/
structure Registration where
  attrs : List Attr
  callee : Expr
  action : Expr

namespace Registration

/-- Take a statement apart, if it calls a path with exactly one argument. -/
def ofStmt? : Stmt -> Option Registration
  | .expr _ (.mk attrs (.call callee args)) _ =>
      if callee.isPath then
        (soleArgument? args).map fun action => ⟨attrs, callee, action⟩
      else none
  | _ => none

end Registration

theorem Stmt.isSome_ofStmt?_of_isRegistration {scope : ScopeStack}
    {s : Stmt} (h : s.isRegistration scope = true) :
    (Registration.ofStmt? s).isSome = true := by
  match s, h with
  | .expr pos (.mk attrs (.call (.mk own callee) args)) semi, h =>
      cases callee <;>
        simp_all [Stmt.isRegistration, Registration.ofStmt?,
          Expr.calleePath?, Expr.isPath]
      cases ha : soleArgument? args <;> simp_all

end ScopeExit
