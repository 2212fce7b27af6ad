import ScopeExit.Syntax.Basic

/-!
# Divergence

Whether an expression, by its shape alone, never completes.  The tail of a block
that never completes has no value that would have to be kept.

A block diverges if its last statement does.  A labelled block may be left by a
jump to its label, so it never counts, and a loop may end.
-/

namespace ScopeExit

/-- Macros that never give a value. -/
def divergingMacros : List String :=
  ["panic", "unreachable", "todo", "unimplemented"]

/-- Whether the macro is one that never gives a value, whatever the path in
front of its name. -/
def Invocation.diverges (m : Invocation) : Bool :=
  m.path.segments.getLast?.any fun i =>
    divergingMacros.any fun name => i.isWord name

mutual

def Expr.diverges : Expr -> Bool
  | .mk _ kind => kind.diverges

def ExprKind.diverges : ExprKind -> Bool
  | .ret _ => true
  | .breakTo _ _ => true
  | .continueTo _ => true
  | .invocation m => m.diverges
  | .block (.plain none) body => stmtsDiverge body
  | .block .unsafeBlock body => stmtsDiverge body
  | .ifElse _ body orElse => stmtsDiverge body && orElse.diverges
  | .matchOn _ arms => !arms.isEmpty && armsDiverge arms
  | .paren inner => inner.diverges
  | _ => false

def armsDiverge : List Arm -> Bool
  | [] => true
  | a :: rest => a.diverges && armsDiverge rest

def Arm.diverges : Arm -> Bool
  | .mk _ _ _ body _ => body.diverges

/-- Whether the last statement of a block never completes. -/
def stmtsDiverge : List Stmt -> Bool
  | [] => false
  | [s] => s.diverges
  | _ :: rest => stmtsDiverge rest

def Stmt.diverges : Stmt -> Bool
  | .expr _ e _ => e.diverges
  | .invocation _ m _ => m.diverges
  | .binding _ _ _ => false
  | .item _ => false

end

/-- Whether an expression is a loop without a condition. -/
def Expr.isLoop : Expr -> Bool
  | .mk _ (.loop _ _) => true
  | _ => false

/-- Whether the value of a tail has to be bound before the guards of its block
are dropped: only loops and diverging tails need not be. -/
def Expr.needsBinding (e : Expr) : Bool :=
  !e.isLoop && !e.diverges

end ScopeExit
