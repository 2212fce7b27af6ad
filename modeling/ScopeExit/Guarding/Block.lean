import ScopeExit.Registration
import ScopeExit.Guarding.Divergence
import ScopeExit.Guarding.Report
import ScopeExit.Grammar.Entry
import ScopeExit.Syntax.Print

/-!
# Guarded blocks

A registration becomes a guard that is bound where the registration stood:

    defer(action);     =>     let guard = register(defer, action);

Guards are dropped in reverse order when their block is left, however it is
left, and a guard runs its action when it is dropped.  The value of a block that
has guards is bound before them:

    value              =>     let result = value; result
-/

namespace ScopeExit

def guardName : Ident := .plain "__deferred_guard"

def resultName : Ident := .plain "__deferred_result"

/-- The segments of the path of the registering function behind that of the
runtime. -/
def registerSegments : List Segment :=
  [.mk (.plain "__private") [], .mk (.plain "register") []]

namespace Path

def extend : Path -> List Segment -> Path
  | .mk absolute segments, more => .mk absolute (segments ++ more)

/-- Whether generic arguments stand only behind two colons, as an expression
needs them. -/
def isExpression : Path -> Bool
  | .mk _ segments => segments.all fun
      | .mk _ [] => true
      | .mk _ (.token t :: _) => t = .punct ':'
      | .mk _ _ => false

end Path

/-- Whether a written token is joined to the one behind it.  Of the punctuation
only two colons and an arrow are. -/
def Token.joins : Token -> List Token -> Bool
  | .atom (.punct ':'), .atom (.punct ':') :: _ => true
  | .atom (.punct '-'), .atom (.punct '>') :: _ => true
  | _, _ => false

/-- The pieces of a text that consists of these tokens, without their
places. -/
def Lexer.ofTokens : List Token -> List Piece
  | [] => []
  | .atom a :: rest =>
      .leaf a .origin (Token.joins (.atom a) rest) :: ofTokens rest
  | .opening d :: rest => .opening d .origin :: ofTokens rest
  | .closing d :: rest => .closing d :: ofTokens rest

def TokenTree.ofTokens? (ts : List Token) : Option (List TokenTree) :=
  Lexer.fold? [] [] (Lexer.ofTokens ts)

namespace Path

/-- Whether a call may begin with the path: it is written as an expression, or
happens to be one when it is read as one. -/
def opensCall (p : Path) : Bool :=
  p.isExpression ||
    ((TokenTree.ofTokens?
      ((p.extend registerSegments).tokens ++ Token.group .paren [])).bind
        (Grammar.read? fun g => g.expr true)).isSome

end Path

namespace Registration

/-- The statement that binds a guard in place of a registration.  The callee is
passed along, so that it stays in use. -/
def guard (runtime : Path) (r : Registration) : Stmt :=
  .binding r.attrs (.binder [] guardName [])
    [.token (.punct '='),
      .expr (.bare (.call (.bare (.path (runtime.extend registerSegments)))
        [.expr r.callee, .token (.punct ','), .expr r.action]))]

end Registration

/-- The expression that is read from what an expression is written as: a range
with attributes is found in parentheses.  What stands further inside is written
alike with and without them, and nothing else tells the two apart. -/
def Expr.grouped : Expr -> Expr
  | .mk attrs kind =>
      if kind.isRange && !attrs.isEmpty then .mk attrs (.paren (.bare kind))
      else .mk attrs kind

namespace Stmt

/-- The statements in place of the last one of a block with guards. -/
def bindTail : Stmt -> List Stmt
  | .expr pos e false =>
      if e.needsBinding then
        [.binding [] (.binder [] resultName [])
            [.token (.punct '='), .expr e.grouped],
          .expr pos (.ofIdent resultName) false]
      else [.expr pos e false]
  | s => [s]

/-- The registration that a marked statement is, if it can be taken apart. -/
def marked? (mark : Bool) (s : Stmt) : Option Registration :=
  if mark then Registration.ofStmt? s else none

/-- Statements with guards in place of marked registrations and the tail bound.
A missing mark is none, and marks beyond the statements have no effect. -/
def bindGuards (runtime : Path) : List Stmt -> List Bool -> List Stmt
  | [], _ => []
  | s :: rest, marks =>
      match s.marked? (marks.head?.getD false) with
      | some r => r.guard runtime :: bindGuards runtime rest marks.tail
      | none =>
          (if rest.isEmpty then s.bindTail else [s]) ++
            bindGuards runtime rest marks.tail

def hasGuards : List Stmt -> List Bool -> Bool
  | [], _ => false
  | s :: rest, marks =>
      (s.marked? (marks.head?.getD false)).isSome ||
        hasGuards rest marks.tail

/-- A block with guards in place of its marked registrations.  A block without
any mark is left as it is. -/
def guardBlock (runtime : Path) (body : List Stmt) (marks : List Bool) :
    Except Fault (List Stmt) :=
  if !marks.contains true then .ok body
  else if runtime.opensCall || !hasGuards body marks then
    .ok (bindGuards runtime body marks)
  else .error (.runtimePath .origin)

end Stmt

@[simp] theorem SimplePath.isExpression_toPath (p : SimplePath) :
    p.toPath.isExpression = true := by
  simp [SimplePath.toPath, Path.isExpression]

@[simp] theorem SimplePath.opensCall_toPath (p : SimplePath) :
    p.toPath.opensCall = true := by
  simp [Path.opensCall]

/-- Parentheses that are written do not show when they are read. -/
@[simp] theorem Expr.tokens_grouped (e : Expr) :
    e.grouped.tokens = e.tokens := by
  rcases e with ⟨attrs, kind⟩
  cases kind with
  | range parts =>
      cases attrs <;>
        simp [Expr.grouped, Expr.tokens, Expr.bare, ExprKind.tokens,
          ExprKind.isRange, ExprKind.isBraced, parenIf, attrsTokens]
  | _ => simp [Expr.grouped, ExprKind.isRange]

end ScopeExit
