import ScopeExit.Guarding.Block
import ScopeExit.Guarding.Report

/-!
# Guarding a whole tree

The walk looks at every block of an item, innermost first, and guards it.  It
carries the scopes along: what a name refers to depends on where it stands.

Code that is evaluated at compile time (*const contexts*) is not changed, and
a registration in it is a fault.  That holds for everything nested in such code.
An item with an expansion of its own is left alone.
-/

namespace ScopeExit

def expansionName : String := "deferred"

/-- Whether the attribute asks for an expansion, whatever the path in front of
its name. -/
def Attr.isExpansion (a : Attr) : Bool :=
  a.path.segments.getLast?.any fun i => i.isWord expansionName

def hasOwnExpansion (attrs : List Attr) : Bool :=
  attrs.any Attr.isExpansion

/-- Where the walk is: the path of the runtime, the scopes, and whether the code
is evaluated at compile time. -/
structure Context where
  runtime : Path
  scope : ScopeStack
  inConst : Bool

namespace Context

/-- The place where an item that is not nested begins. -/
def root (runtime : Path) : Context := ⟨runtime, .root runtime, false⟩

def withConst (c : Context) (isConst : Bool) : Context :=
  { c with inConst := c.inConst || isConst }

def binding (c : Context) (names : List String) : Context :=
  { c with scope := c.scope.push.bindLocals names }

def inBlock (c : Context) (body : List Stmt) : Context :=
  { c with scope := c.scope.push.declareStmts body }

def afterStmt (c : Context) (s : Stmt) : Context :=
  { c with scope := c.scope.afterStmt s }

/-- Inside an expression of this shape, where it opens a scope or a const
context that also holds for its attributes. -/
def inExpr (c : Context) : ExprKind -> Context
  | .closure _ _ inputs _ _ => c.binding (partsBinders inputs)
  | .block .constBlock _ => c.withConst true
  | _ => c

def inItem (c : Context) : ItemKind -> Context
  | .function _ isConst _ _ signature _ =>
      { c with scope := c.scope.pushBarrier.bindLocals
                (partsBinders signature)
               inConst := c.inConst || isConst }
  | .constant _ _ _ => c.withConst true
  | .implementation _ _ => { c with scope := c.scope.pushBarrier }
  | .traitDef _ _ _ _ => { c with scope := c.scope.pushBarrier }
  | .module _ _ items =>
      { c with scope := c.scope.pushBarrier.declareItems items }
  | .moduleFile _ _ => { c with scope := c.scope.pushBarrier }
  | _ => c

end Context

/-- Whether the walk looks at the attributes of an expression of this shape:
those of conditionals and of loops with a head are passed over. -/
def ExprKind.hasWalkedAttrs : ExprKind -> Bool
  | .ifThen _ _ => false
  | .ifElse _ _ _ => false
  | .whileLoop _ _ _ => false
  | .forLoop _ _ _ _ => false
  | _ => true

def ItemKind.hasWalkedAttrs : ItemKind -> Bool
  | .function _ _ _ _ _ _ => false
  | _ => true

/-- Whether an item of this kind can have an expansion of its own. -/
def ItemKind.isExpandable : ItemKind -> Bool
  | .function _ _ _ _ _ _ => true
  | .implementation _ _ => true
  | .traitDef _ _ _ _ => true
  | .module _ _ _ => true
  | .moduleFile _ _ => true
  | _ => false

namespace Stmt

/-- A block whose statements have been walked over, each with its mark: guarded,
unless it is evaluated at compile time. -/
def finishBlock (c : Context) (walked : List (Stmt × Bool)) :
    Report (List Stmt) :=
  let body := walked.map Prod.fst
  if c.inConst then pure body
  else
    match guardBlock c.runtime body (walked.map Prod.snd) with
    | .ok body => pure body
    | .error f => ⟨[], [f]⟩

def check (c : Context) (s : Stmt) : Report Unit :=
  match s with
  | .expr pos _ _ =>
      if c.inConst && s.isRegistration c.scope then
        Report.fault (.constContext pos)
      else pure ()
  | _ => pure ()

/-- Walk over a block and guard it, given the walk over its statements. -/
def walkBlock (c : Context) (body : List Stmt)
    (walk : Context -> Report (List (Stmt × Bool))) :
    Report (List Stmt) := do
  finishBlock c (← walk (c.inBlock body))

end Stmt

/-!
There is one function for each kind of place.  Lists are walked over from left
to right.
-/

mutual

def Attr.guarded (c : Context) : Attr -> Report Attr
  | .mk inner path args => do
      return .mk inner path (← partsGuarded c args)

def attrsGuarded (c : Context) : List Attr -> Report (List Attr)
  | [] => return []
  | a :: rest => do
      let a ← a.guarded c
      return a :: (← attrsGuarded c rest)

/-- Walk over a part.  A clause that stands behind a body is looked at
first. -/
def Part.guarded (c : Context) : Part -> Report Part
  | .token t => return .token t
  | .attr a => return .attr (← a.guarded c)
  | .expr e => return .expr (← e.guarded c)
  | .pat p => return .pat (← p.guarded c)
  | .clauseLast body clause => do
      let clause ← partsGuarded c clause
      return .clauseLast (← partsGuarded c body) clause

def partsGuarded (c : Context) : List Part -> Report (List Part)
  | [] => return []
  | p :: rest => do
      let p ← p.guarded c
      return p :: (← partsGuarded c rest)

def Segment.guarded (c : Context) : Segment -> Report Segment
  | .mk name args => return .mk name (← partsGuarded c args)

def segmentsGuarded (c : Context) : List Segment -> Report (List Segment)
  | [] => return []
  | s :: rest => do
      let s ← s.guarded c
      return s :: (← segmentsGuarded c rest)

def Path.guarded (c : Context) : Path -> Report Path
  | .mk absolute segments =>
      return .mk absolute (← segmentsGuarded c segments)

def Expr.guarded (c : Context) : Expr -> Report Expr
  | .mk attrs kind => do
      let c := c.inExpr kind
      let attrs ←
        (if kind.hasWalkedAttrs then attrsGuarded c attrs else pure attrs)
      return .mk attrs (← kind.guarded c)

/-- Walk over what an expression is made of.  A `let` in a condition binds for
the body, once the condition has been walked over, and the pattern of a `for`
loop for its body. -/
def ExprKind.guarded (c : Context) : ExprKind -> Report ExprKind
  | .path p => return .path (← p.guarded c)
  | .qualified parts => return .qualified (← partsGuarded c parts)
  | .call callee args => do
      let callee ← callee.guarded c
      return .call callee (← partsGuarded c args)
  | .closure binder marks inputs output body => do
      let binder ← partsGuarded c binder
      let inputs ← partsGuarded c inputs
      let output ← partsGuarded c output
      return .closure binder marks inputs output (← body.guarded c)
  | .paren inner => return .paren (← inner.guarded c)
  | .block style body => do
      let body ← Stmt.walkBlock c body fun c => stmtsGuarded c body
      return .block style body
  | .ifThen cond body => do
      let cond ← cond.guarded c
      let body ← Stmt.walkBlock (c.binding cond.conditionBinders) body
        fun c => stmtsGuarded c body
      return .ifThen cond body
  | .ifElse cond body orElse => do
      let cond ← cond.guarded c
      let body ← Stmt.walkBlock (c.binding cond.conditionBinders) body
        fun c => stmtsGuarded c body
      return .ifElse cond body (← orElse.guarded c)
  | .whileLoop label cond body => do
      let cond ← cond.guarded c
      let body ← Stmt.walkBlock (c.binding cond.conditionBinders) body
        fun c => stmtsGuarded c body
      return .whileLoop label cond body
  | .forLoop label pat source body => do
      let source ← source.guarded c
      return .forLoop label pat source
        (← Stmt.walkBlock (c.binding pat.binders) body
          fun c => stmtsGuarded c body)
  | .loop label body => do
      let body ← Stmt.walkBlock c body fun c => stmtsGuarded c body
      return .loop label body
  | .matchOn scrutinee arms => do
      let scrutinee ← scrutinee.guarded c
      return .matchOn scrutinee (← armsGuarded c arms)
  | .letCond pat scrutinee => do
      let pat ← pat.guarded c
      return .letCond pat (← scrutinee.guarded c)
  | .binary left op right => do
      let left ← left.guarded c
      return .binary left op (← right.guarded c)
  | .invocation m => return .invocation m
  | .ret value => return .ret (← partsGuarded c value)
  | .breakTo label value => return .breakTo label (← partsGuarded c value)
  | .continueTo label => return .continueTo label
  | .range parts => return .range (← partsGuarded c parts)
  | .data parts => return .data (← partsGuarded c parts)
  | .other parts => return .other (← partsGuarded c parts)

def Pat.guarded (c : Context) : Pat -> Report Pat
  | .binder before name sub =>
      return .binder before name (← partsGuarded c sub)
  | .compound parts => return .compound (← partsGuarded c parts)

/-- Walk over an arm, in the scope of its pattern. -/
def Arm.guarded (c : Context) : Arm -> Report Arm
  | .mk attrs pat guard body comma => do
      let c := c.binding pat.binders
      let attrs ← attrsGuarded c attrs
      let pat ← pat.guarded c
      let guard ← partsGuarded c guard
      return .mk attrs pat guard (← body.guarded c) comma

def armsGuarded (c : Context) : List Arm -> Report (List Arm)
  | [] => return []
  | a :: rest => do
      let a ← a.guarded c
      return a :: (← armsGuarded c rest)

def Stmt.guarded (c : Context) : Stmt -> Report Stmt
  | .binding attrs pat init => do
      let attrs ← attrsGuarded c attrs
      let pat ← pat.guarded c
      return .binding attrs pat (← partsGuarded c init)
  | .item i => return .item (← i.guarded c)
  | .expr pos e semi => return .expr pos (← e.guarded c) semi
  | .invocation attrs m semi =>
      return .invocation (← attrsGuarded c attrs) m semi

/-- Walk over statements and mark the registrations among them.  A statement is
judged before it is walked over, and a registration at compile time is a fault.
A declaration binds behind itself, as it is when it has been walked over. -/
def stmtsGuarded (c : Context) : List Stmt -> Report (List (Stmt × Bool))
  | [] => return []
  | s :: rest => do
      s.check c
      let walked ← s.guarded c
      return (walked, s.isRegistration c.scope) ::
        (← stmtsGuarded (c.afterStmt walked) rest)

/-- Walk over an item, unless it has an expansion of its own. -/
def Item.guarded (c : Context) : Item -> Report Item
  | .mk attrs kind => do
      if kind.isExpandable && hasOwnExpansion attrs then
        return .mk attrs kind
      else
        let c := c.inItem kind
        let attrs ←
          (if kind.hasWalkedAttrs then attrsGuarded c attrs else pure attrs)
        return .mk attrs (← kind.guarded c)

/-- Walk over what an item is made of.  The signature of a function is passed
over. -/
def ItemKind.guarded (c : Context) : ItemKind -> Report ItemKind
  | .function before isConst qualifiers name signature body =>
      return .function before isConst qualifiers name signature
        (← Stmt.walkBlock c body fun c => stmtsGuarded c body)
  | .constant before name after =>
      return .constant before name (← partsGuarded c after)
  | .implementation header members => do
      let header ← partsGuarded c header
      return .implementation header (← itemsGuarded c members)
  | .traitDef before name header members => do
      let header ← partsGuarded c header
      return .traitDef before name header (← itemsGuarded c members)
  | .module before name items =>
      return .module before name (← itemsGuarded c items)
  | .moduleFile before name => return .moduleFile before name
  | .imports before absolute tree => return .imports before absolute tree
  | .externCrate before name newName =>
      return .externCrate before name newName
  | .definition before name after =>
      return .definition before name (← partsGuarded c after)
  | .other parts => return .other (← partsGuarded c parts)

def itemsGuarded (c : Context) : List Item -> Report (List Item)
  | [] => return []
  | i :: rest => do
      let i ← i.guarded c
      return i :: (← itemsGuarded c rest)

end

end ScopeExit
