import ScopeExit.Expansion
import ScopeExit.Proofs.Changes
import ScopeExit.Proofs.VisitOrder

/-!
# One stack for the whole walk

The walk hands its context down to every place.  It can as well keep one stack of
scopes and one count of the const contexts around it, enter a scope before a
place and leave it behind, and bind variables on the way.  Then whatever it does
at one place could be felt at the next.  It is not: every place is left with the
stack as it was found.
-/

namespace ScopeExit

/-!
## Inside a scope
-/

namespace ScopeStack

/-- Whether a stack is another one with exactly one more scope. -/
structure Inside (s base : ScopeStack) : Prop where
  runtime : s.runtime = base.runtime
  outer : s.outer = base.top :: base.outer

theorem Inside.pop_eq {s base : ScopeStack} (h : s.Inside base) :
    s.pop = base := by
  rcases s with ⟨runtime, top, outer⟩
  rcases h with ⟨hruntime, houter⟩
  dsimp only at hruntime houter
  rw [hruntime, houter]
  rfl

theorem inside_push (s : ScopeStack) : s.push.Inside s := ⟨rfl, rfl⟩

theorem inside_pushBarrier (s : ScopeStack) : s.pushBarrier.Inside s :=
  ⟨rfl, rfl⟩

theorem Inside.bindLocals {s base : ScopeStack} (h : s.Inside base)
    (names : List String) : (s.bindLocals names).Inside base := by
  induction names generalizing s with
  | nil => exact h
  | cons name rest ih => exact ih ⟨h.runtime, h.outer⟩

theorem Inside.declare {s base : ScopeStack} (h : s.Inside base)
    (d : Declaration) : (s.declare d).Inside base := by
  cases d with
  | glob path =>
      rw [ScopeStack.declare, bindGlob]
      split
      · exact ⟨h.runtime, h.outer⟩
      · exact h
  | _ => exact ⟨h.runtime, h.outer⟩

theorem Inside.declareItems {s base : ScopeStack} (h : s.Inside base)
    (items : List Item) : (s.declareItems items).Inside base := by
  rw [declareItems_eq]
  induction itemsDeclarations items generalizing s with
  | nil => exact h
  | cons d rest ih => exact ih (h.declare d)

theorem Inside.afterStmt {s base : ScopeStack} (h : s.Inside base)
    (x : Stmt) : (s.afterStmt x).Inside base := by
  cases x with
  | binding attrs pat init => exact h.bindLocals pat.binders
  | _ => exact h

def afterStmts (s : ScopeStack) (body : List Stmt) : ScopeStack :=
  body.foldl afterStmt s

theorem Inside.afterStmts {s base : ScopeStack} (h : s.Inside base)
    (body : List Stmt) : (s.afterStmts body).Inside base := by
  induction body generalizing s with
  | nil => exact h
  | cons x rest ih => exact ih (h.afterStmt x)

end ScopeStack

/-!
## Visits
-/

/-- The state of a walk that changes its scopes as it goes. -/
structure Visitor where
  runtime : Path
  scope : ScopeStack
  constDepth : Nat
  faults : List Fault

abbrev Visit (α : Type) : Type := StateM Visitor α

namespace Visitor

def start (runtime : Path) : Visitor := ⟨runtime, .root runtime, 0, []⟩

def context (v : Visitor) : Context :=
  ⟨v.runtime, v.scope, 0 < v.constDepth⟩

def withFaults (v : Visitor) (fs : List Fault) : Visitor :=
  { v with faults := v.faults ++ fs }

theorem withFaults_nil (v : Visitor) : v.withFaults [] = v := by
  rw [withFaults, List.append_nil]

theorem withFaults_withFaults (v : Visitor) (fs gs : List Fault) :
    (v.withFaults fs).withFaults gs = v.withFaults (fs ++ gs) := by
  simp only [withFaults, List.append_assoc]

end Visitor

namespace Visit

variable {α β : Type}

/-- What can be said of a place by looking at it from outside. -/
def report (r : Context -> Report α) : Visit α := fun v =>
  ((r v.context).value, v.withFaults (r v.context).faults)

/-- The same, with a change that is left behind in the stack of scopes. -/
def leaving (change : ScopeStack -> ScopeStack) (r : Context -> Report α) :
    Visit α := fun v =>
  ((r v.context).value,
    { v.withFaults (r v.context).faults with scope := change v.scope })

/-- A visit in a scope of its own, which is entered and left again. -/
def within (enter : ScopeStack -> ScopeStack) (visit : Visit α) : Visit α := do
  modify fun v => { v with scope := enter v.scope }
  let a ← visit
  modify fun v => { v with scope := v.scope.pop }
  return a

def constant (visit : Visit α) : Visit α := do
  modify fun v => { v with constDepth := v.constDepth + 1 }
  let a ← visit
  modify fun v => { v with constDepth := v.constDepth - 1 }
  return a

def binding (names : List String) (visit : Visit α) : Visit α :=
  within (fun s => s.push.bindLocals names) visit

def block (body : List Stmt) (visit : Visit (List (Stmt × Bool))) :
    Visit (List Stmt) := do
  let walked ← within (fun s => s.push.declareStmts body) visit
  report fun c => Stmt.finishBlock c walked

/-- Bind the variables of a declaration in the innermost scope. -/
def declare (s : Stmt) : Visit Unit :=
  modify fun v => { v with scope := v.scope.afterStmt s }

end Visit

/-!
A visit that tells nothing but what can be said from outside leaves the state as
it was, apart from the faults.  The rules below put such visits together; the
scope that was entered is the one that is left.
-/

namespace Visit

variable {α β : Type}

theorem pure_eq (a : α) : (pure a : Visit α) = report fun _ => pure a := by
  funext v
  have hnone : v.withFaults (pure a : Report α).faults = v :=
    v.withFaults_nil
  rw [report, hnone]
  rfl

theorem bind_eq (r : Context -> Report α) (f : α -> Context -> Report β) :
    (report r >>= fun a => report (f a)) =
      report fun c => r c >>= fun a => f a c := by
  funext v
  have hfaults := v.withFaults_withFaults (r v.context).faults
    (f (r v.context).value v.context).faults
  exact congrArg (fun w => ((f (r v.context).value v.context).value, w))
    hfaults

/-- A scope of its own is left with what was there before it was entered, if
only the innermost scope is changed in between. -/
theorem within_leaving {enter change : ScopeStack -> ScopeStack}
    (henter : forall s, (enter s).Inside s)
    (hchange : forall s base, s.Inside base -> (change s).Inside base)
    (r : Context -> Report α) :
    within enter (leaving change r) =
      report fun c => r { c with scope := enter c.scope } := by
  funext v
  let entered : Visitor := { v with scope := enter v.scope }
  have hpop : (change entered.scope).pop = v.scope :=
    (hchange entered.scope v.scope (henter v.scope)).pop_eq
  have hrun : within enter (leaving change r) v =
      ((r entered.context).value,
        { entered.withFaults (r entered.context).faults with
          scope := (change entered.scope).pop }) := rfl
  rw [hrun, hpop]
  rfl

theorem within_report {enter : ScopeStack -> ScopeStack}
    (henter : forall s, (enter s).Inside s) (r : Context -> Report α) :
    within enter (report r) =
      report fun c => r { c with scope := enter c.scope } :=
  within_leaving henter (fun _ _ h => h) r

theorem constant_report (r : Context -> Report α) :
    constant (report r) = report fun c => r (c.withConst true) := by
  funext v
  have hcontext : Visitor.context { v with constDepth := v.constDepth + 1 } =
      v.context.withConst true := by
    simp [Visitor.context, Context.withConst]
  have hrun : constant (report r) v =
      ((r (Visitor.context { v with constDepth := v.constDepth + 1 })).value,
        v.withFaults (r (Visitor.context
          { v with constDepth := v.constDepth + 1 })).faults) := rfl
  rw [hrun, hcontext]
  rfl

theorem binding_report (names : List String) (r : Context -> Report α) :
    binding names (report r) = report fun c => r (c.binding names) :=
  within_report (fun s => s.inside_push.bindLocals names) r

end Visit

/-!
## The walk with one stack
-/

def ExprKind.entering {α : Type} (k : ExprKind) (visit : Visit α) : Visit α :=
  match k with
  | .closure _ _ inputs _ _ => Visit.binding (partsBinders inputs) visit
  | .block .constBlock _ => Visit.constant visit
  | _ => visit

def ItemKind.entering {α : Type} (k : ItemKind) (visit : Visit α) : Visit α :=
  match k with
  | .function _ isConst _ _ signature _ =>
      Visit.within
        (fun s => s.pushBarrier.bindLocals (partsBinders signature))
        (if isConst then Visit.constant visit else visit)
  | .constant _ _ _ => Visit.constant visit
  | .implementation _ _ => Visit.within ScopeStack.pushBarrier visit
  | .traitDef _ _ _ _ => Visit.within ScopeStack.pushBarrier visit
  | .module _ _ items =>
      Visit.within (fun s => s.pushBarrier.declareItems items) visit
  | .moduleFile _ _ => Visit.within ScopeStack.pushBarrier visit
  | _ => visit

mutual

def Attr.visited : Attr -> Visit Attr
  | .mk inner path args => do
      return .mk inner path (← partsVisited args)

def attrsVisited : List Attr -> Visit (List Attr)
  | [] => return []
  | a :: rest => do
      let a ← a.visited
      return a :: (← attrsVisited rest)

def Part.visited : Part -> Visit Part
  | .token t => return .token t
  | .attr a => return .attr (← a.visited)
  | .expr e => return .expr (← e.visited)
  | .pat p => return .pat (← p.visited)
  | .clauseLast body clause => do
      let clause ← partsVisited clause
      return .clauseLast (← partsVisited body) clause

def partsVisited : List Part -> Visit (List Part)
  | [] => return []
  | p :: rest => do
      let p ← p.visited
      return p :: (← partsVisited rest)

def Segment.visited : Segment -> Visit Segment
  | .mk name args => return .mk name (← partsVisited args)

def segmentsVisited : List Segment -> Visit (List Segment)
  | [] => return []
  | s :: rest => do
      let s ← s.visited
      return s :: (← segmentsVisited rest)

def Path.visited : Path -> Visit Path
  | .mk absolute segments =>
      return .mk absolute (← segmentsVisited segments)

def Expr.visited : Expr -> Visit Expr
  | .mk attrs kind => kind.entering do
      let attrs ←
        (if kind.hasWalkedAttrs then attrsVisited attrs else pure attrs)
      return .mk attrs (← kind.visited)

def ExprKind.visited : ExprKind -> Visit ExprKind
  | .path p => return .path (← p.visited)
  | .qualified parts => return .qualified (← partsVisited parts)
  | .call callee args => do
      let callee ← callee.visited
      return .call callee (← partsVisited args)
  | .closure binder marks inputs output body => do
      let binder ← partsVisited binder
      let inputs ← partsVisited inputs
      let output ← partsVisited output
      return .closure binder marks inputs output (← body.visited)
  | .paren inner => return .paren (← inner.visited)
  | .block style body => do
      return .block style (← Visit.block body (stmtsVisited body))
  | .ifThen cond body => do
      let cond ← cond.visited
      let body ← Visit.binding cond.conditionBinders
        (Visit.block body (stmtsVisited body))
      return .ifThen cond body
  | .ifElse cond body orElse => do
      let cond ← cond.visited
      let body ← Visit.binding cond.conditionBinders
        (Visit.block body (stmtsVisited body))
      return .ifElse cond body (← orElse.visited)
  | .whileLoop label cond body => do
      let cond ← cond.visited
      let body ← Visit.binding cond.conditionBinders
        (Visit.block body (stmtsVisited body))
      return .whileLoop label cond body
  | .forLoop label pat source body => do
      let source ← source.visited
      let body ← Visit.binding pat.binders
        (Visit.block body (stmtsVisited body))
      return .forLoop label pat source body
  | .loop label body => do
      return .loop label (← Visit.block body (stmtsVisited body))
  | .matchOn scrutinee arms => do
      let scrutinee ← scrutinee.visited
      return .matchOn scrutinee (← armsVisited arms)
  | .letCond pat scrutinee => do
      let pat ← pat.visited
      return .letCond pat (← scrutinee.visited)
  | .binary left op right => do
      let left ← left.visited
      return .binary left op (← right.visited)
  | .invocation m => return .invocation m
  | .ret value => return .ret (← partsVisited value)
  | .breakTo label value => return .breakTo label (← partsVisited value)
  | .continueTo label => return .continueTo label
  | .range parts => return .range (← partsVisited parts)
  | .data parts => return .data (← partsVisited parts)
  | .other parts => return .other (← partsVisited parts)

def Pat.visited : Pat -> Visit Pat
  | .binder before name sub =>
      return .binder before name (← partsVisited sub)
  | .compound parts => return .compound (← partsVisited parts)

def Arm.visited : Arm -> Visit Arm
  | .mk attrs pat guard body comma => Visit.binding pat.binders do
      let attrs ← attrsVisited attrs
      let pat ← pat.visited
      let guard ← partsVisited guard
      return .mk attrs pat guard (← body.visited) comma

def armsVisited : List Arm -> Visit (List Arm)
  | [] => return []
  | a :: rest => do
      let a ← a.visited
      return a :: (← armsVisited rest)

def Stmt.visited : Stmt -> Visit Stmt
  | .binding attrs pat init => do
      let attrs ← attrsVisited attrs
      let pat ← pat.visited
      return .binding attrs pat (← partsVisited init)
  | .item i => return .item (← i.visited)
  | .expr pos e semi => return .expr pos (← e.visited) semi
  | .invocation attrs m semi =>
      return .invocation (← attrsVisited attrs) m semi

/-- Visit the statements of a block.  A declaration binds its variables in the
scope of the block, which is left with them. -/
def stmtsVisited : List Stmt -> Visit (List (Stmt × Bool))
  | [] => return []
  | s :: rest => do
      let mark ← Visit.report fun c => do
        s.check c
        return s.isRegistration c.scope
      let walked ← s.visited
      Visit.declare walked
      return (walked, mark) :: (← stmtsVisited rest)

def Item.visited : Item -> Visit Item
  | .mk attrs kind =>
      if kind.isExpandable && hasOwnExpansion attrs then
        return .mk attrs kind
      else kind.entering do
        let attrs ←
          (if kind.hasWalkedAttrs then attrsVisited attrs else pure attrs)
        return .mk attrs (← kind.visited)

def ItemKind.visited : ItemKind -> Visit ItemKind
  | .function before isConst qualifiers name signature body =>
      return .function before isConst qualifiers name signature
        (← Visit.block body (stmtsVisited body))
  | .constant before name after =>
      return .constant before name (← partsVisited after)
  | .implementation header members => do
      let header ← partsVisited header
      return .implementation header (← itemsVisited members)
  | .traitDef before name header members => do
      let header ← partsVisited header
      return .traitDef before name header (← itemsVisited members)
  | .module before name items =>
      return .module before name (← itemsVisited items)
  | .moduleFile before name => return .moduleFile before name
  | .imports before absolute tree => return .imports before absolute tree
  | .externCrate before name newName =>
      return .externCrate before name newName
  | .definition before name after =>
      return .definition before name (← partsVisited after)
  | .other parts => return .other (← partsVisited parts)

def itemsVisited : List Item -> Visit (List Item)
  | [] => return []
  | i :: rest => do
      let i ← i.visited
      return i :: (← itemsVisited rest)

end

/-!
## Every place is left as it was found
-/

theorem ExprKind.entering_report {α : Type} (k : ExprKind)
    (r : Context -> Report α) :
    k.entering (Visit.report r) = Visit.report fun c => r (c.inExpr k) := by
  cases k with
  | closure binder marks inputs output body =>
      exact Visit.binding_report (partsBinders inputs) r
  | block style body =>
      cases style with
      | constBlock => exact Visit.constant_report r
      | _ => rfl
  | _ => rfl

theorem ItemKind.entering_report {α : Type} (k : ItemKind)
    (r : Context -> Report α) :
    k.entering (Visit.report r) = Visit.report fun c => r (c.inItem k) := by
  cases k with
  | function before isConst qualifiers name signature body =>
      have hbody : (if isConst then Visit.constant (Visit.report r)
          else Visit.report r) =
            Visit.report fun c => r (c.withConst isConst) := by
        cases isConst with
        | true => exact Visit.constant_report r
        | false =>
            simp only [Bool.false_eq_true, if_false, Context.withConst,
              Bool.or_false]
      rw [entering, hbody]
      exact Visit.within_report
        (fun s => s.inside_pushBarrier.bindLocals (partsBinders signature)) _
  | constant before name after => exact Visit.constant_report r
  | implementation header members =>
      exact Visit.within_report ScopeStack.inside_pushBarrier r
  | traitDef before name header members =>
      exact Visit.within_report ScopeStack.inside_pushBarrier r
  | module before name items =>
      exact Visit.within_report
        (fun s => s.inside_pushBarrier.declareItems items) r
  | _ => rfl

theorem Visit.block_report {body : List Stmt}
    (h : stmtsVisited body =
      Visit.leaving (fun s => s.afterStmts body) fun c =>
        stmtsGuarded c body) :
    Visit.block body (stmtsVisited body) =
      Visit.report fun c =>
        Stmt.walkBlock c body fun c => stmtsGuarded c body := by
  have hwithin := Visit.within_leaving
    (fun s => s.inside_push.declareItems (ScopeStack.itemsOf body))
    (fun _ _ hs => hs.afterStmts body) fun c => stmtsGuarded c body
  rw [Visit.block, h]
  refine (congrArg (fun visit => visit >>= _) hwithin).trans ?_
  exact Visit.bind_eq _ _

mutual

theorem Attr.visited_eq (a : Attr) :
    a.visited = Visit.report fun c => a.guarded c := by
  rcases a with ⟨inner, path, args⟩
  simp only [Attr.visited, partsVisited_eq args, Visit.pure_eq, Visit.bind_eq]
  rfl

theorem attrsVisited_eq (as : List Attr) :
    attrsVisited as = Visit.report fun c => attrsGuarded c as := by
  cases as with
  | nil => exact Visit.pure_eq []
  | cons a rest =>
      simp only [attrsVisited, a.visited_eq, attrsVisited_eq rest,
        Visit.pure_eq, Visit.bind_eq]
      rfl

theorem Part.visited_eq (p : Part) :
    p.visited = Visit.report fun c => p.guarded c := by
  cases p with
  | token t => exact Visit.pure_eq _
  | attr x | expr x | pat x =>
      simp only [Part.visited, x.visited_eq, Visit.pure_eq, Visit.bind_eq]
      rfl
  | clauseLast body clause =>
      simp only [Part.visited, partsVisited_eq clause, partsVisited_eq body,
        Visit.pure_eq, Visit.bind_eq]
      rfl

theorem partsVisited_eq (ps : List Part) :
    partsVisited ps = Visit.report fun c => partsGuarded c ps := by
  cases ps with
  | nil => exact Visit.pure_eq []
  | cons p rest =>
      simp only [partsVisited, p.visited_eq, partsVisited_eq rest,
        Visit.pure_eq, Visit.bind_eq]
      rfl

theorem Segment.visited_eq (s : Segment) :
    s.visited = Visit.report fun c => s.guarded c := by
  rcases s with ⟨name, args⟩
  simp only [Segment.visited, partsVisited_eq args, Visit.pure_eq,
    Visit.bind_eq]
  rfl

theorem segmentsVisited_eq (ss : List Segment) :
    segmentsVisited ss = Visit.report fun c => segmentsGuarded c ss := by
  cases ss with
  | nil => exact Visit.pure_eq []
  | cons s rest =>
      simp only [segmentsVisited, s.visited_eq, segmentsVisited_eq rest,
        Visit.pure_eq, Visit.bind_eq]
      rfl

theorem Path.visited_eq (p : Path) :
    p.visited = Visit.report fun c => p.guarded c := by
  rcases p with ⟨absolute, segments⟩
  simp only [Path.visited, segmentsVisited_eq segments, Visit.pure_eq,
    Visit.bind_eq]
  rfl

theorem Expr.visited_eq (e : Expr) :
    e.visited = Visit.report fun c => e.guarded c := by
  rcases e with ⟨attrs, kind⟩
  have hattrs : (if kind.hasWalkedAttrs then attrsVisited attrs
      else pure attrs) = Visit.report fun c =>
        if kind.hasWalkedAttrs then attrsGuarded c attrs else pure attrs := by
    split
    · exact attrsVisited_eq attrs
    · exact Visit.pure_eq attrs
  rw [Expr.visited, hattrs]
  simp only [kind.visited_eq, Visit.pure_eq, Visit.bind_eq,
    ExprKind.entering_report]
  rfl

theorem ExprKind.visited_eq (k : ExprKind) :
    k.visited = Visit.report fun c => k.guarded c := by
  cases k with
  | path p =>
      simp only [ExprKind.visited, p.visited_eq, Visit.pure_eq, Visit.bind_eq]
      rfl
  | qualified parts | ret parts | breakTo label parts | range parts
  | data parts | other parts =>
      simp only [ExprKind.visited, partsVisited_eq parts, Visit.pure_eq,
        Visit.bind_eq]
      rfl
  | call callee args =>
      simp only [ExprKind.visited, callee.visited_eq, partsVisited_eq args,
        Visit.pure_eq, Visit.bind_eq]
      rfl
  | closure binder marks inputs output body =>
      simp only [ExprKind.visited, partsVisited_eq binder,
        partsVisited_eq inputs, partsVisited_eq output, body.visited_eq,
        Visit.pure_eq, Visit.bind_eq]
      rfl
  | paren inner =>
      simp only [ExprKind.visited, inner.visited_eq, Visit.pure_eq,
        Visit.bind_eq]
      rfl
  | block label body | loop label body =>
      simp only [ExprKind.visited, Visit.block_report (stmtsVisited_eq body),
        Visit.pure_eq, Visit.bind_eq]
      rfl
  | ifThen cond body | whileLoop label cond body =>
      simp only [ExprKind.visited, cond.visited_eq,
        Visit.block_report (stmtsVisited_eq body), Visit.binding_report,
        Visit.pure_eq, Visit.bind_eq]
      rfl
  | ifElse cond body orElse =>
      simp only [ExprKind.visited, cond.visited_eq, orElse.visited_eq,
        Visit.block_report (stmtsVisited_eq body), Visit.binding_report,
        Visit.pure_eq, Visit.bind_eq]
      rfl
  | forLoop label pat source body =>
      simp only [ExprKind.visited, source.visited_eq,
        Visit.block_report (stmtsVisited_eq body), Visit.binding_report,
        Visit.pure_eq, Visit.bind_eq]
      rfl
  | matchOn scrutinee arms =>
      simp only [ExprKind.visited, scrutinee.visited_eq, armsVisited_eq arms,
        Visit.pure_eq, Visit.bind_eq]
      rfl
  | letCond pat scrutinee =>
      simp only [ExprKind.visited, pat.visited_eq, scrutinee.visited_eq,
        Visit.pure_eq, Visit.bind_eq]
      rfl
  | binary left op right =>
      simp only [ExprKind.visited, left.visited_eq, right.visited_eq,
        Visit.pure_eq, Visit.bind_eq]
      rfl
  | invocation m | continueTo m => exact Visit.pure_eq _

theorem Pat.visited_eq (p : Pat) :
    p.visited = Visit.report fun c => p.guarded c := by
  cases p with
  | binder before name parts | compound parts =>
      simp only [Pat.visited, partsVisited_eq parts, Visit.pure_eq,
        Visit.bind_eq]
      rfl

theorem Arm.visited_eq (a : Arm) :
    a.visited = Visit.report fun c => a.guarded c := by
  rcases a with ⟨attrs, pat, guard, body, comma⟩
  simp only [Arm.visited, attrsVisited_eq attrs, pat.visited_eq,
    partsVisited_eq guard, body.visited_eq, Visit.pure_eq, Visit.bind_eq,
    Visit.binding_report]
  rfl

theorem armsVisited_eq (as : List Arm) :
    armsVisited as = Visit.report fun c => armsGuarded c as := by
  cases as with
  | nil => exact Visit.pure_eq []
  | cons a rest =>
      simp only [armsVisited, a.visited_eq, armsVisited_eq rest,
        Visit.pure_eq, Visit.bind_eq]
      rfl

theorem Stmt.visited_eq (s : Stmt) :
    s.visited = Visit.report fun c => s.guarded c := by
  cases s with
  | binding attrs pat init =>
      simp only [Stmt.visited, attrsVisited_eq attrs, pat.visited_eq,
        partsVisited_eq init, Visit.pure_eq, Visit.bind_eq]
      rfl
  | item i =>
      simp only [Stmt.visited, i.visited_eq, Visit.pure_eq, Visit.bind_eq]
      rfl
  | expr pos e semi =>
      simp only [Stmt.visited, e.visited_eq, Visit.pure_eq, Visit.bind_eq]
      rfl
  | invocation attrs m semi =>
      simp only [Stmt.visited, attrsVisited_eq attrs, Visit.pure_eq,
        Visit.bind_eq]
      rfl

theorem stmtsVisited_eq (ss : List Stmt) :
    stmtsVisited ss =
      Visit.leaving (fun s => s.afterStmts ss) fun c =>
        stmtsGuarded c ss := by
  funext v
  cases ss with
  | nil =>
      rw [stmtsVisited, Visit.pure_eq]
      rfl
  | cons s rest =>
      let c := v.context
      let mark : Report Bool := do
        s.check c
        return s.isRegistration c.scope
      let walked := s.guarded c
      let behind : Visitor :=
        { (v.withFaults mark.faults).withFaults walked.faults with
          scope := v.scope.afterStmt walked.value }
      have hrun : stmtsVisited (s :: rest) v =
          ((walked.value, mark.value) :: (stmtsVisited rest behind).1,
            (stmtsVisited rest behind).2) := by
        rw [stmtsVisited, s.visited_eq]
        rfl
      have hfaults : (stmtsGuarded c (s :: rest)).faults =
          mark.faults ++ walked.faults ++
            (stmtsGuarded behind.context rest).faults := by
        have hbehind : behind.context = c.afterStmt walked.value := rfl
        simp [stmtsGuarded, mark, walked, hbehind]
      -- The walk does not change what a pattern binds.
      have hscope : behind.scope = v.scope.afterStmt s :=
        congrArg Context.scope (Context.afterStmt_guarded c c s)
      have hvisited := Visitor.withFaults_withFaults
      rw [hrun, stmtsVisited_eq rest, Visit.leaving, Visit.leaving, hfaults,
        ← hvisited, ← hvisited]
      simp only [hscope]
      rfl

theorem Item.visited_eq (i : Item) :
    i.visited = Visit.report fun c => i.guarded c := by
  rcases i with ⟨attrs, kind⟩
  have hattrs : (if kind.hasWalkedAttrs then attrsVisited attrs
      else pure attrs) = Visit.report fun c =>
        if kind.hasWalkedAttrs then attrsGuarded c attrs else pure attrs := by
    split
    · exact attrsVisited_eq attrs
    · exact Visit.pure_eq attrs
  rw [Item.visited, hattrs]
  simp only [kind.visited_eq, Visit.pure_eq, Visit.bind_eq,
    ItemKind.entering_report, Item.guarded]
  split <;> rfl

theorem ItemKind.visited_eq (k : ItemKind) :
    k.visited = Visit.report fun c => k.guarded c := by
  cases k with
  | function before isConst qualifiers name signature body =>
      simp only [ItemKind.visited, Visit.block_report (stmtsVisited_eq body),
        Visit.pure_eq, Visit.bind_eq]
      rfl
  | implementation header members | traitDef before name header members =>
      simp only [ItemKind.visited, partsVisited_eq header,
        itemsVisited_eq members, Visit.pure_eq, Visit.bind_eq]
      rfl
  | module before name items =>
      simp only [ItemKind.visited, itemsVisited_eq items, Visit.pure_eq,
        Visit.bind_eq]
      rfl
  | moduleFile before name | imports before absolute tree
  | externCrate before name newName => exact Visit.pure_eq _
  | constant before name parts | definition before name parts | other parts =>
      simp only [ItemKind.visited, partsVisited_eq parts, Visit.pure_eq,
        Visit.bind_eq]
      rfl

theorem itemsVisited_eq (is : List Item) :
    itemsVisited is = Visit.report fun c => itemsGuarded c is := by
  cases is with
  | nil => exact Visit.pure_eq []
  | cons i rest =>
      simp only [itemsVisited, i.visited_eq, itemsVisited_eq rest,
        Visit.pure_eq, Visit.bind_eq]
      rfl

end

/-- With one stack from beginning to end the walk finds and changes what it does
with contexts that are handed down. -/
theorem Item.visited_start (runtime : SimplePath) (i : Item) :
    i.visited (.start runtime.toPath) =
      ((i.guardedAt runtime).value,
        (Visitor.start runtime.toPath).withFaults
          (i.guardedAt runtime).faults) := by
  rw [i.visited_eq]
  rfl

namespace Node

/-- A visit to a place, with the judgement of a statement in front. -/
def visited : Node -> Visit Node
  | .attr a => return .attr (← a.visited)
  | .attrs as => return .attrs (← attrsVisited as)
  | .part p => return .part (← p.visited)
  | .parts ps => return .parts (← partsVisited ps)
  | .segment s => return .segment (← s.visited)
  | .segments ss => return .segments (← segmentsVisited ss)
  | .path p => return .path (← p.visited)
  | .expr e => return .expr (← e.visited)
  | .kind k => return .kind (← k.visited)
  | .pat p => return .pat (← p.visited)
  | .arm a => return .arm (← a.visited)
  | .arms as => return .arms (← armsVisited as)
  | .block body => return .block (← Visit.block body (stmtsVisited body))
  | .stmt s => do
      Visit.report s.check
      return .stmt (← s.visited)
  | .stmts ss => return .stmts ((← stmtsVisited ss).map Prod.fst)
  | .item i => return .item (← i.visited)
  | .items is => return .items (← itemsVisited is)
  | .itemKind k => return .itemKind (← k.visited)

/-- The stack behind a place.  Only what is left of a block in the middle of it
binds there what its statements bind; every other place leaves it as it is. -/
def scopeBehind (s : ScopeStack) : Node -> ScopeStack
  | .stmts ss => s.afterStmts ss
  | _ => s

theorem visited_eq (n : Node) :
    n.visited = Visit.leaving (fun s => n.scopeBehind s) fun c =>
      n.guarded c := by
  cases n with
  | attr x | part x | segment x | path x | expr x | kind x | pat x | arm x
  | stmt x | item x | itemKind x =>
      simp only [visited, x.visited_eq, Visit.pure_eq, Visit.bind_eq]
      rfl
  | attrs as =>
      simp only [visited, attrsVisited_eq as, Visit.pure_eq, Visit.bind_eq]
      rfl
  | parts ps =>
      simp only [visited, partsVisited_eq ps, Visit.pure_eq, Visit.bind_eq]
      rfl
  | segments ss =>
      simp only [visited, segmentsVisited_eq ss, Visit.pure_eq, Visit.bind_eq]
      rfl
  | arms as =>
      simp only [visited, armsVisited_eq as, Visit.pure_eq, Visit.bind_eq]
      rfl
  | items is =>
      simp only [visited, itemsVisited_eq is, Visit.pure_eq, Visit.bind_eq]
      rfl
  | block body =>
      simp only [visited, Visit.block_report (stmtsVisited_eq body),
        Visit.pure_eq, Visit.bind_eq]
      rfl
  | stmts ss =>
      funext v
      rw [visited, stmtsVisited_eq ss]
      simp only [guarded, Visit.leaving, Report.faults_bind,
        Report.faults_pure, List.append_nil]
      rfl

end Node

end ScopeExit
