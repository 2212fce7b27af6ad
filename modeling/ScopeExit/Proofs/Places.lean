import ScopeExit.Guarding.Tree

/-!
# Places

The walk over an item comes to many places: statements, expressions, patterns,
types.  An *address* leads to one of them.  It says at every place which of the
places directly below it comes next.

What a name refers to at a place depends only on what lies on the way to it.
Every step of the way is a *crossing*, and the context of a place is that of the
root, changed by one crossing after the other.
-/

namespace ScopeExit

/-- What is passed between a place and one directly below it.  Most steps pass
nothing that matters to scopes.  Behind a `pattern` lies the arm or the loop body
that it binds for, behind a `condition` the body that it is the condition of,
and `behind` a statement the rest of its block. -/
inductive Crossing where
  | level
  | constant
  | closure (inputs : List Part)
  | pattern (pat : Pat)
  | condition (cond : Expr)
  | function (isConst : Bool) (signature : List Part)
  | boundary
  | module (items : List Item)
  | block (body : List Stmt)
  | behind (s : Stmt)

namespace Crossing

def locals : Crossing -> List String
  | closure inputs => partsBinders inputs
  | pattern pat => pat.binders
  | condition cond => cond.conditionBinders
  | function _ signature => partsBinders signature
  | behind (.binding _ pat _) => pat.binders
  | _ => []

end Crossing

namespace Context

/-- The context behind a crossing, before its local variables are bound. -/
def opened (c : Context) : Crossing -> Context
  | .level => c
  | .constant => c.withConst true
  | .closure _ => { c with scope := c.scope.push }
  | .pattern _ => { c with scope := c.scope.push }
  | .condition _ => { c with scope := c.scope.push }
  | .function isConst _ =>
      { c with scope := c.scope.pushBarrier
               inConst := c.inConst || isConst }
  | .boundary => { c with scope := c.scope.pushBarrier }
  | .module items =>
      { c with scope := c.scope.pushBarrier.declareItems items }
  | .block body => c.inBlock body
  | .behind _ => c

def cross (c : Context) (x : Crossing) : Context :=
  { c.opened x with scope := (c.opened x).scope.bindLocals x.locals }

def along (c : Context) (xs : List Crossing) : Context :=
  xs.foldl cross c

@[simp] theorem along_nil (c : Context) : c.along [] = c := rfl

@[simp] theorem along_cons (c : Context) (x : Crossing)
    (xs : List Crossing) : c.along (x :: xs) = (c.cross x).along xs := rfl

theorem along_append (c : Context) (xs ys : List Crossing) :
    c.along (xs ++ ys) = (c.along xs).along ys := by
  rw [along, List.foldl_append]
  rfl

theorem cross_behind (c : Context) (s : Stmt) :
    c.cross (.behind s) = c.afterStmt s := by
  cases s <;> rfl

@[simp] theorem runtime_opened (c : Context) (x : Crossing) :
    (c.opened x).runtime = c.runtime := by
  cases x <;> rfl

@[simp] theorem runtime_cross (c : Context) (x : Crossing) :
    (c.cross x).runtime = c.runtime :=
  runtime_opened c x

end Context

/-- What is passed on the way into an expression of this shape. -/
def ExprKind.crossing : ExprKind -> Crossing
  | .closure _ _ inputs _ _ => .closure inputs
  | .block .constBlock _ => .constant
  | _ => .level

/-- What is passed on the way into an item of this kind. -/
def ItemKind.crossing : ItemKind -> Crossing
  | .function _ isConst _ _ signature _ => .function isConst signature
  | .constant _ _ _ => .constant
  | .implementation _ _ => .boundary
  | .traitDef _ _ _ _ => .boundary
  | .module _ _ items => .module items
  | .moduleFile _ _ => .boundary
  | _ => .level

theorem ExprKind.cross_crossing (c : Context) (kind : ExprKind) :
    c.cross kind.crossing = c.inExpr kind := by
  cases kind with
  | block style body =>
      cases style <;> rfl
  | _ => rfl

theorem ItemKind.cross_crossing (c : Context) (kind : ItemKind) :
    c.cross kind.crossing = c.inItem kind := by
  cases kind <;> rfl

/-- A place that the walk can come to.  A list is a place of its own, below
which stand its first element and the rest. -/
inductive Node where
  | attr (a : Attr)
  | attrs (as : List Attr)
  | part (p : Part)
  | parts (ps : List Part)
  | segment (s : Segment)
  | segments (ss : List Segment)
  | path (p : Path)
  | expr (e : Expr)
  | kind (k : ExprKind)
  | pat (p : Pat)
  | arm (a : Arm)
  | arms (as : List Arm)
  | block (body : List Stmt)
  | stmt (s : Stmt)
  | stmts (ss : List Stmt)
  | item (i : Item)
  | items (is : List Item)
  | itemKind (k : ItemKind)

namespace Node

def onLevel (ns : List Node) : List (Crossing × Node) :=
  ns.map fun n => (.level, n)

def ofKind : ExprKind -> List (Crossing × Node)
  | .path p => onLevel [.path p]
  | .qualified ps => onLevel [.parts ps]
  | .call callee args => onLevel [.expr callee, .parts args]
  | .closure binder _ inputs output body =>
      onLevel [.parts binder, .parts inputs, .parts output, .expr body]
  | .paren inner => onLevel [.expr inner]
  | .block _ body => onLevel [.block body]
  | .ifThen cond body =>
      [(.level, .expr cond), (.condition cond, .block body)]
  | .ifElse cond body orElse =>
      [(.level, .expr cond), (.condition cond, .block body),
        (.level, .expr orElse)]
  | .whileLoop _ cond body =>
      [(.level, .expr cond), (.condition cond, .block body)]
  | .forLoop _ p source body =>
      [(.level, .expr source), (.pattern p, .block body)]
  | .loop _ body => onLevel [.block body]
  | .matchOn scrutinee as => onLevel [.expr scrutinee, .arms as]
  | .letCond p scrutinee => onLevel [.pat p, .expr scrutinee]
  | .binary left _ right => onLevel [.expr left, .expr right]
  | .invocation _ => []
  | .ret value => onLevel [.parts value]
  | .breakTo _ value => onLevel [.parts value]
  | .continueTo _ => []
  | .range ps => onLevel [.parts ps]
  | .data ps => onLevel [.parts ps]
  | .other ps => onLevel [.parts ps]

def ofStmt : Stmt -> List Node
  | .binding as p init => [.attrs as, .pat p, .parts init]
  | .item i => [.item i]
  | .expr _ e _ => [.expr e]
  | .invocation as _ _ => [.attrs as]

/-- The places below what an item is made of.  The signature of a function is
not among them. -/
def ofItemKind : ItemKind -> List Node
  | .function _ _ _ _ _ body => [.block body]
  | .constant _ _ after => [.parts after]
  | .implementation header members => [.parts header, .items members]
  | .traitDef _ _ header members => [.parts header, .items members]
  | .module _ _ is => [.items is]
  | .definition _ _ after => [.parts after]
  | .other ps => [.parts ps]
  | _ => []

/-- The places directly below a place, in the order of their numbers, each with
what is passed on the way to it. -/
def children : Node -> List (Crossing × Node)
  | .attr (.mk _ _ args) => onLevel [.parts args]
  | .attrs [] => []
  | .attrs (a :: rest) => onLevel [.attr a, .attrs rest]
  | .part (.token _) => []
  | .part (.attr a) => onLevel [.attr a]
  | .part (.expr e) => onLevel [.expr e]
  | .part (.pat p) => onLevel [.pat p]
  | .part (.clauseLast body clause) => onLevel [.parts body, .parts clause]
  | .parts [] => []
  | .parts (p :: rest) => onLevel [.part p, .parts rest]
  | .segment (.mk _ args) => onLevel [.parts args]
  | .segments [] => []
  | .segments (s :: rest) => onLevel [.segment s, .segments rest]
  | .path (.mk _ ss) => onLevel [.segments ss]
  | .expr (.mk as k) =>
      [(k.crossing, .attrs (if k.hasWalkedAttrs then as else [])),
        (k.crossing, .kind k)]
  | .kind k => ofKind k
  | .pat (.binder _ _ sub) => onLevel [.parts sub]
  | .pat (.compound ps) => onLevel [.parts ps]
  | .arm (.mk as p guard body _) =>
      [(.pattern p, .attrs as), (.pattern p, .pat p),
        (.pattern p, .parts guard), (.pattern p, .expr body)]
  | .arms [] => []
  | .arms (a :: rest) => onLevel [.arm a, .arms rest]
  | .block body => [(.block body, .stmts body)]
  | .stmt s => onLevel (ofStmt s)
  | .stmts [] => []
  | .stmts (s :: rest) => [(.level, .stmt s), (.behind s, .stmts rest)]
  | .item (.mk as k) =>
      if k.isExpandable && hasOwnExpansion as then []
      else
        [(k.crossing, .attrs (if k.hasWalkedAttrs then as else [])),
          (k.crossing, .itemKind k)]
  | .items [] => []
  | .items (i :: rest) => onLevel [.item i, .items rest]
  | .itemKind k => onLevel (ofItemKind k)

end Node

/-- The way down to a place: the number of the next place, again and again. -/
abbrev Address := List Nat

namespace Node

/-- The place at an address, with all that is passed on the way to it. -/
def visit? : Node -> Address -> Option (List Crossing × Node)
  | n, [] => some ([], n)
  | n, i :: a =>
      n.children[i]?.bind fun (x, m) =>
        (m.visit? a).map fun (xs, k) => (x :: xs, k)

theorem visit?_cons {n m : Node} {i : Nat} {x : Crossing}
    (h : n.children[i]? = some (x, m)) (a : Address) :
    n.visit? (i :: a) = (m.visit? a).map fun (xs, k) => (x :: xs, k) := by
  rw [visit?, h]
  rfl

theorem exists_child_of_visit? {n k : Node} {i : Nat} {a : Address}
    {xs : List Crossing} (h : n.visit? (i :: a) = some (xs, k)) :
    exists x m ys, n.children[i]? = some (x, m) ∧
      m.visit? a = some (ys, k) ∧ xs = x :: ys := by
  rw [visit?] at h
  rcases Option.bind_eq_some_iff.mp h with ⟨⟨x, m⟩, hchild, hmap⟩
  rcases Option.map_eq_some_iff.mp hmap with ⟨⟨ys, k'⟩, hvisit, heq⟩
  cases heq
  exact ⟨x, m, ys, hchild, hvisit, rfl⟩

/-!
A property of all places of a concrete tree can be decided.  The number bounds
how far down the places are looked at; below that there must be none.
-/

/-- Whether a test succeeds at a place and everywhere below it, if no place is
further down than the number says. -/
def holdsWithin (test : Node -> Bool) : Nat -> Node -> Bool
  | 0, _ => false
  | depth + 1, n =>
      test n && n.children.all fun (_, m) => m.holdsWithin test depth

theorem holds_of_holdsWithin {test : Node -> Bool} {depth : Nat} {n k : Node}
    {a : Address} {xs : List Crossing}
    (h : n.holdsWithin test depth = true)
    (hvisit : n.visit? a = some (xs, k)) : test k = true := by
  induction a generalizing n depth xs with
  | nil =>
      cases depth with
      | zero => cases h
      | succ depth =>
          cases hvisit
          exact (Bool.and_eq_true_iff.mp h).1
  | cons i a ih =>
      rcases exists_child_of_visit? hvisit with
        ⟨x, m, ys, hchild, hbelow, _⟩
      cases depth with
      | zero => cases h
      | succ depth =>
          have hall := (Bool.and_eq_true_iff.mp h).2
          have hm := List.all_eq_true.mp hall (x, m)
            (List.mem_of_getElem? hchild)
          exact ih hm hbelow

end Node

end ScopeExit
