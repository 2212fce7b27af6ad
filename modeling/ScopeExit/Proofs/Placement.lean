import ScopeExit.Proofs.Places
import ScopeExit.Guarding.Block

/-!
# Placing guards by a plan

What the walk does to an item can be described without the walk.  A *plan* says
at which addresses statements are to be replaced by guards.  Carrying it out
replaces all of them at once, and binds the values of the blocks that they stand
in.  Nothing is judged on the way, and nothing is bound in scopes.
-/

namespace ScopeExit

/-!
## What is to be replaced
-/

/-- What is to become of an item: the path of the runtime, and the addresses of
the statements that guards replace. -/
structure Plan where
  runtime : Path
  replaced : Address -> Bool

namespace Plan

def below (p : Plan) (i : Nat) : Plan where
  runtime := p.runtime
  replaced a := p.replaced (i :: a)

def hasGuards (p : Plan) : List Stmt -> Bool
  | [] => false
  | _ :: rest => p.replaced [0] || (p.below 1).hasGuards rest

/-- The statements in place of those of a block, given how they are placed in a
block that has guards and in one that has none. -/
def block (p : Plan) (body : List Stmt) (place : Bool -> List Stmt) :
    List Stmt :=
  place ((p.below 0).hasGuards body)

end Plan

namespace Node

/-- Whether the statement at an address of an untouched tree is a
registration. -/
def registers (c : Context) (n : Node) (a : Address) : Bool :=
  match n.visit? a with
  | some (xs, .stmt s) => s.isRegistration (c.along xs).scope
  | _ => false

def isConstAt (c : Context) (n : Node) (a : Address) : Bool :=
  match n.visit? a with
  | some (xs, _) => (c.along xs).inConst
  | none => false

/-- The plan of a tree: guards replace the registrations that are not evaluated
at compile time. -/
def plan (c : Context) (n : Node) : Plan where
  runtime := c.runtime
  replaced a := n.registers c a && !n.isConstAt c a

end Node

/-!
## Replacing
-/

namespace Stmt

def asGuard (runtime : Path) (s : Stmt) : Stmt :=
  match Registration.ofStmt? s with
  | some r => r.guard runtime
  | none => s

/-- Whether a statement at the end of a block is its value, which has to be bound
in front of guards. -/
def isValue : Stmt -> Bool
  | .expr _ e false => e.needsBinding
  | _ => false

/-- The statements that bind the value of a block and give it back. -/
def bound : Stmt -> List Stmt
  | .expr pos e semi =>
      [.binding [] (.binder [] resultName [])
          [.token (.punct '='), .expr e.grouped],
        .expr pos (.ofIdent resultName) semi]
  | s => [s]

end Stmt

/-!
All decisions below are about the untouched tree: which statement is replaced,
whether a block has guards, and whether its last statement is a value.
-/

mutual

def Attr.placed (p : Plan) : Attr -> Attr
  | .mk inner path args =>
      .mk inner path (partsPlaced (p.below 0) args)

def attrsPlaced (p : Plan) : List Attr -> List Attr
  | [] => []
  | a :: rest =>
      a.placed (p.below 0) :: attrsPlaced (p.below 1) rest

def Part.placed (p : Plan) : Part -> Part
  | .token t => .token t
  | .attr a => .attr (a.placed (p.below 0))
  | .expr e => .expr (e.placed (p.below 0))
  | .pat q => .pat (q.placed (p.below 0))
  | .clauseLast body clause =>
      .clauseLast (partsPlaced (p.below 0) body)
        (partsPlaced (p.below 1) clause)

def partsPlaced (p : Plan) : List Part -> List Part
  | [] => []
  | q :: rest =>
      q.placed (p.below 0) :: partsPlaced (p.below 1) rest

def Segment.placed (p : Plan) : Segment -> Segment
  | .mk name args => .mk name (partsPlaced (p.below 0) args)

def segmentsPlaced (p : Plan) : List Segment -> List Segment
  | [] => []
  | s :: rest =>
      s.placed (p.below 0) :: segmentsPlaced (p.below 1) rest

def Path.placed (p : Plan) : Path -> Path
  | .mk absolute segments =>
      .mk absolute (segmentsPlaced (p.below 0) segments)

def Expr.placed (p : Plan) : Expr -> Expr
  | .mk attrs kind =>
      .mk (if kind.hasWalkedAttrs then attrsPlaced (p.below 0) attrs
          else attrs)
        (kind.placed (p.below 1))

def ExprKind.placed (p : Plan) : ExprKind -> ExprKind
  | .path q => .path (q.placed (p.below 0))
  | .qualified parts => .qualified (partsPlaced (p.below 0) parts)
  | .call callee args =>
      .call (callee.placed (p.below 0))
        (partsPlaced (p.below 1) args)
  | .closure binder marks inputs output body =>
      .closure (partsPlaced (p.below 0) binder) marks
        (partsPlaced (p.below 1) inputs)
        (partsPlaced (p.below 2) output)
        (body.placed (p.below 3))
  | .paren inner => .paren (inner.placed (p.below 0))
  | .block style body =>
      .block style ((p.below 0).block body fun guarded =>
        stmtsPlaced ((p.below 0).below 0) guarded body)
  | .ifThen cond body =>
      .ifThen (cond.placed (p.below 0))
        ((p.below 1).block body fun guarded =>
          stmtsPlaced ((p.below 1).below 0) guarded body)
  | .ifElse cond body orElse =>
      .ifElse (cond.placed (p.below 0))
        ((p.below 1).block body fun guarded =>
          stmtsPlaced ((p.below 1).below 0) guarded body)
        (orElse.placed (p.below 2))
  | .whileLoop label cond body =>
      .whileLoop label (cond.placed (p.below 0))
        ((p.below 1).block body fun guarded =>
          stmtsPlaced ((p.below 1).below 0) guarded body)
  | .forLoop label pat source body =>
      .forLoop label pat (source.placed (p.below 0))
        ((p.below 1).block body fun guarded =>
          stmtsPlaced ((p.below 1).below 0) guarded body)
  | .loop label body =>
      .loop label ((p.below 0).block body fun guarded =>
        stmtsPlaced ((p.below 0).below 0) guarded body)
  | .matchOn scrutinee arms =>
      .matchOn (scrutinee.placed (p.below 0))
        (armsPlaced (p.below 1) arms)
  | .letCond pat scrutinee =>
      .letCond (pat.placed (p.below 0))
        (scrutinee.placed (p.below 1))
  | .binary left op right =>
      .binary (left.placed (p.below 0)) op
        (right.placed (p.below 1))
  | .invocation m => .invocation m
  | .ret value => .ret (partsPlaced (p.below 0) value)
  | .breakTo label value =>
      .breakTo label (partsPlaced (p.below 0) value)
  | .continueTo label => .continueTo label
  | .range parts => .range (partsPlaced (p.below 0) parts)
  | .data parts => .data (partsPlaced (p.below 0) parts)
  | .other parts => .other (partsPlaced (p.below 0) parts)

def Pat.placed (p : Plan) : Pat -> Pat
  | .binder before name sub =>
      .binder before name (partsPlaced (p.below 0) sub)
  | .compound parts => .compound (partsPlaced (p.below 0) parts)

def Arm.placed (p : Plan) : Arm -> Arm
  | .mk attrs pat guard body comma =>
      .mk (attrsPlaced (p.below 0) attrs)
        (pat.placed (p.below 1))
        (partsPlaced (p.below 2) guard)
        (body.placed (p.below 3)) comma

def armsPlaced (p : Plan) : List Arm -> List Arm
  | [] => []
  | a :: rest =>
      a.placed (p.below 0) :: armsPlaced (p.below 1) rest

/-- A statement as planned, where no guard replaces it. -/
def Stmt.placed (p : Plan) : Stmt -> Stmt
  | .binding attrs pat init =>
      .binding (attrsPlaced (p.below 0) attrs)
        (pat.placed (p.below 1))
        (partsPlaced (p.below 2) init)
  | .item i => .item (i.placed (p.below 0))
  | .expr pos e semi => .expr pos (e.placed (p.below 0)) semi
  | .invocation attrs m semi =>
      .invocation (attrsPlaced (p.below 0) attrs) m semi

/-- The statements of a block as planned, where the block has guards or not. -/
def stmtsPlaced (p : Plan) (guarded : Bool) :
    List Stmt -> List Stmt
  | [] => []
  | s :: rest =>
      let inside := s.placed (p.below 0)
      (if p.replaced [0] then [inside.asGuard p.runtime]
        else if guarded && rest.isEmpty && s.isValue then inside.bound
        else [inside]) ++
        stmtsPlaced (p.below 1) guarded rest

def Item.placed (p : Plan) : Item -> Item
  | .mk attrs kind =>
      if kind.isExpandable && hasOwnExpansion attrs then .mk attrs kind
      else
        .mk (if kind.hasWalkedAttrs then attrsPlaced (p.below 0) attrs
            else attrs)
          (kind.placed (p.below 1))

def ItemKind.placed (p : Plan) : ItemKind -> ItemKind
  | .function before isConst qualifiers name signature body =>
      .function before isConst qualifiers name signature
        ((p.below 0).block body fun guarded =>
          stmtsPlaced ((p.below 0).below 0) guarded body)
  | .constant before name after =>
      .constant before name (partsPlaced (p.below 0) after)
  | .implementation header members =>
      .implementation (partsPlaced (p.below 0) header)
        (itemsPlaced (p.below 1) members)
  | .traitDef before name header members =>
      .traitDef before name (partsPlaced (p.below 0) header)
        (itemsPlaced (p.below 1) members)
  | .module before name items =>
      .module before name (itemsPlaced (p.below 0) items)
  | .moduleFile before name => .moduleFile before name
  | .imports before absolute tree => .imports before absolute tree
  | .externCrate before name newName => .externCrate before name newName
  | .definition before name after =>
      .definition before name (partsPlaced (p.below 0) after)
  | .other parts => .other (partsPlaced (p.below 0) parts)

def itemsPlaced (p : Plan) : List Item -> List Item
  | [] => []
  | i :: rest =>
      i.placed (p.below 0) :: itemsPlaced (p.below 1) rest

end

/-!
## Nothing to replace

A plan without replacements leaves everything as it is.
-/

namespace Plan

def IsIdle (p : Plan) : Prop := forall a, p.replaced a = false

theorem IsIdle.below {p : Plan} (h : p.IsIdle) (i : Nat) :
    (p.below i).IsIdle := by
  intro a
  exact h (i :: a)

theorem IsIdle.not_hasGuards {p : Plan} (h : p.IsIdle)
    (body : List Stmt) : p.hasGuards body = false := by
  induction body generalizing p with
  | nil => rfl
  | cons s rest ih =>
      rw [hasGuards, h [0], ih (h.below 1)]
      rfl

theorem IsIdle.block_eq {p : Plan} (h : p.IsIdle) (body : List Stmt)
    (place : Bool -> List Stmt) : p.block body place = place false := by
  rw [block, (h.below 0).not_hasGuards body]

end Plan

mutual

theorem Attr.placed_of_idle {p : Plan} (a : Attr) (h : p.IsIdle) :
    a.placed p = a := by
  rcases a with ⟨inner, path, args⟩
  rw [Attr.placed, partsPlaced_of_idle args (h.below 0)]

theorem attrsPlaced_of_idle {p : Plan} (as : List Attr) (h : p.IsIdle) :
    attrsPlaced p as = as := by
  cases as with
  | nil => rfl
  | cons a rest =>
      rw [attrsPlaced, Attr.placed_of_idle a (h.below 0),
        attrsPlaced_of_idle rest (h.below 1)]

theorem Part.placed_of_idle {p : Plan} (q : Part) (h : p.IsIdle) :
    q.placed p = q := by
  cases q with
  | token t => rfl
  | attr a => rw [Part.placed, Attr.placed_of_idle a (h.below 0)]
  | expr e => rw [Part.placed, Expr.placed_of_idle e (h.below 0)]
  | pat q => rw [Part.placed, Pat.placed_of_idle q (h.below 0)]
  | clauseLast body clause =>
      rw [Part.placed, partsPlaced_of_idle body (h.below 0),
        partsPlaced_of_idle clause (h.below 1)]

theorem partsPlaced_of_idle {p : Plan} (ps : List Part) (h : p.IsIdle) :
    partsPlaced p ps = ps := by
  cases ps with
  | nil => rfl
  | cons q rest =>
      rw [partsPlaced, Part.placed_of_idle q (h.below 0),
        partsPlaced_of_idle rest (h.below 1)]

theorem Segment.placed_of_idle {p : Plan} (s : Segment) (h : p.IsIdle) :
    s.placed p = s := by
  rcases s with ⟨name, args⟩
  rw [Segment.placed, partsPlaced_of_idle args (h.below 0)]

theorem segmentsPlaced_of_idle {p : Plan} (ss : List Segment)
    (h : p.IsIdle) : segmentsPlaced p ss = ss := by
  cases ss with
  | nil => rfl
  | cons s rest =>
      rw [segmentsPlaced, Segment.placed_of_idle s (h.below 0),
        segmentsPlaced_of_idle rest (h.below 1)]

theorem Path.placed_of_idle {p : Plan} (q : Path) (h : p.IsIdle) :
    q.placed p = q := by
  rcases q with ⟨absolute, segments⟩
  rw [Path.placed, segmentsPlaced_of_idle segments (h.below 0)]

theorem Expr.placed_of_idle {p : Plan} (e : Expr) (h : p.IsIdle) :
    e.placed p = e := by
  rcases e with ⟨attrs, kind⟩
  rw [Expr.placed, attrsPlaced_of_idle attrs (h.below 0),
    ExprKind.placed_of_idle kind (h.below 1), ite_self]

theorem ExprKind.placed_of_idle {p : Plan} (k : ExprKind) (h : p.IsIdle) :
    k.placed p = k := by
  cases k with
  | path q =>
      rw [ExprKind.placed, Path.placed_of_idle q (h.below 0)]
  | call callee args =>
      rw [ExprKind.placed, Expr.placed_of_idle callee (h.below 0),
        partsPlaced_of_idle args (h.below 1)]
  | closure binder marks inputs output body =>
      rw [ExprKind.placed, partsPlaced_of_idle binder (h.below 0),
        partsPlaced_of_idle inputs (h.below 1),
        partsPlaced_of_idle output (h.below 2),
        Expr.placed_of_idle body (h.below 3)]
  | paren inner =>
      rw [ExprKind.placed, Expr.placed_of_idle inner (h.below 0)]
  | block style body =>
      rw [ExprKind.placed, (h.below 0).block_eq,
        stmtsPlaced_of_idle body ((h.below 0).below 0)]
  | ifThen cond body =>
      rw [ExprKind.placed, Expr.placed_of_idle cond (h.below 0),
        (h.below 1).block_eq,
        stmtsPlaced_of_idle body ((h.below 1).below 0)]
  | ifElse cond body orElse =>
      rw [ExprKind.placed, Expr.placed_of_idle cond (h.below 0),
        (h.below 1).block_eq,
        stmtsPlaced_of_idle body ((h.below 1).below 0),
        Expr.placed_of_idle orElse (h.below 2)]
  | whileLoop label cond body =>
      rw [ExprKind.placed, Expr.placed_of_idle cond (h.below 0),
        (h.below 1).block_eq,
        stmtsPlaced_of_idle body ((h.below 1).below 0)]
  | forLoop label pat source body =>
      rw [ExprKind.placed, Expr.placed_of_idle source (h.below 0),
        (h.below 1).block_eq,
        stmtsPlaced_of_idle body ((h.below 1).below 0)]
  | loop label body =>
      rw [ExprKind.placed, (h.below 0).block_eq,
        stmtsPlaced_of_idle body ((h.below 0).below 0)]
  | matchOn scrutinee arms =>
      rw [ExprKind.placed, Expr.placed_of_idle scrutinee (h.below 0),
        armsPlaced_of_idle arms (h.below 1)]
  | letCond pat scrutinee =>
      rw [ExprKind.placed, Pat.placed_of_idle pat (h.below 0),
        Expr.placed_of_idle scrutinee (h.below 1)]
  | binary left op right =>
      rw [ExprKind.placed, Expr.placed_of_idle left (h.below 0),
        Expr.placed_of_idle right (h.below 1)]
  | invocation m => rfl
  | continueTo label => rfl
  | qualified parts | ret parts | breakTo label parts | range parts
  | data parts | other parts =>
      rw [ExprKind.placed, partsPlaced_of_idle parts (h.below 0)]

theorem Pat.placed_of_idle {p : Plan} (q : Pat) (h : p.IsIdle) :
    q.placed p = q := by
  cases q with
  | binder before name sub =>
      rw [Pat.placed, partsPlaced_of_idle sub (h.below 0)]
  | compound parts =>
      rw [Pat.placed, partsPlaced_of_idle parts (h.below 0)]

theorem Arm.placed_of_idle {p : Plan} (a : Arm) (h : p.IsIdle) :
    a.placed p = a := by
  rcases a with ⟨attrs, pat, guard, body, comma⟩
  rw [Arm.placed, attrsPlaced_of_idle attrs (h.below 0),
    Pat.placed_of_idle pat (h.below 1),
    partsPlaced_of_idle guard (h.below 2),
    Expr.placed_of_idle body (h.below 3)]

theorem armsPlaced_of_idle {p : Plan} (as : List Arm) (h : p.IsIdle) :
    armsPlaced p as = as := by
  cases as with
  | nil => rfl
  | cons a rest =>
      rw [armsPlaced, Arm.placed_of_idle a (h.below 0),
        armsPlaced_of_idle rest (h.below 1)]

theorem Stmt.placed_of_idle {p : Plan} (s : Stmt) (h : p.IsIdle) :
    s.placed p = s := by
  cases s with
  | binding attrs pat init =>
      rw [Stmt.placed, attrsPlaced_of_idle attrs (h.below 0),
        Pat.placed_of_idle pat (h.below 1),
        partsPlaced_of_idle init (h.below 2)]
  | item i => rw [Stmt.placed, Item.placed_of_idle i (h.below 0)]
  | expr pos e semi => rw [Stmt.placed, Expr.placed_of_idle e (h.below 0)]
  | invocation attrs m semi =>
      rw [Stmt.placed, attrsPlaced_of_idle attrs (h.below 0)]

theorem stmtsPlaced_of_idle {p : Plan} (ss : List Stmt) (h : p.IsIdle) :
    stmtsPlaced p false ss = ss := by
  cases ss with
  | nil => rfl
  | cons s rest =>
      rw [stmtsPlaced, h [0], Stmt.placed_of_idle s (h.below 0),
        stmtsPlaced_of_idle rest (h.below 1)]
      rfl

theorem Item.placed_of_idle {p : Plan} (i : Item) (h : p.IsIdle) :
    i.placed p = i := by
  rcases i with ⟨attrs, kind⟩
  rw [Item.placed, attrsPlaced_of_idle attrs (h.below 0),
    ItemKind.placed_of_idle kind (h.below 1), ite_self, ite_self]

theorem ItemKind.placed_of_idle {p : Plan} (k : ItemKind) (h : p.IsIdle) :
    k.placed p = k := by
  cases k with
  | function before isConst qualifiers name signature body =>
      rw [ItemKind.placed, (h.below 0).block_eq,
        stmtsPlaced_of_idle body ((h.below 0).below 0)]
  | implementation header members =>
      rw [ItemKind.placed, partsPlaced_of_idle header (h.below 0),
        itemsPlaced_of_idle members (h.below 1)]
  | traitDef before name header members =>
      rw [ItemKind.placed, partsPlaced_of_idle header (h.below 0),
        itemsPlaced_of_idle members (h.below 1)]
  | module before name items =>
      rw [ItemKind.placed, itemsPlaced_of_idle items (h.below 0)]
  | constant before name parts | definition before name parts
  | other parts =>
      rw [ItemKind.placed, partsPlaced_of_idle parts (h.below 0)]
  | _ => rfl

theorem itemsPlaced_of_idle {p : Plan} (is : List Item) (h : p.IsIdle) :
    itemsPlaced p is = is := by
  cases is with
  | nil => rfl
  | cons i rest =>
      rw [itemsPlaced, Item.placed_of_idle i (h.below 0),
        itemsPlaced_of_idle rest (h.below 1)]

end

end ScopeExit
