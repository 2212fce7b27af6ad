import ScopeExit.Proofs.Accounts
import ScopeExit.Proofs.Spelling

/-!
# Items that are spelled differently

Two items that are alike but for raw marks are expanded alike.  The same
statements are replaced, the same values are bound, the same nested items are
skipped and the same faults are found; and the results are alike again but for
the marks.  The names have to be left alone that are compared as they are
spelled.

Both items are compared with what is left of them when the marks have been taken
off.  That has the same places, with the same scopes around them.
-/

namespace ScopeExit

variable {f : Spelling}

/-!
## Places
-/

def Crossing.respelled (f : Spelling) : Crossing -> Crossing
  | .level => .level
  | .constant => .constant
  | .closure inputs => .closure (partsRespelled f inputs)
  | .pattern p => .pattern (p.respelled f)
  | .condition cond => .condition (cond.respelled f)
  | .function isConst signature =>
      .function isConst (partsRespelled f signature)
  | .boundary => .boundary
  | .module items => .module (itemsRespelled f items)
  | .block body => .block (stmtsRespelled f body)
  | .behind s => .behind (s.respelled f)

def Node.respelled (f : Spelling) : Node -> Node
  | .attr a => .attr (a.respelled f)
  | .attrs as => .attrs (attrsRespelled f as)
  | .part p => .part (p.respelled f)
  | .parts ps => .parts (partsRespelled f ps)
  | .segment s => .segment (s.respelled f)
  | .segments ss => .segments (segmentsRespelled f ss)
  | .path p => .path (p.respelled f)
  | .expr e => .expr (e.respelled f)
  | .kind k => .kind (k.respelled f)
  | .pat p => .pat (p.respelled f)
  | .arm a => .arm (a.respelled f)
  | .arms as => .arms (armsRespelled f as)
  | .block body => .block (stmtsRespelled f body)
  | .stmt s => .stmt (s.respelled f)
  | .stmts ss => .stmts (stmtsRespelled f ss)
  | .item i => .item (i.respelled f)
  | .items is => .items (itemsRespelled f is)
  | .itemKind k => .itemKind (k.respelled f)

theorem Crossing.locals_respelled (x : Crossing) :
    (x.respelled f).locals = x.locals := by
  cases x with
  | closure inputs => exact partsBinders_respelled inputs
  | pattern p => exact Pat.binders_respelled p
  | condition cond => exact Expr.conditionBinders_respelled cond
  | function isConst signature => exact partsBinders_respelled signature
  | behind s =>
      cases s with
      | binding attrs p init => exact Pat.binders_respelled p
      | _ => rfl
  | _ => rfl

namespace Context

theorem opened_respelled (c : Context) (x : Crossing) :
    c.opened (x.respelled f) = c.opened x := by
  cases x with
  | module items =>
      rw [Crossing.respelled, opened, opened,
        ScopeStack.declareItems_respelled]
  | block body =>
      rw [Crossing.respelled, opened, opened, inBlock, inBlock,
        ScopeStack.declareStmts_respelled]
  | _ => rfl

theorem cross_respelled (c : Context) (x : Crossing) :
    c.cross (x.respelled f) = c.cross x := by
  rw [cross, cross, opened_respelled, Crossing.locals_respelled]

theorem along_respelled (c : Context) (xs : List Crossing) :
    c.along (xs.map (Crossing.respelled f)) = c.along xs := by
  induction xs generalizing c with
  | nil => rfl
  | cons x xs ih =>
      rw [List.map_cons, along_cons, along_cons, cross_respelled, ih]

end Context

theorem ExprKind.crossing_respelled (k : ExprKind) :
    (k.respelled f).crossing = k.crossing.respelled f := by
  cases k with
  | block style body => cases style <;> rfl
  | _ => rfl

theorem ItemKind.crossing_respelled (k : ItemKind) :
    (k.respelled f).crossing = k.crossing.respelled f := by
  cases k <;> rfl

theorem attrsRespelled_walked (walked : Bool) (as : List Attr) :
    (if walked then attrsRespelled f as else []) =
      attrsRespelled f (if walked then as else []) := by
  cases walked <;> rfl

namespace Node

def stepRespelled (f : Spelling) (q : Crossing × Node) : Crossing × Node :=
  (q.1.respelled f, q.2.respelled f)

theorem children_respelled (hf : f.IsFaithful) (n : Node) :
    (n.respelled f).children = n.children.map (stepRespelled f) := by
  cases n with
  | attr a => rcases a with ⟨inner, path, args⟩; rfl
  | attrs as => cases as <;> rfl
  | part p => cases p <;> rfl
  | parts ps => cases ps <;> rfl
  | segment s => rcases s with ⟨name, args⟩; rfl
  | segments ss => cases ss <;> rfl
  | path p => rcases p with ⟨absolute, ss⟩; rfl
  | expr e =>
      rcases e with ⟨as, k⟩
      rw [respelled, Expr.respelled, children, children,
        ExprKind.hasWalkedAttrs_respelled, ExprKind.crossing_respelled,
        attrsRespelled_walked]
      rfl
  | kind k => cases k <;> rfl
  | pat p => cases p <;> rfl
  | arm a => rcases a with ⟨as, p, guard, body, comma⟩; rfl
  | arms as => cases as <;> rfl
  | block body => rfl
  | stmt s => cases s <;> rfl
  | stmts ss => cases ss <;> rfl
  | item i =>
      rcases i with ⟨as, k⟩
      rw [respelled, Item.respelled, children, children,
        ItemKind.isExpandable_respelled, hasOwnExpansion_respelled hf,
        ItemKind.hasWalkedAttrs_respelled, ItemKind.crossing_respelled,
        attrsRespelled_walked]
      split <;> rfl
  | items is => cases is <;> rfl
  | itemKind k => cases k <;> rfl

theorem inOrder_respelled (hf : f.IsFaithful) (n : Node) :
    (n.respelled f).inOrder =
      n.inOrder.map fun q => (q.1, stepRespelled f q.2) := by
  have hnumbered : (n.respelled f).children.zipIdx.map
      (fun q => (q.2, q.1)) =
        (n.children.zipIdx.map fun q => (q.2, q.1)).map fun q =>
          (q.1, stepRespelled f q.2) := by
    rw [children_respelled hf, List.zipIdx_map, List.map_map, List.map_map]
    rfl
  cases n with
  | part p => cases p <;> rfl
  | _ => exact hnumbered

theorem visit?_respelled (hf : f.IsFaithful) (n : Node) (a : Address) :
    (n.respelled f).visit? a =
      (n.visit? a).map fun (xs, m) =>
        (xs.map (Crossing.respelled f), m.respelled f) := by
  induction a generalizing n with
  | nil => rfl
  | cons j a ih =>
      rw [visit?, visit?, children_respelled hf, List.getElem?_map]
      cases n.children[j]? with
      | none => rfl
      | some q =>
          rcases q with ⟨x, m⟩
          simp only [Option.map_some, Option.bind_some, stepRespelled, ih m,
            Option.map_map]
          rfl

/-!
## Plans
-/

theorem registers_respelled (hf : f.IsFaithful) (c : Context) (n : Node)
    (a : Address) : (n.respelled f).registers c a = n.registers c a := by
  rw [registers, registers, visit?_respelled hf]
  cases n.visit? a with
  | none => rfl
  | some found =>
      rcases found with ⟨xs, m⟩
      cases m with
      | stmt s =>
          simp only [Option.map_some, respelled, Context.along_respelled]
          exact Stmt.isRegistration_respelled _ s
      | _ => rfl

theorem isConstAt_respelled (hf : f.IsFaithful) (c : Context) (n : Node)
    (a : Address) : (n.respelled f).isConstAt c a = n.isConstAt c a := by
  rw [isConstAt, isConstAt, visit?_respelled hf]
  cases n.visit? a with
  | none => rfl
  | some found => simp only [Option.map_some, Context.along_respelled]

theorem plan_respelled (hf : f.IsFaithful) (c : Context) (n : Node) :
    (n.respelled f).plan c = n.plan c := by
  simp only [plan, registers_respelled hf, isConstAt_respelled hf]

def skips (n : Node) (a : Address) : Bool :=
  match n.visit? a with
  | some (_, .item (.mk as k)) => k.isExpandable && hasOwnExpansion as
  | _ => false

theorem skips_respelled (hf : f.IsFaithful) (n : Node) (a : Address) :
    (n.respelled f).skips a = n.skips a := by
  rw [skips, skips, visit?_respelled hf]
  cases n.visit? a with
  | none => rfl
  | some found =>
      rcases found with ⟨xs, m⟩
      cases m with
      | item i =>
          rcases i with ⟨as, k⟩
          simp only [Option.map_some, respelled, Item.respelled,
            ItemKind.isExpandable_respelled, hasOwnExpansion_respelled hf]
      | _ => rfl

end Node

namespace Plan

def downTo (p : Plan) (a : Address) : Plan where
  runtime := p.runtime
  replaced b := p.replaced (a ++ b)

/-- Whether the last of these statements is a value that is to be bound if the
block has guards. -/
def bindsLast (p : Plan) : List Stmt -> Bool
  | [] => false
  | [s] => !p.replaced [0] && s.isValue
  | _ :: rest => (p.below 1).bindsLast rest

/-- Whether the value of the block at an address is to be bound. -/
def bindsTail (p : Plan) (n : Node) (a : Address) : Bool :=
  match n.visit? a with
  | some (_, .block body) =>
      let inside := (p.downTo a).below 0
      inside.hasGuards body && inside.bindsLast body
  | _ => false

theorem hasGuards_respelled (p : Plan) (body : List Stmt) :
    p.hasGuards (stmtsRespelled f body) = p.hasGuards body := by
  induction body generalizing p with
  | nil => rfl
  | cons s rest ih => exact congrArg (p.replaced [0] || ·) (ih (p.below 1))

theorem bindsLast_respelled (hf : f.IsFaithful) (p : Plan)
    (body : List Stmt) :
    p.bindsLast (stmtsRespelled f body) = p.bindsLast body := by
  induction body generalizing p with
  | nil => rfl
  | cons s rest ih =>
      cases rest with
      | nil =>
          exact congrArg (!p.replaced [0] && ·) (Stmt.isValue_respelled hf s)
      | cons t more => exact ih (p.below 1)

theorem bindsTail_respelled (hf : f.IsFaithful) (p : Plan) (n : Node)
    (a : Address) : p.bindsTail (n.respelled f) a = p.bindsTail n a := by
  rw [bindsTail, bindsTail, Node.visit?_respelled hf]
  cases n.visit? a with
  | none => rfl
  | some found =>
      rcases found with ⟨xs, m⟩
      cases m with
      | block body =>
          simp only [Option.map_some, Node.respelled, hasGuards_respelled,
            bindsLast_respelled hf]
      | _ => rfl

end Plan

/-!
## Faults
-/

theorem Stmt.faults_check_respelled (c : Context) (s : Stmt) :
    ((s.respelled f).check c).faults =
      (s.check c).faults.map (Fault.moved f.place) := by
  cases s with
  | expr pos e semi =>
      have hregisters := isRegistration_respelled (f := f) c.scope
        (.expr pos e semi)
      rw [respelled] at hregisters
      rw [respelled, check, check, hregisters]
      split <;> rfl
  | _ => rfl

namespace Node

theorem faultsBefore_respelled (c : Context) (n : Node) :
    (n.respelled f).faultsBefore c =
      (n.faultsBefore c).map (Fault.moved f.place) := by
  cases n with
  | stmt s => exact s.faults_check_respelled c
  | _ => rfl

/-- The same faults are found, where the places have gone.  The induction is on
the places in the order of the walk. -/
theorem faults_respelled (hf : f.IsFaithful) {c : Context}
    (hruntime : c.runtime.opensCall = true) (n : Node) :
    ((n.respelled f).guarded c).faults =
      (n.guarded c).faults.map (Fault.moved f.place) := by
  induction n using induct generalizing c with
  | step n ih =>
      have hinside : (n.respelled f).faultsInside c =
          (n.faultsInside c).map (Fault.moved f.place) := by
        rw [faultsInside, faultsInside, inOrder_respelled hf,
          List.flatMap_map, List.map_flatMap]
        apply List.flatMap_congr
        intro q hq
        have hbelow : (c.cross q.2.1).runtime.opensCall = true := by
          rw [Context.runtime_cross]
          exact hruntime
        rw [stepRespelled, Context.cross_respelled]
        exact ih q hq hbelow
      rw [faults_guarded, faults_guarded, faultsBehind_eq_nil hruntime,
        faultsBehind_eq_nil hruntime, List.append_nil, List.append_nil,
        List.map_append, faultsBefore_respelled, hinside]

end Node

/-!
## Results
-/

namespace Plan

def respelled (f : Spelling) (p : Plan) : Plan :=
  { p with runtime := p.runtime.respelled f }

theorem respelled_hasGuards (p : Plan) (body : List Stmt) :
    (p.respelled f).hasGuards body = p.hasGuards body := by
  induction body generalizing p with
  | nil => rfl
  | cons s rest ih => exact congrArg (p.replaced [0] || ·) (ih (p.below 1))

end Plan

theorem segmentsRespelled_append (a b : List Segment) :
    segmentsRespelled f (a ++ b) =
      segmentsRespelled f a ++ segmentsRespelled f b := by
  induction a with
  | nil => rfl
  | cons s rest ih =>
      rw [List.cons_append, segmentsRespelled, ih]
      rfl

theorem Path.extend_registerSegments_respelled (p : Path) :
    (p.extend registerSegments).respelled f =
      (p.respelled f).extend registerSegments := by
  rcases p with ⟨absolute, segments⟩
  have hregister : segmentsRespelled f registerSegments = registerSegments := by
    simp [registerSegments, segmentsRespelled, Segment.respelled,
      partsRespelled]
  rw [extend, respelled, segmentsRespelled_append, hregister]
  rfl

namespace Stmt

theorem asGuard_respelled (runtime : Path) (s : Stmt) :
    (s.asGuard runtime).respelled f =
      (s.respelled f).asGuard (runtime.respelled f) := by
  cases s with
  | expr pos e semi =>
      rcases e with ⟨attrs, kind⟩
      cases kind with
      | call callee args =>
          rw [respelled, Expr.respelled, ExprKind.respelled, asGuard, asGuard,
            Registration.ofStmt?, Registration.ofStmt?,
            Expr.isPath_respelled, soleArgument?_respelled]
          cases callee.isPath with
          | false => rfl
          | true =>
              cases soleArgument? args with
              | none => rfl
              | some action =>
                  simp [Registration.guard, respelled, ExprKind.respelled,
                    partsRespelled, Part.respelled, guardName,
                    Path.extend_registerSegments_respelled]
      | _ => rfl
  | _ => rfl

theorem bound_respelled (s : Stmt) :
    stmtsRespelled f s.bound = (s.respelled f).bound := by
  cases s with
  | expr pos e semi =>
      simp [bound, stmtsRespelled, respelled, attrsRespelled, partsRespelled,
        Part.respelled, resultName, Expr.grouped_respelled]
  | _ => rfl

theorem inPlace_respelled (runtime : Path) (replaced binds : Bool)
    (inside : Stmt) :
    (if replaced then [(inside.respelled f).asGuard (runtime.respelled f)]
      else if binds then (inside.respelled f).bound
      else [inside.respelled f]) =
      stmtsRespelled f
        (if replaced then [inside.asGuard runtime]
          else if binds then inside.bound
          else [inside]) := by
  split
  · exact congrArg ([·]) (asGuard_respelled runtime inside).symm
  · split
    · exact (bound_respelled inside).symm
    · rfl

theorem block_respelled {p : Plan} {body : List Stmt}
    (h : forall guarded,
      stmtsPlaced ((p.below 0).respelled f) guarded (stmtsRespelled f body) =
        stmtsRespelled f (stmtsPlaced (p.below 0) guarded body)) :
    ((p.respelled f).block (stmtsRespelled f body) fun guarded =>
        stmtsPlaced ((p.respelled f).below 0) guarded
          (stmtsRespelled f body)) =
      stmtsRespelled f (p.block body fun guarded =>
        stmtsPlaced (p.below 0) guarded body) := by
  have hguards : ((p.respelled f).below 0).hasGuards (stmtsRespelled f body) =
      (p.below 0).hasGuards body := by
    rw [Plan.hasGuards_respelled]
    exact (p.below 0).respelled_hasGuards body
  have hplaced := h ((p.below 0).hasGuards body)
  rw [Plan.block, Plan.block, hguards, ← hplaced]
  rfl

end Stmt

mutual

theorem Attr.placed_respelled (hf : f.IsFaithful) (p : Plan) (a : Attr) :
    (a.respelled f).placed (p.respelled f) = (a.placed p).respelled f := by
  rcases a with ⟨inner, path, args⟩
  have hargs := partsPlaced_respelled hf (p.below 0) args
  rw [Attr.placed, Attr.respelled, Attr.respelled, ← hargs]
  rfl

theorem attrsPlaced_respelled (hf : f.IsFaithful) (p : Plan)
    (as : List Attr) :
    attrsPlaced (p.respelled f) (attrsRespelled f as) =
      attrsRespelled f (attrsPlaced p as) := by
  cases as with
  | nil => rfl
  | cons a rest =>
      have hfirst := Attr.placed_respelled hf (p.below 0) a
      have hrest := attrsPlaced_respelled hf (p.below 1) rest
      rw [attrsPlaced, attrsRespelled, attrsRespelled, ← hfirst, ← hrest]
      rfl

theorem Part.placed_respelled (hf : f.IsFaithful) (p : Plan) (q : Part) :
    (q.respelled f).placed (p.respelled f) = (q.placed p).respelled f := by
  cases q with
  | token t => rfl
  | attr a =>
      have ha := Attr.placed_respelled hf (p.below 0) a
      rw [Part.placed, Part.respelled, Part.respelled, ← ha]
      rfl
  | expr e =>
      have he := Expr.placed_respelled hf (p.below 0) e
      rw [Part.placed, Part.respelled, Part.respelled, ← he]
      rfl
  | pat q =>
      have hq := Pat.placed_respelled hf (p.below 0) q
      rw [Part.placed, Part.respelled, Part.respelled, ← hq]
      rfl
  | clauseLast body clause =>
      have hbody := partsPlaced_respelled hf (p.below 0) body
      have hclause := partsPlaced_respelled hf (p.below 1) clause
      rw [Part.placed, Part.respelled, Part.respelled, ← hbody, ← hclause]
      rfl

theorem partsPlaced_respelled (hf : f.IsFaithful) (p : Plan)
    (qs : List Part) :
    partsPlaced (p.respelled f) (partsRespelled f qs) =
      partsRespelled f (partsPlaced p qs) := by
  cases qs with
  | nil => rfl
  | cons q rest =>
      have hfirst := Part.placed_respelled hf (p.below 0) q
      have hrest := partsPlaced_respelled hf (p.below 1) rest
      rw [partsPlaced, partsRespelled, partsRespelled, ← hfirst, ← hrest]
      rfl

theorem Segment.placed_respelled (hf : f.IsFaithful) (p : Plan)
    (s : Segment) :
    (s.respelled f).placed (p.respelled f) = (s.placed p).respelled f := by
  rcases s with ⟨name, args⟩
  have hargs := partsPlaced_respelled hf (p.below 0) args
  rw [Segment.placed, Segment.respelled, Segment.respelled, ← hargs]
  rfl

theorem segmentsPlaced_respelled (hf : f.IsFaithful) (p : Plan)
    (ss : List Segment) :
    segmentsPlaced (p.respelled f) (segmentsRespelled f ss) =
      segmentsRespelled f (segmentsPlaced p ss) := by
  cases ss with
  | nil => rfl
  | cons s rest =>
      have hfirst := Segment.placed_respelled hf (p.below 0) s
      have hrest := segmentsPlaced_respelled hf (p.below 1) rest
      rw [segmentsPlaced, segmentsRespelled, segmentsRespelled, ← hfirst,
        ← hrest]
      rfl

theorem Path.placed_respelled (hf : f.IsFaithful) (p : Plan) (q : Path) :
    (q.respelled f).placed (p.respelled f) = (q.placed p).respelled f := by
  rcases q with ⟨absolute, segments⟩
  have hsegments := segmentsPlaced_respelled hf (p.below 0) segments
  rw [Path.placed, Path.respelled, Path.respelled, ← hsegments]
  rfl

theorem Expr.placed_respelled (hf : f.IsFaithful) (p : Plan) (e : Expr) :
    (e.respelled f).placed (p.respelled f) = (e.placed p).respelled f := by
  rcases e with ⟨attrs, kind⟩
  have hattrs := attrsPlaced_respelled hf (p.below 0) attrs
  have hkind := ExprKind.placed_respelled hf (p.below 1) kind
  rw [Expr.placed, Expr.respelled, Expr.respelled, Expr.placed,
    ExprKind.hasWalkedAttrs_respelled, ← hkind]
  cases kind.hasWalkedAttrs with
  | true => exact congrArg (Expr.mk · _) hattrs
  | false => rfl

theorem ExprKind.placed_respelled (hf : f.IsFaithful) (p : Plan)
    (k : ExprKind) :
    (k.respelled f).placed (p.respelled f) = (k.placed p).respelled f := by
  cases k with
  | path q =>
      have hq := Path.placed_respelled hf (p.below 0) q
      rw [ExprKind.placed, ExprKind.respelled, ExprKind.respelled, ← hq]
      rfl
  | call callee args =>
      have hcallee := Expr.placed_respelled hf (p.below 0) callee
      have hargs := partsPlaced_respelled hf (p.below 1) args
      rw [ExprKind.placed, ExprKind.respelled, ExprKind.respelled, ← hcallee,
        ← hargs]
      rfl
  | closure binder marks inputs output body =>
      have hbinder := partsPlaced_respelled hf (p.below 0) binder
      have hinputs := partsPlaced_respelled hf (p.below 1) inputs
      have houtput := partsPlaced_respelled hf (p.below 2) output
      have hbody := Expr.placed_respelled hf (p.below 3) body
      rw [ExprKind.placed, ExprKind.respelled, ExprKind.respelled, ← hbinder,
        ← hinputs, ← houtput, ← hbody]
      rfl
  | paren inner =>
      have hinner := Expr.placed_respelled hf (p.below 0) inner
      rw [ExprKind.placed, ExprKind.respelled, ExprKind.respelled, ← hinner]
      rfl
  | block style body =>
      have hbody := Stmt.block_respelled
        (stmtsPlaced_respelled hf ((p.below 0).below 0) body)
      rw [ExprKind.placed, ExprKind.respelled, ExprKind.respelled, ← hbody]
      rfl
  | ifThen cond body =>
      have hcond := Expr.placed_respelled hf (p.below 0) cond
      have hbody := Stmt.block_respelled
        (stmtsPlaced_respelled hf ((p.below 1).below 0) body)
      rw [ExprKind.placed, ExprKind.respelled, ExprKind.respelled, ← hcond,
        ← hbody]
      rfl
  | ifElse cond body orElse =>
      have hcond := Expr.placed_respelled hf (p.below 0) cond
      have hbody := Stmt.block_respelled
        (stmtsPlaced_respelled hf ((p.below 1).below 0) body)
      have hother := Expr.placed_respelled hf (p.below 2) orElse
      rw [ExprKind.placed, ExprKind.respelled, ExprKind.respelled, ← hcond,
        ← hbody, ← hother]
      rfl
  | whileLoop label cond body =>
      have hcond := Expr.placed_respelled hf (p.below 0) cond
      have hbody := Stmt.block_respelled
        (stmtsPlaced_respelled hf ((p.below 1).below 0) body)
      rw [ExprKind.placed, ExprKind.respelled, ExprKind.respelled, ← hcond,
        ← hbody]
      rfl
  | forLoop label pat source body =>
      have hsource := Expr.placed_respelled hf (p.below 0) source
      have hbody := Stmt.block_respelled
        (stmtsPlaced_respelled hf ((p.below 1).below 0) body)
      rw [ExprKind.placed, ExprKind.respelled, ExprKind.respelled, ← hsource,
        ← hbody]
      rfl
  | loop label body =>
      have hbody := Stmt.block_respelled
        (stmtsPlaced_respelled hf ((p.below 0).below 0) body)
      rw [ExprKind.placed, ExprKind.respelled, ExprKind.respelled, ← hbody]
      rfl
  | matchOn scrutinee arms =>
      have hscrutinee := Expr.placed_respelled hf (p.below 0) scrutinee
      have harms := armsPlaced_respelled hf (p.below 1) arms
      rw [ExprKind.placed, ExprKind.respelled, ExprKind.respelled,
        ← hscrutinee, ← harms]
      rfl
  | letCond pat scrutinee =>
      have hpat := Pat.placed_respelled hf (p.below 0) pat
      have hscrutinee := Expr.placed_respelled hf (p.below 1) scrutinee
      rw [ExprKind.placed, ExprKind.respelled, ExprKind.respelled, ← hpat,
        ← hscrutinee]
      rfl
  | binary left op right =>
      have hleft := Expr.placed_respelled hf (p.below 0) left
      have hright := Expr.placed_respelled hf (p.below 1) right
      rw [ExprKind.placed, ExprKind.respelled, ExprKind.respelled, ← hleft,
        ← hright]
      rfl
  | invocation m => rfl
  | continueTo label => rfl
  | qualified parts | ret parts | breakTo label parts | range parts
  | data parts | other parts =>
      have hparts := partsPlaced_respelled hf (p.below 0) parts
      rw [ExprKind.placed, ExprKind.respelled, ExprKind.respelled, ← hparts]
      rfl

theorem Pat.placed_respelled (hf : f.IsFaithful) (p : Plan) (q : Pat) :
    (q.respelled f).placed (p.respelled f) = (q.placed p).respelled f := by
  cases q with
  | binder before name sub =>
      have hsub := partsPlaced_respelled hf (p.below 0) sub
      rw [Pat.placed, Pat.respelled, Pat.respelled, ← hsub]
      rfl
  | compound parts =>
      have hparts := partsPlaced_respelled hf (p.below 0) parts
      rw [Pat.placed, Pat.respelled, Pat.respelled, ← hparts]
      rfl

theorem Arm.placed_respelled (hf : f.IsFaithful) (p : Plan) (a : Arm) :
    (a.respelled f).placed (p.respelled f) = (a.placed p).respelled f := by
  rcases a with ⟨attrs, pat, guard, body, comma⟩
  have hattrs := attrsPlaced_respelled hf (p.below 0) attrs
  have hpat := Pat.placed_respelled hf (p.below 1) pat
  have hguard := partsPlaced_respelled hf (p.below 2) guard
  have hbody := Expr.placed_respelled hf (p.below 3) body
  rw [Arm.placed, Arm.respelled, Arm.respelled, ← hattrs, ← hpat, ← hguard,
    ← hbody]
  rfl

theorem armsPlaced_respelled (hf : f.IsFaithful) (p : Plan)
    (as : List Arm) :
    armsPlaced (p.respelled f) (armsRespelled f as) =
      armsRespelled f (armsPlaced p as) := by
  cases as with
  | nil => rfl
  | cons a rest =>
      have hfirst := Arm.placed_respelled hf (p.below 0) a
      have hrest := armsPlaced_respelled hf (p.below 1) rest
      rw [armsPlaced, armsRespelled, armsRespelled, ← hfirst, ← hrest]
      rfl

theorem Stmt.placed_respelled (hf : f.IsFaithful) (p : Plan) (s : Stmt) :
    (s.respelled f).placed (p.respelled f) = (s.placed p).respelled f := by
  cases s with
  | binding attrs pat init =>
      have hattrs := attrsPlaced_respelled hf (p.below 0) attrs
      have hpat := Pat.placed_respelled hf (p.below 1) pat
      have hinit := partsPlaced_respelled hf (p.below 2) init
      rw [Stmt.placed, Stmt.respelled, Stmt.respelled, ← hattrs, ← hpat,
        ← hinit]
      rfl
  | item i =>
      have hi := Item.placed_respelled hf (p.below 0) i
      rw [Stmt.placed, Stmt.respelled, Stmt.respelled, ← hi]
      rfl
  | expr pos e semi =>
      have he := Expr.placed_respelled hf (p.below 0) e
      rw [Stmt.placed, Stmt.respelled, Stmt.respelled, ← he]
      rfl
  | invocation attrs m semi =>
      have hattrs := attrsPlaced_respelled hf (p.below 0) attrs
      rw [Stmt.placed, Stmt.respelled, Stmt.respelled, ← hattrs]
      rfl

theorem stmtsPlaced_respelled (hf : f.IsFaithful) (p : Plan)
    (ss : List Stmt) (guarded : Bool) :
    stmtsPlaced (p.respelled f) guarded (stmtsRespelled f ss) =
      stmtsRespelled f (stmtsPlaced p guarded ss) := by
  cases ss with
  | nil => rfl
  | cons s rest =>
      have hs := Stmt.placed_respelled hf (p.below 0) s
      have hrest := stmtsPlaced_respelled hf (p.below 1) rest guarded
      have hhere := Stmt.inPlace_respelled (f := f) p.runtime
        (p.replaced [0]) (guarded && rest.isEmpty && s.isValue)
        (s.placed (p.below 0))
      rw [stmtsRespelled, stmtsPlaced, stmtsPlaced, stmtsRespelled_append,
        ← hrest, ← hhere, ← hs, stmtsRespelled_isEmpty,
        Stmt.isValue_respelled hf]
      rfl

theorem Item.placed_respelled (hf : f.IsFaithful) (p : Plan) (i : Item) :
    (i.respelled f).placed (p.respelled f) = (i.placed p).respelled f := by
  rcases i with ⟨attrs, kind⟩
  have hattrs := attrsPlaced_respelled hf (p.below 0) attrs
  have hkind := ItemKind.placed_respelled hf (p.below 1) kind
  rw [Item.respelled, Item.placed, Item.placed,
    ItemKind.isExpandable_respelled, hasOwnExpansion_respelled hf,
    ItemKind.hasWalkedAttrs_respelled]
  cases kind.isExpandable && hasOwnExpansion attrs with
  | true => rfl
  | false =>
      rw [if_neg Bool.false_ne_true, if_neg Bool.false_ne_true,
        Item.respelled, ← hkind]
      cases kind.hasWalkedAttrs with
      | true => exact congrArg (Item.mk · _) hattrs
      | false => rfl

theorem ItemKind.placed_respelled (hf : f.IsFaithful) (p : Plan)
    (k : ItemKind) :
    (k.respelled f).placed (p.respelled f) = (k.placed p).respelled f := by
  cases k with
  | function before isConst qualifiers name signature body =>
      have hbody := Stmt.block_respelled
        (stmtsPlaced_respelled hf ((p.below 0).below 0) body)
      rw [ItemKind.placed, ItemKind.respelled, ItemKind.respelled, ← hbody]
      rfl
  | implementation header members =>
      have hheader := partsPlaced_respelled hf (p.below 0) header
      have hmembers := itemsPlaced_respelled hf (p.below 1) members
      rw [ItemKind.placed, ItemKind.respelled, ItemKind.respelled, ← hheader,
        ← hmembers]
      rfl
  | traitDef before name header members =>
      have hheader := partsPlaced_respelled hf (p.below 0) header
      have hmembers := itemsPlaced_respelled hf (p.below 1) members
      rw [ItemKind.placed, ItemKind.respelled, ItemKind.respelled, ← hheader,
        ← hmembers]
      rfl
  | module before name items =>
      have hitems := itemsPlaced_respelled hf (p.below 0) items
      rw [ItemKind.placed, ItemKind.respelled, ItemKind.respelled, ← hitems]
      rfl
  | constant before name parts | definition before name parts
  | other parts =>
      have hparts := partsPlaced_respelled hf (p.below 0) parts
      rw [ItemKind.placed, ItemKind.respelled, ItemKind.respelled, ← hparts]
      rfl
  | _ => rfl

theorem itemsPlaced_respelled (hf : f.IsFaithful) (p : Plan)
    (is : List Item) :
    itemsPlaced (p.respelled f) (itemsRespelled f is) =
      itemsRespelled f (itemsPlaced p is) := by
  cases is with
  | nil => rfl
  | cons i rest =>
      have hfirst := Item.placed_respelled hf (p.below 0) i
      have hrest := itemsPlaced_respelled hf (p.below 1) rest
      rw [itemsPlaced, itemsRespelled, itemsRespelled, ← hfirst, ← hrest]
      rfl

end

/-!
## Expanding
-/

theorem Fault.moved_id : Fault.moved id = id := by
  funext fault
  cases fault <;> rfl

theorem SimplePath.toPath_respelled_inPlace (p : SimplePath) :
    p.toPath.respelled f.inPlace = p.toPath.respelled f := by
  have hsegments : forall is : List Ident,
      segmentsRespelled f.inPlace (is.map fun i => .mk i []) =
        segmentsRespelled f (is.map fun i => .mk i []) := by
    intro is
    induction is with
    | nil => rfl
    | cons i is ih => exact congrArg (_ :: ·) ih
  exact congrArg (Path.mk p.absolute) (hsegments p.segments)

namespace Item

/-- Items that are alike but for raw marks are expanded alike, if the names are
left alone that are compared as they are spelled.  The same statements become
guards, the values of the same blocks are bound, the same nested items are
skipped, and the same faults are found, where the places have gone.  The results
are alike again but for raw marks on the same names. -/
theorem guardedAt_respelled (runtime : SimplePath) (hf : f.IsFaithful)
    {i i' : Item} (h : i.Respells f i') :
    let root := Context.root runtime.toPath
    let plan := (Node.item i).plan root
    let found := i.guardedAt runtime
    let found' := i'.guardedAt runtime
    (Node.item i').plan root = plan ∧
      (forall a, plan.bindsTail (.item i') a = plan.bindsTail (.item i) a) ∧
      (forall a, (Node.item i').skips a = (Node.item i).skips a) ∧
      found'.faults = found.faults.map (Fault.moved f.place) ∧
      found.value.Respells f found'.value := by
  intro root plan found found'
  have hruntime := Context.opensCall_root runtime
  have hsame : (Node.item i').respelled f.inPlace =
      (Node.item i).respelled f := congrArg Node.item h
  have hplan : (Node.item i').plan root = plan := by
    rw [← Node.plan_respelled hf.inPlace, hsame, Node.plan_respelled hf]
  refine ⟨hplan, ?_, ?_, ?_, ?_⟩
  · intro a
    rw [← Plan.bindsTail_respelled hf.inPlace, hsame,
      Plan.bindsTail_respelled hf]
  · intro a
    rw [← Node.skips_respelled hf.inPlace, hsame, Node.skips_respelled hf]
  · have hfaults := Node.faults_respelled hf hruntime (.item i)
    have hfaults' := Node.faults_respelled hf.inPlace hruntime (.item i')
    have hfound : ((Node.item i).guarded root).faults = found.faults :=
      List.append_nil _
    have hfound' : ((Node.item i').guarded root).faults = found'.faults :=
      List.append_nil _
    rw [← hsame, hfaults', hfound, hfound', Spelling.inPlace, Fault.moved_id,
      List.map_id] at hfaults
    exact hfaults
  · have hruntimes : plan.respelled f.inPlace = plan.respelled f :=
      congrArg (fun path => { plan with runtime := path })
        runtime.toPath_respelled_inPlace
    rw [Respells, value_guardedAt, value_guardedAt, hplan,
      ← Item.placed_respelled hf.inPlace, h, hruntimes,
      Item.placed_respelled hf]

/-- A function in which every name is written raw, but for that of the attribute
of the function inside.  The registration at compile time is a fault in both
items, further to the right in the second one. -/
theorem guardedAt_respelled_function :
    let f : Spelling :=
      { names := fun _ => true
        attrNames := fun name => name != expansionName
        macroNames := fun name => !divergingMacros.contains name
        place := fun pos => if pos = ⟨3, 15⟩ then ⟨3, 17⟩ else pos }
    let parens := Part.ofTokens (Token.group .paren [])
    let item := fun (raw : Bool) (column : Nat) =>
      let call := fun name x => Expr.bare (.call (.ofIdent ⟨raw, name⟩)
        [.expr (.ofIdent ⟨raw, x⟩)])
      Item.mk [] (.function [] false [] ⟨raw, "run"⟩ parens
        [.item (.mk [] (.imports [.word "use"] false
            (.path ⟨raw, "deferred"⟩
              (.rename ⟨raw, "defer"⟩ ⟨raw, "cleanup"⟩)))),
          .expr ⟨2, 4⟩ (call "cleanup" "close") true,
          .item (.mk [.mk false ⟨false, [⟨raw, "tools"⟩, .plain "deferred"]⟩ []]
            (.function [] false [] ⟨raw, "inner"⟩ parens
              [.expr .origin (call "cleanup" "close") true])),
          .expr ⟨3, 4⟩ (.bare (.call (.ofIdent ⟨raw, "go"⟩)
            [.expr (.bare (.block .constBlock
              [.expr ⟨3, column⟩ (call "cleanup" "never") true]))])) true,
          .expr ⟨4, 4⟩ (.bare (.invocation
            ⟨⟨false, [⟨raw, "log"⟩]⟩, .paren, []⟩)) false])
    let i := item false 15
    let i' := item true 17
    let runtime : SimplePath := ⟨true, [.plain "deferred"]⟩
    i.Respells f i' ∧
      (i.guardedAt runtime).faults = [.constContext ⟨3, 15⟩] ∧
      (i'.guardedAt runtime).faults = [.constContext ⟨3, 17⟩] ∧
      (i.guardedAt runtime).value.Respells f (i'.guardedAt runtime).value ∧
      Token.flat (i'.guardedAt runtime).value.tokens =
        "fn r#run ( ) \x7b use r#deferred : : r#defer as r#cleanup ; " ++
          "let __deferred_guard = : : deferred : : __private : : register " ++
          "( r#cleanup , r#close ) ; # [ r#tools : : deferred ] fn r#inner " ++
          "( ) \x7b r#cleanup ( r#close ) ; \x7d r#go ( const \x7b r#cleanup " ++
          "( r#never ) ; \x7d ) ; let __deferred_result = r#log ! ( ) ; " ++
          "__deferred_result \x7d" := by
  intro f parens item i i' runtime
  have hf : f.IsFaithful := ⟨by decide, by decide⟩
  have hi : i.Respells f i' := rfl
  have hfaults : (i.guardedAt runtime).faults = [.constContext ⟨3, 15⟩] := by
    decide +kernel
  rcases guardedAt_respelled runtime hf hi with ⟨_, _, _, hfaults', hvalue⟩
  rw [hfaults] at hfaults'
  refine ⟨hi, hfaults, hfaults', hvalue, ?_⟩
  decide +kernel

/-- The marks that make a difference.  An attribute that is written raw does not
keep a nested item from being expanded, and a macro that never gives a value
is bound as if it gave one. -/
theorem guardedAt_raw_attribute :
    let f : Spelling := ⟨fun _ => true, fun _ => true, fun _ => true, id⟩
    let call := Expr.bare (.call (.ofIdent (.plain "defer"))
      [.expr (.ofIdent (.plain "close"))])
    let run := fun (attrs : List Attr) (body : List Stmt) =>
      Item.mk attrs (.function [] false [] (.plain "run")
        (Part.ofTokens (Token.group .paren [])) body)
    let jobs := fun raw => Item.mk [] (.module [.word "mod"] (.plain "jobs")
      [run [.mk false ⟨false, [⟨raw, "deferred"⟩]⟩ []]
        [.expr .origin call true]])
    let late := fun raw => run []
      [.expr .origin call true,
        .expr .origin (.bare (.invocation ⟨⟨false, [⟨raw, "panic"⟩]⟩, .paren,
          [.atom (.literal "\"late\"")]⟩)) false]
    let guarded := fun i : Item =>
      Token.flat (i.guardedAt ⟨true, [.plain "deferred"]⟩).value.tokens
    (jobs false).Respells f (jobs true) ∧
      guarded (jobs false) =
        "mod jobs \x7b # [ deferred ] fn run ( ) \x7b defer ( close ) ; " ++
          "\x7d \x7d" ∧
      guarded (jobs true) =
        "mod jobs \x7b # [ r#deferred ] fn run ( ) \x7b " ++
          "let __deferred_guard = : : deferred : : __private : : register " ++
          "( defer , close ) ; \x7d \x7d" ∧
      (late false).Respells f (late true) ∧
      guarded (late false) =
        "fn run ( ) \x7b let __deferred_guard = : : deferred : : __private " ++
          ": : register ( defer , close ) ; panic ! ( \"late\" ) \x7d" ∧
      guarded (late true) =
        "fn run ( ) \x7b let __deferred_guard = : : deferred : : __private " ++
          ": : register ( defer , close ) ; let __deferred_result = r#panic " ++
          "! ( \"late\" ) ; __deferred_result \x7d" := by
  intro f call run jobs late guarded
  refine ⟨rfl, ?_, ?_, rfl, ?_, ?_⟩ <;> decide +kernel

end Item
end ScopeExit
