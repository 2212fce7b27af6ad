import ScopeExit.Proofs.Placement
import ScopeExit.Proofs.Walked
import ScopeExit.Expansion

/-!
# Guards in place

The walk judges, changes and binds in one pass.  What comes out is nevertheless
what two passes would give: first every statement of the untouched item is judged
where it stands, which gives a plan, and then the plan is carried out.
-/

namespace ScopeExit

/-!
## The plan of a place below

A plan is read off the whole tree.  For the induction it has to be the same,
below a place, as the plan that is read off from there, with the context that
the walk has by then.
-/

namespace Plan

/-- Whether a plan is the one of a place in a context. -/
def Fits (p : Plan) (n : Node) (c : Context) : Prop := p = n.plan c

theorem Fits.below {p : Plan} {n m : Node} {c : Context} {x : Crossing}
    (i : Nat) (hp : p.Fits n c) (h : n.children[i]? = some (x, m)) :
    (p.below i).Fits m (c.cross x) := by
  have hreplaced : forall a,
      (n.registers c (i :: a) && !n.isConstAt c (i :: a)) =
        (m.registers (c.cross x) a && !m.isConstAt (c.cross x) a) := by
    intro a
    simp only [Node.registers, Node.isConstAt, Node.visit?_cons h]
    rcases m.visit? a with _ | ⟨ys, k⟩
    · rfl
    · cases k <;> rfl
  rw [Fits] at hp
  rw [Fits, hp, Plan.below, Node.plan, Node.plan]
  simp only [hreplaced, Context.runtime_cross]

theorem Fits.level {p : Plan} {n m : Node} {c : Context} (i : Nat)
    (hp : p.Fits n c) (h : n.children[i]? = some (.level, m)) :
    (p.below i).Fits m c :=
  hp.below i h

theorem Fits.runtime_eq {p : Plan} {n : Node} {c : Context}
    (hp : p.Fits n c) : p.runtime = c.runtime := by
  rw [hp]
  rfl

theorem Fits.replaced_head {p : Plan} {s : Stmt} {rest : List Stmt}
    {c : Context} (hp : p.Fits (.stmts (s :: rest)) c) :
    p.replaced [0] = (s.isRegistration c.scope && !c.inConst) := by
  rw [hp]
  rfl

theorem Fits.behind {p : Plan} {s : Stmt} {rest : List Stmt} {c : Context}
    (hp : p.Fits (.stmts (s :: rest)) c) :
    (p.below 1).Fits (.stmts rest)
      (c.afterStmt (s.guarded c).value) := by
  rw [Context.afterStmt_guarded, ← Context.cross_behind]
  exact hp.below 1 rfl

theorem Fits.not_hasGuards {p : Plan} {body : List Stmt} {c : Context}
    (hp : p.Fits (.stmts body) c) (hconst : c.inConst = true) :
    p.hasGuards body = false := by
  induction body generalizing p c with
  | nil => rfl
  | cons s rest ih =>
      have hrest := ih hp.behind hconst
      rw [hasGuards, hp.replaced_head, hrest]
      simp [hconst]

end Plan

/-!
## The walk carries out its plan
-/

theorem marks_contain_true_iff {p : Plan} {body : List Stmt} {c : Context}
    (hp : p.Fits (.stmts body) c) (hconst : c.inConst = false) :
    ((stmtsGuarded c body).value.map Prod.snd).contains true =
      p.hasGuards body := by
  induction body generalizing p c with
  | nil => rfl
  | cons s rest ih =>
      have hrest := ih hp.behind hconst
      rw [Plan.hasGuards, hp.replaced_head, ← hrest]
      cases hs : s.isRegistration c.scope <;>
        simp [stmtsGuarded, hs, hconst]

theorem Stmt.bindTail_guarded {c : Context}
    (hruntime : c.runtime.opensCall = true) (s : Stmt) :
    (s.guarded c).value.bindTail =
      if s.isValue then (s.guarded c).value.bound
      else [(s.guarded c).value] := by
  cases s with
  | expr pos e semi =>
      cases semi with
      | true => rfl
      | false =>
          have hneeds := Expr.needsBinding_guarded hruntime e
          simp only [Stmt.guarded, Stmt.isValue, Stmt.bindTail, Stmt.bound,
            Report.value_bind, Report.value_pure, hneeds]
          rfl
  | _ => rfl

theorem Stmt.bindGuards_placed_cons {p : Plan} {s : Stmt}
    {rest : List Stmt} {c : Context}
    (hruntime : c.runtime.opensCall = true)
    (hp : p.Fits (.stmts (s :: rest)) c) (hconst : c.inConst = false)
    (hs : (s.guarded c).value = s.placed (p.below 0))
    (hrest :
      let behind := stmtsGuarded (c.afterStmt (s.guarded c).value) rest
      bindGuards c.runtime (behind.value.map Prod.fst)
          (behind.value.map Prod.snd) =
        stmtsPlaced (p.below 1) true rest) :
    bindGuards c.runtime
        ((stmtsGuarded c (s :: rest)).value.map Prod.fst)
        ((stmtsGuarded c (s :: rest)).value.map Prod.snd) =
      stmtsPlaced p true (s :: rest) := by
  have hempty : ((stmtsGuarded (c.afterStmt (s.guarded c).value)
      rest).value.map Prod.fst).isEmpty = rest.isEmpty := by
    cases rest <;> rfl
  rw [stmtsPlaced, ← hs, ← hrest, hp.replaced_head, hp.runtime_eq]
  simp only [stmtsGuarded, Report.value_bind, Report.value_pure,
    List.map_cons, bindGuards, List.head?_cons, Option.getD_some,
    List.tail_cons, hempty, hconst, Bool.not_false, Bool.and_true,
    Bool.true_and]
  cases hmark : s.isRegistration c.scope with
  | true =>
      have hsome := isSome_ofStmt?_guarded c s
      rw [isSome_ofStmt?_of_isRegistration hmark] at hsome
      rcases Option.isSome_iff_exists.mp hsome with ⟨r, hr⟩
      simp [marked?, asGuard, hr]
  | false =>
      have htail := bindTail_guarded hruntime s
      cases rest with
      | nil => simp [marked?, htail]
      | cons t more => simp [marked?]

/-- Statements that the walk leaves as planned: with guards in place as planned
for a block that has guards, and otherwise as planned for one that has none. -/
def StmtsPlaced (body : List Stmt) : Prop :=
  forall (p : Plan) (c : Context), c.runtime.opensCall = true ->
    p.Fits (.stmts body) c ->
      (c.inConst = false ->
        Stmt.bindGuards c.runtime
            ((stmtsGuarded c body).value.map Prod.fst)
            ((stmtsGuarded c body).value.map Prod.snd) =
          stmtsPlaced p true body) ∧
      (p.hasGuards body = false ->
        (stmtsGuarded c body).value.map Prod.fst = stmtsPlaced p false body)

theorem Stmt.walkBlock_placed {p : Plan} {body : List Stmt} {c : Context}
    (hruntime : c.runtime.opensCall = true) (hp : p.Fits (.block body) c)
    (hbody : StmtsPlaced body) :
    (walkBlock c body fun c => stmtsGuarded c body).value =
      p.block body fun guarded => stmtsPlaced (p.below 0) guarded body := by
  have hinside : (p.below 0).Fits (.stmts body) (c.inBlock body) :=
    hp.below (x := .block body) 0 rfl
  rcases hbody (p.below 0) (c.inBlock body) hruntime hinside with
    ⟨hguarded, hplain⟩
  rw [walkBlock, Report.value_bind, Plan.block]
  cases hhas : (p.below 0).hasGuards body with
  | false =>
      rw [← hplain hhas]
      cases hconst : c.inConst with
      | true =>
          rw [finishBlock_of_inConst hconst]
          rfl
      | false =>
          have hmarks := marks_contain_true_iff hinside hconst
          rw [hhas] at hmarks
          rw [finishBlock_of_no_mark hmarks]
          rfl
  | true =>
      have hconst : c.inConst = false := by
        cases hconst : c.inConst with
        | false => rfl
        | true =>
            rw [hinside.not_hasGuards hconst] at hhas
            cases hhas
      have hmarks := marks_contain_true_iff hinside hconst
      rw [hhas] at hmarks
      rw [← hguarded hconst, finishBlock_of_mark hruntime hconst hmarks]
      rfl

/-- The body of a condition, which is walked over in the scope of the condition
as the walk has left it. -/
theorem Stmt.conditionBody_placed {p : Plan} {cond : Expr}
    {body : List Stmt} {c : Context} (hruntime : c.runtime.opensCall = true)
    (hp : p.Fits (.block body) (c.cross (.condition cond)))
    (hbody : StmtsPlaced body) :
    (walkBlock (c.binding (cond.guarded c).value.conditionBinders) body
        fun c => stmtsGuarded c body).value =
      p.block body fun guarded => stmtsPlaced (p.below 0) guarded body := by
  rw [Expr.conditionBinders_guarded]
  exact walkBlock_placed (c := c.binding cond.conditionBinders) hruntime hp
    hbody

mutual

theorem Attr.guarded_placed {p : Plan} {c : Context} (a : Attr)
    (hruntime : c.runtime.opensCall = true) (hp : p.Fits (.attr a) c) :
    (a.guarded c).value = a.placed p := by
  rcases a with ⟨inner, path, args⟩
  have hargs := partsGuarded_placed args hruntime (hp.level 0 rfl)
  rw [Attr.placed, ← hargs]
  rfl

theorem attrsGuarded_placed {p : Plan} {c : Context} (as : List Attr)
    (hruntime : c.runtime.opensCall = true) (hp : p.Fits (.attrs as) c) :
    (attrsGuarded c as).value = attrsPlaced p as := by
  cases as with
  | nil => rfl
  | cons a rest =>
      have ha := Attr.guarded_placed a hruntime (hp.level 0 rfl)
      have hrest := attrsGuarded_placed rest hruntime (hp.level 1 rfl)
      rw [attrsPlaced, ← ha, ← hrest]
      rfl

theorem Part.guarded_placed {p : Plan} {c : Context} (q : Part)
    (hruntime : c.runtime.opensCall = true) (hp : p.Fits (.part q) c) :
    (q.guarded c).value = q.placed p := by
  cases q with
  | token t => rfl
  | attr a =>
      have ha := Attr.guarded_placed a hruntime (hp.level 0 rfl)
      rw [Part.placed, ← ha]
      rfl
  | expr e =>
      have he := Expr.guarded_placed e hruntime (hp.level 0 rfl)
      rw [Part.placed, ← he]
      rfl
  | pat q =>
      have hq := Pat.guarded_placed q hruntime (hp.level 0 rfl)
      rw [Part.placed, ← hq]
      rfl
  | clauseLast body clause =>
      have hbody := partsGuarded_placed body hruntime (hp.level 0 rfl)
      have hclause := partsGuarded_placed clause hruntime (hp.level 1 rfl)
      rw [Part.placed, ← hbody, ← hclause]
      rfl

theorem partsGuarded_placed {p : Plan} {c : Context} (ps : List Part)
    (hruntime : c.runtime.opensCall = true) (hp : p.Fits (.parts ps) c) :
    (partsGuarded c ps).value = partsPlaced p ps := by
  cases ps with
  | nil => rfl
  | cons q rest =>
      have hq := Part.guarded_placed q hruntime (hp.level 0 rfl)
      have hrest := partsGuarded_placed rest hruntime (hp.level 1 rfl)
      rw [partsPlaced, ← hq, ← hrest]
      rfl

theorem Segment.guarded_placed {p : Plan} {c : Context} (s : Segment)
    (hruntime : c.runtime.opensCall = true) (hp : p.Fits (.segment s) c) :
    (s.guarded c).value = s.placed p := by
  rcases s with ⟨name, args⟩
  have hargs := partsGuarded_placed args hruntime (hp.level 0 rfl)
  rw [Segment.placed, ← hargs]
  rfl

theorem segmentsGuarded_placed {p : Plan} {c : Context} (ss : List Segment)
    (hruntime : c.runtime.opensCall = true) (hp : p.Fits (.segments ss) c) :
    (segmentsGuarded c ss).value = segmentsPlaced p ss := by
  cases ss with
  | nil => rfl
  | cons s rest =>
      have hs := Segment.guarded_placed s hruntime (hp.level 0 rfl)
      have hrest := segmentsGuarded_placed rest hruntime (hp.level 1 rfl)
      rw [segmentsPlaced, ← hs, ← hrest]
      rfl

theorem Path.guarded_placed {p : Plan} {c : Context} (q : Path)
    (hruntime : c.runtime.opensCall = true) (hp : p.Fits (.path q) c) :
    (q.guarded c).value = q.placed p := by
  rcases q with ⟨absolute, segments⟩
  have hsegments := segmentsGuarded_placed segments hruntime (hp.level 0 rfl)
  rw [Path.placed, ← hsegments]
  rfl

theorem Expr.guarded_placed {p : Plan} {c : Context} (e : Expr)
    (hruntime : c.runtime.opensCall = true) (hp : p.Fits (.expr e) c) :
    (e.guarded c).value = e.placed p := by
  rcases e with ⟨attrs, kind⟩
  have hinside : (c.inExpr kind).runtime.opensCall = true := by
    rw [Context.runtime_inExpr]
    exact hruntime
  have hkind : (kind.guarded (c.inExpr kind)).value =
      kind.placed (p.below 1) := by
    rw [← ExprKind.cross_crossing] at hinside ⊢
    exact ExprKind.guarded_placed kind hinside (hp.below 1 rfl)
  rw [Expr.guarded, Expr.placed, ← hkind]
  cases hwalked : kind.hasWalkedAttrs with
  | false => rfl
  | true =>
      have hattrs : (attrsGuarded (c.inExpr kind) attrs).value =
          attrsPlaced (p.below 0) attrs := by
        rw [← ExprKind.cross_crossing] at hinside ⊢
        refine attrsGuarded_placed attrs hinside (hp.below 0 ?_)
        simp [Node.children, hwalked]
      rw [if_pos rfl, ← hattrs]
      rfl

theorem ExprKind.guarded_placed {p : Plan} {c : Context} (k : ExprKind)
    (hruntime : c.runtime.opensCall = true) (hp : p.Fits (.kind k) c) :
    (k.guarded c).value = k.placed p := by
  cases k with
  | path q =>
      have hq := Path.guarded_placed q hruntime (hp.level 0 rfl)
      rw [ExprKind.placed, ← hq]
      rfl
  | qualified parts =>
      have hparts := partsGuarded_placed parts hruntime (hp.level 0 rfl)
      rw [ExprKind.placed, ← hparts]
      rfl
  | call callee args =>
      have hcallee := Expr.guarded_placed callee hruntime (hp.level 0 rfl)
      have hargs := partsGuarded_placed args hruntime (hp.level 1 rfl)
      rw [ExprKind.placed, ← hcallee, ← hargs]
      rfl
  | closure binder marks inputs output body =>
      have hbinder := partsGuarded_placed binder hruntime (hp.level 0 rfl)
      have hinputs := partsGuarded_placed inputs hruntime (hp.level 1 rfl)
      have houtput := partsGuarded_placed output hruntime (hp.level 2 rfl)
      have hbody := Expr.guarded_placed body hruntime (hp.level 3 rfl)
      rw [ExprKind.placed, ← hbinder, ← hinputs, ← houtput, ← hbody]
      rfl
  | paren inner =>
      have hinner := Expr.guarded_placed inner hruntime (hp.level 0 rfl)
      rw [ExprKind.placed, ← hinner]
      rfl
  | block style body =>
      have hbody := Stmt.walkBlock_placed hruntime (hp.level 0 rfl)
        (stmtsGuarded_placed body)
      rw [ExprKind.placed, ← hbody]
      rfl
  | ifThen cond body =>
      have hcond := Expr.guarded_placed cond hruntime (hp.level 0 rfl)
      have hbody := Stmt.conditionBody_placed hruntime (hp.below 1 rfl)
        (stmtsGuarded_placed body)
      rw [ExprKind.placed, ← hcond, ← hbody]
      rfl
  | ifElse cond body orElse =>
      have hcond := Expr.guarded_placed cond hruntime (hp.level 0 rfl)
      have hbody := Stmt.conditionBody_placed hruntime (hp.below 1 rfl)
        (stmtsGuarded_placed body)
      have horElse := Expr.guarded_placed orElse hruntime (hp.level 2 rfl)
      rw [ExprKind.placed, ← hcond, ← hbody, ← horElse]
      rfl
  | whileLoop label cond body =>
      have hcond := Expr.guarded_placed cond hruntime (hp.level 0 rfl)
      have hbody := Stmt.conditionBody_placed hruntime (hp.below 1 rfl)
        (stmtsGuarded_placed body)
      rw [ExprKind.placed, ← hcond, ← hbody]
      rfl
  | forLoop label pat source body =>
      have hsource := Expr.guarded_placed source hruntime (hp.level 0 rfl)
      have hbody := Stmt.walkBlock_placed (c := c.binding pat.binders) hruntime
        (hp.below (x := .pattern pat) 1 rfl) (stmtsGuarded_placed body)
      rw [ExprKind.placed, ← hsource, ← hbody]
      rfl
  | loop label body =>
      have hbody := Stmt.walkBlock_placed hruntime (hp.level 0 rfl)
        (stmtsGuarded_placed body)
      rw [ExprKind.placed, ← hbody]
      rfl
  | matchOn scrutinee arms =>
      have hscrutinee := Expr.guarded_placed scrutinee hruntime
        (hp.level 0 rfl)
      have harms := armsGuarded_placed arms hruntime (hp.level 1 rfl)
      rw [ExprKind.placed, ← hscrutinee, ← harms]
      rfl
  | letCond pat scrutinee =>
      have hpat := Pat.guarded_placed pat hruntime (hp.level 0 rfl)
      have hscrutinee := Expr.guarded_placed scrutinee hruntime
        (hp.level 1 rfl)
      rw [ExprKind.placed, ← hpat, ← hscrutinee]
      rfl
  | binary left op right =>
      have hleft := Expr.guarded_placed left hruntime (hp.level 0 rfl)
      have hright := Expr.guarded_placed right hruntime (hp.level 1 rfl)
      rw [ExprKind.placed, ← hleft, ← hright]
      rfl
  | invocation m => rfl
  | ret value =>
      have hvalue := partsGuarded_placed value hruntime (hp.level 0 rfl)
      rw [ExprKind.placed, ← hvalue]
      rfl
  | breakTo label value =>
      have hvalue := partsGuarded_placed value hruntime (hp.level 0 rfl)
      rw [ExprKind.placed, ← hvalue]
      rfl
  | continueTo label => rfl
  | range parts =>
      have hparts := partsGuarded_placed parts hruntime (hp.level 0 rfl)
      rw [ExprKind.placed, ← hparts]
      rfl
  | data parts =>
      have hparts := partsGuarded_placed parts hruntime (hp.level 0 rfl)
      rw [ExprKind.placed, ← hparts]
      rfl
  | other parts =>
      have hparts := partsGuarded_placed parts hruntime (hp.level 0 rfl)
      rw [ExprKind.placed, ← hparts]
      rfl

theorem Pat.guarded_placed {p : Plan} {c : Context} (q : Pat)
    (hruntime : c.runtime.opensCall = true) (hp : p.Fits (.pat q) c) :
    (q.guarded c).value = q.placed p := by
  cases q with
  | binder before name sub =>
      have hsub := partsGuarded_placed sub hruntime (hp.level 0 rfl)
      rw [Pat.placed, ← hsub]
      rfl
  | compound parts =>
      have hparts := partsGuarded_placed parts hruntime (hp.level 0 rfl)
      rw [Pat.placed, ← hparts]
      rfl

theorem Arm.guarded_placed {p : Plan} {c : Context} (a : Arm)
    (hruntime : c.runtime.opensCall = true) (hp : p.Fits (.arm a) c) :
    (a.guarded c).value = a.placed p := by
  rcases a with ⟨attrs, pat, guard, body, comma⟩
  have hinside : (c.binding pat.binders).runtime.opensCall = true := hruntime
  have hattrs := attrsGuarded_placed attrs hinside
    (hp.below (x := .pattern pat) 0 rfl)
  have hpat := Pat.guarded_placed pat hinside
    (hp.below (x := .pattern pat) 1 rfl)
  have hguard := partsGuarded_placed guard hinside
    (hp.below (x := .pattern pat) 2 rfl)
  have hbody := Expr.guarded_placed body hinside
    (hp.below (x := .pattern pat) 3 rfl)
  rw [Arm.placed, ← hattrs, ← hpat, ← hguard, ← hbody]
  rfl

theorem armsGuarded_placed {p : Plan} {c : Context} (as : List Arm)
    (hruntime : c.runtime.opensCall = true) (hp : p.Fits (.arms as) c) :
    (armsGuarded c as).value = armsPlaced p as := by
  cases as with
  | nil => rfl
  | cons a rest =>
      have ha := Arm.guarded_placed a hruntime (hp.level 0 rfl)
      have hrest := armsGuarded_placed rest hruntime (hp.level 1 rfl)
      rw [armsPlaced, ← ha, ← hrest]
      rfl

theorem Stmt.guarded_placed {p : Plan} {c : Context} (s : Stmt)
    (hruntime : c.runtime.opensCall = true) (hp : p.Fits (.stmt s) c) :
    (s.guarded c).value = s.placed p := by
  cases s with
  | binding attrs pat init =>
      have hattrs := attrsGuarded_placed attrs hruntime (hp.level 0 rfl)
      have hpat := Pat.guarded_placed pat hruntime (hp.level 1 rfl)
      have hinit := partsGuarded_placed init hruntime (hp.level 2 rfl)
      rw [Stmt.placed, ← hattrs, ← hpat, ← hinit]
      rfl
  | item i =>
      have hi := Item.guarded_placed i hruntime (hp.level 0 rfl)
      rw [Stmt.placed, ← hi]
      rfl
  | expr pos e semi =>
      have he := Expr.guarded_placed e hruntime (hp.level 0 rfl)
      rw [Stmt.placed, ← he]
      rfl
  | invocation attrs m semi =>
      have hattrs := attrsGuarded_placed attrs hruntime (hp.level 0 rfl)
      rw [Stmt.placed, ← hattrs]
      rfl

theorem stmtsGuarded_placed (body : List Stmt) : StmtsPlaced body := by
  intro p c hruntime hp
  cases body with
  | nil => exact ⟨fun _ => rfl, fun _ => rfl⟩
  | cons s rest =>
      have hs := Stmt.guarded_placed s hruntime (hp.level 0 rfl)
      rcases stmtsGuarded_placed rest (p.below 1)
        (c.afterStmt (s.guarded c).value) hruntime hp.behind with
        ⟨hguarded, hplain⟩
      constructor
      · intro hconst
        exact Stmt.bindGuards_placed_cons hruntime hp hconst hs
          (hguarded hconst)
      · intro hhas
        rw [Plan.hasGuards] at hhas
        rcases Bool.or_eq_false_iff.mp hhas with ⟨hhead, hbelow⟩
        rw [stmtsPlaced, ← hs, ← hplain hbelow, hhead]
        rfl

theorem Item.guarded_placed {p : Plan} {c : Context} (i : Item)
    (hruntime : c.runtime.opensCall = true) (hp : p.Fits (.item i) c) :
    (i.guarded c).value = i.placed p := by
  rcases i with ⟨attrs, kind⟩
  rw [Item.guarded, Item.placed]
  cases hskip : kind.isExpandable && hasOwnExpansion attrs with
  | true => rfl
  | false =>
      have hinside : (c.inItem kind).runtime.opensCall = true := by
        rw [← ItemKind.cross_crossing, Context.runtime_cross]
        exact hruntime
      have hkind : (kind.guarded (c.inItem kind)).value =
          kind.placed (p.below 1) := by
        rw [← ItemKind.cross_crossing] at hinside ⊢
        refine ItemKind.guarded_placed kind hinside (hp.below 1 ?_)
        simp [Node.children, hskip]
      rw [← hkind]
      cases hwalked : kind.hasWalkedAttrs with
      | false => rfl
      | true =>
          have hattrs : (attrsGuarded (c.inItem kind) attrs).value =
              attrsPlaced (p.below 0) attrs := by
            rw [← ItemKind.cross_crossing] at hinside ⊢
            refine attrsGuarded_placed attrs hinside (hp.below 0 ?_)
            simp [Node.children, hskip, hwalked]
          rw [← hattrs]
          rfl

theorem ItemKind.guarded_placed {p : Plan} {c : Context} (k : ItemKind)
    (hruntime : c.runtime.opensCall = true) (hp : p.Fits (.itemKind k) c) :
    (k.guarded c).value = k.placed p := by
  cases k with
  | function before isConst qualifiers name signature body =>
      have hbody := Stmt.walkBlock_placed hruntime (hp.level 0 rfl)
        (stmtsGuarded_placed body)
      rw [ItemKind.placed, ← hbody]
      rfl
  | constant before name after =>
      have hafter := partsGuarded_placed after hruntime (hp.level 0 rfl)
      rw [ItemKind.placed, ← hafter]
      rfl
  | implementation header members =>
      have hheader := partsGuarded_placed header hruntime (hp.level 0 rfl)
      have hmembers := itemsGuarded_placed members hruntime (hp.level 1 rfl)
      rw [ItemKind.placed, ← hheader, ← hmembers]
      rfl
  | traitDef before name header members =>
      have hheader := partsGuarded_placed header hruntime (hp.level 0 rfl)
      have hmembers := itemsGuarded_placed members hruntime (hp.level 1 rfl)
      rw [ItemKind.placed, ← hheader, ← hmembers]
      rfl
  | module before name items =>
      have hitems := itemsGuarded_placed items hruntime (hp.level 0 rfl)
      rw [ItemKind.placed, ← hitems]
      rfl
  | definition before name after =>
      have hafter := partsGuarded_placed after hruntime (hp.level 0 rfl)
      rw [ItemKind.placed, ← hafter]
      rfl
  | other parts =>
      have hparts := partsGuarded_placed parts hruntime (hp.level 0 rfl)
      rw [ItemKind.placed, ← hparts]
      rfl
  | _ => rfl

theorem itemsGuarded_placed {p : Plan} {c : Context} (is : List Item)
    (hruntime : c.runtime.opensCall = true) (hp : p.Fits (.items is) c) :
    (itemsGuarded c is).value = itemsPlaced p is := by
  cases is with
  | nil => rfl
  | cons i rest =>
      have hi := Item.guarded_placed i hruntime (hp.level 0 rfl)
      have hrest := itemsGuarded_placed rest hruntime (hp.level 1 rfl)
      rw [itemsPlaced, ← hi, ← hrest]
      rfl

end

/-!
## Every registration at once
-/

namespace Item

/-- Nothing is registered where no statement calls a path with one argument. -/
theorem not_registers_of_holdsWithin {i : Item} (depth : Nat)
    (h : (Node.item i).holdsWithin (fun m =>
      match m with
      | .stmt s => (Registration.ofStmt? s).isNone
      | _ => true) depth = true) (c : Context) (a : Address) :
    (Node.item i).registers c a = false := by
  rw [Node.registers]
  split
  · next xs s hvisit =>
    have hnone := Node.holds_of_holdsWithin h hvisit
    rw [← Bool.not_eq_true]
    intro hregisters
    have hsome := Stmt.isSome_ofStmt?_of_isRegistration hregisters
    simp [Option.isNone_iff_eq_none.mp hnone] at hsome
  · rfl

/-- The walk carries out the plan of the untouched item. -/
theorem value_guardedAt (runtime : SimplePath) (i : Item) :
    (i.guardedAt runtime).value =
      i.placed ((Node.item i).plan (.root runtime.toPath)) := by
  have hruntime :
      (Context.root runtime.toPath).runtime.opensCall = true := by
    simp [Context.root, Path.opensCall]
  exact Item.guarded_placed i hruntime rfl

/-- The item that the walk leaves is the untouched one with guards in place of
all its registrations outside of code that is evaluated at compile time, and
with the values of the blocks bound that such registrations stand in.  An item
without registrations is left as it is. -/
theorem guardedAt_eq_placed (runtime : SimplePath) (i : Item) :
    let root := Context.root runtime.toPath
    (i.guardedAt runtime).value =
        i.placed
          { runtime := runtime.toPath
            replaced := fun a =>
              (Node.item i).registers root a &&
                !(Node.item i).isConstAt root a } ∧
      ((forall a, (Node.item i).registers root a = false) ->
        (i.guardedAt runtime).value = i) := by
  intro root
  constructor
  · exact value_guardedAt runtime i
  · intro hnone
    have hidle : ((Node.item i).plan root).IsIdle := by
      intro a
      simp only [Node.plan, hnone a, Bool.false_and]
    rw [value_guardedAt, Item.placed_of_idle i hidle]

/-- A registration in front of a conditional, and another one in its first
branch.  The values of both blocks are bound, and the second branch is left as
it is; so is a whole item without registrations. -/
theorem guardedAt_conditional :
    let call := fun f x => Expr.bare (.call (.ofIdent (.plain f))
      [.expr (.ofIdent (.plain x))])
    let value := fun x => Stmt.expr .origin (.ofIdent (.plain x)) false
    let i := Item.mk [] (.function [] false [] (.plain "run")
      [.token (.opening .paren), .token (.closing .paren)]
      [.expr .origin (call "defer" "close") true,
        .expr .origin (.bare (.ifElse (.ofIdent (.plain "ready"))
          [.expr .origin (call "defer" "flush") true, value "full"]
          (.bare (.block (.plain none) [value "empty"])))) false])
    let quiet := Item.mk [] (.function [] false [] (.plain "run")
      [.token (.opening .paren), .token (.closing .paren)] [value "empty"])
    (quiet.guardedAt ⟨true, [.plain "deferred"]⟩).value = quiet ∧
      Token.flat (i.guardedAt ⟨true, [.plain "deferred"]⟩).value.tokens =
        "fn run ( ) \x7b let __deferred_guard = : : deferred : : __private " ++
          ": : register ( defer , close ) ; let __deferred_result = if " ++
          "ready \x7b let __deferred_guard = : : deferred : : __private : : " ++
          "register ( defer , flush ) ; let __deferred_result = full ; " ++
          "__deferred_result \x7d else \x7b empty \x7d ; " ++
          "__deferred_result \x7d" := by
  intro call value i quiet
  constructor
  · apply (guardedAt_eq_placed _ quiet).2
    exact not_registers_of_holdsWithin 16 (by decide) _
  · rw [(guardedAt_eq_placed _ i).1]
    decide +kernel

end Item

end ScopeExit
