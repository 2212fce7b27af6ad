import ScopeExit.Proofs.Operands
import ScopeExit.Proofs.Restoring

/-!
# Attributes of statements

The attributes in front of an expression statement are those of the expression
and of whatever begins with it: its first operand, the first operand of that, and
so on.  A guard is bound with the attributes of the call that it replaces, since
no attributes stand in front of a callee.  A value that is bound takes its
attributes along, behind the equals sign.
-/

namespace ScopeExit

/-!
## What stands in front
-/

def Attr.isInner : Attr -> Bool
  | .mk inner _ _ => inner

/-- The attributes that stand in front of what they belong to. -/
def outerOf (attrs : List Attr) : List Attr :=
  attrs.filter fun a => !a.isInner

mutual

/-- The attributes in front of an expression: its own, and those of the operand
that it begins with, unless that stands in parentheses. -/
def Expr.frontAttrs : Expr -> List Attr
  | .mk attrs kind =>
      outerOf attrs ++
        (if attrs.any Attr.isInner || kind.isRange && !attrs.isEmpty then []
        else kind.frontAttrs)

def ExprKind.frontAttrs : ExprKind -> List Attr
  | .call callee _ => callee.frontAttrs
  | .binary left _ _ => left.frontAttrs
  | .range parts => partsFrontAttrs parts
  | .data parts => partsFrontAttrs parts
  | .other parts => partsFrontAttrs parts
  | _ => []

def Part.frontAttrs : Part -> List Attr
  | .expr e => e.frontAttrs
  | _ => []

def partsFrontAttrs : List Part -> List Attr
  | [] => []
  | p :: _ => p.frontAttrs

end

def Stmt.frontAttrs : Stmt -> List Attr
  | .binding attrs _ _ => outerOf attrs
  | .item (.mk attrs _) => outerOf attrs
  | .expr _ e _ => e.frontAttrs
  | .invocation attrs _ _ => outerOf attrs

theorem attrsTokens_outerOf (attrs : List Attr) :
    attrsTokens false (outerOf attrs) = attrsTokens false attrs := by
  induction attrs with
  | nil => rfl
  | cons a rest ih =>
      rcases a with ⟨inner, path, args⟩
      cases inner with
      | true => simpa [outerOf, Attr.isInner, attrsTokens] using ih
      | false =>
          rw [outerOf, List.filter_cons_of_pos (by rfl), attrsTokens,
            attrsTokens]
          exact congrArg _ ih

theorem attrsTokens_true_of_outer {attrs : List Attr}
    (h : attrs.any Attr.isInner = false) : attrsTokens true attrs = [] := by
  induction attrs with
  | nil => rfl
  | cons a rest ih =>
      rw [List.any_cons, Bool.or_eq_false_iff] at h
      rcases a with ⟨inner, path, args⟩
      rw [attrsTokens, show inner = false from h.1, ih h.2]
      rfl

/-- Whether written code begins with these attributes. -/
def BeginsWithAttrs (attrs : List Attr) (ts : List Token) : Prop :=
  exists rest, ts = attrsTokens false attrs ++ rest

theorem BeginsWithAttrs.nil (ts : List Token) : BeginsWithAttrs [] ts :=
  ⟨ts, rfl⟩

theorem BeginsWithAttrs.append {attrs : List Attr} {ts : List Token}
    (h : BeginsWithAttrs attrs ts) (more : List Token) :
    BeginsWithAttrs attrs (ts ++ more) := by
  rcases h with ⟨rest, rfl⟩
  exact ⟨rest ++ more, List.append_assoc _ _ _⟩

mutual

theorem Expr.tokens_begin : forall e : Expr,
    BeginsWithAttrs e.frontAttrs e.tokens
  | .mk attrs kind => by
      rw [Expr.frontAttrs, Expr.tokens]
      cases hopens : attrs.any Attr.isInner ||
          kind.isRange && !attrs.isEmpty with
      | true =>
          rw [if_pos rfl, List.append_nil, List.append_assoc]
          exact ⟨_, by rw [attrsTokens_outerOf]⟩
      | false =>
          rw [Bool.or_eq_false_iff] at hopens
          rcases kind.tokens_begin (attrsTokens true attrs) with ⟨rest, h⟩
          refine ⟨rest, ?_⟩
          rw [if_neg Bool.false_ne_true, h, hopens.2,
            Grammar.attrsTokens_append, attrsTokens_outerOf,
            attrsTokens_true_of_outer hopens.1]
          simp [parenIf]

theorem ExprKind.tokens_begin (inner : List Token) : forall k : ExprKind,
    BeginsWithAttrs k.frontAttrs (k.tokens inner)
  | .call callee _ => callee.tokens_begin.append _
  | .binary left _ _ => (left.tokens_begin.append _).append _
  | .range parts => partsTokens_begin parts
  | .data parts => partsTokens_begin parts
  | .other parts => partsTokens_begin parts
  | .path _ => .nil _
  | .qualified _ => .nil _
  | .closure .. => .nil _
  | .paren _ => .nil _
  | .block _ _ => .nil _
  | .ifThen _ _ => .nil _
  | .ifElse _ _ _ => .nil _
  | .whileLoop _ _ _ => .nil _
  | .forLoop _ _ _ _ => .nil _
  | .loop _ _ => .nil _
  | .matchOn _ _ => .nil _
  | .letCond _ _ => .nil _
  | .invocation _ => .nil _
  | .ret _ => .nil _
  | .breakTo _ _ => .nil _
  | .continueTo _ => .nil _

theorem Part.tokens_begin : forall p : Part,
    BeginsWithAttrs p.frontAttrs p.tokens
  | .expr e => e.tokens_begin
  | .token _ => .nil _
  | .attr _ => .nil _
  | .pat _ => .nil _
  | .clauseLast _ _ => .nil _

theorem partsTokens_begin : forall ps : List Part,
    BeginsWithAttrs (partsFrontAttrs ps) (partsTokens ps)
  | [] => .nil _
  | p :: _ => p.tokens_begin.append _

end

theorem Stmt.tokens_begin (s : Stmt) :
    BeginsWithAttrs s.frontAttrs s.tokens := by
  have houter : forall (attrs : List Attr) (rest : List Token),
      BeginsWithAttrs (outerOf attrs) (attrsTokens false attrs ++ rest) :=
    fun attrs rest => ⟨rest, by rw [attrsTokens_outerOf]⟩
  cases s with
  | binding attrs pat init =>
      rw [Stmt.tokens, List.append_assoc]
      exact houter attrs _
  | item i =>
      rcases i with ⟨attrs, kind⟩
      rw [Stmt.tokens, Item.tokens, List.append_assoc]
      exact houter attrs _
  | expr pos e semi => exact e.tokens_begin.append _
  | invocation attrs m semi =>
      rw [Stmt.tokens, List.append_assoc, List.append_assoc]
      exact houter attrs _

/-!
## Callees

Attributes in front of a call belong to the call and not to the path that it
begins with.  That holds of every call at the front of a statement that has been
read.
-/

/-- Whether a callee that is a path has no attributes of its own. -/
def ExprKind.CallsBare : ExprKind -> Prop
  | .call callee _ => callee.isPath = true -> callee.attrs = []
  | _ => True

/-- Whether a callee of the statement that is a path has no attributes of its
own. -/
def Stmt.CallsBare : Stmt -> Prop
  | .expr _ e _ => e.kind.CallsBare
  | _ => True

theorem ExprKind.callsBare_of_isOrdinary {k : ExprKind}
    (h : k.isOrdinary = true) : k.CallsBare := by
  cases k with
  | call callee args => cases h
  | _ => trivial

theorem Expr.not_isPath_of_isOrdinary {e : Expr}
    (h : e.kind.isOrdinary = true) : e.isPath = false := by
  rcases e with ⟨attrs, kind⟩
  cases kind with
  | path p => cases h
  | qualified parts => cases h
  | _ => rfl

/-- Whether an operand may be called: if it is a path, it has no attributes. -/
structure Operand.IsBarePath (o : Operand) : Prop where
  attrs_eq : o.expr.isPath = true -> o.expr.attrs = []
  callsBare : o.expr.kind.CallsBare

namespace Grammar

open Reader

variable (g : Grammar)

theorem kind_withAttrs (attrs : List Attr) (e : Expr) :
    (e.withAttrs attrs).kind = e.kind := by
  cases e
  rfl

theorem kind_attributed (attrs : List Attr) (e : Expr) :
    (attributed attrs e).kind = e.kind := by
  unfold attributed
  split
  · rfl
  · exact kind_withAttrs attrs e

theorem isBarePath_of_isOrdinary {e : Expr} (h : e.kind.isOrdinary = true) :
    (Operand.plain e).IsBarePath where
  attrs_eq hpath := by
    rw [show (Operand.plain e).expr.isPath = false from
      Expr.not_isPath_of_isOrdinary h] at hpath
    cases hpath
  callsBare := ExprKind.callsBare_of_isOrdinary h

theorem isBarePath_toExprKind (p : PathSyntax) :
    (Operand.ofKind p.toExprKind).IsBarePath where
  attrs_eq _ := rfl
  callsBare := by
    unfold PathSyntax.toExprKind
    split <;> trivial

theorem trailers_givesBarePath {e : Operand} (h : e.IsBarePath) :
    (trailers g e).Gives Operand.IsBarePath :=
  trailers_gives g (fun _ => isBarePath_of_isOrdinary)
    (fun _ he _ => ⟨fun hpath => (nomatch hpath), he.attrs_eq⟩) h

theorem readUnary_callsBare (hg : GivesOrdinary g.conditional)
    (allowStruct : Bool) :
    (readUnary g allowStruct).Gives fun o => o.expr.kind.CallsBare := by
  unfold readUnary
  refine gives_behind fun attrs => gives_behind fun ts => ?_
  have hsign : forall k : ExprKind, k.isOrdinary = true ->
      Gives (pure (.plain (.mk attrs k))) fun o : Operand =>
        o.expr.kind.CallsBare := fun k hk =>
    gives_pure (ExprKind.callsBare_of_isOrdinary hk)
  refine gives_ite (gives_bind (referenceExpr_gives g allowStruct) hsign) ?_
  refine gives_ite (gives_bind (signExpr_gives g allowStruct) hsign) ?_
  have hatom := atomExpr_gives g (fun _ => isBarePath_of_isOrdinary)
    isBarePath_toExprKind
    (fun _ => ⟨fun hpath => (nomatch hpath), trivial⟩)
    (gives_bind hg fun _ he => gives_pure (isBarePath_of_isOrdinary he))
    allowStruct
  refine gives_bind hatom fun a ha => ?_
  refine gives_bind (trailers_givesBarePath g ha) fun e he => ?_
  refine gives_behind fun _ => gives_pure ?_
  rw [kind_withAttrs]
  exact he.callsBare

section

variable {P : ExprKind -> Prop}
    (hP : forall k : ExprKind, k.isOrdinary = true -> P k)
    (hrange : forall parts, P (.range parts))

include hP hrange

theorem climbStep_gives (allowStruct : Bool) (left : Operand) (base : Nat) :
    (climbStep g allowStruct left base).Gives fun o =>
      forall e, o = some e -> P e.expr.kind := by
  have hnone : Gives (pure none) fun o : Option Operand =>
      forall e, o = some e -> P e.expr.kind :=
    gives_pure fun _ h => nomatch h
  have hsome : forall e : Operand, P e.expr.kind ->
      Gives (pure (some e)) fun o : Option Operand =>
        forall e, o = some e -> P e.expr.kind := by
    intro e he
    refine gives_pure fun e' h => ?_
    cases h
    exact he
  unfold climbStep
  refine gives_behind fun ts => gives_ite hnone ?_
  split
  · exact gives_ite hnone (gives_behind fun _ => gives_behind fun _ =>
      gives_behind fun _ => hsome _ (hP _ rfl))
  · refine gives_ite ?_ (gives_ite ?_ (gives_ite ?_ hnone))
    · exact gives_behind fun _ => gives_behind fun _ => hsome _ (hP _ rfl)
    · exact gives_behind fun _ => hsome _ (hrange _)
    · exact gives_behind fun _ => gives_behind fun _ => gives_behind fun _ =>
        gives_behind fun _ => hsome _ (hP _ rfl)

theorem climbFuel_gives (allowStruct : Bool) (base fuel : Nat)
    {left : Operand} (h : P left.expr.kind) :
    (climbFuel g allowStruct base fuel left).Gives fun o =>
      P o.expr.kind := by
  induction fuel generalizing left with
  | zero => exact gives_fail _
  | succ fuel ih =>
      unfold climbFuel
      refine gives_bind (climbStep_gives g hP hrange allowStruct left base) ?_
      intro step hstep
      cases step with
      | none => exact gives_pure h
      | some e => exact ih (hstep e rfl)

theorem climb_gives (n : Nat) (allowStruct : Bool) {left : Operand}
    (h : P left.expr.kind) (base : Nat) :
    ((level n).climb allowStruct left base).Gives fun o =>
      P o.expr.kind := by
  cases n with
  | zero => exact gives_fail _
  | succ n =>
      exact gives_behind fun ts =>
        climbFuel_gives (level n) hP hrange allowStruct base (ts.length + 1) h

end

theorem unary_callsBare (n : Nat) (allowStruct : Bool) :
    ((level n).unary allowStruct).Gives fun o => o.expr.kind.CallsBare := by
  cases n with
  | zero => exact gives_fail _
  | succ n =>
      exact readUnary_callsBare (level n) (conditional_givesOrdinary n)
        allowStruct

theorem readLeading_callsBare (n : Nat) :
    (readLeading (level n)).Gives fun e => e.kind.CallsBare := by
  have hclimb : forall {e : Operand}, e.expr.kind.CallsBare ->
      ((level n).climb true e 0).Gives fun o => o.expr.kind.CallsBare :=
    fun h => climb_gives (fun _ => ExprKind.callsBare_of_isOrdinary)
      (fun _ => trivial) n true h 0
  unfold readLeading
  refine gives_behind fun attrs => gives_behind fun ts => ?_
  -- What is shaped like a block is no path, so it may be called as it is.
  refine gives_ite ?_ ?_
  · refine gives_bind ?_ fun e (he : e.kind.isOrdinary = true) =>
      gives_behind fun _ => gives_ite ?_ ?_
    · refine gives_ite (conditional_givesOrdinary n) ?_
      refine gives_ite (whileExpr_givesOrdinary _ none) ?_
      refine gives_ite (forExpr_givesOrdinary _ none) ?_
      refine gives_ite (loopExpr_givesOrdinary _ none) ?_
      refine gives_ite (matchExpr_givesOrdinary _) ?_
      refine gives_ite (tryExpr_givesOrdinary _) ?_
      refine gives_ite (unsafeExpr_givesOrdinary _) ?_
      refine gives_ite (constBlock_givesOrdinary _) ?_
      exact gives_ite (blockExpr_givesOrdinary _ none)
        (labeledExpr_givesOrdinary _)
    · refine gives_bind (trailers_givesBarePath (level n)
        (isBarePath_of_isOrdinary he)) fun e he => ?_
      refine gives_bind (hclimb ?_) fun _ h => gives_pure h
      rw [kind_withAttrs]
      exact he.callsBare
    · refine gives_pure ?_
      rw [kind_withAttrs]
      exact ExprKind.callsBare_of_isOrdinary he
  · refine gives_bind (unary_callsBare n true) fun e he => ?_
    refine gives_bind (hclimb ?_) fun _ h => gives_pure h
    rw [kind_attributed]
    exact he

theorem leading_callsBare (n : Nat) :
    (level n).leading.Gives fun e => e.kind.CallsBare := by
  cases n with
  | zero => exact gives_fail _
  | succ n => exact readLeading_callsBare n

theorem bindingStmt_callsBare (attrs : List Attr) :
    (bindingStmt g attrs).Gives Stmt.CallsBare := by
  unfold bindingStmt
  refine gives_behind fun _ => gives_behind fun _ => gives_behind fun _ => ?_
  dsimp only
  refine gives_ite ?_ ?_
  · exact gives_behind fun _ => gives_behind fun _ => gives_behind fun _ =>
      gives_behind fun _ => gives_behind fun _ => gives_pure trivial
  · exact gives_behind fun _ => gives_behind fun _ => gives_behind fun _ =>
      gives_pure trivial

theorem expressionStmt_callsBare (n : Nat) (pos : Position)
    (attrs : List Attr) :
    (expressionStmt (level n) pos attrs).Gives Stmt.CallsBare := by
  unfold expressionStmt
  refine gives_bind (leading_callsBare n) fun e he => gives_behind fun _ => ?_
  have hwhole : forall semi, Stmt.CallsBare
      (.expr pos (attributed attrs e) semi) := by
    intro semi
    rw [Stmt.CallsBare, kind_attributed]
    exact he
  split
  · refine gives_ite (gives_pure trivial) (gives_pure ?_)
    trivial
  · exact gives_pure (hwhole _)

theorem statement_callsBare (n : Nat) :
    (statement (level n)).Gives Stmt.CallsBare := by
  have hitem : forall whole : List TokenTree, (do
      set whole
      return .item (← (level n).item) : Reader Stmt).Gives Stmt.CallsBare :=
    fun whole => gives_behind fun _ => gives_behind fun _ => gives_pure trivial
  unfold statement
  refine gives_behind fun whole => gives_behind fun pos =>
    gives_behind fun attrs => gives_behind fun ts => ?_
  split
  · exact hitem whole
  · exact gives_behind fun _ => gives_behind fun _ => gives_behind fun _ =>
      gives_pure trivial
  · exact gives_ite (bindingStmt_callsBare _ attrs)
      (gives_ite (hitem whole) (expressionStmt_callsBare n pos attrs))

theorem blockStatement_callsBare (n : Nat) :
    (blockStatement (level n)).Gives Stmt.CallsBare := by
  unfold blockStatement
  refine gives_behind fun _ => gives_ite ?_ ?_
  · exact gives_behind fun _ => gives_behind fun _ => gives_pure trivial
  · refine gives_bind (statement_callsBare n) fun s hs => ?_
    exact gives_behind fun _ => gives_behind fun _ => gives_pure hs

theorem statements_callsBare (n : Nat) :
    (level n).statements.Gives fun body =>
      forall s, s ∈ body -> s.CallsBare := by
  cases n with
  | zero => exact gives_fail _
  | succ n => exact gives_whileNext _ (blockStatement_callsBare n)

end Grammar

/-!
## Attributes of guards and values
-/

namespace Stmt

/-- Statements that are the inside of a block that has been read. -/
def AreRead (body : List Stmt) : Prop :=
  exists n ts rest, (Grammar.level n).statements ts = some (body, rest)

theorem areRead_of_blockOfText? {text : String} {body : List Stmt}
    (h : blockOfText? text = some body) : AreRead body := by
  rcases Option.bind_eq_some_iff.mp h with ⟨ts, _, hread⟩
  have hblock : (Grammar.block (Grammar.forTrees ts)).Gives AreRead :=
    Reader.gives_inside fun ts' body rest h => ⟨_, ts', rest, h⟩
  unfold Grammar.read? Reader.all? at hread
  split at hread
  · next hall =>
    cases hread
    exact hblock _ _ _ hall
  · cases hread

theorem AreRead.callsBare {body : List Stmt} (h : AreRead body) :
    forall s, s ∈ body -> s.CallsBare := by
  rcases h with ⟨n, ts, rest, hread⟩
  exact Grammar.statements_callsBare n ts body rest hread

/-- No attributes stand in front of a callee, so those of the call are all that
stand in front of the statement. -/
theorem frontAttrs_of_isWrittenAs {s : Stmt} {r : Registration}
    (hbare : s.CallsBare) (h : r.IsWrittenAs s) :
    s.frontAttrs = outerOf r.attrs := by
  rcases h with ⟨hpath, pos, comma, semi, rfl⟩
  have hattrs : r.callee.attrs = [] := hbare hpath
  have hcallee : r.callee.frontAttrs = [] := by
    rcases hcallee : r.callee with ⟨attrs, kind⟩
    rw [hcallee] at hpath hattrs
    cases hattrs
    cases kind with
    | path p => rfl
    | qualified parts => rfl
    | _ => cases hpath
  rw [Registration.written, Stmt.frontAttrs, Expr.frontAttrs,
    ExprKind.frontAttrs, hcallee]
  split <;> exact List.append_nil _

theorem frontAttrs_inPlace (runtime : Path) (mark : Bool) {s : Stmt}
    (hbare : s.CallsBare) :
    (s.inPlace runtime mark).frontAttrs = s.frontAttrs := by
  rw [inPlace]
  cases hmarked : s.marked? mark with
  | none => rfl
  | some r =>
      exact (frontAttrs_of_isWrittenAs hbare
        (marked?_eq_some_iff.mp hmarked).2).symm

section

variable {runtime : Path} {body result : List Stmt} {marks : List Bool}
    {i : Nat} {s : Stmt}

theorem getElem?_bindGuards (hs : body[i]? = some s) :
    (bindGuards runtime body marks)[i]? =
      if i + 1 = body.length then
        (s.atEnd runtime (marks[i]?.getD false)).head?
      else some (s.inPlace runtime (marks[i]?.getD false)) := by
  rcases List.eq_nil_or_concat body with rfl | ⟨front, last, rfl⟩
  · cases hs
  · rw [List.concat_eq_append] at *
    rw [bindGuards_concat, List.length_append, List.length_singleton]
    rcases Nat.lt_or_ge i front.length with hi | hi
    · rw [List.getElem?_append_left hi] at hs
      rw [List.getElem?_append_left (by simpa using hi),
        List.getElem?_mapIdx, hs, if_neg (by omega)]
      rfl
    · have hlast : i = front.length := by
        have hlength := (List.getElem?_eq_some_iff.mp hs).1
        simp at hlength
        omega
      rw [hlast] at hs ⊢
      simp only [List.getElem?_concat_length, Option.some.injEq] at hs
      rw [List.getElem?_append_right (by simp), if_pos rfl, hs]
      simp [List.head?_eq_getElem?]

/-- A statement of a block with guards stays in its place, as a guard or as it
is, unless it is the last one and a value that gets bound. -/
theorem getElem?_of_guardBlock
    (hguarded : guardBlock runtime body marks = .ok result)
    (hs : body[i]? = some s) :
    result[i]? =
      if marks.contains true = true ∧ i + 1 = body.length ∧
          s.isBoundValue (marks[i]?.getD false) = true then s.bound.head?
      else some (s.inPlace runtime (marks[i]?.getD false)) := by
  rcases guardBlock_cases hguarded with ⟨hmarks, rfl⟩ | ⟨hmarks, rfl⟩
  · rw [if_neg fun h => Bool.false_ne_true (hmarks.symm.trans h.1), hs,
      inPlace, marked?_eq_none_of_not_contains hmarks]
  · rw [getElem?_bindGuards hs, atEnd]
    by_cases hlast : i + 1 = body.length
    · by_cases hbound : s.isBoundValue (marks[i]?.getD false) = true
      · rw [if_pos hlast, if_pos hbound, if_pos ⟨hmarks, hlast, hbound⟩]
      · rw [if_pos hlast, if_neg hbound, if_neg fun h => hbound h.2.2]
        rfl
    · rw [if_neg hlast, if_neg fun h => hlast h.2.1]

end

/-- Whatever replaces a statement begins with its attributes, unless it binds a
value: then they stand in front of the initial value.  So all statements keep
their attributes in front if and only if no value is bound that has any. -/
theorem frontAttrs_guardBlock {runtime : Path} {body result : List Stmt}
    {marks : List Bool} (hread : AreRead body)
    (hguarded : guardBlock runtime body marks = .ok result) :
    (forall (i : Nat) (s : Stmt), body[i]? = some s ->
        exists t, result[i]? = some t ∧
          (t.frontAttrs = s.frontAttrs ∧
              BeginsWithAttrs s.frontAttrs t.tokens ∨
            i + 1 = body.length ∧ exists pos e, s = .expr pos e false ∧
              t = .binding [] (.binder [] resultName [])
                [.token (.punct '='), .expr e.grouped])) ∧
      ((forall (i : Nat) (s : Stmt), body[i]? = some s ->
          exists t, result[i]? = some t ∧ t.frontAttrs = s.frontAttrs) ↔
        (marks.contains true = true ->
          forall s, body.getLast? = some s ->
            s.isBoundValue (marks[body.length - 1]?.getD false) = true ->
              s.frontAttrs = [])) := by
  have hplace : forall {i : Nat} {s : Stmt}, body[i]? = some s ->
      (s.inPlace runtime (marks[i]?.getD false)).frontAttrs =
        s.frontAttrs := fun hs =>
    frontAttrs_inPlace runtime _
      (hread.callsBare _ (List.mem_of_getElem? hs))
  refine ⟨?_, ?_, ?_⟩
  · intro i s hs
    rw [getElem?_of_guardBlock hguarded hs]
    split
    · next h =>
      rcases isBoundValue_cases h.2.2 with ⟨_, pos, e, rfl⟩
      exact ⟨_, rfl, .inr ⟨h.2.1, pos, e, rfl, rfl⟩⟩
    · refine ⟨_, rfl, .inl ⟨hplace hs, ?_⟩⟩
      rw [← hplace hs]
      exact tokens_begin _
  · intro hall hmarks s hs hbound
    rw [List.getLast?_eq_getElem?] at hs
    have hlength := (List.getElem?_eq_some_iff.mp hs).1
    rcases hall _ s hs with ⟨t, ht, hsame⟩
    rw [getElem?_of_guardBlock hguarded hs,
      if_pos ⟨hmarks, by omega, hbound⟩] at ht
    rcases isBoundValue_cases hbound with ⟨_, pos, e, rfl⟩
    cases ht
    exact hsame.symm
  · intro hnone i s hs
    rw [getElem?_of_guardBlock hguarded hs]
    split
    · next h =>
      have hlast : body.length - 1 = i := by omega
      have hempty := hnone h.1 s
        (by rw [List.getLast?_eq_getElem?, hlast, hs]) (by rw [hlast, h.2.2])
      rcases isBoundValue_cases h.2.2 with ⟨_, pos, e, rfl⟩
      exact ⟨_, rfl, hempty.symm⟩
    · exact ⟨_, rfl, hplace hs⟩

/-- A call and another statement, both with attributes, in front of a value
without any. -/
theorem frontAttrs_guardBlock_bare_value :
    let text := "\x7b #[cfg(unix)] defer(close); #[cold] work(); value() \x7d"
    let runtime : SimplePath := ⟨true, [.plain "deferred"]⟩
    exists body result, blockOfText? text = some body ∧
      guardBlock runtime.toPath body [true] = .ok result ∧
      (result.map fun t => t.frontAttrs.length) = [1, 1, 0, 0] ∧
      forall (i : Nat) (s : Stmt), body[i]? = some s ->
        exists t, result[i]? = some t ∧ t.frontAttrs = s.frontAttrs := by
  intro text runtime
  have hfound : (blockOfText? text).any (fun body =>
      ((bindGuards runtime.toPath body [true]).map fun t =>
          t.frontAttrs.length) == [1, 1, 0, 0] &&
        body.getLast?.all fun s => s.frontAttrs.isEmpty) = true := by
    decide +kernel
  rcases (Option.any_eq_true _ _).mp hfound with ⟨body, hbody, h⟩
  simp only [Bool.and_eq_true, beq_iff_eq] at h
  rcases h with ⟨hlengths, hbare⟩
  have hguarded := guardBlock_eq_bindGuards runtime body
    (show [true].contains true = true from rfl)
  refine ⟨body, _, hbody, hguarded, hlengths, ?_⟩
  refine (frontAttrs_guardBlock (areRead_of_blockOfText? hbody)
    hguarded).2.mpr fun _ s hs _ => ?_
  rw [hs, Option.all_some] at hbare
  exact List.isEmpty_iff.mp hbare

/-- A value with an attribute.  The statement that replaces it has none in front:
the attribute stands in front of the initial value. -/
theorem frontAttrs_guardBlock_bound_value :
    let text := "\x7b defer(cleanup); #[cfg(unix)] value() \x7d"
    let runtime : SimplePath := ⟨true, [.plain "deferred"]⟩
    exists body result, blockOfText? text = some body ∧
      guardBlock runtime.toPath body [true, false] = .ok result ∧
      Token.flat (stmtsTokens result) =
        "let __deferred_guard = : : deferred : : __private : : register " ++
          "( defer , cleanup ) ; let __deferred_result = " ++
            "# [ cfg ( unix ) ] value ( ) ; __deferred_result" ∧
      ¬ forall (i : Nat) (s : Stmt), body[i]? = some s ->
        exists t, result[i]? = some t ∧ t.frontAttrs = s.frontAttrs := by
  intro text runtime
  have hfound : (blockOfText? text).any (fun body =>
      let result := bindGuards runtime.toPath body [true, false]
      Token.flat (stmtsTokens result) ==
          "let __deferred_guard = : : deferred : : __private : : " ++
            "register ( defer , cleanup ) ; let __deferred_result = " ++
              "# [ cfg ( unix ) ] value ( ) ; __deferred_result" &&
        body[1]?.any (fun s => s.frontAttrs.length == 1) &&
        result[1]?.all fun t => t.frontAttrs.isEmpty) = true := by
    decide +kernel
  rcases (Option.any_eq_true _ _).mp hfound with ⟨body, hbody, h⟩
  simp only [Bool.and_eq_true, beq_iff_eq] at h
  rcases h with ⟨⟨htokens, hone⟩, hnone⟩
  have hguarded := guardBlock_eq_bindGuards runtime body
    (show [true, false].contains true = true from rfl)
  refine ⟨body, _, hbody, hguarded, htokens, fun hall => ?_⟩
  rcases (Option.any_eq_true _ _).mp hone with ⟨s, hs, hlength⟩
  rcases hall 1 s hs with ⟨t, ht, hsame⟩
  rw [ht, Option.all_some, hsame, List.isEmpty_iff] at hnone
  rw [hnone] at hlength
  cases hlength

end Stmt

end ScopeExit
