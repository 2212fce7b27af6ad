import ScopeExit.Guarding.Tree

/-!
# What the walk leaves as it is

The walk changes a tree while it still reads from it.  A condition binds for its
body when it has been walked over, a declaration binds when it has, and the end
of a block is judged when all blocks inside it have been guarded.  None of these
readings depends on what the walk has done before.
-/

namespace ScopeExit

/-!
## Names that are bound
-/

mutual

theorem Pat.binders_guarded (c : Context) (p : Pat) :
    (p.guarded c).value.binders = p.binders := by
  cases p with
  | binder before name sub =>
      simp [Pat.guarded, Pat.binders, partsBinders_guarded c sub]
  | compound parts =>
      simp [Pat.guarded, Pat.binders, partsBinders_guarded c parts]

theorem partsBinders_guarded (c : Context) (ps : List Part) :
    partsBinders (partsGuarded c ps).value = partsBinders ps := by
  cases ps with
  | nil => rfl
  | cons p rest =>
      simp [partsGuarded, partsBinders, Part.binders_guarded c p,
        partsBinders_guarded c rest]

theorem Part.binders_guarded (c : Context) (p : Part) :
    (p.guarded c).value.binders = p.binders := by
  cases p with
  | pat p =>
      simp [Part.guarded, Part.binders, Pat.binders_guarded c p]
  | _ => rfl

end

mutual

theorem Expr.conditionBinders_guarded (c : Context) (e : Expr) :
    (e.guarded c).value.conditionBinders = e.conditionBinders := by
  rcases e with ⟨attrs, kind⟩
  simp [Expr.guarded, Expr.conditionBinders,
    ExprKind.conditionBinders_guarded _ kind]

theorem ExprKind.conditionBinders_guarded (c : Context) (k : ExprKind) :
    (k.guarded c).value.conditionBinders = k.conditionBinders := by
  cases k with
  | letCond pat scrutinee =>
      simp [ExprKind.guarded, ExprKind.conditionBinders,
        Pat.binders_guarded c pat]
  | binary left op right =>
      simp [ExprKind.guarded, ExprKind.conditionBinders,
        Expr.conditionBinders_guarded c left,
        Expr.conditionBinders_guarded c right]
  | paren inner =>
      simp [ExprKind.guarded, ExprKind.conditionBinders,
        Expr.conditionBinders_guarded c inner]
  | _ => rfl

end

theorem Context.afterStmt_guarded (c d : Context) (s : Stmt) :
    d.afterStmt (s.guarded c).value = d.afterStmt s := by
  cases s with
  | binding attrs pat init =>
      simp [Stmt.guarded, Context.afterStmt, ScopeStack.afterStmt,
        ScopeStack.bindPat, Pat.binders_guarded c pat]
  | _ => rfl

theorem Expr.guarded_grouped (c : Context) (e : Expr) :
    (e.grouped.guarded c).value = (e.guarded c).value.grouped ∧
      (e.grouped.guarded c).faults = (e.guarded c).faults := by
  rcases e with ⟨attrs, kind⟩
  cases kind with
  | range parts =>
      cases attrs with
      | nil => exact ⟨rfl, rfl⟩
      | cons a rest =>
          refine ⟨rfl, ?_⟩
          simp [Expr.grouped, Expr.guarded, ExprKind.guarded, Expr.bare,
            ExprKind.isRange, ExprKind.hasWalkedAttrs, Context.inExpr,
            attrsGuarded]
  | _ => exact ⟨rfl, rfl⟩

/-!
## Divergence

The end of a block is judged by its last statement, after the blocks inside that
have been guarded.  A guard and a bound value never diverge, and neither do the
statements whose places they take.  So a block diverges if it did before.
-/

theorem stmtsDiverge_cons_of_ne_nil (s : Stmt) {rest : List Stmt}
    (h : rest ≠ []) : stmtsDiverge (s :: rest) = stmtsDiverge rest := by
  cases rest with
  | nil => exact absurd rfl h
  | cons t more => rfl

namespace Stmt

theorem not_diverges_of_ofStmt? {s : Stmt} {r : Registration}
    (h : Registration.ofStmt? s = some r) : s.diverges = false := by
  cases s with
  | expr pos e semi =>
      rcases e with ⟨attrs, kind⟩
      cases kind with
      | call callee args => rfl
      | _ => cases h
  | _ => cases h

theorem stmtsDiverge_bindTail (s : Stmt) :
    stmtsDiverge s.bindTail = s.diverges := by
  cases s with
  | expr pos e semi =>
      cases semi with
      | true => rfl
      | false =>
          rw [bindTail]
          split
          · rename_i hneeds
            have hdiverges : e.diverges = false := by
              simp [Expr.needsBinding] at hneeds
              exact hneeds.2
            simp [stmtsDiverge, diverges, hdiverges, Expr.ofIdent, Expr.bare,
              Expr.diverges, ExprKind.diverges]
          · rfl
  | _ => rfl

theorem bindTail_ne_nil (s : Stmt) : s.bindTail ≠ [] := by
  cases s with
  | expr pos e semi =>
      cases semi with
      | true => simp [bindTail]
      | false =>
          rw [bindTail]
          split <;> simp
  | _ => simp [bindTail]

theorem bindGuards_ne_nil (runtime : Path) {body : List Stmt}
    (h : body ≠ []) (marks : List Bool) :
    bindGuards runtime body marks ≠ [] := by
  cases body with
  | nil => exact absurd rfl h
  | cons s rest =>
      rw [bindGuards]
      split
      · simp
      · split
        · simp [bindTail_ne_nil]
        · simp

theorem stmtsDiverge_bindGuards (runtime : Path) (body : List Stmt)
    (marks : List Bool) :
    stmtsDiverge (bindGuards runtime body marks) = stmtsDiverge body := by
  induction body generalizing marks with
  | nil => rfl
  | cons s rest ih =>
      rw [bindGuards]
      cases rest with
      | nil =>
          split
          · rename_i r hmarked
            have hr : Registration.ofStmt? s = some r := by
              unfold marked? at hmarked
              split at hmarked
              · exact hmarked
              · cases hmarked
            exact (not_diverges_of_ofStmt? hr).symm
          · simpa [bindGuards, stmtsDiverge] using stmtsDiverge_bindTail s
      | cons t more =>
          have hne := bindGuards_ne_nil runtime
            (List.cons_ne_nil t more) marks.tail
          have hrest := ih marks.tail
          split
          · rw [stmtsDiverge_cons_of_ne_nil _ hne, hrest]
            rfl
          · simp only [List.isEmpty_cons, Bool.false_eq_true, if_false,
              List.singleton_append]
            rw [stmtsDiverge_cons_of_ne_nil _ hne, hrest]
            rfl

theorem finishBlock_of_inConst {c : Context} (hconst : c.inConst = true)
    (walked : List (Stmt × Bool)) :
    finishBlock c walked = pure (walked.map Prod.fst) := by
  simp [finishBlock, hconst]

theorem finishBlock_of_no_mark {c : Context} {walked : List (Stmt × Bool)}
    (hmarks : (walked.map Prod.snd).contains true = false) :
    finishBlock c walked = pure (walked.map Prod.fst) := by
  simp only [finishBlock, guardBlock, hmarks]
  split <;> rfl

/-- With a runtime that a call may begin with, every block with a mark is
guarded. -/
theorem finishBlock_of_mark {c : Context}
    (hruntime : c.runtime.opensCall = true) (hconst : c.inConst = false)
    {walked : List (Stmt × Bool)}
    (hmarks : (walked.map Prod.snd).contains true = true) :
    finishBlock c walked =
      pure (bindGuards c.runtime (walked.map Prod.fst)
        (walked.map Prod.snd)) := by
  simp only [finishBlock, guardBlock, hmarks, hconst, hruntime]
  rfl

theorem faults_finishBlock {c : Context}
    (hruntime : c.runtime.opensCall = true) (walked : List (Stmt × Bool)) :
    (finishBlock c walked).faults = [] := by
  cases hconst : c.inConst with
  | true => rw [finishBlock_of_inConst hconst, Report.faults_pure]
  | false =>
      cases hmarks : (walked.map Prod.snd).contains true with
      | false => rw [finishBlock_of_no_mark hmarks, Report.faults_pure]
      | true =>
          rw [finishBlock_of_mark hruntime hconst hmarks, Report.faults_pure]

theorem stmtsDiverge_finishBlock {c : Context}
    (hruntime : c.runtime.opensCall = true) (walked : List (Stmt × Bool)) :
    stmtsDiverge (finishBlock c walked).value =
      stmtsDiverge (walked.map Prod.fst) := by
  cases hconst : c.inConst with
  | true => rw [finishBlock_of_inConst hconst, Report.value_pure]
  | false =>
      cases hmarks : (walked.map Prod.snd).contains true with
      | false => rw [finishBlock_of_no_mark hmarks, Report.value_pure]
      | true =>
          rw [finishBlock_of_mark hruntime hconst hmarks]
          exact stmtsDiverge_bindGuards _ _ _

end Stmt

/-!
The judgement of a whole tree follows its shape.  A runtime that no call may
begin with would empty a block that has guards, so it is excluded here.
-/

namespace Context

@[simp] theorem runtime_inExpr (c : Context) (k : ExprKind) :
    (c.inExpr k).runtime = c.runtime := by
  cases k with
  | block style body => cases style <;> rfl
  | _ => rfl

end Context

theorem stmtsDiverge_walkBlock {c : Context}
    (hruntime : c.runtime.opensCall = true) {body : List Stmt}
    (hbody : forall d : Context, d.runtime.opensCall = true ->
      stmtsDiverge ((stmtsGuarded d body).value.map Prod.fst) =
        stmtsDiverge body) :
    stmtsDiverge (Stmt.walkBlock c body fun c => stmtsGuarded c body).value =
      stmtsDiverge body := by
  rw [Stmt.walkBlock, Report.value_bind,
    Stmt.stmtsDiverge_finishBlock hruntime]
  exact hbody (c.inBlock body) hruntime

mutual

theorem Expr.diverges_guarded {c : Context}
    (hruntime : c.runtime.opensCall = true) (e : Expr) :
    (e.guarded c).value.diverges = e.diverges := by
  rcases e with ⟨attrs, kind⟩
  have hkind := ExprKind.diverges_guarded
    (c := c.inExpr kind) (by simpa using hruntime) kind
  simpa [Expr.guarded, Expr.diverges] using hkind

theorem ExprKind.diverges_guarded {c : Context}
    (hruntime : c.runtime.opensCall = true) (k : ExprKind) :
    (k.guarded c).value.diverges = k.diverges := by
  cases k with
  | paren inner =>
      simpa [ExprKind.guarded, ExprKind.diverges] using
        Expr.diverges_guarded hruntime inner
  | block style body =>
      have hbody := stmtsDiverge_walkBlock hruntime
        fun d hd => stmtsDiverge_guarded (c := d) hd body
      cases style with
      | plain label =>
          cases label with
          | none => simpa [ExprKind.guarded, ExprKind.diverges] using hbody
          | some name => rfl
      | unsafeBlock =>
          simpa [ExprKind.guarded, ExprKind.diverges] using hbody
      | _ => rfl
  | ifElse cond body orElse =>
      have hbody := stmtsDiverge_walkBlock
        (c := c.binding (cond.guarded c).value.conditionBinders)
        hruntime fun d hd => stmtsDiverge_guarded (c := d) hd body
      simp [ExprKind.guarded, ExprKind.diverges, hbody,
        Expr.diverges_guarded hruntime orElse]
  | matchOn scrutinee arms =>
      have harms := armsDiverge_guarded hruntime arms
      cases arms with
      | nil => rfl
      | cons a rest =>
          simp [ExprKind.guarded, ExprKind.diverges, harms]
          simp [armsGuarded]
  | _ => rfl

theorem armsDiverge_guarded {c : Context}
    (hruntime : c.runtime.opensCall = true) (as : List Arm) :
    armsDiverge (armsGuarded c as).value = armsDiverge as := by
  cases as with
  | nil => rfl
  | cons a rest =>
      simp [armsGuarded, armsDiverge, Arm.diverges_guarded hruntime a,
        armsDiverge_guarded hruntime rest]

theorem Arm.diverges_guarded {c : Context}
    (hruntime : c.runtime.opensCall = true) (a : Arm) :
    (a.guarded c).value.diverges = a.diverges := by
  rcases a with ⟨attrs, pat, guard, body, comma⟩
  simp [Arm.guarded, Arm.diverges,
    Expr.diverges_guarded (c := c.binding pat.binders) hruntime body]

theorem stmtsDiverge_guarded {c : Context}
    (hruntime : c.runtime.opensCall = true) (body : List Stmt) :
    stmtsDiverge ((stmtsGuarded c body).value.map Prod.fst) =
      stmtsDiverge body := by
  cases body with
  | nil => rfl
  | cons s rest =>
      have hs := Stmt.diverges_guarded hruntime s
      cases rest with
      | nil =>
          simp [stmtsGuarded, stmtsDiverge, hs]
      | cons t more =>
          have hrest := stmtsDiverge_guarded
            (c := c.afterStmt (s.guarded c).value) hruntime (t :: more)
          rw [stmtsDiverge_cons_of_ne_nil s (by simp), ← hrest]
          rfl

theorem Stmt.diverges_guarded {c : Context}
    (hruntime : c.runtime.opensCall = true) (s : Stmt) :
    (s.guarded c).value.diverges = s.diverges := by
  cases s with
  | expr pos e semi =>
      simp [Stmt.guarded, Stmt.diverges, Expr.diverges_guarded hruntime e]
  | _ => rfl

end

/-!
## Shapes

A place keeps its shape, so what is told apart by shape alone is told apart in
the same way before and after: whether a statement can be taken apart as a
registration, and whether and how the value of a block is bound.
-/

theorem Expr.isLoop_guarded (c : Context) (e : Expr) :
    (e.guarded c).value.isLoop = e.isLoop := by
  rcases e with ⟨attrs, kind⟩
  cases kind <;> rfl

theorem Expr.needsBinding_guarded {c : Context}
    (hruntime : c.runtime.opensCall = true) (e : Expr) :
    (e.guarded c).value.needsBinding = e.needsBinding := by
  rw [Expr.needsBinding, Expr.isLoop_guarded,
    Expr.diverges_guarded hruntime, Expr.needsBinding]

theorem Expr.isPath_guarded (c : Context) (e : Expr) :
    (e.guarded c).value.isPath = e.isPath := by
  rcases e with ⟨attrs, kind⟩
  cases kind <;> rfl

theorem soleArgument?_guarded (c : Context) (args : List Part) :
    soleArgument? (partsGuarded c args).value =
      (soleArgument? args).map fun e => (e.guarded c).value := by
  match args with
  | [] => rfl
  | [p] => cases p <;> rfl
  | [p, q] =>
      cases p with
      | expr e =>
          cases q with
          | token t =>
              by_cases ht : t = .atom (.punct ',')
              · rw [ht]
                rfl
              · simp [partsGuarded, Part.guarded, soleArgument?, ht]
          | _ => rfl
      | _ => rfl
  | p :: q :: r :: rest =>
      have hlong : forall a b c (more : List Part),
          soleArgument? (a :: b :: c :: more) = none := by
        intro a b c more
        unfold soleArgument?
        split <;> simp_all
      simp [partsGuarded, hlong]

namespace Stmt

theorem ofStmt?_guarded_expr (c : Context) (pos : Position)
    (attrs : List Attr) (callee : Expr) (args : List Part) (semi : Bool) :
    Registration.ofStmt?
        ((Stmt.expr pos (.mk attrs (.call callee args)) semi).guarded c).value =
      if callee.isPath then
        (soleArgument? args).map fun action =>
          ⟨(attrsGuarded c attrs).value, (callee.guarded c).value,
            (action.guarded c).value⟩
      else none := by
  have hwalked :
      ((Stmt.expr pos (.mk attrs (.call callee args)) semi).guarded c).value =
        .expr pos (.mk (attrsGuarded c attrs).value
          (.call (callee.guarded c).value (partsGuarded c args).value))
          semi := rfl
  rw [hwalked, Registration.ofStmt?, Expr.isPath_guarded,
    soleArgument?_guarded, Option.map_map]
  rfl

theorem isSome_ofStmt?_guarded (c : Context) (s : Stmt) :
    (Registration.ofStmt? (s.guarded c).value).isSome =
      (Registration.ofStmt? s).isSome := by
  cases s with
  | expr pos e semi =>
      rcases e with ⟨attrs, kind⟩
      cases kind with
      | call callee args =>
          rw [ofStmt?_guarded_expr, Registration.ofStmt?]
          split <;> simp
      | _ => rfl
  | _ => rfl

end Stmt

/-!
## Judgements

Whether a statement is a registration is read off the names of its callee and
the shape of its argument.  Neither changes when the blocks inside them do.
-/

theorem segmentNames_guarded (c : Context) (ss : List Segment) :
    ((segmentsGuarded c ss).value.map fun s => s.name.name) =
      ss.map fun s => s.name.name := by
  induction ss with
  | nil => rfl
  | cons s rest ih =>
      rcases s with ⟨name, args⟩
      simp only [segmentsGuarded, Report.value_bind, Report.value_pure,
        List.map_cons, ih]
      rfl

theorem ScopeStack.resolve_guarded (scope : ScopeStack) (c : Context)
    (p : Path) : scope.resolve (p.guarded c).value = scope.resolve p := by
  rcases p with ⟨absolute, segments⟩
  have hnames : ((Path.mk absolute segments).guarded c).value.names =
      (Path.mk absolute segments).names := segmentNames_guarded c segments
  rw [ScopeStack.resolve, ScopeStack.resolve, hnames]
  rfl

theorem Expr.calleePath?_guarded (c : Context) (e : Expr) :
    (e.guarded c).value.calleePath? =
      e.calleePath?.map fun p => (p.guarded c).value := by
  rcases e with ⟨attrs, kind⟩
  cases kind <;> rfl

theorem partsGuarded_eq_ofTokens_iff (c : Context) (ps : List Part)
    (ts : List Token) :
    (partsGuarded c ps).value = Part.ofTokens ts ↔ ps = Part.ofTokens ts := by
  induction ps generalizing ts with
  | nil => rfl
  | cons p rest ih =>
      cases ts with
      | nil => simp [partsGuarded, Part.ofTokens]
      | cons t more =>
          have hrest := ih more
          rw [Part.ofTokens] at hrest
          cases p <;>
            simp [partsGuarded, Part.guarded, Part.ofTokens, hrest]

theorem returnsUnit_iff (ps : List Part) :
    returnsUnit ps = true ↔
      ps = Part.ofTokens [] ∨
        ps = Part.ofTokens (.punct '-' :: .punct '>' ::
          Token.group .paren []) := by
  constructor
  · intro h
    unfold returnsUnit at h
    split at h
    · exact Or.inl rfl
    · exact Or.inr rfl
    · cases h
  · rintro (h | h)
    · rw [h]
      rfl
    · rw [h]
      rfl

theorem returnsUnit_guarded (c : Context) (ps : List Part) :
    returnsUnit (partsGuarded c ps).value = returnsUnit ps := by
  rw [Bool.eq_iff_iff, returnsUnit_iff, returnsUnit_iff,
    partsGuarded_eq_ofTokens_iff, partsGuarded_eq_ofTokens_iff]

theorem isEmpty_partsGuarded (c : Context) (ps : List Part) :
    (partsGuarded c ps).value.isEmpty = ps.isEmpty := by
  cases ps <;> rfl

mutual

theorem Expr.isAction_guarded (c : Context) (e : Expr) :
    (e.guarded c).value.isAction = e.isAction := by
  rcases e with ⟨attrs, kind⟩
  simp [Expr.guarded, Expr.isAction, ExprKind.isAction_guarded _ kind]

theorem ExprKind.isAction_guarded (c : Context) (k : ExprKind) :
    (k.guarded c).value.isAction = k.isAction := by
  cases k with
  | closure binder marks inputs output body =>
      simp only [ExprKind.guarded, ExprKind.isAction, Report.value_bind,
        Report.value_pure, returnsUnit_guarded, isEmpty_partsGuarded]
  | paren inner =>
      simp [ExprKind.guarded, ExprKind.isAction,
        Expr.isAction_guarded c inner]
  | block style body => cases style <;> rfl
  | _ => rfl

end

theorem Stmt.isRegistration_guarded (c : Context) (scope : ScopeStack)
    (s : Stmt) :
    (s.guarded c).value.isRegistration scope = s.isRegistration scope := by
  cases s with
  | expr pos e semi =>
      rcases e with ⟨attrs, kind⟩
      cases kind with
      | call callee args =>
          have hwalked :
              ((Stmt.expr pos (.mk attrs (.call callee args)) semi).guarded
                  c).value =
                .expr pos (.mk (attrsGuarded c attrs).value
                  (.call (callee.guarded c).value
                    (partsGuarded c args).value)) semi := rfl
          have hresolve : (fun p : Path =>
              decide (scope.resolve (p.guarded c).value = .sentinel)) =
                fun p => decide (scope.resolve p = .sentinel) := by
            funext p
            rw [ScopeStack.resolve_guarded]
          have haction : (fun e : Expr => (e.guarded c).value.isAction) =
              Expr.isAction := by
            funext e
            rw [Expr.isAction_guarded]
          rw [hwalked, isRegistration, isRegistration,
            Expr.calleePath?_guarded, soleArgument?_guarded, Option.any_map,
            Option.any_map]
          simp only [hresolve, haction]
      | _ => rfl
  | _ => rfl

/-!
## Declarations

Items keep their names, and imports are not walked over.  So a block or module
declares what it did before.
-/

theorem ScopeStack.declareItem_guarded (s : ScopeStack) (c : Context)
    (i : Item) : s.declareItem (i.guarded c).value = s.declareItem i := by
  rcases i with ⟨attrs, kind⟩
  rw [Item.guarded]
  split
  · rfl
  · cases kind <;> rfl

theorem ScopeStack.declareItems_guarded (s : ScopeStack) (c : Context)
    (items : List Item) :
    s.declareItems (itemsGuarded c items).value = s.declareItems items := by
  induction items generalizing s with
  | nil => rfl
  | cons i rest ih =>
      have hrest := ih (s.declareItem i)
      simp only [declareItems, itemsGuarded, Report.value_bind,
        Report.value_pure, List.foldl_cons, declareItem_guarded] at hrest ⊢
      exact hrest

theorem ScopeStack.declareStmts_guarded (s : ScopeStack) (c : Context)
    (body : List Stmt) :
    s.declareStmts ((stmtsGuarded c body).value.map Prod.fst) =
      s.declareStmts body := by
  induction body generalizing s c with
  | nil => rfl
  | cons t rest ih =>
      have hrest := fun s => ih s (c.afterStmt (t.guarded c).value)
      cases t with
      | item i =>
          have hi := hrest (s.declareItem i)
          rw [← declareItem_guarded s c i] at hi
          refine Eq.trans hi ?_
          rw [declareItem_guarded s c i]
          rfl
      | _ => exact hrest s

theorem Stmt.itemsOf_bindTail (s : Stmt) :
    ScopeStack.itemsOf s.bindTail = ScopeStack.itemsOf [s] := by
  cases s with
  | expr pos e semi =>
      cases semi with
      | true => rfl
      | false =>
          rw [bindTail]
          split <;> rfl
  | _ => rfl

theorem Stmt.itemsOf_bindGuards (runtime : Path) (body : List Stmt)
    (marks : List Bool) :
    ScopeStack.itemsOf (bindGuards runtime body marks) =
      ScopeStack.itemsOf body := by
  induction body generalizing marks with
  | nil => rfl
  | cons s rest ih =>
      have hrest := ih marks.tail
      rw [bindGuards]
      split
      · rename_i r hmarked
        cases s with
        | expr pos e semi => exact hrest
        | _ =>
            unfold marked? at hmarked
            split at hmarked <;> cases hmarked
      · have hsplit : ScopeStack.itemsOf (s :: rest) =
            ScopeStack.itemsOf [s] ++ ScopeStack.itemsOf rest :=
          List.filterMap_append (l := [s])
        rw [hsplit, ← hrest, ScopeStack.itemsOf, List.filterMap_append]
        split
        · exact congrArg (· ++ _) (itemsOf_bindTail s)
        · rfl

/-!
## Contexts

The contexts inside a shape or an item are the same for the walked one.
-/

theorem Context.inExpr_guarded (d c : Context) (k : ExprKind) :
    d.inExpr (k.guarded c).value = d.inExpr k := by
  cases k with
  | closure binder marks inputs output body =>
      simp [ExprKind.guarded, inExpr, partsBinders_guarded]
  | block style body => cases style <;> rfl
  | _ => rfl

theorem Context.inItem_guarded (d c : Context) (k : ItemKind) :
    d.inItem (k.guarded c).value = d.inItem k := by
  cases k with
  | module before name items =>
      simp [ItemKind.guarded, inItem, ScopeStack.declareItems_guarded]
  | _ => rfl

theorem ExprKind.hasWalkedAttrs_guarded (c : Context) (k : ExprKind) :
    (k.guarded c).value.hasWalkedAttrs = k.hasWalkedAttrs := by
  cases k <;> rfl

theorem ItemKind.hasWalkedAttrs_guarded (c : Context) (k : ItemKind) :
    (k.guarded c).value.hasWalkedAttrs = k.hasWalkedAttrs := by
  cases k <;> rfl

theorem ItemKind.isExpandable_guarded (c : Context) (k : ItemKind) :
    (k.guarded c).value.isExpandable = k.isExpandable := by
  cases k <;> rfl

theorem hasOwnExpansion_guarded (c : Context) (as : List Attr) :
    hasOwnExpansion (attrsGuarded c as).value = hasOwnExpansion as := by
  induction as with
  | nil => rfl
  | cons a rest ih =>
      rcases a with ⟨inner, path, args⟩
      rw [hasOwnExpansion] at ih ⊢
      simp only [attrsGuarded, Report.value_bind, Report.value_pure,
        List.any_cons, ih, hasOwnExpansion]
      rfl

end ScopeExit
