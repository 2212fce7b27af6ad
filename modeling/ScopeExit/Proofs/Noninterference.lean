import ScopeExit.Proofs.OpaqueRegions

/-!
# Noninterference

Two trees that are alike but for their opaque regions are expanded alike: the
results are alike but for the same regions, and the same faults are found.  So
nothing that stands in such a region has a say in what becomes of the rest.

The two walks are followed side by side.  What holds of two reports is shown
step by step, as the walks are put together.
-/

namespace ScopeExit

/-!
## Two walks side by side
-/

/-- Whether two walks find the same wrong, at places that have moved, and make
related things of what they walk over. -/
structure Report.Corresponds {α : Type} (move : Position -> Position)
    (R : α -> α -> Prop) (r r' : Report α) : Prop where
  faults : r'.faults = r.faults.map (Fault.moved move)
  value : R r.value r'.value

namespace Report.Corresponds

variable {α β : Type} {move : Position -> Position} {R : α -> α -> Prop}
  {S : β -> β -> Prop} {r r' : Report α}

theorem pure {a a' : α} (h : R a a') :
    Corresponds move R (Pure.pure a) (Pure.pure a') :=
  ⟨rfl, h⟩

theorem bind {g g' : α -> Report β} (h : Corresponds move R r r')
    (hg : forall a a', R a a' -> Corresponds move S (g a) (g' a')) :
    Corresponds move S (r >>= g) (r' >>= g') := by
  have hnext := hg r.value r'.value h.value
  refine ⟨?_, hnext.value⟩
  rw [faults_bind, faults_bind, h.faults, hnext.faults, List.map_append]

theorem map {k k' : α -> β} (h : Corresponds move R r r')
    (hk : forall a a', R a a' -> S (k a) (k' a')) :
    Corresponds move S (r >>= fun a => Pure.pure (k a))
      (r' >>= fun a => Pure.pure (k' a)) :=
  h.bind fun a a' hvalue => pure (hk a a' hvalue)

end Report.Corresponds

/-!
## Blocks

Guards and bound values stand at the same places in both blocks.
-/

namespace Node.Refilled

variable {move : Position -> Position} {rs qs : List (Region × Region)}

theorem simplePath (move : Position -> Position) (p : SimplePath) :
    Refilled move [] (.path p.toPath) (.path p.toPath) := by
  have hsegments : forall is : List Ident,
      Refilled move [] (.segments (is.map fun i => .mk i []))
        (.segments (is.map fun i => .mk i [])) := by
    intro is
    induction is with
    | nil => exact .segmentsNil
    | cons i is ih => exact .segmentsCons (.segment .partsNil) ih
  exact .path (hsegments p.segments)

theorem stmts_append {xs xs' ys ys' : List Stmt}
    (hx : Refilled move rs (.stmts xs) (.stmts xs'))
    (hy : Refilled move qs (.stmts ys) (.stmts ys')) :
    Refilled move (rs ++ qs) (.stmts (xs ++ ys)) (.stmts (xs' ++ ys')) := by
  induction xs generalizing rs xs' with
  | nil =>
      cases hx with
      | stmtsNil => exact hy
  | cons x xs ih =>
      cases hx with
      | stmtsCons hx hxs =>
          rw [List.append_assoc]
          exact .stmtsCons hx (ih hxs)

theorem binder_refl (move : Position -> Position) (name : Ident) :
    Refilled move [] (.pat (.binder [] name [])) (.pat (.binder [] name [])) :=
  .binder .partsNil

theorem guard {runtime : SimplePath} {as as' : List Attr}
    {callee callee' action action' : Expr} {us : List (Region × Region)}
    (has : Refilled move rs (.attrs as) (.attrs as'))
    (hcallee : Refilled move qs (.expr callee) (.expr callee'))
    (haction : Refilled move us (.expr action) (.expr action')) :
    Refilled move (rs ++ (qs ++ us))
      (.stmt (Registration.guard runtime.toPath ⟨as, callee, action⟩))
      (.stmt (Registration.guard runtime.toPath ⟨as', callee', action'⟩)) := by
  have hargs := Refilled.partsCons (.partExpr hcallee)
    (.partsCons (.partToken (.punct ',')) (.partsCons (.partExpr haction)
      .partsNil))
  have hpath := Refilled.simplePath move
    ⟨runtime.absolute,
      runtime.segments ++ [.plain "__private", .plain "register"]⟩
  rw [← SimplePath.extend_registerSegments] at hpath
  have hcall := Refilled.expr .attrsNil
    (.call (.expr .attrsNil (.kindPath hpath)) hargs)
  have hinit := Refilled.partsCons (.partToken (.punct '='))
    (.partsCons (.partExpr hcall) .partsNil)
  have hguard := Refilled.binding has (binder_refl move guardName) hinit
  simpa [Registration.guard, Expr.bare] using hguard

theorem ofStmt?_rel (runtime : SimplePath) {x x' : Stmt}
    (h : Refilled move rs (.stmt x) (.stmt x')) :
    Option.Rel (fun r r' => Refilled move rs
        (.stmt (r.guard runtime.toPath)) (.stmt (r'.guard runtime.toPath)))
      (Registration.ofStmt? x) (Registration.ofStmt? x') := by
  cases h with
  | stmtExpr pos he =>
      cases he with
      | expr has hk =>
          cases hk with
          | @call callee callee' args args' rs qs hcallee hargs =>
              rw [Registration.ofStmt?, Registration.ofStmt?,
                ← hcallee.isPath_eq]
              split
              · have hrel := hargs.soleArgument?_rel
                generalize soleArgument? args = o, soleArgument? args' = o' at *
                cases hrel with
                | none => exact .none
                | some haction => exact .some (has.guard hcallee haction)
              · exact .none
          | _ => exact .none
  | _ => exact .none

theorem isEmpty_attrs_eq {as as' : List Attr}
    (h : Refilled move rs (.attrs as) (.attrs as')) :
    as.isEmpty = as'.isEmpty := by
  cases h <;> rfl

theorem isRange_eq {k k' : ExprKind}
    (h : Refilled move rs (.kind k) (.kind k')) : k.isRange = k'.isRange := by
  cases h <;> rfl

theorem grouped {e e' : Expr} (h : Refilled move rs (.expr e) (.expr e')) :
    Refilled move rs (.expr e.grouped) (.expr e'.grouped) := by
  cases h with
  | expr has hk =>
      rw [Expr.grouped, Expr.grouped, hk.isRange_eq, has.isEmpty_attrs_eq]
      split
      · exact .expr has (.paren (.expr .attrsNil hk))
      · exact .expr has hk

theorem bindTail {x x' : Stmt} (h : Refilled move rs (.stmt x) (.stmt x')) :
    Refilled move rs (.stmts x.bindTail) (.stmts x'.bindTail) := by
  have hsame : Refilled move rs (.stmts [x]) (.stmts [x']) := by
    simpa using Refilled.stmtsCons h .stmtsNil
  cases h with
  | @stmtExpr pos e e' semi rs he =>
      cases semi with
      | true => exact hsame
      | false =>
          rw [Stmt.bindTail, Stmt.bindTail, ← he.needsBinding_eq]
          split
          · have hinit := Refilled.partsCons (.partToken (.punct '='))
              (.partsCons (.partExpr he.grouped) .partsNil)
            have hbinding := Refilled.binding .attrsNil
              (binder_refl move resultName) hinit
            have hresult : Refilled move [] (.expr (.ofIdent resultName))
                (.expr (.ofIdent resultName)) :=
              .expr .attrsNil
                (.kindPath (simplePath move ⟨false, [resultName]⟩))
            simpa using Refilled.stmtsCons hbinding
              (.stmtsCons (.stmtExpr pos hresult) .stmtsNil)
          · exact hsame
  | _ => exact hsame

theorem marked?_rel (runtime : SimplePath) {x x' : Stmt}
    (h : Refilled move rs (.stmt x) (.stmt x')) (mark : Bool) :
    Option.Rel (fun r r' => Refilled move rs
        (.stmt (r.guard runtime.toPath)) (.stmt (r'.guard runtime.toPath)))
      (x.marked? mark) (x'.marked? mark) := by
  cases mark with
  | false => exact .none
  | true => exact h.ofStmt?_rel runtime

theorem bindGuards (runtime : SimplePath) {body body' : List Stmt}
    (h : Refilled move rs (.stmts body) (.stmts body')) (marks : List Bool) :
    Refilled move rs (.stmts (Stmt.bindGuards runtime.toPath body marks))
      (.stmts (Stmt.bindGuards runtime.toPath body' marks)) := by
  induction body generalizing rs body' marks with
  | nil =>
      cases h with
      | stmtsNil => exact .stmtsNil
  | cons x rest ih =>
      cases h with
      | @stmtsCons x x' rest rest' rs qs hx hrest =>
          rw [Stmt.bindGuards, Stmt.bindGuards]
          have hmarked := hx.marked?_rel runtime (marks.head?.getD false)
          generalize x.marked? _ = o, x'.marked? _ = o' at *
          cases hmarked with
          | some hguard => exact .stmtsCons hguard (ih hrest marks.tail)
          | none =>
              have hempty : rest.isEmpty = rest'.isEmpty := by
                cases hrest <;> rfl
              have hfirst : Refilled move rs
                  (.stmts (if rest.isEmpty then x.bindTail else [x]))
                  (.stmts (if rest'.isEmpty then x'.bindTail else [x'])) := by
                rw [hempty]
                split
                · exact hx.bindTail
                · simpa using Refilled.stmtsCons hx .stmtsNil
              exact hfirst.stmts_append (ih hrest marks.tail)

theorem finishBlock {runtime : SimplePath} {c : Context}
    (hruntime : c.runtime = runtime.toPath)
    {walked walked' : List (Stmt × Bool)}
    (h : Refilled move rs (.stmts (walked.map Prod.fst))
      (.stmts (walked'.map Prod.fst)))
    (hmarks : walked.map Prod.snd = walked'.map Prod.snd) :
    Report.Corresponds move
      (fun body body' => Refilled move rs (.block body) (.block body'))
      (Stmt.finishBlock c walked) (Stmt.finishBlock c walked') := by
  have hopens : c.runtime.opensCall = true := by
    simp [hruntime, Path.opensCall]
  cases hconst : c.inConst with
  | true =>
      rw [Stmt.finishBlock_of_inConst hconst,
        Stmt.finishBlock_of_inConst hconst]
      exact .pure (.block h)
  | false =>
      cases hguards : (walked.map Prod.snd).contains true with
      | false =>
          rw [Stmt.finishBlock_of_no_mark hguards,
            Stmt.finishBlock_of_no_mark (hmarks ▸ hguards)]
          exact .pure (.block h)
      | true =>
          rw [Stmt.finishBlock_of_mark hopens hconst hguards,
            Stmt.finishBlock_of_mark hopens hconst (hmarks ▸ hguards),
            hruntime, ← hmarks]
          exact .pure (.block (h.bindGuards runtime _))

theorem check {x x' : Stmt} (h : Refilled move rs (.stmt x) (.stmt x'))
    (c : Context) :
    Report.Corresponds move (fun _ _ => True) (x.check c) (x'.check c) := by
  have hsame := h.isRegistration_eq c.scope
  cases h with
  | stmtExpr pos he =>
      rw [Stmt.check, Stmt.check, hsame]
      split
      · exact ⟨rfl, trivial⟩
      · exact .pure trivial
  | _ => exact .pure trivial

end Node.Refilled

/-!
## The walk

The relation between two trees is passed on by each step of the walk.  What the
steps need to know of a place, such as the names that a pattern binds, is the
same in both trees, so that they are taken in the same context.
-/

namespace Node

/-- Whether two walks over places of one sort make trees that are alike but for
their opaque regions. -/
abbrev Alters {α : Type} (move : Position -> Position) (node : α -> Node)
    (rs : List (Region × Region)) (r r' : Report α) : Prop :=
  r.Corresponds move (fun a a' => Refilled move rs (node a) (node a')) r'

/-- Whether two places become alike but for their opaque regions when they are
walked over.  Two lists of statements also get the same marks. -/
def Walks (move : Position -> Position) (rs : List (Region × Region))
    (c : Context) : Node -> Node -> Prop
  | .attr a, .attr a' => Alters move .attr rs (a.guarded c) (a'.guarded c)
  | .attrs as, .attrs as' =>
      Alters move .attrs rs (attrsGuarded c as) (attrsGuarded c as')
  | .part p, .part p' => Alters move .part rs (p.guarded c) (p'.guarded c)
  | .parts ps, .parts ps' =>
      Alters move .parts rs (partsGuarded c ps) (partsGuarded c ps')
  | .segment s, .segment s' =>
      Alters move .segment rs (s.guarded c) (s'.guarded c)
  | .segments ss, .segments ss' =>
      Alters move .segments rs (segmentsGuarded c ss) (segmentsGuarded c ss')
  | .path p, .path p' => Alters move .path rs (p.guarded c) (p'.guarded c)
  | .expr e, .expr e' => Alters move .expr rs (e.guarded c) (e'.guarded c)
  | .kind k, .kind k' => Alters move .kind rs (k.guarded c) (k'.guarded c)
  | .pat p, .pat p' => Alters move .pat rs (p.guarded c) (p'.guarded c)
  | .arm a, .arm a' => Alters move .arm rs (a.guarded c) (a'.guarded c)
  | .arms as, .arms as' =>
      Alters move .arms rs (armsGuarded c as) (armsGuarded c as')
  | .block body, .block body' =>
      Alters move .block rs
        (Stmt.walkBlock c body fun c => stmtsGuarded c body)
        (Stmt.walkBlock c body' fun c => stmtsGuarded c body')
  | .stmt s, .stmt s' => Alters move .stmt rs (s.guarded c) (s'.guarded c)
  | .stmts ss, .stmts ss' =>
      (stmtsGuarded c ss).Corresponds move
        (fun walked walked' =>
          Refilled move rs (.stmts (walked.map Prod.fst))
              (.stmts (walked'.map Prod.fst)) ∧
            walked.map Prod.snd = walked'.map Prod.snd)
        (stmtsGuarded c ss')
  | .item i, .item i' => Alters move .item rs (i.guarded c) (i'.guarded c)
  | .items is, .items is' =>
      Alters move .items rs (itemsGuarded c is) (itemsGuarded c is')
  | .itemKind k, .itemKind k' =>
      Alters move .itemKind rs (k.guarded c) (k'.guarded c)
  | _, _ => False

/-- Whether they do so wherever the runtime is reached by this path. -/
abbrev WalksAnywhere (runtime : SimplePath) (move : Position -> Position)
    (rs : List (Region × Region)) (n n' : Node) : Prop :=
  forall {c : Context}, c.runtime = runtime.toPath -> Walks move rs c n n'

section Steps

variable {runtime : SimplePath} {move : Position -> Position}
  {rs qs : List (Region × Region)} {c : Context}

/-- A body behind a pattern or a condition is walked over in the same scope in
both trees. -/
theorem alters_binding {names names' : List String} {body body' : List Stmt}
    (hnames : names = names')
    (hbody : WalksAnywhere runtime move rs (.block body) (.block body'))
    (hc : c.runtime = runtime.toPath) :
    Alters move .block rs
      (Stmt.walkBlock (c.binding names) body fun c => stmtsGuarded c body)
      (Stmt.walkBlock (c.binding names') body' fun c =>
        stmtsGuarded c body') := by
  rw [hnames]
  exact hbody hc

theorem walks_block {body body' : List Stmt}
    (hbody : Refilled move rs (.stmts body) (.stmts body'))
    (ih : WalksAnywhere runtime move rs (.stmts body) (.stmts body'))
    (hc : c.runtime = runtime.toPath) :
    Walks move rs c (.block body) (.block body') := by
  have hinside : (c.inBlock body').runtime = runtime.toPath := hc
  show Alters move .block rs (Stmt.walkBlock c body _)
    (Stmt.walkBlock c body' _)
  rw [Stmt.walkBlock, Stmt.walkBlock, hbody.inBlock_eq c]
  exact (ih hinside).bind fun _ _ h => h.1.finishBlock hc h.2

theorem walks_stmts {s s' : Stmt} {ss ss' : List Stmt}
    (hs : Refilled move rs (.stmt s) (.stmt s'))
    (ihs : WalksAnywhere runtime move rs (.stmt s) (.stmt s'))
    (ihss : WalksAnywhere runtime move qs (.stmts ss) (.stmts ss'))
    (hc : c.runtime = runtime.toPath) :
    Walks move (rs ++ qs) c (.stmts (s :: ss)) (.stmts (s' :: ss')) := by
  rw [Walks, stmtsGuarded, stmtsGuarded, hs.isRegistration_eq]
  refine (hs.check c).bind fun _ _ _ => (ihs hc).bind ?_
  intro w w' hw
  have hbehind : (c.afterStmt w').runtime = runtime.toPath := hc
  rw [hw.afterStmt_eq c]
  exact (ihss hbehind).map fun _ _ h =>
    ⟨.stmtsCons hw h.1, congrArg (List.cons _) h.2⟩

theorem alters_attrs (walked : Bool) {as as' : List Attr}
    (has : Refilled move rs (.attrs as) (.attrs as'))
    (ih : WalksAnywhere runtime move rs (.attrs as) (.attrs as'))
    (hc : c.runtime = runtime.toPath) :
    Alters move .attrs rs
      (if walked then attrsGuarded c as else pure as)
      (if walked then attrsGuarded c as' else pure as') := by
  cases walked with
  | true => exact ih hc
  | false => exact .pure has

theorem walks_expr {as as' : List Attr} {k k' : ExprKind}
    (has : Refilled move rs (.attrs as) (.attrs as'))
    (hk : Refilled move qs (.kind k) (.kind k'))
    (ihas : WalksAnywhere runtime move rs (.attrs as) (.attrs as'))
    (ihk : WalksAnywhere runtime move qs (.kind k) (.kind k'))
    (hc : c.runtime = runtime.toPath) :
    Walks move (rs ++ qs) c (.expr (.mk as k)) (.expr (.mk as' k')) := by
  have hinside : (c.inExpr k').runtime = runtime.toPath := by
    rw [Context.runtime_inExpr, hc]
  show Alters move .expr _ ((Expr.mk as k).guarded c)
    ((Expr.mk as' k').guarded c)
  rw [Expr.guarded, Expr.guarded, hk.inExpr_eq c, hk.hasWalkedAttrs_eq]
  exact (alters_attrs _ has ihas hinside).bind fun _ _ has =>
    (ihk hinside).map fun _ _ hk => .expr has hk

theorem walks_arm {as as' : List Attr} {p p' : Pat} {guard guard' : List Part}
    {value value' : Expr} {comma : Bool} {us ts : List (Region × Region)}
    (hp : Refilled move qs (.pat p) (.pat p'))
    (ihas : WalksAnywhere runtime move rs (.attrs as) (.attrs as'))
    (ihp : WalksAnywhere runtime move qs (.pat p) (.pat p'))
    (ihguard : WalksAnywhere runtime move us (.parts guard) (.parts guard'))
    (ihvalue : WalksAnywhere runtime move ts (.expr value) (.expr value'))
    (hc : c.runtime = runtime.toPath) :
    Walks move (rs ++ (qs ++ (us ++ ts))) c
      (.arm (.mk as p guard value comma))
      (.arm (.mk as' p' guard' value' comma)) := by
  have hinside : (c.binding p'.binders).runtime = runtime.toPath := hc
  have hbinders : p.binders = p'.binders := hp.binders_eq
  show Alters move .arm _ ((Arm.mk as p guard value comma).guarded c)
    ((Arm.mk as' p' guard' value' comma).guarded c)
  rw [Arm.guarded, Arm.guarded, hbinders]
  exact (ihas hinside).bind fun _ _ has =>
    (ihp hinside).bind fun _ _ hp =>
      (ihguard hinside).bind fun _ _ hguard =>
        (ihvalue hinside).map fun _ _ hvalue => .arm has hp hguard hvalue

theorem walks_item {as as' : List Attr} {k k' : ItemKind}
    (has : Refilled move rs (.attrs as) (.attrs as'))
    (hk : Refilled move qs (.itemKind k) (.itemKind k'))
    (ihas : WalksAnywhere runtime move rs (.attrs as) (.attrs as'))
    (ihk : WalksAnywhere runtime move qs (.itemKind k) (.itemKind k'))
    (hc : c.runtime = runtime.toPath) :
    Walks move (rs ++ qs) c (.item (.mk as k)) (.item (.mk as' k')) := by
  have hinside : (c.inItem k').runtime = runtime.toPath := by
    rw [← ItemKind.cross_crossing, Context.runtime_cross, hc]
  show Alters move .item _ ((Item.mk as k).guarded c)
    ((Item.mk as' k').guarded c)
  rw [Item.guarded, Item.guarded, hk.inItem_eq c, hk.itemHasWalkedAttrs_eq,
    hk.isExpandable_eq, has.hasOwnExpansion_eq]
  split
  · exact .pure (.item has hk)
  · exact (alters_attrs _ has ihas hinside).bind fun _ _ has =>
      (ihk hinside).map fun _ _ hk => .item has hk

theorem guarded_of_ownExpansion {as : List Attr} {k : ItemKind}
    {label : ItemLabel} (hk : k.label? = some label)
    (has : hasOwnExpansion as = true) :
    (Item.mk as k).guarded c = pure (.mk as k) := by
  have hexpandable : k.isExpandable = true := by
    cases k <;> cases hk <;> rfl
  simp [Item.guarded, hexpandable, has]

theorem partsGuarded_ofMacro (c : Context) (name : Option Ident)
    (delimiter : Delimiter) (body : List Token) (ps : List Part) :
    partsGuarded c (Part.ofMacro name delimiter body ++ ps) = do
      let ps ← partsGuarded c ps
      return Part.ofMacro name delimiter body ++ ps := by
  have htokens : forall ts : List Token,
      partsGuarded c (Part.ofTokens ts ++ ps) = do
        let ps ← partsGuarded c ps
        return Part.ofTokens ts ++ ps := by
    intro ts
    induction ts with
    | nil => simp [Part.ofTokens, bind, pure]
    | cons t ts ih =>
        have hrest : partsGuarded c (Part.ofTokens (t :: ts) ++ ps) = do
            let ps ← partsGuarded c (Part.ofTokens ts ++ ps)
            return .token t :: ps := rfl
        rw [hrest, ih]
        simp [Part.ofTokens, bind, pure]
  exact htokens _

end Steps

/-- Trees that are alike but for their opaque regions become trees that are.  The
induction is on how the trees are related.  A function and a loop keep the
regions of their signature and pattern, to which the walk does not come. -/
theorem Refilled.walks {move : Position -> Position}
    {rs : List (Region × Region)} {n n' : Node} {runtime : SimplePath}
    (h : Refilled move rs n n') : WalksAnywhere runtime move rs n n' := by
  intro c hc
  induction h generalizing c with
  | attr hargs ih => exact (ih hc).map fun _ _ h => .attr h
  | attrsNil => exact .pure .attrsNil
  | attrsCons ha has iha ihas =>
      exact (iha hc).bind fun _ _ ha =>
        (ihas hc).map fun _ _ has => .attrsCons ha has
  | partToken t => exact .pure (.partToken t)
  | partAttr ha ih => exact (ih hc).map fun _ _ ha => .partAttr ha
  | partExpr he ih => exact (ih hc).map fun _ _ he => .partExpr he
  | partPat hp ih => exact (ih hc).map fun _ _ hp => .partPat hp
  | partClauseLast hclause hbody ihclause ihbody =>
      exact (ihclause hc).bind fun _ _ hclause =>
        (ihbody hc).map fun _ _ hbody => .partClauseLast hclause hbody
  | partsNil => exact .pure .partsNil
  | partsCons hp hps ihp ihps =>
      exact (ihp hc).bind fun _ _ hp =>
        (ihps hc).map fun _ _ hps => .partsCons hp hps
  | partsMacro name delimiter body body' hps ih =>
      show Alters move .parts _ (partsGuarded c _) (partsGuarded c _)
      rw [partsGuarded_ofMacro, partsGuarded_ofMacro]
      exact (ih hc).map fun _ _ hps =>
        .partsMacro name delimiter body body' hps
  | segment hargs ih => exact (ih hc).map fun _ _ hargs => .segment hargs
  | segmentsNil => exact .pure .segmentsNil
  | segmentsCons hs hss ihs ihss =>
      exact (ihs hc).bind fun _ _ hs =>
        (ihss hc).map fun _ _ hss => .segmentsCons hs hss
  | path hss ih => exact (ih hc).map fun _ _ hss => .path hss
  | expr has hk ihas ihk => exact walks_expr has hk ihas ihk hc
  | kindPath hp ih => exact (ih hc).map fun _ _ hp => .kindPath hp
  | qualified hps ih => exact (ih hc).map fun _ _ hps => .qualified hps
  | call hcallee hargs ihcallee ihargs =>
      exact (ihcallee hc).bind fun _ _ hcallee =>
        (ihargs hc).map fun _ _ hargs => .call hcallee hargs
  | closure hbinder hinputs houtput hvalue ihbinder ihinputs ihoutput
      ihvalue =>
      exact (ihbinder hc).bind fun _ _ hbinder =>
        (ihinputs hc).bind fun _ _ hinputs =>
          (ihoutput hc).bind fun _ _ houtput =>
            (ihvalue hc).map fun _ _ hvalue =>
              .closure hbinder hinputs houtput hvalue
  | paren he ih => exact (ih hc).map fun _ _ he => .paren he
  | kindBlock hbody ih =>
      exact (ih hc).map fun _ _ hbody => .kindBlock hbody
  | ifThen hcond hbody ihcond ihbody =>
      exact (ihcond hc).bind fun _ _ hcond =>
        (alters_binding hcond.conditionBinders_eq ihbody hc).map
          fun _ _ hbody => .ifThen hcond hbody
  | ifElse hcond hbody horElse ihcond ihbody ihorElse =>
      exact (ihcond hc).bind fun _ _ hcond =>
        (alters_binding hcond.conditionBinders_eq ihbody hc).bind
          fun _ _ hbody => (ihorElse hc).map
            fun _ _ horElse => .ifElse hcond hbody horElse
  | whileLoop hcond hbody ihcond ihbody =>
      exact (ihcond hc).bind fun _ _ hcond =>
        (alters_binding hcond.conditionBinders_eq ihbody hc).map
          fun _ _ hbody => .whileLoop hcond hbody
  | forLoop hp hsource hbody ihp ihsource ihbody =>
      exact (ihsource hc).bind fun _ _ hsource =>
        (alters_binding hp.binders_eq ihbody hc).map
          fun _ _ hbody => .forLoop hp hsource hbody
  | loop hbody ih => exact (ih hc).map fun _ _ hbody => .loop hbody
  | matchOn hscrutinee harms ihscrutinee iharms =>
      exact (ihscrutinee hc).bind fun _ _ hscrutinee =>
        (iharms hc).map fun _ _ harms => .matchOn hscrutinee harms
  | letCond hp hscrutinee ihp ihscrutinee =>
      exact (ihp hc).bind fun _ _ hp =>
        (ihscrutinee hc).map fun _ _ hscrutinee => .letCond hp hscrutinee
  | binary hleft hright ihleft ihright =>
      exact (ihleft hc).bind fun _ _ hleft =>
        (ihright hc).map fun _ _ hright => .binary hleft hright
  | kindMacro path delimiter body body' =>
      exact .pure (.kindMacro path delimiter body body')
  | ret hps ih => exact (ih hc).map fun _ _ hps => .ret hps
  | breakTo hps ih => exact (ih hc).map fun _ _ hps => .breakTo hps
  | continueTo label => exact .pure (.continueTo label)
  | range hps ih => exact (ih hc).map fun _ _ hps => .range hps
  | data hps ih => exact (ih hc).map fun _ _ hps => .data hps
  | other hps ih => exact (ih hc).map fun _ _ hps => .other hps
  | binder hsub ih => exact (ih hc).map fun _ _ hsub => .binder hsub
  | compound hps ih => exact (ih hc).map fun _ _ hps => .compound hps
  | arm has hp hguard hvalue ihas ihp ihguard ihvalue =>
      exact walks_arm hp ihas ihp ihguard ihvalue hc
  | armsNil => exact .pure .armsNil
  | armsCons ha has iha ihas =>
      exact (iha hc).bind fun _ _ ha =>
        (ihas hc).map fun _ _ has => .armsCons ha has
  | block hbody ih => exact walks_block hbody ih hc
  | binding has hp hinit ihas ihp ihinit =>
      exact (ihas hc).bind fun _ _ has =>
        (ihp hc).bind fun _ _ hp =>
          (ihinit hc).map fun _ _ hinit => .binding has hp hinit
  | stmtItem hi ih => exact (ih hc).map fun _ _ hi => .stmtItem hi
  | stmtExpr pos he ih => exact (ih hc).map fun _ _ he => .stmtExpr pos he
  | stmtMacro path delimiter body body' has ih =>
      exact (ih hc).bind fun _ _ has =>
        .pure (.stmtMacro path delimiter body body' has)
  | stmtsNil => exact .pure ⟨.stmtsNil, rfl⟩
  | stmtsCons hs hss ihs ihss => exact walks_stmts hs ihs ihss hc
  | item has hk ihas ihk => exact walks_item has hk ihas ihk hc
  | ownExpansion hk hk' has has' =>
      show Alters move .item _ (Item.guarded c _) (Item.guarded c _)
      rw [guarded_of_ownExpansion hk has, guarded_of_ownExpansion hk' has']
      exact .pure (.ownExpansion hk hk' has has')
  | itemsNil => exact .pure .itemsNil
  | itemsCons hi his ihi ihis =>
      exact (ihi hc).bind fun _ _ hi =>
        (ihis hc).map fun _ _ his => .itemsCons hi his
  | function hsignature hbody ihsignature ihbody =>
      exact (ihbody hc).map fun _ _ hbody => .function hsignature hbody
  | constant hafter ih => exact (ih hc).map fun _ _ hafter => .constant hafter
  | implementation hheader hmembers ihheader ihmembers =>
      exact (ihheader hc).bind fun _ _ hheader =>
        (ihmembers hc).map fun _ _ hmembers =>
          .implementation hheader hmembers
  | traitDef hheader hmembers ihheader ihmembers =>
      exact (ihheader hc).bind fun _ _ hheader =>
        (ihmembers hc).map fun _ _ hmembers => .traitDef hheader hmembers
  | module his ih => exact (ih hc).map fun _ _ his => .module his
  | moduleFile before name => exact .pure (.moduleFile before name)
  | imports before absolute tree =>
      exact .pure (.imports before absolute tree)
  | externCrate before name newName =>
      exact .pure (.externCrate before name newName)
  | definition hafter ih =>
      exact (ih hc).map fun _ _ hafter => .definition hafter
  | otherItem hps ih => exact (ih hc).map fun _ _ hps => .otherItem hps

end Node

/-!
## Expanding
-/

namespace Item

/-- Other contents in opaque regions change nothing else.  The faults are the
same, at places that have moved with the text, and the results are alike but for
the same regions, in the same order. -/
theorem guardedAt_refilled (runtime : SimplePath)
    {move : Position -> Position} {rs : List (Region × Region)} {i i' : Item}
    (h : Node.Refilled move rs (.item i) (.item i')) :
    let found := i.guardedAt runtime
    let found' := i'.guardedAt runtime
    found'.faults = found.faults.map (Fault.moved move) ∧
      Node.Refilled move rs (.item found.value) (.item found'.value) := by
  intro found found'
  have hwalks : Node.Walks move rs (.root runtime.toPath) (.item i)
      (.item i') := h.walks rfl
  exact ⟨hwalks.faults, hwalks.value⟩

/-- The arguments of a macro that come to look like a registration, and an item
with an expansion of its own that gets another body.  The registration at
compile time is a fault in both trees, further to the right in the second
one. -/
theorem guardedAt_refilled_regions :
    let call := fun x => Expr.bare (.call (.ofIdent (.plain "defer"))
      [.expr (.ofIdent (.plain x))])
    let inner := fun body => Item.mk [.mk false ⟨false, [.plain "deferred"]⟩ []]
      (.function [] false [] (.plain "inner")
        (Part.ofTokens (Token.group .paren [])) body)
    let item := fun (args : List Token) (body : List Stmt) (column : Nat) =>
      Item.mk [] (.function [] false [] (.plain "run")
        (Part.ofTokens (Token.group .paren []))
        [.invocation [] ⟨⟨false, [.plain "log"]⟩, .paren, args⟩ true,
          .item (inner body),
          .expr ⟨2, column⟩ (call "close") true,
          .expr ⟨3, column⟩ (.bare (.block .constBlock
            [.expr ⟨4, column⟩ (call "never") true])) true])
    let args := Token.word "defer" :: Token.group .paren [.word "open"]
    let body := [Stmt.expr ⟨1, 9⟩ (call "open") true]
    let i := item [] [] 5
    let i' := item args body 7
    let runtime : SimplePath := ⟨true, [.plain "deferred"]⟩
    let move := fun pos : Position => { pos with column := pos.column + 2 }
    let rs := [(.args [], .args args), (.item (inner []), .item (inner body))]
    Node.Refilled move rs (.item i) (.item i') ∧
      (i.guardedAt runtime).faults = [.constContext ⟨4, 5⟩] ∧
      (i'.guardedAt runtime).faults = [.constContext ⟨4, 7⟩] ∧
      Node.Refilled move rs (.item (i.guardedAt runtime).value)
        (.item (i'.guardedAt runtime).value) := by
  intro call inner item args body i i' runtime move rs
  have hname : forall x, Node.Refilled move []
      (.expr (.ofIdent (.plain x))) (.expr (.ofIdent (.plain x))) := by
    intro x
    exact .expr .attrsNil (.kindPath (.simplePath move ⟨false, [.plain x]⟩))
  have hcall : forall x,
      Node.Refilled move [] (.expr (call x)) (.expr (call x)) := by
    intro x
    exact .expr .attrsNil (.call (hname "defer")
      (.partsCons (.partExpr (hname x)) .partsNil))
  have hparens : Node.Refilled move []
      (.parts (Part.ofTokens (Token.group .paren [])))
      (.parts (Part.ofTokens (Token.group .paren []))) :=
    .partsCons (.partToken _) (.partsCons (.partToken _) .partsNil)
  have hblock : Node.Refilled move []
      (.stmt (.expr ⟨3, 5⟩ (.bare (.block .constBlock
            [.expr ⟨4, 5⟩ (call "never") true])) true))
      (.stmt (.expr ⟨3, 7⟩ (.bare (.block .constBlock
            [.expr ⟨4, 7⟩ (call "never") true])) true)) :=
    .stmtExpr ⟨3, 5⟩ (.expr .attrsNil (.kindBlock (.block
      (.stmtsCons (.stmtExpr ⟨4, 5⟩ (hcall "never")) .stmtsNil))))
  have hinner : Node.Refilled move [(.item (inner []), .item (inner body))]
      (.item (inner [])) (.item (inner body)) :=
    .ownExpansion rfl rfl rfl rfl
  have hrefilled : Node.Refilled move rs (.item i) (.item i') :=
    .item .attrsNil (.function hparens (.block
      (.stmtsCons (.stmtMacro _ _ [] args .attrsNil)
        (.stmtsCons (.stmtItem hinner)
          (.stmtsCons (.stmtExpr ⟨2, 5⟩ (hcall "close"))
            (.stmtsCons hblock .stmtsNil))))))
  have hfaults : (i.guardedAt runtime).faults = [.constContext ⟨4, 5⟩] := by
    decide +kernel
  rcases guardedAt_refilled runtime hrefilled with ⟨hfaults', hvalue⟩
  rw [hfaults] at hfaults'
  exact ⟨hrefilled, hfaults, hfaults', hvalue⟩

end Item

end ScopeExit
