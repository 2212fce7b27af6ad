import ScopeExit.Proofs.Agreement
import ScopeExit.Proofs.PlaceTokens
import ScopeExit.Proofs.Walked
import ScopeExit.Expansion

/-!
# Walking twice

The second walk comes to a different tree: there are bindings that the first walk
has brought in, the values of blocks stand in some of them, and actions stand in
argument lists.  Its scopes are different as well, but only in the names that are
bound.  Where an item does not use the name of guards itself, no statement is
judged differently, and the second walk leaves everything as it is.

A registration at compile time is not changed, so it is a fault once more, and
there are no other faults.
-/

namespace ScopeExit

namespace Report

variable {α β : Type}

/-- Whether the second walk leaves what the first one gave, and finds the same
faults. -/
structure Settles (first second : Report α) : Prop where
  value : second.value = first.value
  faults : second.faults = first.faults

theorem Settles.pure (a : α) :
    Settles (Pure.pure a : Report α) (Pure.pure a) :=
  ⟨rfl, rfl⟩

theorem Settles.bind {first second : Report α} {f g : α -> Report β}
    (h : Settles first second) (hf : Settles (f first.value) (g first.value)) :
    Settles (first >>= f) (second >>= g) := by
  constructor
  · rw [value_bind, value_bind, h.value, hf.value]
  · rw [faults_bind, faults_bind, h.value, h.faults, hf.faults]

end Report

/-!
## The name of guards

A bound value is given back at once, so the name of guards is the only one that
a statement can stand behind because of the walk.
-/

/-- Whether a name is not that of guards. -/
def IsForeign (name : String) : Prop := name ≠ guardName.name

theorem not_isForeign_guardName : ¬ IsForeign guardName.name := by
  intro h
  exact h rfl

/-- Whether the name of guards is not used at a place. -/
def Node.Foreign (n : Node) : Prop := AllNames IsForeign n.tokens

theorem Node.Foreign.below {n m : Node} {x : Crossing} (h : n.Foreign)
    (i : Nat) (hchild : n.children[i]? = some (x, m)) : m.Foreign := by
  have hmem := List.mem_of_getElem? hchild
  exact AllNames.mono h (Node.tokens_children n (x, m) hmem)

/-!
## Contexts of the two walks
-/

namespace Context

/-- Whether the second walk has the context that the first one has at the same
place, but for the name of guards. -/
structure Matches (runtime : SimplePath) (c d : Context) : Prop where
  first : c.runtime = runtime.toPath
  second : d.runtime = runtime.toPath
  inConst : c.inConst = d.inConst
  scope : c.scope.AgreesOn IsForeign d.scope

variable {runtime : SimplePath} {c d : Context}

theorem Matches.root (runtime : SimplePath) :
    Matches runtime (.root runtime.toPath) (.root runtime.toPath) :=
  ⟨rfl, rfl, rfl, .refl _ _⟩

theorem Matches.opensCall (h : Matches runtime c d) :
    c.runtime.opensCall = true ∧ d.runtime.opensCall = true := by
  rw [h.first, h.second]
  exact ⟨runtime.opensCall_toPath, runtime.opensCall_toPath⟩

theorem Matches.withConst (h : Matches runtime c d) (isConst : Bool) :
    Matches runtime (c.withConst isConst) (d.withConst isConst) :=
  ⟨h.first, h.second, congrArg (· || isConst) h.inConst, h.scope⟩

theorem Matches.binding (h : Matches runtime c d) (names : List String) :
    Matches runtime (c.binding names) (d.binding names) :=
  ⟨h.first, h.second, h.inConst, h.scope.push.bindLocals names⟩

theorem Matches.inBlock (h : Matches runtime c d) {body : List Stmt}
    (hnames : (Node.block body).Foreign) :
    Matches runtime (c.inBlock body) (d.inBlock body) :=
  ⟨h.first, h.second, h.inConst, h.scope.push.declareStmts body hnames⟩

theorem Matches.afterStmt (h : Matches runtime c d) (s : Stmt) :
    Matches runtime (c.afterStmt s) (d.afterStmt s) := by
  refine ⟨h.first, h.second, h.inConst, ?_⟩
  cases s with
  | binding attrs pat init => exact h.scope.bindLocals pat.binders
  | _ => exact h.scope

theorem Matches.inExpr (h : Matches runtime c d) (k : ExprKind) :
    Matches runtime (c.inExpr k) (d.inExpr k) := by
  cases k with
  | closure binder marks inputs output body => exact h.binding _
  | block style body =>
      cases style with
      | constBlock => exact h.withConst true
      | _ => exact h
  | _ => exact h

theorem Matches.inItem (h : Matches runtime c d) (k : ItemKind)
    (hnames : (Node.itemKind k).Foreign) :
    Matches runtime (c.inItem k) (d.inItem k) := by
  cases k with
  | function before isConst qualifiers name signature body =>
      exact ⟨h.first, h.second, congrArg (· || isConst) h.inConst,
        h.scope.pushBarrier.bindLocals _⟩
  | constant before name after => exact h.withConst true
  | implementation header members =>
      exact ⟨h.first, h.second, h.inConst, h.scope.pushBarrier⟩
  | traitDef before name header members =>
      exact ⟨h.first, h.second, h.inConst, h.scope.pushBarrier⟩
  | module before name items =>
      exact ⟨h.first, h.second, h.inConst,
        h.scope.pushBarrier.declareItems items
          (hnames.below (x := .level) 0 rfl)⟩
  | moduleFile before name =>
      exact ⟨h.first, h.second, h.inConst, h.scope.pushBarrier⟩
  | _ => exact h

/-- Behind a declaration that only the second walk comes to, it still has the
context of the first one. -/
theorem Matches.afterBinding (h : Matches runtime c d) (attrs : List Attr)
    {pat : Pat} (init : List Part)
    (hown : forall name, name ∈ pat.binders -> ¬ IsForeign name) :
    Matches runtime c (d.afterStmt (.binding attrs pat init)) :=
  ⟨h.first, h.second, h.inConst, h.scope.bindLocals_right hown⟩

end Context

/-!
## Statements in place of others

A guard and a bound value are walked over with the same pieces inside as the
statement that they replace.
-/

/-- Whether the second walk leaves these statements as they are and takes none
of them for a registration, where the first walk found these faults. -/
structure Kept (first : List Fault) (d : Context) (ts : List Stmt) :
    Prop where
  value : (stmtsGuarded d ts).value = ts.map fun s => (s, false)
  faults : (stmtsGuarded d ts).faults = first

theorem Stmt.faults_check_of_not {c : Context} {s : Stmt}
    (h : s.isRegistration c.scope = false) : (s.check c).faults = [] := by
  cases s <;> simp [check, h]

theorem Stmt.faults_check_of_not_inConst {c : Context}
    (hconst : c.inConst = false) (s : Stmt) : (s.check c).faults = [] := by
  cases s <;> simp [check, hconst]

theorem Kept.nil (d : Context) : Kept [] d [] :=
  ⟨rfl, rfl⟩

theorem Kept.cons {d : Context} {t : Stmt} {ts : List Stmt}
    {first more : List Fault} (hmark : t.isRegistration d.scope = false)
    (hvalue : (t.guarded d).value = t)
    (hfaults : (t.guarded d).faults = first)
    (hrest : Kept more (d.afterStmt t) ts) :
    Kept (first ++ more) d (t :: ts) := by
  constructor
  · simp only [stmtsGuarded, Report.value_bind, Report.value_pure, hvalue,
      hrest.value, hmark, List.map_cons]
  · simp only [stmtsGuarded, Report.faults_bind, Report.faults_pure, hvalue,
      Stmt.faults_check_of_not hmark, List.nil_append, List.append_nil,
      hfaults, hrest.faults]

theorem Kept.singleton {d : Context} {t : Stmt} {first : List Fault}
    (hmark : t.isRegistration d.scope = false)
    (hvalue : (t.guarded d).value = t)
    (hfaults : (t.guarded d).faults = first) :
    Kept first d [t] := by
  have h := Kept.cons hmark hvalue hfaults (.nil _)
  rwa [List.append_nil] at h

theorem SimplePath.guarded_toPath (d : Context) (p : SimplePath) :
    p.toPath.guarded d = pure p.toPath := by
  have hsegments : forall is : List Ident,
      segmentsGuarded d (is.map fun i => .mk i []) =
        pure (is.map fun i => Segment.mk i []) := by
    intro is
    induction is with
    | nil => rfl
    | cons i rest ih =>
        rw [List.map_cons, segmentsGuarded, ih]
        rfl
  rw [SimplePath.toPath, Path.guarded, hsegments]
  rfl

theorem SimplePath.extend_registerSegments (p : SimplePath) :
    p.toPath.extend registerSegments =
      (SimplePath.mk p.absolute
        (p.segments ++ [.plain "__private", .plain "register"])).toPath := by
  simp [SimplePath.toPath, Path.extend, registerSegments]

theorem soleArgument?_eq_some {args : List Part} {e : Expr}
    (h : soleArgument? args = some e) :
    exists ts, args = .expr e :: Part.ofTokens ts := by
  unfold soleArgument? at h
  split at h
  · rw [Option.some.inj h]
    exact ⟨[], rfl⟩
  · rw [Option.some.inj h]
    exact ⟨[.punct ','], rfl⟩
  · cases h

theorem partsGuarded_ofTokens (d : Context) (ts : List Token) :
    partsGuarded d (Part.ofTokens ts) = pure (Part.ofTokens ts) := by
  induction ts with
  | nil => rfl
  | cons t rest ih =>
      have hrest : partsGuarded d (Part.ofTokens (t :: rest)) = do
          return .token t :: (← partsGuarded d (Part.ofTokens rest)) := rfl
      rw [hrest, ih]
      rfl

theorem soleArgument?_guarded_eq {d : Context} {args : List Part}
    {e : Expr} (h : soleArgument? args = some e)
    (hargs : (partsGuarded d args).value = args) :
    (e.guarded d).value = e ∧
      (partsGuarded d args).faults = (e.guarded d).faults := by
  rcases soleArgument?_eq_some h with ⟨ts, hsole⟩
  rw [hsole] at hargs ⊢
  injection hargs with hpart _
  injection hpart with he
  constructor
  · exact he
  · simp [partsGuarded, Part.guarded, partsGuarded_ofTokens]

namespace Registration

/-- A registration with its pieces walked over. -/
def guarded (d : Context) (r : Registration) : Report Registration := do
  let attrs ← attrsGuarded d r.attrs
  let callee ← r.callee.guarded d
  return ⟨attrs, callee, ← r.action.guarded d⟩

theorem guard_guarded (d : Context) (runtime : SimplePath)
    (r : Registration) :
    ((r.guard runtime.toPath).guarded d).value =
        (r.guarded d).value.guard runtime.toPath ∧
      ((r.guard runtime.toPath).guarded d).faults = (r.guarded d).faults := by
  have hpath := SimplePath.guarded_toPath d
    ⟨runtime.absolute,
      runtime.segments ++ [.plain "__private", .plain "register"]⟩
  rw [← SimplePath.extend_registerSegments] at hpath
  constructor <;>
    simp [guard, guarded, Expr.bare, Stmt.guarded, Pat.guarded,
      partsGuarded, Part.guarded, Expr.guarded, ExprKind.guarded,
      attrsGuarded, Context.inExpr, hpath]

theorem guarded_of_ofStmt? {d : Context} {s : Stmt} {r : Registration}
    (hr : ofStmt? s = some r) (hvalue : (s.guarded d).value = s) :
    (r.guarded d).value = r ∧
      (r.guarded d).faults = (s.guarded d).faults := by
  match s, hr, hvalue with
  | .expr pos (.mk attrs (.call callee args)) semi, hr, hvalue =>
      rw [ofStmt?] at hr
      split at hr
      · rcases Option.map_eq_some_iff.mp hr with ⟨action, hsole, heq⟩
        injection hvalue with _ he _
        injection he with hattrs hkind
        injection hkind with hcallee hargs
        have hattrs : (attrsGuarded d attrs).value = attrs := hattrs
        have hcallee : (callee.guarded d).value = callee := hcallee
        have hargs : (partsGuarded d args).value = args := hargs
        rcases soleArgument?_guarded_eq hsole hargs with
          ⟨haction, hfaults⟩
        rw [← heq]
        constructor
        · simp only [guarded, Report.value_bind, Report.value_pure, hattrs,
            hcallee, haction]
        · simp [guarded, Stmt.guarded, Expr.guarded, ExprKind.guarded,
            ExprKind.hasWalkedAttrs, Context.inExpr, hfaults]
      · cases hr

end Registration

namespace Stmt

variable {d : Context} {s : Stmt} {first : List Fault}

theorem kept_guard (runtime : SimplePath) {r : Registration}
    (hr : Registration.ofStmt? s = some r)
    (hvalue : (s.guarded d).value = s)
    (hfaults : (s.guarded d).faults = first) :
    ((r.guard runtime.toPath).guarded d).value = r.guard runtime.toPath ∧
      ((r.guard runtime.toPath).guarded d).faults = first := by
  rcases Registration.guarded_of_ofStmt? hr hvalue with ⟨hpieces, hsame⟩
  rcases Registration.guard_guarded d runtime r with ⟨hguard, hguardFaults⟩
  rw [hguard, hguardFaults, hpieces, hsame]
  exact ⟨rfl, hfaults⟩

theorem kept_bindTail (hmark : s.isRegistration d.scope = false)
    (hvalue : (s.guarded d).value = s)
    (hfaults : (s.guarded d).faults = first) :
    Kept first d s.bindTail := by
  have hsame : Kept first d [s] := .singleton hmark hvalue hfaults
  cases s with
  | expr pos e semi =>
      cases semi with
      | true => exact hsame
      | false =>
          rw [bindTail]
          split
          · injection hvalue with _ he _
            have hgrouped := e.guarded_grouped d
            have he : (e.guarded d).value = e := he
            have hbinding : ((Stmt.binding [] (.binder [] resultName [])
                [.token (.punct '='), .expr e.grouped]).guarded d).faults =
                  first := by
              simpa [Stmt.guarded, Pat.guarded, partsGuarded, Part.guarded,
                attrsGuarded, hgrouped] using hfaults
            have htail : Kept []
                (d.afterStmt (.binding [] (.binder [] resultName [])
                  [.token (.punct '='), .expr e.grouped]))
                [.expr pos (.ofIdent resultName) false] :=
              .singleton rfl rfl rfl
            have hboth := Kept.cons rfl
              (by simp [Stmt.guarded, Pat.guarded, partsGuarded,
                Part.guarded, attrsGuarded, hgrouped, he]) hbinding htail
            rwa [List.append_nil] at hboth
          · exact hsame
  | _ => exact hsame

end Stmt

/-!
## Blocks

A block with guards has no registrations of its own any more.  In any other
block the second walk judges every statement as the first one did.
-/

/-- A statement that the second walk leaves as the first one has left it. -/
def StmtSettles (runtime : SimplePath) (s : Stmt) : Prop :=
  forall c d, Context.Matches runtime c d -> (Node.stmt s).Foreign ->
    (s.guarded c).Settles ((s.guarded c).value.guarded d)

/-- Statements that the second walk leaves as the first one has left them, be it
without guards or with them. -/
def StmtsSettle (runtime : SimplePath) (body : List Stmt) : Prop :=
  forall c d, Context.Matches runtime c d -> (Node.stmts body).Foreign ->
    let walked := stmtsGuarded c body
    walked.Settles (stmtsGuarded d (walked.value.map Prod.fst)) ∧
      (c.inConst = false ->
        Kept walked.faults d
          (Stmt.bindGuards runtime.toPath (walked.value.map Prod.fst)
            (walked.value.map Prod.snd)))

namespace Stmt

variable {runtime : SimplePath} {c d : Context} {s : Stmt}

theorem isRegistration_again (h : Context.Matches runtime c d)
    (hnames : (Node.stmt s).Foreign) :
    (s.guarded c).value.isRegistration d.scope =
      s.isRegistration c.scope := by
  rw [isRegistration_guarded]
  exact (isRegistration_agreesOn h.scope s hnames).symm

theorem settles_check (h : Context.Matches runtime c d)
    (hnames : (Node.stmt s).Foreign) :
    (s.check c).Settles ((s.guarded c).value.check d) := by
  have hmark := isRegistration_again h hnames
  cases s with
  | expr pos e semi =>
      have hagain : ((Stmt.expr pos e semi).guarded c).value.check d =
          (Stmt.expr pos e semi).check c := by
        rw [check, ← hmark, h.inConst]
        rfl
      rw [hagain, check]
      split
      · exact ⟨rfl, rfl⟩
      · exact .pure ()
  | _ => exact .pure ()

theorem afterStmt_of_ofStmt? {r : Registration}
    (hr : Registration.ofStmt? s = some r) (c : Context) :
    c.afterStmt s = c := by
  cases s with
  | expr pos e semi => rfl
  | _ => cases hr

end Stmt

theorem StmtsSettle.nil (runtime : SimplePath) :
    StmtsSettle runtime [] := by
  intro c d _ _
  constructor
  · exact .pure []
  · intro _
    exact .nil d

/-- With guards, a statement is one of three: a guard in place of a
registration, the value of the block, or what it was. -/
theorem Kept.bindGuards_cons {runtime : SimplePath} {c d : Context}
    {s : Stmt} {rest : List Stmt} {mark : Bool} {marks : List Bool}
    {first more : List Fault} (h : Context.Matches runtime c d)
    (hmark : s.isRegistration d.scope = mark)
    (hvalue : (s.guarded d).value = s)
    (hfaults : (s.guarded d).faults = first)
    (hrest : forall e, Context.Matches runtime (c.afterStmt s) e ->
      Kept more e (Stmt.bindGuards runtime.toPath rest marks)) :
    Kept (first ++ more) d
      (Stmt.bindGuards runtime.toPath (s :: rest) (mark :: marks)) := by
  rw [Stmt.bindGuards, List.head?_cons, Option.getD_some, List.tail_cons]
  cases mark with
  | true =>
      have hsome := Stmt.isSome_ofStmt?_of_isRegistration hmark
      rcases Option.isSome_iff_exists.mp hsome with ⟨r, hr⟩
      rcases Stmt.kept_guard runtime hr hvalue hfaults with
        ⟨hguard, hguardFaults⟩
      simp only [Stmt.marked?, if_true, hr]
      refine .cons rfl hguard hguardFaults (hrest _ ?_)
      rw [Stmt.afterStmt_of_ofStmt? hr]
      apply h.afterBinding
      intro name hname
      rw [List.mem_singleton.mp hname]
      exact not_isForeign_guardName
  | false =>
      simp only [Stmt.marked?, Bool.false_eq_true, if_false]
      cases rest with
      | nil =>
          have htail := Stmt.kept_bindTail hmark hvalue hfaults
          have hnone : [] = more := (hrest _ (h.afterStmt s)).faults
          rw [← hnone]
          simpa [Stmt.bindGuards] using htail
      | cons t others =>
          exact .cons hmark hvalue hfaults (hrest _ (h.afterStmt s))

theorem StmtsSettle.cons {runtime : SimplePath} {s : Stmt}
    {rest : List Stmt} (hs : StmtSettles runtime s)
    (hrest : StmtsSettle runtime rest) : StmtsSettle runtime (s :: rest) := by
  intro c d h hnames
  have hsNames : (Node.stmt s).Foreign := hnames.below (x := .level) 0 rfl
  have hrestNames : (Node.stmts rest).Foreign :=
    hnames.below (x := .behind s) 1 rfl
  have hagain := hs c d h hsNames
  have hmark := Stmt.isRegistration_again h hsNames
  have hbehind := h.afterStmt (s.guarded c).value
  constructor
  · rcases hrest _ _ hbehind hrestNames with ⟨hplain, _⟩
    refine (Stmt.settles_check h hsNames).bind (hagain.bind ?_)
    rw [hmark]
    exact hplain.bind (.pure _)
  · intro hconst
    have hkept : Kept ((s.guarded c).faults ++
          (stmtsGuarded (c.afterStmt (s.guarded c).value) rest).faults) d
        (Stmt.bindGuards runtime.toPath
          ((stmtsGuarded c (s :: rest)).value.map Prod.fst)
          ((stmtsGuarded c (s :: rest)).value.map Prod.snd)) := by
      refine Kept.bindGuards_cons h hmark hagain.value hagain.faults ?_
      intro e he
      exact (hrest _ e he hrestNames).2 hconst
    simpa [stmtsGuarded, Stmt.faults_check_of_not_inConst hconst]
      using hkept

namespace Stmt

theorem no_mark_of_kept {first : List Fault} {d : Context} {ts : List Stmt}
    (h : Kept first d ts) :
    ((stmtsGuarded d ts).value.map Prod.snd).contains true = false := by
  rw [h.value]
  simp

variable {runtime : SimplePath} {c d : Context} {body : List Stmt}

theorem walkBlock_of_kept {first : List Fault} {ts : List Stmt}
    (h : Kept first (d.inBlock ts) ts) :
    (Report.mk ts first).Settles
      (walkBlock d ts fun d => stmtsGuarded d ts) := by
  have hfinish := finishBlock_of_no_mark (c := d) (no_mark_of_kept h)
  rw [h.value] at hfinish
  constructor
  · rw [walkBlock, Report.value_bind, h.value, hfinish]
    simp [Function.comp_def]
  · rw [walkBlock, Report.faults_bind, h.value, hfinish]
    simpa using h.faults

theorem inBlock_bindGuards (d : Context) (runtime : Path)
    (body : List Stmt) (marks : List Bool) :
    d.inBlock (bindGuards runtime body marks) = d.inBlock body := by
  rw [Context.inBlock, Context.inBlock, ScopeStack.declareStmts,
    ScopeStack.declareStmts, itemsOf_bindGuards]

theorem inBlock_guarded (d c : Context) (body : List Stmt) :
    d.inBlock ((stmtsGuarded c body).value.map Prod.fst) =
      d.inBlock body := by
  rw [Context.inBlock, Context.inBlock, ScopeStack.declareStmts_guarded]

variable {walked : Report (List (Stmt × Bool))}

theorem walkBlock_of_finishBlock {finished : Report (List Stmt)}
    (hwalked : stmtsGuarded (c.inBlock body) body = walked)
    (hfinish : finishBlock c walked.value = finished) :
    (walkBlock c body fun c => stmtsGuarded c body) =
      ⟨finished.value, walked.faults ++ finished.faults⟩ := by
  rw [← hfinish, ← hwalked]
  rfl

/-- Without guards the second walk marks what the first one has marked, and
leaves it unguarded for the same reason. -/
theorem walkBlock_settles_of_unguarded
    (hwalked : stmtsGuarded (c.inBlock body) body = walked)
    (hbody : walked.Settles
      (stmtsGuarded (d.inBlock body) (walked.value.map Prod.fst)))
    (hfirst : finishBlock c walked.value =
      pure (walked.value.map Prod.fst))
    (hsecond : finishBlock d walked.value =
      pure (walked.value.map Prod.fst)) :
    let first := walkBlock c body fun c => stmtsGuarded c body
    first.Settles
      (walkBlock d first.value fun d => stmtsGuarded d first.value) := by
  intro first
  have hvalue : first.value = walked.value.map Prod.fst :=
    congrArg Report.value (walkBlock_of_finishBlock hwalked hfirst)
  have hinside : d.inBlock first.value = d.inBlock body := by
    rw [hvalue, ← hwalked, inBlock_guarded]
  rw [walkBlock, hinside, hvalue]
  have hwalk : first = walked >>= finishBlock c := by
    rw [← hwalked]
    rfl
  rw [hwalk]
  refine hbody.bind ?_
  rw [hfirst, hsecond]
  exact .pure _

/-- In a block with guards the second walk finds no registration. -/
theorem walkBlock_settles_of_guarded (h : Context.Matches runtime c d)
    (hwalked : stmtsGuarded (c.inBlock body) body = walked)
    (hkept : Kept walked.faults (d.inBlock body)
      (bindGuards runtime.toPath (walked.value.map Prod.fst)
        (walked.value.map Prod.snd)))
    (hconst : c.inConst = false)
    (hmarks : (walked.value.map Prod.snd).contains true = true) :
    let first := walkBlock c body fun c => stmtsGuarded c body
    first.Settles
      (walkBlock d first.value fun d => stmtsGuarded d first.value) := by
  intro first
  have hfirst : first =
      ⟨bindGuards c.runtime (walked.value.map Prod.fst)
        (walked.value.map Prod.snd), walked.faults ++ []⟩ :=
    walkBlock_of_finishBlock hwalked
      (finishBlock_of_mark h.opensCall.1 hconst hmarks)
  have hinside : d.inBlock (bindGuards runtime.toPath
      (walked.value.map Prod.fst) (walked.value.map Prod.snd)) =
        d.inBlock body := by
    rw [inBlock_bindGuards, ← hwalked, inBlock_guarded]
  rw [← hinside] at hkept
  rw [hfirst, h.first, List.append_nil]
  exact walkBlock_of_kept hkept

/-- The second walk leaves a block as the first one has left it, if it does so
with its statements. -/
theorem walkBlock_settles (h : Context.Matches runtime c d)
    (hnames : (Node.block body).Foreign) (hbody : StmtsSettle runtime body) :
    let first := walkBlock c body fun c => stmtsGuarded c body
    first.Settles
      (walkBlock d first.value fun d => stmtsGuarded d first.value) := by
  rcases hbody _ _ (h.inBlock hnames) hnames with ⟨hplain, hguarded⟩
  generalize hwalked : stmtsGuarded (c.inBlock body) body = walked at *
  cases hconst : c.inConst with
  | true =>
      have hagain : d.inConst = true := by
        rw [← h.inConst, hconst]
      exact walkBlock_settles_of_unguarded hwalked hplain
        (finishBlock_of_inConst hconst _) (finishBlock_of_inConst hagain _)
  | false =>
      cases hmarks : (walked.value.map Prod.snd).contains true with
      | false =>
          exact walkBlock_settles_of_unguarded hwalked hplain
            (finishBlock_of_no_mark hmarks) (finishBlock_of_no_mark hmarks)
      | true =>
          exact walkBlock_settles_of_guarded h hwalked (hguarded hconst)
            hconst hmarks

end Stmt

/-!
## The whole tree
-/

mutual

theorem Attr.settles {runtime : SimplePath} {c d : Context} (a : Attr)
    (h : Context.Matches runtime c d) (hnames : (Node.attr a).Foreign) :
    (a.guarded c).Settles ((a.guarded c).value.guarded d) := by
  rcases a with ⟨inner, path, args⟩
  have hargs := partsSettle args h (hnames.below 0 rfl)
  exact hargs.bind (.pure _)

theorem attrsSettle {runtime : SimplePath} {c d : Context}
    (as : List Attr) (h : Context.Matches runtime c d)
    (hnames : (Node.attrs as).Foreign) :
    (attrsGuarded c as).Settles (attrsGuarded d (attrsGuarded c as).value) := by
  cases as with
  | nil => exact .pure _
  | cons a rest =>
      have ha := Attr.settles a h (hnames.below 0 rfl)
      have hrest := attrsSettle rest h (hnames.below 1 rfl)
      exact ha.bind (hrest.bind (.pure _))

theorem Part.settles {runtime : SimplePath} {c d : Context} (q : Part)
    (h : Context.Matches runtime c d) (hnames : (Node.part q).Foreign) :
    (q.guarded c).Settles ((q.guarded c).value.guarded d) := by
  cases q with
  | token t => exact .pure _
  | attr a =>
      have ha := Attr.settles a h (hnames.below 0 rfl)
      exact ha.bind (.pure _)
  | expr e =>
      have he := Expr.settles e h (hnames.below 0 rfl)
      exact he.bind (.pure _)
  | pat q =>
      have hq := Pat.settles q h (hnames.below 0 rfl)
      exact hq.bind (.pure _)
  | clauseLast body clause =>
      have hbody := partsSettle body h (hnames.below 0 rfl)
      have hclause := partsSettle clause h (hnames.below 1 rfl)
      exact hclause.bind (hbody.bind (.pure _))

theorem partsSettle {runtime : SimplePath} {c d : Context}
    (ps : List Part) (h : Context.Matches runtime c d)
    (hnames : (Node.parts ps).Foreign) :
    (partsGuarded c ps).Settles (partsGuarded d (partsGuarded c ps).value) := by
  cases ps with
  | nil => exact .pure _
  | cons q rest =>
      have hq := Part.settles q h (hnames.below 0 rfl)
      have hrest := partsSettle rest h (hnames.below 1 rfl)
      exact hq.bind (hrest.bind (.pure _))

theorem Segment.settles {runtime : SimplePath} {c d : Context}
    (s : Segment) (h : Context.Matches runtime c d)
    (hnames : (Node.segment s).Foreign) :
    (s.guarded c).Settles ((s.guarded c).value.guarded d) := by
  rcases s with ⟨name, args⟩
  have hargs := partsSettle args h (hnames.below 0 rfl)
  exact hargs.bind (.pure _)

theorem segmentsSettle {runtime : SimplePath} {c d : Context}
    (ss : List Segment) (h : Context.Matches runtime c d)
    (hnames : (Node.segments ss).Foreign) :
    (segmentsGuarded c ss).Settles
      (segmentsGuarded d (segmentsGuarded c ss).value) := by
  cases ss with
  | nil => exact .pure _
  | cons s rest =>
      have hs := Segment.settles s h (hnames.below 0 rfl)
      have hrest := segmentsSettle rest h (hnames.below 1 rfl)
      exact hs.bind (hrest.bind (.pure _))

theorem Path.settles {runtime : SimplePath} {c d : Context} (p : Path)
    (h : Context.Matches runtime c d) (hnames : (Node.path p).Foreign) :
    (p.guarded c).Settles ((p.guarded c).value.guarded d) := by
  rcases p with ⟨absolute, segments⟩
  have hsegments := segmentsSettle segments h (hnames.below 0 rfl)
  exact hsegments.bind (.pure _)

theorem Expr.settles {runtime : SimplePath} {c d : Context} (e : Expr)
    (h : Context.Matches runtime c d) (hnames : (Node.expr e).Foreign) :
    (e.guarded c).Settles ((e.guarded c).value.guarded d) := by
  rcases e with ⟨attrs, kind⟩
  have hinside := h.inExpr kind
  have hkind := ExprKind.settles kind hinside (hnames.below 1 rfl)
  have hattrs := hnames.below 0 rfl
  simp only [Expr.guarded, Report.value_bind, Report.value_pure,
    Context.inExpr_guarded, ExprKind.hasWalkedAttrs_guarded]
  cases hwalked : kind.hasWalkedAttrs with
  | false => exact (Report.Settles.pure attrs).bind (hkind.bind (.pure _))
  | true =>
      rw [hwalked] at hattrs
      exact (attrsSettle attrs hinside hattrs).bind (hkind.bind (.pure _))

theorem ExprKind.settles {runtime : SimplePath} {c d : Context}
    (k : ExprKind) (h : Context.Matches runtime c d)
    (hnames : (Node.kind k).Foreign) :
    (k.guarded c).Settles ((k.guarded c).value.guarded d) := by
  cases k with
  | path p =>
      have hp := Path.settles p h (hnames.below 0 rfl)
      exact hp.bind (.pure _)
  | call callee args =>
      have hcallee := Expr.settles callee h (hnames.below 0 rfl)
      have hargs := partsSettle args h (hnames.below 1 rfl)
      exact hcallee.bind (hargs.bind (.pure _))
  | closure binder marks inputs output body =>
      have hbinder := partsSettle binder h (hnames.below 0 rfl)
      have hinputs := partsSettle inputs h (hnames.below 1 rfl)
      have houtput := partsSettle output h (hnames.below 2 rfl)
      have hbody := Expr.settles body h (hnames.below 3 rfl)
      exact hbinder.bind (hinputs.bind (houtput.bind (hbody.bind (.pure _))))
  | paren inner =>
      have hinner := Expr.settles inner h (hnames.below 0 rfl)
      exact hinner.bind (.pure _)
  | block style body =>
      have hbody := Stmt.walkBlock_settles h (hnames.below 0 rfl)
        (stmtsSettle runtime body)
      exact hbody.bind (.pure _)
  | ifThen cond body =>
      have hcond := Expr.settles cond h (hnames.below 0 rfl)
      have hbody := Stmt.walkBlock_settles
        (h.binding (cond.guarded c).value.conditionBinders)
        (hnames.below 1 rfl) (stmtsSettle runtime body)
      exact hcond.bind (hbody.bind (.pure _))
  | ifElse cond body orElse =>
      have hcond := Expr.settles cond h (hnames.below 0 rfl)
      have hbody := Stmt.walkBlock_settles
        (h.binding (cond.guarded c).value.conditionBinders)
        (hnames.below 1 rfl) (stmtsSettle runtime body)
      have horElse := Expr.settles orElse h (hnames.below 2 rfl)
      exact hcond.bind (hbody.bind (horElse.bind (.pure _)))
  | whileLoop label cond body =>
      have hcond := Expr.settles cond h (hnames.below 0 rfl)
      have hbody := Stmt.walkBlock_settles
        (h.binding (cond.guarded c).value.conditionBinders)
        (hnames.below 1 rfl) (stmtsSettle runtime body)
      exact hcond.bind (hbody.bind (.pure _))
  | forLoop label pat source body =>
      have hsource := Expr.settles source h (hnames.below 0 rfl)
      have hbody := Stmt.walkBlock_settles (h.binding pat.binders)
        (hnames.below 1 rfl) (stmtsSettle runtime body)
      exact hsource.bind (hbody.bind (.pure _))
  | loop label body =>
      have hbody := Stmt.walkBlock_settles h (hnames.below 0 rfl)
        (stmtsSettle runtime body)
      exact hbody.bind (.pure _)
  | matchOn scrutinee arms =>
      have hscrutinee := Expr.settles scrutinee h (hnames.below 0 rfl)
      have harms := armsSettle arms h (hnames.below 1 rfl)
      exact hscrutinee.bind (harms.bind (.pure _))
  | letCond pat scrutinee =>
      have hpat := Pat.settles pat h (hnames.below 0 rfl)
      have hscrutinee := Expr.settles scrutinee h (hnames.below 1 rfl)
      exact hpat.bind (hscrutinee.bind (.pure _))
  | binary left op right =>
      have hleft := Expr.settles left h (hnames.below 0 rfl)
      have hright := Expr.settles right h (hnames.below 1 rfl)
      exact hleft.bind (hright.bind (.pure _))
  | invocation m => exact .pure _
  | continueTo label => exact .pure _
  | qualified parts | ret parts | breakTo label parts | range parts
  | data parts | other parts =>
      have hparts := partsSettle parts h (hnames.below 0 rfl)
      exact hparts.bind (.pure _)

theorem Pat.settles {runtime : SimplePath} {c d : Context} (q : Pat)
    (h : Context.Matches runtime c d) (hnames : (Node.pat q).Foreign) :
    (q.guarded c).Settles ((q.guarded c).value.guarded d) := by
  cases q with
  | binder before name sub =>
      have hsub := partsSettle sub h (hnames.below 0 rfl)
      exact hsub.bind (.pure _)
  | compound parts =>
      have hparts := partsSettle parts h (hnames.below 0 rfl)
      exact hparts.bind (.pure _)

theorem Arm.settles {runtime : SimplePath} {c d : Context} (a : Arm)
    (h : Context.Matches runtime c d) (hnames : (Node.arm a).Foreign) :
    (a.guarded c).Settles ((a.guarded c).value.guarded d) := by
  rcases a with ⟨attrs, pat, guard, body, comma⟩
  have hinside := h.binding pat.binders
  have hattrs := attrsSettle attrs hinside (hnames.below 0 rfl)
  have hpat := Pat.settles pat hinside (hnames.below 1 rfl)
  have hguard := partsSettle guard hinside (hnames.below 2 rfl)
  have hbody := Expr.settles body hinside (hnames.below 3 rfl)
  simp only [Arm.guarded, Report.value_bind, Report.value_pure,
    Pat.binders_guarded]
  exact hattrs.bind (hpat.bind (hguard.bind (hbody.bind (.pure _))))

theorem armsSettle {runtime : SimplePath} {c d : Context}
    (as : List Arm) (h : Context.Matches runtime c d)
    (hnames : (Node.arms as).Foreign) :
    (armsGuarded c as).Settles (armsGuarded d (armsGuarded c as).value) := by
  cases as with
  | nil => exact .pure _
  | cons a rest =>
      have ha := Arm.settles a h (hnames.below 0 rfl)
      have hrest := armsSettle rest h (hnames.below 1 rfl)
      exact ha.bind (hrest.bind (.pure _))

theorem Stmt.settles (runtime : SimplePath) (s : Stmt) :
    StmtSettles runtime s := by
  intro c d h hnames
  cases s with
  | binding attrs pat init =>
      have hattrs := attrsSettle attrs h (hnames.below 0 rfl)
      have hpat := Pat.settles pat h (hnames.below 1 rfl)
      have hinit := partsSettle init h (hnames.below 2 rfl)
      exact hattrs.bind (hpat.bind (hinit.bind (.pure _)))
  | item i =>
      have hi := Item.settles i h (hnames.below 0 rfl)
      exact hi.bind (.pure _)
  | expr pos e semi =>
      have he := Expr.settles e h (hnames.below 0 rfl)
      exact he.bind (.pure _)
  | invocation attrs m semi =>
      have hattrs := attrsSettle attrs h (hnames.below 0 rfl)
      exact hattrs.bind (.pure _)

theorem stmtsSettle (runtime : SimplePath) (body : List Stmt) :
    StmtsSettle runtime body := by
  cases body with
  | nil => exact .nil runtime
  | cons s rest =>
      exact .cons (Stmt.settles runtime s) (stmtsSettle runtime rest)

theorem Item.settles {runtime : SimplePath} {c d : Context} (i : Item)
    (h : Context.Matches runtime c d) (hnames : (Node.item i).Foreign) :
    (i.guarded c).Settles ((i.guarded c).value.guarded d) := by
  rcases i with ⟨attrs, kind⟩
  cases hskip : kind.isExpandable && hasOwnExpansion attrs with
  | true =>
      have hleft : forall e : Context,
          (Item.mk attrs kind).guarded e = pure (.mk attrs kind) := by
        intro e
        rw [Item.guarded, hskip]
        rfl
      rw [hleft, Report.value_pure, hleft]
      exact .pure _
  | false =>
      have hkindNames : (Node.itemKind kind).Foreign :=
        hnames.below (x := kind.crossing) 1 (by simp [Node.children, hskip])
      have hattrsNames : (Node.attrs
          (if kind.hasWalkedAttrs then attrs else [])).Foreign :=
        hnames.below (x := kind.crossing) 0 (by simp [Node.children, hskip])
      have hinside := h.inItem kind hkindNames
      have hkind := ItemKind.settles kind hinside hkindNames
      cases hwalked : kind.hasWalkedAttrs with
      | false =>
          simp only [Item.guarded, hskip, hwalked, Report.value_bind,
            Report.value_pure, ItemKind.isExpandable_guarded,
            ItemKind.hasWalkedAttrs_guarded, Context.inItem_guarded,
            Bool.false_eq_true, if_false]
          exact (Report.Settles.pure attrs).bind (hkind.bind (.pure _))
      | true =>
          rw [hwalked] at hattrsNames
          simp only [Item.guarded, hskip, hwalked, Report.value_bind,
            Report.value_pure, ItemKind.isExpandable_guarded,
            ItemKind.hasWalkedAttrs_guarded, Context.inItem_guarded,
            hasOwnExpansion_guarded, Bool.false_eq_true, if_false, if_true]
          exact (attrsSettle attrs hinside hattrsNames).bind
            (hkind.bind (.pure _))

theorem ItemKind.settles {runtime : SimplePath} {c d : Context}
    (k : ItemKind) (h : Context.Matches runtime c d)
    (hnames : (Node.itemKind k).Foreign) :
    (k.guarded c).Settles ((k.guarded c).value.guarded d) := by
  cases k with
  | function before isConst qualifiers name signature body =>
      have hbody := Stmt.walkBlock_settles h (hnames.below 0 rfl)
        (stmtsSettle runtime body)
      exact hbody.bind (.pure _)
  | implementation header members =>
      have hheader := partsSettle header h (hnames.below 0 rfl)
      have hmembers := itemsSettle members h (hnames.below 1 rfl)
      exact hheader.bind (hmembers.bind (.pure _))
  | traitDef before name header members =>
      have hheader := partsSettle header h (hnames.below 0 rfl)
      have hmembers := itemsSettle members h (hnames.below 1 rfl)
      exact hheader.bind (hmembers.bind (.pure _))
  | module before name items =>
      have hitems := itemsSettle items h (hnames.below 0 rfl)
      exact hitems.bind (.pure _)
  | constant before name parts | definition before name parts
  | other parts =>
      have hparts := partsSettle parts h (hnames.below 0 rfl)
      exact hparts.bind (.pure _)
  | _ => exact .pure _

theorem itemsSettle {runtime : SimplePath} {c d : Context}
    (is : List Item) (h : Context.Matches runtime c d)
    (hnames : (Node.items is).Foreign) :
    (itemsGuarded c is).Settles (itemsGuarded d (itemsGuarded c is).value) := by
  cases is with
  | nil => exact .pure _
  | cons i rest =>
      have hi := Item.settles i h (hnames.below 0 rfl)
      have hrest := itemsSettle rest h (hnames.below 1 rfl)
      exact hi.bind (hrest.bind (.pure _))

end

namespace Item

/-- A second walk over what the first one has left changes nothing and finds the
same faults, for every item that does not use the name of guards itself. -/
theorem guardedAt_again (runtime : SimplePath) (i : Item)
    (hnames : forall name : Ident, .ident name ∈ i.tokens ->
      name.name ≠ guardName.name) :
    let first := i.guardedAt runtime
    let second := first.value.guardedAt runtime
    second.value = first.value ∧ second.faults = first.faults := by
  intro first second
  have hsettles : first.Settles second :=
    Item.settles i (.root runtime) hnames
  exact ⟨hsettles.value, hsettles.faults⟩

/-- A registration in a function whose value is a range with an attribute, and
one in a block that is evaluated at compile time: the second walk leaves the
guard and the bound value, and finds the fault again. -/
theorem guardedAt_again_const_block :
    let call := fun x => Expr.bare (.call (.ofIdent (.plain "defer"))
      [.expr (.ofIdent (.plain x))])
    let allow := Attr.mk false ⟨false, [.plain "allow"]⟩
      (Part.ofTokens (Token.group .paren [.word "unused"]))
    let i := Item.mk [] (.function [] false [] (.plain "run")
      [.token (.opening .paren), .token (.closing .paren)]
      [.expr .origin (call "close") true,
        .expr .origin (.bare (.block .constBlock
          [.expr .origin (call "never") true])) false,
        .expr .origin (.mk [allow] (.range
          (Part.ofTokens (.punct '.' :: .punct '.' ::
            [.atom (.literal "5")])))) false])
    let first := i.guardedAt ⟨true, [.plain "deferred"]⟩
    let second := first.value.guardedAt ⟨true, [.plain "deferred"]⟩
    first.faults = [.constContext .origin] ∧
      Token.flat first.value.tokens =
        "fn run ( ) \x7b let __deferred_guard = : : deferred : : __private " ++
          ": : register ( defer , close ) ; const \x7b defer ( never ) ; \x7d " ++
          "let __deferred_result = # [ allow ( unused ) ] ( . . 5 ) ; " ++
          "__deferred_result \x7d" ∧
      second.value = first.value ∧ second.faults = first.faults := by
  intro call allow i first second
  have hnames : AllNames (fun name => name ≠ guardName.name) i.tokens :=
    .of_all (by decide +kernel)
  have hagain := guardedAt_again ⟨true, [.plain "deferred"]⟩ i hnames
  exact ⟨by decide +kernel, by decide +kernel, hagain.1, hagain.2⟩

end Item

end ScopeExit
