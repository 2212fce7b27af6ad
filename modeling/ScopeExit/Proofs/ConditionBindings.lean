import ScopeExit.Proofs.Shadowing
import ScopeExit.Expansion

/-!
# The scope of a condition

A `let` in a condition binds for the body of the conditional or loop.  It does so
for all of the body and for nothing else: not for any operand of the condition,
wherever the operand stands, not for the other branch, and not for what follows.
A `let` in the guard of an arm binds for nothing at all.
-/

namespace ScopeExit

/-- The condition of a conditional, or of a loop that has one. -/
def ExprKind.condition? : ExprKind -> Option Expr
  | .ifThen cond _ => some cond
  | .ifElse cond _ _ => some cond
  | .whileLoop _ cond _ => some cond
  | _ => none

theorem ExprKind.crossing_of_condition? {k : ExprKind} {cond : Expr}
    (hcond : k.condition? = some cond) {j : Nat} {x : Crossing} {m : Node}
    (hchild : (Node.kind k).children[j]? = some (x, m)) :
    x = if j = 1 then .condition cond else .level := by
  cases k with
  | ifThen | whileLoop =>
      cases hcond
      match j, hchild with
      | 0, hchild => cases hchild; rfl
      | 1, hchild => cases hchild; rfl
  | ifElse =>
      cases hcond
      match j, hchild with
      | 0, hchild => cases hchild; rfl
      | 1, hchild => cases hchild; rfl
      | 2, hchild => cases hchild; rfl
  | _ => cases hcond

theorem Arm.crossing_eq {attrs : List Attr} {p : Pat} {guard : List Part}
    {value : Expr} {comma : Bool} {j : Nat} {x : Crossing} {m : Node}
    (hchild : (Node.arm (.mk attrs p guard value comma)).children[j]? =
      some (x, m)) : x = .pattern p := by
  match j, hchild with
  | 0, hchild => cases hchild; rfl
  | 1, hchild => cases hchild; rfl
  | 2, hchild => cases hchild; rfl
  | 3, hchild => cases hchild; rfl

namespace Node

theorem visit?_append {n m k : Node} {a b : Address} {xs ys : List Crossing}
    (ha : n.visit? a = some (xs, m)) (hb : m.visit? b = some (ys, k)) :
    n.visit? (a ++ b) = some (xs ++ ys, k) := by
  induction a generalizing n xs with
  | nil =>
      cases ha
      exact hb
  | cons i a ih =>
      rcases exists_child_of_visit? ha with ⟨x, l, zs, hchild, hbelow, heq⟩
      rw [List.cons_append, visit?_cons hchild, ih hbelow, heq]
      rfl

end Node

theorem Context.IsQuiet.lookup_along_of_local {n : String} {c : Context}
    {xs : List Crossing} (hquiet : c.IsQuiet n xs)
    (h : c.scope.lookup n false = some .localVar) :
    (c.along xs).scope.lookup n false = some .localVar := by
  induction xs generalizing c with
  | nil => exact h
  | cons x rest ih =>
      rcases hquiet with ⟨hx, hrest⟩
      apply ih hrest
      change ((c.opened x).scope.bindLocals x.locals).lookup n false = _
      by_cases hmem : n ∈ x.locals
      · exact ScopeStack.lookup_bindLocals_of_mem hmem _
      · have hsame : (c.opened x).scope.AgreesOn (· = n)
            ((c.opened x).scope.bindLocals x.locals) := by
          apply (ScopeStack.AgreesOn.refl _ _).bindLocals_right
          intro other hother heq
          rw [heq] at hother
          exact hmem hother
        rw [← hsame.lookup rfl, hx.lookup_opened, h]

/-!
## Calls below a place
-/

section Below

variable {c : Context} {n k m : Node} {a b : Address} {j : Nat}
  {x : Crossing} {xs ys : List Crossing} {s : Stmt} {name : String}

theorem visit?_below (ha : n.visit? a = some (xs, k))
    (hchild : k.children[j]? = some (x, m))
    (hb : m.visit? b = some (ys, .stmt s)) :
    n.visit? (a ++ j :: b) = some (xs ++ x :: ys, .stmt s) := by
  have hbelow : k.visit? (j :: b) = some (x :: ys, .stmt s) := by
    rw [Node.visit?_cons hchild, hb]
    rfl
  exact Node.visit?_append ha hbelow

/-- A call below a place is a registration if it would be one at the place and no
variable of its name is introduced on the way down. -/
theorem registers_below (ha : n.visit? a = some (xs, k))
    (hchild : k.children[j]? = some (x, m))
    (hb : m.visit? b = some (ys, .stmt s))
    (hcall : s.calledName? = some name)
    (hquiet : (c.along xs).IsQuiet name (x :: ys)) :
    n.registers c (a ++ j :: b) = true ↔
      s.isRegistration (c.along xs).scope = true ∧
        forall y, y ∈ x :: ys -> ¬ y.Introduces name := by
  have hregisters : n.registers c (a ++ j :: b) =
      s.isRegistration ((c.along xs).along (x :: ys)).scope := by
    rw [Node.registers, visit?_below ha hchild hb]
    simp only [Context.along_append]
  rw [hregisters, Stmt.isRegistration_along hcall hquiet]

end Below

namespace Item

/-- The calls of a name in and around the places where a condition may bind it,
on ways that are quiet for the name.  In the body of a conditional or loop the
name is that of a variable if the condition binds it, and a call of it is no
registration.  In the condition itself and in the other branch a call is a
registration as if the condition bound nothing; so it is in an arm, of which
only the pattern matters, and behind the statement that holds the condition. -/
theorem registers_around_condition (runtime : SimplePath) (i : Item)
    {n : String} {s : Stmt} (hcall : s.calledName? = some n) :
    let root := Context.root runtime.toPath
    (forall {a b xs ys k cond j x m},
      (Node.item i).visit? a = some (xs, .kind k) ->
      k.condition? = some cond ->
      (Node.kind k).children[j]? = some (x, m) ->
      m.visit? b = some (ys, .stmt s) ->
      ((root.along xs).cross x).IsQuiet n ys ->
        ((Node.item i).registers root (a ++ j :: b) = true ↔
          s.isRegistration (root.along xs).scope = true ∧
            ¬ (j = 1 ∧ cond.BindsBelow n) ∧
            forall y, y ∈ ys -> ¬ y.Introduces n) ∧
        (j = 1 -> cond.BindsBelow n ->
          (root.along (xs ++ x :: ys)).scope.lookup n false =
              some .localVar ∧
            (Node.item i).registers root (a ++ j :: b) = false ∧
            ((Node.item i).plan root).replaced (a ++ j :: b) = false)) ∧
    (forall {a b xs ys attrs p guard value comma j x m},
      (Node.item i).visit? a =
        some (xs, .arm (.mk attrs p guard value comma)) ->
      (Node.arm (.mk attrs p guard value comma)).children[j]? =
        some (x, m) ->
      m.visit? b = some (ys, .stmt s) ->
      ((root.along xs).cross x).IsQuiet n ys ->
        ((Node.item i).registers root (a ++ j :: b) = true ↔
          s.isRegistration (root.along xs).scope = true ∧ ¬ p.Binds n ∧
            forall y, y ∈ ys -> ¬ y.Introduces n)) ∧
    (forall {a b xs ys pos e semi rest},
      (Node.item i).visit? a =
        some (xs, .stmts (.expr pos e semi :: rest)) ->
      (Node.stmts rest).visit? b = some (ys, .stmt s) ->
      (root.along xs).IsQuiet n ys ->
        ((Node.item i).registers root (a ++ 1 :: b) = true ↔
          s.isRegistration (root.along xs).scope = true ∧
            forall y, y ∈ ys -> ¬ y.Introduces n)) := by
  intro root
  refine ⟨?_, ?_, ?_⟩
  · intro a b xs ys k cond j x m ha hcond hchild hb hquiet
    have hx := ExprKind.crossing_of_condition? hcond hchild
    have hopens : x.IsQuiet n (root.along xs) := by
      rw [hx]
      split <;> trivial
    have hintroduces : x.Introduces n ↔ j = 1 ∧ cond.BindsBelow n := by
      rw [hx]
      by_cases hj : j = 1
      · simp [hj, Crossing.Introduces]
      · simp [hj, Crossing.Introduces]
    have hiff := registers_below ha hchild hb hcall ⟨hopens, hquiet⟩
    rw [List.forall_mem_cons, hintroduces] at hiff
    refine ⟨hiff, ?_⟩
    intro hj hbinds
    have hnot : (Node.item i).registers root (a ++ j :: b) = false := by
      apply Bool.eq_false_iff.mpr
      intro hregistered
      exact (hiff.mp hregistered).2.1 ⟨hj, hbinds⟩
    have hlocal : ((root.along xs).cross x).scope.lookup n false =
        some .localVar := by
      have hmem : n ∈ x.locals :=
        Crossing.mem_locals_iff.mpr (hintroduces.mpr ⟨hj, hbinds⟩)
      exact ScopeStack.lookup_bindLocals_of_mem hmem _
    refine ⟨?_, hnot, ?_⟩
    · rw [Context.along_append, Context.along_cons]
      exact hquiet.lookup_along_of_local hlocal
    · simp only [Node.plan, hnot, Bool.false_and]
  · intro a b xs ys attrs p guard value comma j x m ha hchild hb hquiet
    have hx := Arm.crossing_eq hchild
    have hopens : x.IsQuiet n (root.along xs) := by
      rw [hx]
      trivial
    have hiff := registers_below ha hchild hb hcall ⟨hopens, hquiet⟩
    rw [List.forall_mem_cons, hx] at hiff
    exact hiff
  · intro a b xs ys pos e semi rest ha hb hquiet
    have hiff := registers_below ha (j := 1) rfl hb hcall ⟨trivial, hquiet⟩
    rw [List.forall_mem_cons] at hiff
    simpa [Crossing.Introduces] using hiff

/-- The body of a loop whose condition binds a name behind an operand, and the
operand itself. -/
theorem registers_around_loop :
    let name := fun x => Expr.ofIdent (.plain x)
    let call := Stmt.expr .origin
      (.bare (.call (name "defer") [.expr (name "close")])) true
    let cond := Expr.bare (.binary
      (.bare (.block (.plain none) [call, .expr .origin (name "ready") false]))
      (Token.operator "&&")
      (.bare (.letCond (.binder [] (.plain "defer") []) (name "hook"))))
    let i := Item.mk [] (.function [] false [] (.plain "run")
      (Part.ofTokens (Token.group .paren []))
      [.expr .origin (.bare (.whileLoop none cond [call])) false])
    let root := Context.root (SimplePath.mk true [.plain "deferred"]).toPath
    (Node.item i).registers root [1, 0, 0, 0, 0, 1, 1, 0, 0] = false ∧
      (Node.item i).registers root [1, 0, 0, 0, 0, 1, 0, 1, 0, 1, 0, 0, 0] =
        true := by
  intro name call cond i root
  rcases registers_around_condition ⟨true, [.plain "deferred"]⟩ i
    (n := "defer") (s := call) rfl with ⟨h, _, _⟩
  have hbody := h (a := [1, 0, 0, 0, 0, 1]) (b := [0, 0]) (j := 1) rfl rfl rfl
    rfl ⟨rfl, trivial, trivial⟩
  have hoperand := h (a := [1, 0, 0, 0, 0, 1]) (b := [1, 0, 1, 0, 0, 0])
    (j := 0) rfl rfl rfl rfl
    ⟨trivial, trivial, trivial, trivial, rfl, trivial, trivial⟩
  refine ⟨(hbody.2 rfl (.right (.letCond (.name rfl)))).2.1, ?_⟩
  refine hoperand.1.mpr ⟨by decide, by simp, ?_⟩
  intro y hy
  simp only [List.mem_cons, List.not_mem_nil, or_false] at hy
  rcases hy with rfl | rfl | rfl | rfl | rfl | rfl <;> exact id

/-- A `let` in a condition does not bind for an operand behind it, and one in the
guard of an arm does not bind for the arm.  The calls of both variables become
guards. -/
theorem guardedAt_chained_condition :
    let guarded := fun text : String => (Item.ofText? text).map fun i =>
      Token.flat (i.guardedAt ⟨true, [.plain "deferred"]⟩).value.tokens
    guarded ("fn run() \x7b if let Some(defer) = hook && \x7b " ++
        "defer(cleanup); true \x7d \x7b \x7d \x7d") =
      some ("fn run ( ) \x7b if let Some ( defer ) = hook & & \x7b let " ++
        "__deferred_guard = : : deferred : : __private : : register ( defer , " ++
        "cleanup ) ; let __deferred_result = true ; __deferred_result \x7d " ++
        "\x7b \x7d \x7d") ∧
    guarded ("fn run() \x7b match hook \x7b other if let Some(defer) = other " ++
        "=> \x7b defer(cleanup); \x7d _ => \x7b \x7d \x7d \x7d") =
      some ("fn run ( ) \x7b match hook \x7b other if let Some ( defer ) = " ++
        "other = > \x7b let __deferred_guard = : : deferred : : __private : : " ++
        "register ( defer , cleanup ) ; \x7d _ = > \x7b \x7d \x7d \x7d") := by
  decide +kernel

end Item

end ScopeExit
