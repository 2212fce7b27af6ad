import ScopeExit.Proofs.VisitOrder

/-!
# What becomes of registrations

A registration is either replaced by a guard, or it is refused, and then it and
all around it that is evaluated at compile time stays as it is.
-/

namespace ScopeExit

/-!
## Code that is evaluated at compile time
-/

namespace Context

theorem inConst_along {c : Context} (h : c.inConst = true)
    (xs : List Crossing) : (c.along xs).inConst = true := by
  induction xs generalizing c with
  | nil => exact h
  | cons x xs ih =>
      apply ih
      cases x <;> simp [cross, opened, withConst, inBlock, h]

theorem runtime_along (c : Context) (xs : List Crossing) :
    (c.along xs).runtime = c.runtime := by
  induction xs generalizing c with
  | nil => rfl
  | cons x xs ih => rw [along_cons, ih, runtime_cross]

theorem opensCall_root (runtime : SimplePath) :
    (root runtime.toPath).runtime.opensCall = true := by
  simp [root, Path.opensCall]

end Context

namespace Node

theorem isIdle_plan {c : Context} (h : c.inConst = true) (n : Node) :
    (n.plan c).IsIdle := by
  intro a
  simp only [plan, registers, isConstAt]
  cases n.visit? a with
  | none => rfl
  | some found =>
      rcases found with ⟨xs, m⟩
      simp [Context.inConst_along h xs]

/-- Code that is evaluated at compile time is left as it is. -/
theorem value_guarded_of_inConst {c : Context}
    (hruntime : c.runtime.opensCall = true) (hconst : c.inConst = true)
    (n : Node) : (n.guarded c).value = n := by
  have hidle := isIdle_plan hconst n
  cases n with
  | attr a =>
      have hplaced := Attr.guarded_placed a hruntime rfl
      rw [Attr.placed_of_idle a hidle] at hplaced
      simp [guarded, hplaced]
  | attrs as =>
      have hplaced := attrsGuarded_placed as hruntime rfl
      rw [attrsPlaced_of_idle as hidle] at hplaced
      simp [guarded, hplaced]
  | part p =>
      have hplaced := Part.guarded_placed p hruntime rfl
      rw [Part.placed_of_idle p hidle] at hplaced
      simp [guarded, hplaced]
  | parts ps =>
      have hplaced := partsGuarded_placed ps hruntime rfl
      rw [partsPlaced_of_idle ps hidle] at hplaced
      simp [guarded, hplaced]
  | segment s =>
      have hplaced := Segment.guarded_placed s hruntime rfl
      rw [Segment.placed_of_idle s hidle] at hplaced
      simp [guarded, hplaced]
  | segments ss =>
      have hplaced := segmentsGuarded_placed ss hruntime rfl
      rw [segmentsPlaced_of_idle ss hidle] at hplaced
      simp [guarded, hplaced]
  | path p =>
      have hplaced := Path.guarded_placed p hruntime rfl
      rw [Path.placed_of_idle p hidle] at hplaced
      simp [guarded, hplaced]
  | expr e =>
      have hplaced := Expr.guarded_placed e hruntime rfl
      rw [Expr.placed_of_idle e hidle] at hplaced
      simp [guarded, hplaced]
  | kind k =>
      have hplaced := ExprKind.guarded_placed k hruntime rfl
      rw [ExprKind.placed_of_idle k hidle] at hplaced
      simp [guarded, hplaced]
  | pat p =>
      have hplaced := Pat.guarded_placed p hruntime rfl
      rw [Pat.placed_of_idle p hidle] at hplaced
      simp [guarded, hplaced]
  | arm a =>
      have hplaced := Arm.guarded_placed a hruntime rfl
      rw [Arm.placed_of_idle a hidle] at hplaced
      simp [guarded, hplaced]
  | arms as =>
      have hplaced := armsGuarded_placed as hruntime rfl
      rw [armsPlaced_of_idle as hidle] at hplaced
      simp [guarded, hplaced]
  | block body =>
      have hplaced := Stmt.walkBlock_placed (c := c) hruntime rfl
        (stmtsGuarded_placed body)
      rw [hidle.block_eq, stmtsPlaced_of_idle body (hidle.below 0)]
        at hplaced
      simp [guarded, hplaced]
  | stmt s =>
      have hplaced := Stmt.guarded_placed s hruntime rfl
      rw [Stmt.placed_of_idle s hidle] at hplaced
      simp [guarded, hplaced]
  | stmts ss =>
      have hplaced := (stmtsGuarded_placed ss _ c hruntime rfl).2
        (hidle.not_hasGuards ss)
      rw [stmtsPlaced_of_idle ss hidle] at hplaced
      simp [guarded, hplaced]
  | item i =>
      have hplaced := Item.guarded_placed i hruntime rfl
      rw [Item.placed_of_idle i hidle] at hplaced
      simp [guarded, hplaced]
  | items is =>
      have hplaced := itemsGuarded_placed is hruntime rfl
      rw [itemsPlaced_of_idle is hidle] at hplaced
      simp [guarded, hplaced]
  | itemKind k =>
      have hplaced := ItemKind.guarded_placed k hruntime rfl
      rw [ItemKind.placed_of_idle k hidle] at hplaced
      simp [guarded, hplaced]

end Node

/-- A registration can still be taken apart when it has been walked over. -/
theorem Stmt.exists_ofStmt?_of_registers {c : Context} {n : Node} {a : Address}
    {xs : List Crossing} {s : Stmt} (hvisit : n.visit? a = some (xs, .stmt s))
    (hregisters : n.registers c a = true) :
    exists r,
      Registration.ofStmt? (s.guarded (c.along xs)).value = some r := by
  rw [Node.registers, hvisit] at hregisters
  apply Option.isSome_iff_exists.mp
  rw [isSome_ofStmt?_guarded]
  exact isSome_ofStmt?_of_isRegistration hregisters

namespace Item

variable (runtime : SimplePath) (i : Item)

theorem faults_guardedAt :
    (i.guardedAt runtime).faults =
      ((Node.item i).refused (.root runtime.toPath)).map
        (Node.item i).refusal := by
  rw [← Node.faults_guarded_eq (Context.opensCall_root runtime)]
  exact (List.append_nil _).symm

/-- Every registration is accounted for.  Those that are evaluated at compile
time are refused, with one fault for each and no other faults, and no place that
is evaluated at compile time is changed.  All other registrations are replaced by
guards as if nothing had been refused. -/
theorem guardedAt_accounts :
    let root := Context.root runtime.toPath
    let n := Node.item i
    let found := i.guardedAt runtime
    let refused := n.refused root
    refused.Nodup ∧
      (forall a, a ∈ refused ↔
        n.registers root a = true ∧ n.isConstAt root a = true) ∧
      found.faults = refused.map n.refusal ∧
      (found.faults = [] ↔
        forall a, n.registers root a = true ->
          n.isConstAt root a = false) ∧
      (forall a xs m, n.visit? a = some (xs, m) ->
        n.isConstAt root a = true ->
          (m.guarded (root.along xs)).value = m) ∧
      (forall a xs s, n.visit? a = some (xs, .stmt s) ->
        n.registers root a = true ->
          exists r,
            Registration.ofStmt? (s.guarded (root.along xs)).value =
              some r) ∧
      found.value =
        i.placed
          { runtime := runtime.toPath
            replaced := fun a =>
              n.registers root a && !n.isConstAt root a } := by
  intro root n found refused
  have hruntime := Context.opensCall_root runtime
  have hfaults : found.faults = refused.map n.refusal :=
    faults_guardedAt runtime i
  refine ⟨n.nodup_refused root, n.mem_refused_iff root, hfaults, ?_, ?_, ?_,
    value_guardedAt runtime i⟩
  · rw [hfaults, List.map_eq_nil_iff, List.eq_nil_iff_forall_not_mem]
    simp only [refused, n.mem_refused_iff root, not_and, Bool.not_eq_true]
  · intro a xs m hvisit hat
    rw [Node.isConstAt, hvisit] at hat
    rw [← root.runtime_along xs] at hruntime
    exact Node.value_guarded_of_inConst hruntime hat m
  · intro a xs s hvisit hregisters
    exact Stmt.exists_ofStmt?_of_registers hvisit hregisters

/-- A registration in a function, and one in a block that is evaluated at
compile time.  The second one is refused and stays, and the first one is
replaced all the same. -/
theorem guardedAt_accounts_const_block :
    let call := fun x => Expr.bare (.call (.ofIdent (.plain "defer"))
      [.expr (.ofIdent (.plain x))])
    let i := Item.mk [] (.function [] false [] (.plain "run")
      [.token (.opening .paren), .token (.closing .paren)]
      [.expr .origin (call "close") true,
        .expr .origin (.bare (.block .constBlock
          [.expr .origin (call "never") true])) true])
    let found := i.guardedAt ⟨true, [.plain "deferred"]⟩
    found.faults = [.constContext .origin] ∧
      ((Node.item i).refused
        (.root (.mk true [.mk (.plain "deferred") []]))).length = 1 ∧
      Token.flat found.value.tokens =
        "fn run ( ) \x7b let __deferred_guard = : : deferred : : " ++
          "__private : : register ( defer , close ) ; const \x7b " ++
          "defer ( never ) ; \x7d ; \x7d" := by
  intro call i found
  have hfaults : found.faults = [.constContext .origin] := by
    decide +kernel
  rcases guardedAt_accounts ⟨true, [.plain "deferred"]⟩ i with
    ⟨_, _, hrefused, _, _, _, hvalue⟩
  refine ⟨hfaults, ?_, ?_⟩
  · have hlength := congrArg List.length (hfaults.symm.trans hrefused)
    rw [List.length_map] at hlength
    exact hlength.symm
  · rw [hvalue]
    decide +kernel

end Item

end ScopeExit
