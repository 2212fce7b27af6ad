import ScopeExit.Proofs.StatementAttributes

/-!
# How executions end

An execution of an expression completes with a value, or it jumps: it leaves the
function, a loop or a block with a label, or it panics.  `Expr.Ends` says what
can happen, with one rule for each way.

The rules follow the flow of control through blocks, conditionals, loops and
jumps.  Of all other syntax they say as little as they can: it may complete, and
it may end as any expression in it may that does not complete.  So they admit
more executions than there are, and an expression that has none that completes
according to them has none at all.
-/

namespace ScopeExit

/-- How an execution can end.  A jump without a label is one out of the
innermost loop, or to its next round. -/
inductive Outcome where
  | value
  | returns
  | breaks (label : Option String)
  | continues (label : Option String)
  | panics
  deriving DecidableEq

/-- What the end of one of its rounds means for a loop.  It goes on after a round
that completes or is cut short, and a jump out of the loop is its end. -/
def Outcome.leaveLoop? (label : Option String) (o : Outcome) :
    Option Outcome :=
  if o = value ∨ o = continues none ∨ o = continues label then none
  else if o = breaks none ∨ o = breaks label then some value
  else some o

/-- The macros of the standard library that never complete, however their names
are spelled. -/
def Invocation.NeverCompletes (m : Invocation) : Prop :=
  exists last, m.path.segments.getLast? = some last ∧
    last.name ∈ ["panic", "unreachable", "todo", "unimplemented"]

namespace ExprKind

/-- Whether control goes no ways of its own in an expression, or ways that the
rules do not follow. -/
def isOperation : ExprKind -> Bool
  | path _ => true
  | qualified _ => true
  | call _ _ => true
  | closure _ _ _ _ _ => true
  | block .constBlock _ => true
  | block .tryBlock _ => true
  | block (.asyncBlock _) _ => true
  | letCond _ _ => true
  | binary _ _ _ => true
  | range _ => true
  | data _ => true
  | other _ => true
  | _ => false

/-- What is evaluated in an operation or a jump, among other parts.  The body of
a closure is not evaluated where the closure is. -/
def operands : ExprKind -> List Part
  | call callee args => .expr callee :: args
  | letCond _ scrutinee => [.expr scrutinee]
  | binary left _ right => [.expr left, .expr right]
  | range parts => parts
  | data parts => parts
  | other parts => parts
  | ret value => value
  | breakTo _ value => value
  | _ => []

end ExprKind

mutual

inductive Expr.Ends : Expr -> Outcome -> Prop
  | panic : Expr.Ends e .panics
  | operation : kind.isOperation = true -> Expr.Ends (.mk attrs kind) .value
  | operand : .expr e ∈ kind.operands -> Expr.Ends e o -> o ≠ .value ->
      Expr.Ends (.mk attrs kind) o
  | question : Expr.Ends (.mk attrs (.other parts)) .returns
  | invocation : (m.NeverCompletes -> o ≠ .value) ->
      Expr.Ends (.mk attrs (.invocation m)) o
  | paren : Expr.Ends e o -> Expr.Ends (.mk attrs (.paren e)) o
  -- Jumps
  | ret : Expr.Ends (.mk attrs (.ret value)) .returns
  | breakTo : Expr.Ends (.mk attrs (.breakTo label value)) (.breaks label)
  | continueTo : Expr.Ends (.mk attrs (.continueTo label)) (.continues label)
  -- Blocks
  | block : Stmt.ListEnds body o ->
      Expr.Ends (.mk attrs (.block (.plain none) body)) o
  | unsafeBlock : Stmt.ListEnds body o ->
      Expr.Ends (.mk attrs (.block .unsafeBlock body)) o
  | labelled : Stmt.ListEnds body o -> o ≠ .breaks (some label) ->
      Expr.Ends (.mk attrs (.block (.plain (some label)) body)) o
  | leaveBlock : Stmt.ListEnds body (.breaks (some label)) ->
      Expr.Ends (.mk attrs (.block (.plain (some label)) body)) .value
  | constBlock : Stmt.ListEnds body o -> o ≠ .value ->
      Expr.Ends (.mk attrs (.block .constBlock body)) o
  | tryBlock : Stmt.ListEnds body o -> o ≠ .value ->
      Expr.Ends (.mk attrs (.block .tryBlock body)) o
  -- Conditionals
  | ifTest : Expr.Ends test o -> o ≠ .value ->
      Expr.Ends (.mk attrs (.ifThen test body)) o
  | ifTrue : Expr.Ends test .value -> Stmt.ListEnds body o ->
      Expr.Ends (.mk attrs (.ifThen test body)) o
  | ifFalse : Expr.Ends test .value ->
      Expr.Ends (.mk attrs (.ifThen test body)) .value
  | elseTest : Expr.Ends test o -> o ≠ .value ->
      Expr.Ends (.mk attrs (.ifElse test body orElse)) o
  | elseTrue : Expr.Ends test .value -> Stmt.ListEnds body o ->
      Expr.Ends (.mk attrs (.ifElse test body orElse)) o
  | elseFalse : Expr.Ends test .value -> Expr.Ends orElse o ->
      Expr.Ends (.mk attrs (.ifElse test body orElse)) o
  | scrutinee : Expr.Ends e o -> o ≠ .value ->
      Expr.Ends (.mk attrs (.matchOn e arms)) o
  | guard : Expr.Ends e .value ->
      .mk armAttrs pat tests body comma ∈ arms -> .expr test ∈ tests ->
        Expr.Ends test o -> o ≠ .value ->
      Expr.Ends (.mk attrs (.matchOn e arms)) o
  | arm : Expr.Ends e .value ->
      .mk armAttrs pat tests body comma ∈ arms -> Expr.Ends body o ->
      Expr.Ends (.mk attrs (.matchOn e arms)) o
  -- Loops
  | loop : Stmt.ListEnds body o -> o.leaveLoop? label = some o' ->
      Expr.Ends (.mk attrs (.loop label body)) o'
  | whileTest : Expr.Ends test o -> o.leaveLoop? label = some o' ->
      Expr.Ends (.mk attrs (.whileLoop label test body)) o'
  | whileTrue : Expr.Ends test .value -> Stmt.ListEnds body o ->
        o.leaveLoop? label = some o' ->
      Expr.Ends (.mk attrs (.whileLoop label test body)) o'
  | whileFalse : Expr.Ends test .value ->
      Expr.Ends (.mk attrs (.whileLoop label test body)) .value
  | forSource : Expr.Ends e o -> o ≠ .value ->
      Expr.Ends (.mk attrs (.forLoop label pat e body)) o
  | forNext : Expr.Ends e .value -> Stmt.ListEnds body o ->
        o.leaveLoop? label = some o' ->
      Expr.Ends (.mk attrs (.forLoop label pat e body)) o'
  | forEnd : Expr.Ends e .value ->
      Expr.Ends (.mk attrs (.forLoop label pat e body)) .value

inductive Stmt.Ends : Stmt -> Outcome -> Prop
  | panic : Stmt.Ends s .panics
  | binding : Stmt.Ends (.binding attrs pat init) .value
  | initial : .expr e ∈ init -> Expr.Ends e o -> o ≠ .value ->
      Stmt.Ends (.binding attrs pat init) o
  | item : Stmt.Ends (.item i) .value
  | expr : Expr.Ends e o -> Stmt.Ends (.expr pos e semi) o
  | invocation : (m.NeverCompletes -> o ≠ .value) ->
      Stmt.Ends (.invocation attrs m semi) o

inductive Stmt.ListEnds : List Stmt -> Outcome -> Prop
  | nil : Stmt.ListEnds [] .value
  | stop : Stmt.Ends s o -> o ≠ .value -> Stmt.ListEnds (s :: rest) o
  | next : Stmt.Ends s .value -> Stmt.ListEnds rest o ->
      Stmt.ListEnds (s :: rest) o

end

/-!
## Ends of blocks
-/

theorem Stmt.listEnds_value_iff {body : List Stmt} :
    Stmt.ListEnds body .value ↔ forall s, s ∈ body -> s.Ends .value := by
  induction body with
  | nil => simp [Stmt.ListEnds.nil]
  | cons s rest ih =>
      rw [List.forall_mem_cons]
      constructor
      · intro h
        cases h with
        | stop _ hne => exact absurd rfl hne
        | next hs hrest => exact ⟨hs, ih.mp hrest⟩
      · rintro ⟨hs, hrest⟩
        exact .next hs (ih.mpr hrest)

/-!
## Divergence
-/

theorem Invocation.neverCompletes_of_diverges {m : Invocation}
    (h : m.diverges = true) : m.NeverCompletes := by
  rcases (Option.any_eq_true _ _).mp h with ⟨last, hlast, hname⟩
  rcases List.any_eq_true.mp hname with ⟨name, hmem, hword⟩
  rw [Ident.isWord, Bool.and_eq_true, beq_iff_eq] at hword
  refine ⟨last, hlast, ?_⟩
  rw [hword.2]
  exact hmem

mutual

theorem Expr.not_ends_of_diverges {e : Expr} (h : e.diverges = true) :
    ¬ e.Ends .value := by
  intro hends
  rcases e with ⟨attrs, kind⟩
  rw [Expr.diverges] at h
  cases kind with
  | ret value => cases hends <;> contradiction
  | breakTo label value => cases hends <;> contradiction
  | continueTo label => cases hends <;> contradiction
  | invocation m =>
      rw [ExprKind.diverges] at h
      cases hends with
      | invocation hvalue =>
          exact hvalue (Invocation.neverCompletes_of_diverges h) rfl
      | _ => contradiction
  | block style body =>
      cases style with
      | plain label =>
          cases label with
          | none =>
              rw [ExprKind.diverges] at h
              cases hends with
              | block hbody => exact Stmt.not_listEnds_of_diverge h hbody
              | _ => contradiction
          | some label => cases h
      | unsafeBlock =>
          rw [ExprKind.diverges] at h
          cases hends with
          | unsafeBlock hbody => exact Stmt.not_listEnds_of_diverge h hbody
          | _ => contradiction
      | _ => cases h
  | ifElse test body orElse =>
      rw [ExprKind.diverges, Bool.and_eq_true] at h
      cases hends with
      | elseTrue _ hbody => exact Stmt.not_listEnds_of_diverge h.1 hbody
      | elseFalse _ hbody => exact Expr.not_ends_of_diverges h.2 hbody
      | _ => contradiction
  | matchOn scrutinee arms =>
      rw [ExprKind.diverges, Bool.and_eq_true] at h
      cases hends with
      | arm _ hmem hbody => exact not_ends_of_armsDiverge h.2 hmem hbody
      | _ => contradiction
  | paren inner =>
      rw [ExprKind.diverges] at h
      cases hends with
      | paren hinner => exact Expr.not_ends_of_diverges h hinner
      | _ => contradiction
  | _ => cases h

theorem not_ends_of_armsDiverge {arms : List Arm} {attrs : List Attr}
    {pat : Pat} {tests : List Part} {body : Expr} {comma : Bool}
    (h : armsDiverge arms = true)
    (hmem : .mk attrs pat tests body comma ∈ arms) : ¬ body.Ends .value := by
  cases hmem with
  | head rest =>
      rw [armsDiverge, Arm.diverges, Bool.and_eq_true] at h
      exact Expr.not_ends_of_diverges h.1
  | tail a hrest =>
      rw [armsDiverge, Bool.and_eq_true] at h
      exact not_ends_of_armsDiverge h.2 hrest

theorem Stmt.not_ends_of_diverges {s : Stmt} (h : s.diverges = true) :
    ¬ s.Ends .value := by
  intro hends
  cases s with
  | expr pos e semi =>
      rw [Stmt.diverges] at h
      cases hends with
      | expr he => exact Expr.not_ends_of_diverges h he
  | invocation attrs m semi =>
      rw [Stmt.diverges] at h
      cases hends with
      | invocation hvalue =>
          exact hvalue (Invocation.neverCompletes_of_diverges h) rfl
  | binding attrs pat init => cases h
  | item i => cases h

theorem Stmt.not_listEnds_of_diverge {body : List Stmt}
    (h : stmtsDiverge body = true) : ¬ Stmt.ListEnds body .value := by
  intro hends
  have hall := Stmt.listEnds_value_iff.mp hends
  cases body with
  | nil => cases h
  | cons s rest =>
      rw [List.forall_mem_cons] at hall
      cases rest with
      | nil =>
          rw [stmtsDiverge] at h
          exact Stmt.not_ends_of_diverges h hall.1
      | cons t more =>
          have hlast : stmtsDiverge (t :: more) = true := h
          exact Stmt.not_listEnds_of_diverge hlast
            (Stmt.listEnds_value_iff.mpr hall.2)

end

/-!
## Values that are not bound
-/

namespace Stmt

variable {runtime : Path} {body result : List Stmt} {marks : List Bool}

/-- A value at the end of a guarded block that is neither a loop nor bound is
one that never completes, and it is also the end of what replaces the block. -/
theorem diverges_of_not_bound {front : List Stmt} {pos : Position} {e : Expr}
    (hguarded : guardBlock runtime (front ++ [.expr pos e false]) marks =
      .ok result)
    (hmarks : marks.contains true = true) (hloop : e.isLoop = false)
    (hplace : result[front.length]? = some (.expr pos e false)) :
    e.diverges = true ∧ result.getLast? = some (.expr pos e false) := by
  rcases guardBlock_cases hguarded with ⟨hnone, _⟩ | ⟨_, rfl⟩
  · rw [hmarks] at hnone
    cases hnone
  · rw [bindGuards_concat] at hplace ⊢
    rw [List.getElem?_append_right (by simp), List.length_mapIdx,
      Nat.sub_self, atEnd] at hplace
    rw [atEnd]
    split at hplace
    · cases hplace
    · next hbound =>
      have hsame : inPlace runtime (marks[front.length]?.getD false)
          (.expr pos e false) = .expr pos e false := by
        simpa using hplace
      rw [if_neg hbound, hsame, List.getLast?_concat]
      refine ⟨?_, rfl⟩
      -- A registration would have been replaced, so the value is none.
      rw [inPlace] at hsame
      split at hsame
      · cases hsame
      · next hmark =>
        simpa [isBoundValue, hmark, isValue, Expr.needsBinding, hloop]
          using hbound

end Stmt

/-- An expression that diverges by its shape has no execution that completes, be
it by its own value or by that of a jump to a label.  So the end of a guarded
block is never reached if the value there is not bound and is no loop, neither in
the block as it was nor in what replaces it. -/
theorem no_value_of_divergence :
    (forall e : Expr, e.diverges = true -> ¬ e.Ends .value) ∧
      forall (runtime : Path) (front result : List Stmt) (pos : Position)
        (e : Expr) (marks : List Bool),
        Stmt.guardBlock runtime (front ++ [.expr pos e false]) marks =
            .ok result ->
          marks.contains true = true -> e.isLoop = false ->
            result[front.length]? = some (.expr pos e false) ->
              ¬ Stmt.ListEnds (front ++ [.expr pos e false]) .value ∧
                ¬ Stmt.ListEnds result .value := by
  refine ⟨fun e => Expr.not_ends_of_diverges, ?_⟩
  intro runtime front result pos e marks hguarded hmarks hloop hplace
  have hnotBound := Stmt.diverges_of_not_bound hguarded hmarks hloop hplace
  have hlast : ¬ Stmt.Ends (.expr pos e false) .value := by
    apply Stmt.not_ends_of_diverges
    rw [Stmt.diverges]
    exact hnotBound.1
  constructor
  · intro hends
    exact hlast (Stmt.listEnds_value_iff.mp hends _ (by simp))
  · intro hends
    exact hlast (Stmt.listEnds_value_iff.mp hends _
      (List.mem_of_getLast? hnotBound.2))

/-- A conditional both of whose branches diverge, one of them behind a block that
is left by a jump to its label. -/
theorem no_value_of_divergence_conditional :
    let name := fun text => Expr.ofIdent (.plain text)
    let stmt := fun kind => Stmt.expr .origin (.bare kind) false
    let front := [stmt (.call (name "defer") [.expr (name "close")])]
    let e := Expr.bare (.ifElse (name "ready")
      [stmt (.block (.plain (some "done")) [stmt (.breakTo (some "done") [])]),
        stmt (.paren (.bare (.ret [.expr (name "code")])))]
      (.bare (.block (.plain none)
        [.invocation [] ⟨⟨true, [.plain "std", .plain "panic"]⟩, .paren, []⟩
          true])))
    let body := front ++ [.expr .origin e false]
    let runtime := (SimplePath.mk true [.plain "deferred"]).toPath
    exists result, Stmt.guardBlock runtime body [true] = .ok result ∧
      e.isLoop = false ∧ e.diverges = true ∧
      result[front.length]? = some (.expr .origin e false) ∧
      ¬ e.Ends .value ∧ ¬ Stmt.ListEnds body .value ∧
        ¬ Stmt.ListEnds result .value := by
  intro name stmt front e body runtime
  have hguarded : Stmt.guardBlock runtime body [true] = .ok _ :=
    Stmt.guardBlock_eq_bindGuards _ _ rfl
  have hdiverges : e.diverges = true := by decide
  have h := no_value_of_divergence
  exact ⟨_, hguarded, rfl, hdiverges, rfl, h.1 e hdiverges,
    h.2 runtime front _ .origin e [true] hguarded rfl rfl rfl⟩

/-- A block with a label may complete even if its only statement is a jump. -/
example (l : String) (pos : Position) :
    (Expr.bare (.block (.plain (some l))
      [.expr pos (.bare (.breakTo (some l) [])) true])).Ends .value :=
  .leaveBlock (.stop (.expr .breakTo) (by simp))

end ScopeExit
