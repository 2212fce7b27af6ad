import ScopeExit.Proofs.Accounts

/-!
# Functions in const contexts

What is evaluated at compile time is decided by the innermost function: the body
of a function that is not `const` runs when the function is called, wherever the
function itself stands.  The walk does not ask for the innermost function but
for any const context on the way.  So it rejects all that is evaluated at compile
time, and besides that just the functions that are nested in a const context.
-/

namespace ScopeExit

def Crossing.isConst : Crossing -> Bool
  | .constant => true
  | .function isConst _ => isConst
  | _ => false

/-- Whether the end of a way is evaluated at compile time, given whether its
beginning is.  Nothing that lies around a function counts for its body. -/
def evaluatedAlong (start : Bool) : List Crossing -> Bool
  | [] => start
  | .constant :: xs => evaluatedAlong true xs
  | .function isConst _ :: xs => evaluatedAlong isConst xs
  | _ :: xs => evaluatedAlong start xs

/-- Whether the place at an address is evaluated at compile time, going by the
innermost function. -/
def Node.isEvaluatedAt (n : Node) (a : Address) : Bool :=
  (n.visit? a).any fun found => evaluatedAlong false found.1

/-!
## The innermost function
-/

theorem evaluatedAlong_append (start : Bool) (xs ys : List Crossing) :
    evaluatedAlong start (xs ++ ys) =
      evaluatedAlong (evaluatedAlong start xs) ys := by
  induction xs generalizing start with
  | nil => rfl
  | cons x rest ih => cases x <;> exact ih _

theorem evaluatedAlong_of_ordinary {xs : List Crossing}
    (h : forall x, x ∈ xs -> x.isConst = false) :
    evaluatedAlong false xs = false := by
  induction xs with
  | nil => rfl
  | cons x rest ih =>
      have hrest := ih fun y hy => h y (List.mem_cons_of_mem x hy)
      have hx := h x List.mem_cons_self
      cases x with
      | constant => cases hx
      | function isConst signature =>
          rw [evaluatedAlong, show isConst = false from hx]
          exact hrest
      | _ => exact hrest

theorem exists_isConst_of_evaluatedAlong {start : Bool} {xs : List Crossing}
    (h : evaluatedAlong start xs = true) :
    start = true ∨ exists x, x ∈ xs ∧ x.isConst = true := by
  induction xs generalizing start with
  | nil => exact .inl h
  | cons x rest ih =>
      have hbehind : forall {inside : Bool},
          evaluatedAlong inside rest = true ->
            inside = true ∨ exists y, y ∈ x :: rest ∧ y.isConst = true := by
        intro inside hinside
        rcases ih hinside with htrue | ⟨y, hy, hconst⟩
        · exact .inl htrue
        · exact .inr ⟨y, List.mem_cons_of_mem x hy, hconst⟩
      cases x with
      | constant => exact .inr ⟨_, List.mem_cons_self, rfl⟩
      | function isConst signature =>
          rcases hbehind h with hfunction | hrest
          · exact .inr ⟨_, List.mem_cons_self, hfunction⟩
          · exact .inr hrest
      | _ => exact hbehind h

/-!
## Any const context
-/

theorem Context.inConst_cross (c : Context) (x : Crossing) :
    (c.cross x).inConst = (c.inConst || x.isConst) := by
  cases x <;>
    simp [cross, opened, withConst, inBlock, Crossing.isConst]

theorem Context.inConst_along_iff (c : Context) (xs : List Crossing) :
    (c.along xs).inConst = true ↔
      c.inConst = true ∨ exists x, x ∈ xs ∧ x.isConst = true := by
  induction xs generalizing c with
  | nil => simp
  | cons x rest ih =>
      rw [along_cons, ih, inConst_cross]
      simp [or_assoc]

namespace Node

variable {c : Context} {n : Node} {a : Address}

/-- Nothing that is evaluated at compile time is missed. -/
theorem isConstAt_of_isEvaluatedAt (h : n.isEvaluatedAt a = true) :
    n.isConstAt c a = true := by
  rw [isEvaluatedAt, Option.any_eq_true] at h
  rcases h with ⟨⟨xs, m⟩, hvisit, hevaluated⟩
  rw [isConstAt, hvisit]
  refine (Context.inConst_along_iff c xs).mpr (.inr ?_)
  rcases exists_isConst_of_evaluatedAlong hevaluated with hstart | hconst
  · cases hstart
  · exact hconst

section

variable {before within : List Crossing} {signature : List Part} {m : Node}
    (hvisit : n.visit? a =
      some (before ++ .function false signature :: within, m))
    (hwithin : forall x, x ∈ within -> x.isConst = false)

include hvisit hwithin

/-- The body of a function that is not `const` is not evaluated at compile time,
whatever lies around the function. -/
theorem isEvaluatedAt_within_function : n.isEvaluatedAt a = false := by
  rw [isEvaluatedAt, hvisit]
  change evaluatedAlong false (before ++ _) = false
  rw [evaluatedAlong_append]
  exact evaluatedAlong_of_ordinary hwithin

/-- For the walk it is what lies around the function that matters. -/
theorem isConstAt_within_function_iff (hc : c.inConst = false) :
    n.isConstAt c a = true ↔ exists x, x ∈ before ∧ x.isConst = true := by
  rw [isConstAt, hvisit]
  change (c.along (before ++ _)).inConst = true ↔ _
  rw [Context.inConst_along_iff]
  constructor
  · rintro (hstart | ⟨x, hx, hconst⟩)
    · rw [hc] at hstart
      cases hstart
    · rcases List.mem_append.mp hx with hbefore | hbehind
      · exact ⟨x, hbefore, hconst⟩
      · rcases List.mem_cons.mp hbehind with rfl | hx
        · cases hconst
        · rw [hwithin x hx] at hconst
          cases hconst
  · rintro ⟨x, hx, hconst⟩
    exact .inr ⟨x, List.mem_append_left _ hx, hconst⟩

end

end Node

namespace Item

/-- Every registration that is evaluated at compile time is rejected.  One in
the body of a function that is not `const`, with no const context between the
two, is not evaluated at compile time; it is rejected if and only if a const
context lies around the function, and else a guard is to replace it.  The errors
are one for each rejected registration, in the order of the walk, and the item
is as planned. -/
theorem guardedAt_nested_functions (runtime : SimplePath) (i : Item) :
    let root := Context.root runtime.toPath
    let n := Node.item i
    let found := i.guardedAt runtime
    let plan := n.plan root
    (forall a, n.registers root a = true -> n.isEvaluatedAt a = true ->
        a ∈ n.refused root ∧ plan.replaced a = false) ∧
      (forall a before signature within s,
        n.visit? a =
            some (before ++ .function false signature :: within, .stmt s) ->
          n.registers root a = true ->
            (forall x, x ∈ within -> x.isConst = false) ->
              n.isEvaluatedAt a = false ∧
                (a ∈ n.refused root ↔
                  exists x, x ∈ before ∧ x.isConst = true) ∧
                (plan.replaced a = true ↔
                  forall x, x ∈ before -> x.isConst = false)) ∧
      found.faults = (n.refused root).map n.refusal ∧
      found.value = i.placed plan := by
  intro root n found plan
  refine ⟨?_, ?_, faults_guardedAt runtime i, value_guardedAt runtime i⟩
  · intro a hregisters hevaluated
    have hconst : n.isConstAt root a = true :=
      Node.isConstAt_of_isEvaluatedAt hevaluated
    refine ⟨(Node.mem_refused_iff root n a).mpr ⟨hregisters, hconst⟩, ?_⟩
    simp [plan, Node.plan, hconst]
  · intro a before signature within s hvisit hregisters hwithin
    have hiff : n.isConstAt root a = true ↔
        exists x, x ∈ before ∧ x.isConst = true :=
      Node.isConstAt_within_function_iff hvisit hwithin rfl
    refine ⟨Node.isEvaluatedAt_within_function hvisit hwithin, ?_, ?_⟩
    · rw [Node.mem_refused_iff, hiff, and_iff_right hregisters]
    · have hreplaced : plan.replaced a = !n.isConstAt root a := by
        simp [plan, Node.plan, hregisters]
      rw [hreplaced, Bool.not_eq_true', ← Bool.not_eq_true, hiff]
      simp

/-- A function in the initial value of a constant, and one beside the constant.
Neither body is evaluated at compile time, but only the second registration is
replaced, and the first one is rejected. -/
theorem guardedAt_nested_functions_beside_constant :
    let call := fun x => Stmt.expr .origin (.bare (.call
      (.ofIdent (.plain "defer")) [.expr (.ofIdent (.plain x))])) true
    let function := fun name x => Item.mk [] (.function [] false []
      (.plain name) (Part.ofTokens (Token.group .paren [])) [call x])
    let i := Item.mk [] (.module [.word "mod"] (.plain "jobs")
      [.mk [] (.constant [.word "const"] (.plain "_")
        (Part.ofTokens (.punct ':' :: Token.group .paren [] ++ [.punct '=']) ++
          [.expr (.bare (.block (.plain none)
            [.item (function "inner" "never")])), .token (.punct ';')])),
        function "run" "close"])
    let runtime : SimplePath := ⟨true, [.plain "deferred"]⟩
    let root := Context.root runtime.toPath
    let n := Node.item i
    let inner := [1, 0, 0, 1, 0, 1, 1, 1, 1, 0, 0, 1, 0, 0, 0, 0, 1, 0, 0, 0]
    let run := [1, 0, 1, 0, 1, 0, 0, 0]
    n.isEvaluatedAt inner = false ∧
      inner ∈ n.refused root ∧
      n.isEvaluatedAt run = false ∧
      (n.plan root).replaced run = true := by
  intro call function i runtime root n inner run
  rcases (guardedAt_nested_functions runtime i).2.1 inner
      [.module _, .level, .level, .constant, .level, .level, .level, .level,
        .level, .level, .level, .level, .level, .block _, .level, .level]
      _ [.level, .block _, .level] _ rfl (by decide +kernel)
      (by simp [Crossing.isConst])
    with ⟨hinner, hrefused, _⟩
  rcases (guardedAt_nested_functions runtime i).2.1 run
      [.module _, .level, .level, .level]
      _ [.level, .block _, .level] _ rfl (by decide +kernel)
      (by simp [Crossing.isConst])
    with ⟨hrun, _, hreplaced⟩
  refine ⟨hinner, hrefused.mpr ?_, hrun, hreplaced.mpr ?_⟩
  · exact ⟨.constant, by simp, rfl⟩
  · simp [Crossing.isConst]

/-- A method of a local type in the initial value of a constant.  Its body is
not evaluated at compile time, but the registration in it is rejected, and the
module stays as it is. -/
theorem guardedAt_method_in_constant :
    let text := "mod jobs \x7b const _: () = \x7b impl T \x7b fn f() \x7b " ++
      "defer(a); \x7d \x7d \x7d; \x7d"
    let runtime : SimplePath := ⟨true, [.plain "deferred"]⟩
    let root := Context.root runtime.toPath
    let place := [1, 0, 0, 1, 0, 1, 1, 1, 1, 0, 0, 1, 0, 0, 0, 0, 1, 1, 0, 1,
      0, 0, 0]
    exists i, Item.ofText? text = some i ∧
      (Node.item i).registers root place = true ∧
      (Node.item i).isEvaluatedAt place = false ∧
      (i.guardedAt runtime).faults = [(Node.item i).refusal place] ∧
      (Node.item i).refused root = [place] ∧
      (i.guardedAt runtime).value.tokens = i.tokens := by
  intro text runtime root place
  have hfound :
      (Item.ofText? text).any (fun i =>
        (Node.item i).registers root place &&
          !(Node.item i).isEvaluatedAt place &&
          (i.guardedAt runtime).faults == [(Node.item i).refusal place] &&
          (Node.item i).refused root == [place] &&
          (i.guardedAt runtime).value.tokens == i.tokens) = true := by
    decide +kernel
  rcases (Option.any_eq_true _ _).mp hfound with ⟨i, hread, hi⟩
  refine ⟨i, hread, ?_⟩
  simpa [and_assoc] using hi

end Item

end ScopeExit
