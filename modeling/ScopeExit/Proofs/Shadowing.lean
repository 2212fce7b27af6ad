import ScopeExit.Proofs.Agreement
import ScopeExit.Proofs.GuardsInPlace

/-!
# Local variables hide the sentinel

A call of a local variable registers nothing, whatever was imported under the
same name further out.  Between the variable and the call, only an item boundary
or a block that declares the name again can take the variable out of sight.
-/

namespace ScopeExit

/-!
## Variables that are introduced

The binders of a pattern are collected into a list.  Whether a pattern binds a
name is said here without that list, by where in the pattern the binder stands.
-/

inductive Pat.Binds (n : String) : Pat -> Prop where
  | name {before : List Token} {name : Ident} {sub : List Part}
      (h : name.name = n) : Binds n (.binder before name sub)
  | sub {before : List Token} {name : Ident} {sub : List Part} {q : Pat}
      (hq : .pat q ∈ sub) (h : Binds n q) : Binds n (.binder before name sub)
  | part {parts : List Part} {q : Pat}
      (hq : .pat q ∈ parts) (h : Binds n q) : Binds n (.compound parts)

/-- Whether a condition binds a name for its body. -/
inductive Expr.BindsBelow (n : String) : Expr -> Prop where
  | letCond {attrs : List Attr} {q : Pat} {scrutinee : Expr}
      (h : q.Binds n) : BindsBelow n (.mk attrs (.letCond q scrutinee))
  | left {attrs : List Attr} {left right : Expr} {op : List Token}
      (h : BindsBelow n left) : BindsBelow n (.mk attrs (.binary left op right))
  | right {attrs : List Attr} {left right : Expr} {op : List Token}
      (h : BindsBelow n right) :
      BindsBelow n (.mk attrs (.binary left op right))
  | paren {attrs : List Attr} {inner : Expr}
      (h : BindsBelow n inner) : BindsBelow n (.mk attrs (.paren inner))

theorem mem_partsBinders_of_mem {n : String} {q : Pat} {parts : List Part}
    (hq : .pat q ∈ parts) (h : n ∈ q.binders) : n ∈ partsBinders parts := by
  induction parts with
  | nil => cases hq
  | cons p rest ih =>
      rw [partsBinders, List.mem_append]
      cases hq with
      | head => exact Or.inl h
      | tail _ hrest => exact Or.inr (ih hrest)

theorem Pat.Binds.mem_binders {n : String} {q : Pat} (h : q.Binds n) :
    n ∈ q.binders := by
  induction h with
  | name h =>
      rw [Pat.binders, h]
      exact List.mem_cons_self
  | sub hq _ ih =>
      rw [Pat.binders]
      exact List.mem_cons_of_mem _ (mem_partsBinders_of_mem hq ih)
  | part hq _ ih =>
      rw [Pat.binders]
      exact mem_partsBinders_of_mem hq ih

mutual

theorem Pat.binds_of_mem_binders {n : String} (q : Pat)
    (h : n ∈ q.binders) : q.Binds n := by
  cases q with
  | binder before name sub =>
      rw [Pat.binders, List.mem_cons] at h
      rcases h with h | h
      · exact .name h.symm
      · rcases exists_binds_of_mem_partsBinders sub h with ⟨q, hq, hbinds⟩
        exact .sub hq hbinds
  | compound parts =>
      rcases exists_binds_of_mem_partsBinders parts h with ⟨q, hq, hbinds⟩
      exact .part hq hbinds

theorem exists_binds_of_mem_partsBinders {n : String} (parts : List Part)
    (h : n ∈ partsBinders parts) :
    exists q, .pat q ∈ parts ∧ Pat.Binds n q := by
  cases parts with
  | nil => cases h
  | cons p rest =>
      rw [partsBinders, List.mem_append] at h
      rcases h with h | h
      · rcases exists_binds_of_mem_part p h with ⟨q, hp, hbinds⟩
        exact ⟨q, by rw [hp]; exact List.mem_cons_self, hbinds⟩
      · rcases exists_binds_of_mem_partsBinders rest h with ⟨q, hq, hbinds⟩
        exact ⟨q, List.mem_cons_of_mem p hq, hbinds⟩

theorem exists_binds_of_mem_part {n : String} (p : Part)
    (h : n ∈ p.binders) : exists q, p = .pat q ∧ Pat.Binds n q := by
  cases p with
  | pat q => exact ⟨q, rfl, Pat.binds_of_mem_binders q h⟩
  | _ => cases h

end

theorem mem_partsBinders_iff {n : String} {parts : List Part} :
    n ∈ partsBinders parts ↔ exists q, .pat q ∈ parts ∧ Pat.Binds n q := by
  constructor
  · exact exists_binds_of_mem_partsBinders parts
  · rintro ⟨q, hq, hbinds⟩
    exact mem_partsBinders_of_mem hq hbinds.mem_binders

theorem Pat.mem_binders_iff {n : String} {q : Pat} :
    n ∈ q.binders ↔ q.Binds n :=
  ⟨Pat.binds_of_mem_binders q, Pat.Binds.mem_binders⟩

theorem Expr.BindsBelow.mem_conditionBinders {n : String} {e : Expr}
    (h : e.BindsBelow n) : n ∈ e.conditionBinders := by
  induction h with
  | letCond h =>
      rw [Expr.conditionBinders, ExprKind.conditionBinders]
      exact h.mem_binders
  | left _ ih =>
      rw [Expr.conditionBinders, ExprKind.conditionBinders, List.mem_append]
      exact Or.inl ih
  | right _ ih =>
      rw [Expr.conditionBinders, ExprKind.conditionBinders, List.mem_append]
      exact Or.inr ih
  | paren _ ih =>
      rw [Expr.conditionBinders, ExprKind.conditionBinders]
      exact ih

theorem Expr.bindsBelow_of_mem_conditionBinders {n : String} (e : Expr)
    (h : n ∈ e.conditionBinders) : e.BindsBelow n := by
  match e, h with
  | .mk attrs (.letCond q scrutinee), h =>
      exact .letCond (Pat.binds_of_mem_binders q h)
  | .mk attrs (.binary left op right), h =>
      rw [Expr.conditionBinders, ExprKind.conditionBinders,
        List.mem_append] at h
      rcases h with h | h
      · exact .left (bindsBelow_of_mem_conditionBinders left h)
      · exact .right (bindsBelow_of_mem_conditionBinders right h)
  | .mk attrs (.paren inner), h =>
      exact .paren (bindsBelow_of_mem_conditionBinders inner h)

/-- Whether a local variable of this name is introduced at a crossing: by a
parameter of a function or closure, by the pattern of an arm, of a loop or of a
condition, or by the declaration in front of the other statements. -/
def Crossing.Introduces (n : String) : Crossing -> Prop
  | .closure inputs => exists q, .pat q ∈ inputs ∧ Pat.Binds n q
  | .pattern q => q.Binds n
  | .condition cond => cond.BindsBelow n
  | .function _ signature => exists q, .pat q ∈ signature ∧ Pat.Binds n q
  | .behind (.binding _ q _) => q.Binds n
  | _ => False

theorem Crossing.mem_locals_iff {n : String} {x : Crossing} :
    n ∈ x.locals ↔ x.Introduces n := by
  cases x with
  | closure inputs => exact mem_partsBinders_iff
  | pattern q => exact Pat.mem_binders_iff
  | condition cond =>
      exact ⟨Expr.bindsBelow_of_mem_conditionBinders cond,
        Expr.BindsBelow.mem_conditionBinders⟩
  | function isConst signature => exact mem_partsBinders_iff
  | behind s =>
      cases s with
      | binding attrs q init => exact Pat.mem_binders_iff
      | _ => exact List.mem_nil_iff n
  | _ => exact List.mem_nil_iff n

/-!
## Names that a block declares again

An import may declare a name without naming it: that of all names below the
runtime declares the sentinel.  Whether a path leads to the runtime depends on
the imports before.
-/

mutual

def UseTree.declares (n : String) (s : ScopeStack)
    (parent : List String) : UseTree -> Bool
  | .path name rest => rest.declares n s (parent ++ [name.name])
  | .leaf name => ScopeStack.leafName? parent name = some n
  | .rename _ newName => !newName.isWord "_" && newName.name = n
  | .glob => n = sentinelName && s.canonical parent = s.runtime
  | .group trees _ => treesDeclare n s parent trees

def treesDeclare (n : String) (s : ScopeStack) (parent : List String) :
    List UseTree -> Bool
  | [] => false
  | t :: rest =>
      t.declares n s parent ||
        treesDeclare n (s.declareTree parent t) parent rest

end

def Item.declares (n : String) (s : ScopeStack) : Item -> Bool
  | .mk _ (.imports _ _ tree) => tree.declares n s []
  | .mk _ (.externCrate _ name newName) => (newName.getD name).name = n
  | .mk _ (.function _ _ _ name _ _) => name.name = n
  | .mk _ (.constant _ name _) => name.name = n
  | .mk _ (.traitDef _ name _ _) => name.name = n
  | .mk _ (.module _ name _) => name.name = n
  | .mk _ (.moduleFile _ name) => name.name = n
  | .mk _ (.definition _ name _) => name.name = n
  | .mk _ (.implementation _ _) => false
  | .mk _ (.other _) => false

def itemsDeclare (n : String) (s : ScopeStack) : List Item -> Bool
  | [] => false
  | i :: rest => i.declares n s || itemsDeclare n (s.declareItem i) rest

namespace ScopeStack

mutual

theorem AgreesOn.declareTree_right {n : String} {s t : ScopeStack}
    (hst : s.AgreesOn (· = n) t)
    (parent : List String) (tree : UseTree)
    (h : tree.declares n t parent = false) :
    s.AgreesOn (· = n) (t.declareTree parent tree) := by
  cases tree with
  | path name rest =>
      exact AgreesOn.declareTree_right hst (parent ++ [name.name]) rest h
  | leaf name =>
      have hname : leafName? parent name ≠ some n := of_decide_eq_false h
      rw [ScopeStack.declareTree]
      split
      · rename_i declared hdeclared
        rw [hdeclared] at hname
        apply hst.bind_right
        intro heq
        exact hname (congrArg some heq)
      · exact hst
  | rename name newName =>
      rw [ScopeStack.declareTree]
      split
      · exact hst
      · rename_i hword
        rw [UseTree.declares, Bool.eq_false_iff.mpr hword] at h
        exact hst.bind_right (of_decide_eq_false h) _
  | glob =>
      rw [ScopeStack.declareTree, bindGlob]
      split
      · rename_i hruntime
        have hname : ¬ sentinelName = n := by
          intro heq
          rw [UseTree.declares, hruntime, heq] at h
          simp at h
        exact hst.bindWeak_right hname _
      · exact hst
  | group trees trailing =>
      exact AgreesOn.declareTrees_right hst parent trees h

theorem AgreesOn.declareTrees_right {n : String} {s t : ScopeStack}
    (hst : s.AgreesOn (· = n) t)
    (parent : List String) (trees : List UseTree)
    (h : treesDeclare n t parent trees = false) :
    s.AgreesOn (· = n) (t.declareTrees parent trees) := by
  cases trees with
  | nil => exact hst
  | cons tree rest =>
      rcases Bool.or_eq_false_iff.mp h with ⟨htree, hrest⟩
      exact AgreesOn.declareTrees_right
        (AgreesOn.declareTree_right hst parent tree htree) parent rest hrest

end

variable {n : String} {s t : ScopeStack}

theorem AgreesOn.declareItem_right (hst : s.AgreesOn (· = n) t)
    (i : Item) (h : i.declares n t = false) :
    s.AgreesOn (· = n) (t.declareItem i) := by
  rcases i with ⟨attrs, kind⟩
  cases kind with
  | imports before absolute tree => exact hst.declareTree_right [] tree h
  | implementation header members => exact hst
  | other parts => exact hst
  | _ => exact hst.bind_right (of_decide_eq_false h) _

theorem AgreesOn.declareItems_right (hst : s.AgreesOn (· = n) t)
    (items : List Item) (h : itemsDeclare n t items = false) :
    s.AgreesOn (· = n) (t.declareItems items) := by
  induction items generalizing t with
  | nil => exact hst
  | cons i rest ih =>
      rcases Bool.or_eq_false_iff.mp h with ⟨hi, hrest⟩
      exact ih (hst.declareItem_right i hi) hrest

/-!
## What a name refers to further in
-/

theorem lookup_bindLocals_of_mem {names : List String}
    (h : n ∈ names) (s : ScopeStack) :
    (s.bindLocals names).lookup n false = some .localVar := by
  induction names generalizing s with
  | nil => cases h
  | cons name rest ih =>
      rw [bindLocals_cons]
      by_cases hrest : n ∈ rest
      · exact ih hrest _
      · have hname : n = name := by
          cases h with
          | head => rfl
          | tail _ hmem => exact absurd hmem hrest
        have hsame : (s.bind name .localVar).AgreesOn (· = n)
            ((s.bind name .localVar).bindLocals rest) := by
          apply (AgreesOn.refl _ _).bindLocals_right
          intro other hother heq
          rw [heq] at hother
          exact hrest hother
        rw [← hsame.lookup rfl false, hname]
        simp [lookup, lookupIn, bind, Frame.get?_bind]

end ScopeStack

/-- Whether a crossing leaves the variables of the same function in sight and
does not declare a name again. -/
def Crossing.IsQuiet (n : String) (c : Context) : Crossing -> Prop
  | .function _ _ => False
  | .boundary => False
  | .module _ => False
  | .block body =>
      itemsDeclare n c.scope.push (ScopeStack.itemsOf body) = false
  | _ => True

/-- Whether all crossings on a way are quiet for a name. -/
def Context.IsQuiet (n : String) : Context -> List Crossing -> Prop
  | _, [] => True
  | c, x :: xs => x.IsQuiet n c ∧ (c.cross x).IsQuiet n xs

theorem Crossing.IsQuiet.lookup_opened {n : String} {c : Context}
    {x : Crossing} (h : x.IsQuiet n c) :
    (c.opened x).scope.lookup n false = c.scope.lookup n false := by
  cases x with
  | function isConst signature => cases h
  | boundary => cases h
  | module items => cases h
  | block body =>
      have hsame := (ScopeStack.AgreesOn.refl (· = n)
        c.scope.push).declareItems_right _ h
      exact (hsame.lookup rfl false).symm
  | _ => rfl

/-!
## Calls of a name
-/

namespace Stmt

/-- The name that a statement calls, if its callee is a name alone. -/
def calledName? : Stmt -> Option String
  | .expr _ (.mk _ (.call callee _)) _ =>
      callee.calleePath?.bind fun p =>
        match p.isAbsolute, p.names with
        | false, [name] => some name
        | _, _ => none
  | _ => none

theorem exists_isRegistration_eq {s : Stmt} {n : String}
    (hcall : s.calledName? = some n) :
    exists takesAction : Bool, forall scope : ScopeStack,
      s.isRegistration scope =
        (scope.lookup n false = some .sentinel && takesAction) := by
  match s, hcall with
  | .expr pos (.mk attrs (.call callee args)) semi, hcall =>
      rcases Option.bind_eq_some_iff.mp hcall with ⟨p, hp, hname⟩
      split at hname
      · rename_i name habsolute hnames
        cases hname
        exists (soleArgument? args).any Expr.isAction
        intro scope
        have hresolve : scope.resolve p =
            (scope.lookup n false).getD .item := by
          rw [ScopeStack.resolve, habsolute, hnames]
          rfl
        rw [isRegistration, hp, Option.any_some, hresolve]
        cases scope.lookup n false <;> simp
      · cases hname

theorem isRegistration_of_lookup {s : Stmt} {n : String}
    (hcall : s.calledName? = some n) {scope other : ScopeStack}
    (h : scope.lookup n false = other.lookup n false) :
    s.isRegistration scope = s.isRegistration other := by
  rcases exists_isRegistration_eq hcall with ⟨takesAction, heq⟩
  rw [heq, heq, h]

theorem not_isRegistration_of_local {s : Stmt} {n : String}
    (hcall : s.calledName? = some n) {scope : ScopeStack}
    (h : scope.lookup n false = some .localVar) :
    s.isRegistration scope = false := by
  rcases exists_isRegistration_eq hcall with ⟨takesAction, heq⟩
  simp [heq, h]

/-- Only the variables that a crossing introduces make a difference behind
it. -/
theorem isRegistration_cross {s : Stmt} {n : String}
    (hcall : s.calledName? = some n) (c : Context) (x : Crossing) :
    s.isRegistration (c.cross x).scope = true ↔
      s.isRegistration (c.opened x).scope = true ∧ ¬ x.Introduces n := by
  rw [← Crossing.mem_locals_iff]
  by_cases hmem : n ∈ x.locals
  · have hlocal := ScopeStack.lookup_bindLocals_of_mem hmem
      (c.opened x).scope
    have hnot : s.isRegistration (c.cross x).scope = false :=
      not_isRegistration_of_local hcall hlocal
    simp [hnot, hmem]
  · have hsame : (c.opened x).scope.AgreesOn (· = n)
        (c.cross x).scope := by
      apply (ScopeStack.AgreesOn.refl _ _).bindLocals_right
      intro other hother heq
      rw [heq] at hother
      exact hmem hother
    have heq : s.isRegistration (c.opened x).scope =
        s.isRegistration (c.cross x).scope :=
      isRegistration_of_lookup hcall (hsame.lookup rfl false)
    simp [heq, hmem]

theorem isRegistration_along {s : Stmt} {n : String}
    (hcall : s.calledName? = some n) {c : Context} {xs : List Crossing}
    (hquiet : c.IsQuiet n xs) :
    s.isRegistration (c.along xs).scope = true ↔
      s.isRegistration c.scope = true ∧
        forall y, y ∈ xs -> ¬ y.Introduces n := by
  induction xs generalizing c with
  | nil => simp
  | cons x rest ih =>
      rcases hquiet with ⟨hx, hrest⟩
      have hopened := isRegistration_of_lookup hcall hx.lookup_opened
      rw [Context.along_cons, ih hrest, isRegistration_cross hcall, hopened]
      simp [and_assoc]

end Stmt

namespace Item

/-- Behind the place where a variable may be introduced, on a way that is quiet
for its name, a call of the name is a registration only if it would be one
without any variable, and no variable of that name is introduced on the way.  If
one is, the call is neither taken for a registration nor replaced. -/
theorem registers_called_name (runtime : SimplePath) (i : Item)
    {a : Address} {n : String} {s : Stmt} (before : List Crossing)
    (x : Crossing) (after : List Crossing)
    (hplace :
      (Node.item i).visit? a = some (before ++ x :: after, .stmt s))
    (hcall : s.calledName? = some n)
    (hquiet : (((Context.root runtime.toPath).along before).cross x).IsQuiet
      n after) :
    let root := Context.root runtime.toPath
    ((Node.item i).registers root a = true ↔
        s.isRegistration ((root.along before).opened x).scope = true ∧
          forall y, y ∈ x :: after -> ¬ y.Introduces n) ∧
      (x.Introduces n ->
        (Node.item i).registers root a = false ∧
          ((Node.item i).plan root).replaced a = false ∧
            (i.guardedAt runtime).value =
              i.placed ((Node.item i).plan root)) := by
  intro root
  have hregisters : (Node.item i).registers root a =
      s.isRegistration (((root.along before).cross x).along after).scope := by
    rw [Node.registers, hplace]
    simp only [Context.along_append, Context.along_cons]
  have hiff : (Node.item i).registers root a = true ↔
      s.isRegistration ((root.along before).opened x).scope = true ∧
        forall y, y ∈ x :: after -> ¬ y.Introduces n := by
    rw [hregisters, Stmt.isRegistration_along hcall hquiet,
      Stmt.isRegistration_cross hcall]
    simp [root, and_assoc]
  constructor
  · exact hiff
  · intro hintroduces
    have hnot : (Node.item i).registers root a = false := by
      apply Bool.eq_false_iff.mpr
      intro hregistered
      exact (hiff.mp hregistered).2 x List.mem_cons_self hintroduces
    refine ⟨hnot, ?_, value_guardedAt runtime i⟩
    simp only [Node.plan, hnot, Bool.false_and]

/-- A variable that a declaration takes out of a pair, called further in. -/
theorem not_registers_from_pair :
    let name := fun x => Expr.ofIdent (.plain x)
    let i := Item.mk [] (.function [] false [] (.plain "run")
      [.token (.opening .paren), .token (.closing .paren)]
      [.binding []
          (.compound [.token (.opening .paren),
            .pat (.binder [] (.plain "defer") []), .token (.punct ','),
            .pat (.binder [] (.plain "log") []),
            .token (.closing .paren)])
          [.token (.punct '='), .expr (name "pair")],
        .expr .origin (.bare (.ifThen (name "ready")
          [.expr .origin
            (.bare (.call (name "defer") [.expr (name "close")])) true]))
          false])
    (Node.item i).registers (.root (SimplePath.mk true
      [.plain "deferred"]).toPath) [1, 0, 0, 1, 0, 0, 1, 1, 0, 0] = false := by
  intro name i
  have h := registers_called_name ⟨true, [.plain "deferred"]⟩ i
    (a := [1, 0, 0, 1, 0, 0, 1, 1, 0, 0]) (n := "defer")
    [_, _, _] _ [_, _, _, _, _, _] rfl rfl
    ⟨trivial, trivial, trivial, trivial, rfl, trivial, trivial⟩
  exact (h.2 (.part (.tail _ (.head _)) (.name rfl))).1

/-- The variable of a `box` pattern is not introduced: the pattern is a list of
tokens, and the call of the variable becomes a guard. -/
theorem guardedAt_box_pattern :
    let name := fun x => Expr.ofIdent (.plain x)
    let i := Item.mk [] (.function [] false [] (.plain "run")
      [.token (.opening .paren),
        .pat (.compound [.token (.word "box"), .token (.word "defer")]),
        .token (.punct ':'), .token (.word "Hook"),
        .token (.closing .paren)]
      [.expr .origin (.bare (.call (name "defer") [.expr (name "close")]))
        true])
    Token.flat (i.guardedAt ⟨true, [.plain "deferred"]⟩).value.tokens =
      "fn run ( box defer : Hook ) \x7b let __deferred_guard = : : deferred " ++
        ": : __private : : register ( defer , close ) ; \x7d" := by
  decide +kernel

end Item

end ScopeExit
