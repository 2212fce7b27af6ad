import ScopeExit.Proofs.LocalNames
import ScopeExit.Proofs.Members
import ScopeExit.Proofs.Results

/-!
# Modules

Nothing that is declared around a module can be named in it, except by a path
that leads there.  But the boundary of a module is that of any other item: it
hides the variables around it and lets all other names through.  So a module is
expanded as if it stood alone only where these names make no difference.
-/

namespace ScopeExit

namespace Item

def Uses (i : Item) (name : String) : Prop :=
  exists k : Ident, .ident k ∈ i.tokens ∧ k.name = name

theorem allNames_uses (i : Item) : AllNames i.Uses i.tokens :=
  fun k hk => ⟨k, hk, rfl⟩

/-- Whether an item is a module whose items stand in it. -/
def IsModule (i : Item) : Prop :=
  exists as before name items, i = .mk as (.module before name items)

/-- A module is expanded alike in two scopes from which the paths that it can
name lead alike to the sentinel. -/
theorem guarded_module_eq {m : Item} (hm : m.IsModule) {c d : Context}
    (hopens : c.runtime.opensCall = true) (hruntime : c.runtime = d.runtime)
    (hconst : c.inConst = d.inConst)
    (hexits : ScopeStack.SameExits m.Uses c.scope d.scope) :
    m.guarded c = m.guarded d := by
  rcases hm with ⟨as, before, name, items, rfl⟩
  apply guarded_eq_of_agreed _ hopens
  have hnames := allNames_uses (.mk as (.module before name items))
  have hitems := hnames.mono (List.Subset.trans
    (ItemKind.items_crossing_subset (.module before name items))
    (Node.attrs_subset_item as (.module before name items)).2)
  have hinside : Context.Surrounded c.scope d.scope
      (c.cross (.module items)) (d.cross (.module items)) :=
    ⟨hruntime, hconst, (ScopeStack.surrounded_pushBarrier _ _).declareItems
      hexits hitems⟩
  apply Node.agreed_of_children hruntime hconst rfl
  intro q hq
  have hbelow := hnames.mono (Node.tokens_children _ q hq)
  have hcrossing : q.1 = .module items := by
    rw [Node.children] at hq
    split at hq
    · cases hq
    · simp only [List.mem_cons, List.not_mem_nil, or_false] at hq
      rcases hq with hq | hq
      · rw [hq]
        rfl
      · rw [hq]
        rfl
  rw [hcrossing]
  exact Node.agreed_of_surrounded hinside hexits hbelow

/-!
## Calls of a path

A module can call any path.  If the call stands in a method, the module declares
nothing that could hide it.
-/

/-- A call of a path with a name as its action. -/
def callOf (path : Path) : Stmt :=
  .expr .origin (.bare (.call (.bare (.path path))
    [.expr (.ofIdent (.plain "action"))])) true

/-- A module with one method that has these statements. -/
def moduleOf (body : List Stmt) : Item :=
  .mk [] (.module [.word "mod"] (.plain "inner") [.mk [] (.implementation
    (Part.ofTokens [.word "impl", .word "Job"])
    [.mk [] (.function [] false [] (.plain "run")
      (Part.ofTokens (Token.group .paren [])) body)])])

theorem value_guarded_moduleOf {c : Context}
    (hopens : c.runtime.opensCall = true) (hconst : c.inConst = false)
    (path : SimplePath) :
    ((moduleOf [callOf path.toPath]).guarded c).value =
      moduleOf [if c.scope.pushBarrier.resolve path.toPath = .sentinel then
        Registration.guard c.runtime
          ⟨[], .bare (.path path.toPath), .ofIdent (.plain "action")⟩
        else callOf path.toPath] := by
  let method := c.cross .boundary |>.cross .boundary |>.cross
    (.function false (Part.ofTokens (Token.group .paren [])))
  let inside := method.inBlock [callOf path.toPath]
  have hwalked : (stmtsGuarded inside [callOf path.toPath]).value =
      [(callOf path.toPath,
        (callOf path.toPath).isRegistration inside.scope)] := by
    have hcall : ((callOf path.toPath).guarded inside).value =
        callOf path.toPath := by
      simp [callOf, Stmt.guarded, Expr.guarded, ExprKind.guarded,
        partsGuarded, Part.guarded, Path.guarded, segmentsGuarded,
        Segment.guarded, attrsGuarded, Expr.bare, Expr.ofIdent,
        SimplePath.guarded_toPath]
    simp only [stmtsGuarded, Report.value_bind, Report.value_pure, hcall]
  have hresolve : inside.scope.resolve path.toPath =
      c.scope.pushBarrier.resolve path.toPath := by
    have hlookup : forall name typesOnly,
        c.scope.pushBarrier.pushBarrier.pushBarrier.lookup name typesOnly =
          c.scope.pushBarrier.lookup name typesOnly := by
      intro name typesOnly
      simp only [ScopeStack.lookup_pushBarrier]
    exact ScopeStack.resolve_congr rfl hlookup path.toPath
  have hmark : (callOf path.toPath).isRegistration inside.scope =
      decide (c.scope.pushBarrier.resolve path.toPath = .sentinel) := by
    rw [← hresolve]
    exact Bool.and_true _
  have hvalue : ((moduleOf [callOf path.toPath]).guarded c).value =
      moduleOf (Stmt.finishBlock method
        (stmtsGuarded inside [callOf path.toPath]).value).value := by
    rfl
  have hmethod : method.inConst = false := by
    change (c.inConst || false) = false
    rw [hconst]
    rfl
  have hruntime : method.runtime.opensCall = true := hopens
  rw [hvalue, hwalked, hmark]
  by_cases hsentinel : c.scope.pushBarrier.resolve path.toPath = .sentinel
  · simp only [hsentinel, decide_true, if_true]
    rw [Stmt.finishBlock_of_mark hruntime hmethod rfl]
    rfl
  · simp only [hsentinel, decide_false, if_false]
    rw [Stmt.finishBlock_of_no_mark rfl]
    rfl

theorem guard_ne_callOf (runtime : Path) (r : Registration) (path : Path) :
    r.guard runtime ≠ callOf path := by
  intro h
  cases h

theorem sameExits_of_modules {c d : Context}
    (hopens : c.runtime.opensCall = true) (hruntime : c.runtime = d.runtime)
    (hscope : c.scope.runtime = d.scope.runtime)
    (hc : c.inConst = false) (hd : d.inConst = false)
    (h : forall m : Item, m.IsModule ->
      (m.guarded c).value = (m.guarded d).value) :
    ScopeStack.SameExits (fun _ => True) c.scope d.scope := by
  have hother : d.runtime.opensCall = true := by
    rw [← hruntime]
    exact hopens
  have hplain : forall path : SimplePath,
      (c.scope.pushBarrier.resolve path.toPath = .sentinel ↔
        d.scope.pushBarrier.resolve path.toPath = .sentinel) := by
    intro path
    have hsame := h (moduleOf [callOf path.toPath]) ⟨_, _, _, _, rfl⟩
    rw [value_guarded_moduleOf hopens hc, value_guarded_moduleOf hother hd,
      hruntime] at hsame
    simp only [moduleOf, mk.injEq, ItemKind.module.injEq,
      ItemKind.implementation.injEq, ItemKind.function.injEq, List.cons.injEq,
      true_and, and_true] at hsame
    constructor
    · intro hsentinel
      by_contra hnot
      rw [if_pos hsentinel, if_neg hnot] at hsame
      exact guard_ne_callOf _ _ _ hsame
    · intro hsentinel
      by_contra hnot
      rw [if_neg hnot, if_pos hsentinel] at hsame
      exact guard_ne_callOf _ _ _ hsame.symm
  refine ⟨hscope, ?_⟩
  intro path _
  cases habsolute : path.isAbsolute with
  | true =>
      rw [ScopeStack.resolve, ScopeStack.resolve, if_pos habsolute,
        if_pos habsolute]
      exact iff_of_eq (congrArg (· = _)
        (ScopeStack.classify_congr hscope path.names))
  | false =>
      have hpath := hplain (ScopeStack.pathOf path.names)
      rw [ScopeStack.resolve_pathOf, ScopeStack.resolve_pathOf] at hpath
      rw [ScopeStack.resolve, ScopeStack.resolve, habsolute]
      exact hpath

end Item

/-!
## The law of modules
-/

theorem Context.runtime_scope_along (c : Context) (xs : List Crossing) :
    (c.along xs).scope.runtime = c.scope.runtime := by
  induction xs generalizing c with
  | nil => rfl
  | cons x xs ih =>
      have hopened : (c.opened x).scope.runtime = c.scope.runtime := by
        cases x with
        | module items | block body => exact ScopeStack.runtime_declareItems _ _
        | _ => rfl
      rw [along_cons, ih, cross, ScopeStack.runtime_bindLocals, hopened]

/-- Names that refer to the same lead to the same, and so does a name that is an
item in one scope only, if no path to the runtime begins with it. -/
theorem ScopeStack.sameExits_of_lookup {p : String -> Prop}
    {a b : ScopeStack} (hruntime : a.runtime = b.runtime)
    (h : forall name, p name ->
      (a.lookup name true).getD .item = (b.lookup name true).getD .item ∧
        (a.runtime.head? = some name ->
          a.lookup name true = b.lookup name true)) :
    SameExits p a b := by
  refine ⟨hruntime, ?_⟩
  intro path hpath
  rw [resolve, resolve]
  have hclassify : a.pushBarrier.classify path.names =
      b.pushBarrier.classify path.names := classify_congr hruntime _
  split
  · rw [hclassify]
  · cases hnames : path.names with
    | nil => rfl
    | cons first rest =>
        have hfirst : p first := hpath first (by rw [hnames]; rfl)
        have hmeant := (a.meant_eq_iff _ _ first).mpr (h first hfirst) rest
        rw [resolveNames_pushBarrier, resolveNames_pushBarrier, hmeant,
          meant_congr hruntime]

namespace Item

/-- What becomes of a module that stands in an item and not in a const context.
What the walk makes of it stands in the result.  That is what it becomes by
itself, if the paths that begin with a name used in it lead to the sentinel from
its surroundings as they do where nothing is declared.  And that holds of all
modules that could stand there if and only if all paths do. -/
theorem guardedAt_modules (runtime : SimplePath) (i : Item) {m : Item}
    (hm : m.IsModule) {a : Address} {xs : List Crossing}
    (hvisit : (Node.item i).visit? a = some (xs, .item m))
    (hconst :
      (Node.item i).isConstAt (.root runtime.toPath) a = false) :
    let root := Context.root runtime.toPath
    let c := root.along xs
    (Node.item (i.guardedAt runtime).value).Holds
        (.item (m.guarded c).value) ∧
      (ScopeStack.SameExits m.Uses c.scope root.scope ->
        m.guarded c = m.guardedAt runtime) ∧
      ((forall other : Item, other.IsModule ->
          (other.guarded c).value = (other.guardedAt runtime).value) ↔
        ScopeStack.SameExits (fun _ => True) c.scope root.scope) := by
  intro root c
  have hopens : root.runtime.opensCall = true :=
    Context.opensCall_root runtime
  have hruntime : c.runtime = root.runtime := root.runtime_along xs
  have hopensHere : c.runtime.opensCall = true := by
    rw [hruntime]
    exact hopens
  have hhere : c.inConst = false := by
    rw [Node.isConstAt, hvisit] at hconst
    exact hconst
  refine ⟨Node.holds_guarded hopens hvisit, ?_, ?_⟩
  · intro hexits
    exact guarded_module_eq hm hopensHere hruntime hhere hexits
  · constructor
    · intro hall
      exact sameExits_of_modules hopensHere hruntime
        (root.runtime_scope_along xs) hhere rfl hall
    · intro hexits other hother
      have hused : ScopeStack.SameExits other.Uses c.scope root.scope :=
        ⟨hexits.runtime, fun path _ => hexits.sentinel path fun _ _ => trivial⟩
      rw [guarded_module_eq hother hopensHere hruntime hhere hused]
      rfl

/-- A module behind an import of a name that it does not use.  What it imports
itself makes the call in it a registration. -/
theorem guardedAt_modules_behind_import :
    let leaf := fun x y => Item.mk [] (.imports [.word "use"] false
      (.path (.plain x) (.leaf (.plain y))))
    let m := Item.mk [] (.module [.word "mod"] (.plain "night")
      [leaf "deferred" "defer",
        .mk [] (.function [] false [] (.plain "run")
          (Part.ofTokens (Token.group .paren []))
          [callOf (.mk false [.mk (.plain "defer") []])])])
    let i := Item.mk [] (.module [.word "mod"] (.plain "jobs")
      [leaf "std" "fs", m])
    let runtime : SimplePath := ⟨true, [.plain "deferred"]⟩
    let root := Context.root runtime.toPath
    exists xs,
      (Node.item i).visit? [1, 0, 1, 0] = some (xs, .item m) ∧
        (Node.item i).isConstAt root [1, 0, 1, 0] = false ∧
        ScopeStack.SameExits m.Uses (root.along xs).scope root.scope ∧
        m.guarded (root.along xs) = m.guardedAt runtime := by
  intro leaf m i runtime root
  let xs : List Crossing :=
    [.module [leaf "std" "fs", m], .level, .level, .level]
  have hvisit : (Node.item i).visit? [1, 0, 1, 0] = some (xs, .item m) := rfl
  have hconst : (Node.item i).isConstAt root [1, 0, 1, 0] = false := rfl
  have hruntime := root.runtime_scope_along xs
  have hlookup : AllNames (fun name =>
      ((root.along xs).scope.lookup name true).getD .item =
          (root.scope.lookup name true).getD .item ∧
        ((root.along xs).scope.runtime.head? = some name ->
          (root.along xs).scope.lookup name true =
            root.scope.lookup name true)) m.tokens :=
    .of_all (by decide +kernel)
  have hexits : ScopeStack.SameExits m.Uses (root.along xs).scope
      root.scope := by
    apply ScopeStack.sameExits_of_lookup hruntime
    intro name hused
    rcases hused with ⟨k, hk, rfl⟩
    exact hlookup k hk
  have hmodules := guardedAt_modules runtime i ⟨_, _, _, _, rfl⟩ hvisit hconst
  exact ⟨xs, hvisit, hconst, hexits, hmodules.2.1 hexits⟩

/-- A module beside one that has the name of the runtime crate, which it cannot
name.  Its registration is passed over, but becomes a guard if the module is
expanded by itself. -/
theorem guardedAt_modules_beside_crate :
    let m := Item.mk [] (.module [.word "mod"] (.plain "night")
      [.mk [] (.function [] false [] (.plain "run")
        (Part.ofTokens (Token.group .paren []))
        [callOf (.mk false
          [.mk (.plain "deferred") [], .mk (.plain "defer") []])])])
    let beside := Item.mk [] (.module [.word "mod"] (.plain "deferred") [])
    let i := Item.mk [] (.module [.word "mod"] (.plain "jobs")
      [beside, m])
    let runtime : SimplePath := ⟨true, [.plain "deferred"]⟩
    (i.guardedAt runtime).faults = [] ∧
      Token.flat (i.guardedAt runtime).value.tokens = Token.flat i.tokens ∧
      Token.flat (m.guardedAt runtime).value.tokens =
        "mod night \x7b fn run ( ) \x7b let __deferred_guard = : : " ++
          "deferred : : __private : : register ( deferred : : defer , " ++
          "action ) ; \x7d \x7d" := by
  decide +kernel

end Item
end ScopeExit
