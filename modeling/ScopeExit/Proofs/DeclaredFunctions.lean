import ScopeExit.Proofs.LocalNames
import ScopeExit.Proofs.Surroundings
import ScopeExit.Proofs.Shadowing
import ScopeExit.Expansion

/-!
# Functions hide the sentinel

A block or module that declares a function hides the sentinel of the same name
from everything inside it.  Variables on the way to a call do not bring the
sentinel back: they hide it too, and where they are out of sight, past the
boundary of an item, the function behind them is in sight again.

There is one exception.  A variable that the block itself declares takes the
place of the function in the scope of the block, so that nothing is left of the
function where the variable is out of sight.
-/

namespace ScopeExit

def Item.isFunctionNamed (n : String) : Item -> Bool
  | .mk _ (.function _ _ _ name _ _) => name.name = n
  | _ => false

/-- Whether a declaration imports something that is called like the sentinel, and
gives it this name. -/
def Declaration.bringsSentinel (n : String) : Declaration -> Bool
  | .imported name path => name = n && path.getLast? = some sentinelName
  | _ => false

namespace ScopeStack

/-!
## The scope that has the function
-/

theorem importReferent_ne_sentinel {path : List String}
    (h : path.getLast? ≠ some sentinelName) (s : ScopeStack) :
    s.importReferent path ≠ .sentinel := by
  intro hsentinel
  cases path with
  | nil =>
      have hnil := (classify_eq_sentinel_iff s []).mp hsentinel
      simp at hnil
  | cons first rest =>
      rw [importReferent_cons] at hsentinel
      split at hsentinel
      · have hrest := (classify_eq_sentinel_iff s _).mp hsentinel
        rw [List.append_cancel_left hrest] at h
        exact h rfl
      · have hfull := (classify_eq_sentinel_iff s _).mp hsentinel
        rw [hfull, List.getLast?_concat] at h
        exact h rfl

/-- Whether the innermost scope has a name, neither as a variable nor as the
sentinel. -/
def Owns (s : ScopeStack) (n : String) : Prop :=
  exists r, s.top.get? n = some r ∧ r ≠ .localVar ∧ r ≠ .sentinel

variable {s t : ScopeStack} {n : String}

theorem owns_bind_self (s : ScopeStack) (n : String) {r : Referent}
    (hlocal : r ≠ .localVar) (hsentinel : r ≠ .sentinel) :
    (s.bind n r).Owns n :=
  ⟨r, by simp [bind, Frame.get?_bind], hlocal, hsentinel⟩

theorem Owns.bind (h : s.Owns n) (name : String) {r : Referent}
    (hr : name = n -> r ≠ .localVar ∧ r ≠ .sentinel) :
    (s.bind name r).Owns n := by
  by_cases hname : name = n
  · rw [hname]
    exact owns_bind_self s n (hr hname).1 (hr hname).2
  · rcases h with ⟨old, hget, hold⟩
    refine ⟨old, ?_, hold⟩
    rw [← hget]
    simp [ScopeStack.bind, Frame.get?_bind, Ne.symm hname]

theorem Owns.declare (h : s.Owns n) {d : Declaration}
    (hd : d.bringsSentinel n = false) : (s.declare d).Owns n := by
  cases d with
  | item name => exact h.bind name fun _ => by simp
  | externCrate name source =>
      refine h.bind name fun _ => ?_
      split <;> simp
  | imported name path =>
      refine h.bind name fun hname => ?_
      have hlast : path.getLast? ≠ some sentinelName := by
        simpa [Declaration.bringsSentinel, hname] using hd
      exact ⟨classify_ne_localVar s _, importReferent_ne_sentinel hlast s⟩
  | glob path =>
      rw [ScopeStack.declare, bindGlob]
      split
      · rcases h with ⟨r, hget, hr⟩
        refine ⟨r, ?_, hr⟩
        change (s.top.bindWeak sentinelName .sentinel).get? n = some r
        rw [Frame.get?_bindWeak]
        split
        · rename_i heq
          rw [← heq, hget]
          rfl
        · exact hget
      · exact h

theorem Owns.declareAll {ds : List Declaration} (h : s.Owns n)
    (hds : forall d, d ∈ ds -> d.bringsSentinel n = false) :
    (s.declareAll ds).Owns n := by
  induction ds generalizing s with
  | nil => exact h
  | cons d rest ih =>
      have hrest : forall e, e ∈ rest -> e.bringsSentinel n = false :=
        fun e he => hds e (List.mem_cons_of_mem d he)
      exact ih (h.declare (hds d List.mem_cons_self)) hrest

theorem owns_declareItems {items : List Item} {f : Item} (hf : f ∈ items)
    (hname : f.isFunctionNamed n = true)
    (himports : forall d, d ∈ itemsDeclarations items ->
      d.bringsSentinel n = false) (s : ScopeStack) :
    (s.declareItems items).Owns n := by
  rcases List.append_of_mem hf with ⟨before, behind, hitems⟩
  have hdeclared : f.declarations = [.item n] := by
    rcases f with ⟨attrs, kind⟩
    cases kind with
    | function =>
        exact congrArg (fun name => [Declaration.item name])
          (of_decide_eq_true hname)
    | _ => cases hname
  have hsplit : itemsDeclarations items =
      itemsDeclarations before ++ .item n :: itemsDeclarations behind := by
    rw [hitems, itemsDeclarations, List.flatMap_append, List.flatMap_cons,
      hdeclared]
    rfl
  rw [declareItems_eq, hsplit, declareAll_append, declareAll_cons]
  refine Owns.declareAll (owns_bind_self _ n (by simp) (by simp)) ?_
  intro d hd
  apply himports
  rw [hsplit]
  exact List.mem_append_right _ (List.mem_cons_of_mem _ hd)

/-!
## Scopes further in
-/

/-- Whether a name is found behind all variables, and is not the sentinel. -/
def Finds (s : ScopeStack) (n : String) : Prop :=
  exists r, r ≠ .sentinel ∧ s.lookup n true = some r

/-- Whether a name is found without the innermost scope and means the same with
it. -/
def Inherits (s : ScopeStack) (n : String) : Prop :=
  exists r, r ≠ .sentinel ∧ s.lookup n true = some r ∧
    s.lookupOutside n = some r

theorem Owns.finds (h : s.Owns n) : s.Finds n := by
  rcases h with ⟨r, hget, hlocal, hsentinel⟩
  refine ⟨r, hsentinel, ?_⟩
  simp [lookup, lookupIn, hget, hlocal]

theorem Inherits.finds (h : s.Inherits n) : s.Finds n := by
  rcases h with ⟨r, hr, hlookup, _⟩
  exact ⟨r, hr, hlookup⟩

theorem Finds.push (h : s.Finds n) : s.push.Inherits n := by
  rcases h with ⟨r, hr, hlookup⟩
  exact ⟨r, hr, hlookup, hlookup⟩

theorem Finds.pushBarrier (h : s.Finds n) : s.pushBarrier.Inherits n := by
  rcases h with ⟨r, hr, hlookup⟩
  refine ⟨r, hr, ?_, hlookup⟩
  rw [lookup_pushBarrier, hlookup]

theorem Inherits.agrees (h : s.Inherits n) (hst : s.AgreesOn (· = n) t) :
    t.Inherits n := by
  rcases h with ⟨r, hr, hlookup, houtside⟩
  have hsame : s.lookupOutside n = t.lookupOutside n :=
    lookupIn_agreesOn hst.outer rfl true false
  exact ⟨r, hr, by rw [← hst.lookup rfl, hlookup], by rw [← hsame, houtside]⟩

theorem Finds.bindLocals {names : List String} (h : s.Finds n)
    (hnames : n ∉ names) : (s.bindLocals names).Finds n := by
  rcases h with ⟨r, hr, hlookup⟩
  exact ⟨r, hr, by rw [lookup_bindLocals, if_neg hnames, hlookup]⟩

theorem Inherits.bindLocals (h : s.Inherits n) (names : List String) :
    (s.bindLocals names).Inherits n := by
  have houter : (s.bindLocals names).lookupOutside n = s.lookupOutside n := by
    induction names generalizing s with
    | nil => rfl
    | cons name rest ih =>
        rw [bindLocals_cons]
        rcases h with ⟨r, hr, hlookup, houtside⟩
        have hbound : (s.bind name .localVar).Inherits n := by
          refine ⟨r, hr, ?_, houtside⟩
          rw [lookup_bind_localVar]
          split
          · exact houtside
          · exact hlookup
        exact ih hbound
  rcases h with ⟨r, hr, hlookup, houtside⟩
  refine ⟨r, hr, ?_, by rw [houter, houtside]⟩
  rw [lookup_bindLocals]
  split
  · exact houtside
  · exact hlookup

/-- A name that is found, and not as the sentinel, is that of a variable or of
something else that hides the sentinel. -/
theorem Finds.lookup_ne_sentinel (h : s.Finds n) :
    s.lookup n false ≠ some .sentinel := by
  intro hsentinel
  rcases h with ⟨r, hr, hlookup⟩
  have hsame : s.lookup n false = s.lookup n true := by
    apply lookupIn_eq_typesOnly
    change s.lookup n false ≠ _
    rw [hsentinel]
    simp
  rw [hsame, hlookup] at hsentinel
  exact hr (Option.some.inj hsentinel)

end ScopeStack

/-!
## The way to a call
-/

/-- Whether no item or import at a crossing declares a name. -/
def Crossing.LeavesName (n : String) (c : Context) : Crossing -> Prop
  | .block body =>
      itemsDeclare n c.scope.push (ScopeStack.itemsOf body) = false
  | .module items => itemsDeclare n c.scope.pushBarrier items = false
  | _ => True

/-- Whether no item or import on a way declares a name. -/
def Context.LeavesName (n : String) : Context -> List Crossing -> Prop
  | _, [] => True
  | c, x :: xs => x.LeavesName n c ∧ (c.cross x).LeavesName n xs

def Crossing.isBoundary : Crossing -> Bool
  | .function _ _ => true
  | .boundary => true
  | .module _ => true
  | _ => false

/-- The part of a way that lies in the scope where it begins. -/
def ownPart (xs : List Crossing) : List Crossing :=
  xs.takeWhile fun x => !x.enters

section Ways

variable {n : String} {c : Context} {x : Crossing} {xs : List Crossing}

theorem Crossing.LeavesName.isQuiet (h : x.LeavesName n c)
    (hx : x.isBoundary = false) : x.IsQuiet n c := by
  cases x with
  | block body => exact h
  | function | boundary | module => cases hx
  | _ => trivial

theorem Context.LeavesName.isQuiet (h : c.LeavesName n xs)
    (hxs : forall x, x ∈ xs -> x.isBoundary = false) : c.IsQuiet n xs := by
  induction xs generalizing c with
  | nil => trivial
  | cons x rest ih =>
      rcases h with ⟨hx, hrest⟩
      exact ⟨hx.isQuiet (hxs x List.mem_cons_self),
        ih hrest fun y hy => hxs y (List.mem_cons_of_mem x hy)⟩

/-- A crossing that leads into no other scope leaves the scope as it is until
its variables are bound. -/
theorem Crossing.scope_opened (h : x.enters = false) (c : Context) :
    (c.opened x).scope = c.scope := by
  cases x with
  | level | constant | behind => rfl
  | _ => cases h

theorem ScopeStack.Finds.cross (h : c.scope.Finds n) (hx : x.LeavesName n c)
    (henters : x.enters = true) : (c.cross x).scope.Inherits n := by
  refine ScopeStack.Inherits.bindLocals ?_ x.locals
  cases x with
  | level | constant | behind => cases henters
  | closure | pattern | condition => exact h.push
  | function | boundary => exact h.pushBarrier
  | module items =>
      exact h.pushBarrier.agrees
        ((ScopeStack.AgreesOn.refl (· = n) _).declareItems_right items hx)
  | block body =>
      exact h.push.agrees
        ((ScopeStack.AgreesOn.refl (· = n) _).declareItems_right _ hx)

theorem ScopeStack.Inherits.cross (h : c.scope.Inherits n)
    (hx : x.LeavesName n c) : (c.cross x).scope.Inherits n := by
  cases henters : x.enters with
  | true => exact h.finds.cross hx henters
  | false =>
      have hopened : (c.opened x).scope.Inherits n := by
        rw [x.scope_opened henters]
        exact h
      exact hopened.bindLocals x.locals

theorem ScopeStack.Inherits.along (h : c.scope.Inherits n)
    (hxs : c.LeavesName n xs) : (c.along xs).scope.Inherits n := by
  induction xs generalizing c with
  | nil => exact h
  | cons x rest ih => exact ih (h.cross hxs.1) hxs.2

/-- A name that is found at the beginning of a way is found at its end, unless a
variable of the first scope takes its place. -/
theorem ScopeStack.Finds.along (h : c.scope.Finds n) (hxs : c.LeavesName n xs)
    (hown : forall y, y ∈ ownPart xs -> ¬ y.Introduces n) :
    (c.along xs).scope.Finds n := by
  induction xs generalizing c with
  | nil => exact h
  | cons x rest ih =>
      rcases hxs with ⟨hx, hrest⟩
      cases henters : x.enters with
      | true => exact ((h.cross hx henters).along hrest).finds
      | false =>
          have hsplit : ownPart (x :: rest) = x :: ownPart rest := by
            simp [ownPart, henters]
          rw [hsplit] at hown
          have hlocals : n ∉ x.locals := by
            rw [Crossing.mem_locals_iff]
            exact hown x List.mem_cons_self
          have hcross : (c.cross x).scope.Finds n := by
            change ((c.opened x).scope.bindLocals x.locals).Finds n
            rw [x.scope_opened henters]
            exact h.bindLocals hlocals
          exact ih hcross hrest fun y hy =>
            hown y (List.mem_cons_of_mem x hy)

end Ways

namespace Item

/-- A call of a name in a block or module that declares a function of that name
is not a registration and is not replaced.  No item or import on the way from
the block to the call declares the name again.  There may be variables of that
name, but if the call stands inside a further item, the block itself declares
none in front of that. -/
theorem not_registers_declared_function (runtime : SimplePath) (i : Item)
    {a : Address} {n : String} {s : Stmt} {f : Item} (before : List Crossing)
    (x : Crossing) (after : List Crossing)
    (hplace : (Node.item i).visit? a = some (before ++ x :: after, .stmt s))
    (hcall : s.calledName? = some n) (hf : f ∈ x.items)
    (hname : f.isFunctionNamed n = true)
    (himports : forall d, d ∈ itemsDeclarations x.items ->
      d.bringsSentinel n = false)
    (hleaves : (((Context.root runtime.toPath).along before).cross
      x).LeavesName n after)
    (hown : (exists y, y ∈ after ∧ y.isBoundary = true) ->
      forall y, y ∈ ownPart after -> ¬ y.Introduces n) :
    (Node.item i).registers (.root runtime.toPath) a = false ∧
      ((Node.item i).plan (.root runtime.toPath)).replaced a = false := by
  let c := (Context.root runtime.toPath).along before
  have howns : (c.cross x).scope.Owns n := by
    cases x with
    | module items =>
        exact ScopeStack.owns_declareItems hf hname himports _
    | block body =>
        exact ScopeStack.owns_declareItems hf hname himports _
    | _ => cases hf
  have hregisters : (Node.item i).registers (.root runtime.toPath) a =
      s.isRegistration ((c.cross x).along after).scope := by
    rw [Node.registers, hplace]
    simp only [Context.along_append, Context.along_cons, c]
  have hnot : s.isRegistration ((c.cross x).along after).scope = false := by
    by_cases hvariable : exists y, y ∈ ownPart after ∧ y.Introduces n
    · -- a variable of the block itself, which is in sight of the call
      rcases hvariable with ⟨y, hy, hintroduces⟩
      have hquiet : (c.cross x).IsQuiet n after := by
        apply hleaves.isQuiet
        intro z hz
        cases hboundary : z.isBoundary with
        | false => rfl
        | true => exact absurd hintroduces (hown ⟨z, hz, hboundary⟩ y hy)
      apply Bool.eq_false_iff.mpr
      intro hregistered
      have hnone := ((Stmt.isRegistration_along hcall hquiet).mp
        hregistered).2
      exact hnone y (List.takeWhile_subset _ hy) hintroduces
    · have hfinds := howns.finds.along hleaves
        fun y hy hintroduces => hvariable ⟨y, hy, hintroduces⟩
      rcases Stmt.exists_isRegistration_eq hcall with ⟨takesAction, heq⟩
      simp [heq, hfinds.lookup_ne_sentinel]
  have hfalse := hregisters.trans hnot
  refine ⟨hfalse, ?_⟩
  simp only [Node.plan, hfalse, Bool.false_and]

/-- A function that is hidden by the variable of a loop, which is out of sight
inside a further function. -/
theorem not_registers_behind_loop_variable :
    let name := fun x => Expr.ofIdent (.plain x)
    let function := fun x body => Stmt.item (.mk [] (.function [] false []
      (.plain x) (Part.ofTokens (Token.group .paren [])) body))
    let i := Item.mk [] (.function [] false [] (.plain "run")
      (Part.ofTokens (Token.group .paren []))
      [function "defer" [],
        .expr .origin (.bare (.forLoop none (.binder [] (.plain "defer") [])
          (name "hooks")
          [function "inner" [.expr .origin
            (.bare (.call (name "defer") [.expr (name "close")])) true]]))
          false])
    (Node.item i).registers (.root (SimplePath.mk true
      [.plain "deferred"]).toPath)
      [1, 0, 0, 1, 0, 0, 1, 1, 0, 0, 0, 1, 0, 0, 0] = false := by
  intro name function i
  have hown : forall y, y ∈ [Crossing.behind (function "defer" []), .level,
      .level, .level] -> ¬ y.Introduces "defer" := by
    intro y hy
    simp only [List.mem_cons, List.not_mem_nil, or_false] at hy
    rcases hy with rfl | rfl | rfl | rfl <;> exact id
  have h := not_registers_declared_function ⟨true, [.plain "deferred"]⟩ i
    (a := [1, 0, 0, 1, 0, 0, 1, 1, 0, 0, 0, 1, 0, 0, 0]) (n := "defer")
    [_, _] _ [_, _, _, _, _, _, _, _, _, _, _, _] rfl rfl
    List.mem_cons_self rfl (by decide)
    ⟨trivial, trivial, trivial, trivial, trivial, rfl, trivial, trivial,
      trivial, trivial, rfl, trivial, trivial⟩
    fun _ => hown
  exact h.1

/-- A function of an `extern` block is not declared, and the call of it becomes a
guard.  So does a call of a function whose place in the scope of its block is
taken by a variable that the call cannot see. -/
theorem guardedAt_foreign_function :
    let guarded := fun text : String => (Item.ofText? text).map fun i =>
      Token.flat (i.guardedAt ⟨true, [.plain "deferred"]⟩).value.tokens
    guarded ("fn run() \x7b extern \"C\" \x7b fn defer(f: Hook); \x7d " ++
        "unsafe \x7b defer(close); \x7d \x7d") =
      some ("fn run ( ) \x7b extern \"C\" \x7b fn defer ( f : Hook ) ; \x7d " ++
        "unsafe \x7b let __deferred_guard = : : deferred : : __private : : " ++
        "register ( defer , close ) ; \x7d \x7d") ∧
    guarded ("fn run() \x7b fn defer(f: Hook) \x7b \x7d let defer = 1; " ++
        "fn inner() \x7b defer(close); \x7d \x7d") =
      some ("fn run ( ) \x7b fn defer ( f : Hook ) \x7b \x7d let defer = 1 ; " ++
        "fn inner ( ) \x7b let __deferred_guard = : : deferred : : __private " ++
        ": : register ( defer , close ) ; \x7d \x7d") := by
  decide +kernel

end Item

end ScopeExit
