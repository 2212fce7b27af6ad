import Mathlib.Data.List.Forall2
import ScopeExit.Registration
import ScopeExit.Syntax.Print

/-!
# Scopes that agree on names

What a path refers to is decided by very few names.  Two stacks of scopes may
differ in all others: if they *agree* on the names that are asked for, scope by
scope, nothing that is asked tells them apart.
-/

namespace ScopeExit

namespace Frame

structure AgreesOn (p : String -> Prop) (f g : Frame) : Prop where
  barrier : f.barrier = g.barrier
  get? : forall name, p name -> f.get? name = g.get? name

variable {p : String -> Prop} {f g : Frame}

theorem AgreesOn.refl (p : String -> Prop) (f : Frame) :
    f.AgreesOn p f := by
  constructor
  · rfl
  · intro name _
    rfl

theorem AgreesOn.bind (hfg : f.AgreesOn p g) (name : String)
    (r : Referent) : (f.bind name r).AgreesOn p (g.bind name r) := by
  constructor
  · exact hfg.barrier
  · intro other hother
    rw [get?_bind, get?_bind, hfg.get? other hother]

theorem AgreesOn.bindWeak (hfg : f.AgreesOn p g) (name : String)
    (r : Referent) : (f.bindWeak name r).AgreesOn p (g.bindWeak name r) := by
  constructor
  · rw [barrier_bindWeak, barrier_bindWeak, hfg.barrier]
  · intro other hother
    rw [get?_bindWeak, get?_bindWeak, hfg.get? other hother]
    split
    · rename_i heq
      rw [← heq, hfg.get? other hother]
    · rfl

theorem AgreesOn.bind_right (hfg : f.AgreesOn p g) {name : String}
    (hname : ¬ p name) (r : Referent) : f.AgreesOn p (g.bind name r) := by
  constructor
  · exact hfg.barrier
  · intro other hother
    have hne : other ≠ name := by
      intro heq
      rw [heq] at hother
      exact hname hother
    rw [get?_bind, if_neg hne, hfg.get? other hother]

theorem AgreesOn.bindWeak_right (hfg : f.AgreesOn p g) {name : String}
    (hname : ¬ p name) (r : Referent) :
    f.AgreesOn p (g.bindWeak name r) := by
  constructor
  · rw [barrier_bindWeak, hfg.barrier]
  · intro other hother
    have hne : other ≠ name := by
      intro heq
      rw [heq] at hother
      exact hname hother
    rw [get?_bindWeak, if_neg hne, hfg.get? other hother]

end Frame

namespace ScopeStack

/-- Whether two stacks agree on every name of a kind, scope by scope. -/
structure AgreesOn (p : String -> Prop) (s t : ScopeStack) : Prop where
  runtime : s.runtime = t.runtime
  top : s.top.AgreesOn p t.top
  outer : List.Forall₂ (Frame.AgreesOn p) s.outer t.outer

variable {p : String -> Prop} {s t : ScopeStack}

theorem AgreesOn.refl (p : String -> Prop) (s : ScopeStack) :
    s.AgreesOn p s := by
  constructor
  · rfl
  · exact .refl p s.top
  · apply List.forall₂_same.mpr
    intro f _
    exact .refl p f

/-!
## Entering and declaring
-/

theorem AgreesOn.push (hst : s.AgreesOn p t) : s.push.AgreesOn p t.push :=
  ⟨hst.runtime, .refl p _, .cons hst.top hst.outer⟩

theorem AgreesOn.pushBarrier (hst : s.AgreesOn p t) :
    s.pushBarrier.AgreesOn p t.pushBarrier :=
  ⟨hst.runtime, .refl p _, .cons hst.top hst.outer⟩

theorem AgreesOn.bind (hst : s.AgreesOn p t) (name : String)
    (r : Referent) : (s.bind name r).AgreesOn p (t.bind name r) :=
  ⟨hst.runtime, hst.top.bind name r, hst.outer⟩

theorem AgreesOn.bindWeak (hst : s.AgreesOn p t) (name : String)
    (r : Referent) : (s.bindWeak name r).AgreesOn p (t.bindWeak name r) :=
  ⟨hst.runtime, hst.top.bindWeak name r, hst.outer⟩

theorem AgreesOn.bind_right (hst : s.AgreesOn p t) {name : String}
    (hname : ¬ p name) (r : Referent) : s.AgreesOn p (t.bind name r) :=
  ⟨hst.runtime, hst.top.bind_right hname r, hst.outer⟩

theorem AgreesOn.bindWeak_right (hst : s.AgreesOn p t) {name : String}
    (hname : ¬ p name) (r : Referent) : s.AgreesOn p (t.bindWeak name r) :=
  ⟨hst.runtime, hst.top.bindWeak_right hname r, hst.outer⟩

theorem AgreesOn.bindLocals (hst : s.AgreesOn p t)
    (names : List String) :
    (s.bindLocals names).AgreesOn p (t.bindLocals names) := by
  induction names generalizing s t with
  | nil => exact hst
  | cons name rest ih => exact ih (hst.bind name .localVar)

theorem AgreesOn.bindLocals_right (hst : s.AgreesOn p t)
    {names : List String} (hnames : forall name, name ∈ names -> ¬ p name) :
    s.AgreesOn p (t.bindLocals names) := by
  induction names generalizing t with
  | nil => exact hst
  | cons name rest ih =>
      have hname := hnames name (by simp)
      apply ih (hst.bind_right hname .localVar)
      intro other hother
      exact hnames other (List.mem_cons_of_mem name hother)

/-!
## Looking up
-/

theorem lookupIn_agreesOn {fs gs : List Frame}
    (h : List.Forall₂ (Frame.AgreesOn p) fs gs) {name : String}
    (hname : p name) (typesOnly past : Bool) :
    lookupIn name typesOnly past fs = lookupIn name typesOnly past gs := by
  induction h generalizing past with
  | nil => rfl
  | cons hfg _ ih =>
      rw [lookupIn, lookupIn, hfg.get? name hname, hfg.barrier]
      simp only [ih]

theorem AgreesOn.lookup (hst : s.AgreesOn p t) {name : String}
    (hname : p name) (typesOnly : Bool) :
    s.lookup name typesOnly = t.lookup name typesOnly :=
  lookupIn_agreesOn (.cons hst.top hst.outer) hname typesOnly false

theorem AgreesOn.classify (hst : s.AgreesOn p t) (full : List String) :
    s.classify full = t.classify full := by
  rw [ScopeStack.classify, ScopeStack.classify, hst.runtime]

theorem AgreesOn.canonical (hst : s.AgreesOn p t) {names : List String}
    (hnames : forall name, name ∈ names -> p name) :
    s.canonical names = t.canonical names := by
  cases names with
  | nil => rfl
  | cons first rest =>
      have hfirst := hst.lookup (hnames first (by simp)) true
      rw [ScopeStack.canonical, ScopeStack.canonical, hfirst, hst.runtime]

theorem AgreesOn.resolveNames (hst : s.AgreesOn p t)
    {names : List String} (hnames : forall name, name ∈ names -> p name) :
    s.resolveNames names = t.resolveNames names := by
  match names with
  | [] => rfl
  | [name] =>
      have hname := hst.lookup (hnames name (by simp)) false
      rw [ScopeStack.resolveNames, ScopeStack.resolveNames, hname]
  | first :: second :: rest =>
      have hfirst := hst.lookup (hnames first (by simp)) true
      simp only [ScopeStack.resolveNames, hfirst, hst.runtime, hst.classify]

theorem AgreesOn.resolve (hst : s.AgreesOn p t) {path : Path}
    (hpath : forall name, name ∈ path.names -> p name) :
    s.resolve path = t.resolve path := by
  rw [ScopeStack.resolve, ScopeStack.resolve, hst.classify,
    hst.resolveNames hpath]

end ScopeStack

/-!
## Code with names of a kind only

If all names in a piece of code are of the kind that two stacks agree on, the
code declares the same in both, and calls the same in both.
-/

def AllNames (p : String -> Prop) (ts : List Token) : Prop :=
  forall i : Ident, .ident i ∈ ts -> p i.name

section

variable {p : String -> Prop}

theorem AllNames.mono {ts us : List Token} (h : AllNames p us)
    (hsub : ts ⊆ us) : AllNames p ts := by
  intro i hi
  exact h i (hsub hi)

theorem AllNames.of_all [DecidablePred p] {ts : List Token}
    (h : (ts.all fun
      | .atom (.ident i) => decide (p i.name)
      | _ => true) = true) : AllNames p ts := by
  intro i hi
  have hname := List.all_eq_true.mp h (.ident i) hi
  exact of_decide_eq_true hname

theorem AllNames.append {ts us : List Token} (h : AllNames p (ts ++ us)) :
    AllNames p ts ∧ AllNames p us := by
  constructor
  · exact h.mono (List.subset_append_left ts us)
  · exact h.mono (List.subset_append_right ts us)

theorem AllNames.cons {t : Token} {ts : List Token}
    (h : AllNames p (t :: ts)) : AllNames p ts :=
  h.mono (List.subset_cons_self t ts)

theorem AllNames.segmentNames {led : Bool} {ss : List Segment}
    (h : AllNames p (segmentsTokens led ss)) {name : String}
    (hname : name ∈ ss.map fun s => s.name.name) : p name := by
  induction ss generalizing led with
  | nil => cases hname
  | cons s rest ih =>
      rw [segmentsTokens] at h
      rcases h.append with ⟨hs, hrest⟩
      rcases List.mem_cons.mp hname with heq | hmem
      · rw [heq]
        rcases s with ⟨i, args⟩
        exact hs.append.2 i List.mem_cons_self
      · exact ih hrest hmem

theorem AllNames.pathNames {path : Path} (h : AllNames p path.tokens)
    {name : String} (hname : name ∈ path.names) : p name := by
  rcases path with ⟨absolute, segments⟩
  exact h.segmentNames hname

theorem listTokens_cons_subset (t : UseTree) (rest : List UseTree) :
    t.tokens ⊆ UseTree.listTokens (t :: rest) ∧
      UseTree.listTokens rest ⊆ UseTree.listTokens (t :: rest) := by
  cases rest with
  | nil => exact ⟨List.Subset.refl _, List.nil_subset _⟩
  | cons u more =>
      constructor
      · exact List.subset_append_left _ _
      · intro x hx
        exact List.mem_append_right _ (List.mem_cons_of_mem _ hx)

theorem itemsTokens_itemsOf_subset (body : List Stmt) :
    itemsTokens (ScopeStack.itemsOf body) ⊆ stmtsTokens body := by
  induction body with
  | nil => exact List.Subset.refl _
  | cons s rest ih =>
      cases s with
      | item i =>
          exact List.append_subset.mpr
            ⟨List.subset_append_left _ _,
              List.Subset.trans ih (List.subset_append_right _ _)⟩
      | _ => exact List.Subset.trans ih (List.subset_append_right _ _)

end

namespace ScopeStack

theorem leafPath_names {p : String -> Prop} {parent : List String}
    {name : Ident} (hparent : forall other, other ∈ parent -> p other)
    (hname : p name.name) :
    forall other, other ∈ leafPath parent name -> p other := by
  intro other hother
  unfold leafPath at hother
  split at hother
  · exact hparent other hother
  · rcases List.mem_append.mp hother with hmem | hmem
    · exact hparent other hmem
    · rw [List.mem_singleton.mp hmem]
      exact hname

mutual

theorem AgreesOn.declareTree {p : String -> Prop} {s t : ScopeStack}
    (hst : s.AgreesOn p t) (parent : List String) (tree : UseTree)
    (hparent : forall name, name ∈ parent -> p name)
    (hnames : AllNames p tree.tokens) :
    (s.declareTree parent tree).AgreesOn p (t.declareTree parent tree) := by
  cases tree with
  | path name rest =>
      rw [UseTree.tokens] at hnames
      refine AgreesOn.declareTree hst (parent ++ [name.name]) rest ?_
        hnames.cons.append.2
      intro other hother
      rcases List.mem_append.mp hother with hmem | hmem
      · exact hparent other hmem
      · rw [List.mem_singleton.mp hmem]
        exact hnames name List.mem_cons_self
  | leaf name =>
      have hcanonical := hst.canonical
        (leafPath_names hparent (hnames name List.mem_cons_self))
      rw [ScopeStack.declareTree, ScopeStack.declareTree]
      split
      · rw [bindImport, bindImport, importReferent, importReferent,
          hcanonical, hst.classify]
        exact hst.bind _ _
      · exact hst
  | rename name newName =>
      have hcanonical := hst.canonical
        (leafPath_names hparent (hnames name List.mem_cons_self))
      rw [ScopeStack.declareTree, ScopeStack.declareTree]
      split
      · exact hst
      · rw [bindImport, bindImport, importReferent, importReferent,
          hcanonical, hst.classify]
        exact hst.bind _ _
  | glob =>
      rw [ScopeStack.declareTree, ScopeStack.declareTree, bindGlob, bindGlob,
        hst.canonical hparent, hst.runtime]
      split
      · exact hst.bindWeak _ _
      · exact hst
  | group trees trailing =>
      rw [UseTree.tokens] at hnames
      exact AgreesOn.declareTrees hst parent trees hparent
        hnames.cons.append.1.append.1

theorem AgreesOn.declareTrees {p : String -> Prop} {s t : ScopeStack}
    (hst : s.AgreesOn p t) (parent : List String) (trees : List UseTree)
    (hparent : forall name, name ∈ parent -> p name)
    (hnames : AllNames p (UseTree.listTokens trees)) :
    (s.declareTrees parent trees).AgreesOn p
      (t.declareTrees parent trees) := by
  cases trees with
  | nil => exact hst
  | cons tree rest =>
      rcases listTokens_cons_subset tree rest with ⟨htree, hrest⟩
      have hdeclared := AgreesOn.declareTree hst parent tree hparent
        (hnames.mono htree)
      exact AgreesOn.declareTrees hdeclared parent rest hparent
        (hnames.mono hrest)

end

variable {p : String -> Prop} {s t : ScopeStack}

theorem AgreesOn.declareItem (hst : s.AgreesOn p t) (i : Item)
    (hnames : AllNames p i.tokens) :
    (s.declareItem i).AgreesOn p (t.declareItem i) := by
  rcases i with ⟨attrs, kind⟩
  cases kind with
  | imports before absolute tree =>
      rw [Item.tokens, ItemKind.tokens] at hnames
      have htree := hnames.append.2.append.1.append.2
      apply hst.declareTree [] tree _ htree
      intro name hname
      cases hname
  | externCrate before name newName =>
      rw [ScopeStack.declareItem, ScopeStack.declareItem, hst.runtime]
      exact hst.bind _ _
  | implementation header members => exact hst
  | other parts => exact hst
  | _ => exact hst.bind _ _

theorem AgreesOn.declareItems (hst : s.AgreesOn p t) (items : List Item)
    (hnames : AllNames p (itemsTokens items)) :
    (s.declareItems items).AgreesOn p (t.declareItems items) := by
  induction items generalizing s t with
  | nil => exact hst
  | cons i rest ih =>
      rw [itemsTokens] at hnames
      rcases hnames.append with ⟨hi, hrest⟩
      exact ih (hst.declareItem i hi) hrest

theorem AgreesOn.declareStmts (hst : s.AgreesOn p t) (body : List Stmt)
    (hnames : AllNames p (stmtsTokens body)) :
    (s.declareStmts body).AgreesOn p (t.declareStmts body) :=
  hst.declareItems _ (hnames.mono (itemsTokens_itemsOf_subset body))

end ScopeStack

theorem Stmt.isRegistration_congr {p : String -> Prop}
    {s t : ScopeStack}
    (hst : forall path : Path, AllNames p path.tokens ->
      (s.resolve path = .sentinel ↔ t.resolve path = .sentinel))
    (stmt : Stmt) (hnames : AllNames p stmt.tokens) :
    stmt.isRegistration s = stmt.isRegistration t := by
  match stmt, hnames with
  | .binding _ _ _, _ => rfl
  | .item _, _ => rfl
  | .invocation _ _ _, _ => rfl
  | .expr pos (.mk attrs kind) semi, hnames =>
      cases kind with
      | call callee args =>
          rcases callee with ⟨own, shape⟩
          cases shape with
          | path path =>
              have hpath : AllNames p path.tokens := by
                simp only [Stmt.tokens, Expr.tokens, ExprKind.tokens]
                  at hnames
                exact hnames.append.1.append.2.append.1.append.2
              simp only [isRegistration, Expr.calleePath?, Option.any_some,
                hst path hpath]
          | _ => rfl
      | _ => rfl

theorem Stmt.isRegistration_agreesOn {p : String -> Prop}
    {s t : ScopeStack} (hst : s.AgreesOn p t) (stmt : Stmt)
    (hnames : AllNames p stmt.tokens) :
    stmt.isRegistration s = stmt.isRegistration t := by
  apply isRegistration_congr _ stmt hnames
  intro path hpath
  rw [hst.resolve fun name hname => hpath.pathNames hname]

end ScopeExit
