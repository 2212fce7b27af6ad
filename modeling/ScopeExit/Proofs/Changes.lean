import Mathlib.Data.List.Forall2
import ScopeExit.Registration
import ScopeExit.Proofs.Declarations

/-!
# The same changes made to two stacks

All that happens to a stack of scopes in a walk is a sequence of *changes*.
When two stacks differ, scope by scope, in what they hold for some names, the
same changes do not make the difference any greater, provided that no import
can see it.
-/

namespace ScopeExit

inductive Change where
  | push
  | pushBarrier
  | pop
  | bindPat (p : Pat)
  | declareStmts (body : List Stmt)
  | declareItems (items : List Item)

namespace ScopeStack

def change (s : ScopeStack) : Change -> ScopeStack
  | .push => s.push
  | .pushBarrier => s.pushBarrier
  | .pop => s.pop
  | .bindPat p => s.bindPat p
  | .declareStmts body => s.declareStmts body
  | .declareItems items => s.declareItems items

def changes (s : ScopeStack) (cs : List Change) : ScopeStack :=
  cs.foldl change s

@[simp] theorem changes_nil (s : ScopeStack) : s.changes [] = s := rfl

@[simp] theorem changes_cons (s : ScopeStack) (c : Change)
    (cs : List Change) : s.changes (c :: cs) = (s.change c).changes cs := rfl

@[simp] theorem runtime_bindLocals (s : ScopeStack) (names : List String) :
    (s.bindLocals names).runtime = s.runtime := by
  induction names generalizing s with
  | nil => rfl
  | cons name rest ih => exact ih (s.bind name .localVar)

@[simp] theorem runtime_bindPat (s : ScopeStack) (p : Pat) :
    (s.bindPat p).runtime = s.runtime :=
  runtime_bindLocals s p.binders

@[simp] theorem runtime_declareItems (s : ScopeStack) (items : List Item) :
    (s.declareItems items).runtime = s.runtime := by
  rw [declareItems_eq, runtime_declareAll]

@[simp] theorem runtime_pop (s : ScopeStack) :
    s.pop.runtime = s.runtime := by
  unfold pop
  split <;> rfl

@[simp] theorem runtime_change (s : ScopeStack) (c : Change) :
    (s.change c).runtime = s.runtime := by
  cases c with
  | push => rfl
  | pushBarrier => rfl
  | pop => exact runtime_pop s
  | bindPat p => exact runtime_bindPat s p
  | declareStmts body => exact runtime_declareItems s (itemsOf body)
  | declareItems items => exact runtime_declareItems s items

@[simp] theorem runtime_changes (s : ScopeStack) (cs : List Change) :
    (s.changes cs).runtime = s.runtime := by
  induction cs generalizing s with
  | nil => rfl
  | cons c rest ih => rw [changes_cons, ih, runtime_change]

end ScopeStack

/-!
## Likenesses
-/

/-- A way in which what two scopes hold for a name may differ.  It is kept when
the same is declared in both, also if that gives way to an earlier
declaration. -/
structure Likeness where
  rel : String -> Option Referent -> Option Referent -> Prop
  refl : forall name a, rel name a a
  weak : forall name a b r,
    rel name a b -> rel name (some (a.getD r)) (some (b.getD r))

namespace Likeness

def same : Likeness where
  rel _ a b := a = b
  refl _ _ := rfl
  weak _ _ _ _ h := by rw [h]

/-- Whether no import can tell scopes apart that are alike.  An import asks
whether its first name is one of the runtime crate, and that makes no
difference to the name by which the runtime is reached anyway. -/
def IsHidden (l : Likeness) (runtime : List String) : Prop :=
  forall name, runtime ≠ [name] -> forall a b, l.rel name a b -> a = b

theorem isHidden_same (runtime : List String) : same.IsHidden runtime := by
  intro name _ a b h
  exact h

end Likeness

namespace Frame

structure Alike (l : Likeness) (f g : Frame) : Prop where
  barrier : f.barrier = g.barrier
  get? : forall name, l.rel name (f.get? name) (g.get? name)

variable {l : Likeness} {f g : Frame}

theorem Alike.refl (l : Likeness) (f : Frame) : f.Alike l f :=
  ⟨rfl, fun name => l.refl name _⟩

theorem Alike.bind (h : f.Alike l g) (name : String) (r : Referent) :
    (f.bind name r).Alike l (g.bind name r) := by
  constructor
  · exact h.barrier
  · intro other
    rw [get?_bind, get?_bind]
    split
    · exact l.refl other _
    · exact h.get? other

theorem Alike.bindWeak (h : f.Alike l g) (name : String) (r : Referent) :
    (f.bindWeak name r).Alike l (g.bindWeak name r) := by
  constructor
  · rw [barrier_bindWeak, barrier_bindWeak, h.barrier]
  · intro other
    rw [get?_bindWeak, get?_bindWeak]
    split
    · rename_i heq
      rw [heq]
      exact l.weak name _ _ r (h.get? name)
    · exact h.get? other

theorem Alike.symm (h : f.Alike .same g) : g.Alike .same f :=
  ⟨h.barrier.symm, fun name => Eq.symm (h.get? name)⟩

theorem Alike.trans {k : Frame} (h : f.Alike .same g)
    (h' : g.Alike .same k) : f.Alike .same k :=
  ⟨h.barrier.trans h'.barrier,
    fun name => Eq.trans (h.get? name) (h'.get? name)⟩

end Frame

namespace ScopeStack

/-- Whether two stacks are alike, scope by scope. -/
structure Alike (l : Likeness) (s t : ScopeStack) : Prop where
  runtime : s.runtime = t.runtime
  top : s.top.Alike l t.top
  outer : List.Forall₂ (Frame.Alike l) s.outer t.outer

variable {l : Likeness} {s t : ScopeStack}

theorem Alike.refl (l : Likeness) (s : ScopeStack) : s.Alike l s := by
  constructor
  · rfl
  · exact .refl l s.top
  · apply List.forall₂_same.mpr
    intro f _
    exact .refl l f

theorem Alike.symm (h : s.Alike .same t) : t.Alike .same s := by
  refine ⟨h.runtime.symm, h.top.symm, ?_⟩
  apply h.outer.flip.imp
  intro f g hfg
  exact hfg.symm

theorem Alike.trans {u : ScopeStack} (h : s.Alike .same t)
    (h' : t.Alike .same u) : s.Alike .same u := by
  rcases s with ⟨r, f, fs⟩
  rcases t with ⟨r', g, gs⟩
  rcases u with ⟨r'', k, ks⟩
  refine ⟨h.runtime.trans h'.runtime, h.top.trans h'.top, ?_⟩
  have hfg := h.outer
  have hgk := h'.outer
  simp only at hfg hgk ⊢
  clear h h'
  induction hfg generalizing ks with
  | nil => exact hgk
  | cons hhead _ ih =>
      cases hgk with
      | cons hhead' htail' => exact .cons (hhead.trans hhead') (ih _ htail')

/-!
## Looking up
-/

theorem lookupIn_alike {fs gs : List Frame}
    (h : List.Forall₂ (Frame.Alike l) fs gs) {name : String}
    (hname : forall a b, l.rel name a b -> a = b) (typesOnly past : Bool) :
    lookupIn name typesOnly past fs = lookupIn name typesOnly past gs := by
  induction h generalizing past with
  | nil => rfl
  | cons hfg _ ih =>
      rw [lookupIn, lookupIn, hname _ _ (hfg.get? name), hfg.barrier]
      simp only [ih]

theorem Alike.lookup (h : s.Alike l t) {name : String}
    (hname : forall a b, l.rel name a b -> a = b) (typesOnly : Bool) :
    s.lookup name typesOnly = t.lookup name typesOnly :=
  lookupIn_alike (.cons h.top h.outer) hname typesOnly false

theorem Alike.importReferent (h : s.Alike l t)
    (hl : l.IsHidden s.runtime) (path : List String) :
    s.importReferent path = t.importReferent path := by
  apply importReferent_congr h.runtime
  intro first rest _
  by_cases hfirst : s.runtime = [first]
  · left
    rw [hfirst]
    rfl
  · right
    rw [h.lookup (hl first hfirst)]

theorem Alike.resolve (h : s.Alike .same t) (path : Path) :
    s.resolve path = t.resolve path := by
  have hlookup : forall name typesOnly,
      s.lookup name typesOnly = t.lookup name typesOnly :=
    fun name typesOnly => h.lookup (fun _ _ heq => heq) typesOnly
  have hnames : s.resolveNames path.names = t.resolveNames path.names := by
    match path.names with
    | [] => rfl
    | [name] => simp only [resolveNames, hlookup]
    | first :: second :: rest =>
        simp only [resolveNames, hlookup, h.runtime, classify_congr h.runtime]
  rw [ScopeStack.resolve, ScopeStack.resolve, classify_congr h.runtime, hnames]

theorem Alike.isRegistration (h : s.Alike .same t) (stmt : Stmt) :
    stmt.isRegistration s = stmt.isRegistration t := by
  unfold Stmt.isRegistration
  simp only [h.resolve]

/-!
## Changing both
-/

theorem Alike.bind (h : s.Alike l t) (name : String) (r : Referent) :
    (s.bind name r).Alike l (t.bind name r) :=
  ⟨h.runtime, h.top.bind name r, h.outer⟩

theorem Alike.bindWeak (h : s.Alike l t) (name : String) (r : Referent) :
    (s.bindWeak name r).Alike l (t.bindWeak name r) :=
  ⟨h.runtime, h.top.bindWeak name r, h.outer⟩

theorem Alike.push (h : s.Alike l t) : s.push.Alike l t.push :=
  ⟨h.runtime, .refl l _, .cons h.top h.outer⟩

theorem Alike.pushBarrier (h : s.Alike l t) :
    s.pushBarrier.Alike l t.pushBarrier :=
  ⟨h.runtime, .refl l _, .cons h.top h.outer⟩

theorem Alike.pop (h : s.Alike l t) : s.pop.Alike l t.pop := by
  rcases s with ⟨r, f, fs⟩
  rcases t with ⟨r', g, gs⟩
  rcases h with ⟨hruntime, htop, houter⟩
  cases houter with
  | nil => exact ⟨hruntime, htop, .nil⟩
  | cons hfg hrest => exact ⟨hruntime, hfg, hrest⟩

theorem Alike.bindLocals (h : s.Alike l t) (names : List String) :
    (s.bindLocals names).Alike l (t.bindLocals names) := by
  induction names generalizing s t with
  | nil => exact h
  | cons name rest ih => exact ih (h.bind name .localVar)

theorem Alike.declare (h : s.Alike l t) (hl : l.IsHidden s.runtime)
    (d : Declaration) : (s.declare d).Alike l (t.declare d) := by
  cases d with
  | item name => exact h.bind name .item
  | externCrate name source =>
      simp only [ScopeStack.declare, h.runtime]
      exact h.bind name _
  | imported name path =>
      rw [ScopeStack.declare, ScopeStack.declare, bindImport, bindImport,
        h.importReferent hl path]
      exact h.bind name _
  | glob path =>
      rw [ScopeStack.declare, ScopeStack.declare, bindGlob_eq, bindGlob_eq,
        h.importReferent hl path]
      split
      · exact h.bindWeak _ _
      · exact h

theorem Alike.declareAll (h : s.Alike l t) (hl : l.IsHidden s.runtime)
    (ds : List Declaration) :
    (s.declareAll ds).Alike l (t.declareAll ds) := by
  induction ds generalizing s t with
  | nil => exact h
  | cons d rest ih =>
      apply ih (h.declare hl d)
      rw [runtime_declare]
      exact hl

theorem Alike.declareItems (h : s.Alike l t) (hl : l.IsHidden s.runtime)
    (items : List Item) :
    (s.declareItems items).Alike l (t.declareItems items) := by
  rw [declareItems_eq, declareItems_eq]
  exact h.declareAll hl _

theorem Alike.change (h : s.Alike l t) (hl : l.IsHidden s.runtime)
    (c : Change) : (s.change c).Alike l (t.change c) := by
  cases c with
  | push => exact h.push
  | pushBarrier => exact h.pushBarrier
  | pop => exact h.pop
  | bindPat p => exact h.bindLocals p.binders
  | declareStmts body => exact h.declareItems hl (itemsOf body)
  | declareItems items => exact h.declareItems hl items

theorem Alike.changes (h : s.Alike l t) (hl : l.IsHidden s.runtime)
    (cs : List Change) : (s.changes cs).Alike l (t.changes cs) := by
  induction cs generalizing s t with
  | nil => exact h
  | cons c rest ih =>
      apply ih (h.change hl c)
      rw [runtime_change]
      exact hl

end ScopeStack

end ScopeExit
