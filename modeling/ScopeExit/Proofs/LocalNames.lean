import ScopeExit.Proofs.Changes
import ScopeExit.Proofs.Shadowing

/-!
# Variables and the first segments of paths

A variable is never meant by the first segment of a longer path, and no variable
is seen past the boundary of an item.  But a scope holds one thing for each name,
so a variable takes the place of an item or import of the same block.  Then the
name is looked for further out, as if the block had not declared it.
-/

namespace ScopeExit

namespace ScopeStack

/-- What a name that is not that of a variable refers to in the enclosing
scopes. -/
def lookupOutside (s : ScopeStack) (name : String) : Option Referent :=
  lookupIn name true false s.outer

/-- Whether a name means the same without the innermost scope.  Where it has no
meaning it is an item like any other, except in front of the rest of the path at
which the runtime is reached. -/
def IsSpare (s : ScopeStack) (name : String) : Prop :=
  (s.lookup name true).getD .item = (s.lookupOutside name).getD .item ∧
    (s.runtime.head? = some name ->
      s.lookup name true = s.lookupOutside name)

/-!
## Findings that decide alike
-/

/-- A name that is not found is like one that is found to be an item, unless
the path of the runtime begins with it. -/
theorem meant_none_eq_item_iff (s : ScopeStack) (first : String) :
    (forall rest, s.meant none first rest = s.meant (some .item) first rest) ↔
      s.runtime.head? ≠ some first := by
  constructor
  · intro h hhead
    rcases List.head?_eq_some_iff.mp hhead with ⟨more, hruntime⟩
    have hsentinel : s.classify (first :: (more ++ [sentinelName])) =
        .sentinel := by
      rw [classify_eq_sentinel_iff, hruntime]
      rfl
    have hpath := h (more ++ [sentinelName])
    cases more with
    | nil => exact absurd (hsentinel.symm.trans hpath) (by simp [meant])
    | cons name rest =>
        exact absurd (hsentinel.symm.trans hpath) (by simp [meant])
  · intro hhead rest
    cases rest with
    | nil => rfl
    | cons second rest =>
        change s.classify (first :: second :: rest) = .item
        unfold classify
        cases hruntime : s.runtime with
        | nil => simp
        | cons name more =>
            have hname : first ≠ name := by
              intro heq
              rw [hruntime, heq] at hhead
              exact hhead rfl
            simp [hname]

/-- When two findings for a name decide alike for all paths that begin with
it. -/
theorem meant_eq_iff (s : ScopeStack) (a b : Option Referent)
    (first : String) :
    (forall rest, s.meant a first rest = s.meant b first rest) ↔
      a.getD .item = b.getD .item ∧
        (s.runtime.head? = some first -> a = b) := by
  constructor
  · intro h
    refine ⟨h [], fun hhead => ?_⟩
    have hitem : a.getD .item = b.getD .item := h []
    have hnone := mt (s.meant_none_eq_item_iff first).mp (not_not.mpr hhead)
    cases a with
    | none =>
        cases b with
        | none => rfl
        | some r =>
            cases hitem
            exact absurd h hnone
    | some r =>
        cases b with
        | none =>
            cases hitem
            exact absurd (fun rest => (h rest).symm) hnone
        | some r' => exact congrArg some hitem
  · rintro ⟨hitem, hhead⟩ rest
    by_cases heq : a = b
    · rw [heq]
    · have hnone := (s.meant_none_eq_item_iff first).mpr (mt hhead heq)
      cases a with
      | none =>
          cases b with
          | none => rfl
          | some r =>
              cases hitem
              exact hnone rest
      | some r =>
          cases b with
          | none =>
              cases hitem
              exact (hnone rest).symm
          | some r' => exact absurd (congrArg some hitem) heq

/-!
## What a pattern changes
-/

theorem lookup_bind_localVar (s : ScopeStack) (name other : String) :
    (s.bind name .localVar).lookup other true =
      if other = name then s.lookupOutside other
      else s.lookup other true := by
  by_cases h : other = name
  · rw [if_pos h, h]
    simp only [lookup, lookupIn, bind, Frame.get?_bind]
    exact lookupIn_typesOnly name _ false s.outer
  · rw [if_neg h, lookup_bind_of_ne s h]

theorem lookup_bindLocals (s : ScopeStack) (names : List String)
    (other : String) :
    (s.bindLocals names).lookup other true =
      if other ∈ names then s.lookupOutside other
      else s.lookup other true := by
  induction names generalizing s with
  | nil => simp
  | cons name rest ih =>
      have houtside : (s.bind name .localVar).lookupOutside other =
          s.lookupOutside other := rfl
      rw [bindLocals_cons, ih, houtside, lookup_bind_localVar]
      by_cases hrest : other ∈ rest
      · simp [hrest]
      · simp [hrest]

/-- A name that no item or import of the innermost scope has is spare. -/
theorem isSpare_of_get? {s : ScopeStack} {name : String}
    (h : forall r, s.top.get? name = some r -> r = .localVar) :
    s.IsSpare name := by
  have hlookup : s.lookup name true = s.lookupOutside name := by
    simp only [lookup, lookupOutside, lookupIn]
    cases hget : s.top.get? name with
    | none => exact lookupIn_typesOnly name _ false s.outer
    | some r =>
        rw [h r hget]
        exact lookupIn_typesOnly name _ false s.outer
  constructor
  · rw [hlookup]
  · intro _
    exact hlookup

theorem meant_bindPat_iff (s : ScopeStack) (p : Pat) (name : String)
    (hname : name ∈ p.binders) :
    (forall rest, s.meant ((s.bindPat p).lookup name true) name rest =
        s.meant (s.lookup name true) name rest) ↔ s.IsSpare name := by
  have hlookup : (s.bindPat p).lookup name true = s.lookupOutside name := by
    rw [bindPat, lookup_bindLocals, if_pos hname]
  rw [hlookup, meant_eq_iff, IsSpare]
  constructor
  · rintro ⟨hitem, hhead⟩
    exact ⟨hitem.symm, fun h => (hhead h).symm⟩
  · rintro ⟨hitem, hhead⟩
    exact ⟨hitem.symm, fun h => (hhead h).symm⟩

theorem resolve_pushBarrier_bindPat {s : ScopeStack} {p : Pat}
    (h : forall n, n ∈ p.binders -> s.IsSpare n) (path : Path) :
    (s.bindPat p).pushBarrier.resolve path =
      s.pushBarrier.resolve path := by
  have hruntime := runtime_bindPat s p
  unfold resolve
  split
  · exact classify_congr hruntime path.names
  · cases path.names with
    | nil => rfl
    | cons first rest =>
        rw [resolveNames_pushBarrier, resolveNames_pushBarrier,
          meant_congr hruntime]
        by_cases hfirst : first ∈ p.binders
        · exact (meant_bindPat_iff s p first hfirst).mpr (h first hfirst) rest
        · rw [bindPat, lookup_bindLocals, if_neg hfirst]

/-!
## The law of variables
-/

/-- A pattern changes no path of two or more segments, and nothing past the
boundary of an item, if and only if every name that it binds is spare.  So it is
if no item or import of the same scope has such a name. -/
theorem bindPat_apart_iff (s : ScopeStack) (p : Pat) :
    ((forall path : Path, 2 ≤ path.names.length ->
          (s.bindPat p).resolve path = s.resolve path) ∧
        (forall path : Path, (s.bindPat p).pushBarrier.resolve path =
          s.pushBarrier.resolve path) ↔
      forall n, p.Binds n -> s.IsSpare n) ∧
    ((forall n, p.Binds n ->
        forall r, s.top.get? n = some r -> r = .localVar) ->
      forall n, p.Binds n -> s.IsSpare n) := by
  constructor
  · constructor
    · rintro ⟨_, hbarrier⟩ n hn
      have hmem := Pat.mem_binders_iff.mpr hn
      apply (meant_bindPat_iff s p n hmem).mp
      intro rest
      have hpath := hbarrier
        (.mk false ((n :: rest).map fun x => .mk (.plain x) []))
      have hnames : (Path.mk false
          ((n :: rest).map fun x => Segment.mk (.plain x) [])).names =
            n :: rest := by
        simp [Path.names, Segment.name, Ident.plain, Function.comp_def]
      rw [resolve, resolve, hnames] at hpath
      change (s.bindPat p).pushBarrier.resolveNames (n :: rest) =
        s.pushBarrier.resolveNames (n :: rest) at hpath
      rw [resolveNames_pushBarrier, resolveNames_pushBarrier,
        meant_congr (runtime_bindPat s p)] at hpath
      exact hpath
    · intro h
      have hspare : forall n, n ∈ p.binders -> s.IsSpare n :=
        fun n hn => h n (Pat.mem_binders_iff.mp hn)
      have hbarrier := resolve_pushBarrier_bindPat hspare
      refine ⟨fun path hpath => ?_, hbarrier⟩
      rw [← resolve_pushBarrier _ hpath, hbarrier,
        resolve_pushBarrier _ hpath]
  · intro h n hn
    exact isSpare_of_get? (h n hn)

/-- An alias of the sentinel, and variables named like the sentinel and like the
runtime. -/
theorem bindPat_apart_of_alias :
    let s := (root (SimplePath.mk true [.plain "deferred"]).toPath).changes
      [.pushBarrier, .push, .declareItems [.mk [] (.imports [] false
        (.path (.plain "deferred")
          (.rename (.plain "defer") (.plain "later"))))]]
    let p := Pat.compound [.token (.opening .paren),
      .pat (.binder [] (.plain "defer") []), .token (.punct ','),
      .pat (.binder [] (.plain "deferred") []), .token (.closing .paren)]
    (forall n, p.Binds n ->
        forall r, s.top.get? n = some r -> r = .localVar) ∧
      (forall path : Path, 2 ≤ path.names.length ->
        (s.bindPat p).resolve path = s.resolve path) ∧
      forall path : Path, (s.bindPat p).pushBarrier.resolve path =
        s.pushBarrier.resolve path := by
  intro s p
  have hnone : forall n, n ∈ p.binders -> s.top.get? n = none := by
    decide
  have hfree : forall n, p.Binds n ->
      forall r, s.top.get? n = some r -> r = .localVar := by
    intro n hn r hget
    rw [hnone n (Pat.mem_binders_iff.mpr hn)] at hget
    cases hget
  have hlaw := bindPat_apart_iff s p
  exact ⟨hfree, hlaw.1.mpr (hlaw.2 hfree)⟩

/-- A variable in place of the alias of the runtime that the same block declares
makes a path to the sentinel one to an item.  In place of an import it brings
the sentinel back past the boundary of an item. -/
theorem bindPat_over_import :
    let path := fun names : List String =>
      (SimplePath.mk false (names.map Ident.plain)).toPath
    let s := (root (SimplePath.mk true [.plain "deferred"]).toPath).changes
      [.pushBarrier, .push, .declareItems [
        .mk [] (.imports [] false
          (.rename (.plain "deferred") (.plain "rt"))),
        .mk [] (.imports [] false
          (.path (.plain "tasks") (.leaf (.plain "defer"))))]]
    let named := fun x : String => Pat.binder [] (.plain x) []
    s.resolve (path ["rt", "defer"]) = .sentinel ∧
      (s.bindPat (named "rt")).resolve (path ["rt", "defer"]) = .item ∧
      s.pushBarrier.resolve (path ["defer"]) = .item ∧
      (s.bindPat (named "defer")).pushBarrier.resolve (path ["defer"]) =
        .sentinel := by
  decide

end ScopeStack

end ScopeExit
