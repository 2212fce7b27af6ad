import ScopeExit.Proofs.Changes
import ScopeExit.Proofs.Rewriting

/-!
# The path of the runtime

The path of the runtime with the name of the sentinel behind it is the one way
to write the sentinel that needs no import.  Variables cannot get in its way,
and globs bring in no other name than that of the sentinel.  So it leads there
wherever nothing that is declared has the first name of the path, unless that
name is the one by which the sentinel itself is known.
-/

namespace ScopeExit

/-!
## Names that are declared in open scopes

A history of changes declares names in scopes that are left again.  What counts
for a path are the names in the scopes that are still open.
-/

/-- The names that items, imports and extern crates have declared in the
innermost scope and in each one around it. -/
structure OpenNames where
  top : List String
  outer : List (List String)

namespace OpenNames

def all (o : OpenNames) : List String := o.top ++ o.outer.flatten

def declare (o : OpenNames) (names : List String) : OpenNames :=
  { o with top := names ++ o.top }

def enter (o : OpenNames) : OpenNames := ⟨[], o.top :: o.outer⟩

def leave (o : OpenNames) : OpenNames :=
  match o.outer with
  | [] => o
  | names :: rest => ⟨names, rest⟩

/-- The open names after a change.  A pattern declares only variables. -/
def change (o : OpenNames) : Change -> OpenNames
  | .push => o.enter
  | .pushBarrier => o.enter
  | .pop => o.leave
  | .bindPat _ => o
  | .declareStmts body =>
      o.declare (declaredNames (itemsDeclarations (ScopeStack.itemsOf body)))
  | .declareItems items =>
      o.declare (declaredNames (itemsDeclarations items))

/-- The open names after some changes, before which nothing is declared. -/
def after (cs : List Change) : OpenNames := cs.foldl change ⟨[], []⟩

end OpenNames

/-!
## What a scope can hold
-/

/-- Whether a scope holds variables, the sentinel by its own name, and else only
what is declared under one of these names. -/
def Frame.Covered (names : List String) (f : Frame) : Prop :=
  forall name r, f.get? name = some r ->
    r = .localVar ∨ name ∈ names ∨ name = sentinelName ∧ r = .sentinel

namespace Frame

variable {names : List String} {f : Frame}

theorem covered_empty (names : List String) (barrier : Bool) :
    (Frame.empty barrier).Covered names := by
  intro name r h
  cases h

theorem Covered.mono {more : List String} (h : f.Covered names)
    (hmore : names ⊆ more) : f.Covered more := by
  intro name r hget
  rcases h name r hget with hlocal | hname | hsentinel
  · exact .inl hlocal
  · exact .inr (.inl (hmore hname))
  · exact .inr (.inr hsentinel)

theorem Covered.bind (h : f.Covered names) {name : String} {r : Referent}
    (hnew : r = .localVar ∨ name ∈ names ∨
      name = sentinelName ∧ r = .sentinel) :
    (f.bind name r).Covered names := by
  intro other r' hget
  rw [get?_bind] at hget
  split at hget
  · next heq =>
      cases hget
      rw [heq]
      exact hnew
  · exact h other r' hget

theorem Covered.bindWeak (h : f.Covered names) :
    (f.bindWeak sentinelName .sentinel).Covered names := by
  rw [Frame.bindWeak]
  split
  · exact h
  · exact h.bind (.inr (.inr ⟨rfl, rfl⟩))

end Frame

namespace ScopeStack

/-- Whether every open scope is covered by the names that are declared in it. -/
structure Tracked (o : OpenNames) (s : ScopeStack) : Prop where
  top : s.top.Covered o.top
  outer : List.Forall₂ Frame.Covered o.outer s.outer

variable {s : ScopeStack} {o : OpenNames}

theorem tracked_root (runtime : Path) :
    (ScopeStack.root runtime).Tracked ⟨[], []⟩ := by
  refine ⟨?_, .nil⟩
  exact (Frame.covered_empty [] false).bind (.inr (.inr ⟨rfl, rfl⟩))

theorem Tracked.push (h : s.Tracked o) : s.push.Tracked o.enter :=
  ⟨Frame.covered_empty _ _, .cons h.top h.outer⟩

theorem Tracked.pushBarrier (h : s.Tracked o) :
    s.pushBarrier.Tracked o.enter :=
  ⟨Frame.covered_empty _ _, .cons h.top h.outer⟩

theorem Tracked.pop (h : s.Tracked o) : s.pop.Tracked o.leave := by
  rcases s with ⟨runtime, top, outer⟩
  rcases o with ⟨names, rest⟩
  rcases h with ⟨htop, houter⟩
  cases houter with
  | nil => exact ⟨htop, .nil⟩
  | cons hfirst hrest => exact ⟨hfirst, hrest⟩

theorem Tracked.bindLocals (h : s.Tracked o) (names : List String) :
    (s.bindLocals names).Tracked o := by
  induction names generalizing s with
  | nil => exact h
  | cons name rest ih =>
      apply ih
      exact ⟨h.top.bind (.inl rfl), h.outer⟩

theorem Tracked.declare (h : s.Tracked o) {d : Declaration}
    (hname : forall name, d.name? = some name -> name ∈ o.top) :
    (s.declare d).Tracked o := by
  cases d with
  | glob path =>
      rw [ScopeStack.declare, bindGlob]
      split
      · exact ⟨h.top.bindWeak, h.outer⟩
      · exact h
  | item name | externCrate name source | imported name path =>
      exact ⟨h.top.bind (.inr (.inl (hname name rfl))), h.outer⟩

theorem Tracked.declareAll {ds : List Declaration} (h : s.Tracked o)
    (hnames : declaredNames ds ⊆ o.top) : (s.declareAll ds).Tracked o := by
  induction ds generalizing s with
  | nil => exact h
  | cons d rest ih =>
      have hd : forall name, d.name? = some name -> name ∈ o.top :=
        fun name hname => hnames (mem_declaredNames_cons_iff.mpr (.inl hname))
      have hrest : declaredNames rest ⊆ o.top :=
        fun name hname => hnames (mem_declaredNames_cons_iff.mpr (.inr hname))
      exact ih (h.declare hd) hrest

theorem Tracked.declareItems (h : s.Tracked o) (items : List Item) :
    (s.declareItems items).Tracked
      (o.declare (declaredNames (itemsDeclarations items))) := by
  rw [declareItems_eq]
  have hmore : s.Tracked
      (o.declare (declaredNames (itemsDeclarations items))) :=
    ⟨h.top.mono (List.subset_append_right _ _), h.outer⟩
  exact hmore.declareAll (List.subset_append_left _ _)

theorem Tracked.change (h : s.Tracked o) (c : Change) :
    (s.change c).Tracked (o.change c) := by
  cases c with
  | push => exact h.push
  | pushBarrier => exact h.pushBarrier
  | pop => exact h.pop
  | bindPat p => exact h.bindLocals p.binders
  | declareStmts body => exact h.declareItems (itemsOf body)
  | declareItems items => exact h.declareItems items

/-- Every stack that can be reached holds what its history has declared. -/
theorem tracked_changes (runtime : Path) (cs : List Change) :
    ((ScopeStack.root runtime).changes cs).Tracked (.after cs) := by
  have hall : forall (s : ScopeStack) (o : OpenNames), s.Tracked o ->
      (s.changes cs).Tracked (cs.foldl OpenNames.change o) := by
    induction cs with
    | nil => exact fun s o h => h
    | cons c rest ih => exact fun s o h => ih _ _ (h.change c)
  exact hall _ _ (tracked_root runtime)

/-!
## Names that nothing has declared
-/

theorem lookupIn_of_covered {name : String} {scopes : List (List String)}
    {fs : List Frame} (h : List.Forall₂ Frame.Covered scopes fs)
    (hname : name ∉ scopes.flatten) {past : Bool} {r : Referent}
    (hfound : lookupIn name true past fs = some r) :
    name = sentinelName ∧ r = .sentinel := by
  induction h generalizing past with
  | nil => cases hfound
  | cons hfirst _ ih =>
      rw [List.flatten_cons, List.mem_append, not_or] at hname
      rw [lookupIn] at hfound
      split at hfound
      · next old hget =>
          split at hfound
          · exact ih hname.2 hfound
          · next hvisible =>
              cases hfound
              rcases hfirst name _ hget with hlocal | hmem | hsentinel
              · exact absurd hlocal (by simpa using hvisible)
              · exact absurd hmem hname.1
              · exact hsentinel
      · exact ih hname.2 hfound

/-- A name that nothing has declared is found as that of the sentinel or not at
all, where variables do not count. -/
theorem Tracked.lookup (h : s.Tracked o) {name : String}
    (hname : name ∉ o.all) {r : Referent}
    (hfound : s.lookup name true = some r) :
    name = sentinelName ∧ r = .sentinel :=
  lookupIn_of_covered (.cons h.top h.outer) hname hfound

/-- The path of the runtime with the name of the sentinel behind it, not
beginning with two colons and with any generic arguments, leads to the sentinel
in every stack that can be reached in which its first name is not declared.  The
only exception is a path that begins with the name of the sentinel, where this
name is found as that of the sentinel: then the path is that of an item. -/
theorem resolve_runtime_path {args : List TokenTree} {runtime : SimplePath}
    (hruntime : Arguments.runtime args = .ok runtime) (cs : List Change)
    {first : Ident} (hfirst : runtime.segments.head? = some first)
    (hopen : first.name ∉ (OpenNames.after cs).all) {path : Path}
    (hrelative : path.isAbsolute = false)
    (hpath : path.names = runtime.toPath.names ++ [sentinelName]) :
    let s := (ScopeStack.root runtime.toPath).changes cs
    (s.resolve path = .sentinel ↔
        first.name ≠ sentinelName ∨ s.lookup sentinelName true = none) ∧
      (s.resolve path ≠ .sentinel -> s.resolve path = .item) := by
  intro s
  have htracked := tracked_changes runtime.toPath cs
  have hs : s.runtime = runtime.toPath.names := runtime_changes _ cs
  -- The path has a second name, so it is the first name alone that decides.
  have hnames : exists second rest,
      path.names = first.name :: second :: rest := by
    rcases runtime with ⟨absolute, segments⟩
    cases segments with
    | nil => exact absurd rfl (Arguments.runtime_admitted hruntime).ne_nil
    | cons i more =>
        cases hfirst
        cases more with
        | nil => exact ⟨sentinelName, [], hpath⟩
        | cons j more =>
            exact ⟨j.name, _, hpath⟩
  rcases hnames with ⟨second, rest, hnames⟩
  have hresolve : s.resolve path =
      s.meant (s.lookup first.name true) first.name (second :: rest) := by
    rw [resolve, hrelative, if_neg (by simp), hnames]
    exact resolveNames_of_second s first.name second rest
  have hunfound : s.meant none first.name (second :: rest) = .sentinel := by
    rw [meant, classify_eq_sentinel_iff, ← hnames, hpath, hs]
  cases hfound : s.lookup first.name true with
  | none =>
      rw [hfound, hunfound] at hresolve
      refine ⟨⟨fun _ => ?_, fun _ => hresolve⟩, fun h => absurd hresolve h⟩
      by_cases hname : first.name = sentinelName
      · rw [hname] at hfound
        exact .inr hfound
      · exact .inl hname
  | some r =>
      rcases htracked.lookup hopen hfound with ⟨hname, hr⟩
      rw [hfound, hr] at hresolve
      have hitem : s.resolve path = .item := hresolve.trans rfl
      refine ⟨⟨fun h => ?_, fun h => ?_⟩, fun _ => hitem⟩
      · rw [hitem] at h
        cases h
      · rcases h with h | h
        · exact absurd hname h
        · rw [hname, h] at hfound
          cases hfound

/-- A runtime that is reached inside the crate, behind a foreign import of the
sentinel's name, variables and the boundary of an item, with generic
arguments. -/
theorem resolve_runtime_path_behind_variables :
    let text := "crate = \"crate::rt\""
    let runtime : SimplePath := ⟨false, [.plain "crate", .plain "rt"]⟩
    let path := Path.mk false [.mk (.plain "crate") [], .mk (.plain "rt") [],
      .mk (.plain "defer") (Part.ofTokens (pathSeparator ++
        [.punct '<', .punct '_', .punct '>']))]
    let import_ := UseTree.path (.plain "tasks") (.leaf (.plain "defer"))
    let cs : List Change :=
      [.push, .declareStmts [.item (.mk [] (.imports [] false import_))],
        .bindPat (.binder [] (.plain "rt") []), .push,
        .declareItems [.mk [] (.moduleFile [] (.plain "crate"))], .pop,
        .pushBarrier, .bindPat (.binder [] (.plain "crate") [])]
    ((TokenTree.ofText? text).bind fun ts =>
        (Arguments.runtime ts).toOption) = some runtime ∧
      "crate" ∉ (OpenNames.after cs).all ∧
        ((ScopeStack.root runtime.toPath).changes cs).resolve path =
          .sentinel := by
  intro text runtime path import_ cs
  have hargs : ((TokenTree.ofText? text).bind fun ts =>
      (Arguments.runtime ts).toOption) = some runtime := by
    decide +kernel
  have hopen : "crate" ∉ (OpenNames.after cs).all := by
    decide
  refine ⟨hargs, hopen, ?_⟩
  rcases Option.bind_eq_some_iff.mp hargs with ⟨ts, _, hoption⟩
  have hruntime : Arguments.runtime ts = .ok runtime := by
    cases h : Arguments.runtime ts with
    | error e =>
        rw [h] at hoption
        cases hoption
    | ok p =>
        rw [h] at hoption
        exact congrArg Except.ok (Option.some.inj hoption)
  have hpath : path.names = runtime.toPath.names ++ [sentinelName] := rfl
  have hresolve := resolve_runtime_path hruntime cs rfl hopen rfl hpath
  exact hresolve.1.mpr (.inl (by decide))

/-- A runtime crate that has the name of the sentinel.  The path of the runtime
with the name of the sentinel behind it is that of an item, and a call of it is
left alone, although nothing at all is declared. -/
theorem resolve_runtime_named_defer :
    let runtime : SimplePath := ⟨true, [.plain "defer"]⟩
    let path := Path.mk false [.mk (.plain "defer") [],
      .mk (.plain "defer") []]
    ((TokenTree.ofText? "crate = \"::defer\"").bind fun ts =>
        (Arguments.runtime ts).toOption) = some runtime ∧
      path.names = runtime.toPath.names ++ [sentinelName] ∧
      (ScopeStack.root runtime.toPath).resolve path = .item ∧
      ((Item.ofText? "fn run() \x7b defer::defer(cleanup); \x7d").map fun i =>
          Token.flat (i.guardedAt runtime).value.tokens) =
        some "fn run ( ) \x7b defer : : defer ( cleanup ) ; \x7d" := by
  decide +kernel

end ScopeStack

end ScopeExit
