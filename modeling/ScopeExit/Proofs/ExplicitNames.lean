import ScopeExit.Proofs.DeclarationOrder
import ScopeExit.Proofs.ScopeDiscipline

/-!
# Explicit names and globs

The import of all names of the runtime crate brings in the sentinel, but only if
nothing else in the scope has its name.  So the last item or import that gives
the name decides what it refers to, wherever such globs stand; only without any
of them do the globs count, and without these the name means what it does
outside.

A glob can make a difference in one way only.  What an import refers to depends
on its first name, and where that is the name of the sentinel, the sentinel of a
glob may stand in front of an alias of the runtime crate from further out.
-/

namespace ScopeExit

def Declaration.isExplicit (d : Declaration) : Bool := d.name?.isSome

/-- Whether a declaration is the last one in a list to give a name, with `front`
in front of it. -/
def LastToGive (name : String) (ds front : List Declaration)
    (d : Declaration) : Prop :=
  d.name? = some name ∧
    exists back, ds = front ++ d :: back ∧ name ∉ declaredNames back

theorem exists_lastToGive {name : String} {ds : List Declaration}
    (h : name ∈ declaredNames ds) :
    exists front d, LastToGive name ds front d := by
  induction ds with
  | nil => cases h
  | cons d rest ih =>
      by_cases hrest : name ∈ declaredNames rest
      · rcases ih hrest with ⟨front, e, he, back, hsplit, hback⟩
        exact ⟨d :: front, e, he, back, by rw [hsplit, List.cons_append],
          hback⟩
      · have hd : d.name? = some name :=
          (mem_declaredNames_cons_iff.mp h).resolve_right hrest
        exact ⟨[], d, hd, rest, rfl, hrest⟩

theorem declaredNames_filter (ds : List Declaration) :
    declaredNames (ds.filter Declaration.isExplicit) = declaredNames ds := by
  induction ds with
  | nil => rfl
  | cons d rest ih =>
      unfold declaredNames at ih ⊢
      cases hd : d.name? with
      | none =>
          rw [List.filter_cons_of_neg (by simp [Declaration.isExplicit, hd]),
            List.filterMap_cons_none hd, ih]
      | some name =>
          rw [List.filter_cons_of_pos (by simp [Declaration.isExplicit, hd]),
            List.filterMap_cons_some hd, List.filterMap_cons_some hd, ih]

theorem LastToGive.filter {name : String} {ds front : List Declaration}
    {d : Declaration} (h : LastToGive name ds front d) :
    LastToGive name (ds.filter Declaration.isExplicit)
      (front.filter Declaration.isExplicit) d := by
  rcases h with ⟨hd, back, hsplit, hback⟩
  refine ⟨hd, back.filter Declaration.isExplicit, ?_, ?_⟩
  · rw [hsplit, List.filter_append, List.filter_cons_of_pos]
    rw [Declaration.isExplicit, hd]
    rfl
  · rw [declaredNames_filter]
    exact hback

namespace ScopeStack

/-!
## Globs of the runtime crate
-/

/-- Whether a declaration imports all names of the runtime crate. -/
def globsRuntime (s : ScopeStack) : Declaration -> Bool
  | .glob path => s.canonical path = s.runtime
  | _ => false

/-- Whether one of some declarations does so, each of them resolved where it
stands. -/
def someGlobsRuntime (s : ScopeStack) : List Declaration -> Bool
  | [] => false
  | d :: rest => s.globsRuntime d || (s.declare d).someGlobsRuntime rest

theorem someGlobsRuntime_iff (s : ScopeStack) (ds : List Declaration) :
    s.someGlobsRuntime ds = true ↔
      exists front path back, ds = front ++ .glob path :: back ∧
        (s.declareAll front).canonical path = s.runtime := by
  induction ds generalizing s with
  | nil => simp [someGlobsRuntime]
  | cons d rest ih =>
      rw [someGlobsRuntime, Bool.or_eq_true, ih, runtime_declare]
      constructor
      · rintro (hd | ⟨front, path, back, hsplit, hpath⟩)
        · cases d with
          | glob path => exact ⟨[], path, rest, rfl, of_decide_eq_true hd⟩
          | _ => cases hd
        · exact ⟨d :: front, path, back, by rw [hsplit, List.cons_append],
            hpath⟩
      · rintro ⟨front, path, back, hsplit, hpath⟩
        cases front with
        | nil =>
            cases hsplit
            exact .inl (decide_eq_true hpath)
        | cons e front =>
            cases hsplit
            exact .inr ⟨front, path, back, rfl, hpath⟩

/-- What one declaration makes of the name of the sentinel, if it does not give
it. -/
theorem get?_declare_sentinelName (s : ScopeStack) {d : Declaration}
    (hd : d.name? ≠ some sentinelName) :
    (s.declare d).top.get? sentinelName =
      if s.globsRuntime d then
        some ((s.top.get? sentinelName).getD .sentinel)
      else s.top.get? sentinelName := by
  have hbind : forall name r, name ≠ sentinelName ->
      (s.bind name r).top.get? sentinelName = s.top.get? sentinelName := by
    intro name r hname
    rw [ScopeStack.bind, Frame.get?_bind, if_neg (Ne.symm hname)]
  cases d with
  | glob path =>
      rw [declare, bindGlob, globsRuntime]
      by_cases hpath : s.canonical path = s.runtime
      · rw [if_pos hpath, if_pos (decide_eq_true hpath), bindWeak,
          Frame.get?_bindWeak, if_pos rfl]
      · rw [if_neg hpath, if_neg (by simpa using hpath)]
  | item name | externCrate name source | imported name path =>
      exact hbind name _ fun heq => hd (congrArg some heq)

theorem get?_declareAll_sentinelName (s : ScopeStack)
    {ds : List Declaration} (hds : sentinelName ∉ declaredNames ds) :
    (s.declareAll ds).top.get? sentinelName =
      if s.someGlobsRuntime ds then
        some ((s.top.get? sentinelName).getD .sentinel)
      else s.top.get? sentinelName := by
  induction ds generalizing s with
  | nil => rfl
  | cons d rest ih =>
      rw [mem_declaredNames_cons_iff, not_or] at hds
      rw [declareAll_cons, ih (s.declare d) hds.2,
        s.get?_declare_sentinelName hds.1, someGlobsRuntime]
      cases s.globsRuntime d <;> simp

/-!
## Imports that do not see the globs
-/

/-- Whether no import can tell two stacks apart.  It asks whether its first name
belongs to the runtime crate, which makes no difference to the name by which the
runtime is reached anyway. -/
structure SameImports (t u : ScopeStack) : Prop where
  runtime : t.runtime = u.runtime
  lookup : forall name, t.runtime = [name] ∨
    (t.lookup name true = some .runtime ↔ u.lookup name true = some .runtime)

/-- Whether a sentinel that a glob brings in hides no alias of the runtime crate
from imports.  Only an alias of the same name could be hidden, and it is none if
the runtime is reached by this name anyway. -/
def HidesNoAlias (s : ScopeStack) : Prop :=
  s.lookup sentinelName true = some .runtime -> s.runtime = [sentinelName]

variable {s t u : ScopeStack}

theorem SameImports.refl (t : ScopeStack) : t.SameImports t :=
  ⟨rfl, fun _ => .inr Iff.rfl⟩

theorem SameImports.trans {v : ScopeStack} (h : t.SameImports u)
    (h' : u.SameImports v) : t.SameImports v := by
  refine ⟨h.runtime.trans h'.runtime, fun name => ?_⟩
  rcases h.lookup name with hname | hleft
  · exact .inl hname
  · rcases h'.lookup name with hname | hright
    · exact .inl (h.runtime.trans hname)
    · exact .inr (hleft.trans hright)

theorem SameImports.referent (h : t.SameImports u) (d : Declaration) :
    t.referent d = u.referent d := by
  have himport : forall path,
      t.importReferent path = u.importReferent path := by
    intro path
    apply importReferent_congr h.runtime
    intro first rest _
    rcases h.lookup first with hfirst | hlookup
    · left
      rw [hfirst]
      rfl
    · exact .inr hlookup
  cases d with
  | item name => rfl
  | externCrate name source =>
      rw [ScopeStack.referent, ScopeStack.referent, h.runtime]
  | imported name path => exact himport path
  | glob path => exact himport path

theorem SameImports.declare (h : t.SameImports u) {d : Declaration}
    (hd : d.isExplicit = true) : (t.declare d).SameImports (u.declare d) := by
  rcases Option.isSome_iff_exists.mp hd with ⟨given, hgiven⟩
  have hget : forall v : ScopeStack,
      (v.declare d).lookup given true = some (v.referent d) := by
    intro v
    apply lookup_of_get? _ (v.referent_ne_localVar d)
    rw [declare_eq_add]
    exact Frame.get?_add_of_name _ hgiven _
  have hkey : d.key = given := by
    cases d <;> cases hgiven <;> rfl
  refine ⟨?_, fun name => ?_⟩
  · rw [runtime_declare, runtime_declare, h.runtime]
  by_cases hname : name = d.key
  · right
    rw [hname, hkey, hget, hget, h.referent]
  · rw [lookup_declare_of_ne t hname, lookup_declare_of_ne u hname,
      runtime_declare]
    exact h.lookup name

/-- A glob may be made in one of them alone, unless its sentinel can stand in
front of an alias of the runtime crate. -/
theorem sameImports_glob (hinside : t.Inside s) (hs : s.HidesNoAlias)
    (path : List String) : (t.declare (.glob path)).SameImports t := by
  refine ⟨runtime_declare t _, fun name => ?_⟩
  by_cases hname : name = sentinelName
  · rw [hname, runtime_declare, hinside.runtime, declare, bindGlob]
    split
    · cases hget : t.top.get? sentinelName with
      | some r =>
          right
          rw [bindWeak, Frame.bindWeak, hget]
          rfl
      | none =>
          have houtside : t.lookup sentinelName true =
              s.lookup sentinelName true := by
            rw [ScopeStack.lookup, lookupIn_cons, hget, hinside.outer]
            exact lookupIn_typesOnly _ _ _ _
          by_cases halias : s.lookup sentinelName true = some .runtime
          · exact .inl (hs halias)
          · right
            rw [← houtside] at halias
            exact iff_of_false (lookup_bindWeak_ne_runtime halias) halias
    · exact .inr Iff.rfl
  · right
    rw [lookup_declare_of_ne t hname]

theorem SameImports.declareAll_filter (h : t.SameImports u)
    (hinside : t.Inside s) (hs : s.HidesNoAlias) (ds : List Declaration) :
    (t.declareAll ds).SameImports
      (u.declareAll (ds.filter Declaration.isExplicit)) := by
  induction ds generalizing t u with
  | nil => exact h
  | cons d rest ih =>
      cases hd : d.isExplicit with
      | true =>
          rw [List.filter_cons_of_pos hd]
          exact ih (h.declare hd) (hinside.declare d)
      | false =>
          rw [List.filter_cons_of_neg (by simp [hd])]
          cases d with
          | glob path =>
              exact ih ((sameImports_glob hinside hs path).trans h)
                (hinside.declare _)
          | _ => cases hd

/-!
## Names that are given
-/

theorem resolve_of_get? {path : Path} {name : String} {r : Referent}
    (hrelative : path.isAbsolute = false) (hnames : path.names = [name])
    (hget : t.top.get? name = some r) (hr : r ≠ .localVar) :
    t.resolve path = r := by
  rw [resolve_of_names_singleton t hrelative hnames, lookup_of_get? hget hr]
  rfl

/-- A name that is given refers to what the last declaration of it did when it
was made. -/
theorem resolve_of_lastToGive (t : ScopeStack) {path : Path} {name : String}
    (hrelative : path.isAbsolute = false) (hnames : path.names = [name])
    {ds front : List Declaration} {d : Declaration}
    (h : LastToGive name ds front d) :
    (t.declareAll ds).resolve path = (t.declareAll front).referent d := by
  rcases h with ⟨hd, back, hsplit, hback⟩
  have hget : (t.declareAll ds).top.get? name =
      some ((t.declareAll front).referent d) := by
    rw [hsplit]
    apply t.get?_declareAll_of_name hd
    intro e he hname
    exact hback (mem_declaredNames he hname)
  exact resolve_of_get? hrelative hnames hget (referent_ne_localVar _ d)

/-- A name that is given means the same without any of the globs. -/
theorem resolve_declareAll_filter (hinside : t.Inside s)
    (hs : s.HidesNoAlias) {path : Path} {name : String}
    (hrelative : path.isAbsolute = false) (hnames : path.names = [name])
    {ds : List Declaration} (hgiven : name ∈ declaredNames ds) :
    (t.declareAll ds).resolve path =
      (t.declareAll (ds.filter Declaration.isExplicit)).resolve path := by
  rcases exists_lastToGive hgiven with ⟨front, d, hlast⟩
  have hsame := (SameImports.refl t).declareAll_filter hinside hs front
  rw [t.resolve_of_lastToGive hrelative hnames hlast,
    t.resolve_of_lastToGive hrelative hnames hlast.filter, hsame.referent d]

theorem resolve_declareAll_of_filter_eq (hinside : t.Inside s)
    (hs : s.HidesNoAlias) {path : Path} {name : String}
    (hrelative : path.isAbsolute = false) (hnames : path.names = [name])
    {ds es : List Declaration} (hgiven : name ∈ declaredNames ds)
    (hsame : es.filter Declaration.isExplicit =
      ds.filter Declaration.isExplicit) :
    (t.declareAll es).resolve path = (t.declareAll ds).resolve path := by
  have hes : name ∈ declaredNames es := by
    rw [← declaredNames_filter, hsame, declaredNames_filter]
    exact hgiven
  rw [resolve_declareAll_filter hinside hs hrelative hnames hes, hsame,
    resolve_declareAll_filter hinside hs hrelative hnames hgiven]

/-- An alias of the runtime crate that has the name of the sentinel is hidden by
a glob.  Behind it, an import through the alias no longer leads to the
sentinel. -/
example :
    let import_ := fun tree => Item.mk [] (.imports [] false tree)
    let s := (root (SimplePath.mk true [.plain "deferred"]).toPath).changes
      [.pushBarrier, .push, .declareItems
        [import_ (.rename (.plain "deferred") (.plain "defer"))]]
    let glob := import_ (.path (.plain "deferred") .glob)
    let through := import_ (.path (.plain "defer") (.leaf (.plain "defer")))
    let name := Path.mk false [.mk (.plain "defer") []]
    (s.push.declareItems [through]).resolve name = .sentinel ∧
      (s.push.declareItems [glob, through]).resolve name = .item := by
  decide

/-!
## The name of the sentinel, if it is not given
-/

/-- Declarations change nothing but the names of the innermost scope. -/
theorem barrier_and_outer_declareAll (t : ScopeStack)
    (ds : List Declaration) :
    (t.declareAll ds).top.barrier = t.top.barrier ∧
      (t.declareAll ds).outer = t.outer := by
  induction ds generalizing t with
  | nil => exact ⟨rfl, rfl⟩
  | cons d rest ih =>
      rw [declareAll_cons, (ih _).1, (ih _).2, declare_eq_add]
      exact ⟨t.top.barrier_add d _, rfl⟩

theorem lookup_declareAll_of_get? (t : ScopeStack)
    {ds : List Declaration} {name : String}
    (hget : (t.declareAll ds).top.get? name = t.top.get? name)
    (typesOnly : Bool) :
    (t.declareAll ds).lookup name typesOnly = t.lookup name typesOnly := by
  simp only [lookup, lookupIn_cons, hget, t.barrier_and_outer_declareAll ds]

/-- In a scope that does not hold the name yet, a glob of the runtime crate
brings it in, and nothing else changes what it refers to. -/
theorem resolve_declareAll_of_not_given {path : Path}
    (hempty : t.top.get? sentinelName = none)
    (hrelative : path.isAbsolute = false)
    (hnames : path.names = [sentinelName]) {ds : List Declaration}
    (hds : sentinelName ∉ declaredNames ds) :
    (t.declareAll ds).resolve path =
      if t.someGlobsRuntime ds then .sentinel else t.resolve path := by
  have hget := t.get?_declareAll_sentinelName hds
  split
  · rename_i hsome
    rw [if_pos hsome, hempty] at hget
    exact resolve_of_get? hrelative hnames hget (by simp)
  · rename_i hnone
    rw [if_neg hnone] at hget
    rw [resolve_of_names_singleton _ hrelative hnames,
      resolve_of_names_singleton t hrelative hnames,
      t.lookup_declareAll_of_get? hget]

theorem resolve_entered {entered : ScopeStack}
    (hentered : entered = s.push ∨ entered = s.pushBarrier) {path : Path}
    {name : String} (hrelative : path.isAbsolute = false)
    (hnames : path.names = [name]) :
    (entered = s.push ∨ s.resolve path ≠ .localVar ->
        entered.resolve path = s.resolve path) ∧
      (entered = s.pushBarrier ->
        entered.resolve path = (s.lookup name true).getD .item) := by
  have hpush : s.push.resolve path = s.resolve path := by
    rw [resolve_of_names_singleton _ hrelative hnames,
      resolve_of_names_singleton s hrelative hnames]
    rfl
  constructor
  · rintro (h | hlocal)
    · rw [h, hpush]
    · rcases hentered with h | h
      · rw [h, hpush]
      · rw [h]
        exact resolve_pushBarrier_of_ne_localVar hlocal
  · intro h
    rw [h, resolve_of_names_singleton _ hrelative hnames, lookup_pushBarrier]

/-!
## What the name of the sentinel refers to
-/

/-- In a new scope with some items, the name of the sentinel refers to what the
last item or import that gives it does, resolved where it stands.  Which globs
there are, and where, makes no difference as long as they hide no alias.  If
nothing gives the name, it refers to the sentinel if one of the globs is that of
the runtime crate where it stands, and otherwise to what it does outside, where
variables are out of sight past the boundary of an item. -/
theorem resolve_sentinelName_declareItems {s entered : ScopeStack}
    (hentered : entered = s.push ∨ entered = s.pushBarrier) {name : Path}
    (hrelative : name.isAbsolute = false)
    (hname : name.names = [sentinelName]) (items : List Item) :
    let ds := itemsDeclarations items
    let inside := entered.declareItems items
    (sentinelName ∈ declaredNames ds ->
        (exists front d, LastToGive sentinelName ds front d) ∧
        (forall front d, LastToGive sentinelName ds front d ->
          inside.resolve name = (entered.declareAll front).referent d) ∧
        (s.HidesNoAlias -> forall others : List Item,
          (itemsDeclarations others).filter Declaration.isExplicit =
              ds.filter Declaration.isExplicit ->
            (entered.declareItems others).resolve name =
              inside.resolve name)) ∧
      (sentinelName ∉ declaredNames ds ->
        let globbed := exists front path back,
          ds = front ++ .glob path :: back ∧
            (entered.declareAll front).canonical path = s.runtime
        (globbed -> inside.resolve name = .sentinel) ∧
        (¬ globbed ->
          (entered = s.push ∨ s.resolve name ≠ .localVar ->
            inside.resolve name = s.resolve name) ∧
          (entered = s.pushBarrier ->
            inside.resolve name =
              (s.lookup sentinelName true).getD .item))) := by
  intro ds inside
  have hinside : inside = entered.declareAll ds :=
    entered.declareItems_eq items
  have hscope : entered.Inside s := by
    rcases hentered with h | h <;> rw [h]
    · exact inside_push s
    · exact inside_pushBarrier s
  have hempty : entered.top.get? sentinelName = none := by
    rcases hentered with h | h <;> rw [h] <;> rfl
  rw [hinside]
  constructor
  · intro hgiven
    refine ⟨exists_lastToGive hgiven, ?_, ?_⟩
    · intro front d hlast
      exact entered.resolve_of_lastToGive hrelative hname hlast
    · intro hs others hothers
      rw [declareItems_eq]
      exact resolve_declareAll_of_filter_eq hscope hs hrelative hname hgiven
        hothers
  · intro hnone globbed
    have hglobbed : entered.someGlobsRuntime ds = true ↔ globbed := by
      rw [someGlobsRuntime_iff, hscope.runtime]
    have hresolve :=
      resolve_declareAll_of_not_given hempty hrelative hname hnone
    constructor
    · intro h
      rw [hresolve, if_pos (hglobbed.mpr h)]
    · intro h
      rw [hresolve, if_neg (fun hsome => h (hglobbed.mp hsome))]
      exact resolve_entered hentered hrelative hname

/-- Globs of the runtime crate through two aliases, around a foreign import that
hides the sentinel.  Without that import the sentinel is found, although a
variable of its name is in sight, and without the globs that variable is. -/
theorem resolve_sentinelName_among_globs :
    let import_ := fun tree => Item.mk [] (.imports [] false tree)
    let s := (root (SimplePath.mk true [.plain "deferred"]).toPath).changes
      [.pushBarrier, .push,
        .declareItems
          [import_ (.rename (.plain "deferred") (.plain "rt"))],
        .bindPat (.binder [] (.plain "defer") [])]
    let glob := import_ (.path (.plain "rt") .glob)
    let again := import_ (.rename (.plain "rt") (.plain "again"))
    let sentinel := import_ (.path (.plain "again") (.leaf (.plain "defer")))
    let globs := import_ (.group
      [.path (.plain "tasks") .glob,
        .path (.plain "again") (.group [.glob] false)] false)
    let foreign := import_ (.path (.plain "tasks") (.leaf (.plain "defer")))
    let given := [glob, again, sentinel, globs, foreign, glob, globs]
    let name := Path.mk false [.mk (.plain "defer") []]
    sentinelName ∈ declaredNames (itemsDeclarations given) ∧
      (s.pushBarrier.declareItems given).resolve name = .item ∧
      (s.pushBarrier.declareItems [again, sentinel, foreign]).resolve name =
        .item ∧
      sentinelName ∉ declaredNames (itemsDeclarations [again, globs]) ∧
      (s.push.declareItems [again, globs]).resolve name = .sentinel ∧
      sentinelName ∉ declaredNames (itemsDeclarations [again]) ∧
      (s.push.declareItems [again]).resolve name = .localVar := by
  intro import_ s glob again sentinel globs foreign given name
  have hgiven : sentinelName ∈ declaredNames (itemsDeclarations given) := by
    decide
  have hglobs :
      sentinelName ∉ declaredNames (itemsDeclarations [again, globs]) := by
    decide
  have hagain : sentinelName ∉ declaredNames (itemsDeclarations [again]) := by
    decide
  have hlast : LastToGive sentinelName (itemsDeclarations given)
      (itemsDeclarations [glob, again, sentinel, globs])
      (.imported "defer" ["tasks", "defer"]) :=
    ⟨rfl, itemsDeclarations [glob, globs], by decide, by decide⟩
  rcases (@resolve_sentinelName_declareItems s s.pushBarrier (Or.inr rfl)
    name rfl rfl given).1 hgiven with ⟨_, hlastCounts, hglobsGive⟩
  have hforeign : (s.pushBarrier.declareItems given).resolve name = .item :=
    (hlastCounts _ _ hlast).trans (by decide)
  have halias : s.HidesNoAlias := fun h => absurd h (by decide)
  have hbare := hglobsGive halias [again, sentinel, foreign] (by decide)
  have hfirst : itemsDeclarations [again, globs] =
      [.imported "again" ["rt"], .glob ["tasks"]] ++
        .glob ["again"] :: [] := by
    decide
  have hsentinel := ((@resolve_sentinelName_declareItems s s.push
    (Or.inl rfl) name rfl rfl [again, globs]).2 hglobs).1
      ⟨_, _, _, hfirst, by decide⟩
  have hnoGlob : ¬ exists front path back,
      itemsDeclarations [again] = front ++ Declaration.glob path :: back ∧
        (s.push.declareAll front).canonical path = s.runtime := by
    rintro ⟨front, path, back, hsplit, _⟩
    have hmem : Declaration.glob path ∈ itemsDeclarations [again] := by
      rw [hsplit]
      exact List.mem_append_right _ List.mem_cons_self
    have hsingle : itemsDeclarations [again] =
        [.imported "again" ["rt"]] := by
      decide
    rw [hsingle, List.mem_singleton] at hmem
    cases hmem
  have hlocal := (((@resolve_sentinelName_declareItems s s.push
    (Or.inl rfl) name rfl rfl [again]).2 hagain).2 hnoGlob).1 (Or.inl rfl)
  exact ⟨hgiven, hforeign, hbare.trans hforeign, hglobs, hsentinel, hagain,
    hlocal.trans (by decide)⟩

/-- In a module, a variable outside is not what the name refers to. -/
theorem resolve_sentinelName_in_module :
    let s := (root (SimplePath.mk true [.plain "deferred"]).toPath).changes
      [.pushBarrier, .push, .bindPat (.binder [] (.plain "defer") [])]
    let items :=
      [Item.mk [] (.imports [] false (.path (.plain "tasks") .glob))]
    let name := Path.mk false [.mk (.plain "defer") []]
    sentinelName ∉ declaredNames (itemsDeclarations items) ∧
      s.pushBarrier.someGlobsRuntime (itemsDeclarations items) = false ∧
      s.resolve name = .localVar ∧
      (s.pushBarrier.declareItems items).resolve name = .sentinel := by
  decide

end ScopeStack

end ScopeExit
