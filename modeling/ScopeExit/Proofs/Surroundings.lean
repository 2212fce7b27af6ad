import ScopeExit.Proofs.Accounts
import ScopeExit.Proofs.Declarations

/-!
# The same code in other surroundings

Behind the boundary of an item no variable from outside can be seen.  All that
code there can tell of the scopes around it is which paths lead out of it to the
sentinel.  If the same paths do in two surroundings, the walk does the same in
both.
-/

namespace ScopeExit

/-!
## Deciding the same

What becomes of code follows from what is decided at each of its places.
-/

/-- Whether two contexts decide the same at every place of some code. -/
structure Node.Agreed (c d : Context) (n : Node) : Prop where
  runtime : c.runtime = d.runtime
  registers : forall a, n.registers c a = n.registers d a
  isConstAt : forall a, n.isConstAt c a = n.isConstAt d a

namespace Node

variable {c d : Context} {n : Node}

theorem Agreed.plan (h : n.Agreed c d) : n.plan c = n.plan d := by
  rw [Node.plan, Node.plan, h.runtime]
  congr 1
  funext a
  rw [h.registers, h.isConstAt]

theorem Agreed.refused (h : n.Agreed c d) : n.refused c = n.refused d := by
  have hsame : n.isRefused c = n.isRefused d := by
    funext a
    rw [isRefused, isRefused, h.registers, h.isConstAt]
  rw [Node.refused, Node.refused, hsame]

theorem Agreed.faults (h : n.Agreed c d)
    (hruntime : c.runtime.opensCall = true) :
    (n.guarded c).faults = (n.guarded d).faults := by
  have hother : d.runtime.opensCall = true := by
    rw [← h.runtime]
    exact hruntime
  rw [faults_guarded_eq hruntime, faults_guarded_eq hother, h.refused]

end Node

theorem Item.guarded_eq_of_agreed {c d : Context} {i : Item}
    (h : (Node.item i).Agreed c d) (hruntime : c.runtime.opensCall = true) :
    i.guarded c = i.guarded d := by
  have hother : d.runtime.opensCall = true := by
    rw [← h.runtime]
    exact hruntime
  have hvalue : (i.guarded c).value = (i.guarded d).value := by
    rw [Item.guarded_placed i hruntime rfl, Item.guarded_placed i hother rfl,
      h.plan]
  have hfaults : (i.guarded c).faults = (i.guarded d).faults := by
    simpa [Node.guarded] using h.faults hruntime
  rcases hc : i.guarded c with ⟨value, faults⟩
  rcases hd : i.guarded d with ⟨value', faults'⟩
  rw [hc, hd] at hvalue hfaults
  exact congr (congrArg Report.mk hvalue) hfaults

/-!
## Looking out
-/

namespace ScopeStack

def scopes (s : ScopeStack) : List Frame := s.top :: s.outer

theorem lookupIn_append (name : String) (typesOnly past : Bool)
    (fs gs : List Frame) :
    lookupIn name typesOnly past (fs ++ gs) =
      (lookupIn name typesOnly past fs).or
        (lookupIn name typesOnly (past || fs.any Frame.barrier) gs) := by
  induction fs generalizing past with
  | nil => simp [lookupIn]
  | cons f rest ih =>
      simp only [List.cons_append, lookupIn, List.any_cons]
      cases f.get? name with
      | none =>
          rw [ih, Bool.or_assoc]
      | some r =>
          by_cases hlocal : (r = .localVar && (typesOnly || past)) = true
          · simp only [if_pos hlocal]
            rw [ih, Bool.or_assoc]
          · simp only [if_neg hlocal]
            rfl

/-- Whether no variable of a stack can be seen from within these scopes: the
boundary of an item is among them, or there is no variable. -/
def Seals (fs : List Frame) (a : ScopeStack) : Prop :=
  forall name typesOnly,
    lookupIn name typesOnly (fs.any Frame.barrier) a.scopes =
      a.lookup name true

theorem seals_of_barrier {fs : List Frame}
    (h : fs.any Frame.barrier = true) (a : ScopeStack) : Seals fs a := by
  intro name typesOnly
  rw [h, lookupIn_past, lookupIn_typesOnly name true false]
  rfl

theorem Seals.cons {fs : List Frame} {a : ScopeStack} (h : Seals fs a)
    (f : Frame) : Seals (f :: fs) a := by
  cases hf : f.barrier with
  | true => exact seals_of_barrier (by simp [hf]) a
  | false =>
      intro name typesOnly
      rw [List.any_cons, hf, Bool.false_or]
      exact h name typesOnly

/-- Two stacks that have the same inner scopes, at least one, around which stand
those of two others. -/
structure Surrounded (a b s t : ScopeStack) : Prop where
  first : s.runtime = a.runtime
  second : t.runtime = b.runtime
  scopes : exists (f : Frame) (fs : List Frame),
    Seals (f :: fs) a ∧ Seals (f :: fs) b ∧
      s.scopes = f :: fs ++ a.scopes ∧ t.scopes = f :: fs ++ b.scopes

variable {a b s t : ScopeStack}

theorem Surrounded.lookup (h : Surrounded a b s t) (name : String)
    (typesOnly : Bool) :
    s.lookup name typesOnly = t.lookup name typesOnly ∨
      s.lookup name typesOnly = a.lookup name true ∧
        t.lookup name typesOnly = b.lookup name true := by
  rcases h.scopes with ⟨f, fs, ha, hb, hs, ht⟩
  have hout : forall {u v : ScopeStack}, Seals (f :: fs) v ->
      u.scopes = f :: fs ++ v.scopes ->
        u.lookup name typesOnly =
          (lookupIn name typesOnly false (f :: fs)).or
            (v.lookup name true) := by
    intro u v hv huv
    change lookupIn name typesOnly false u.scopes = _
    rw [huv, lookupIn_append, Bool.false_or, hv]
  rw [hout ha hs, hout hb ht]
  cases lookupIn name typesOnly false (f :: fs) with
  | none => exact .inr ⟨rfl, rfl⟩
  | some r => exact .inl rfl

/-- Two stacks in which, behind the boundary of an item, the same paths lead to
the sentinel, among those that begin with a name of a kind. -/
structure SameExits (p : String -> Prop) (a b : ScopeStack) : Prop where
  runtime : a.runtime = b.runtime
  sentinel : forall path : Path,
    (forall name, path.names.head? = some name -> p name) ->
      (a.pushBarrier.resolve path = .sentinel ↔
        b.pushBarrier.resolve path = .sentinel)

def pathOf (names : List String) : SimplePath :=
  ⟨false, names.map Ident.plain⟩

@[simp] theorem names_pathOf (names : List String) :
    (pathOf names).toPath.names = names := by
  simp [pathOf, SimplePath.toPath, Path.names, Segment.name, Ident.plain,
    Function.comp_def]

theorem resolve_pathOf (s : ScopeStack) (names : List String) :
    s.resolve (pathOf names).toPath = s.resolveNames names := by
  rw [resolve, names_pathOf]
  rfl

theorem SameExits.meant {p : String -> Prop} (h : SameExits p a b)
    {first : String} (hfirst : p first) (rest : List String) :
    a.meant (a.lookup first true) first rest = .sentinel ↔
      b.meant (b.lookup first true) first rest = .sentinel := by
  have hpath := h.sentinel (pathOf (first :: rest)).toPath
  rw [resolve_pathOf, resolve_pathOf, resolveNames_pushBarrier,
    resolveNames_pushBarrier, names_pathOf] at hpath
  apply hpath
  intro name hname
  rw [← Option.some.inj hname]
  exact hfirst

theorem resolveNames_cons (s : ScopeStack) (first : String)
    (rest : List String) :
    s.resolveNames (first :: rest) =
      s.meant (s.lookup first (!rest.isEmpty)) first rest := by
  cases rest with
  | nil => rfl
  | cons second rest => exact resolveNames_of_second s first second rest

theorem resolve_congr {s t : ScopeStack} (hruntime : s.runtime = t.runtime)
    (hlookup : forall name typesOnly,
      s.lookup name typesOnly = t.lookup name typesOnly) (path : Path) :
    s.resolve path = t.resolve path := by
  rw [resolve, resolve, classify_congr hruntime]
  cases path.names with
  | nil => rfl
  | cons first rest =>
      rw [resolveNames_cons, resolveNames_cons, hlookup, meant_congr hruntime]

theorem Surrounded.runtime (h : Surrounded a b s t) {p : String -> Prop}
    (hexits : SameExits p a b) : s.runtime = t.runtime := by
  rw [h.first, h.second, hexits.runtime]

theorem Surrounded.resolve_eq_sentinel_iff (h : Surrounded a b s t)
    {p : String -> Prop} (hexits : SameExits p a b) {path : Path}
    (hpath : forall name, name ∈ path.names -> p name) :
    s.resolve path = .sentinel ↔ t.resolve path = .sentinel := by
  have hruntime := h.runtime hexits
  rw [resolve, resolve, classify_congr hruntime]
  split
  · rfl
  · cases hnames : path.names with
    | nil => rfl
    | cons first rest =>
        have hfirst : p first := hpath first (by simp [hnames])
        rw [resolveNames_cons, resolveNames_cons, meant_congr hruntime]
        rcases h.lookup first (!rest.isEmpty) with hsame | ⟨hs, ht⟩
        · rw [hsame]
        · have hout := hruntime.symm.trans h.first
          rw [hs, ht, meant_congr hout (a.lookup first true),
            meant_congr h.second (b.lookup first true)]
          exact hexits.meant hfirst rest

theorem Surrounded.isRegistration (h : Surrounded a b s t) {p : String -> Prop}
    (hexits : SameExits p a b) (stmt : Stmt)
    (hnames : AllNames p stmt.tokens) :
    stmt.isRegistration s = stmt.isRegistration t := by
  apply Stmt.isRegistration_congr _ stmt hnames
  intro path hpath
  exact h.resolve_eq_sentinel_iff hexits fun name hname =>
    hpath.pathNames hname

end ScopeStack

/-!
## Names in imports

What a piece of code imports is a path of names that stand in it.
-/

mutual

theorem UseTree.names_declarations {p : String -> Prop}
    {parent : List String} (t : UseTree)
    (hparent : forall name, name ∈ parent -> p name)
    (hnames : AllNames p t.tokens) :
    forall d, d ∈ t.declarations parent ->
      forall path, d.path? = some path ->
        forall name, name ∈ path -> p name := by
  cases t with
  | path name rest =>
      rw [UseTree.tokens] at hnames
      rw [UseTree.declarations]
      refine UseTree.names_declarations rest ?_ hnames.cons.append.2
      intro other hother
      rcases List.mem_append.mp hother with hmem | hmem
      · exact hparent other hmem
      · rw [List.mem_singleton.mp hmem]
        exact hnames name List.mem_cons_self
  | leaf name =>
      have hleaf := ScopeStack.leafPath_names hparent
        (hnames name List.mem_cons_self)
      intro d hd path hpath
      rw [UseTree.declarations] at hd
      split at hd
      · rw [List.mem_singleton.mp hd] at hpath
        rw [← Option.some.inj hpath]
        exact hleaf
      · cases hd
  | rename name newName =>
      have hleaf := ScopeStack.leafPath_names hparent
        (hnames name List.mem_cons_self)
      intro d hd path hpath
      rw [UseTree.declarations] at hd
      split at hd
      · cases hd
      · rw [List.mem_singleton.mp hd] at hpath
        rw [← Option.some.inj hpath]
        exact hleaf
  | glob =>
      intro d hd path hpath
      rw [UseTree.declarations] at hd
      rw [List.mem_singleton.mp hd] at hpath
      rw [← Option.some.inj hpath]
      exact hparent
  | group trees trailing =>
      rw [UseTree.tokens] at hnames
      exact names_treesDeclarations trees hparent
        hnames.cons.append.1.append.1

theorem names_treesDeclarations {p : String -> Prop}
    {parent : List String} (ts : List UseTree)
    (hparent : forall name, name ∈ parent -> p name)
    (hnames : AllNames p (UseTree.listTokens ts)) :
    forall d, d ∈ treesDeclarations parent ts ->
      forall path, d.path? = some path ->
        forall name, name ∈ path -> p name := by
  cases ts with
  | nil =>
      intro d hd
      cases hd
  | cons t rest =>
      rcases listTokens_cons_subset t rest with ⟨ht, hrest⟩
      intro d hd
      rw [treesDeclarations, List.mem_append] at hd
      rcases hd with hd | hd
      · exact UseTree.names_declarations t hparent (hnames.mono ht) d hd
      · exact names_treesDeclarations rest hparent (hnames.mono hrest) d hd

end

theorem names_itemsDeclarations {p : String -> Prop} {items : List Item}
    (hnames : AllNames p (itemsTokens items)) :
    forall d, d ∈ itemsDeclarations items ->
      forall path, d.path? = some path ->
        forall name, name ∈ path -> p name := by
  induction items with
  | nil =>
      intro d hd
      cases hd
  | cons i rest ih =>
      rw [itemsTokens] at hnames
      rcases hnames.append with ⟨hi, hrest⟩
      intro d hd
      rw [itemsDeclarations_cons, List.mem_append] at hd
      rcases hd with hd | hd
      · rcases i with ⟨attrs, kind⟩
        cases kind with
        | imports before absolute tree =>
            rw [Item.tokens, ItemKind.tokens] at hi
            exact UseTree.names_declarations tree (List.forall_mem_nil p)
              hi.append.2.append.1.append.2 d hd
        | implementation header members => cases hd
        | other parts => cases hd
        | _ =>
            intro path hpath
            rw [List.mem_singleton.mp hd] at hpath
            cases hpath
      · exact ih hrest d hd

/-!
## Declaring inside

An import asks whether its first name is one of the runtime crate.  That shows
in where the path of the sentinel behind that name leads.
-/

namespace ScopeStack

variable {a b s t : ScopeStack}

theorem meant_sentinelName_iff {s : ScopeStack} {first : String}
    (h : s.runtime ≠ [first]) (found : Option Referent) :
    s.meant found first [sentinelName] = .sentinel ↔
      found = some .runtime := by
  have hother : [first, sentinelName] ≠ s.runtime ++ [sentinelName] := by
    intro heq
    have hfirst : [first] ++ [sentinelName] = s.runtime ++ [sentinelName] :=
      heq
    exact h (List.append_cancel_right hfirst).symm
  cases found with
  | none => simp [meant, classify_eq_sentinel_iff, hother]
  | some r => cases r <;> simp [meant, classify_eq_sentinel_iff]

theorem Surrounded.importReferent (h : Surrounded a b s t) {p : String -> Prop}
    (hexits : SameExits p a b) {path : List String}
    (hpath : forall name, name ∈ path -> p name) :
    s.importReferent path = t.importReferent path := by
  have hruntime := h.runtime hexits
  apply importReferent_congr hruntime
  intro first rest heq
  by_cases hfirst : s.runtime = [first]
  · left
    rw [hfirst]
    rfl
  · right
    rcases h.lookup first true with hsame | ⟨hs, ht⟩
    · rw [hsame]
    · have hp : p first := hpath first (by simp [heq])
      have hout := hexits.meant hp [sentinelName]
      have ha : a.runtime ≠ [first] := by
        rw [← h.first]
        exact hfirst
      have hb : b.runtime ≠ [first] := by
        rw [← hexits.runtime]
        exact ha
      rw [hs, ht, ← meant_sentinelName_iff ha, ← meant_sentinelName_iff hb]
      exact hout

theorem Surrounded.enter (h : Surrounded a b s t) (g : Frame) :
    Surrounded a b { s with top := g, outer := s.scopes }
      { t with top := g, outer := t.scopes } := by
  rcases h.scopes with ⟨f, fs, ha, hb, hs, ht⟩
  exact ⟨h.first, h.second, g, f :: fs, ha.cons g, hb.cons g,
    congrArg (List.cons g) hs, congrArg (List.cons g) ht⟩

theorem surrounded_enter (ha : Seals [] a) (hb : Seals [] b) (g : Frame) :
    Surrounded a b { a with top := g, outer := a.scopes }
      { b with top := g, outer := b.scopes } :=
  ⟨rfl, rfl, g, [], ha.cons g, hb.cons g, rfl, rfl⟩

theorem surrounded_pushBarrier (a b : ScopeStack) :
    Surrounded a b a.pushBarrier b.pushBarrier :=
  ⟨rfl, rfl, .empty true, [], seals_of_barrier rfl a, seals_of_barrier rfl b,
    rfl, rfl⟩

theorem Surrounded.changeTop (h : Surrounded a b s t)
    {change : Frame -> Frame}
    (hbarrier : forall f, (change f).barrier = f.barrier) :
    Surrounded a b { s with top := change s.top }
      { t with top := change t.top } := by
  rcases h.scopes with ⟨f, fs, ha, hb, hs, ht⟩
  rcases List.cons.inj hs with ⟨hstop, hsouter⟩
  rcases List.cons.inj ht with ⟨httop, htouter⟩
  have hseals : forall {v : ScopeStack}, Seals (f :: fs) v ->
      Seals (change f :: fs) v := by
    intro v hv name typesOnly
    rw [List.any_cons, hbarrier]
    exact hv name typesOnly
  refine ⟨h.first, h.second, change f, fs, hseals ha, hseals hb, ?_, ?_⟩
  · exact List.cons_eq_cons.mpr ⟨congrArg change hstop, hsouter⟩
  · exact List.cons_eq_cons.mpr ⟨congrArg change httop, htouter⟩

theorem Surrounded.bind (h : Surrounded a b s t) (name : String)
    (r : Referent) : Surrounded a b (s.bind name r) (t.bind name r) :=
  h.changeTop fun f => f.barrier_bind name r

theorem Surrounded.bindWeak (h : Surrounded a b s t) (name : String)
    (r : Referent) :
    Surrounded a b (s.bindWeak name r) (t.bindWeak name r) :=
  h.changeTop fun f => f.barrier_bindWeak name r

theorem Surrounded.bindLocals (h : Surrounded a b s t) (names : List String) :
    Surrounded a b (s.bindLocals names) (t.bindLocals names) := by
  induction names generalizing s t with
  | nil => exact h
  | cons name rest ih => exact ih (h.bind name .localVar)

theorem Surrounded.declare (h : Surrounded a b s t) {p : String -> Prop}
    (hexits : SameExits p a b) {d : Declaration}
    (hd : forall path, d.path? = some path ->
      forall name, name ∈ path -> p name) :
    Surrounded a b (s.declare d) (t.declare d) := by
  have hruntime := h.runtime hexits
  cases d with
  | item name => exact h.bind name .item
  | externCrate name source =>
      simp only [ScopeStack.declare, hruntime]
      exact h.bind name _
  | imported name path =>
      rw [ScopeStack.declare, ScopeStack.declare, bindImport, bindImport,
        h.importReferent hexits (hd path rfl)]
      exact h.bind name _
  | glob path =>
      rw [ScopeStack.declare, ScopeStack.declare, bindGlob_eq, bindGlob_eq,
        h.importReferent hexits (hd path rfl)]
      split
      · exact h.bindWeak _ _
      · exact h

theorem Surrounded.declareAll (h : Surrounded a b s t) {p : String -> Prop}
    (hexits : SameExits p a b) {ds : List Declaration}
    (hds : forall d, d ∈ ds -> forall path, d.path? = some path ->
      forall name, name ∈ path -> p name) :
    Surrounded a b (s.declareAll ds) (t.declareAll ds) := by
  induction ds generalizing s t with
  | nil => exact h
  | cons d rest ih =>
      apply ih (h.declare hexits (hds d List.mem_cons_self))
      intro e he
      exact hds e (List.mem_cons_of_mem d he)

theorem Surrounded.declareItems (h : Surrounded a b s t)
    {p : String -> Prop} (hexits : SameExits p a b) {items : List Item}
    (hnames : AllNames p (itemsTokens items)) :
    Surrounded a b (s.declareItems items) (t.declareItems items) := by
  rw [declareItems_eq, declareItems_eq]
  exact h.declareAll hexits (names_itemsDeclarations hnames)

end ScopeStack

/-!
## Code in two surroundings

Some code stands in the surroundings themselves, as long as nothing has been
entered.  Statements never do.
-/

def Crossing.items : Crossing -> List Item
  | .module items => items
  | .block body => ScopeStack.itemsOf body
  | _ => []

theorem ExprKind.items_crossing (k : ExprKind) : k.crossing.items = [] := by
  cases k with
  | block style body => cases style <;> rfl
  | _ => rfl

theorem ItemKind.items_crossing_subset (k : ItemKind) :
    itemsTokens k.crossing.items ⊆ k.tokens [] := by
  cases k with
  | module before name items =>
      simp +contextual [ItemKind.crossing, Crossing.items, ItemKind.tokens,
        Token.group, List.subset_def]
  | _ => exact List.nil_subset _

namespace Node

theorem items_onLevel {ns : List Node} :
    forall q, q ∈ onLevel ns -> q.1.items = [] := by
  intro q hq
  rcases List.mem_map.mp hq with ⟨m, _, heq⟩
  rw [← heq]
  rfl

theorem items_ofKind (k : ExprKind) :
    forall q, q ∈ ofKind k -> q.1.items = [] := by
  cases k <;> simp [ofKind, onLevel, Crossing.items]

/-- Only a block and a module declare items, and these are written among the
tokens of the place above. -/
theorem items_subset_children (n : Node) :
    forall q, q ∈ n.children -> itemsTokens q.1.items ⊆ n.tokens := by
  have hnone : (forall q, q ∈ n.children -> q.1.items = []) ->
      forall q, q ∈ n.children -> itemsTokens q.1.items ⊆ n.tokens := by
    intro h q hq
    rw [h q hq]
    exact List.nil_subset _
  cases n with
  | block body =>
      intro q hq
      rw [List.mem_singleton.mp hq]
      exact itemsTokens_itemsOf_subset body
  | item i =>
      rcases i with ⟨as, k⟩
      intro q hq
      have hcrossing : q.1 = k.crossing := by
        rw [children] at hq
        split at hq
        · cases hq
        · simp only [List.mem_cons, List.not_mem_nil, or_false] at hq
          rcases hq with hq | hq
          · rw [hq]
          · rw [hq]
      rw [hcrossing]
      exact List.Subset.trans k.items_crossing_subset
        (attrs_subset_item as k).2
  | expr e =>
      rcases e with ⟨as, k⟩
      apply hnone
      simp [children, k.items_crossing]
  | kind k => exact hnone (items_ofKind k)
  | attr x | segment x | path x | arm x =>
      apply hnone
      cases x
      simp [children, onLevel, Crossing.items]
  | stmt x | itemKind x => exact hnone items_onLevel
  | attrs xs | part xs | parts xs | segments xs | pat xs | arms xs
  | stmts xs | items xs =>
      apply hnone
      cases xs <;> simp [children, onLevel, Crossing.items]

end Node

def Crossing.enters : Crossing -> Bool
  | .level => false
  | .constant => false
  | .behind _ => false
  | _ => true

/-- Two contexts with the same inner scopes, around which stand those of two
stacks. -/
structure Context.Surrounded (a b : ScopeStack) (c d : Context) : Prop where
  runtime : c.runtime = d.runtime
  inConst : c.inConst = d.inConst
  scope : ScopeStack.Surrounded a b c.scope d.scope

namespace Context

variable {a b : ScopeStack} {c d : Context} {p : String -> Prop}

theorem surrounded_cross (hruntime : c.runtime = d.runtime)
    (hconst : c.inConst = d.inConst)
    (henter : forall g : Frame, ScopeStack.Surrounded a b
      { c.scope with top := g, outer := c.scope.scopes }
      { d.scope with top := g, outer := d.scope.scopes })
    (hexits : ScopeStack.SameExits p a b) {x : Crossing}
    (henters : x.enters = true) (hnames : AllNames p (itemsTokens x.items)) :
    Surrounded a b (c.cross x) (d.cross x) := by
  have hpush : ScopeStack.Surrounded a b c.scope.push d.scope.push :=
    henter (.empty false)
  have hbarrier : ScopeStack.Surrounded a b c.scope.pushBarrier
      d.scope.pushBarrier := henter (.empty true)
  have hopened : Surrounded a b (c.opened x) (d.opened x) := by
    cases x with
    | level | constant | behind s => cases henters
    | closure inputs | pattern pat | condition cond =>
        exact ⟨hruntime, hconst, hpush⟩
    | function isConst signature =>
        exact ⟨hruntime, congrArg (· || isConst) hconst, hbarrier⟩
    | boundary => exact ⟨hruntime, hconst, hbarrier⟩
    | module items =>
        exact ⟨hruntime, hconst, hbarrier.declareItems hexits hnames⟩
    | block body =>
        exact ⟨hruntime, hconst, hpush.declareItems hexits hnames⟩
  exact ⟨hopened.runtime, hopened.inConst, hopened.scope.bindLocals x.locals⟩

theorem Surrounded.cross (h : Surrounded a b c d)
    (hexits : ScopeStack.SameExits p a b) (x : Crossing)
    (hnames : AllNames p (itemsTokens x.items)) :
    Surrounded a b (c.cross x) (d.cross x) := by
  rcases h with ⟨hruntime, hconst, hscope⟩
  cases x with
  | level => exact ⟨hruntime, hconst, hscope⟩
  | constant => exact ⟨hruntime, congrArg (· || true) hconst, hscope⟩
  | behind s => exact ⟨hruntime, hconst, hscope.bindLocals _⟩
  | _ => exact surrounded_cross hruntime hconst hscope.enter hexits rfl hnames

end Context

namespace Node

variable {a b : ScopeStack} {c d : Context} {p : String -> Prop}

theorem agreed_of_children {n : Node} (hruntime : c.runtime = d.runtime)
    (hconst : c.inConst = d.inConst)
    (hhere : n.registers c [] = n.registers d [])
    (hchildren : forall q, q ∈ n.children ->
      q.2.Agreed (c.cross q.1) (d.cross q.1)) : n.Agreed c d := by
  refine ⟨hruntime, ?_, ?_⟩
  · intro k
    cases k with
    | nil => exact hhere
    | cons j k =>
        cases hchild : n.children[j]? with
        | none => simp [registers, visit?, hchild]
        | some q =>
            rw [registers_cons hchild, registers_cons hchild]
            exact (hchildren q (List.mem_of_getElem? hchild)).registers k
  · intro k
    cases k with
    | nil => exact hconst
    | cons j k =>
        cases hchild : n.children[j]? with
        | none => simp [isConstAt, visit?, hchild]
        | some q =>
            rw [isConstAt_cons hchild, isConstAt_cons hchild]
            exact (hchildren q (List.mem_of_getElem? hchild)).isConstAt k

/-- Code with names of a kind is judged alike in surroundings from which the
same paths with such names lead to the sentinel. -/
theorem agreed_of_surrounded {n : Node} (h : c.Surrounded a b d)
    (hexits : ScopeStack.SameExits p a b) (hnames : AllNames p n.tokens) :
    n.Agreed c d := by
  induction n using induct generalizing c d with
  | step n ih =>
      apply agreed_of_children h.runtime h.inConst
      · cases n with
        | stmt s => exact h.scope.isRegistration hexits s hnames
        | _ => rfl
      · intro q hq
        rcases List.mem_iff_getElem?.mp hq with ⟨j, hj⟩
        have hcross := h.cross hexits q.1
          (hnames.mono (n.items_subset_children q hq))
        exact ih (j, q) (mem_inOrder_iff.mpr hj) hcross
          (hnames.mono (n.tokens_children q hq))

/-- Whether a place is neither a statement nor a list of statements. -/
def isLoose : Node -> Bool
  | .stmt _ => false
  | .stmts _ => false
  | _ => true

theorem isLoose_crossing (k : ExprKind) :
    k.crossing.enters = true ∨ k.crossing = .level ∨
      k.crossing = .constant := by
  cases k with
  | closure binder marks inputs output body => exact .inl rfl
  | block style body => cases style <;> simp [ExprKind.crossing]
  | _ => exact .inr (.inl rfl)

theorem isLoose_itemCrossing (k : ItemKind) :
    k.crossing.enters = true ∨ k.crossing = .level ∨
      k.crossing = .constant := by
  cases k <;> simp [ItemKind.crossing, Crossing.enters]

/-- Statements are come to only by way of a block, which enters a scope. -/
theorem isLoose_children {n : Node} (h : n.isLoose = true) :
    forall q, q ∈ n.children ->
      q.1.enters = true ∨
        (q.1 = .level ∨ q.1 = .constant) ∧ q.2.isLoose = true := by
  cases n with
  | stmt s | stmts ss => cases h
  | expr e =>
      rcases e with ⟨as, k⟩
      simpa [children, isLoose] using isLoose_crossing k
  | item i =>
      rcases i with ⟨as, k⟩
      rw [children]
      split
      · exact nofun
      · simpa [isLoose] using isLoose_itemCrossing k
  | kind k | itemKind k =>
      cases k <;>
        simp [children, ofKind, ofItemKind, onLevel, isLoose, Crossing.enters]
  | attr x | segment x | path x | arm x =>
      cases x
      simp [children, onLevel, isLoose, Crossing.enters]
  | attrs xs | part xs | parts xs | segments xs | pat xs | arms xs
  | items xs =>
      cases xs <;> simp [children, onLevel, isLoose]
  | block body => simp [children, Crossing.enters]

theorem agreed_of_sealed {n : Node} (hloose : n.isLoose = true)
    (hruntime : c.runtime = d.runtime) (hconst : c.inConst = d.inConst)
    (hc : ScopeStack.Seals [] c.scope) (hd : ScopeStack.Seals [] d.scope)
    (hexits : ScopeStack.SameExits p c.scope d.scope)
    (hnames : AllNames p n.tokens) : n.Agreed c d := by
  induction n using induct generalizing c d with
  | step n ih =>
      apply agreed_of_children hruntime hconst
      · cases n with
        | stmt s => cases hloose
        | _ => rfl
      · intro q hq
        have hbelow := hnames.mono (n.tokens_children q hq)
        rcases isLoose_children hloose q hq with henters | ⟨hcross, hq'⟩
        · have hitems := hnames.mono (n.items_subset_children q hq)
          have hinside := Context.surrounded_cross hruntime hconst
            (ScopeStack.surrounded_enter hc hd) hexits henters hitems
          exact agreed_of_surrounded hinside hexits hbelow
        · rcases List.mem_iff_getElem?.mp hq with ⟨j, hj⟩
          have hmem := mem_inOrder_iff.mpr hj
          rcases q with ⟨x, m⟩
          rcases hcross with hx | hx
          · cases hx
            exact ih _ hmem hq' hruntime hconst hc hd hexits hbelow
          · cases hx
            exact ih _ hmem hq' hruntime (congrArg (· || true) hconst) hc hd
              hexits hbelow

end Node

end ScopeExit
