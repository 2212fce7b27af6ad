import ScopeExit.Proofs.Lookup

/-!
# Single declarations

An item may declare many names, because an import is a tree.  Taken apart, a
list of items is a list of single declarations, made from left to right.  Which
declarations these are does not depend on any scope; what they refer to does.
-/

namespace ScopeExit

/-- A single declaration.  The `source` of an `externCrate` is the crate that is
meant, and an import leads to its `path`.  A `glob` imports all names below its
path and gives none itself. -/
inductive Declaration where
  | item (name : String)
  | externCrate (name source : String)
  | imported (name : String) (path : List String)
  | glob (path : List String)
  deriving DecidableEq

namespace Declaration

def name? : Declaration -> Option String
  | item name => some name
  | externCrate name _ => some name
  | imported name _ => some name
  | glob _ => none

/-- The name that a scope may hold because of the declaration.  All that a glob
can bring in is the sentinel. -/
def key : Declaration -> String
  | item name => name
  | externCrate name _ => name
  | imported name _ => name
  | glob _ => sentinelName

def path? : Declaration -> Option (List String)
  | imported _ path => some path
  | glob path => some path
  | _ => none

end Declaration

/-!
## Items taken apart
-/

mutual

def UseTree.declarations (parent : List String) :
    UseTree -> List Declaration
  | .path name rest => rest.declarations (parent ++ [name.name])
  | .leaf name =>
      match ScopeStack.leafName? parent name with
      | some declared =>
          [.imported declared (ScopeStack.leafPath parent name)]
      | none => []
  | .rename name newName =>
      if newName.isWord "_" then []
      else [.imported newName.name (ScopeStack.leafPath parent name)]
  | .glob => [.glob parent]
  | .group trees _ => treesDeclarations parent trees

def treesDeclarations (parent : List String) :
    List UseTree -> List Declaration
  | [] => []
  | t :: rest => t.declarations parent ++ treesDeclarations parent rest

end

theorem ScopeStack.leafName?_eq_getLast? (parent : List String)
    (name : Ident) :
    leafName? parent name = (leafPath parent name).getLast? := by
  rw [leafName?, leafPath]
  split
  · rfl
  · rw [List.getLast?_concat]

theorem UseTree.declarations_leaf (parent : List String) (name : Ident) :
    let path := ScopeStack.leafPath parent name
    (leaf name).declarations parent =
      (path.getLast?.map fun last => Declaration.imported last path).toList := by
  intro path
  rw [declarations, ScopeStack.leafName?_eq_getLast?]
  cases path.getLast? <;> rfl

/-- An import tree behind the names of a path. -/
def UseTree.behind (path : List Ident) (t : UseTree) : UseTree :=
  path.foldr .path t

theorem UseTree.declarations_behind (t : UseTree) (path : List Ident)
    (parent : List String) :
    (t.behind path).declarations parent =
      t.declarations (parent ++ path.map Ident.name) := by
  induction path generalizing parent with
  | nil => rw [List.map_nil, List.append_nil, behind, List.foldr_nil]
  | cons i rest ih =>
      change (t.behind rest).declarations (parent ++ [i.name]) = _
      rw [ih, List.append_assoc]
      rfl

theorem treesDeclarations_append (parent : List String)
    (ts us : List UseTree) :
    treesDeclarations parent (ts ++ us) =
      treesDeclarations parent ts ++ treesDeclarations parent us := by
  induction ts with
  | nil => rfl
  | cons t rest ih =>
      rw [List.cons_append, treesDeclarations, treesDeclarations, ih,
        List.append_assoc]

def Item.declarations : Item -> List Declaration
  | .mk _ (.imports _ _ tree) => tree.declarations []
  | .mk _ (.externCrate _ name newName) =>
      [.externCrate (newName.getD name).name name.name]
  | .mk _ (.function _ _ _ name _ _) => [.item name.name]
  | .mk _ (.constant _ name _) => [.item name.name]
  | .mk _ (.traitDef _ name _ _) => [.item name.name]
  | .mk _ (.module _ name _) => [.item name.name]
  | .mk _ (.moduleFile _ name) => [.item name.name]
  | .mk _ (.definition _ name _) => [.item name.name]
  | .mk _ (.implementation _ _) => []
  | .mk _ (.other _) => []

def itemsDeclarations (items : List Item) : List Declaration :=
  items.flatMap Item.declarations

@[simp] theorem itemsDeclarations_cons (i : Item) (items : List Item) :
    itemsDeclarations (i :: items) =
      i.declarations ++ itemsDeclarations items :=
  List.flatMap_cons

def declaredNames (ds : List Declaration) : List String :=
  ds.filterMap Declaration.name?

theorem mem_declaredNames {ds : List Declaration} {d : Declaration}
    {name : String} (hd : d ∈ ds) (hname : d.name? = some name) :
    name ∈ declaredNames ds :=
  List.mem_filterMap.mpr ⟨d, hd, hname⟩

theorem mem_declaredNames_cons_iff {d : Declaration}
    {ds : List Declaration} {name : String} :
    name ∈ declaredNames (d :: ds) ↔
      d.name? = some name ∨ name ∈ declaredNames ds := by
  simp only [declaredNames, List.mem_filterMap, List.mem_cons, or_and_right,
    exists_or, exists_eq_left]

namespace ScopeStack

def declare (s : ScopeStack) : Declaration -> ScopeStack
  | .item name => s.bind name .item
  | .externCrate name source =>
      s.bind name (if s.runtime = [source] then .runtime else .item)
  | .imported name path => s.bindImport name path
  | .glob path => s.bindGlob path

def declareAll (s : ScopeStack) (ds : List Declaration) : ScopeStack :=
  ds.foldl declare s

@[simp] theorem declareAll_nil (s : ScopeStack) : s.declareAll [] = s := rfl

@[simp] theorem declareAll_cons (s : ScopeStack) (d : Declaration)
    (ds : List Declaration) :
    s.declareAll (d :: ds) = (s.declare d).declareAll ds := rfl

theorem declareAll_append (s : ScopeStack) (ds es : List Declaration) :
    s.declareAll (ds ++ es) = (s.declareAll ds).declareAll es :=
  List.foldl_append

mutual

theorem declareTree_eq (s : ScopeStack) (parent : List String)
    (t : UseTree) :
    s.declareTree parent t = s.declareAll (t.declarations parent) := by
  cases t with
  | path name rest =>
      rw [declareTree, UseTree.declarations]
      exact declareTree_eq s (parent ++ [name.name]) rest
  | leaf name =>
      rw [declareTree, UseTree.declarations]
      cases leafName? parent name <;> rfl
  | rename name newName =>
      rw [declareTree, UseTree.declarations]
      split <;> rfl
  | glob => rfl
  | group trees trailing =>
      rw [declareTree, UseTree.declarations]
      exact declareTrees_eq s parent trees

theorem declareTrees_eq (s : ScopeStack) (parent : List String)
    (ts : List UseTree) :
    s.declareTrees parent ts = s.declareAll (treesDeclarations parent ts) := by
  cases ts with
  | nil => rfl
  | cons t rest =>
      rw [declareTrees, treesDeclarations, declareAll_append,
        declareTree_eq s parent t, declareTrees_eq _ parent rest]

end

theorem declareItem_eq (s : ScopeStack) (i : Item) :
    s.declareItem i = s.declareAll i.declarations := by
  rcases i with ⟨attrs, kind⟩
  cases kind with
  | imports before absolute tree => exact declareTree_eq s [] tree
  | _ => rfl

theorem declareItems_eq (s : ScopeStack) (items : List Item) :
    s.declareItems items = s.declareAll (itemsDeclarations items) := by
  induction items generalizing s with
  | nil => rfl
  | cons i rest ih =>
      change (s.declareItem i).declareItems rest = _
      rw [ih, declareItem_eq, itemsDeclarations_cons, declareAll_append]

theorem declareItems_trees (s : ScopeStack) (attrs : List Attr)
    (before : List Token) (absolute : Bool) (ts : List UseTree) :
    s.declareItems (ts.map fun t => .mk attrs (.imports before absolute t)) =
      s.declareAll (treesDeclarations [] ts) := by
  induction ts generalizing s with
  | nil => rfl
  | cons t rest ih =>
      rw [treesDeclarations, declareAll_append, ← declareTree_eq, ← ih]
      rfl

/-!
## What a declaration leaves alone

Only the innermost scope changes, and in it only what it holds for the key of
the declaration.
-/

@[simp] theorem runtime_declare (s : ScopeStack) (d : Declaration) :
    (s.declare d).runtime = s.runtime := by
  cases d with
  | glob path =>
      rw [declare, bindGlob]
      split <;> rfl
  | _ => rfl

@[simp] theorem runtime_declareAll (s : ScopeStack)
    (ds : List Declaration) : (s.declareAll ds).runtime = s.runtime := by
  induction ds generalizing s with
  | nil => rfl
  | cons d rest ih => rw [declareAll_cons, ih, runtime_declare]

theorem lookup_declare_of_ne (s : ScopeStack) {d : Declaration}
    {other : String} (h : other ≠ d.key) (typesOnly : Bool) :
    (s.declare d).lookup other typesOnly = s.lookup other typesOnly := by
  cases d with
  | glob path =>
      rw [declare, bindGlob]
      split
      · exact lookup_bindWeak_of_ne s h _ _
      · rfl
  | _ => exact lookup_bind_of_ne s h _ _

end ScopeStack

end ScopeExit
