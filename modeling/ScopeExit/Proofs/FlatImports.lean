import ScopeExit.Proofs.Changes

/-!
# Import trees taken apart

An import tree abbreviates a list of flat imports, one for each of its leaves.
The path of a leaf is that of all names in front of it, and the word `self`
stands for the path itself.  Making the flat imports one after the other comes
to the same, as the leaves of a tree are declared from left to right, each in the
scope that the leaves in front of it leave behind.
-/

namespace ScopeExit

namespace UseTree

/-!
## Flat imports
-/

/-- The names of the path that a leaf imports, as they are spelled. -/
def leafIdents (parent : List Ident) (name : Ident) : List Ident :=
  if name.isWord "self" then parent else parent ++ [name]

/-- The import of a path, whose last name is given to the leaf. -/
def single (leaf : Ident -> UseTree) (path : List Ident) : List UseTree :=
  match path.getLast? with
  | some last => [(leaf last).behind path.dropLast]
  | none => []

mutual

/-- The flat imports that a tree below a path abbreviates, from left to
right. -/
def flat (parent : List Ident) : UseTree -> List UseTree
  | .path name rest => rest.flat (parent ++ [name])
  | .leaf name => single .leaf (leafIdents parent name)
  | .rename name newName =>
      single (fun last => .rename last newName) (leafIdents parent name)
  | .glob => [glob.behind parent]
  | .group trees _ => flatList parent trees

def flatList (parent : List Ident) : List UseTree -> List UseTree
  | [] => []
  | t :: rest => t.flat parent ++ flatList parent rest

end

def isFlat : UseTree -> Bool
  | .path _ rest => rest.isFlat
  | .leaf name => !name.isWord "self"
  | .rename name _ => !name.isWord "self"
  | .glob => true
  | .group _ _ => false

/-- Whether a flat import gives any name: the underscore is none. -/
def givesName : UseTree -> Bool
  | .path _ rest => rest.givesName
  | .rename _ newName => !newName.isWord "_"
  | _ => true

/-- Whether the word `self`, if the leaf is this word, stands behind a name that
is another one. -/
def leafHasName (parent : List Ident) (name : Ident) : Bool :=
  !name.isWord "self" || parent.getLast?.any fun last => !last.isWord "self"

mutual

/-- Whether each leaf that is the word `self` stands behind a name. -/
def selfHasName (parent : List Ident) : UseTree -> Bool
  | .path name rest => rest.selfHasName (parent ++ [name])
  | .leaf name => leafHasName parent name
  | .rename name _ => leafHasName parent name
  | .glob => true
  | .group trees _ => selfHasNameList parent trees

def selfHasNameList (parent : List Ident) : List UseTree -> Bool
  | [] => true
  | t :: rest => t.selfHasName parent && selfHasNameList parent rest

end

/-!
## What flat imports declare
-/

/-- The import of a leaf ends in a name that is not the word `self`, and its path
is that of the leaf. -/
theorem exists_single {parent : List Ident} {name : Ident}
    (h : leafHasName parent name = true) (leaf : Ident -> UseTree) :
    exists front last, last.isWord "self" = false ∧
      leafIdents parent name = front ++ [last] ∧
        single leaf (leafIdents parent name) = [(leaf last).behind front] := by
  have hsingle : forall front last,
      single leaf (front ++ [last]) = [(leaf last).behind front] := by
    intro front last
    rw [single, List.getLast?_concat, List.dropLast_concat]
  unfold leafHasName at h
  cases hself : name.isWord "self" with
  | false =>
      have hpath : leafIdents parent name = parent ++ [name] := by
        rw [leafIdents, hself, if_neg Bool.false_ne_true]
      exact ⟨parent, name, hself, hpath, by rw [hpath, hsingle]⟩
  | true =>
      -- The last name of the path in front takes the place of the leaf.
      rw [hself, Bool.not_true, Bool.false_or, Option.any_eq_true] at h
      rcases h with ⟨last, hlast, hname⟩
      rcases List.getLast?_eq_some_iff.mp hlast with ⟨front, hparent⟩
      have hpath : leafIdents parent name = front ++ [last] := by
        rw [leafIdents, hself, if_pos rfl, hparent]
      exact ⟨front, last, by simpa using hname, hpath, by rw [hpath, hsingle]⟩

theorem leafPath_map (parent : List Ident) (name : Ident) :
    ScopeStack.leafPath (parent.map Ident.name) name =
      (leafIdents parent name).map Ident.name := by
  rw [ScopeStack.leafPath, leafIdents]
  split
  · rfl
  · rw [List.map_append, List.map_singleton]

theorem leafPath_of_not_self {last : Ident}
    (h : last.isWord "self" = false) (front : List Ident) :
    ScopeStack.leafPath (front.map Ident.name) last =
      (front ++ [last]).map Ident.name := by
  rw [leafPath_map, leafIdents, h, if_neg Bool.false_ne_true]

theorem declarations_single_leaf {parent : List Ident} {name : Ident}
    (h : leafHasName parent name = true) :
    treesDeclarations [] (single .leaf (leafIdents parent name)) =
      (leaf name).declarations (parent.map Ident.name) := by
  rcases exists_single h .leaf with ⟨front, last, hlast, hpath, hsingle⟩
  rw [hsingle, treesDeclarations, treesDeclarations, List.append_nil,
    declarations_behind, List.nil_append, declarations_leaf,
    declarations_leaf, leafPath_of_not_self hlast, leafPath_map, hpath]

theorem declarations_single_rename {parent : List Ident} {name : Ident}
    (h : leafHasName parent name = true) (newName : Ident) :
    treesDeclarations []
        (single (fun last => .rename last newName)
          (leafIdents parent name)) =
      (rename name newName).declarations (parent.map Ident.name) := by
  rcases exists_single h (fun last => .rename last newName) with
    ⟨front, last, hlast, hpath, hsingle⟩
  rw [hsingle, treesDeclarations, treesDeclarations, List.append_nil,
    declarations_behind, List.nil_append, declarations, declarations,
    leafPath_of_not_self hlast, leafPath_map, hpath]

mutual

theorem declarations_flat {parent : List Ident} {t : UseTree}
    (h : t.selfHasName parent = true) :
    treesDeclarations [] (t.flat parent) =
      t.declarations (parent.map Ident.name) := by
  cases t with
  | path name rest =>
      rw [selfHasName] at h
      rw [flat, declarations, declarations_flat h, List.map_append,
        List.map_singleton]
  | leaf name => exact declarations_single_leaf h
  | rename name newName => exact declarations_single_rename h newName
  | glob =>
      rw [flat, treesDeclarations, treesDeclarations, List.append_nil,
        declarations_behind, List.nil_append]
  | group trees trailing =>
      rw [selfHasName] at h
      rw [flat, declarations]
      exact declarations_flatList h

theorem declarations_flatList {parent : List Ident} {ts : List UseTree}
    (h : selfHasNameList parent ts = true) :
    treesDeclarations [] (flatList parent ts) =
      treesDeclarations (parent.map Ident.name) ts := by
  cases ts with
  | nil => rfl
  | cons t rest =>
      rw [selfHasNameList, Bool.and_eq_true] at h
      rw [flatList, treesDeclarations_append, treesDeclarations,
        declarations_flat h.1, declarations_flatList h.2]

end

/-!
## What flat imports look like
-/

theorem isFlat_behind (t : UseTree) (path : List Ident) :
    (t.behind path).isFlat = t.isFlat := by
  induction path with
  | nil => rfl
  | cons i rest ih => exact ih

mutual

theorem isFlat_of_mem_flat {parent : List Ident} {t : UseTree}
    (h : t.selfHasName parent = true) :
    forall u, u ∈ t.flat parent -> u.isFlat = true := by
  intro u hu
  cases t with
  | path name rest =>
      rw [selfHasName] at h
      rw [flat] at hu
      exact isFlat_of_mem_flat h u hu
  | leaf name =>
      rcases exists_single h .leaf with ⟨front, last, hlast, _, hsingle⟩
      rw [flat, hsingle, List.mem_singleton] at hu
      rw [hu, isFlat_behind, isFlat, hlast]
      rfl
  | rename name newName =>
      rcases exists_single h (fun last => .rename last newName) with
        ⟨front, last, hlast, _, hsingle⟩
      rw [flat, hsingle, List.mem_singleton] at hu
      rw [hu, isFlat_behind, isFlat, hlast]
      rfl
  | glob =>
      rw [flat, List.mem_singleton] at hu
      rw [hu, isFlat_behind, isFlat]
  | group trees trailing =>
      rw [selfHasName] at h
      rw [flat] at hu
      exact isFlat_of_mem_flatList h u hu

theorem isFlat_of_mem_flatList {parent : List Ident} {ts : List UseTree}
    (h : selfHasNameList parent ts = true) :
    forall u, u ∈ flatList parent ts -> u.isFlat = true := by
  intro u hu
  cases ts with
  | nil => cases hu
  | cons t rest =>
      rw [selfHasNameList, Bool.and_eq_true] at h
      rw [flatList, List.mem_append] at hu
      rcases hu with hu | hu
      · exact isFlat_of_mem_flat h.1 u hu
      · exact isFlat_of_mem_flatList h.2 u hu

end

theorem declarations_of_not_givesName {t : UseTree}
    (h : t.givesName = false) (parent : List String) :
    t.declarations parent = [] := by
  cases t with
  | path name rest =>
      rw [givesName] at h
      rw [declarations]
      exact declarations_of_not_givesName h _
  | rename name newName =>
      have hnew : newName.isWord "_" = true := by
        rw [givesName] at h
        simpa using h
      rw [declarations, if_pos hnew]
  | leaf name => cases h
  | glob => cases h
  | group trees trailing => cases h

theorem declarations_filter_givesName (parent : List String)
    (ts : List UseTree) :
    treesDeclarations parent (ts.filter givesName) =
      treesDeclarations parent ts := by
  induction ts with
  | nil => rfl
  | cons t rest ih =>
      cases ht : t.givesName with
      | true =>
          rw [List.filter_cons_of_pos ht, treesDeclarations, ih,
            treesDeclarations]
      | false =>
          rw [List.filter_cons_of_neg (by simp [ht]), ih, treesDeclarations,
            declarations_of_not_givesName ht, List.nil_append]

end UseTree

namespace ScopeStack

/-- An import tree, in which the word `self` is a leaf only behind a name, makes
of any stack what the flat imports of its leaves make of it, one after the other
from left to right.  Those of them that are renamed to an underscore may as well
be left out. -/
theorem declareItem_flat (s : ScopeStack) {t : UseTree}
    (hself : t.selfHasName [] = true) (attrs : List Attr)
    (before : List Token) (absolute : Bool) :
    let item := fun u => Item.mk attrs (.imports before absolute u)
    (forall u, u ∈ t.flat [] -> u.isFlat = true) ∧
      s.declareItem (item t) = s.declareItems ((t.flat []).map item) ∧
      s.declareItem (item t) =
        s.declareItems (((t.flat []).filter UseTree.givesName).map item) := by
  intro item
  have htree : s.declareItem (item t) =
      s.declareAll (treesDeclarations [] (t.flat [])) := by
    rw [UseTree.declarations_flat hself, declareItem_eq]
    rfl
  refine ⟨UseTree.isFlat_of_mem_flat hself, ?_, ?_⟩
  · rw [declareItems_trees, htree]
  · rw [declareItems_trees, UseTree.declarations_filter_givesName, htree]

/-- A tree with groups in groups, in which a later leaf goes through the name
that an earlier one gives. -/
theorem declareItem_flat_groups :
    let s := root (SimplePath.mk true [.plain "deferred"]).toPath
    let item := fun u => Item.mk [] (.imports [] false u)
    let name := Ident.plain
    let t := UseTree.group
      [.path (name "deferred") (.group
          [.rename (name "self") (name "rt"), .rename (name "x") (name "_")]
          false),
        .path (name "rt") (.group [.rename (name "defer") (name "later"),
          .path (name "inner") (.group [.leaf (name "self"), .glob] true)]
          false)] true
    let flat := [UseTree.rename (name "deferred") (name "rt"),
      .path (name "deferred") (.rename (name "x") (name "_")),
      .path (name "rt") (.rename (name "defer") (name "later")),
      .path (name "rt") (.leaf (name "inner")),
      .path (name "rt") (.path (name "inner") .glob)]
    t.selfHasName [] = true ∧
      s.declareItem (item t) = s.declareItems (flat.map item) ∧
      (s.declareItem (item t)).resolve (.mk false [.mk (name "later") []]) =
        .sentinel := by
  intro s item name t flat
  have hself : t.selfHasName [] = true := by decide
  have hflat := declareItem_flat s hself [] [] false
  exact ⟨hself, hflat.2.1, by decide⟩

end ScopeStack

end ScopeExit
