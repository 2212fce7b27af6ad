import ScopeExit.Guarding.Tree
import ScopeExit.Proofs.Changes

/-!
# Importing the attribute

The attribute has the name of the crate that it is in.  Its import, which names
an attribute and nothing else, is recorded like that of an item, and so the
crate is no longer reached by its name.  Only the path to the sentinel is lost in
this way, and no other path comes to mean the sentinel.
-/

namespace ScopeExit

/-!
## Leaving the import out
-/

/-- Whether some import trees below a path become others when one leaf is left
out that imports the attribute under its own name.  A tree that consists of
nothing else goes with it. -/
inductive DropsAttribute :
    List String -> List UseTree -> List UseTree -> Prop where
  | leaf {parent : List String} {name : Ident} {rest : List UseTree}
      (hparent : parent = [expansionName])
      (hname : name.name = expansionName) :
      DropsAttribute parent (.leaf name :: rest) rest
  | whole {parent : List String} {name : Ident} {t : UseTree}
      {rest : List UseTree}
      (h : DropsAttribute (parent ++ [name.name]) [t] []) :
      DropsAttribute parent (.path name t :: rest) rest
  | path {parent : List String} {name : Ident} {t u : UseTree}
      {rest : List UseTree}
      (h : DropsAttribute (parent ++ [name.name]) [t] [u]) :
      DropsAttribute parent (.path name t :: rest) (.path name u :: rest)
  | group {parent : List String} {ts us rest : List UseTree}
      {trailing trailing' : Bool} (h : DropsAttribute parent ts us) :
      DropsAttribute parent (.group ts trailing :: rest)
        (.group us trailing' :: rest)
  | behind {parent : List String} {t : UseTree} {ts us : List UseTree}
      (h : DropsAttribute parent ts us) :
      DropsAttribute parent (t :: ts) (t :: us)

/-- The declaration that the leaf makes. -/
def attributeImport : Declaration :=
  .imported expansionName [expansionName, expansionName]

theorem declarations_leaf_attribute {name : Ident}
    (h : name.name = expansionName) :
    (UseTree.leaf name).declarations [expansionName] =
      [attributeImport] := by
  have hword : name.isWord "self" = false := by
    rw [Ident.isWord, h]
    simp [expansionName]
  simp [UseTree.declarations, ScopeStack.leafName?, ScopeStack.leafPath,
    hword, h, attributeImport]

/-- Leaving the leaf out takes one declaration away. -/
theorem DropsAttribute.declarations {parent : List String}
    {ts us : List UseTree} (h : DropsAttribute parent ts us) :
    exists front back,
      treesDeclarations parent ts = front ++ attributeImport :: back ∧
        treesDeclarations parent us = front ++ back := by
  induction h with
  | leaf hparent hname =>
      rename_i rest
      rw [hparent]
      refine ⟨[], treesDeclarations [expansionName] rest, ?_, rfl⟩
      rw [treesDeclarations, declarations_leaf_attribute hname]
      rfl
  | whole h ih =>
      rename_i parent name t rest
      rcases ih with ⟨front, back, hts, hus⟩
      rcases List.append_eq_nil_iff.mp hus.symm with ⟨hfront, hback⟩
      refine ⟨[], treesDeclarations parent rest, ?_, rfl⟩
      rw [hfront, hback] at hts
      rw [treesDeclarations, treesDeclarations, List.append_nil] at hts
      rw [treesDeclarations, UseTree.declarations, hts]
      rfl
  | path h ih =>
      rename_i parent name t u rest
      rcases ih with ⟨front, back, hts, hus⟩
      refine ⟨front, back ++ treesDeclarations parent rest, ?_, ?_⟩
      · rw [treesDeclarations, treesDeclarations, List.append_nil] at hts
        rw [treesDeclarations, UseTree.declarations, hts, List.append_assoc]
        rfl
      · rw [treesDeclarations, treesDeclarations, List.append_nil] at hus
        rw [treesDeclarations, UseTree.declarations, hus, List.append_assoc]
  | group h ih =>
      rename_i parent ts us rest trailing trailing'
      rcases ih with ⟨front, back, hts, hus⟩
      refine ⟨front, back ++ treesDeclarations parent rest, ?_, ?_⟩
      · rw [treesDeclarations, UseTree.declarations, hts, List.append_assoc]
        rfl
      · rw [treesDeclarations, UseTree.declarations, hus, List.append_assoc]
  | behind h ih =>
      rename_i parent t ts us
      rcases ih with ⟨front, back, hts, hus⟩
      refine ⟨t.declarations parent ++ front, back, ?_, ?_⟩
      · rw [treesDeclarations, hts, List.append_assoc]
      · rw [treesDeclarations, hus, List.append_assoc]

/-!
## A name that is hidden
-/

namespace Likeness

/-- Scopes that hold the same, except that the first may hold an item for the
name. -/
def covering (name : String) : Likeness where
  rel other a b := a = b ∨ other = name ∧ a = some .item
  refl _ _ := Or.inl rfl
  weak := by
    rintro other a b r (heq | ⟨hname, hitem⟩)
    · exact Or.inl (by rw [heq])
    · exact Or.inr ⟨hname, by rw [hitem]; rfl⟩

theorem eq_of_covering {name other : String} (h : other ≠ name)
    (a b : Option Referent) (hrel : (covering name).rel other a b) : a = b := by
  rcases hrel with heq | ⟨hname, _⟩
  · exact heq
  · exact absurd hname h

theorem isHidden_covering (name : String) :
    (covering name).IsHidden [name] := by
  intro other hother
  apply eq_of_covering
  intro heq
  exact hother (by rw [heq])

end Likeness

namespace ScopeStack

theorem lookupIn_covering {name : String} {fs gs : List Frame}
    (h : List.Forall₂ (Frame.Alike (.covering name)) fs gs)
    (typesOnly past : Bool) :
    lookupIn name typesOnly past fs = lookupIn name typesOnly past gs ∨
      lookupIn name typesOnly past fs = some .item := by
  induction h generalizing past with
  | nil => exact Or.inl rfl
  | cons hfg hrest ih =>
      rename_i f g fs gs
      rcases hfg.get? name with heq | ⟨_, hitem⟩
      · simp only [lookupIn, heq, hfg.barrier]
        cases g.get? name with
        | none => exact ih _
        | some r =>
            by_cases hr : r = .localVar && (typesOnly || past)
            · simp only [hr, if_true]
              exact ih _
            · simp only [hr]
              exact Or.inl rfl
      · right
        simp [lookupIn, hitem]

variable {s t : ScopeStack}

theorem Alike.of_bind_item (s : ScopeStack) (name : String) :
    (s.bind name .item).Alike (.covering name) s := by
  refine ⟨rfl, ⟨rfl, ?_⟩, (Alike.refl _ s).outer⟩
  intro other
  simp only [ScopeStack.bind, Frame.get?_bind]
  by_cases h : other = name
  · exact Or.inr ⟨h, if_pos h⟩
  · exact Or.inl (if_neg h)

theorem meant_of_runtime_singleton {name : String}
    (hruntime : t.runtime = [name]) (found : Option Referent)
    (second : String) (rest : List String) :
    t.meant found name (second :: rest) = .item ∨
      t.meant found name (second :: rest) = .sentinel ∧
        name :: second :: rest = [name, sentinelName] := by
  have hclassify : t.classify (name :: second :: rest) = .item ∨
      t.classify (name :: second :: rest) = .sentinel ∧
        name :: second :: rest = [name, sentinelName] := by
    unfold classify
    rw [hruntime]
    by_cases hrest : second :: rest = [sentinelName]
    · right
      simp [hrest]
    · left
      simp [hrest]
  cases found with
  | none => exact hclassify
  | some r =>
      cases r with
      | runtime =>
          simp only [meant, hruntime]
          exact hclassify
      | _ => exact Or.inl rfl

/-- If the name that is covered is that of the runtime, a longer path means the
same in both stacks, or it is the path to the sentinel and means an item in the
first one. -/
theorem Alike.resolve_covering {name : String}
    (h : s.Alike (.covering name) t) (hruntime : s.runtime = [name])
    {path : Path} (hpath : 2 ≤ path.names.length) :
    s.resolve path = t.resolve path ∨
      path.isAbsolute = false ∧ path.names = [name, sentinelName] ∧
        s.resolve path = .item ∧ t.resolve path = .sentinel := by
  unfold ScopeStack.resolve
  cases path.isAbsolute with
  | true => exact Or.inl (classify_congr h.runtime path.names)
  | false =>
      match path.names, hpath with
      | first :: second :: rest, _ =>
          rw [if_neg Bool.false_ne_true, if_neg Bool.false_ne_true,
            resolveNames_of_second, resolveNames_of_second,
            meant_congr h.runtime]
          by_cases hfirst : first = name
          · rw [hfirst]
            have hlookup :
                s.lookup name true = t.lookup name true ∨
                  s.lookup name true = some .item :=
              lookupIn_covering (.cons h.top h.outer) true false
            rcases hlookup with heq | hitem
            · rw [heq]
              exact Or.inl rfl
            · rw [hitem]
              have ht : t.runtime = [name] := h.runtime.symm.trans hruntime
              rcases meant_of_runtime_singleton ht (t.lookup name true)
                second rest with hmeant | ⟨hmeant, hnames⟩
              · exact Or.inl hmeant.symm
              · exact Or.inr ⟨rfl, hnames, rfl, hmeant⟩
          · rw [h.lookup (Likeness.eq_of_covering hfirst)]
            exact Or.inl rfl

/-!
## What the import costs
-/

theorem importReferent_attribute (hruntime : s.runtime = [expansionName]) :
    s.importReferent [expansionName, expansionName] = .item := by
  rw [importReferent_cons, classify, classify, hruntime]
  simp [expansionName, sentinelName]

theorem resolve_bind_item (s : ScopeStack) {name : String} {path : Path}
    (habsolute : path.isAbsolute = false)
    (hhead : path.names.head? = some name) :
    (s.bind name .item).resolve path = .item := by
  rcases List.head?_eq_some_iff.mp hhead with ⟨rest, hnames⟩
  rw [resolve, habsolute, hnames]
  change (s.bind name .item).resolveNames (name :: rest) = .item
  cases rest with
  | nil =>
      rw [resolveNames, lookup_bind_self s _ (by simp)]
      rfl
  | cons second rest =>
      rw [resolveNames_of_second, lookup_bind_self s _ (by simp)]
      rfl

theorem alike_of_dropsAttribute {ts us : List UseTree}
    (h : DropsAttribute [] ts us)
    (hruntime : s.runtime = [expansionName]) :
    (s.declareAll (treesDeclarations [] ts)).Alike (.covering expansionName)
      (s.declareAll (treesDeclarations [] us)) := by
  rcases h.declarations with ⟨front, back, hts, hus⟩
  rw [hts, hus, declareAll_append, declareAll_append, declareAll_cons]
  have hfront : (s.declareAll front).runtime = [expansionName] := by
    rw [runtime_declareAll, hruntime]
  have hbind : (s.declareAll front).declare attributeImport =
      (s.declareAll front).bind expansionName .item := by
    rw [attributeImport, declare, bindImport,
      importReferent_attribute hfront]
  rw [hbind]
  apply (Alike.of_bind_item _ expansionName).declareAll
  change Likeness.IsHidden _ (s.declareAll front).runtime
  rw [hfront]
  exact Likeness.isHidden_covering expansionName

/-- Whatever happens behind the import, and whatever else is imported with it, a
path of two or more segments means the same as without it; or it is the path to
the sentinel by the name of the crate, which then is that of an item.  An import
of the attribute alone has this effect at once. -/
theorem resolve_behind_attribute_import {s : ScopeStack}
    (hruntime : s.runtime = [expansionName]) {t : UseTree}
    {us : List UseTree} (hdrops : DropsAttribute [] [t] us)
    (attrs : List Attr) (before : List Token) (absolute : Bool)
    {path : Path} (hpath : 2 ≤ path.names.length) :
    let declared := fun ts : List UseTree =>
      s.declareItems (ts.map fun t => .mk attrs (.imports before absolute t))
    (forall cs : List Change,
      let imported := (declared [t]).changes cs
      let leftOut := (declared us).changes cs
      imported.resolve path = leftOut.resolve path ∨
        path.isAbsolute = false ∧
          path.names = [expansionName, sentinelName] ∧
            imported.resolve path = .item ∧
              leftOut.resolve path = .sentinel) ∧
      (us = [] -> path.isAbsolute = false ->
        path.names.head? = some expansionName ->
          (declared [t]).resolve path = .item) := by
  intro declared
  have hdeclared : forall ts,
      declared ts = s.declareAll (treesDeclarations [] ts) :=
    fun ts => declareItems_trees s attrs before absolute ts
  constructor
  · intro cs imported leftOut
    have halike : (declared [t]).Alike (.covering expansionName)
        (declared us) := by
      rw [hdeclared, hdeclared]
      exact alike_of_dropsAttribute hdrops hruntime
    have hdeclaredRuntime : (declared [t]).runtime = [expansionName] := by
      rw [hdeclared, runtime_declareAll, hruntime]
    have hchanged : imported.Alike (.covering expansionName) leftOut := by
      apply halike.changes
      rw [hdeclaredRuntime]
      exact Likeness.isHidden_covering expansionName
    apply hchanged.resolve_covering _ hpath
    rw [runtime_changes, hdeclaredRuntime]
  · intro hus habsolute hhead
    rcases hdrops.declarations with ⟨front, back, hts, hleft⟩
    rw [hus] at hleft
    rcases List.append_eq_nil_iff.mp hleft.symm with ⟨hfront, hback⟩
    rw [hdeclared, hts, hfront, hback]
    change ((s.declare attributeImport).resolve path) = .item
    rw [attributeImport, declare, bindImport,
      importReferent_attribute hruntime]
    exact resolve_bind_item s habsolute hhead

/-- A module that imports the sentinel and the attribute, and a path from the
root of all crates in one of its functions. -/
theorem resolve_absolute_behind_both_imports :
    let s := (root (SimplePath.mk true [.plain "deferred"]).toPath).changes
      [.pushBarrier]
    let imports := fun leaves : List UseTree =>
      UseTree.path (.plain "deferred") (.group leaves false)
    let declared := fun t : UseTree =>
      (s.declareItems [.mk [] (.imports [] false t)]).changes
        [.pushBarrier, .push]
    let path := (SimplePath.mk true [.plain "deferred", .plain "defer"]).toPath
    s.runtime = [expansionName] ∧
      DropsAttribute []
        [imports [.leaf (.plain "defer"), .leaf (.plain "deferred")]]
        [imports [.leaf (.plain "defer")]] ∧
      2 ≤ path.names.length ∧
      (declared
          (imports [.leaf (.plain "defer"), .leaf (.plain "deferred")])).resolve
          path =
        (declared (imports [.leaf (.plain "defer")])).resolve path := by
  intro s imports declared path
  have hruntime : s.runtime = [expansionName] := rfl
  have hdrops : DropsAttribute []
      [imports [.leaf (.plain "defer"), .leaf (.plain "deferred")]]
      [imports [.leaf (.plain "defer")]] :=
    .path (.group (.behind (.leaf rfl rfl)))
  have hpath : 2 ≤ path.names.length := by decide
  refine ⟨hruntime, hdrops, hpath, ?_⟩
  have h := (resolve_behind_attribute_import hruntime hdrops [] [] false
    hpath).1 [.pushBarrier, .push]
  rcases h with heq | ⟨habsolute, _⟩
  · exact heq
  · cases habsolute

/-- The same module, and the path that begins with the name of the crate. -/
theorem resolve_behind_both_imports :
    let s := (root (SimplePath.mk true [.plain "deferred"]).toPath).changes
      [.pushBarrier]
    let declared := fun leaves : List UseTree =>
      (s.declareItems [.mk [] (.imports [] false
        (.path (.plain "deferred") (.group leaves false)))]).changes
          [.pushBarrier, .push]
    let path :=
      (SimplePath.mk false [.plain "deferred", .plain "defer"]).toPath
    (declared [.leaf (.plain "defer"), .leaf (.plain "deferred")]).resolve
        path = .item ∧
      (declared [.leaf (.plain "defer")]).resolve path = .sentinel := by
  decide

end ScopeStack

end ScopeExit
