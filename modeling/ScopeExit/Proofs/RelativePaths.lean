import ScopeExit.Proofs.Changes
import ScopeExit.Proofs.Rewriting

/-!
# Relative paths

A path that begins with `self`, `super` or `crate` is read relative to a module,
and the crate of the sentinel is no such module.  So it must not be taken for the
sentinel.  What could go wrong is that one of these words becomes a name of the
runtime crate, as any other name may: some declarations do give a meaning to
them.  But only a leaf that is the word itself does that, and its path ends in
the word, as that of the runtime does not.
-/

namespace ScopeExit

def relativeWords : List String := ["self", "super", "crate"]

/-!
## New names

What stands behind the word `as` is an identifier or the underscore.  A reserved
word is an identifier only if it is written raw, and some words cannot be.  So
all imports that are read have new names in this sense.
-/

/-- Whether this can stand behind the word `as`. -/
def Ident.isNewName (i : Ident) : Bool :=
  i.isWord "_" ||
    !i.isReserved && !(i.raw && Lexer.neverRaw.contains i.name)

mutual

/-- Whether all that an import tree has behind the word `as` can stand there. -/
def UseTree.hasNewNames : UseTree -> Bool
  | .path _ rest => rest.hasNewNames
  | .leaf _ => true
  | .rename _ newName => newName.isNewName
  | .glob => true
  | .group trees _ => treesHaveNewNames trees

def treesHaveNewNames : List UseTree -> Bool
  | [] => true
  | t :: rest => t.hasNewNames && treesHaveNewNames rest

end

/-- Whether all that an item has behind the word `as`, if it is an import, can
stand there. -/
def Item.hasNewNames : Item -> Bool
  | .mk _ (.imports _ _ tree) => tree.hasNewNames
  | .mk _ (.externCrate _ _ newName) => newName.all Ident.isNewName
  | _ => true

/-- Whether a change declares only items that have such names. -/
def Change.hasNewNames : Change -> Bool
  | .declareStmts body => (ScopeStack.itemsOf body).all Item.hasNewNames
  | .declareItems items => items.all Item.hasNewNames
  | _ => true

theorem Ident.not_mem_of_isNewName {i : Ident} (h : i.isNewName = true) :
    i.name ∉ relativeWords := by
  intro hword
  have hcases : i.name = "self" ∨ i.name = "super" ∨ i.name = "crate" := by
    simpa [relativeWords] using hword
  unfold isNewName isWord isReserved at h
  cases i.raw <;> rcases hcases with hname | hname | hname <;>
    simp [hname, reserved, Lexer.neverRaw, pathWords] at h

/-!
## Single declarations
-/

/-- Whether a declaration gives a meaning to one of the words only if the word is
what is declared, that is, the last name of the path. -/
def Declaration.EndsInWord : Declaration -> Prop
  | .externCrate name source => name ∈ relativeWords -> name = source
  | .imported name path =>
      name ∈ relativeWords -> path.getLast? = some name
  | _ => True

mutual

theorem UseTree.endsInWord {t : UseTree} (h : t.hasNewNames = true)
    (parent : List String) :
    forall d, d ∈ t.declarations parent -> d.EndsInWord := by
  intro d hd
  cases t with
  | path name rest =>
      rw [UseTree.hasNewNames] at h
      rw [UseTree.declarations] at hd
      exact UseTree.endsInWord h _ d hd
  | leaf name =>
      rw [UseTree.declarations_leaf, Option.mem_toList] at hd
      rcases Option.map_eq_some_iff.mp hd with ⟨last, hlast, rfl⟩
      exact fun _ => hlast
  | rename name newName =>
      rw [UseTree.hasNewNames] at h
      rw [UseTree.declarations] at hd
      split at hd
      · cases hd
      · rw [List.mem_singleton] at hd
        rw [hd]
        exact fun hword => absurd hword (Ident.not_mem_of_isNewName h)
  | glob =>
      rw [UseTree.declarations, List.mem_singleton] at hd
      rw [hd]
      trivial
  | group trees trailing =>
      rw [UseTree.hasNewNames] at h
      rw [UseTree.declarations] at hd
      exact treesEndInWord h parent d hd

theorem treesEndInWord {ts : List UseTree}
    (h : treesHaveNewNames ts = true) (parent : List String) :
    forall d, d ∈ treesDeclarations parent ts -> d.EndsInWord := by
  intro d hd
  cases ts with
  | nil => cases hd
  | cons t rest =>
      rw [treesHaveNewNames, Bool.and_eq_true] at h
      rw [treesDeclarations, List.mem_append] at hd
      rcases hd with hd | hd
      · exact UseTree.endsInWord h.1 parent d hd
      · exact treesEndInWord h.2 parent d hd

end

theorem Item.endsInWord {i : Item} (h : i.hasNewNames = true) :
    forall d, d ∈ i.declarations -> d.EndsInWord := by
  intro d hd
  rcases i with ⟨attrs, kind⟩
  cases kind with
  | imports before absolute tree => exact UseTree.endsInWord h [] d hd
  | externCrate before name newName =>
      rw [declarations, List.mem_singleton] at hd
      rw [hd]
      cases newName with
      | none => exact fun _ => rfl
      | some alias_ =>
          exact fun hword => absurd hword (Ident.not_mem_of_isNewName h)
  | implementation header members => cases hd
  | other parts => cases hd
  | _ =>
      rw [List.mem_singleton.mp hd]
      trivial

theorem itemsEndInWord {items : List Item}
    (h : items.all Item.hasNewNames = true) :
    forall d, d ∈ itemsDeclarations items -> d.EndsInWord := by
  intro d hd
  rcases List.mem_flatMap.mp hd with ⟨i, hi, hd⟩
  exact Item.endsInWord (List.all_eq_true.mp h i hi) d hd

/-!
## What the words can be bound to
-/

/-- Whether a scope holds nothing but items and variables for the words. -/
def Frame.SparesWords (f : Frame) : Prop :=
  forall word r, word ∈ relativeWords -> f.get? word = some r ->
    r = .item ∨ r = .localVar

namespace Frame

variable {f : Frame}

theorem sparesWords_empty (barrier : Bool) :
    (Frame.empty barrier).SparesWords := by
  intro word r _ h
  cases h

theorem SparesWords.bind (h : f.SparesWords) {name : String} {r : Referent}
    (hnew : name ∈ relativeWords -> r = .item ∨ r = .localVar) :
    (f.bind name r).SparesWords := by
  intro word r' hword hget
  rw [get?_bind] at hget
  split at hget
  · next heq =>
    cases hget
    rw [heq] at hword
    exact hnew hword
  · exact h word r' hword hget

end Frame

namespace ScopeStack

/-- Whether all scopes hold nothing but items and variables for the words, and
the path of the runtime has none of them. -/
structure SparesWords (s : ScopeStack) : Prop where
  runtime_ne_nil : s.runtime ≠ []
  runtime : forall word, word ∈ relativeWords -> word ∉ s.runtime
  frames : forall f, f ∈ s.top :: s.outer -> f.SparesWords

variable {s : ScopeStack}

theorem lookupIn_of_sparesWords {fs : List Frame}
    (h : forall f, f ∈ fs -> f.SparesWords) {word : String}
    (hword : word ∈ relativeWords) {typesOnly past : Bool} {r : Referent}
    (hfound : lookupIn word typesOnly past fs = some r) :
    r = .item ∨ r = .localVar := by
  induction fs generalizing past with
  | nil => cases hfound
  | cons f rest ih =>
      have hinner : forall g, g ∈ rest -> g.SparesWords :=
        fun g hg => h g (List.mem_cons_of_mem f hg)
      rw [lookupIn] at hfound
      split at hfound
      · next old hget =>
        split at hfound
        · exact ih hinner hfound
        · cases hfound
          exact h f List.mem_cons_self word _ hword hget
      · exact ih hinner hfound

theorem SparesWords.lookup (h : s.SparesWords) {word : String}
    (hword : word ∈ relativeWords) {typesOnly : Bool} {r : Referent}
    (hfound : s.lookup word typesOnly = some r) :
    r = .item ∨ r = .localVar :=
  lookupIn_of_sparesWords h.frames hword hfound

theorem SparesWords.lookup_ne_runtime (h : s.SparesWords) {word : String}
    (hword : word ∈ relativeWords) (typesOnly : Bool) :
    s.lookup word typesOnly ≠ some .runtime := by
  intro hfound
  rcases h.lookup hword hfound with hr | hr <;> cases hr

theorem SparesWords.classify (h : s.SparesWords) {word : String}
    (hword : word ∈ relativeWords) {full : List String} (hfull : word ∈ full) :
    s.classify full = .item := by
  have hsentinel : word ≠ sentinelName := by
    rintro rfl
    simp [relativeWords, sentinelName] at hword
  have hruntime := h.runtime word hword
  rw [ScopeStack.classify, if_neg, if_neg]
  · rintro rfl
    exact hruntime hfull
  · rintro rfl
    simp [hruntime, hsentinel] at hfull

/-- Neither the import of a relative path nor one that gives a meaning to one of
the words brings in the runtime or the sentinel. -/
theorem SparesWords.importReferent (h : s.SparesWords) {word : String}
    (hword : word ∈ relativeWords) {path : List String}
    (hpath : path.head? = some word ∨ path.getLast? = some word) :
    s.importReferent path = .item := by
  cases path with
  | nil => rcases hpath with hnil | hnil <;> cases hnil
  | cons first rest =>
      have hmem : word ∈ first :: rest := by
        rcases hpath with hhead | hlast
        · cases hhead
          exact List.mem_cons_self
        · exact List.mem_of_getLast? hlast
      rw [importReferent_cons]
      split
      · next hfound =>
        -- The first name is replaced by the path of the runtime, so it is not the
        -- word, and the word is among those behind it.
        have hfirst : word ≠ first := by
          rintro rfl
          exact h.lookup_ne_runtime hword true hfound
        have hrest := (List.mem_cons.mp hmem).resolve_left hfirst
        exact h.classify hword (List.mem_append_right _ hrest)
      · exact h.classify hword hmem

/-!
## Changes
-/

theorem sparesWords_root {runtime : Path} (hnil : runtime.names ≠ [])
    (h : forall word, word ∈ relativeWords -> word ∉ runtime.names) :
    (root runtime).SparesWords where
  runtime_ne_nil := hnil
  runtime := h
  frames f hf := by
    rw [List.mem_singleton.mp hf]
    apply (Frame.sparesWords_empty false).bind
    intro hword
    simp [relativeWords, sentinelName] at hword

theorem SparesWords.push (h : s.SparesWords) : s.push.SparesWords where
  runtime_ne_nil := h.runtime_ne_nil
  runtime := h.runtime
  frames := List.forall_mem_cons.mpr ⟨Frame.sparesWords_empty _, h.frames⟩

theorem SparesWords.pushBarrier (h : s.SparesWords) :
    s.pushBarrier.SparesWords where
  runtime_ne_nil := h.runtime_ne_nil
  runtime := h.runtime
  frames := List.forall_mem_cons.mpr ⟨Frame.sparesWords_empty _, h.frames⟩

theorem SparesWords.pop (h : s.SparesWords) : s.pop.SparesWords := by
  rcases s with ⟨runtime, top, outer⟩
  cases outer with
  | nil => exact h
  | cons f rest =>
      exact ⟨h.runtime_ne_nil, h.runtime,
        fun g hg => h.frames g (List.mem_cons_of_mem top hg)⟩

theorem SparesWords.bind (h : s.SparesWords) {name : String} {r : Referent}
    (hnew : name ∈ relativeWords -> r = .item ∨ r = .localVar) :
    (s.bind name r).SparesWords where
  runtime_ne_nil := h.runtime_ne_nil
  runtime := h.runtime
  frames := by
    rcases List.forall_mem_cons.mp h.frames with ⟨htop, houter⟩
    exact List.forall_mem_cons.mpr ⟨htop.bind hnew, houter⟩

theorem SparesWords.bindLocals (h : s.SparesWords) (names : List String) :
    (s.bindLocals names).SparesWords := by
  induction names generalizing s with
  | nil => exact h
  | cons name rest ih => exact ih (h.bind fun _ => .inr rfl)

theorem SparesWords.bindGlob (h : s.SparesWords) (path : List String) :
    (s.bindGlob path).SparesWords := by
  rw [ScopeStack.bindGlob]
  split
  · rw [bindWeak, Frame.bindWeak]
    split
    · exact h
    · apply h.bind
      intro hword
      simp [relativeWords, sentinelName] at hword
  · exact h

theorem SparesWords.declare (h : s.SparesWords) {d : Declaration}
    (hd : d.EndsInWord) : (s.declare d).SparesWords := by
  cases d with
  | item name => exact h.bind fun _ => .inl rfl
  | externCrate name source =>
      -- Such a crate is not renamed, and then it is not that of the runtime.
      refine h.bind fun hword => .inl (if_neg ?_)
      intro hruntime
      apply h.runtime name hword
      rw [hruntime, hd hword]
      exact List.mem_singleton_self _
  | imported name path =>
      exact h.bind fun hword =>
        .inl (h.importReferent hword (.inr (hd hword)))
  | glob path => exact h.bindGlob path

theorem SparesWords.declareAll {ds : List Declaration} (h : s.SparesWords)
    (hds : forall d, d ∈ ds -> d.EndsInWord) :
    (s.declareAll ds).SparesWords := by
  induction ds generalizing s with
  | nil => exact h
  | cons d rest ih =>
      rcases List.forall_mem_cons.mp hds with ⟨hd, hrest⟩
      exact ih (h.declare hd) hrest

theorem SparesWords.declareItems {items : List Item} (h : s.SparesWords)
    (hitems : items.all Item.hasNewNames = true) :
    (s.declareItems items).SparesWords := by
  rw [declareItems_eq]
  exact h.declareAll (itemsEndInWord hitems)

theorem SparesWords.change {c : Change} (h : s.SparesWords)
    (hc : c.hasNewNames = true) : (s.change c).SparesWords := by
  cases c with
  | push => exact h.push
  | pushBarrier => exact h.pushBarrier
  | pop => exact h.pop
  | bindPat p => exact h.bindLocals p.binders
  | declareStmts body => exact h.declareItems hc
  | declareItems items => exact h.declareItems hc

theorem SparesWords.changes {cs : List Change} (h : s.SparesWords)
    (hcs : forall c, c ∈ cs -> c.hasNewNames = true) :
    (s.changes cs).SparesWords := by
  induction cs generalizing s with
  | nil => exact h
  | cons c rest ih =>
      rcases List.forall_mem_cons.mp hcs with ⟨hc, hrest⟩
      exact ih (h.change hc) hrest

/-!
## Relative paths
-/

theorem SparesWords.resolve (h : s.SparesWords) {word : String}
    (hword : word ∈ relativeWords) {path : Path}
    (hpath : path.names.head? = some word) :
    s.resolve path = .item ∨
      s.resolve path = .localVar ∧ path.names = [word] := by
  rcases List.head?_eq_some_iff.mp hpath with ⟨rest, hnames⟩
  have hclassify : s.classify (word :: rest) = .item :=
    h.classify hword List.mem_cons_self
  rw [ScopeStack.resolve, hnames]
  split
  · exact .inl hclassify
  · cases rest with
    | nil =>
        rw [resolveNames]
        cases hfound : s.lookup word false with
        | none => exact .inl rfl
        | some r =>
            rcases h.lookup hword hfound with rfl | rfl
            · exact .inl rfl
            · exact .inr ⟨rfl, rfl⟩
    | cons second rest =>
        left
        rw [resolveNames_of_second]
        cases hfound : s.lookup word true with
        | none => exact hclassify
        | some r =>
            rcases h.lookup hword hfound with rfl | rfl <;> rfl

/-- If the path of the runtime has none of the words that only lead to modules,
then no path that begins with such a word leads to the sentinel or the runtime,
in any stack that can be reached: it is that of an item, or the word alone and
then perhaps that of a variable.  And wherever something is imported by such a
path, the name that the import gives is that of an item. -/
theorem resolve_relative_path {args : List TokenTree} {runtime : SimplePath}
    (hruntime : Arguments.runtime args = .ok runtime)
    (hwords : forall i, i ∈ runtime.segments -> i.name ∉ Ident.pathWords)
    {cs : List Change} (hcs : forall c, c ∈ cs -> c.hasNewNames = true)
    {word : String} (hword : word ∈ relativeWords) :
    let s := (root runtime.toPath).changes cs
    (forall path : Path, path.names.head? = some word ->
        s.resolve path = .item ∨
          s.resolve path = .localVar ∧ path.names = [word]) ∧
      forall (items : List Item) front name path back,
        items.all Item.hasNewNames = true ->
          itemsDeclarations items = front ++ .imported name path :: back ->
            path.head? = some word ->
              (s.declareAll (front ++ [.imported name path])).top.get? name =
                some .item := by
  intro s
  have hnames : runtime.toPath.names = runtime.segments.map Ident.name := by
    simp [SimplePath.toPath, Path.names, Segment.name, Function.comp_def]
  have hroot : (root runtime.toPath).SparesWords := by
    apply sparesWords_root
    · rw [hnames]
      simpa using (Arguments.runtime_admitted hruntime).ne_nil
    · intro w hw hmem
      rw [hnames] at hmem
      rcases List.mem_map.mp hmem with ⟨i, hi, rfl⟩
      apply hwords i hi
      revert hw
      simp only [relativeWords, Ident.pathWords, List.mem_cons]
      tauto
  have hs : s.SparesWords := hroot.changes hcs
  refine ⟨fun path hpath => hs.resolve hword hpath, ?_⟩
  intro items front name path back hitems hds hpath
  have hfront : (s.declareAll front).SparesWords := by
    apply hs.declareAll
    intro d hd
    apply itemsEndInWord hitems
    rw [hds]
    exact List.mem_append_left _ hd
  rw [declareAll_append]
  change ((s.declareAll front).bind name
    ((s.declareAll front).importReferent path)).top.get? name = _
  rw [hfront.importReferent hword (.inl hpath), bind, Frame.get?_bind,
    if_pos rfl]

/-- Declarations that do give a meaning to the word `self`, among them that of a
crate of this name and that of a leaf below the runtime crate. -/
theorem resolve_relative_path_self :
    let name := Ident.plain
    let use_ := fun t => Item.mk [] (.imports [] false t)
    let rt := SimplePath.mk false [name "rt"]
    let items := [
      use_ (.group [.rename (name "rt") (name "a"),
        .path (name "a") (.group [.leaf (name "self"), .glob] false)] false),
      use_ (.path (name "self") (.group [.leaf (name "self")] true)),
      Item.mk [] (.externCrate [] (name "self") none)]
    let cs := [Change.push, .declareItems items, .pushBarrier,
      .bindPat (.binder [] (name "self") [])]
    let s := (root rt.toPath).changes cs
    let path := Path.mk false [.mk (name "self") [], .mk (name "defer") []]
    let again := use_ (.path (name "self") (.rename (name "defer") (name "b")))
    Arguments.runtime
        [.leaf (.ident (name "crate")) .origin false,
          .leaf (.punct '=') .origin false,
          .leaf (.literal "\"rt\"") .origin false] = .ok rt ∧
      (forall i, i ∈ rt.segments -> i.name ∉ Ident.pathWords) ∧
      (forall c, c ∈ cs -> c.hasNewNames = true) ∧
      "self" ∈ relativeWords ∧
      again.hasNewNames = true ∧
      (s.resolve path = .item ∨
        s.resolve path = .localVar ∧ path.names = ["self"]) ∧
      (s.declareItem again).top.get? "b" = some .item := by
  intro name use_ rt items cs s path again
  have hruntime : Arguments.runtime
      [.leaf (.ident (name "crate")) .origin false,
        .leaf (.punct '=') .origin false,
        .leaf (.literal "\"rt\"") .origin false] = .ok rt := by
    decide +kernel
  have hwords : forall i, i ∈ rt.segments -> i.name ∉ Ident.pathWords := by
    decide
  have hcs : forall c, c ∈ cs -> c.hasNewNames = true := by
    decide +kernel
  have hword : "self" ∈ relativeWords := by decide
  have hagain : again.hasNewNames = true := by decide +kernel
  have h := resolve_relative_path hruntime hwords hcs hword
  refine ⟨hruntime, hwords, hcs, hword, hagain, h.1 path rfl, ?_⟩
  exact h.2 [again] [] "b" ["self", "defer"] [] (by decide +kernel) rfl rfl

end ScopeStack

end ScopeExit
