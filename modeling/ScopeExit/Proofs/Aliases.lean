import ScopeExit.Guarding.Block
import ScopeExit.Proofs.Changes

/-!
# Imports under a new name

An import under a new name should mean what the imported path means, and what
follows the new name should mean what follows the path.  Two ways of reading a
path have to agree for that: the one of callees, and the one of imports, which
asks only whether the first name is one of the runtime crate, drops the colons in
front, and records nothing but the sentinel and the runtime itself.
-/

namespace ScopeExit

/-- The import tree `parent::last as newName`. -/
def UseTree.renaming (parent : List Ident) (last newName : Ident) :
    UseTree :=
  parent.foldr .path (.rename last newName)

theorem UseTree.declarations_renaming {last newName : Ident}
    (hlast : last.isWord "self" = false)
    (hnew : newName.isWord "_" = false) (parent : List Ident)
    (above : List String) :
    (UseTree.renaming parent last newName).declarations above =
      [.imported newName.name
        (above ++ (parent ++ [last]).map Ident.name)] := by
  change ((UseTree.rename last newName).behind parent).declarations above = _
  rw [UseTree.declarations_behind, UseTree.declarations, hnew,
    ScopeStack.leafPath, hlast, List.map_append, ← List.append_assoc]
  rfl

namespace ScopeStack

/-!
## Paths that imports misread
-/

/-- Whether the import of a path is taken for something else than the path.

- The path spells out the runtime or the sentinel, but another item has taken
  its first name.
- The path is a single name that is already one of the sentinel.
- The path begins at the root of all crates, and its first name is also one that
  the runtime has here.
- The path leads only part of the way to the runtime. -/
inductive Misreads (s : ScopeStack) : Bool -> List String -> Prop where
  | shadowed {first : String} {rest : List String} {r : Referent}
      (hfound : s.lookup first true = some r) (hr : r ≠ .runtime)
      (hpath : first :: rest = s.runtime ∨
        first :: rest = s.runtime ++ [sentinelName]) :
      Misreads s false (first :: rest)
  | again {name : String} (hfound : s.lookup name true = some .sentinel) :
      Misreads s false [name]
  | rooted {first : String} {rest : List String}
      (hfound : s.lookup first true = some .runtime)
      (hfirst : s.runtime ≠ [first])
      (hpath : rest = [] ∨ rest = [sentinelName] ∨
        exists more, first :: rest ++ more = s.runtime ++ [sentinelName]) :
      Misreads s true (first :: rest)
  | within {absolute : Bool} {first : String} {rest more : List String}
      (hfound : absolute = true ∨ s.lookup first true = none)
      (hmore : more ≠ []) (hpath : s.runtime = first :: rest ++ more) :
      Misreads s absolute (first :: rest)

/-!
## What the two ways of reading give
-/

theorem append_eq_sentinel_iff (s : ScopeStack) (path q : List String) :
    path ++ q = s.runtime ++ [sentinelName] ↔
      path = s.runtime ++ [sentinelName] ∧ q = [] ∨
        exists more, s.runtime = path ++ more ∧
          q = more ++ [sentinelName] := by
  constructor
  · intro h
    rcases List.append_eq_append_iff.mp h with
      ⟨more, hruntime, hq⟩ | ⟨more, hpath, hq⟩
    · exact Or.inr ⟨more, hruntime, hq⟩
    · cases more with
      | nil =>
          right
          refine ⟨[], ?_, hq.symm⟩
          rw [List.append_nil, hpath, List.append_nil]
      | cons name rest =>
          left
          have hcons := List.cons.inj hq
          rcases List.append_eq_nil_iff.mp hcons.2.symm with ⟨hrest, hnil⟩
          rw [hpath, hrest, hcons.1]
          exact ⟨rfl, hnil⟩
  · rintro (⟨hpath, hq⟩ | ⟨more, hruntime, hq⟩)
    · rw [hpath, hq, List.append_nil]
    · rw [hruntime, hq, List.append_assoc]

theorem meant_alias_eq_sentinel_iff {s : ScopeStack}
    (hruntime : s.runtime ≠ []) (path : List String) (newName : String)
    (q : List String) :
    s.meant (some (s.importReferent path)) newName q = .sentinel ↔
      s.canonical path = s.runtime ++ [sentinelName] ∧ q = [] ∨
        s.canonical path = s.runtime ∧ q = [sentinelName] := by
  rw [meant_eq_sentinel_iff hruntime, importReferent,
    Option.some.injEq, Option.some.injEq, classify_eq_sentinel_iff,
    classify_eq_runtime_iff]
  simp [or_comm]

theorem canonical_of_lookup {s : ScopeStack} {first : String}
    (h : s.lookup first true = some .runtime) (rest : List String) :
    s.canonical (first :: rest) = s.runtime ++ rest := by
  rw [canonical, if_pos h]

theorem canonical_of_lookup_ne {s : ScopeStack} {first : String}
    (h : s.lookup first true ≠ some .runtime) (rest : List String) :
    s.canonical (first :: rest) = first :: rest := by
  rw [canonical, if_neg h]

/-!
## One case after the other

What follows a path is `q`.  In each case the left side says when the sentinel
is reached through the alias, and the right side when it is reached by the path.
-/

/-- No import is misread whose first name is one of the runtime crate. -/
theorem alias_of_runtime (ρ rest q : List String) :
    (ρ ++ rest = ρ ++ [sentinelName] ∧ q = [] ∨
        ρ ++ rest = ρ ∧ q = [sentinelName]) ↔
      rest ++ q = [sentinelName] := by
  rw [List.append_cancel_left_eq, List.append_right_eq_self,
    List.append_eq_singleton_iff]
  constructor
  · rintro (⟨hrest, hq⟩ | ⟨hrest, hq⟩)
    · exact Or.inr ⟨hrest, hq⟩
    · exact Or.inl ⟨hrest, hq⟩
  · rintro (⟨hrest, hq⟩ | ⟨hrest, hq⟩)
    · exact Or.inr ⟨hrest, hq⟩
    · exact Or.inl ⟨hrest, hq⟩

/-- Where the import reads the path as it stands, it is right about a path to
the root of all crates, unless that leads part of the way to the runtime. -/
theorem alias_as_it_stands_iff (s : ScopeStack) (path : List String) :
    (forall q, path = s.runtime ++ [sentinelName] ∧ q = [] ∨
          path = s.runtime ∧ q = [sentinelName] ↔
        path ++ q = s.runtime ++ [sentinelName]) ↔
      ¬ exists more, more ≠ [] ∧ s.runtime = path ++ more := by
  constructor
  · rintro h ⟨more, hmore, hpath⟩
    have hq := (h (more ++ [sentinelName])).mpr
      (by rw [hpath, List.append_assoc])
    rcases hq with ⟨_, hnil⟩ | ⟨_, hone⟩
    · simp at hnil
    · simp [hmore] at hone
  · intro h q
    rw [append_eq_sentinel_iff]
    constructor
    · rintro (hsentinel | ⟨hpath, hq⟩)
      · exact Or.inl hsentinel
      · exact Or.inr ⟨[], by rw [hpath, List.append_nil], hq⟩
    · rintro (hsentinel | ⟨more, hpath, hq⟩)
      · exact Or.inl hsentinel
      · right
        by_cases hmore : more = []
        · rw [hmore] at hpath hq
          exact ⟨by rw [hpath, List.append_nil], hq⟩
        · exact absurd ⟨more, hmore, hpath⟩ h

/-- Where another item has taken the first name, no longer path leads to the
sentinel, but the import reads the path as it stands. -/
theorem alias_of_item_iff (s : ScopeStack) (path : List String)
    (again : Prop) (hagain : again ->
      path ≠ s.runtime ++ [sentinelName]) :
    (forall q, path = s.runtime ++ [sentinelName] ∧ q = [] ∨
          path = s.runtime ∧ q = [sentinelName] ↔ again ∧ q = []) ↔
      ¬ (path = s.runtime ∨ path = s.runtime ++ [sentinelName] ∨ again) := by
  constructor
  · rintro h (hpath | hpath | hpath)
    · have hq := (h [sentinelName]).mp (Or.inr ⟨hpath, rfl⟩)
      cases hq.2
    · have hq := (h []).mp (Or.inl ⟨hpath, rfl⟩)
      exact hagain hq.1 hpath
    · rcases (h []).mpr ⟨hpath, rfl⟩ with ⟨hsentinel, _⟩ | ⟨_, hnil⟩
      · exact hagain hpath hsentinel
      · cases hnil
  · intro h q
    constructor
    · rintro (⟨hpath, _⟩ | ⟨hpath, _⟩)
      · exact absurd (Or.inr (Or.inl hpath)) h
      · exact absurd (Or.inl hpath) h
    · rintro ⟨hpath, _⟩
      exact absurd (Or.inr (Or.inr hpath)) h

/-- Where the import takes the first name for one of the runtime crate, but the
path begins at the root of all crates. -/
theorem alias_from_root_iff (s : ScopeStack) {first : String}
    (hfirst : s.runtime ≠ [first]) (rest : List String) :
    (forall q, s.runtime ++ rest = s.runtime ++ [sentinelName] ∧ q = [] ∨
          s.runtime ++ rest = s.runtime ∧ q = [sentinelName] ↔
        first :: rest ++ q = s.runtime ++ [sentinelName]) ↔
      ¬ (rest = [] ∨ rest = [sentinelName] ∨
        exists more, first :: rest ++ more =
          s.runtime ++ [sentinelName]) := by
  have hspelled : first :: [sentinelName] ≠ s.runtime ++ [sentinelName] := by
    intro h
    have hsame : [first] ++ [sentinelName] = s.runtime ++ [sentinelName] := h
    exact hfirst (List.append_cancel_right hsame).symm
  have halias := alias_of_runtime s.runtime rest
  constructor
  · intro h
    have hleads : forall q, rest ++ q = [sentinelName] -> False := by
      intro q hq
      have hpath := (h q).mp ((halias q).mpr hq)
      rw [List.cons_append, hq] at hpath
      exact hspelled hpath
    rintro (hrest | hrest | ⟨more, hmore⟩)
    · exact hleads [sentinelName] (by rw [hrest]; rfl)
    · exact hleads [] (by rw [hrest]; rfl)
    · exact hleads more ((halias more).mp ((h more).mpr hmore))
  · intro h q
    rw [halias]
    constructor
    · intro hq
      rcases List.append_eq_singleton_iff.mp hq with
        ⟨hrest, _⟩ | ⟨hrest, _⟩
      · exact absurd (Or.inl hrest) h
      · exact absurd (Or.inr (Or.inl hrest)) h
    · intro hq
      exact absurd (Or.inr (Or.inr ⟨q, hq⟩)) h

theorem misreads_absolute_iff (s : ScopeStack) (first : String)
    (rest : List String) :
    (forall q, s.canonical (first :: rest) =
            s.runtime ++ [sentinelName] ∧ q = [] ∨
          s.canonical (first :: rest) = s.runtime ∧ q = [sentinelName] ↔
        first :: rest ++ q = s.runtime ++ [sentinelName]) ↔
      ¬ s.Misreads true (first :: rest) := by
  by_cases hrooted : s.lookup first true = some .runtime ∧
      s.runtime ≠ [first]
  · rcases hrooted with ⟨hfound, hfirst⟩
    rw [canonical_of_lookup hfound, s.alias_from_root_iff hfirst]
    apply not_congr
    constructor
    · intro h
      exact .rooted hfound hfirst h
    · intro h
      cases h with
      | rooted _ _ hpath => exact hpath
      | @within _ _ _ more _ _ hpath =>
          right
          right
          exists more ++ [sentinelName]
          rw [hpath, List.append_assoc]
  · have hstands : s.canonical (first :: rest) = first :: rest := by
      by_cases hfound : s.lookup first true = some .runtime
      · have hfirst : s.runtime = [first] := by
          by_contra hne
          exact hrooted ⟨hfound, hne⟩
        rw [canonical_of_lookup hfound, hfirst]
        rfl
      · exact canonical_of_lookup_ne hfound rest
    rw [hstands, s.alias_as_it_stands_iff]
    apply not_congr
    constructor
    · rintro ⟨more, hmore, hpath⟩
      exact .within (Or.inl rfl) hmore hpath
    · intro h
      cases h with
      | rooted hfound hfirst _ => exact absurd ⟨hfound, hfirst⟩ hrooted
      | within _ hmore hpath => exact ⟨_, hmore, hpath⟩

theorem misreads_unfound_iff {s : ScopeStack} {first : String}
    (hfound : s.lookup first true = none) (rest : List String) :
    s.Misreads false (first :: rest) ↔
      exists more, more ≠ [] ∧ s.runtime = first :: rest ++ more := by
  constructor
  · intro h
    cases h with
    | shadowed hsome _ _ => simp [hfound] at hsome
    | again hsome => simp [hfound] at hsome
    | within _ hmore hpath => exact ⟨_, hmore, hpath⟩
  · rintro ⟨more, hmore, hpath⟩
    exact .within (Or.inr hfound) hmore hpath

theorem not_misreads_runtime {s : ScopeStack} {first : String}
    (hfound : s.lookup first true = some .runtime) (rest : List String) :
    ¬ s.Misreads false (first :: rest) := by
  intro h
  cases h with
  | shadowed hsome hne _ =>
      rw [hfound] at hsome
      exact hne (Option.some.inj hsome).symm
  | again hsome => simp [hfound] at hsome
  | within habsent _ _ => simp [hfound] at habsent

theorem misreads_found_iff {s : ScopeStack} {first : String}
    {r : Referent} (hfound : s.lookup first true = some r)
    (hr : r ≠ .runtime) (rest : List String) :
    s.Misreads false (first :: rest) ↔
      first :: rest = s.runtime ∨
        first :: rest = s.runtime ++ [sentinelName] ∨
          r = .sentinel ∧ rest = [] := by
  constructor
  · intro h
    cases h with
    | shadowed _ _ hpath =>
        rcases hpath with hpath | hpath
        · exact Or.inl hpath
        · exact Or.inr (Or.inl hpath)
    | again hsome =>
        rw [hfound] at hsome
        exact Or.inr (Or.inr ⟨Option.some.inj hsome, rfl⟩)
    | within habsent _ _ => simp [hfound] at habsent
  · rintro (hpath | hpath | ⟨hsentinel, hrest⟩)
    · exact .shadowed hfound hr (Or.inl hpath)
    · exact .shadowed hfound hr (Or.inr hpath)
    · rw [hsentinel] at hfound
      rw [hrest]
      exact .again hfound

theorem misreads_relative_iff {s : ScopeStack} (hruntime : s.runtime ≠ [])
    (first : String) (rest : List String) :
    (forall q, s.canonical (first :: rest) =
            s.runtime ++ [sentinelName] ∧ q = [] ∨
          s.canonical (first :: rest) = s.runtime ∧ q = [sentinelName] ↔
        s.meant (s.lookup first true) first (rest ++ q) = .sentinel) ↔
      ¬ s.Misreads false (first :: rest) := by
  simp only [meant_eq_sentinel_iff hruntime]
  cases hfound : s.lookup first true with
  | none =>
      have hne : s.lookup first true ≠ some .runtime := by simp [hfound]
      simp only [canonical_of_lookup_ne hne, reduceCtorEq, false_and,
        false_or, true_and]
      rw [misreads_unfound_iff hfound]
      exact s.alias_as_it_stands_iff (first :: rest)
  | some r =>
      by_cases hr : r = .runtime
      · rw [hr] at hfound
        simp only [canonical_of_lookup hfound, hr, true_and, reduceCtorEq,
          false_and, or_false, Option.some.injEq]
        constructor
        · intro _
          exact not_misreads_runtime hfound rest
        · intro _ q
          exact alias_of_runtime s.runtime rest q
      · have hne : s.lookup first true ≠ some .runtime := by
          simp [hfound, hr]
        have hagain : r = .sentinel ∧ rest = [] ->
            first :: rest ≠ s.runtime ++ [sentinelName] := by
          rintro ⟨_, hrest⟩ hpath
          rw [hrest] at hpath
          have hlength := congrArg List.length hpath
          simp [hruntime] at hlength
        simp only [canonical_of_lookup_ne hne, Option.some.injEq, hr,
          reduceCtorEq, false_and, or_false, false_or,
          List.append_eq_nil_iff, ← and_assoc]
        rw [misreads_found_iff hfound hr]
        exact s.alias_of_item_iff (first :: rest) _ hagain

/-!
## The alias and the path
-/

theorem importReferent_entered {s entered : ScopeStack}
    (h : entered = s.push ∨ entered = s.pushBarrier) (path : List String) :
    entered.importReferent path = s.importReferent path := by
  rcases h with h | h
  · rw [h]
    exact importReferent_congr rfl fun _ _ _ => Or.inr Iff.rfl
  · rw [h]
    apply importReferent_congr
    · rfl
    · intro first rest _
      right
      rw [lookup_pushBarrier]

theorem resolve_alias {s entered : ScopeStack}
    (hentered : entered = s.push ∨ entered = s.pushBarrier)
    {parent : List Ident} {last newName : Ident}
    (hlast : last.isWord "self" = false)
    (hnew : newName.isWord "_" = false) (attrs : List Attr)
    (before : List Token) (absolute : Bool) (args : List Part)
    (q : List Segment) :
    (entered.declareItem (.mk attrs (.imports before absolute
        (.renaming parent last newName)))).resolve
          (.mk false (.mk newName args :: q)) =
      s.meant (some (s.importReferent ((parent ++ [last]).map Ident.name)))
        newName.name (q.map fun x => x.name.name) := by
  rw [declareItem_eq, Item.declarations,
    UseTree.declarations_renaming hlast hnew]
  change (entered.bind newName.name
    (entered.importReferent ((parent ++ [last]).map Ident.name))).resolveNames
      (newName.name :: q.map fun x => x.name.name) = _
  rw [importReferent_entered hentered]
  have hlocal : s.importReferent ((parent ++ [last]).map Ident.name) ≠
      .localVar := classify_ne_localVar s _
  have hruntime : entered.runtime = s.runtime := by
    rcases hentered with h | h <;> rw [h] <;> rfl
  cases q with
  | nil =>
      simp only [List.map_nil, resolveNames, meant]
      rw [lookup_bind_self _ _ hlocal]
  | cons second rest =>
      rw [List.map_cons, resolveNames_of_second,
        lookup_bind_self _ _ hlocal]
      apply meant_congr
      exact hruntime

theorem names_extend_toPath (p : SimplePath) (q : List Segment) :
    (p.toPath.extend q).names =
      p.segments.map Ident.name ++ q.map fun x => x.name.name := by
  simp [SimplePath.toPath, Path.extend, Path.names, Segment.name,
    Function.comp_def]

theorem resolve_extend_absolute (s : ScopeStack) (segments : List Ident)
    (q : List Segment) :
    s.resolve ((SimplePath.mk true segments).toPath.extend q) = .sentinel ↔
      segments.map Ident.name ++ q.map (fun x => x.name.name) =
        s.runtime ++ [sentinelName] := by
  change s.classify _ = .sentinel ↔ _
  rw [names_extend_toPath, classify_eq_sentinel_iff]

theorem resolve_extend_relative {s : ScopeStack} {segments : List Ident}
    {first : String} {rest : List String}
    (hnames : segments.map Ident.name = first :: rest)
    (hlocal : s.resolve (SimplePath.mk false segments).toPath ≠ .localVar)
    (q : List Segment) :
    s.resolve ((SimplePath.mk false segments).toPath.extend q) =
      s.meant (s.lookup first true) first
        (rest ++ q.map fun x => x.name.name) := by
  have hplain : (SimplePath.mk false segments).toPath.names =
      first :: rest := by
    rw [← hnames]
    simp [SimplePath.toPath, Path.names, Segment.name, Function.comp_def]
  change s.resolveNames _ = _
  change s.resolveNames _ ≠ .localVar at hlocal
  rw [hplain] at hlocal
  rw [names_extend_toPath, hnames, List.cons_append, resolveNames_eq_meant]
  by_cases hmore : rest ++ q.map (fun x => x.name.name) = []
  · rcases List.append_eq_nil_iff.mp hmore with ⟨hrest, _⟩
    rw [hmore]
    rw [hrest] at hlocal
    exact Or.inl hlocal
  · exact Or.inr hmore

theorem forall_segments_iff {p : List String -> Prop} :
    (forall (_ : List Part) (q : List Segment),
        p (q.map fun x => x.name.name)) ↔ forall q, p q := by
  constructor
  · intro h q
    have hq := h [] (q.map fun x => .mk (.plain x) [])
    simpa [Segment.name, Ident.plain, Function.comp_def] using hq
  · intro h _ q
    exact h _

/-- In a new scope that declares a path under a new name, the new name with
anything behind it leads to the sentinel exactly when the path does with the same
behind it, if and only if the path is none of those that imports misread. -/
theorem resolve_alias_iff {s entered : ScopeStack}
    (hruntime : s.runtime ≠ [])
    (hentered : entered = s.push ∨ entered = s.pushBarrier)
    {absolute : Bool} {parent : List Ident} {last newName : Ident}
    (hlast : last.isWord "self" = false)
    (hnew : newName.isWord "_" = false)
    (hlocal : s.resolve (SimplePath.mk absolute (parent ++ [last])).toPath ≠
      .localVar) (attrs : List Attr) (before : List Token) :
    let path := (SimplePath.mk absolute (parent ++ [last])).toPath
    let declared := entered.declareItem (.mk attrs
      (.imports before absolute (.renaming parent last newName)))
    (forall (args : List Part) (q : List Segment),
      declared.resolve (.mk false (.mk newName args :: q)) = .sentinel ↔
        s.resolve (path.extend q) = .sentinel) ↔
      ¬ s.Misreads absolute ((parent ++ [last]).map Ident.name) := by
  intro path declared
  have hne : (parent ++ [last]).map Ident.name ≠ [] := by simp
  rcases List.exists_cons_of_ne_nil hne with ⟨first, rest, hnames⟩
  have halias : forall (args : List Part) (q : List Segment),
      declared.resolve (.mk false (.mk newName args :: q)) =
        s.meant (some (s.importReferent (first :: rest))) newName.name
          (q.map fun x => x.name.name) := by
    intro args q
    rw [← hnames]
    exact resolve_alias hentered hlast hnew attrs before absolute args q
  simp only [halias, meant_alias_eq_sentinel_iff hruntime, hnames]
  cases absolute with
  | true =>
      rw [← misreads_absolute_iff, ← forall_segments_iff]
      simp only [path, resolve_extend_absolute, hnames]
  | false =>
      rw [← misreads_relative_iff hruntime, ← forall_segments_iff]
      simp only [path, resolve_extend_relative hnames hlocal]

/-- An alias of the sentinel that is reached through an alias of the runtime. -/
theorem resolve_alias_behind_alias :
    let s := (root (SimplePath.mk true [.plain "deferred"]).toPath).changes
      [.pushBarrier, .push, .declareItems [.mk [] (.imports [] false
        (.rename (.plain "deferred") (.plain "rt")))]]
    let path := (SimplePath.mk false [.plain "rt", .plain "defer"]).toPath
    let declared := s.push.declareItem (.mk [] (.imports [] false
      (.renaming [.plain "rt"] (.plain "defer") (.plain "later"))))
    s.runtime ≠ [] ∧ s.resolve path ≠ .localVar ∧
      ¬ s.Misreads false ["rt", "defer"] ∧
      s.resolve path = .sentinel ∧
      declared.resolve (.mk false [.mk (.plain "later") []]) =
        .sentinel := by
  intro s path declared
  have hruntime : s.runtime ≠ [] := by decide
  have hlocal : s.resolve path ≠ .localVar := by decide
  have hfound : s.lookup "rt" true = some .runtime := by decide
  have hread : ¬ s.Misreads false ["rt", "defer"] :=
    not_misreads_runtime hfound ["defer"]
  have hpath : s.resolve path = .sentinel := by decide
  have hiff := @resolve_alias_iff s s.push hruntime (Or.inl rfl) false
    [.plain "rt"] (.plain "defer") (.plain "later") rfl rfl hlocal [] []
  exact ⟨hruntime, hlocal, hread, hpath,
    (hiff.mpr hread [] []).mpr hpath⟩

/-- Where a module has the name of the crate, the path to the sentinel is one to
an item of that module, but its alias is taken for the sentinel. -/
theorem resolve_alias_of_shadowed_crate :
    let s := (root (SimplePath.mk true [.plain "deferred"]).toPath).changes
      [.pushBarrier, .push,
        .declareItems [.mk [] (.module [] (.plain "deferred") [])]]
    let declared := s.push.declareItem (.mk [] (.imports [] false
      (.renaming [.plain "deferred"] (.plain "defer") (.plain "later"))))
    s.resolve (SimplePath.mk false
        [.plain "deferred", .plain "defer"]).toPath = .item ∧
      declared.resolve (.mk false [.mk (.plain "later") []]) =
        .sentinel := by
  decide

end ScopeStack

end ScopeExit
