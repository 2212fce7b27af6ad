import ScopeExit.Scope.Declare

/-!
# What paths refer to

What a path refers to is decided by what is found for its first name and by the
path of the runtime, and so is what an import of the path refers to.
-/

namespace ScopeExit

namespace ScopeStack

/-!
## Looking up behind a declaration
-/

theorem lookup_bind_of_ne (s : ScopeStack) {name other : String}
    (h : other ≠ name) (r : Referent) (typesOnly : Bool) :
    (s.bind name r).lookup other typesOnly = s.lookup other typesOnly := by
  simp only [lookup, lookupIn_cons, bind, Frame.get?_bind, if_neg h,
    Frame.barrier_bind]

theorem lookup_bind_self (s : ScopeStack) (name : String) {r : Referent}
    (h : r ≠ .localVar) (typesOnly : Bool) :
    (s.bind name r).lookup name typesOnly = some r := by
  simp [lookup, lookupIn_cons, bind, Frame.get?_bind, h]

theorem lookup_bindWeak_of_ne (s : ScopeStack) {name other : String}
    (h : other ≠ name) (r : Referent) (typesOnly : Bool) :
    (s.bindWeak name r).lookup other typesOnly =
      s.lookup other typesOnly := by
  simp only [lookup, lookupIn_cons, bindWeak, Frame.get?_bindWeak, if_neg h,
    Frame.barrier_bindWeak]

/-- A weak declaration of the sentinel does not make its name one of the runtime
crate. -/
theorem lookup_bindWeak_ne_runtime {s : ScopeStack}
    (h : s.lookup sentinelName true ≠ some .runtime) :
    (s.bindWeak sentinelName .sentinel).lookup sentinelName true ≠
      some .runtime := by
  unfold bindWeak Frame.bindWeak
  split
  · exact h
  · change (s.bind sentinelName .sentinel).lookup sentinelName true ≠ _
    rw [lookup_bind_self _ _ (by simp)]
    simp

/-!
## Past the boundary of an item
-/

theorem lookupIn_typesOnly (name : String) (past other : Bool)
    (fs : List Frame) :
    lookupIn name true past fs = lookupIn name true other fs := by
  induction fs generalizing past other with
  | nil => rfl
  | cons f rest ih =>
      simp only [lookupIn_cons, Bool.true_or]
      rw [ih (past || f.barrier) (other || f.barrier)]

theorem lookupIn_past (name : String) (typesOnly : Bool)
    (fs : List Frame) :
    lookupIn name typesOnly true fs = lookupIn name true true fs := by
  induction fs with
  | nil => rfl
  | cons f rest ih =>
      simp only [lookupIn_cons, Bool.or_true, Bool.true_or, ih]

theorem lookup_pushBarrier (s : ScopeStack) (name : String)
    (typesOnly : Bool) :
    s.pushBarrier.lookup name typesOnly = s.lookup name true := by
  change lookupIn name typesOnly true (s.top :: s.outer) =
    lookupIn name true false (s.top :: s.outer)
  rw [lookupIn_past, lookupIn_typesOnly]

theorem lookupIn_eq_typesOnly {name : String} {past : Bool}
    {fs : List Frame}
    (h : lookupIn name false past fs ≠ some .localVar) :
    lookupIn name false past fs = lookupIn name true past fs := by
  induction fs generalizing past with
  | nil => rfl
  | cons f rest ih =>
      simp only [lookupIn_cons] at h ⊢
      cases hget : f.get? name with
      | none =>
          rw [hget] at h
          exact ih h
      | some r =>
          rw [hget] at h
          by_cases hr : r = .localVar
          · cases past with
            | true =>
                simp only [hr] at h ⊢
                exact ih h
            | false => simp [hr] at h
          · simp [hr]

/-!
## Paths from the root of all crates
-/

theorem classify_eq_runtime_iff (s : ScopeStack) (full : List String) :
    s.classify full = .runtime ↔ full = s.runtime := by
  unfold classify
  constructor
  · intro h
    split at h
    · cases h
    · split at h
      · assumption
      · cases h
  · intro h
    have hne : s.runtime ≠ s.runtime ++ [sentinelName] := by simp
    rw [h, if_neg hne, if_pos rfl]

theorem classify_eq_sentinel_iff (s : ScopeStack) (full : List String) :
    s.classify full = .sentinel ↔ full = s.runtime ++ [sentinelName] := by
  unfold classify
  constructor
  · intro h
    split at h
    · assumption
    · split at h <;> cases h
  · intro h
    rw [if_pos h]

theorem classify_congr {s t : ScopeStack} (h : s.runtime = t.runtime)
    (full : List String) : s.classify full = t.classify full := by
  rw [classify, classify, h]

theorem classify_ne_localVar (s : ScopeStack) (full : List String) :
    s.classify full ≠ .localVar := by
  unfold classify
  split
  · simp
  · split <;> simp

/-!
## What the first name decides
-/

/-- What a path refers to, given what is found for its first name. -/
def meant (s : ScopeStack) (found : Option Referent) (first : String) :
    List String -> Referent
  | [] => found.getD .item
  | second :: rest =>
      match found with
      | some .runtime => s.classify (s.runtime ++ second :: rest)
      | some _ => .item
      | none => s.classify (first :: second :: rest)

theorem meant_congr {s t : ScopeStack} (h : s.runtime = t.runtime)
    (found : Option Referent) (first : String) (rest : List String) :
    s.meant found first rest = t.meant found first rest := by
  cases rest <;> simp only [meant, classify_congr h, h]

theorem resolveNames_of_second (s : ScopeStack) (first second : String)
    (rest : List String) :
    s.resolveNames (first :: second :: rest) =
      s.meant (s.lookup first true) first (second :: rest) := by
  cases hfound : s.lookup first true with
  | none => simp only [resolveNames, meant, hfound]
  | some r => cases r <;> simp only [resolveNames, meant, hfound]

theorem resolveNames_pushBarrier (s : ScopeStack) (first : String)
    (rest : List String) :
    s.pushBarrier.resolveNames (first :: rest) =
      s.meant (s.lookup first true) first rest := by
  cases rest with
  | nil => rw [resolveNames, lookup_pushBarrier, meant]
  | cons second rest =>
      rw [resolveNames_of_second, lookup_pushBarrier]
      exact meant_congr rfl _ _ _

theorem resolveNames_eq_meant {s : ScopeStack} {first : String}
    {rest : List String}
    (h : s.resolveNames (first :: rest) ≠ .localVar ∨ rest ≠ []) :
    s.resolveNames (first :: rest) =
      s.meant (s.lookup first true) first rest := by
  cases rest with
  | nil =>
      have hlocal : s.lookup first false ≠ some .localVar := by
        intro heq
        rcases h with h | h
        · exact h (by rw [resolveNames, heq]; rfl)
        · exact h rfl
      rw [resolveNames, meant]
      exact congrArg (fun found => found.getD .item)
        (lookupIn_eq_typesOnly hlocal)
  | cons second rest => exact resolveNames_of_second s first second rest

theorem resolve_of_names_singleton (s : ScopeStack) {path : Path}
    {name : String} (hrelative : path.isAbsolute = false)
    (hnames : path.names = [name]) :
    s.resolve path = (s.lookup name false).getD .item := by
  rw [resolve, hrelative, if_neg Bool.false_ne_true, hnames]
  rfl

/-- The boundary of an item makes no difference to a path that is that of no
variable. -/
theorem resolve_pushBarrier_of_ne_localVar {s : ScopeStack} {path : Path}
    (h : s.resolve path ≠ .localVar) :
    s.pushBarrier.resolve path = s.resolve path := by
  unfold resolve at h ⊢
  split
  · rfl
  · rename_i hrelative
    rw [if_neg hrelative] at h
    cases hnames : path.names with
    | nil => rfl
    | cons first rest =>
        rw [hnames] at h
        rw [resolveNames_pushBarrier, resolveNames_eq_meant (.inl h)]

/-- The boundary of an item makes no difference to a path that is longer than
one name. -/
theorem resolve_pushBarrier (s : ScopeStack) {path : Path}
    (h : 2 ≤ path.names.length) :
    s.pushBarrier.resolve path = s.resolve path := by
  unfold resolve
  split
  · rfl
  · match path.names, h with
    | first :: second :: rest, _ =>
        rw [resolveNames_pushBarrier, resolveNames_of_second]

theorem meant_eq_sentinel_iff {s : ScopeStack} (hruntime : s.runtime ≠ [])
    (found : Option Referent) (first : String) (rest : List String) :
    s.meant found first rest = .sentinel ↔
      found = some .runtime ∧ rest = [sentinelName] ∨
        found = some .sentinel ∧ rest = [] ∨
          found = none ∧
            first :: rest = s.runtime ++ [sentinelName] := by
  have hshort : [first] ≠ s.runtime ++ [sentinelName] := by
    intro h
    cases hs : s.runtime with
    | nil => exact hruntime hs
    | cons name more =>
        rw [hs] at h
        simp at h
  cases rest with
  | nil =>
      cases found with
      | none => simp [meant, hshort]
      | some r => cases r <;> simp [meant]
  | cons second rest =>
      cases found with
      | none => simp [meant, classify_eq_sentinel_iff]
      | some r =>
          cases r <;> simp [meant, classify_eq_sentinel_iff]

/-!
## What an import refers to

An import asks for one thing only: whether its first name is one of the runtime
crate.
-/

theorem importReferent_cons (s : ScopeStack) (first : String)
    (rest : List String) :
    s.importReferent (first :: rest) =
      if s.lookup first true = some .runtime then
        s.classify (s.runtime ++ rest)
      else s.classify (first :: rest) := by
  rw [importReferent, canonical]
  split <;> rfl

theorem bindGlob_eq (s : ScopeStack) (path : List String) :
    s.bindGlob path =
      if s.importReferent path = .runtime then
        s.bindWeak sentinelName .sentinel
      else s := by
  simp only [bindGlob, importReferent, classify_eq_runtime_iff]

/-- Two stacks with the same runtime import the same by a path, if its first
name belongs to the runtime crate in both or in neither. -/
theorem importReferent_congr {s t : ScopeStack}
    (hruntime : s.runtime = t.runtime) {path : List String}
    (h : forall first rest, path = first :: rest ->
      s.classify (s.runtime ++ rest) = s.classify (first :: rest) ∨
        (s.lookup first true = some .runtime ↔
          t.lookup first true = some .runtime)) :
    s.importReferent path = t.importReferent path := by
  have hclassify := classify_congr hruntime
  cases path with
  | nil => exact hclassify []
  | cons first rest =>
      rw [importReferent_cons, importReferent_cons, ← hclassify,
        ← hclassify, ← hruntime]
      rcases h first rest rfl with hsame | hlookup
      · rw [hsame, ite_self, ite_self]
      · simp only [hlookup]

end ScopeStack

end ScopeExit
