import ScopeExit.Grammar.Entry
import ScopeExit.Guarding.Block

/-!
# Reading what has been written

A reader gives back what was written if it is followed through step by step: at
each test it is known what comes next.  What stands behind the text is left
alone, provided that it cannot be taken for more of it.
-/

namespace ScopeExit

namespace Reader

variable {α β : Type}

/-!
## One step at a time
-/

theorem bind_some {r : Reader α} {ts rest : List TokenTree} {a : α}
    (h : r ts = some (a, rest)) (f : α -> Reader β) :
    (r >>= f) ts = f a rest := by
  change (r ts).bind (fun p => f p.1 p.2) = f a rest
  rw [h]
  rfl

theorem bind_none {r : Reader α} {ts : List TokenTree} (h : r ts = none)
    (f : α -> Reader β) : (r >>= f) ts = none := by
  change (r ts).bind (fun p => f p.1 p.2) = none
  rw [h]
  rfl

theorem next_bind (test : List TokenTree -> Bool) (f : Bool -> Reader β)
    (ts : List TokenTree) : (next test >>= f) ts = f (test ts) ts := rfl

theorem get_bind (f : List TokenTree -> Reader β) (ts : List TokenTree) :
    (get >>= f) ts = f ts ts := rfl

theorem position_bind (f : Position -> Reader β) (ts : List TokenTree) :
    (position >>= f) ts =
      f ((ts.head?.map TokenTree.position).getD .origin) ts := rfl

theorem pure_run (a : α) (ts : List TokenTree) :
    (pure a : Reader α) ts = some (a, ts) := rfl

theorem require_bind {condition : Bool} (h : condition = true)
    (f : Unit -> Reader β) (ts : List TokenTree) :
    (require condition >>= f) ts = f () ts := by
  rw [h]
  rfl

theorem when_of {test : List TokenTree -> Bool} {ts : List TokenTree}
    (h : test ts = true) (r : Reader (List α)) :
    Reader.when test r ts = r ts := by
  rw [Reader.when, next_bind, h]
  rfl

theorem whileFuel_of {test : List TokenTree -> Bool} {r : Reader α}
    {ts rest left : List TokenTree} {a : α} {as : List α} {fuel : Nat}
    (htest : test ts = true) (h : r ts = some (a, rest))
    (hrest : whileFuel test r fuel rest = some (as, left)) :
    whileFuel test r (fuel + 1) ts = some (a :: as, left) := by
  rw [whileFuel, next_bind, htest, if_pos rfl, bind_some h,
    bind_some hrest]
  rfl

theorem whileFuel_of_not {test : List TokenTree -> Bool} (r : Reader α)
    {ts : List TokenTree} (htest : test ts = false) (fuel : Nat) :
    whileFuel test r (fuel + 1) ts = some ([], ts) := by
  rw [whileFuel, next_bind, htest]
  rfl

theorem whileNext_of_not {test : List TokenTree -> Bool} (r : Reader α)
    {ts : List TokenTree} (htest : test ts = false) :
    whileNext test r ts = some ([], ts) := by
  rw [whileNext, get_bind]
  exact whileFuel_of_not r htest _

end Reader

/-!
## Paths

A path is written with its segments and their separators.  What stands behind
it must not be another separator, nor the exclamation mark of a macro or the
brace of a structure.
-/

namespace Ident

theorem isWord_of_isPathSegment {i : Ident} (h : i.isPathSegment = true)
    {w : String} (hreserved : reserved.contains w = true)
    (hword : pathWords.contains w = false) : i.isWord w = false := by
  cases hw : i.isWord w with
  | false => rfl
  | true =>
      rw [isWord, Bool.and_eq_true, beq_iff_eq] at hw
      rw [isPathSegment, isReserved, hw.1, hw.2, hreserved, hword] at h
      cases h

def tree (i : Ident) : TokenTree := .leaf (.ident i) .origin false

end Ident

namespace SimplePath

def separatorTrees : List TokenTree :=
  [.leaf (.punct ':') .origin true, .leaf (.punct ':') .origin false]

/-- Segments as token trees, each behind a separator; the first one only if
`led`. -/
def segmentTrees (led : Bool) : List Ident -> List TokenTree
  | [] => []
  | i :: rest =>
      (if led then separatorTrees else []) ++ i.tree :: segmentTrees true rest

def trees (p : SimplePath) : List TokenTree :=
  segmentTrees p.absolute p.segments

theorem flatten_segmentTrees (led : Bool) (is : List Ident) :
    TokenTree.flatten (segmentTrees led is) =
      segmentsTokens led (is.map fun i => .mk i []) := by
  induction is generalizing led with
  | nil => rfl
  | cons i rest ih =>
      rw [List.map_cons, segmentsTokens, ← ih true, segmentTrees]
      cases led <;> rfl

theorem length_le_segmentTrees (led : Bool) (is : List Ident) :
    is.length ≤ (segmentTrees led is).length := by
  induction is generalizing led with
  | nil => exact Nat.le_refl _
  | cons i rest ih =>
      have hrest := ih true
      rw [segmentTrees, List.length_append, List.length_cons, List.length_cons]
      omega

theorem flatten_trees (p : SimplePath) :
    TokenTree.flatten p.trees = p.toPath.tokens :=
  flatten_segmentTrees p.absolute p.segments

end SimplePath

namespace Grammar

open Reader

structure EndsPath (ts : List TokenTree) : Prop where
  separator : Next.isOp "::" ts = false
  bang : Next.isBang ts = false
  brace : Next.isGroup .brace ts = false
  hash : Next.isOp "#" ts = false

theorem isTurbofish_segmentTrees (led : Bool) (is : List Ident)
    {rest : List TokenTree} (h : Next.isOp "::" rest = false) :
    isTurbofish (SimplePath.segmentTrees led is ++ rest) = false := by
  cases is with
  | nil =>
      simp [SimplePath.segmentTrees, isTurbofish, h]
  | cons i more =>
      cases led <;> rfl

theorem isReserved_of_isPathSegment {i : Ident}
    (h : i.isPathSegment = true)
    (hwords : Next.isWordIn ["super", "self", "crate", "try"] [i.tree] =
      false)
    (hself : Next.isWord "Self" [i.tree] = false) :
    i.isReserved = false := by
  cases hreserved : i.isReserved with
  | false => rfl
  | true =>
      rw [Ident.isPathSegment, hreserved] at h
      rw [Ident.isReserved, Bool.and_eq_true, Bool.not_eq_true'] at hreserved
      simp [Ident.pathWords] at h
      simp [Next.isWordIn, Next.isWord, Ident.tree, Ident.isWord,
        hreserved.1] at hwords hself
      rcases h with h | h | h | h <;> simp [h] at hwords hself

theorem segment_of (g : Grammar) {i : Ident} (hi : i.isPathSegment = true)
    {rest : List TokenTree} (hrest : isTurbofish rest = false) :
    segment g false (i.tree :: rest) = some (.mk i [], rest) := by
  have hend : (do
      let ts ← get
      if (false && Next.isOp "<" ts && !Next.isOpIn ["<=", "<<="] ts) ||
          isTurbofish ts then
        return Segment.mk i (← g.genericArgs)
      else return Segment.mk i [] : Reader Segment) rest =
        some (.mk i [], rest) := by
    rw [get_bind, hrest]
    rfl
  rw [segment, next_bind]
  cases hwords : Next.isWordIn ["super", "self", "crate", "try"]
      (i.tree :: rest) with
  | true => rfl
  | false =>
      rw [if_neg (by simp), next_bind]
      cases hself : Next.isWord "Self" (i.tree :: rest) with
      | true => exact hend
      | false =>
          have hreserved := isReserved_of_isPathSegment hi hwords hself
          have hident : ident (i.tree :: rest) = some (i, rest) := by
            simp [ident, Ident.tree, hreserved]
          dsimp only
          rw [if_neg (by simp), bind_some hident]
          exact hend

theorem isMoreSegments_of_not {ts : List TokenTree}
    (h : Next.isOp "::" ts = false) : isMoreSegments ts = false := by
  rw [isMoreSegments, h]
  rfl

theorem moreSegments_fuel (g : Grammar) {is : List Ident}
    (his : forall i, i ∈ is -> i.isPathSegment = true)
    {rest : List TokenTree} (hrest : Next.isOp "::" rest = false)
    {fuel : Nat} (hfuel : is.length < fuel) :
    whileFuel isMoreSegments (do
        let _ ← op "::"
        segment g false) fuel
          (SimplePath.segmentTrees true is ++ rest) =
      some (is.map fun i => .mk i [], rest) := by
  induction is generalizing fuel with
  | nil =>
      rcases Nat.exists_eq_add_one_of_ne_zero (Nat.ne_of_gt hfuel) with
        ⟨n, hn⟩
      rw [hn]
      exact whileFuel_of_not _ (isMoreSegments_of_not hrest) n
  | cons i more ih =>
      rcases Nat.exists_eq_add_one_of_ne_zero (Nat.ne_zero_of_lt hfuel) with
        ⟨n, hn⟩
      rw [hn] at hfuel ⊢
      have hmore : forall j, j ∈ more -> j.isPathSegment = true := by
        intro j hj
        exact his j (List.mem_cons_of_mem i hj)
      have hsegment : (do
          let _ ← op "::"
          segment g false)
            (SimplePath.segmentTrees true (i :: more) ++ rest) =
              some (.mk i [], SimplePath.segmentTrees true more ++ rest) :=
        segment_of g (his i List.mem_cons_self)
          (isTurbofish_segmentTrees true more hrest)
      exact whileFuel_of rfl hsegment (ih hmore (Nat.lt_of_succ_lt_succ hfuel))

theorem moreSegments_of (g : Grammar) {is : List Ident}
    (his : forall i, i ∈ is -> i.isPathSegment = true)
    {rest : List TokenTree} (hrest : Next.isOp "::" rest = false) :
    moreSegments g false (SimplePath.segmentTrees true is ++ rest) =
      some (is.map fun i => .mk i [], rest) := by
  have hlength := SimplePath.length_le_segmentTrees true is
  rw [moreSegments, whileNext, get_bind]
  apply moreSegments_fuel g his hrest
  rw [List.length_append]
  omega

theorem path_of (g : Grammar) (absolute : Bool) {i : Ident}
    {more : List Ident}
    (hall : forall j, j ∈ i :: more -> j.isPathSegment = true)
    {rest : List TokenTree} (hrest : Next.isOp "::" rest = false) :
    path g false ((SimplePath.mk absolute (i :: more)).trees ++ rest) =
      some (⟨[], absolute, (i :: more).map fun i => .mk i []⟩, rest) := by
  have hfirst := segment_of g (hall i List.mem_cons_self)
    (isTurbofish_segmentTrees true more hrest)
  have hmore := moreSegments_of g
    (fun j hj => hall j (List.mem_cons_of_mem i hj)) hrest
  have hled : (do
      let first ← segment g false
      return PathSyntax.mk [] absolute (first :: (← moreSegments g false)))
        (i.tree :: (SimplePath.segmentTrees true more ++ rest)) =
          some (⟨[], absolute, (i :: more).map fun i => .mk i []⟩, rest) := by
    rw [bind_some hfirst, bind_some hmore]
    rfl
  cases absolute with
  | true => exact hled
  | false => exact hled

theorem toSimple?_plain (absolute : Bool) (is : List Ident) :
    (PathSyntax.mk [] absolute (is.map fun i => .mk i [])).toSimple? =
      some ⟨absolute, is⟩ := by
  have hnames : (is.map fun i => Segment.mk i []).map Segment.name = is := by
    rw [List.map_map]
    exact List.map_id is
  simp [PathSyntax.toSimple?, PathSyntax.isPlain, hnames]

theorem pathExpr_of (g : Grammar) (allowStruct : Bool) {p : SimplePath}
    (hne : p.segments ≠ [])
    (hall : forall i, i ∈ p.segments -> i.isPathSegment = true)
    {rest : List TokenTree} (hrest : EndsPath rest) :
    pathExpr g allowStruct (p.trees ++ rest) =
      some (.ofKind (.path p.toPath), rest) := by
  rcases p with ⟨absolute, segments⟩
  cases segments with
  | nil => exact absurd rfl hne
  | cons i more =>
      rw [pathExpr, bind_some (path_of g absolute hall hrest.separator),
        get_bind, toSimple?_plain]
      simp only [hrest.bang, hrest.brace, Bool.and_false, Bool.false_eq_true,
        if_false]
      rfl

theorem isOp_hash_segmentTrees {is : List Ident} {rest : List TokenTree}
    (h : Next.isOp "#" rest = false) :
    Next.isOp "#" (SimplePath.segmentTrees true is ++ rest) = false := by
  cases is with
  | nil => exact h
  | cons i more => rfl

/-- A name that may be a segment of a path begins no other expression. -/
theorem atomExpr_of_pathSegment (g : Grammar) (allowStruct : Bool)
    {i : Ident} (hi : i.isPathSegment = true) {ts : List TokenTree}
    (hhash : Next.isOp "#" ts = false) :
    atomExpr g allowStruct (i.tree :: ts) =
      pathExpr g allowStruct (i.tree :: ts) := by
  have hword : forall w, Ident.reserved.contains w = true ->
      Ident.pathWords.contains w = false ->
        Next.isWord w (i.tree :: ts) = false := by
    intro w hreserved hwords
    exact Ident.isWord_of_isPathSegment hi hreserved hwords
  have hliteral : Next.isLiteral (i.tree :: ts) = false := by
    rw [Next.isLiteral, Next.isWordIn]
    simp only [List.any_cons, List.any_nil, hword "true" rfl rfl,
      hword "false" rfl rfl]
    rfl
  have hasync : isAsyncBlock (i.tree :: ts) = false := by
    rw [isAsyncBlock, hword "async" rfl rfl]
    rfl
  have hclosure : isClosure (i.tree :: ts) = false := by
    rw [isClosure, isForLifetimes, Next.isWordIn]
    simp only [List.any_cons, List.any_nil, hword "move" rfl rfl,
      hword "static" rfl rfl, hword "for" rfl rfl, hword "const" rfl rfl,
      hword "async" rfl rfl]
    rfl
  have hpath : isPathExpr (i.tree :: ts) = true := by
    have hsegment : Next.isPathSegment (i.tree :: ts) = true := hi
    rw [isPathExpr, isPathStart, hsegment]
    rfl
  rw [atomExpr, get_bind]
  simp only [hliteral, hasync, hword "try" rfl rfl, hclosure, hhash, hpath,
    List.drop_succ_cons, List.drop_zero, Bool.false_and, Bool.and_false,
    Bool.false_eq_true, if_false, if_true]

theorem atomExpr_of_path (g : Grammar) (allowStruct : Bool) {p : SimplePath}
    (hne : p.segments ≠ [])
    (hall : forall i, i ∈ p.segments -> i.isPathSegment = true)
    {rest : List TokenTree} (hrest : EndsPath rest) :
    atomExpr g allowStruct (p.trees ++ rest) =
      some (.ofKind (.path p.toPath), rest) := by
  rw [← pathExpr_of g allowStruct hne hall hrest]
  rcases p with ⟨absolute, segments⟩
  cases segments with
  | nil => exact absurd rfl hne
  | cons i more =>
      cases absolute with
      | true => rfl
      | false =>
          exact atomExpr_of_pathSegment g allowStruct
            (hall i List.mem_cons_self) (isOp_hash_segmentTrees hrest.hash)

/-!
## Expressions
-/

/-- No sign or attribute stands in front of an operand here. -/
structure BeginsOperand (ts : List TokenTree) : Prop where
  hash : Next.isOp "#" ts = false
  reference : Next.isOp "&" ts = false
  sign : Next.isOpIn ["*", "!", "-"] ts = false

theorem beginsOperand_trees {p : SimplePath} (hne : p.segments ≠ [])
    (rest : List TokenTree) : BeginsOperand (p.trees ++ rest) := by
  rcases p with ⟨absolute, segments⟩
  cases segments with
  | nil => exact absurd rfl hne
  | cons i more => cases absolute <;> exact ⟨rfl, rfl, rfl⟩

theorem readUnary_of (g : Grammar) (allowStruct : Bool)
    {ts mid rest : List TokenTree} (hts : BeginsOperand ts) {a e : Operand}
    (ha : atomExpr g allowStruct ts = some (a, mid))
    (he : trailers g a mid = some (e, rest)) :
    readUnary g allowStruct ts = some (e, rest) := by
  rw [readUnary, outerAttrs, bind_some (whileNext_of_not _ hts.hash),
    get_bind]
  simp only [hts.reference, hts.sign, Bool.false_eq_true, if_false]
  rw [bind_some ha, bind_some he]
  rcases e with ⟨⟨attrs, kind⟩, form⟩
  rfl

/-- Whether an expression ends here: the text does, or a comma or semicolon
comes next. -/
def endsExpression : List TokenTree -> Bool
  | [] => true
  | .leaf (.punct c) _ _ :: _ => c = ',' || c = ';'
  | _ => false

/-- Whether an operator begins neither with a comma nor with a semicolon. -/
def isInner (o : String) : Bool :=
  match o.toList with
  | [] => false
  | c :: _ => c ≠ ',' && c ≠ ';'

variable {ts : List TokenTree}

theorem isOp_of_ends (h : endsExpression ts = true) {o : String}
    (ho : isInner o = true) : Next.isOp o ts = false := by
  rw [Next.isOp]
  unfold isInner at ho
  split at ho
  · cases ho
  · rename_i c cs hchars
    rw [hchars]
    match ts with
    | [] => rfl
    | .leaf (.punct d) pos joint :: rest =>
        have hne : (c == d) = false := by
          simp [endsExpression] at h ho
          rcases h with h | h <;> simp [h, ho]
        simp [Next.isChars, hne]
    | .leaf (.ident _) _ _ :: _ => cases h
    | .leaf (.lifetime _) _ _ :: _ => cases h
    | .leaf (.literal _) _ _ :: _ => cases h
    | .group _ _ _ :: _ => cases h

theorem isGroup_of_ends (h : endsExpression ts = true) (d : Delimiter) :
    Next.isGroup d ts = false := by
  match ts with
  | [] => rfl
  | .leaf _ _ _ :: _ => rfl
  | .group _ _ _ :: _ => cases h

theorem isWord_of_ends (h : endsExpression ts = true) (w : String) :
    Next.isWord w ts = false := by
  match ts with
  | [] => rfl
  | .leaf (.ident _) _ _ :: _ => cases h
  | .leaf (.punct _) _ _ :: _ => rfl
  | .leaf (.lifetime _) _ _ :: _ => rfl
  | .leaf (.literal _) _ _ :: _ => rfl
  | .group _ _ _ :: _ => rfl

theorem endsPath_of_ends (h : endsExpression ts = true) : EndsPath ts where
  separator := isOp_of_ends h rfl
  bang := by
    rw [Next.isBang, isOp_of_ends h rfl]
    rfl
  brace := isGroup_of_ends h .brace
  hash := isOp_of_ends h rfl

theorem trailersFuel_of_ends (g : Grammar) (h : endsExpression ts = true)
    (fuel : Nat) (e : Operand) :
    trailersFuel g (fuel + 1) e ts = some (e, ts) := by
  have hdot : Next.isDot ts = false := by
    rw [Next.isDot, isOp_of_ends h rfl]
    rfl
  rw [trailersFuel, get_bind]
  simp only [isGroup_of_ends h, hdot, isOp_of_ends h (o := "?") rfl,
    Bool.false_and, Bool.false_eq_true, if_false]
  rfl

theorem nextOperator_of_ends (h : endsExpression ts = true) :
    nextOperator ts = none := by
  apply List.find?_eq_none.mpr
  have hinner : forall o, o ∈ binaryOperators -> isInner o.1 = true := by
    decide
  intro o ho
  simp [isOp_of_ends h (hinner o ho)]

theorem climbStep_of_ends (g : Grammar) (allowStruct : Bool)
    (h : endsExpression ts = true) (left : Operand) (base : Nat) :
    climbStep g allowStruct left base ts = some (none, ts) := by
  have hassign : isAssign ts = false := by
    rw [isAssign, isOp_of_ends h rfl]
    rfl
  rw [climbStep, get_bind]
  split
  · rfl
  · simp only [nextOperator_of_ends h, hassign, isOp_of_ends h (o := "..") rfl,
      isWord_of_ends h, Bool.and_false, Bool.false_eq_true, if_false]
    rfl

theorem readClimb_of_ends (g : Grammar) (allowStruct : Bool)
    (h : endsExpression ts = true) (left : Operand) (base : Nat) :
    readClimb g allowStruct left base ts = some (left, ts) := by
  rw [readClimb, get_bind, climbFuel,
    bind_some (climbStep_of_ends g allowStruct h left base)]
  rfl

/-- An operand that an expression ends behind is the whole expression. -/
theorem expr_of_readUnary (g : Grammar) (allowStruct : Bool)
    {rest : List TokenTree} {e : Operand}
    (he : readUnary g allowStruct ts = some (e, rest))
    (hrest : endsExpression rest = true) :
    (above g).expr allowStruct ts = some (e.expr, rest) := by
  rw [expr]
  change (readUnary g allowStruct >>= fun first => do
    return (← readClimb g allowStruct first 0).expr) ts = _
  rw [bind_some he, bind_some (readClimb_of_ends g allowStruct hrest e 0)]
  rfl

theorem expr_path (g : Grammar) (allowStruct : Bool) {p : SimplePath}
    (hne : p.segments ≠ [])
    (hall : forall i, i ∈ p.segments -> i.isPathSegment = true)
    {rest : List TokenTree} (hrest : endsExpression rest = true) :
    (above g).expr allowStruct (p.trees ++ rest) =
      some (.bare (.path p.toPath), rest) := by
  have hatom := atomExpr_of_path g allowStruct hne hall
    (endsPath_of_ends hrest)
  have hunary := readUnary_of g allowStruct (beginsOperand_trees hne rest)
    hatom (trailersFuel_of_ends g hrest rest.length _)
  exact expr_of_readUnary g allowStruct hunary hrest

end Grammar

end ScopeExit
