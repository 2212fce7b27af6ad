import ScopeExit.Proofs.Idempotence
import ScopeExit.Proofs.Operands

/-!
# The text of guards

A guard and the binding of a block's value are written around pieces of the
source, and the text is read again.  The pieces are taken to be read back as
they were; what is shown is that they are still read so where they are put, and
when they are not.
-/

namespace ScopeExit

open Reader

/-- Whether an attribute is written as these trees and read back from them. -/
def Attr.ReadsFrom (a : Attr) (ts : List TokenTree) : Prop :=
  TokenTree.flatten ts = a.tokens ∧
    forall n rest, 4 * a.tokens.length + 8 ≤ n ->
      Grammar.outerAttr (Grammar.level n) (ts ++ rest) = some (a, rest)

/-- Whether an expression is written as these trees and read back from them,
wherever it ends there. -/
def Expr.ReadsFrom (e : Expr) (ts : List TokenTree) : Prop :=
  TokenTree.flatten ts = e.tokens ∧
    forall n rest, 4 * e.tokens.length + 8 ≤ n ->
      Grammar.endsExpression rest = true ->
        (Grammar.level n).expr true (ts ++ rest) = some (e, rest)

def TokenTree.punct (c : Char) : TokenTree := .leaf (.punct c) .origin false

namespace Grammar

/-!
## Attributes
-/

theorem outerAttr_gives (g : Grammar) :
    (outerAttr g).Gives fun a => attrsTokens true [a] = [] := by
  refine gives_behind fun _ => gives_inside ?_
  refine gives_behind fun _ => gives_ite ?_ ?_
  · exact gives_behind fun _ => gives_behind fun _ => gives_pure rfl
  · exact gives_behind fun _ => gives_behind fun _ => gives_pure rfl

theorem isOp_of_outerAttr {g : Grammar} {ts rest : List TokenTree} {a : Attr}
    (h : outerAttr g ts = some (a, rest)) : Next.isOp "#" ts = true := by
  rcases exists_of_bind h with ⟨_, _, hop, _⟩
  unfold op at hop
  split at hop
  · next htrue => exact htrue
  · cases hop

theorem isOp_hash_of_readsFrom {a : Attr} {ts : List TokenTree}
    (h : a.ReadsFrom ts) (rest : List TokenTree) :
    Next.isOp "#" (ts ++ rest) = true :=
  isOp_of_outerAttr (h.2 (4 * a.tokens.length + 8) rest (Nat.le_refl _))

theorem attrsTokens_of_readsFrom {a : Attr} {ts : List TokenTree}
    (h : a.ReadsFrom ts) : attrsTokens true [a] = [] :=
  outerAttr_gives _ _ _ _ (h.2 (4 * a.tokens.length + 8) [] (Nat.le_refl _))

section

variable {attrs : List Attr} {trees : List (List TokenTree)}
    (h : List.Forall₂ Attr.ReadsFrom attrs trees)

include h

/-- Attributes that are read in front of something stand outside of it. -/
theorem attrsTokens_true_of_readsFrom : attrsTokens true attrs = [] := by
  induction h with
  | nil => rfl
  | cons ha _ ih =>
      have hhead := attrsTokens_of_readsFrom ha
      rw [← List.singleton_append, attrsTokens_append, hhead, ih]
      rfl

theorem length_le_of_readsFrom : trees.length ≤ trees.flatten.length := by
  induction h with
  | nil => exact Nat.le_refl _
  | @cons a ts _ more ha _ ih =>
      have hne : ts ≠ [] := by
        intro hnil
        have hhash := isOp_hash_of_readsFrom ha []
        rw [hnil] at hhash
        cases hhash
      have hpos := List.length_pos_iff.mpr hne
      rw [List.flatten_cons, List.length_append, List.length_cons]
      omega

theorem outerAttrs_fuel {n : Nat}
    (hn : 4 * (TokenTree.flatten trees.flatten).length + 8 ≤ n)
    {rest : List TokenTree} (hrest : Next.isOp "#" rest = false)
    {fuel : Nat} (hfuel : trees.length < fuel) :
    whileFuel (Next.isOp "#") (outerAttr (level n)) fuel
        (trees.flatten ++ rest) = some (attrs, rest) := by
  induction h generalizing fuel with
  | nil =>
      rcases Nat.exists_eq_add_one_of_ne_zero (Nat.ne_of_gt hfuel) with
        ⟨k, hk⟩
      rw [hk]
      exact whileFuel_of_not _ hrest k
  | @cons a ts _ more ha _ ih =>
      rcases Nat.exists_eq_add_one_of_ne_zero (Nat.ne_zero_of_lt hfuel) with
        ⟨k, hk⟩
      have hlength : (TokenTree.flatten (ts ++ more.flatten)).length =
          a.tokens.length + (TokenTree.flatten more.flatten).length := by
        rw [TokenTree.flatten_append, List.length_append, ha.1]
      rw [List.flatten_cons, hlength] at hn
      rw [List.length_cons, hk] at hfuel
      rw [hk, List.flatten_cons, List.append_assoc]
      have hfirst := ha.2 n (more.flatten ++ rest) (by omega)
      exact whileFuel_of (isOp_of_outerAttr hfirst) hfirst
        (ih (by omega) (by omega))

theorem outerAttrs_of_readsFrom {n : Nat}
    (hn : 4 * (TokenTree.flatten trees.flatten).length + 8 ≤ n)
    {rest : List TokenTree} (hrest : Next.isOp "#" rest = false) :
    outerAttrs (level n) (trees.flatten ++ rest) = some (attrs, rest) := by
  have hlength := length_le_of_readsFrom h
  rw [outerAttrs, whileNext, get_bind]
  apply outerAttrs_fuel h hn hrest
  rw [List.length_append]
  omega

end

/-!
## Declarations
-/

/-- A name that a declaration can bind alone. -/
def IsBinder (name : Ident) : Prop :=
  forall g rest,
    readPattern g (name.tree :: .punct '=' :: rest) =
      some (⟨.binder [] name [], false⟩, .punct '=' :: rest)

theorem isBinder_guardName : IsBinder guardName := by
  intro g rest
  rfl

theorem isBinder_resultName : IsBinder resultName := by
  intro g rest
  rfl

def bindingTrees (name : Ident) (init : List TokenTree) : List TokenTree :=
  (Ident.plain "let").tree :: name.tree :: .punct '=' ::
    (init ++ [.punct ';'])

theorem length_bindingTrees (name : Ident) (init : List TokenTree) :
    (TokenTree.flatten (bindingTrees name init)).length =
      (TokenTree.flatten init).length + 4 := by
  change (TokenTree.flatten (init ++ [.punct ';'])).length + 3 = _
  rw [TokenTree.flatten_append, List.length_append]
  rfl

def binding (attrs : List Attr) (name : Ident) (e : Expr) : Stmt :=
  .binding attrs (.binder [] name []) [.token (.punct '='), .expr e]

/-- A declaration is read if its initial value is, and then without more. -/
theorem bindingStmt_eq (g : Grammar) {name : Ident} (hname : IsBinder name)
    (attrs : List Attr) {init : List TokenTree} {value : Option Expr}
    (hvalue : (above g).expr true (init ++ [.punct ';']) =
      value.map fun e => (e, [.punct ';'])) :
    bindingStmt (above g) attrs (bindingTrees name init) =
      value.map fun e => (binding attrs name e, []) := by
  have hpattern : (above g).pattern
      (name.tree :: .punct '=' :: (init ++ [.punct ';'])) =
        some (⟨.binder [] name [], false⟩,
          .punct '=' :: (init ++ [.punct ';'])) :=
    hname g _
  have hlet : word "let" (bindingTrees name init) =
      some ([.word "let"], name.tree :: .punct '=' :: (init ++ [.punct ';'])) :=
    rfl
  have hcolon : Next.isOp ":" (.punct '=' :: (init ++ [.punct ';'])) =
      false := rfl
  have heq : parts (op "=") (.punct '=' :: (init ++ [.punct ';'])) =
      some ([.token (.punct '=')], init ++ [.punct ';']) := rfl
  have helse : Next.isWord "else" [.punct ';'] = false := rfl
  rw [bindingStmt, bind_some hlet, bind_some hpattern, next_bind, hcolon,
    if_neg (by simp), bind_some (pure_run _ _)]
  cases value with
  | none =>
      apply bind_none
      rw [when_of rfl, bind_some heq]
      apply bind_none
      rw [withTokens, get_bind]
      exact bind_none hvalue _
  | some e =>
      have htokens : exists tokens,
          withTokens ((above g).expr true) (init ++ [.punct ';']) =
            some ((e, tokens), [.punct ';']) := by
        rw [withTokens, get_bind, bind_some hvalue]
        exact ⟨_, rfl⟩
      rcases htokens with ⟨tokens, htokens⟩
      refine (@bind_some _ Stmt _ _ [.punct ';']
        [Part.token (.punct '='), Part.expr e] ?_ _).trans rfl
      rw [when_of rfl, bind_some heq, bind_some htokens]
      dsimp only
      rw [next_bind, helse, Bool.and_false, if_neg (by simp)]
      rfl

theorem statement_bindingTrees (g : Grammar) {attrs : List Attr} {name : Ident}
    {front init : List TokenTree}
    (hattrs : outerAttrs g (front ++ bindingTrees name init) =
      some (attrs, bindingTrees name init)) :
    statement g (front ++ bindingTrees name init) =
      bindingStmt g attrs (bindingTrees name init) := by
  rw [statement, get_bind, position_bind, bind_some hattrs, get_bind]
  rfl

theorem isOp_semicolon_of_hash {ts : List TokenTree}
    (h : Next.isOp "#" ts = true) : Next.isOp ";" ts = false := by
  match ts, h with
  | .leaf (.punct c) pos joint :: rest, h =>
      have hc : c = '#' := by
        simp [Next.isOp, Next.isChars] at h
        exact h.symm
      rw [hc]
      rfl

theorem isOp_hash_append {ts rest : List TokenTree}
    (hts : Next.isOp "#" ts = false) (hrest : Next.isOp "#" rest = false) :
    Next.isOp "#" (ts ++ rest) = false := by
  match ts, hts with
  | [], _ => exact hrest
  | .group _ _ _ :: _, _ => rfl
  | .leaf (.punct c) pos joint :: more, hts => exact hts
  | .leaf (.ident _) _ _ :: _, _ => rfl
  | .leaf (.lifetime _) _ _ :: _, _ => rfl
  | .leaf (.literal _) _ _ :: _, _ => rfl

section

variable (g : Grammar) {name : Ident} (hname : IsBinder name)
    {attrs : List Attr} {front init : List TokenTree}
    (hattrs : outerAttrs (above g) (front ++ bindingTrees name init) =
      some (attrs, bindingTrees name init))
    (value : Option Expr)
    (hvalue : (above g).expr true (init ++ [.punct ';']) =
      value.map fun e => (e, [.punct ';']))

include hname hattrs hvalue

theorem blockStatement_bindingTrees :
    blockStatement (above g) (front ++ bindingTrees name init) =
      value.map fun e => (binding attrs name e, []) := by
  have hsemi : Next.isOp ";" (front ++ bindingTrees name init) = false := by
    cases hhash : Next.isOp "#" (front ++ bindingTrees name init) with
    | true => exact isOp_semicolon_of_hash hhash
    | false =>
        have hnone := hattrs.symm.trans (whileNext_of_not _ hhash)
        have hfront : bindingTrees name init =
            front ++ bindingTrees name init :=
          congrArg Prod.snd (Option.some.inj hnone)
        rw [← hfront]
        rfl
  have hstatement := (statement_bindingTrees (above g) hattrs).trans
    (bindingStmt_eq g hname attrs hvalue)
  rw [blockStatement, next_bind, hsemi, if_neg (by simp)]
  cases value with
  | none => exact bind_none hstatement _
  | some e => exact (bind_some hstatement _).trans rfl

/-- A declaration behind attributes is read as the one statement of a block,
if it is read at all. -/
theorem readStatements_bindingTrees :
    (readStatements (above g)).all? (front ++ bindingTrees name init) =
      value.map fun e => [binding attrs name e] := by
  have hblock := blockStatement_bindingTrees g hname hattrs value hvalue
  rw [all?, readStatements, untilEnd, whileNext, get_bind, whileFuel,
    next_bind]
  have hsome : (!(front ++ bindingTrees name init).isEmpty) = true := by
    simp [bindingTrees]
  have hlength : exists n,
      (front ++ bindingTrees name init).length = n + 1 := by
    refine ⟨front.length + (2 + (init ++ [TokenTree.punct ';']).length), ?_⟩
    simp [bindingTrees]
    omega
  rcases hlength with ⟨n, hn⟩
  rw [if_pos hsome, hn]
  cases value with
  | none =>
      rw [bind_none hblock]
      rfl
  | some e =>
      rw [bind_some hblock]
      rfl

end

/-!
## Calls with two arguments
-/

def callTrees (p : SimplePath) (first second : List TokenTree) :
    List TokenTree :=
  p.trees ++ [.group .paren .origin (first ++ .punct ',' :: second)]

theorem ne_nil_of_expr {n : Nat} {ts : List TokenTree}
    {e : Expr × List TokenTree} (h : (level n).expr true ts = some e) :
    ts ≠ [] := by
  intro hnil
  rw [hnil] at h
  cases n <;> cases h

theorem commaList_two {n : Nat} {ts us : List TokenTree} {a b : Expr}
    (ha : (level n).expr true (ts ++ .punct ',' :: us) =
      some (a, .punct ',' :: us))
    (hb : (level n).expr true us = some (b, [])) :
    (commaList (level n).exprPart).all? (ts ++ .punct ',' :: us) =
      some [.expr a, .token (.punct ','), .expr b] := by
  have hfirst : exprPart (level n) (ts ++ .punct ',' :: us) =
      some ([.expr a], .punct ',' :: us) := (bind_some ha _).trans rfl
  have hsecond : exprPart (level n) us = some ([.expr b], []) :=
    (bind_some hb _).trans rfl
  have hcomma : parts (op ",") (.punct ',' :: us) =
      some ([.token (.punct ',')], us) := rfl
  have hend : forall fuel, sepUntilFuel List.isEmpty ","
      (exprPart (level n)) (fuel + 1) us = some ([.expr b], []) := by
    intro fuel
    rcases List.exists_cons_of_ne_nil (ne_nil_of_expr hb) with ⟨t, rest, hus⟩
    rw [hus] at hsecond ⊢
    rw [sepUntilFuel, next_bind, List.isEmpty_cons, if_neg (by simp),
      bind_some hsecond]
    rfl
  have hlength : (ts ++ .punct ',' :: us).length = ts.length + us.length + 1 := by
    rw [List.length_append, List.length_cons, Nat.add_assoc]
  have hbegins : (ts ++ .punct ',' :: us).isEmpty = false := by
    rw [List.isEmpty_eq_false_iff]
    exact ne_nil_of_expr ha
  rw [all?, commaList, sepUntil, get_bind, hlength, sepUntilFuel, next_bind,
    hbegins, if_neg (by simp), bind_some hfirst, next_bind,
    List.isEmpty_cons, if_neg (by simp), bind_some hcomma,
    bind_some (hend (ts.length + us.length))]
  rfl

theorem expr_callTrees {n : Nat} {p : SimplePath} (hne : p.segments ≠ [])
    (hall : forall i, i ∈ p.segments -> i.isPathSegment = true)
    {ts us : List TokenTree} {a b : Expr}
    (ha : (level n).expr true (ts ++ .punct ',' :: us) =
      some (a, .punct ',' :: us))
    (hb : (level n).expr true us = some (b, []))
    {rest : List TokenTree} (hrest : endsExpression rest = true) :
    (level (n + 1)).expr true (callTrees p ts us ++ rest) =
      some (.bare (.call (.bare (.path p.toPath))
        [.expr a, .token (.punct ','), .expr b]), rest) := by
  have hpath : EndsPath
      (.group .paren .origin (ts ++ .punct ',' :: us) :: rest) :=
    ⟨rfl, rfl, rfl, rfl⟩
  have hargs : inside .paren (commaList (level n).exprPart)
      (.group .paren .origin (ts ++ .punct ',' :: us) :: rest) =
        some ([.expr a, .token (.punct ','), .expr b], rest) := by
    rw [inside, if_pos rfl, commaList_two ha hb]
    rfl
  have htrailers : trailers (level n) (.ofKind (.path p.toPath))
      (.group .paren .origin (ts ++ .punct ',' :: us) :: rest) =
        some (.ofKind (.call (.bare (.path p.toPath))
          [.expr a, .token (.punct ','), .expr b]), rest) := by
    have hparen : Next.isGroup .paren
        (.group .paren .origin (ts ++ .punct ',' :: us) :: rest) = true := rfl
    rw [trailers, get_bind, trailersFuel, get_bind, if_pos hparen,
      bind_some hargs]
    exact trailersFuel_of_ends (level n) hrest rest.length _
  have hatom := atomExpr_of_path (level n) true hne hall hpath
  have hunary := readUnary_of (level n) true (beginsOperand_trees hne _)
    hatom htrailers
  rw [callTrees, List.append_assoc]
  exact expr_of_readUnary (level n) true hunary hrest

/-!
## Parentheses
-/

theorem parenExpr_of {n : Nat} {ts rest : List TokenTree} {e : Expr}
    (he : (level n).expr true ts = some (e, [])) :
    parenExpr (level n) (.group .paren .origin ts :: rest) =
      some (.ofKind (.paren e), rest) := by
  have hbegins : ts.isEmpty = false := by
    rw [List.isEmpty_eq_false_iff]
    exact ne_nil_of_expr he
  rw [parenExpr, inside, if_pos rfl, all?, next_bind, hbegins,
    if_neg (by simp), bind_some he]
  rfl

/-- Behind attributes an expression in parentheses is read as one. -/
theorem expr_parenTrees {n : Nat} {attrs : List Attr}
    {front ts rest : List TokenTree} {e : Expr}
    (hattrs : outerAttrs (level n)
      (front ++ .group .paren .origin ts :: rest) =
        some (attrs, .group .paren .origin ts :: rest))
    (he : (level n).expr true ts = some (e, []))
    (hrest : endsExpression rest = true) :
    (level (n + 1)).expr true (front ++ .group .paren .origin ts :: rest) =
      some (.mk attrs (.paren e), rest) := by
  have hatom : atomExpr (level n) true (.group .paren .origin ts :: rest) =
      some (.ofKind (.paren e), rest) := parenExpr_of he
  have htrailers := trailersFuel_of_ends (level n) hrest rest.length
    (.ofKind (.paren e))
  have hunary := readUnary_of (level n) true ⟨rfl, rfl, rfl⟩ hatom htrailers
  have hbehind : readUnary (level n) true
      (front ++ .group .paren .origin ts :: rest) =
        some (.plain (.mk attrs (.paren e)), rest) := by
    rw [readUnary_behindAttrs (level n) true rfl hattrs,
      behindAttrs_some attrs hunary]
    simp [Operand.ofKind, Operand.plain, Expr.bare, Expr.withAttrs]
  exact expr_of_readUnary (level n) true hbehind hrest

end Grammar

/-!
## Guards
-/

/-- The path of the registering function behind that of the runtime. -/
def SimplePath.register (p : SimplePath) : SimplePath :=
  ⟨p.absolute, p.segments ++ [.plain "__private", .plain "register"]⟩

/-- A path that can be the beginning of another one: it has segments, and words
that may be segments are all it consists of. -/
structure SimplePath.IsAdmitted (p : SimplePath) : Prop where
  ne_nil : p.segments ≠ []
  isPathSegment : forall i, i ∈ p.segments -> i.isPathSegment = true

theorem SimplePath.IsAdmitted.register {p : SimplePath} (h : p.IsAdmitted) :
    p.register.IsAdmitted where
  ne_nil := by
    simp [SimplePath.register]
  isPathSegment i hi := by
    rcases List.mem_append.mp hi with hi | hi
    · exact h.isPathSegment i hi
    · have hwords : forall j, j ∈ [Ident.plain "__private", .plain "register"] ->
          j.isPathSegment = true := by
        decide
      exact hwords i hi

namespace Registration

/-- The trees of the statement that binds a guard, given those of the
attributes, the callee and the action of the registration. -/
def guardTrees (runtime : SimplePath) (attrs : List (List TokenTree))
    (callee action : List TokenTree) : List TokenTree :=
  attrs.flatten ++ Grammar.bindingTrees guardName
    (Grammar.callTrees runtime.register callee action)

/-- Whether the pieces of a registration are read back. -/
structure ReadsFrom (r : Registration) (attrs : List (List TokenTree))
    (callee action : List TokenTree) : Prop where
  attrs : List.Forall₂ Attr.ReadsFrom r.attrs attrs
  callee : r.callee.ReadsFrom callee
  action : r.action.ReadsFrom action

theorem length_guardTrees (runtime : SimplePath) {r : Registration}
    {attrs : List (List TokenTree)} {callee action : List TokenTree}
    (h : r.ReadsFrom attrs callee action) :
    (TokenTree.flatten attrs.flatten).length + r.callee.tokens.length +
        r.action.tokens.length + 2 ≤
      (TokenTree.flatten
        (guardTrees runtime attrs callee action)).length := by
  rw [← h.callee.1, ← h.action.1, guardTrees, TokenTree.flatten_append,
    List.length_append, Grammar.length_bindingTrees]
  simp [Grammar.callTrees, TokenTree.flatten, TokenTree.tokens]
  omega

/-- The text of a guard is one statement, which binds the guard. -/
theorem read_guardTrees {runtime : SimplePath} (hruntime : runtime.IsAdmitted)
    {r : Registration} {attrs : List (List TokenTree)}
    {callee action : List TokenTree} (h : r.ReadsFrom attrs callee action) :
    Grammar.read? (fun g => g.statements)
        (guardTrees runtime attrs callee action) =
      some [r.guard runtime.toPath] := by
  have hlength := length_guardTrees runtime h
  generalize hL : (TokenTree.flatten
    (guardTrees runtime attrs callee action)).length = L at hlength
  have hattrs : Grammar.outerAttrs (Grammar.level (4 * L + 7))
      (guardTrees runtime attrs callee action) = some (r.attrs, _) :=
    Grammar.outerAttrs_of_readsFrom h.attrs (by omega) rfl
  have hcallee := h.callee.2 (4 * L + 6) (.punct ',' :: action) (by omega) rfl
  have haction := h.action.2 (4 * L + 6) [] (by omega) rfl
  rw [List.append_nil] at haction
  have hends : Grammar.endsExpression [.punct ';'] = true := rfl
  have hvalue := Grammar.expr_callTrees hruntime.register.ne_nil
    hruntime.register.isPathSegment hcallee haction hends
  have hread := Grammar.readStatements_bindingTrees
    (Grammar.level (4 * L + 6)) Grammar.isBinder_guardName hattrs
    (some _) hvalue
  rw [Grammar.read?, Grammar.forTrees, hL]
  refine hread.trans ?_
  rw [guard, SimplePath.extend_registerSegments]
  rfl

end Registration

theorem SimplePath.IsAdmitted.readsFrom {p : SimplePath} (h : p.IsAdmitted) :
    (Expr.bare (.path p.toPath)).ReadsFrom p.trees := by
  constructor
  · exact p.flatten_trees
  · intro n rest hn hrest
    rcases Nat.exists_eq_add_one_of_ne_zero (Nat.ne_of_gt
      (Nat.lt_of_lt_of_le (Nat.succ_pos _) hn)) with ⟨k, hk⟩
    rw [hk]
    exact Grammar.expr_path (Grammar.level k) true h.ne_nil h.isPathSegment
      hrest

/-!
## The value of a block

The attributes in front of the last statement of a block become attributes of
an initial value.  In front of a range they can be read only because the range is
written in parentheses.
-/

namespace Stmt

/-- The trees of a value, given those of its attributes and of what is behind
them. -/
def valueTrees (attrs : List (List TokenTree)) (own : Expr)
    (ts : List TokenTree) : List TokenTree :=
  attrs.flatten ++
    if own.isRange && !attrs.isEmpty then [.group .paren .origin ts] else ts

/-- The trees of the statement that binds the value of a block. -/
def tailTrees (attrs : List (List TokenTree)) (own : Expr)
    (ts : List TokenTree) : List TokenTree :=
  Grammar.bindingTrees resultName (valueTrees attrs own ts)

theorem valueTrees_of_isRange {attrs : List (List TokenTree)} {own : Expr}
    (hattrs : attrs ≠ []) (hown : own.isRange = true) (ts : List TokenTree) :
    valueTrees attrs own ts = attrs.flatten ++ [.group .paren .origin ts] := by
  simp [valueTrees, hattrs, hown]

theorem valueTrees_of_not {attrs : List (List TokenTree)} {own : Expr}
    (h : attrs = [] ∨ own.isRange = false) (ts : List TokenTree) :
    valueTrees attrs own ts = attrs.flatten ++ ts := by
  rcases h with h | h <;> simp [valueTrees, h]

/-- A range that is read has no attributes, as they were read apart from it. -/
theorem attrs_of_readsFrom_of_isRange {own : Expr} {ts : List TokenTree}
    (hown : own.ReadsFrom ts) (h : own.isRange = true) : own.attrs = [] :=
  Grammar.attrs_of_isRange _ (Grammar.conditional_givesNoRange _)
    (hown.2 (4 * own.tokens.length + 8) [] (Nat.le_refl _) rfl) h

theorem length_tailTrees_le (attrTrees : List (List TokenTree)) {own : Expr}
    {ts : List TokenTree} (hown : own.ReadsFrom ts) :
    (TokenTree.flatten attrTrees.flatten).length + own.tokens.length + 4 ≤
      (TokenTree.flatten (tailTrees attrTrees own ts)).length := by
  rw [tailTrees, Grammar.length_bindingTrees, valueTrees,
    TokenTree.flatten_append, List.length_append, ← hown.1]
  split
  · simp [TokenTree.flatten, TokenTree.tokens]
    omega
  · exact Nat.le_refl _

/-- The binding is read if the value is. -/
theorem read_tailTrees_of_expr {attrs : List (List TokenTree)} {own e : Expr}
    {ts : List TokenTree} {n : Nat}
    (hn : n = 4 * (TokenTree.flatten (tailTrees attrs own ts)).length + 6)
    (he : (Grammar.level (n + 1)).expr true
        (valueTrees attrs own ts ++ [.punct ';']) =
      some (e, [.punct ';'])) :
    Grammar.read? (fun g => g.statements) (tailTrees attrs own ts) =
      some [Grammar.binding [] resultName e] := by
  have hnone : Grammar.outerAttrs (Grammar.level (n + 1))
      ([] ++ Grammar.bindingTrees resultName (valueTrees attrs own ts)) =
        some ([], Grammar.bindingTrees resultName
          (valueTrees attrs own ts)) := rfl
  have hread := Grammar.readStatements_bindingTrees (Grammar.level n)
    Grammar.isBinder_resultName hnone (some e) he
  rw [hn] at hread
  exact hread

section

variable {attrs : List Attr} {attrTrees : List (List TokenTree)}
    {own : Expr} {ts : List TokenTree}
    (hattrs : List.Forall₂ Attr.ReadsFrom attrs attrTrees)
    (hown : own.ReadsFrom ts)

include hattrs

theorem attrTrees_eq_nil_iff : attrTrees = [] ↔ attrs = [] := by
  rw [← List.length_eq_zero_iff, ← hattrs.length_eq, List.length_eq_zero_iff]

theorem flatten_attrTrees :
    TokenTree.flatten attrTrees.flatten = attrsTokens false attrs := by
  induction hattrs with
  | nil => rfl
  | @cons a trees as more ha _ ih =>
      rcases a with ⟨inner, path, args⟩
      have houter := Grammar.attrsTokens_of_readsFrom ha
      cases inner with
      | true =>
          simp [attrsTokens, Attr.tokens] at houter
      | false =>
          rw [List.flatten_cons, TokenTree.flatten_append, ha.1, ih]
          rfl

include hown

theorem flatten_valueTrees :
    TokenTree.flatten (valueTrees attrTrees own ts) =
      (own.withAttrs attrs).tokens := by
  have houter := Grammar.attrsTokens_true_of_readsFrom hattrs
  have hnil := attrTrees_eq_nil_iff hattrs
  by_cases h : attrs = [] ∨ own.isRange = false
  · rw [valueTrees_of_not (h.imp_left hnil.mpr), TokenTree.flatten_append,
      flatten_attrTrees hattrs, hown.1, Grammar.tokens_withAttrs houter h]
  · rw [not_or, Bool.not_eq_false] at h
    rw [valueTrees_of_isRange (fun hempty => h.1 (hnil.mp hempty)) h.2,
      TokenTree.flatten_append, flatten_attrTrees hattrs,
      Grammar.tokens_withAttrs_of_isRange houter h.1 h.2
        (attrs_of_readsFrom_of_isRange hown h.2), ← hown.1]
    simp [TokenTree.flatten, TokenTree.tokens, Token.group]

/-- The attributes are read with the operand that the value begins with. -/
theorem expr_valueTrees_of_not_isRange {n : Nat}
    (hn : 4 * ((TokenTree.flatten attrTrees.flatten).length +
      own.tokens.length) + 8 ≤ n)
    (rest : List TokenTree) (hrest : Grammar.endsExpression rest = true)
    (hts : Next.isOp "#" ts = false) (hrange : own.isRange = false) :
    exists e, e.tokens = (own.withAttrs attrs).tokens ∧
      (Grammar.level (n + 1)).expr true (valueTrees attrTrees own ts ++ rest) =
        some (e, rest) := by
  have hhash : Next.isOp "#" (ts ++ rest) = false :=
    Grammar.isOp_hash_append hts (Grammar.isOp_of_ends hrest rfl)
  have hfront : Grammar.outerAttrs (Grammar.level n)
      (attrTrees.flatten ++ (ts ++ rest)) = some (attrs, ts ++ rest) :=
    Grammar.outerAttrs_of_readsFrom hattrs (by omega) hhash
  have he := hown.2 (n + 1) rest (by omega) hrest
  rcases Grammar.expr_behindAttrs _ (Grammar.conditional_givesNoRange _)
    hfront (Grammar.attrsTokens_true_of_readsFrom hattrs) hhash he
    (.inr hrange) with ⟨e, hvalue, htokens⟩
  refine ⟨e, htokens, ?_⟩
  rw [valueTrees_of_not (.inr hrange), List.append_assoc]
  exact hvalue

/-- The range is read alone, as what stands in the parentheses. -/
theorem expr_valueTrees_of_isRange {n : Nat}
    (hn : 4 * ((TokenTree.flatten attrTrees.flatten).length +
      own.tokens.length) + 8 ≤ n)
    (rest : List TokenTree) (hrest : Grammar.endsExpression rest = true)
    (hne : attrs ≠ []) (hrange : own.isRange = true) :
    (Grammar.level (n + 1)).expr true (valueTrees attrTrees own ts ++ rest) =
      some ((own.withAttrs attrs).grouped, rest) := by
  have htrees : attrTrees ≠ [] := fun hempty =>
    hne ((attrTrees_eq_nil_iff hattrs).mp hempty)
  have hinside := hown.2 n [] (by omega) rfl
  rw [List.append_nil] at hinside
  have hfront : Grammar.outerAttrs (Grammar.level n)
      (attrTrees.flatten ++ .group .paren .origin ts :: rest) =
        some (attrs, .group .paren .origin ts :: rest) :=
    Grammar.outerAttrs_of_readsFrom hattrs (by omega) rfl
  have hvalue := Grammar.expr_parenTrees hfront hinside hrest
  rw [valueTrees_of_isRange htrees hrange, List.append_assoc,
    Grammar.grouped_withAttrs hne hrange
      (attrs_of_readsFrom_of_isRange hown hrange)]
  exact hvalue

/-- The text that binds the value of a block is one statement, which binds an
expression with the same tokens: the value itself if there are no attributes in
front of it, and a range with attributes in the parentheses that it is written
in. -/
theorem read_tailTrees (hts : attrs ≠ [] -> Next.isOp "#" ts = false) :
    exists e, e.tokens = (own.withAttrs attrs).tokens ∧
      (attrs = [] -> e = own) ∧
      (own.isRange = true -> attrs ≠ [] -> e = (own.withAttrs attrs).grouped) ∧
        Grammar.read? (fun g => g.statements) (tailTrees attrTrees own ts) =
          some [Grammar.binding [] resultName e] := by
  have hlength := length_tailTrees_le attrTrees hown
  generalize hn : 4 *
    (TokenTree.flatten (tailTrees attrTrees own ts)).length + 6 = n
  by_cases hbare : attrs = []
  · have htrees := (attrTrees_eq_nil_iff hattrs).mpr hbare
    refine ⟨own, ?_, fun _ => rfl, fun _ hne => absurd hbare hne,
      read_tailTrees_of_expr hn.symm ?_⟩
    · rw [hbare, Expr.withAttrs_nil]
    · rw [valueTrees_of_not (.inl htrees), htrees]
      exact hown.2 (n + 1) _ (by omega) rfl
  · cases hrange : own.isRange with
    | false =>
        rcases expr_valueTrees_of_not_isRange hattrs hown (n := n)
          (by omega) [.punct ';'] rfl (hts hbare) hrange with
          ⟨e, htokens, he⟩
        exact ⟨e, htokens, fun h => absurd h hbare, nofun,
          read_tailTrees_of_expr hn.symm he⟩
    | true =>
        have he := expr_valueTrees_of_isRange hattrs hown (n := n)
          (by omega) [.punct ';'] rfl hbare hrange
        exact ⟨_, Expr.tokens_grouped _, fun h => absurd h hbare,
          fun _ _ => rfl, read_tailTrees_of_expr hn.symm he⟩

end

end Stmt

end ScopeExit
