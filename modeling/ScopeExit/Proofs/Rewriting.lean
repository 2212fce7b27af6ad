import ScopeExit.Proofs.Accounts
import ScopeExit.Proofs.GeneratedText
import ScopeExit.Proofs.Restoring

/-!
# The rewriting does not fail

The arguments of the attribute admit only paths in front of which nothing is
missing, statements that register an action can all be taken apart, and what is
written in their place is read again, as is what binds the value of a block.
-/

namespace ScopeExit

open Reader

/-!
## Accepted configurations

Whatever path the arguments of the attribute ask for, it is admitted.
-/

namespace Arguments

theorem segments_admitted {admitted : Ident -> Bool}
    {missing : Bool -> ArgumentError} {ts rest : List TokenTree}
    {is : List Ident} (h : segments admitted missing ts = .ok (is, rest)) :
    forall i, i ∈ is -> admitted i = true := by
  fun_induction segments admitted missing ts generalizing is rest with
  | case1 _ _ _ i _ _ more hi is left hmore ih =>
      cases h
      intro j hj
      rcases List.mem_cons.mp hj with rfl | hj
      · exact hi
      · exact ih hmore j hj
  | case2 => cases h
  | case3 => cases h
  | case4 => cases h
  | case5 =>
      cases h
      intro i hi
      cases hi

theorem ok_of_bind {ε α β : Type} {r : Except ε α} {f : α -> Except ε β}
    {b : β} (h : (r >>= f) = .ok b) : exists a, r = .ok a ∧ f a = .ok b := by
  cases r with
  | error e => cases h
  | ok a => exact ⟨a, rfl, h⟩

theorem modulePath_admitted {ts rest : List TokenTree} {p : SimplePath}
    (h : modulePath ts = .ok (p, rest)) : p.IsAdmitted := by
  unfold modulePath at h
  split at h
  · split at h
    · next i more _ hfirst =>
      rcases ok_of_bind h with ⟨⟨is, left⟩, hmore, h⟩
      cases h
      refine ⟨by simp, fun j hj => ?_⟩
      rcases List.mem_cons.mp hj with rfl | hj
      · exact hfirst
      · exact segments_admitted hmore j hj
    · cases h
  · cases h

theorem pathOfValue_admitted {value : String} {p : SimplePath}
    (h : pathOfValue value = .ok p) : p.IsAdmitted := by
  unfold pathOfValue at h
  split at h
  · rcases ok_of_bind h with ⟨⟨q, rest⟩, hpath, h⟩
    dsimp only at h
    split at h
    · cases h
      exact modulePath_admitted hpath
    · cases h
  · cases h

theorem pathSetting_admitted {ts rest : List TokenTree} {p : SimplePath}
    (h : pathSetting ts = .ok (p, rest)) : p.IsAdmitted := by
  unfold pathSetting at h
  split at h
  · split at h
    · rcases ok_of_bind h with ⟨q, hpath, h⟩
      split at h
      · cases h
        exact pathOfValue_admitted hpath
      · cases h
    · cases h
  · cases h
  · cases h

/-- The default path is admitted, too. -/
theorem runtime_admitted {args : List TokenTree} {p : SimplePath}
    (h : runtime args = .ok p) : p.IsAdmitted := by
  unfold runtime at h
  split at h
  · cases h
    exact ⟨by decide, by decide⟩
  · rcases ok_of_bind h with ⟨⟨name, rest⟩, hname, h⟩
    dsimp only at h
    split at h
    · cases h
    · rcases ok_of_bind h with ⟨⟨q, left⟩, hsetting, h⟩
      have hq := pathSetting_admitted hsetting
      split at h
      · cases h
        exact hq
      · cases h
        exact hq
      · rcases ok_of_bind h with ⟨second, _, h⟩
        cases h
      · cases h

end Arguments

namespace Registration

/-- The tokens of a statement that is this registration, which may have a comma
behind its action and a semicolon at its end. -/
def tokens (r : Registration) (comma semi : Bool) : List Token :=
  attrsTokens false r.attrs ++ attrsTokens true r.attrs ++
    r.callee.tokens ++
      Token.group .paren (r.action.tokens ++ punctIf comma ',') ++
        punctIf semi ';'

/-- Nothing gets lost where a statement is taken apart. -/
theorem tokens_of_ofStmt? {s : Stmt} {r : Registration}
    (h : ofStmt? s = some r) :
    exists comma semi, s.tokens = r.tokens comma semi := by
  match s, h with
  | .expr pos (.mk attrs (.call callee args)) semi, h =>
      rw [ofStmt?] at h
      by_cases hpath : callee.isPath = true
      · rw [if_pos hpath] at h
        rcases Option.map_eq_some_iff.mp h with ⟨action, haction, heq⟩
        have hargs : exists comma,
            partsTokens args = action.tokens ++ punctIf comma ',' := by
          unfold soleArgument? at haction
          split at haction
          · cases haction
            exact ⟨false, rfl⟩
          · cases haction
            exact ⟨true, rfl⟩
          · cases haction
        rcases hargs with ⟨comma, hargs⟩
        refine ⟨comma, semi, ?_⟩
        rw [← heq, tokens, ← hargs]
        simp [Stmt.tokens, Expr.tokens, ExprKind.tokens, ExprKind.isBraced,
          ExprKind.isRange, parenIf]
      · rw [if_neg hpath] at h
        cases h

end Registration

namespace Stmt

theorem length_le_bindGuards (runtime : Path) (body : List Stmt)
    (marks : List Bool) :
    body.length ≤ (bindGuards runtime body marks).length := by
  rcases List.eq_nil_or_concat body with rfl | ⟨front, last, rfl⟩
  · exact Nat.zero_le _
  · rw [List.concat_eq_append, length_bindGuards_concat, List.length_append]
    exact Nat.le_add_right _ _

/-- A block is guarded whatever is marked, and it does not get shorter. -/
theorem exists_guardBlock (runtime : SimplePath) (body : List Stmt)
    (marks : List Bool) :
    exists kept, guardBlock runtime.toPath body marks = .ok kept ∧
      body.length ≤ kept.length := by
  cases hmarks : marks.contains true with
  | false =>
      refine ⟨body, ?_, Nat.le_refl _⟩
      rw [guardBlock, hmarks]
      rfl
  | true =>
      exact ⟨_, guardBlock_eq_bindGuards runtime body hmarks,
        length_le_bindGuards _ body marks⟩

end Stmt

namespace Grammar

theorem isRangeEnd_of_ends {ts : List TokenTree}
    (h : endsExpression ts = true) (allowStruct : Bool) :
    isRangeEnd allowStruct ts = true := by
  match ts with
  | [] => rfl
  | .leaf (.punct c) pos joint :: rest =>
      rcases (by simpa [endsExpression] using h : c = ',' ∨ c = ';')
        with rfl | rfl <;> rfl
  | .leaf (.ident _) _ _ :: _ => cases h
  | .leaf (.lifetime _) _ _ :: _ => cases h
  | .leaf (.literal _) _ _ :: _ => cases h
  | .group _ _ _ :: _ => cases h

section

variable (g : Grammar) {rest : List TokenTree}

theorem rangeBehind_dots (h : endsExpression rest = true) :
    rangeBehind g true
        (.leaf (.punct '.') .origin true :: .punct '.' :: rest) =
      some (Part.ofTokens (Token.operator ".."), rest) := by
  have hclosed : Next.isOp "..="
      (.leaf (.punct '.') .origin true :: .punct '.' :: rest) = false := rfl
  have hthree : Next.isOp "..."
      (.leaf (.punct '.') .origin true :: .punct '.' :: rest) = false := rfl
  have hdots : parts (op "..")
      (.leaf (.punct '.') .origin true :: .punct '.' :: rest) =
        some (Part.ofTokens (Token.operator ".."), rest) := rfl
  rw [rangeBehind, get_bind]
  simp only [hclosed, hthree, Bool.not_false, Bool.false_eq_true, if_false]
  rw [require_bind rfl, bind_some hdots, next_bind, isRangeEnd_of_ends h]
  rfl

theorem atomExpr_dots (h : endsExpression rest = true) :
    atomExpr g true
        (.leaf (.punct '.') .origin true :: .punct '.' :: rest) =
      some (⟨.bare (.range (Part.ofTokens (Token.operator ".."))), .range⟩,
        rest) := by
  have hatom : atomExpr g true
      (.leaf (.punct '.') .origin true :: .punct '.' :: rest) =
        (rangeBehind g true >>= fun behind =>
          (pure ⟨.bare (.range behind), .range⟩ : Reader Operand))
            (.leaf (.punct '.') .origin true :: .punct '.' :: rest) := rfl
  rw [hatom, bind_some (rangeBehind_dots g h), pure_run]

end

end Grammar

theorem Expr.readsFrom_openRange :
    (Expr.bare (.range (Part.ofTokens (Token.operator "..")))).ReadsFrom
      [.leaf (.punct '.') .origin true, .punct '.'] := by
  constructor
  · rfl
  · intro n rest hn hrest
    rcases Nat.exists_eq_add_one_of_ne_zero (Nat.ne_of_gt
      (Nat.lt_of_lt_of_le (Nat.succ_pos _) hn)) with ⟨k, hk⟩
    have hunary := Grammar.readUnary_of (Grammar.level k) true
      ⟨rfl, rfl, rfl⟩ (Grammar.atomExpr_dots _ hrest)
      (Grammar.trailersFuel_of_ends _ hrest rest.length _)
    rw [hk]
    exact Grammar.expr_of_readUnary (Grammar.level k) true hunary hrest

namespace Item

/-- Nothing that is rewritten fails.  A registration is always taken apart, into
pieces that are all there was to it.  The text of its guard is one statement,
which binds the guard.  The text that binds the value of a block is one
statement, which binds the tokens of the value: a value without attributes in
front is bound as it is, and a range with attributes in the parentheses that it
is written in.  So a block is always guarded, and code
that is evaluated at compile time is all that is ever complained about. -/
theorem guardedAt_rewrites {args : List TokenTree} {runtime : SimplePath}
    (hruntime : Arguments.runtime args = .ok runtime) (i : Item) :
    let root := Context.root runtime.toPath
    let n := Node.item i
    let read? := Grammar.read? fun g => g.statements
    (forall scope s, s.isRegistration scope = true ->
        exists r, Registration.ofStmt? s = some r) ∧
      (forall a xs s, n.visit? a = some (xs, .stmt s) ->
        n.registers root a = true ->
          exists r, Registration.ofStmt? (s.guarded (root.along xs)).value =
            some r) ∧
      (forall s r, Registration.ofStmt? s = some r ->
        exists comma semi, s.tokens = r.tokens comma semi) ∧
      (forall (r : Registration) attrs callee action,
        r.ReadsFrom attrs callee action ->
          read? (Registration.guardTrees runtime attrs callee action) =
            some [r.guard runtime.toPath]) ∧
      (forall attrs (own : Expr) attrTrees ts,
        List.Forall₂ Attr.ReadsFrom attrs attrTrees -> own.ReadsFrom ts ->
          (attrs ≠ [] -> Next.isOp "#" ts = false) ->
            let value := own.withAttrs attrs
            TokenTree.flatten (Stmt.valueTrees attrTrees own ts) =
                value.tokens ∧
              exists e, e.tokens = value.tokens ∧
                (attrs = [] -> e = own) ∧
                (own.isRange = true -> attrs ≠ [] -> e = value.grouped) ∧
                read? (Stmt.tailTrees attrTrees own ts) =
                  some [Grammar.binding [] resultName e]) ∧
      (forall body marks, exists kept,
        Stmt.guardBlock runtime.toPath body marks = .ok kept ∧
          body.length ≤ kept.length) ∧
      forall f, f ∈ (i.guardedAt runtime).faults ->
        exists pos, f = .constContext pos := by
  intro root n read?
  have hadmitted := Arguments.runtime_admitted hruntime
  refine ⟨?_, ?_, ?_, ?_, ?_, ?_, ?_⟩
  · intro scope s h
    exact Option.isSome_iff_exists.mp
      (Stmt.isSome_ofStmt?_of_isRegistration h)
  · intro a xs s hvisit hregisters
    exact Stmt.exists_ofStmt?_of_registers hvisit hregisters
  · intro s r h
    exact Registration.tokens_of_ofStmt? h
  · intro r attrs callee action h
    exact Registration.read_guardTrees hadmitted h
  · intro attrs own attrTrees ts hattrs hown hts value
    exact ⟨Stmt.flatten_valueTrees hattrs hown,
      Stmt.read_tailTrees hattrs hown hts⟩
  · intro body marks
    exact Stmt.exists_guardBlock runtime body marks
  · intro f hf
    rw [faults_guardedAt] at hf
    rcases List.mem_map.mp hf with ⟨a, _, rfl⟩
    exact ⟨_, rfl⟩

/-- A function whose value is a path, or a range without ends, behind an
attribute.  All texts are read as they should be. -/
theorem guardedAt_rewrites_path :
    let runtime : SimplePath := ⟨true, [.plain "deferred"]⟩
    let name := fun x => Expr.ofIdent (.plain x)
    let range := Expr.bare (.range (Part.ofTokens (Token.operator "..")))
    let unix := Attr.mk false ⟨false, [.plain "cfg"]⟩
      (Part.ofTokens (Token.group .paren [.word "unix"]))
    let unixTrees : List TokenTree := [.punct '#',
      .group .bracket .origin [(Ident.plain "cfg").tree,
        .group .paren .origin [(Ident.plain "unix").tree]]]
    let rangeTrees : List TokenTree :=
      [.leaf (.punct '.') .origin true, .punct '.']
    let r : Registration := ⟨[unix], name "defer", name "close"⟩
    let i := Item.mk [] (.function [] false [] (.plain "run")
      [.token (.opening .paren), .token (.closing .paren)]
      [.expr .origin (.mk [unix] (.call (name "defer")
          [.expr (name "close")])) true,
        .expr .origin (range.withAttrs [unix]) false])
    (Grammar.read? (fun g => g.statements)
        (Registration.guardTrees runtime [unixTrees]
          [(Ident.plain "defer").tree] [(Ident.plain "close").tree]) =
      some [r.guard runtime.toPath]) ∧
      (exists e, Token.flat e.tokens = "# [ cfg ( unix ) ] ready" ∧
        Grammar.read? (fun g => g.statements)
            (Stmt.tailTrees [unixTrees] (name "ready")
              [(Ident.plain "ready").tree]) =
          some [Grammar.binding [] resultName e]) ∧
      Grammar.read? (fun g => g.statements)
          (Stmt.tailTrees [unixTrees] range rangeTrees) =
        some [Grammar.binding [] resultName (.mk [unix] (.paren range))] ∧
      forall f, f ∈ (i.guardedAt runtime).faults ->
        exists pos, f = .constContext pos := by
  intro runtime name range unix unixTrees rangeTrees r i
  have hruntime : Arguments.runtime [] = .ok runtime := rfl
  have hname : forall x, (Ident.plain x).isPathSegment = true ->
      (name x).ReadsFrom [(Ident.plain x).tree] := by
    intro x hx
    have hadmitted : (SimplePath.mk false [.plain x]).IsAdmitted :=
      ⟨by simp, by simp [hx]⟩
    exact hadmitted.readsFrom
  have hunix : unix.ReadsFrom unixTrees := ⟨rfl, fun n rest _ => rfl⟩
  have hattrs : List.Forall₂ Attr.ReadsFrom [unix] [unixTrees] :=
    .cons hunix .nil
  rcases guardedAt_rewrites hruntime i with
    ⟨_, _, _, hguard, htail, _, hfaults⟩
  refine ⟨?_, ?_, ?_, hfaults⟩
  · exact hguard r _ _ _
      ⟨hattrs, hname "defer" (by decide), hname "close" (by decide)⟩
  · rcases htail [unix] (name "ready") _ _ hattrs
      (hname "ready" (by decide)) (fun _ => rfl) with
      ⟨_, e, htokens, _, _, hread⟩
    refine ⟨e, ?_, hread⟩
    rw [htokens]
    decide +kernel
  · rcases htail [unix] range _ _ hattrs Expr.readsFrom_openRange
      (fun _ => rfl) with ⟨_, e, _, _, hgrouped, hread⟩
    rw [hread, hgrouped rfl (by simp)]
    rfl

end Item

end ScopeExit
