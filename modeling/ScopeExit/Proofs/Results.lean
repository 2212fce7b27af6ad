import ScopeExit.Proofs.Accounts
import ScopeExit.Proofs.Replacement

/-!
# What stands in the result

A guard takes its registration apart, and a bound value moves into a
declaration, but neither loses any of the pieces.  So what the walk makes of an
item stands in the result of the whole.
-/

namespace ScopeExit

namespace Node

/-- Whether a place stands somewhere in a tree. -/
def Holds (n k : Node) : Prop := exists a, n.find? a = some k

theorem Holds.here (n : Node) : n.Holds n := ⟨[], rfl⟩

theorem Holds.below {n m k : Node} (h : m.Holds k) {j : Nat}
    (hm : n.inside? j = some m) : n.Holds k := by
  rcases h with ⟨a, ha⟩
  refine ⟨j :: a, ?_⟩
  rw [find?, hm]
  exact ha

theorem Holds.cases {n k : Node} (h : n.Holds k) :
    k = n ∨ exists j m, n.inside? j = some m ∧ m.Holds k := by
  rcases h with ⟨a, ha⟩
  cases a with
  | nil => exact .inl (Option.some.inj ha).symm
  | cons j a =>
      rcases exists_inside_of_find? ha with ⟨m, hm, hbelow⟩
      exact .inr ⟨j, m, hm, a, hbelow⟩

/-!
## One step down

Everywhere but in a block the places below a walked place are the walked places
below it.
-/

theorem inside?_guarded {n m : Node} {j : Nat} {x : Crossing} (c : Context)
    (hchild : n.children[j]? = some (x, m))
    (hblock : forall body, n ≠ .block body) :
    (n.guarded c).value.inside? j = some (m.guarded (c.cross x)).value ∨
      m = .attrs [] := by
  cases n with
  | block body => exact absurd rfl (hblock body)
  | attr a | segment a | path a =>
      rcases a
      rcases j with _ | j <;> cases hchild
      exact .inl rfl
  | attrs xs | parts xs | segments xs | arms xs | items xs =>
      rcases xs with _ | ⟨y, rest⟩
      · cases hchild
      · rcases j with _ | _ | j <;> cases hchild <;> exact .inl rfl
  | part p | pat p =>
      cases p <;> rcases j with _ | _ | j <;> cases hchild <;> exact .inl rfl
  | expr e =>
      rcases e with ⟨as, k⟩
      rcases j with _ | _ | j <;> cases hchild
      · cases hwalked : k.hasWalkedAttrs with
        | false => exact .inr rfl
        | true =>
            left
            rw [k.cross_crossing]
            simp [guarded, Expr.guarded, hwalked, inside?]
      · left
        rw [k.cross_crossing]
        rfl
  | kind k =>
      cases k with
      | ifThen cond body | ifElse cond body orElse
      | whileLoop label cond body =>
          rcases j with _ | _ | _ | j <;> cases hchild <;> left
          all_goals
            simp [guarded, ExprKind.guarded, inside?, children, ofKind,
              Context.cross_level, Context.cross_condition,
              Expr.conditionBinders_guarded]
      | _ =>
          rcases j with _ | _ | _ | _ | j <;> cases hchild <;>
            exact .inl rfl
  | arm a =>
      rcases a with ⟨as, p, guard, value, comma⟩
      rcases j with _ | _ | _ | _ | j <;> cases hchild <;> exact .inl rfl
  | stmt y =>
      cases y <;> rcases j with _ | _ | _ | j <;> cases hchild <;>
        exact .inl rfl
  | stmts ys =>
      cases ys with
      | nil => cases hchild
      | cons y rest =>
          rcases j with _ | _ | j <;> cases hchild
          · exact .inl rfl
          · left
            simp [guarded, stmtsGuarded, inside?, children,
              Context.cross_behind, Context.afterStmt_guarded]
  | item i =>
      rcases i with ⟨as, k⟩
      rw [children] at hchild
      split at hchild
      · cases hchild
      · rename_i hskip
        rcases j with _ | _ | j <;> cases hchild
        · cases hwalked : k.hasWalkedAttrs with
          | false => exact .inr rfl
          | true =>
              left
              rw [k.cross_crossing]
              simp [guarded, Item.guarded, hskip, hwalked, inside?]
        · left
          rw [k.cross_crossing]
          simp [guarded, Item.guarded, hskip, inside?]
  | itemKind k =>
      cases k <;> rcases j with _ | _ | j <;> cases hchild <;> exact .inl rfl

/-!
## In a block

A block gets other statements, in which the pieces of the old ones stand.
-/

theorem holds_stmts_iff {ss : List Stmt} {i : Item} :
    (stmts ss).Holds (.item i) ↔
      exists s, s ∈ ss ∧ (stmt s).Holds (.item i) := by
  induction ss with
  | nil =>
      constructor
      · intro h
        rcases h.cases with heq | ⟨j, m, hm, _⟩
        · cases heq
        · cases hm
      · rintro ⟨s, hs, _⟩
        cases hs
  | cons s rest ih =>
      constructor
      · intro h
        rcases h.cases with heq | ⟨j, m, hm, hbelow⟩
        · cases heq
        · rcases j with _ | _ | j <;> cases hm
          · exact ⟨s, List.mem_cons_self, hbelow⟩
          · rcases ih.mp hbelow with ⟨t, ht, hholds⟩
            exact ⟨t, List.mem_cons_of_mem s ht, hholds⟩
      · rintro ⟨t, ht, hholds⟩
        rcases List.mem_cons.mp ht with heq | hrest
        · rw [heq] at hholds
          exact hholds.below (j := 0) rfl
        · exact (ih.mpr ⟨t, hrest, hholds⟩).below (j := 1) rfl

theorem Holds.of_stmt_expr {pos : Position} {e : Expr} {semi : Bool}
    {i : Item} (h : (stmt (.expr pos e semi)).Holds (.item i)) :
    (expr e).Holds (.item i) := by
  rcases h.cases with heq | ⟨j, m, hm, hbelow⟩
  · cases heq
  · rcases j with _ | j <;> cases hm
    exact hbelow

theorem not_holds_ofTokens {ts : List Token} {i : Item} :
    ¬ (parts (Part.ofTokens ts)).Holds (.item i) := by
  intro h
  induction ts with
  | nil =>
      rcases h.cases with heq | ⟨j, m, hm, _⟩
      · cases heq
      · cases hm
  | cons t rest ih =>
      rcases h.cases with heq | ⟨j, m, hm, hbelow⟩
      · cases heq
      · rcases j with _ | _ | j <;> cases hm
        · rcases hbelow.cases with heq | ⟨j, m, hm, _⟩
          · cases heq
          · cases hm
        · exact ih hbelow

theorem Holds.of_registration {s : Stmt} {r : Registration} {i : Item}
    (h : (stmt s).Holds (.item i)) (hr : Registration.ofStmt? s = some r) :
    (attrs r.attrs).Holds (.item i) ∨ (expr r.callee).Holds (.item i) ∨
      (expr r.action).Holds (.item i) := by
  match s, hr with
  | .expr pos (.mk as (.call callee args)) semi, hr =>
      rw [Registration.ofStmt?] at hr
      split at hr
      · rcases Option.map_eq_some_iff.mp hr with ⟨action, haction, heq⟩
        rcases soleArgument?_eq_some haction with ⟨ts, hargs⟩
        rw [hargs] at h
        rw [← heq]
        rcases h.of_stmt_expr.cases with heq | ⟨j, m, hm, hbelow⟩
        · cases heq
        · rcases j with _ | _ | j <;> cases hm
          · exact .inl hbelow
          · rcases hbelow.cases with heq | ⟨j, m, hm, hbelow⟩
            · cases heq
            · rcases j with _ | _ | j <;> cases hm
              · exact .inr (.inl hbelow)
              · right
                right
                rcases hbelow.cases with heq | ⟨j, m, hm, hbelow⟩
                · cases heq
                · rcases j with _ | _ | j <;> cases hm
                  · rcases hbelow.cases with heq | ⟨j, m, hm, hbelow⟩
                    · cases heq
                    · rcases j with _ | j <;> cases hm
                      exact hbelow
                  · exact absurd hbelow not_holds_ofTokens
      · cases hr

theorem Holds.part_expr {e : Expr} {k : Node} (h : (expr e).Holds k)
    (rest : List Part) : (parts (.expr e :: rest)).Holds k := by
  have hpart : (part (.expr e)).Holds k := h.below (j := 0) rfl
  exact hpart.below (j := 0) rfl

theorem Holds.part_behind {ps : List Part} {k : Node}
    (h : (parts ps).Holds k) (p : Part) : (parts (p :: ps)).Holds k :=
  h.below (j := 1) rfl

theorem holds_guard {r : Registration} {i : Item} (runtime : Path)
    (h : (attrs r.attrs).Holds (.item i) ∨ (expr r.callee).Holds (.item i) ∨
      (expr r.action).Holds (.item i)) :
    (stmt (r.guard runtime)).Holds (.item i) := by
  let args : List Part :=
    [.expr r.callee, .token (.punct ','), .expr r.action]
  let register : Expr :=
    .bare (.path (runtime.extend registerSegments))
  have hargs : (parts args).Holds (.item i) ->
      (stmt (r.guard runtime)).Holds (.item i) := by
    intro hparts
    have hkind : (kind (.call register args)).Holds (.item i) :=
      hparts.below (j := 1) rfl
    have hcall : (expr (.bare (.call register args))).Holds (.item i) :=
      hkind.below (j := 1) rfl
    have hinit := (hcall.part_expr []).part_behind (.token (.punct '='))
    exact hinit.below (j := 2) rfl
  rcases h with hattrs | hcallee | haction
  · exact hattrs.below (j := 0) rfl
  · exact hargs (hcallee.part_expr _)
  · exact hargs (((haction.part_expr []).part_behind _).part_behind _)

theorem Holds.grouped {e : Expr} {i : Item} (h : (expr e).Holds (.item i)) :
    (expr e.grouped).Holds (.item i) := by
  rcases e with ⟨as, k⟩
  rw [Expr.grouped]
  split
  · rcases h.cases with heq | ⟨j, m, hm, hbelow⟩
    · cases heq
    · rcases j with _ | _ | j <;> cases hm
      · exact hbelow.below (j := 0) rfl
      · -- The kind stands two places deeper, in the parentheses.
        have hrange : (expr (.bare k)).Holds (.item i) :=
          hbelow.below (j := 1) rfl
        have hparen : (kind (.paren (.bare k))).Holds (.item i) :=
          hrange.below (j := 0) rfl
        exact hparen.below (j := 1) rfl
  · exact h

theorem exists_bindTail {s : Stmt} {i : Item}
    (h : (stmt s).Holds (.item i)) :
    exists t, t ∈ s.bindTail ∧ (stmt t).Holds (.item i) := by
  cases s with
  | expr pos e semi =>
      cases semi with
      | true => exact ⟨_, List.mem_singleton_self _, h⟩
      | false =>
          rw [Stmt.bindTail]
          split
          · have hinit := (h.of_stmt_expr.grouped.part_expr []).part_behind
              (.token (.punct '='))
            exact ⟨_, List.mem_cons_self, hinit.below (j := 2) rfl⟩
          · exact ⟨_, List.mem_singleton_self _, h⟩
  | _ => exact ⟨_, List.mem_singleton_self _, h⟩

theorem exists_bindGuards {ss : List Stmt} {s : Stmt} {i : Item}
    (hs : s ∈ ss) (h : (stmt s).Holds (.item i)) (runtime : Path)
    (marks : List Bool) :
    exists t, t ∈ Stmt.bindGuards runtime ss marks ∧
      (stmt t).Holds (.item i) := by
  induction ss generalizing marks with
  | nil => cases hs
  | cons u rest ih =>
      rw [Stmt.bindGuards]
      rcases List.mem_cons.mp hs with heq | hrest
      · rw [heq] at h
        split
        · rename_i r hmarked
          have hr : Registration.ofStmt? u = some r := by
            unfold Stmt.marked? at hmarked
            split at hmarked
            · exact hmarked
            · cases hmarked
          exact ⟨_, List.mem_cons_self,
            holds_guard runtime (h.of_registration hr)⟩
        · split
          · rcases exists_bindTail h with ⟨t, ht, hholds⟩
            exact ⟨t, List.mem_append_left _ ht, hholds⟩
          · exact ⟨u, List.mem_append_left _ (List.mem_singleton_self u), h⟩
      · rcases ih hrest marks.tail with ⟨t, ht, hholds⟩
        split
        · exact ⟨t, List.mem_cons_of_mem _ ht, hholds⟩
        · exact ⟨t, List.mem_append_right _ ht, hholds⟩

theorem value_finishBlock {c : Context}
    (hruntime : c.runtime.opensCall = true) (walked : List (Stmt × Bool)) :
    (Stmt.finishBlock c walked).value = walked.map Prod.fst ∨
      (Stmt.finishBlock c walked).value =
        Stmt.bindGuards c.runtime (walked.map Prod.fst)
          (walked.map Prod.snd) := by
  cases hconst : c.inConst with
  | true =>
      rw [Stmt.finishBlock_of_inConst hconst]
      exact .inl rfl
  | false =>
      cases hmarks : (walked.map Prod.snd).contains true with
      | false =>
          rw [Stmt.finishBlock_of_no_mark hmarks]
          exact .inl rfl
      | true =>
          rw [Stmt.finishBlock_of_mark hruntime hconst hmarks]
          exact .inr rfl

theorem holds_block {c : Context} (hruntime : c.runtime.opensCall = true)
    {body : List Stmt} {i : Item}
    (h : ((stmts body).guarded (c.inBlock body)).value.Holds (.item i)) :
    ((block body).guarded c).value.Holds (.item i) := by
  have hstmts : (stmts (Stmt.finishBlock c
      (stmtsGuarded (c.inBlock body) body).value).value).Holds (.item i) := by
    rcases value_finishBlock hruntime
      (stmtsGuarded (c.inBlock body) body).value with heq | heq
    · rw [heq]
      exact h
    · rw [heq]
      rcases holds_stmts_iff.mp h with ⟨s, hs, hholds⟩
      exact holds_stmts_iff.mpr (exists_bindGuards hs hholds _ _)
  exact hstmts.below (j := 0) rfl

/-- What the walk makes of an item stands in what it makes of all around it. -/
theorem holds_guarded {n : Node} {c : Context} {a : Address}
    {xs : List Crossing} {i : Item} (hruntime : c.runtime.opensCall = true)
    (hvisit : n.visit? a = some (xs, .item i)) :
    (n.guarded c).value.Holds (.item (i.guarded (c.along xs)).value) := by
  induction a generalizing n c xs with
  | nil =>
      cases hvisit
      exact .here _
  | cons j a ih =>
      rcases exists_child_of_visit? hvisit with
        ⟨x, m, ys, hchild, hbelow, hxs⟩
      rw [hxs, Context.along_cons]
      have hinside : (c.cross x).runtime.opensCall = true := by
        rw [Context.runtime_cross]
        exact hruntime
      have hm := ih hinside hbelow
      by_cases hblock : exists body, n = .block body
      · rcases hblock with ⟨body, hn⟩
        rw [hn] at hchild ⊢
        rcases j with _ | j <;> cases hchild
        exact holds_block hruntime hm
      · rcases inside?_guarded c hchild (fun body hn => hblock ⟨body, hn⟩) with
          hvalue | hattrs
        · exact hm.below hvalue
        · -- Below no attributes there is nothing.
          rw [hattrs] at hbelow
          cases a <;> cases hbelow

end Node
end ScopeExit
