import Mathlib.Tactic.Tauto
import ScopeExit.Proofs.Places
import ScopeExit.Syntax.Print

/-!
# Places and their tokens

A place is written with some of the tokens of the place above it.  So whatever
holds for all tokens of an item holds at all places that the walk comes to.
-/

namespace ScopeExit

def Node.tokens : Node -> List Token
  | attr a => a.tokens
  | attrs as => attrsTokens false as ++ attrsTokens true as
  | part p => p.tokens
  | parts ps => partsTokens ps
  | segment s => s.tokens
  | segments ss => segmentsTokens false ss
  | path p => p.tokens
  | expr e => e.tokens
  | kind k => k.tokens []
  | pat p => p.tokens
  | arm a => a.tokens
  | arms as => armsTokens as
  | block body => stmtsTokens body
  | stmt s => s.tokens
  | stmts ss => stmtsTokens ss
  | item i => i.tokens
  | items is => itemsTokens is
  | itemKind k => k.tokens []

/-!
Inner attributes are written behind a brace.  A shape alone is written as if it
had none.
-/

theorem ExprKind.tokens_nil_subset (inner : List Token) (k : ExprKind) :
    k.tokens [] ⊆ k.tokens inner := by
  cases k with
  | block style body | whileLoop label cond body
  | forLoop label pat source body | loop label body
  | matchOn scrutinee arms =>
      simp only [ExprKind.tokens, Token.group, List.subset_def,
        List.mem_append, List.mem_cons, List.nil_append]
      tauto
  | _ => exact List.Subset.refl _

theorem ExprKind.inner_subset_tokens (inner : List Token) {k : ExprKind}
    (h : k.isBraced = true) : inner ⊆ k.tokens inner := by
  cases k with
  | block style body | whileLoop label cond body
  | forLoop label pat source body | loop label body
  | matchOn scrutinee arms =>
      simp only [ExprKind.tokens, Token.group, List.subset_def,
        List.mem_append, List.mem_cons]
      tauto
  | _ => cases h

theorem ItemKind.tokens_nil_subset (inner : List Token) (k : ItemKind) :
    k.tokens [] ⊆ k.tokens inner := by
  cases k with
  | function before isConst qualifiers name signature body
  | implementation header members | traitDef before name header members
  | module before name items =>
      simp only [ItemKind.tokens, Token.group, List.subset_def,
        List.mem_append, List.mem_cons, List.nil_append]
      tauto
  | _ => exact List.Subset.refl _

theorem ItemKind.inner_subset_tokens (inner : List Token) {k : ItemKind}
    (h : k.isBraced = true) : inner ⊆ k.tokens inner := by
  cases k with
  | function before isConst qualifiers name signature body
  | implementation header members | traitDef before name header members
  | module before name items =>
      simp only [ItemKind.tokens, Token.group, List.subset_def,
        List.mem_append, List.mem_cons]
      tauto
  | _ => cases h

theorem subset_parenIf (present : Bool) (ts : List Token) :
    ts ⊆ parenIf present ts := by
  cases present with
  | true => simp [parenIf, Token.group]
  | false => exact List.Subset.refl _

theorem segmentsTokens_false_subset (led : Bool) (ss : List Segment) :
    segmentsTokens false ss ⊆ segmentsTokens led ss := by
  cases ss with
  | nil => exact List.Subset.refl _
  | cons s rest => cases led <;> simp [segmentsTokens]

namespace Node

theorem attrs_subset_expr (as : List Attr) (k : ExprKind) :
    (attrs as).tokens ⊆ (expr (.mk as k)).tokens ∧
      (kind k).tokens ⊆ (expr (.mk as k)).tokens := by
  have hkind := ExprKind.tokens_nil_subset (attrsTokens true as) k
  have hparens := subset_parenIf (k.isRange && !as.isEmpty)
    (k.tokens (attrsTokens true as))
  constructor
  · rw [Node.tokens, Node.tokens, Expr.tokens, List.append_subset]
    cases hbraced : k.isBraced with
    | false => simp
    | true =>
        have hinner := List.Subset.trans (ExprKind.inner_subset_tokens
          (attrsTokens true as) hbraced) hparens
        simp [List.subset_append_of_subset_right, hinner]
  · exact List.subset_append_of_subset_right _
      (List.Subset.trans hkind hparens)

theorem attrs_subset_item (as : List Attr) (k : ItemKind) :
    (attrs as).tokens ⊆ (item (.mk as k)).tokens ∧
      (itemKind k).tokens ⊆ (item (.mk as k)).tokens := by
  have hkind := ItemKind.tokens_nil_subset (attrsTokens true as) k
  constructor
  · rw [Node.tokens, Node.tokens, Item.tokens, List.append_subset]
    cases hbraced : k.isBraced with
    | false => simp
    | true =>
        have hinner := ItemKind.inner_subset_tokens
          (attrsTokens true as) hbraced
        simp [List.subset_append_of_subset_right, hinner]
  · exact List.subset_append_of_subset_right _ hkind

theorem tokens_ofKind (k : ExprKind) :
    forall q, q ∈ ofKind k -> q.2.tokens ⊆ k.tokens [] := by
  cases k <;>
    simp +contextual [ofKind, onLevel, Node.tokens, ExprKind.tokens,
      Token.group, List.subset_def]

theorem tokens_ofItemKind (k : ItemKind) :
    forall m, m ∈ ofItemKind k -> m.tokens ⊆ k.tokens [] := by
  cases k <;>
    simp +contextual [ofItemKind, Node.tokens, ItemKind.tokens, Token.group,
      List.subset_def]

theorem tokens_ofStmt (s : Stmt) :
    forall m, m ∈ ofStmt s -> m.tokens ⊆ s.tokens := by
  cases s <;>
    simp only [ofStmt, Node.tokens, Stmt.tokens, List.mem_cons,
      List.not_mem_nil, or_false, List.subset_def, List.mem_append,
      forall_eq_or_imp, forall_eq] <;>
    tauto

theorem mem_onLevel {ns : List Node} {q : Crossing × Node}
    (h : q ∈ onLevel ns) : q.2 ∈ ns := by
  rcases List.mem_map.mp h with ⟨m, hm, heq⟩
  rw [← heq]
  exact hm

theorem tokens_children (n : Node) :
    forall q, q ∈ n.children -> q.2.tokens ⊆ n.tokens := by
  cases n with
  | attr a =>
      rcases a with ⟨inner, path, args⟩
      simp only [children, onLevel, List.map_cons, List.map_nil,
        Node.tokens, Attr.tokens, Token.group, List.mem_cons,
        List.not_mem_nil, or_false, List.subset_def, List.mem_append,
        forall_eq]
      tauto
  | attrs as =>
      cases as with
      | nil => simp [children]
      | cons a rest =>
          rcases a with ⟨inner, path, args⟩
          cases inner <;>
            simp only [children, onLevel, List.map_cons, List.map_nil,
              Node.tokens, attrsTokens, if_true, Bool.false_eq_true,
              Bool.true_eq_false, if_false, List.nil_append, List.mem_cons,
              List.not_mem_nil, or_false, List.subset_def, List.mem_append,
              forall_eq_or_imp, forall_eq] <;>
            tauto
  | part p =>
      cases p <;>
        simp [children, onLevel, Node.tokens, Part.tokens]
  | parts ps =>
      cases ps <;> simp [children, onLevel, Node.tokens, partsTokens]
  | segment s =>
      rcases s with ⟨name, args⟩
      simp [children, onLevel, Node.tokens, Segment.tokens]
  | segments ss =>
      cases ss with
      | nil => simp [children]
      | cons s rest =>
          have hrest := segmentsTokens_false_subset true rest
          simp [children, onLevel, Node.tokens, segmentsTokens,
            List.subset_append_of_subset_right, hrest]
  | path p =>
      rcases p with ⟨absolute, ss⟩
      have hss := segmentsTokens_false_subset absolute ss
      simpa [children, onLevel, Node.tokens, Path.tokens] using hss
  | expr e =>
      rcases e with ⟨as, k⟩
      rcases attrs_subset_expr as k with ⟨has, hk⟩
      have hwalked : (attrs (if k.hasWalkedAttrs then as else [])).tokens ⊆
          (expr (.mk as k)).tokens := by
        split
        · exact has
        · exact List.nil_subset _
      simpa [children] using And.intro hwalked hk
  | kind k => exact tokens_ofKind k
  | pat p =>
      cases p <;> simp [children, onLevel, Node.tokens, Pat.tokens]
  | arm a =>
      rcases a with ⟨as, p, guard, body, comma⟩
      simp only [children, Node.tokens, Arm.tokens, List.mem_cons,
        List.not_mem_nil, or_false, List.subset_def, List.mem_append,
        forall_eq_or_imp, forall_eq]
      tauto
  | arms as =>
      cases as <;> simp [children, onLevel, Node.tokens, armsTokens]
  | block body => simp [children, Node.tokens]
  | stmt s =>
      intro q hq
      exact tokens_ofStmt s q.2 (mem_onLevel hq)
  | stmts ss =>
      cases ss <;> simp [children, Node.tokens, stmtsTokens]
  | item i =>
      rcases i with ⟨as, k⟩
      rcases attrs_subset_item as k with ⟨has, hk⟩
      have hwalked : (attrs (if k.hasWalkedAttrs then as else [])).tokens ⊆
          (item (.mk as k)).tokens := by
        split
        · exact has
        · exact List.nil_subset _
      rw [children]
      split
      · simp
      · simpa using And.intro hwalked hk
  | items is =>
      cases is <;> simp [children, onLevel, Node.tokens, itemsTokens]
  | itemKind k =>
      intro q hq
      exact tokens_ofItemKind k q.2 (mem_onLevel hq)

end Node

end ScopeExit
