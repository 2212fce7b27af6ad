import Mathlib.Data.List.Nodup
import ScopeExit.Proofs.GuardsInPlace
import ScopeExit.Proofs.Idempotence

/-!
# Places in the order of the walk

The walk comes to a place before it comes to those below, and it looks at those
from left to right, but for a clause that is written behind the body it belongs
to.  So the places of a tree can be listed, and faults can be read off that list.
-/

namespace ScopeExit

namespace Context

theorem cross_level (c : Context) : c.cross .level = c := rfl

theorem cross_pattern (c : Context) (p : Pat) :
    c.cross (.pattern p) = c.binding p.binders := rfl

theorem cross_condition (c : Context) (cond : Expr) :
    c.cross (.condition cond) = c.binding cond.conditionBinders := rfl

theorem cross_block (c : Context) (body : List Stmt) :
    c.cross (.block body) = c.inBlock body := rfl

end Context

namespace Node

/-- The places directly below a place in the order of the walk, each with its
number. -/
def inOrder : Node -> List (Nat × Crossing × Node)
  | .part (.clauseLast body clause) =>
      [(1, .level, .parts clause), (0, .level, .parts body)]
  | n => n.children.zipIdx.map fun q => (q.2, q.1)

theorem mem_zipIdx_map_iff {α : Type} {l : List α} {j : Nat} {x : α} :
    (j, x) ∈ (l.zipIdx.map fun q => (q.2, q.1)) ↔ l[j]? = some x := by
  constructor
  · intro h
    rcases List.mem_map.mp h with ⟨q, hq, heq⟩
    cases heq
    exact List.mem_zipIdx_iff_getElem?.mp hq
  · intro h
    exact List.mem_map.mpr ⟨(x, j), List.mem_zipIdx_iff_getElem?.mpr h, rfl⟩

theorem mem_inOrder_iff {n : Node} {j : Nat} {q : Crossing × Node} :
    (j, q) ∈ n.inOrder ↔ n.children[j]? = some q := by
  unfold inOrder
  split
  · rename_i body clause
    match j with
    | 0 => simp [children, onLevel, eq_comm]
    | 1 => simp [children, onLevel, eq_comm]
    | j + 2 => simp [children, onLevel]
  · exact mem_zipIdx_map_iff

theorem nodup_inOrder (n : Node) : (n.inOrder.map Prod.fst).Nodup := by
  unfold inOrder
  split
  · simp
  · rw [List.map_map]
    have hnumbers : n.children.zipIdx.map
        (Prod.fst ∘ fun q : (Crossing × Node) × Nat => (q.2, q.1)) =
          List.range n.children.length := by
      simp [Function.comp_def, List.range_eq_range']
    rw [hnumbers]
    exact List.nodup_range

/-!
Everything that lies below a place is smaller.  A block holds the same
statements as the list below it, so it has to weigh more.
-/

noncomputable def weight (n : Node) : Nat :=
  2 * sizeOf n +
    match n with
    | .block _ => 1
    | _ => 0

theorem sizeOf_walkedAttrs_le (walked : Bool) (as : List Attr) :
    sizeOf (if walked then as else []) ≤ sizeOf as := by
  cases walked with
  | true => exact Nat.le_refl _
  | false =>
      cases as with
      | nil => exact Nat.le_refl _
      | cons a rest =>
          simp
          omega

theorem weight_children (n : Node) :
    forall q, q ∈ n.children -> q.2.weight < n.weight := by
  cases n with
  | attr a =>
      rcases a with ⟨inner, path, args⟩
      simp only [children, onLevel, weight, attr.sizeOf_spec,
        Attr.mk.sizeOf_spec, parts.sizeOf_spec, List.map_cons, List.map_nil,
        List.mem_singleton, forall_eq]
      omega
  | attrs as =>
      cases as with
      | nil => simp [children]
      | cons a rest =>
          simp [children, onLevel, weight]
          omega
  | part p =>
      cases p with
      | clauseLast body clause =>
          simp [children, onLevel, weight]
          omega
      | _ => simp [children, onLevel, weight]
  | parts ps =>
      cases ps with
      | nil => simp [children]
      | cons p rest =>
          simp [children, onLevel, weight]
          omega
  | segment s =>
      rcases s with ⟨name, args⟩
      simp only [children, onLevel, weight, segment.sizeOf_spec,
        Segment.mk.sizeOf_spec, parts.sizeOf_spec, List.map_cons,
        List.map_nil, List.mem_singleton, forall_eq]
      omega
  | segments ss =>
      cases ss with
      | nil => simp [children]
      | cons s rest =>
          simp [children, onLevel, weight]
          omega
  | path p =>
      rcases p with ⟨absolute, ss⟩
      simp [children, onLevel, weight]
  | expr e =>
      rcases e with ⟨as, k⟩
      have hwalked := sizeOf_walkedAttrs_le k.hasWalkedAttrs as
      simp only [children, weight, expr.sizeOf_spec, attrs.sizeOf_spec,
        Expr.mk.sizeOf_spec, List.mem_cons, List.not_mem_nil, or_false,
        forall_eq_or_imp, forall_eq, kind.sizeOf_spec]
      omega
  | kind k =>
      cases k <;> simp [children, ofKind, onLevel, weight] <;> omega
  | pat p =>
      cases p with
      | binder before name sub =>
          simp only [children, onLevel, weight, pat.sizeOf_spec,
            Pat.binder.sizeOf_spec, parts.sizeOf_spec, List.map_cons,
            List.map_nil, List.mem_singleton, forall_eq]
          omega
      | compound ps => simp [children, onLevel, weight]
  | arm a =>
      rcases a with ⟨as, p, guard, body, comma⟩
      simp [children, weight]
      omega
  | arms as =>
      cases as with
      | nil => simp [children]
      | cons a rest =>
          simp [children, onLevel, weight]
          omega
  | block body => simp [children, weight]
  | stmt s =>
      cases s <;> simp [children, ofStmt, onLevel, weight] <;> omega
  | stmts ss =>
      cases ss with
      | nil => simp [children]
      | cons s rest =>
          simp [children, weight]
          omega
  | item i =>
      rcases i with ⟨as, k⟩
      have hwalked := sizeOf_walkedAttrs_le k.hasWalkedAttrs as
      rw [children]
      split
      · simp
      · simp [weight]
        omega
  | items is =>
      cases is with
      | nil => simp [children]
      | cons i rest =>
          simp [children, onLevel, weight]
          omega
  | itemKind k =>
      cases k <;> simp [children, ofItemKind, onLevel, weight] <;> omega

theorem weight_inOrder {n : Node} {q : Nat × Crossing × Node}
    (h : q ∈ n.inOrder) : q.2.2.weight < n.weight := by
  have hchild := mem_inOrder_iff.mp h
  exact weight_children n q.2 (List.mem_of_getElem? hchild)

theorem induct {P : Node -> Prop}
    (step : forall n : Node,
      (forall q, q ∈ n.inOrder -> P q.2.2) -> P n) (n : Node) : P n := by
  apply step
  intro q hq
  exact induct step q.2.2
termination_by n.weight
decreasing_by exact weight_inOrder hq

/-- The addresses of all places of a tree, in the order of the walk. -/
def places (n : Node) : List Address :=
  [] :: n.inOrder.attach.flatMap fun q =>
    q.1.2.2.places.map (q.1.1 :: ·)
termination_by n.weight
decreasing_by exact weight_inOrder q.2

theorem places_eq (n : Node) :
    n.places =
      [] :: n.inOrder.flatMap fun q => q.2.2.places.map (q.1 :: ·) := by
  rw [places]
  conv_rhs => rw [← List.attach_map_subtype_val n.inOrder, List.flatMap_map]

theorem mem_places_cons_iff {n : Node} {j : Nat} {a : Address} :
    j :: a ∈ n.places ↔
      exists q, n.children[j]? = some q ∧ a ∈ q.2.places := by
  rw [places_eq]
  constructor
  · intro h
    rcases List.mem_cons.mp h with hnil | hbelow
    · cases hnil
    · rcases List.mem_flatMap.mp hbelow with ⟨q, hq, hmap⟩
      rcases List.mem_map.mp hmap with ⟨b, hb, heq⟩
      cases heq
      exact ⟨q.2, mem_inOrder_iff.mp hq, hb⟩
  · rintro ⟨q, hchild, ha⟩
    apply List.mem_cons_of_mem
    apply List.mem_flatMap.mpr
    exact ⟨(j, q), mem_inOrder_iff.mpr hchild, List.mem_map_of_mem ha⟩

theorem mem_places_iff (n : Node) (a : Address) :
    a ∈ n.places ↔ (n.visit? a).isSome = true := by
  induction a generalizing n with
  | nil =>
      rw [places_eq]
      simp [visit?]
  | cons j a ih =>
      rw [mem_places_cons_iff]
      cases hchild : n.children[j]? with
      | none => simp [visit?, hchild]
      | some q =>
          rcases q with ⟨x, m⟩
          simp [visit?_cons hchild, ih m]

theorem nodup_places (n : Node) : n.places.Nodup := by
  induction n using induct with
  | step n ih =>
      rw [places_eq, List.nodup_cons, List.nodup_flatMap]
      refine ⟨by simp, ?_, ?_⟩
      · intro q hq
        apply (ih q hq).map
        intro a b heq
        exact (List.cons.inj heq).2
      · have hnumbers := nodup_inOrder n
        rw [List.Nodup, List.pairwise_map] at hnumbers
        refine hnumbers.imp ?_
        intro q r hne a hq hr
        rcases List.mem_map.mp hq with ⟨b, _, hb⟩
        rcases List.mem_map.mp hr with ⟨b', _, hb'⟩
        rw [← hb] at hb'
        exact hne (List.cons.inj hb').1.symm

/-!
## Faults at a place

The walk judges a statement when it comes to it, and a block when it leaves it.
-/

/-- The walk over a place, with the judgement of a statement in front. -/
def guarded (c : Context) : Node -> Report Node
  | .attr a => return .attr (← a.guarded c)
  | .attrs as => return .attrs (← attrsGuarded c as)
  | .part p => return .part (← p.guarded c)
  | .parts ps => return .parts (← partsGuarded c ps)
  | .segment s => return .segment (← s.guarded c)
  | .segments ss => return .segments (← segmentsGuarded c ss)
  | .path p => return .path (← p.guarded c)
  | .expr e => return .expr (← e.guarded c)
  | .kind k => return .kind (← k.guarded c)
  | .pat p => return .pat (← p.guarded c)
  | .arm a => return .arm (← a.guarded c)
  | .arms as => return .arms (← armsGuarded c as)
  | .block body =>
      return .block (← Stmt.walkBlock c body fun c => stmtsGuarded c body)
  | .stmt s => do
      s.check c
      return .stmt (← s.guarded c)
  | .stmts ss => return .stmts ((← stmtsGuarded c ss).map Prod.fst)
  | .item i => return .item (← i.guarded c)
  | .items is => return .items (← itemsGuarded c is)
  | .itemKind k => return .itemKind (← k.guarded c)

def faultsBefore (c : Context) : Node -> List Fault
  | .stmt s => (s.check c).faults
  | _ => []

def faultsBehind (c : Context) : Node -> List Fault
  | .block body =>
      (Stmt.finishBlock c
        (stmtsGuarded (c.inBlock body) body).value).faults
  | _ => []

def faultsInside (c : Context) (n : Node) : List Fault :=
  n.inOrder.flatMap fun q => (q.2.2.guarded (c.cross q.2.1)).faults

theorem faults_kind (c : Context) (k : ExprKind) :
    (k.guarded c).faults = (kind k).faultsInside c := by
  cases k <;>
    simp [faultsInside, inOrder, children, ofKind, onLevel, guarded,
      ExprKind.guarded, Context.cross_level, Context.cross_pattern,
      Context.cross_condition, Expr.conditionBinders_guarded]

theorem faults_itemKind (c : Context) (k : ItemKind) :
    (k.guarded c).faults = (itemKind k).faultsInside c := by
  cases k <;>
    simp [faultsInside, inOrder, children, ofItemKind, onLevel, guarded,
      ItemKind.guarded, Context.cross_level]

theorem faults_stmt (c : Context) (s : Stmt) :
    (s.guarded c).faults = (stmt s).faultsInside c := by
  cases s <;>
    simp [faultsInside, inOrder, children, ofStmt, onLevel, guarded,
      Stmt.guarded, Context.cross_level]

theorem faults_expr (c : Context) (e : Expr) :
    (e.guarded c).faults = (expr e).faultsInside c := by
  rcases e with ⟨as, k⟩
  cases hwalked : k.hasWalkedAttrs <;>
    simp [faultsInside, inOrder, children, guarded, Expr.guarded, attrsGuarded,
      hwalked, ExprKind.cross_crossing]

theorem faults_item (c : Context) (i : Item) :
    (i.guarded c).faults = (item i).faultsInside c := by
  rcases i with ⟨as, k⟩
  cases hskip : k.isExpandable && hasOwnExpansion as with
  | true => simp [faultsInside, inOrder, children, Item.guarded, hskip]
  | false =>
      cases hwalked : k.hasWalkedAttrs <;>
        simp [faultsInside, inOrder, children, guarded, Item.guarded,
          attrsGuarded, hskip, hwalked, ItemKind.cross_crossing]

/-- All that the walk finds wrong at a place and below it. -/
theorem faults_guarded (c : Context) (n : Node) :
    (n.guarded c).faults =
      n.faultsBefore c ++ n.faultsInside c ++ n.faultsBehind c := by
  cases n with
  | attr a =>
      rcases a with ⟨inner, path, args⟩
      simp [guarded, faultsBefore, faultsInside, faultsBehind, inOrder,
        children, onLevel, Attr.guarded, Context.cross_level]
  | attrs as =>
      cases as <;>
        simp [guarded, faultsBefore, faultsInside, faultsBehind, inOrder,
          children, onLevel, attrsGuarded, Context.cross_level]
  | part p =>
      cases p <;>
        simp [guarded, faultsBefore, faultsInside, faultsBehind, inOrder,
          children, onLevel, Part.guarded, Context.cross_level]
  | parts ps =>
      cases ps <;>
        simp [guarded, faultsBefore, faultsInside, faultsBehind, inOrder,
          children, onLevel, partsGuarded, Context.cross_level]
  | segment s =>
      rcases s with ⟨name, args⟩
      simp [guarded, faultsBefore, faultsInside, faultsBehind, inOrder,
        children, onLevel, Segment.guarded, Context.cross_level]
  | segments ss =>
      cases ss <;>
        simp [guarded, faultsBefore, faultsInside, faultsBehind, inOrder,
          children, onLevel, segmentsGuarded, Context.cross_level]
  | path p =>
      rcases p with ⟨absolute, ss⟩
      simp [guarded, faultsBefore, faultsInside, faultsBehind, inOrder,
        children, onLevel, Path.guarded, Context.cross_level]
  | expr e => simp [guarded, faultsBefore, faultsBehind, faults_expr]
  | kind k => simp [guarded, faultsBefore, faultsBehind, faults_kind]
  | pat p =>
      cases p <;>
        simp [guarded, faultsBefore, faultsInside, faultsBehind, inOrder,
          children, onLevel, Pat.guarded, Context.cross_level]
  | arm a =>
      rcases a with ⟨as, p, guard, body, comma⟩
      simp [guarded, faultsBefore, faultsInside, faultsBehind, inOrder,
        children, Arm.guarded, Context.cross_pattern]
  | arms as =>
      cases as <;>
        simp [guarded, faultsBefore, faultsInside, faultsBehind, inOrder,
          children, onLevel, armsGuarded, Context.cross_level]
  | block body =>
      simp [guarded, faultsBefore, faultsInside, faultsBehind, inOrder,
        children, Stmt.walkBlock, Context.cross_block]
  | stmt s => simp [guarded, faultsBefore, faultsBehind, faults_stmt]
  | stmts ss =>
      cases ss <;>
        simp [guarded, faultsBefore, faultsInside, faultsBehind, inOrder,
          children, stmtsGuarded, Context.cross_level, Context.cross_behind,
          Context.afterStmt_guarded]
  | item i => simp [guarded, faultsBefore, faultsBehind, faults_item]
  | items is =>
      cases is <;>
        simp [guarded, faultsBefore, faultsInside, faultsBehind, inOrder,
          children, onLevel, itemsGuarded, Context.cross_level]
  | itemKind k => simp [guarded, faultsBefore, faultsBehind, faults_itemKind]

/-!
## Registrations that are refused

A registration that is evaluated at compile time is a fault, which says where it
stands.  It is found when the walk comes to the statement.
-/

theorem registers_cons {n m : Node} {j : Nat} {x : Crossing}
    (h : n.children[j]? = some (x, m)) (c : Context) (a : Address) :
    n.registers c (j :: a) = m.registers (c.cross x) a := by
  rw [registers, registers, visit?_cons h]
  cases m.visit? a with
  | none => rfl
  | some found =>
      rcases found with ⟨ys, k⟩
      cases k <;> rfl

theorem isConstAt_cons {n m : Node} {j : Nat} {x : Crossing}
    (h : n.children[j]? = some (x, m)) (c : Context) (a : Address) :
    n.isConstAt c (j :: a) = m.isConstAt (c.cross x) a := by
  rw [isConstAt, isConstAt, visit?_cons h]
  cases m.visit? a <;> rfl

def position (n : Node) (a : Address) : Position :=
  match n.visit? a with
  | some (_, .stmt (.expr pos _ _)) => pos
  | _ => .origin

theorem position_cons {n m : Node} {j : Nat} {x : Crossing}
    (h : n.children[j]? = some (x, m)) (a : Address) :
    n.position (j :: a) = m.position a := by
  rw [position, position, visit?_cons h]
  cases m.visit? a with
  | none => rfl
  | some found =>
      rcases found with ⟨ys, k⟩
      cases k with
      | stmt s => cases s <;> rfl
      | _ => rfl

/-- Whether the statement at an address is a registration that is evaluated at
compile time. -/
def isRefused (c : Context) (n : Node) (a : Address) : Bool :=
  n.registers c a && n.isConstAt c a

theorem isRefused_cons {n m : Node} {j : Nat} {x : Crossing}
    (h : n.children[j]? = some (x, m)) (c : Context) (a : Address) :
    n.isRefused c (j :: a) = m.isRefused (c.cross x) a := by
  rw [isRefused, isRefused, registers_cons h, isConstAt_cons h]

/-- The addresses of all registrations that are evaluated at compile time, in
the order of the walk. -/
def refused (c : Context) (n : Node) : List Address :=
  n.places.filter (n.isRefused c)

theorem mem_refused_iff (c : Context) (n : Node) (a : Address) :
    a ∈ n.refused c ↔
      n.registers c a = true ∧ n.isConstAt c a = true := by
  rw [refused, List.mem_filter, mem_places_iff, isRefused, Bool.and_eq_true]
  constructor
  · intro h
    exact h.2
  · intro h
    refine ⟨?_, h⟩
    rw [registers] at h
    cases hvisit : n.visit? a with
    | none =>
        rw [hvisit] at h
        cases h.1
    | some found => rfl

theorem nodup_refused (c : Context) (n : Node) : (n.refused c).Nodup :=
  n.nodup_places.filter _

theorem refused_eq (c : Context) (n : Node) :
    n.refused c =
      (if n.isRefused c [] then [[]] else []) ++
        n.inOrder.flatMap fun q =>
          (q.2.2.refused (c.cross q.2.1)).map (q.1 :: ·) := by
  have hbelow : (n.inOrder.flatMap fun q =>
      (q.2.2.places.map (q.1 :: ·)).filter (n.isRefused c)) =
        n.inOrder.flatMap fun q =>
          (q.2.2.refused (c.cross q.2.1)).map (q.1 :: ·) := by
    apply List.flatMap_congr
    intro q hq
    rw [List.filter_map, refused]
    congr 2
    funext a
    exact isRefused_cons (mem_inOrder_iff.mp hq) c a
  rw [refused, places_eq, List.filter_cons, List.filter_flatMap, hbelow]
  split <;> rfl

def refusal (n : Node) (a : Address) : Fault := .constContext (n.position a)

theorem faultsBefore_eq (c : Context) (n : Node) :
    n.faultsBefore c = if n.isRefused c [] then [n.refusal []] else [] := by
  cases n with
  | stmt s =>
      have hrefused : (stmt s).isRefused c [] =
          (s.isRegistration c.scope && c.inConst) := rfl
      rw [hrefused, Bool.and_comm]
      cases s with
      | expr pos e semi =>
          rw [faultsBefore, Stmt.check]
          split <;> rfl
      | _ => simp [faultsBefore, Stmt.check, Stmt.isRegistration]
  | _ => rfl

/-- Leaving a place is no fault: with a runtime that a call may begin with, all
blocks are guarded. -/
theorem faultsBehind_eq_nil {c : Context}
    (hruntime : c.runtime.opensCall = true) (n : Node) :
    n.faultsBehind c = [] := by
  cases n with
  | block body => exact Stmt.faults_finishBlock hruntime _
  | _ => rfl

/-- The refused registrations are those that faults are found for, one for
each of them and in the order of the walk, and nothing else is a fault. -/
theorem faults_guarded_eq {c : Context}
    (hruntime : c.runtime.opensCall = true) (n : Node) :
    (n.guarded c).faults = (n.refused c).map n.refusal := by
  induction n using induct generalizing c with
  | step n ih =>
      have hinside : n.faultsInside c =
          n.inOrder.flatMap fun q =>
            ((q.2.2.refused (c.cross q.2.1)).map (q.1 :: ·)).map
              n.refusal := by
        apply List.flatMap_congr
        intro q hq
        have hbelow : (c.cross q.2.1).runtime.opensCall = true := by
          rw [Context.runtime_cross]
          exact hruntime
        rw [ih q hq hbelow, List.map_map]
        congr 1
        funext a
        simp [refusal, position_cons (mem_inOrder_iff.mp hq)]
      rw [faults_guarded, faultsBehind_eq_nil hruntime, hinside,
        faultsBefore_eq, refused_eq, List.map_append, List.map_flatMap,
        List.append_nil]
      split <;> rfl

end Node

end ScopeExit
