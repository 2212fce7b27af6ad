import ScopeExit.Proofs.ScopeDiscipline

/-!
# Putting something else in a place

A place of a tree can be taken out and another one put there.  From outside that
can be noticed only by what the places around it look at: names that are declared
or bound, attributes, the shape of a call.
-/

namespace ScopeExit

/-!
## Replacing

A tree is replaced piece by piece, also where the walk does not come: attributes
that it passes over, the pattern of a loop, the signature of a function, an item
with an expansion of its own.  Such places have numbers too.  Where the walk does
come, the numbers are those of its own addresses.
-/

namespace Node

def inside? : Node -> Nat -> Option Node
  | .expr (.mk as _), 0 => some (.attrs as)
  | .expr (.mk _ k), 1 => some (.kind k)
  | .item (.mk as _), 0 => some (.attrs as)
  | .item (.mk _ k), 1 => some (.itemKind k)
  | .kind (.forLoop _ p _ _), 2 => some (.pat p)
  | .itemKind (.function _ _ _ _ signature _), 1 => some (.parts signature)
  | n, j => n.children[j]?.map Prod.snd

def find? : Node -> Address -> Option Node
  | n, [] => some n
  | n, j :: a => (n.inside? j).bind fun m => m.find? a

theorem inside?_of_children {n m : Node} {j : Nat} {x : Crossing}
    (h : n.children[j]? = some (x, m)) :
    n.inside? j = some m ∨ m = .attrs [] := by
  cases n with
  | expr e =>
      rcases e with ⟨as, k⟩
      rcases j with _ | _ | j <;> cases h
      · cases k.hasWalkedAttrs with
        | true => exact .inl rfl
        | false => exact .inr rfl
      · exact .inl rfl
  | item i =>
      rcases i with ⟨as, k⟩
      rw [children] at h
      split at h
      · cases h
      · rcases j with _ | _ | j <;> cases h
        · cases k.hasWalkedAttrs with
          | true => exact .inl rfl
          | false => exact .inr rfl
        · exact .inl rfl
  | kind k =>
      cases k with
      | forLoop label p source body =>
          rcases j with _ | _ | j <;> cases h <;> exact .inl rfl
      | _ => exact .inl (congrArg (Option.map Prod.snd) h)
  | itemKind k =>
      cases k with
      | function before isConst qualifiers name signature body =>
          rcases j with _ | j <;> cases h
          exact .inl rfl
      | _ => exact .inl (congrArg (Option.map Prod.snd) h)
  | _ => exact .inl (congrArg (Option.map Prod.snd) h)

theorem find?_of_visit? {n : Node} {a : Address} {xs : List Crossing}
    {s : Stmt} (h : n.visit? a = some (xs, .stmt s)) :
    n.find? a = some (.stmt s) := by
  induction a generalizing n xs with
  | nil =>
      cases h
      rfl
  | cons j a ih =>
      rcases exists_child_of_visit? h with ⟨x, m, ys, hchild, hbelow, _⟩
      rcases inside?_of_children hchild with hinside | hattrs
      · rw [find?, hinside]
        exact ih hbelow
      · -- Below no attributes there is nothing.
        rw [hattrs] at hbelow
        cases a <;> cases hbelow

end Node

def ExprKind.withChild : ExprKind -> Nat -> Node -> ExprKind
  | .path _, _, .path p => .path p
  | .qualified _, _, .parts ps => .qualified ps
  | .call _ args, _, .expr callee => .call callee args
  | .call callee _, _, .parts args => .call callee args
  | .closure _ marks inputs output body, 0, .parts binder =>
      .closure binder marks inputs output body
  | .closure binder marks _ output body, 1, .parts inputs =>
      .closure binder marks inputs output body
  | .closure binder marks inputs _ body, _, .parts output =>
      .closure binder marks inputs output body
  | .closure binder marks inputs output _, _, .expr body =>
      .closure binder marks inputs output body
  | .paren _, _, .expr inner => .paren inner
  | .block style _, _, .block body => .block style body
  | .ifThen _ body, _, .expr cond => .ifThen cond body
  | .ifThen cond _, _, .block body => .ifThen cond body
  | .ifElse _ body orElse, 0, .expr cond => .ifElse cond body orElse
  | .ifElse cond _ orElse, _, .block body => .ifElse cond body orElse
  | .ifElse cond body _, _, .expr orElse => .ifElse cond body orElse
  | .whileLoop label _ body, _, .expr cond => .whileLoop label cond body
  | .whileLoop label cond _, _, .block body => .whileLoop label cond body
  | .forLoop label p _ body, _, .expr source => .forLoop label p source body
  | .forLoop label p source _, _, .block body => .forLoop label p source body
  | .forLoop label _ source body, _, .pat p => .forLoop label p source body
  | .loop label _, _, .block body => .loop label body
  | .matchOn _ arms, _, .expr scrutinee => .matchOn scrutinee arms
  | .matchOn scrutinee _, _, .arms arms => .matchOn scrutinee arms
  | .letCond _ scrutinee, _, .pat p => .letCond p scrutinee
  | .letCond p _, _, .expr scrutinee => .letCond p scrutinee
  | .binary _ op right, 0, .expr left => .binary left op right
  | .binary left op _, _, .expr right => .binary left op right
  | .ret _, _, .parts value => .ret value
  | .breakTo label _, _, .parts value => .breakTo label value
  | .range _, _, .parts ps => .range ps
  | .data _, _, .parts ps => .data ps
  | .other _, _, .parts ps => .other ps
  | k, _, _ => k

def Stmt.withChild : Stmt -> Node -> Stmt
  | .binding _ p init, .attrs as => .binding as p init
  | .binding as _ init, .pat p => .binding as p init
  | .binding as p _, .parts init => .binding as p init
  | .item _, .item i => .item i
  | .expr pos _ semi, .expr e => .expr pos e semi
  | .invocation _ m semi, .attrs as => .invocation as m semi
  | s, _ => s

def ItemKind.withChild : ItemKind -> Node -> ItemKind
  | .function before isConst qualifiers name signature _, .block body =>
      .function before isConst qualifiers name signature body
  | .function before isConst qualifiers name _ body, .parts signature =>
      .function before isConst qualifiers name signature body
  | .constant before name _, .parts after => .constant before name after
  | .implementation _ members, .parts header =>
      .implementation header members
  | .implementation header _, .items members =>
      .implementation header members
  | .traitDef before name _ members, .parts header =>
      .traitDef before name header members
  | .traitDef before name header _, .items members =>
      .traitDef before name header members
  | .module before name _, .items is => .module before name is
  | .definition before name _, .parts after =>
      .definition before name after
  | .other _, .parts ps => .other ps
  | k, _ => k

namespace Node

/-- A place with another one below it, at a number.  What cannot stand there
changes nothing. -/
def withChild : Node -> Nat -> Node -> Node
  | .attr (.mk inner name _), _, .parts args => .attr (.mk inner name args)
  | .attrs (_ :: rest), _, .attr a => .attrs (a :: rest)
  | .attrs (a :: _), _, .attrs rest => .attrs (a :: rest)
  | .part (.attr _), _, .attr a => .part (.attr a)
  | .part (.expr _), _, .expr e => .part (.expr e)
  | .part (.pat _), _, .pat p => .part (.pat p)
  | .part (.clauseLast _ clause), 0, .parts body =>
      .part (.clauseLast body clause)
  | .part (.clauseLast body _), _, .parts clause =>
      .part (.clauseLast body clause)
  | .parts (_ :: rest), _, .part p => .parts (p :: rest)
  | .parts (p :: _), _, .parts rest => .parts (p :: rest)
  | .segment (.mk name _), _, .parts args => .segment (.mk name args)
  | .segments (_ :: rest), _, .segment s => .segments (s :: rest)
  | .segments (s :: _), _, .segments rest => .segments (s :: rest)
  | .path (.mk absolute _), _, .segments ss => .path (.mk absolute ss)
  | .expr (.mk _ k), _, .attrs as => .expr (.mk as k)
  | .expr (.mk as _), _, .kind k => .expr (.mk as k)
  | .kind k, j, m => .kind (k.withChild j m)
  | .pat (.binder before name _), _, .parts sub =>
      .pat (.binder before name sub)
  | .pat (.compound _), _, .parts ps => .pat (.compound ps)
  | .arm (.mk _ p guard value comma), _, .attrs as =>
      .arm (.mk as p guard value comma)
  | .arm (.mk as _ guard value comma), _, .pat p =>
      .arm (.mk as p guard value comma)
  | .arm (.mk as p _ value comma), _, .parts guard =>
      .arm (.mk as p guard value comma)
  | .arm (.mk as p guard _ comma), _, .expr value =>
      .arm (.mk as p guard value comma)
  | .arms (_ :: rest), _, .arm a => .arms (a :: rest)
  | .arms (a :: _), _, .arms rest => .arms (a :: rest)
  | .block _, _, .stmts body => .block body
  | .stmt s, _, m => .stmt (s.withChild m)
  | .stmts (_ :: rest), _, .stmt s => .stmts (s :: rest)
  | .stmts (s :: _), _, .stmts rest => .stmts (s :: rest)
  | .item (.mk _ k), _, .attrs as => .item (.mk as k)
  | .item (.mk as _), _, .itemKind k => .item (.mk as k)
  | .items (_ :: rest), _, .item i => .items (i :: rest)
  | .items (i :: _), _, .items rest => .items (i :: rest)
  | .itemKind k, _, m => .itemKind (k.withChild m)
  | n, _, _ => n

/-- A tree with another place at an address.  An address that leads nowhere
leaves it as it is. -/
def replaceAt : Node -> Address -> Node -> Node
  | _, [], new => new
  | n, j :: a, new =>
      match n.inside? j with
      | some m => n.withChild j (m.replaceAt a new)
      | none => n

end Node

/-!
## What can be noticed from outside

Two places look the same if nothing that stands around them can tell which of the
two it is.  What is asked of a place depends on what it is: its names if it is a
pattern, what it declares if it is an item or the statements of a block, its path
if it is an attribute.
-/

/-- Whether two shapes look the same to what they stand in. -/
structure ExprKind.Alike (k l : ExprKind) : Prop where
  isAction : k.isAction = l.isAction := by rfl
  binders : k.conditionBinders = l.conditionBinders := by rfl
  hasWalkedAttrs : k.hasWalkedAttrs = l.hasWalkedAttrs := by rfl
  crossing : forall c : Context, c.cross k.crossing = c.cross l.crossing := by
    intro c; rfl
  isSentinel : forall (s : ScopeStack) (as bs : List Attr),
    ((Expr.mk as k).calleePath?.any fun p => s.resolve p = .sentinel) =
      ((Expr.mk bs l).calleePath?.any fun p => s.resolve p = .sentinel) := by
    intro s as bs; rfl
  isRegistration : forall (s : ScopeStack) (as bs : List Attr)
    (pos : Position) (semi : Bool),
    (Stmt.expr pos (.mk as k) semi).isRegistration s =
      (Stmt.expr pos (.mk bs l) semi).isRegistration s := by
    intro s as bs pos semi; rfl

inductive Part.Alike : Part -> Part -> Prop
  | token (t : Token) : Alike (.token t) (.token t)
  | attr (a b : Attr) : Alike (.attr a) (.attr b)
  | expr {k l : ExprKind} (as bs : List Attr) (h : k.Alike l) :
      Alike (.expr (.mk as k)) (.expr (.mk bs l))
  | pat {p q : Pat} (h : p.binders = q.binders) : Alike (.pat p) (.pat q)
  | clauseLast (body clause body' clause' : List Part) :
      Alike (.clauseLast body clause) (.clauseLast body' clause')

structure ItemKind.Alike (k l : ItemKind) : Prop where
  isExpandable : k.isExpandable = l.isExpandable := by rfl
  hasWalkedAttrs : k.hasWalkedAttrs = l.hasWalkedAttrs := by rfl
  crossing : forall c : Context, c.cross k.crossing = c.cross l.crossing := by
    intro c; rfl
  declares : forall (s : ScopeStack) (as bs : List Attr),
    s.declareItem (.mk as k) = s.declareItem (.mk bs l) := by
    intro s as bs; rfl

inductive Node.Alike : Node -> Node -> Prop
  | attr {a b : Attr} (h : a.path = b.path) : Alike (.attr a) (.attr b)
  | attrs {as bs : List Attr} (h : as.map Attr.path = bs.map Attr.path) :
      Alike (.attrs as) (.attrs bs)
  | part {p q : Part} (h : p.Alike q) : Alike (.part p) (.part q)
  | parts {ps qs : List Part} (h : List.Forall₂ Part.Alike ps qs) :
      Alike (.parts ps) (.parts qs)
  | segment {s t : Segment} (h : s.name = t.name) :
      Alike (.segment s) (.segment t)
  | segments {ss ts : List Segment}
      (h : ss.map Segment.name = ts.map Segment.name) :
      Alike (.segments ss) (.segments ts)
  | path {p q : Path} (h : forall s : ScopeStack, s.resolve p = s.resolve q) :
      Alike (.path p) (.path q)
  | expr {k l : ExprKind} (as bs : List Attr) (h : k.Alike l) :
      Alike (.expr (.mk as k)) (.expr (.mk bs l))
  | kind {k l : ExprKind} (h : k.Alike l) : Alike (.kind k) (.kind l)
  | pat {p q : Pat} (h : p.binders = q.binders) : Alike (.pat p) (.pat q)
  | arm (a b : Arm) : Alike (.arm a) (.arm b)
  | arms (as bs : List Arm) : Alike (.arms as) (.arms bs)
  | block (body body' : List Stmt) : Alike (.block body) (.block body')
  | stmt {x y : Stmt}
      (hdeclares : forall s : ScopeStack,
        s.declareStmts [x] = s.declareStmts [y])
      (hbehind : forall s : ScopeStack, s.afterStmt x = s.afterStmt y) :
      Alike (.stmt x) (.stmt y)
  | stmts {xs ys : List Stmt}
      (h : forall s : ScopeStack, s.declareStmts xs = s.declareStmts ys) :
      Alike (.stmts xs) (.stmts ys)
  | item {i j : Item}
      (h : forall s : ScopeStack, s.declareItem i = s.declareItem j) :
      Alike (.item i) (.item j)
  | items {is js : List Item}
      (h : forall s : ScopeStack, s.declareItems is = s.declareItems js) :
      Alike (.items is) (.items js)
  | itemKind {k l : ItemKind} (h : k.Alike l) :
      Alike (.itemKind k) (.itemKind l)

theorem partsBinders_eq_of_alike {ps qs : List Part}
    (h : List.Forall₂ Part.Alike ps qs) :
    partsBinders ps = partsBinders qs := by
  induction h with
  | nil => rfl
  | cons hp _ ih =>
      rw [partsBinders, partsBinders, ih]
      cases hp with
      | pat h => rw [Part.binders, Part.binders, h]
      | _ => rfl

theorem isEmpty_eq_of_alike {ps qs : List Part}
    (h : List.Forall₂ Part.Alike ps qs) : ps.isEmpty = qs.isEmpty := by
  cases h <;> rfl

theorem soleArgument?_of_alike {ps qs : List Part}
    (h : List.Forall₂ Part.Alike ps qs) :
    (soleArgument? ps).any Expr.isAction =
      (soleArgument? qs).any Expr.isAction := by
  rcases h with _ | ⟨hp, _ | ⟨hq, _ | ⟨hr, hrest⟩⟩⟩
  · rfl
  · cases hp with
    | expr as bs h => exact h.isAction
    | _ => rfl
  · cases hp with
    | expr as bs h =>
        cases hq with
        | token t =>
            by_cases ht : t = .atom (.punct ',')
            · rw [ht]
              exact h.isAction
            · simp [soleArgument?, ht]
        | _ => rfl
    | _ => rfl
  · simp [soleArgument?]

theorem ExprKind.Alike.refl (k : ExprKind) : k.Alike k := by
  cases k <;> exact {}

theorem Part.Alike.refl (p : Part) : p.Alike p := by
  cases p with
  | token t => exact .token t
  | attr a => exact .attr a a
  | expr e =>
      rcases e with ⟨as, k⟩
      exact .expr as as (.refl k)
  | pat p => exact .pat rfl
  | clauseLast body clause => exact .clauseLast body clause body clause

theorem Part.alike_refl (ps : List Part) : List.Forall₂ Part.Alike ps ps :=
  List.forall₂_same.mpr fun p _ => .refl p

theorem ItemKind.Alike.refl (k : ItemKind) : k.Alike k := by
  cases k <;> exact {}

theorem ExprKind.Alike.symm {k l : ExprKind} (h : k.Alike l) : l.Alike k where
  isAction := h.isAction.symm
  binders := h.binders.symm
  hasWalkedAttrs := h.hasWalkedAttrs.symm
  crossing c := (h.crossing c).symm
  isSentinel s as bs := (h.isSentinel s bs as).symm
  isRegistration s as bs pos semi := (h.isRegistration s bs as pos semi).symm

theorem Part.Alike.symm {p q : Part} (h : p.Alike q) : q.Alike p := by
  cases h with
  | token t => exact .token t
  | attr a b => exact .attr b a
  | expr as bs h => exact .expr bs as h.symm
  | pat h => exact .pat h.symm
  | clauseLast body clause body' clause' =>
      exact .clauseLast body' clause' body clause

theorem returnsUnit_of_alike {ps qs : List Part}
    (h : List.Forall₂ Part.Alike ps qs) (hunit : returnsUnit ps = true) :
    returnsUnit qs = true := by
  rw [returnsUnit.eq_def] at hunit
  split at hunit
  · cases h
    rfl
  · rcases h with _ | ⟨hp, _ | ⟨hq, _ | ⟨hr, _ | ⟨hs, hrest⟩⟩⟩⟩
    cases hp
    cases hq
    cases hr
    cases hs
    cases hrest
    rfl
  · cases hunit

theorem returnsUnit_eq_of_alike {ps qs : List Part}
    (h : List.Forall₂ Part.Alike ps qs) : returnsUnit ps = returnsUnit qs := by
  have hback : List.Forall₂ Part.Alike qs ps :=
    List.Forall₂.flip (h.imp fun _ _ hp => hp.symm)
  exact Bool.eq_iff_iff.mpr
    ⟨returnsUnit_of_alike h, returnsUnit_of_alike hback⟩

/-!
## One step up

When a place is replaced by one that looks the same, the place above it still
looks the same, and leads to the same places but that one.
-/

namespace Node

/-- Whether two places are the same and are reached in the same way. -/
def SameWay (p q : Crossing × Node) : Prop :=
  (forall c : Context, c.cross p.1 = c.cross q.1) ∧ p.2 = q.2

theorem sameWays_of_eq {l l' : List (Crossing × Node)} (h : l = l') :
    List.Forall₂ SameWay l l' := by
  rw [h]
  exact List.forall₂_same.mpr fun p _ => ⟨fun _ => rfl, rfl⟩

/-- Whether places directly below two others are the same, but for one at most:
that with this number is replaced, if the walk comes to it. -/
def SameWays (j : Nat) (m m' : Node) (l l' : List (Crossing × Node)) : Prop :=
  List.Forall₂ SameWay l l' ∨
    exists x, l[j]? = some (x, m) ∧
      List.Forall₂ SameWay (l.set j (x, m')) l'

theorem SameWays.of_eq {j : Nat} {m m' : Node}
    {l l' : List (Crossing × Node)} (h : l = l') : SameWays j m m' l l' :=
  .inl (sameWays_of_eq h)

theorem SameWays.of_set {j : Nat} {m m' : Node} {x : Crossing}
    {l l' : List (Crossing × Node)} (hx : l[j]? = some (x, m))
    (h : l.set j (x, m') = l') : SameWays j m m' l l' :=
  .inr ⟨x, hx, sameWays_of_eq h⟩

end Node

theorem Context.cross_condition_of_alike {k l : ExprKind} (h : k.Alike l)
    (as bs : List Attr) (c : Context) :
    c.cross (.condition (.mk as k)) = c.cross (.condition (.mk bs l)) :=
  congrArg c.binding h.binders

theorem ExprKind.alike_withChild {k : ExprKind} {j : Nat} {m m' : Node}
    (hm : (Node.kind k).inside? j = some m) (h : m.Alike m') :
    k.Alike (k.withChild j m') ∧
      Node.SameWays j m m' (Node.ofKind k)
        (Node.ofKind (k.withChild j m')) := by
  cases k with
  | invocation m | continueTo label => cases hm
  -- What stands below has no say in what is seen of these.
  | qualified ps | loop label body | matchOn scrutinee arms | ret ps
  | breakTo label ps | range ps | data ps | other ps =>
      rcases j with _ | _ | j <;> cases hm <;> cases h
      all_goals exact ⟨{}, .of_set rfl rfl⟩
  | block style body =>
      rcases j with _ | j <;> cases hm
      cases h
      cases style <;> exact ⟨{}, .of_set rfl rfl⟩
  | path p =>
      rcases j with _ | j <;> cases hm
      cases h with
      | path h =>
          refine ⟨{ isSentinel := ?_ }, .of_set rfl rfl⟩
          intro s as bs
          exact congrArg (fun r => decide (r = Referent.sentinel)) (h s)
  | call callee args =>
      rcases j with _ | _ | j <;> cases hm
      · cases h with
        | expr as bs h =>
            refine ⟨{ isRegistration := ?_ }, .of_set rfl rfl⟩
            intro s cs ds pos semi
            exact congrArg
              (fun b => b && (soleArgument? args).any Expr.isAction)
              (h.isSentinel s as bs)
      · cases h with
        | parts h =>
            refine ⟨{ isRegistration := ?_ }, .of_set rfl rfl⟩
            intro s cs ds pos semi
            exact congrArg
              (fun b => (callee.calleePath?.any fun p =>
                s.resolve p = .sentinel) && b)
              (soleArgument?_of_alike h)
  | closure binder marks inputs output body =>
      rcases j with _ | _ | _ | _ | j <;> cases hm
      · cases h
        exact ⟨{}, .of_set rfl rfl⟩
      · cases h with
        | parts h =>
            refine ⟨{ isAction := ?_, crossing := ?_ }, .of_set rfl rfl⟩
            · exact congrArg
                (fun b => b && !marks.isAsync && returnsUnit output)
                (isEmpty_eq_of_alike h)
            · intro c
              exact congrArg c.binding (partsBinders_eq_of_alike h)
      · cases h with
        | parts h =>
            refine ⟨{ isAction := ?_ }, .of_set rfl rfl⟩
            exact congrArg (fun b => inputs.isEmpty && !marks.isAsync && b)
              (returnsUnit_eq_of_alike h)
      · cases h
        exact ⟨{}, .of_set rfl rfl⟩
  | paren inner =>
      rcases j with _ | j <;> cases hm
      cases h with
      | expr as bs h =>
          exact ⟨{ isAction := h.isAction, binders := h.binders },
            .of_set rfl rfl⟩
  | ifThen cond body | whileLoop label cond body =>
      rcases j with _ | _ | j <;> cases hm
      · cases h with
        | expr as bs h =>
            have hcross := Context.cross_condition_of_alike h as bs
            exact ⟨{}, .inr ⟨_, rfl,
              .cons ⟨fun _ => rfl, rfl⟩ (.cons ⟨hcross, rfl⟩ .nil)⟩⟩
      · cases h
        exact ⟨{}, .of_set rfl rfl⟩
  | ifElse cond body orElse =>
      rcases j with _ | _ | _ | j <;> cases hm
      · cases h with
        | expr as bs h =>
            have hcross := Context.cross_condition_of_alike h as bs
            exact ⟨{}, .inr ⟨_, rfl, .cons ⟨fun _ => rfl, rfl⟩
              (.cons ⟨hcross, rfl⟩ (.cons ⟨fun _ => rfl, rfl⟩ .nil))⟩⟩
      · cases h
        exact ⟨{}, .of_set rfl rfl⟩
      · cases h
        exact ⟨{}, .of_set rfl rfl⟩
  | forLoop label p source body =>
      rcases j with _ | _ | _ | j <;> cases hm
      · cases h
        exact ⟨{}, .of_set rfl rfl⟩
      · cases h
        exact ⟨{}, .of_set rfl rfl⟩
      · cases h with
        | pat h =>
            have hcross : forall c : Context, _ := fun c =>
              congrArg c.binding h
            exact ⟨{}, .inl (.cons ⟨fun _ => rfl, rfl⟩
              (.cons ⟨hcross, rfl⟩ .nil))⟩
  | letCond p scrutinee =>
      rcases j with _ | _ | j <;> cases hm
      · cases h with
        | pat h =>
            exact ⟨{ binders := h }, .of_set rfl rfl⟩
      · cases h
        exact ⟨{}, .of_set rfl rfl⟩
  | binary left op right =>
      rcases j with _ | _ | j <;> cases hm
      · cases h with
        | expr as bs h =>
            refine ⟨{ binders := ?_ }, .of_set rfl rfl⟩
            exact congrArg (fun names => names ++ right.conditionBinders)
              h.binders
      · cases h with
        | expr as bs h =>
            refine ⟨{ binders := ?_ }, .of_set rfl rfl⟩
            exact congrArg (fun names => left.conditionBinders ++ names)
              h.binders

theorem Stmt.alike_withChild {x : Stmt} {j : Nat} {m m' : Node}
    (hm : (Node.stmt x).inside? j = some m) (h : m.Alike m') :
    (Node.stmt x).Alike (.stmt (x.withChild m')) ∧
      (forall s : ScopeStack,
        x.isRegistration s = (x.withChild m').isRegistration s) ∧
      Node.SameWays j m m' (Node.stmt x).children
        (Node.stmt (x.withChild m')).children := by
  cases x with
  | binding as p init =>
      rcases j with _ | _ | _ | j <;> cases hm <;> cases h
      case zero.refl.attrs | succ.succ.zero.refl.parts =>
        exact ⟨.stmt (fun _ => rfl) (fun _ => rfl),
          fun _ => rfl, .of_set rfl rfl⟩
      case succ.zero.refl.pat h =>
        have hbehind (s : ScopeStack) := congrArg s.bindLocals h
        exact ⟨.stmt (fun _ => rfl) hbehind, fun _ => rfl, .of_set rfl rfl⟩
  | item i =>
      rcases j with _ | j <;> cases hm
      cases h with
      | item h =>
          exact ⟨.stmt h (fun _ => rfl), fun _ => rfl, .of_set rfl rfl⟩
  | expr pos e semi =>
      rcases j with _ | j <;> cases hm
      cases h with
      | expr as bs h =>
          exact ⟨.stmt (fun _ => rfl) (fun _ => rfl),
            fun s => h.isRegistration s as bs pos semi,
            .of_set rfl rfl⟩
  | invocation as call semi =>
      rcases j with _ | j <;> cases hm
      cases h
      exact ⟨.stmt (fun _ => rfl) (fun _ => rfl),
        fun _ => rfl, .of_set rfl rfl⟩

theorem ItemKind.alike_withChild {k : ItemKind} {j : Nat} {m m' : Node}
    (hm : (Node.itemKind k).inside? j = some m) (h : m.Alike m') :
    k.Alike (k.withChild m') ∧
      Node.SameWays j m m' (Node.itemKind k).children
        (Node.itemKind (k.withChild m')).children := by
  cases k with
  | moduleFile before name | imports before absolute tree
  | externCrate before name newName => cases hm
  | constant before name ps | definition before name ps | other ps
  | implementation header members | traitDef before name header members =>
      rcases j with _ | _ | j <;> cases hm <;> cases h
      all_goals exact ⟨{}, .of_set rfl rfl⟩
  | function before isConst qualifiers name signature body =>
      rcases j with _ | _ | j <;> cases hm
      · cases h
        exact ⟨{}, .of_set rfl rfl⟩
      · cases h with
        | parts h =>
            refine ⟨{ crossing := ?_ }, .of_eq rfl⟩
            intro c
            exact congrArg
              (fun names : List String =>
                { c with scope := c.scope.pushBarrier.bindLocals names
                         inConst := c.inConst || isConst })
              (partsBinders_eq_of_alike h)
  | module before name items =>
      rcases j with _ | j <;> cases hm
      cases h with
      | items h =>
          refine ⟨{ crossing := ?_ }, .of_set rfl rfl⟩
          intro c
          exact congrArg (fun s : ScopeStack => { c with scope := s })
            (h c.scope.pushBarrier)

theorem ScopeStack.declareStmts_cons (s : ScopeStack) (x : Stmt)
    (rest : List Stmt) :
    s.declareStmts (x :: rest) = (s.declareStmts [x]).declareStmts rest := by
  cases x <;> rfl

namespace Node

def isRegistration (s : ScopeStack) : Node -> Bool
  | .stmt x => x.isRegistration s
  | _ => false

theorem resolve_eq_of_names {absolute : Bool} {ss ts : List Segment}
    (h : ss.map Segment.name = ts.map Segment.name) (s : ScopeStack) :
    s.resolve (.mk absolute ss) = s.resolve (.mk absolute ts) := by
  have hnames : (Path.mk absolute ss).names = (Path.mk absolute ts).names := by
    have hmap := congrArg (List.map Ident.name) h
    rw [List.map_map, List.map_map] at hmap
    exact hmap
  rw [ScopeStack.resolve, ScopeStack.resolve, hnames]
  rfl

theorem hasOwnExpansion_eq {as bs : List Attr}
    (h : as.map Attr.path = bs.map Attr.path) :
    hasOwnExpansion as = hasOwnExpansion bs := by
  have hany : forall cs : List Attr, hasOwnExpansion cs =
      (cs.map Attr.path).any fun p =>
        p.segments.getLast?.any fun i => i.isWord expansionName := by
    intro cs
    rw [hasOwnExpansion, List.any_map]
    rfl
  rw [hany, hany, h]

theorem alike_withChild {n m m' : Node} {j : Nat}
    (hm : n.inside? j = some m) (h : m.Alike m') :
    n.Alike (n.withChild j m') ∧
      (forall s, n.isRegistration s = (n.withChild j m').isRegistration s) ∧
      SameWays j m m' n.children (n.withChild j m').children := by
  cases n with
  | attr a =>
      rcases a with ⟨inner, name, args⟩
      rcases j with _ | j <;> cases hm
      cases h
      exact ⟨.attr rfl, fun _ => rfl, .of_set rfl rfl⟩
  | attrs as =>
      cases as with
      | nil => cases hm
      | cons a rest =>
          rcases j with _ | _ | j <;> cases hm
          · cases h with
            | attr h =>
                refine ⟨.attrs ?_, fun _ => rfl, .of_set rfl rfl⟩
                rw [List.map_cons, List.map_cons, h]
          · cases h with
            | attrs h =>
                refine ⟨.attrs ?_, fun _ => rfl, .of_set rfl rfl⟩
                rw [List.map_cons, List.map_cons, h]
  | part p =>
      cases p with
      | token t => cases hm
      | attr a =>
          rcases j with _ | j <;> cases hm
          cases h
          exact ⟨.part (.attr _ _), fun _ => rfl, .of_set rfl rfl⟩
      | expr e =>
          rcases j with _ | j <;> cases hm
          cases h with
          | expr as bs h =>
              exact ⟨.part (.expr as bs h), fun _ => rfl, .of_set rfl rfl⟩
      | pat p =>
          rcases j with _ | j <;> cases hm
          cases h with
          | pat h =>
              exact ⟨.part (.pat h), fun _ => rfl, .of_set rfl rfl⟩
      | clauseLast body clause =>
          rcases j with _ | _ | j <;> cases hm <;> cases h
          all_goals
            exact ⟨.part (.clauseLast _ _ _ _), fun _ => rfl, .of_set rfl rfl⟩
  | parts ps =>
      cases ps with
      | nil => cases hm
      | cons p rest =>
          rcases j with _ | _ | j <;> cases hm
          · cases h with
            | part h =>
                exact ⟨.parts (.cons h (Part.alike_refl rest)),
                  fun _ => rfl, .of_set rfl rfl⟩
          · cases h with
            | parts h =>
                exact ⟨.parts (.cons (.refl p) h),
                  fun _ => rfl, .of_set rfl rfl⟩
  | segment s =>
      rcases s with ⟨name, args⟩
      rcases j with _ | j <;> cases hm
      cases h
      exact ⟨.segment rfl, fun _ => rfl, .of_set rfl rfl⟩
  | segments ss =>
      cases ss with
      | nil => cases hm
      | cons s rest =>
          rcases j with _ | _ | j <;> cases hm
          · cases h with
            | segment h =>
                refine ⟨.segments ?_, fun _ => rfl, .of_set rfl rfl⟩
                rw [List.map_cons, List.map_cons, h]
          · cases h with
            | segments h =>
                refine ⟨.segments ?_, fun _ => rfl, .of_set rfl rfl⟩
                rw [List.map_cons, List.map_cons, h]
  | path p =>
      rcases p with ⟨absolute, ss⟩
      rcases j with _ | j <;> cases hm
      cases h with
      | segments h =>
          exact ⟨.path (resolve_eq_of_names h), fun _ => rfl, .of_set rfl rfl⟩
  | expr e =>
      rcases e with ⟨as, k⟩
      rcases j with _ | _ | j <;> cases hm
      · cases h with
        | attrs h =>
            refine ⟨.expr _ _ (.refl k), fun _ => rfl, ?_⟩
            simp only [withChild, children]
            cases k.hasWalkedAttrs with
            | true => exact .of_set rfl rfl
            | false => exact .of_eq rfl
      · cases h with
        | kind h =>
            refine ⟨.expr as as h, fun _ => rfl, .inr ⟨_, rfl, ?_⟩⟩
            simp only [withChild, children, h.hasWalkedAttrs]
            exact .cons ⟨h.crossing, rfl⟩ (.cons ⟨h.crossing, rfl⟩ .nil)
  | kind k =>
      have hkind := ExprKind.alike_withChild hm h
      exact ⟨.kind hkind.1, fun _ => rfl, hkind.2⟩
  | pat p =>
      cases p with
      | binder before name sub =>
          rcases j with _ | j <;> cases hm
          cases h with
          | parts h =>
              exact ⟨.pat (congrArg (List.cons _) (partsBinders_eq_of_alike h)),
                fun _ => rfl, .of_set rfl rfl⟩
      | compound ps =>
          rcases j with _ | j <;> cases hm
          cases h with
          | parts h =>
              exact ⟨.pat (partsBinders_eq_of_alike h),
                fun _ => rfl, .of_set rfl rfl⟩
  | arm a =>
      rcases a with ⟨as, p, guard, value, comma⟩
      rcases j with _ | _ | _ | _ | j <;> cases hm <;> cases h
      case succ.zero.refl.pat q h =>
        have hcross (c : Context) : c.cross (.pattern p) =
            c.cross (.pattern q) := congrArg c.binding h
        exact ⟨.arm _ _, fun _ => rfl, .inr ⟨_, rfl,
          .cons ⟨hcross, rfl⟩ (.cons ⟨hcross, rfl⟩
            (.cons ⟨hcross, rfl⟩ (.cons ⟨hcross, rfl⟩ .nil)))⟩⟩
      all_goals
        exact ⟨.arm _ _, fun _ => rfl, .of_set rfl rfl⟩
  | arms as =>
      cases as with
      | nil => cases hm
      | cons a rest =>
          rcases j with _ | _ | j <;> cases hm <;> cases h
          all_goals
            exact ⟨.arms _ _, fun _ => rfl, .of_set rfl rfl⟩
  | block body =>
      rcases j with _ | j <;> cases hm
      cases h with
      | stmts h =>
          refine ⟨.block _ _, fun _ => rfl,
            .inr ⟨_, rfl, .cons ⟨?_, rfl⟩ .nil⟩⟩
          intro c
          exact congrArg (fun s : ScopeStack => { c with scope := s })
            (h c.scope.push)
  | stmt x =>
      have hstmt := Stmt.alike_withChild hm h
      exact ⟨hstmt.1, hstmt.2.1, hstmt.2.2⟩
  | stmts xs =>
      cases xs with
      | nil => cases hm
      | cons x rest =>
          rcases j with _ | _ | j <;> cases hm
          · cases h with
            | stmt hdeclares hbehind =>
                refine ⟨.stmts ?_, fun _ => rfl, .inr ⟨_, rfl,
                  .cons ⟨fun _ => rfl, rfl⟩ (.cons ⟨?_, rfl⟩ .nil)⟩⟩
                · intro s
                  rw [ScopeStack.declareStmts_cons, hdeclares,
                    ← ScopeStack.declareStmts_cons]
                · intro c
                  rw [Context.cross_behind, Context.cross_behind]
                  exact congrArg (fun s : ScopeStack => { c with scope := s })
                    (hbehind c.scope)
          · cases h with
            | stmts h =>
                refine ⟨.stmts ?_, fun _ => rfl, .of_set rfl rfl⟩
                intro s
                rw [ScopeStack.declareStmts_cons, h,
                  ← ScopeStack.declareStmts_cons]
  | item i =>
      rcases i with ⟨as, k⟩
      rcases j with _ | _ | j
      · cases hm
        cases h with
        | attrs h =>
            refine ⟨.item fun s => (ItemKind.Alike.refl k).declares s _ _,
              fun _ => rfl, ?_⟩
            simp only [withChild, children, hasOwnExpansion_eq h]
            split
            · exact .inl .nil
            · cases k.hasWalkedAttrs with
              | true => exact .of_set rfl rfl
              | false => exact .of_eq rfl
      · cases hm
        cases h with
        | itemKind h =>
            refine ⟨.item fun s => h.declares s _ _, fun _ => rfl, ?_⟩
            simp only [withChild, children, h.hasWalkedAttrs, h.isExpandable]
            split
            · exact .inl .nil
            · exact .inr ⟨_, rfl,
                .cons ⟨h.crossing, rfl⟩ (.cons ⟨h.crossing, rfl⟩ .nil)⟩
      · simp only [inside?, children] at hm
        split at hm <;> cases hm
  | items is =>
      cases is with
      | nil => cases hm
      | cons i rest =>
          rcases j with _ | _ | j <;> cases hm
          · cases h with
            | item h =>
                refine ⟨.items ?_, fun _ => rfl, .of_set rfl rfl⟩
                intro s
                exact congrArg (fun s : ScopeStack => s.declareItems rest) (h s)
          · cases h with
            | items h =>
                exact ⟨.items fun s => h (s.declareItem i),
                  fun _ => rfl, .of_set rfl rfl⟩
  | itemKind k =>
      have hkind := ItemKind.alike_withChild hm h
      exact ⟨.itemKind hkind.1, fun _ => rfl, hkind.2⟩

theorem inside?_withChild {n m m' : Node} {j : Nat}
    (hm : n.inside? j = some m) (h : m.Alike m') :
    (n.withChild j m').inside? j = some m' := by
  cases n with
  | attr x | segment x | path x | arm x =>
      rcases x
      rcases j with _ | _ | _ | _ | j <;> cases hm <;> cases h <;> rfl
  | attrs xs | parts xs | segments xs | arms xs | stmts xs | items xs =>
      rcases xs with _ | ⟨x, rest⟩
      · cases hm
      · rcases j with _ | _ | j <;> cases hm <;> cases h <;> rfl
  | part x | pat x | stmt x =>
      rcases x <;>
        rcases j with _ | _ | _ | j <;> cases hm <;> cases h <;> rfl
  | kind k | itemKind k =>
      cases k <;>
        rcases j with _ | _ | _ | _ | j <;> cases hm <;> cases h <;> rfl
  | block body =>
      rcases j with _ | j <;> cases hm
      cases h
      rfl
  | expr e =>
      rcases e with ⟨as, k⟩
      rcases j with _ | _ | j <;> cases hm <;> cases h <;> rfl
  | item i =>
      rcases i with ⟨as, k⟩
      rcases j with _ | _ | j
      · cases hm
        cases h
        rfl
      · cases hm
        cases h
        rfl
      · simp only [inside?, children] at hm
        split at hm <;> cases hm

/-!
## From the place up to the root
-/

theorem exists_inside_of_find? {n m : Node} {j : Nat} {a : Address}
    (h : n.find? (j :: a) = some m) :
    exists k, n.inside? j = some k ∧ k.find? a = some m :=
  Option.bind_eq_some_iff.mp h

theorem replaceAt_cons {n k : Node} {j : Nat} (h : n.inside? j = some k)
    (a : Address) (new : Node) :
    n.replaceAt (j :: a) new = n.withChild j (k.replaceAt a new) := by
  rw [replaceAt, h]

theorem alike_replaceAt {n m m' : Node} {a : Address}
    (hm : n.find? a = some m) (h : m.Alike m') :
    n.Alike (n.replaceAt a m') := by
  induction a generalizing n with
  | nil =>
      cases hm
      exact h
  | cons j a ih =>
      rcases exists_inside_of_find? hm with ⟨k, hk, hbelow⟩
      rw [replaceAt_cons hk]
      exact (alike_withChild hk (ih hbelow)).1

theorem find?_replaceAt {n m m' : Node} {a : Address}
    (hm : n.find? a = some m) (h : m.Alike m') :
    (n.replaceAt a m').find? a = some m' := by
  induction a generalizing n with
  | nil => rfl
  | cons j a ih =>
      rcases exists_inside_of_find? hm with ⟨k, hk, hbelow⟩
      rw [replaceAt_cons hk, find?,
        inside?_withChild hk (alike_replaceAt hbelow h)]
      exact ih hbelow

/-- Whether two visits to a place come there in the same context and find
there a registration both, or neither. -/
def SameSight (v w : List Crossing × Node) : Prop :=
  (forall c : Context, c.along v.1 = c.along w.1) ∧
    forall s : ScopeStack, v.2.isRegistration s = w.2.isRegistration s

theorem sameSight_refl (found : Option (List Crossing × Node)) :
    Option.Rel SameSight found found := by
  cases found with
  | none => exact .none
  | some v => exact .some ⟨fun _ => rfl, fun _ => rfl⟩

theorem sameWay_getElem? {l l' : List (Crossing × Node)}
    (h : List.Forall₂ SameWay l l') (i : Nat) :
    Option.Rel SameWay l[i]? l'[i]? := by
  induction h generalizing i with
  | nil => exact .none
  | cons hp _ ih =>
      cases i with
      | zero => exact .some hp
      | succ i => exact ih i

theorem sameSight_below {n n' m m' : Node} {i : Nat} {x y : Crossing}
    (hn : n.children[i]? = some (x, m))
    (hn' : n'.children[i]? = some (y, m'))
    (hcross : forall c : Context, c.cross x = c.cross y) {b : Address}
    (h : Option.Rel SameSight (m.visit? b) (m'.visit? b)) :
    Option.Rel SameSight (n.visit? (i :: b)) (n'.visit? (i :: b)) := by
  rw [visit?_cons hn, visit?_cons hn']
  generalize m.visit? b = found at h
  generalize m'.visit? b = found' at h
  cases h with
  | none => exact .none
  | @some v w hvw =>
      refine .some ⟨?_, hvw.2⟩
      intro c
      rw [Context.along_cons, Context.along_cons, hcross]
      exact hvw.1 (c.cross y)

theorem sameSight_of_sameWay {n n' : Node} {i : Nat}
    (h : Option.Rel SameWay n.children[i]? n'.children[i]?) (b : Address) :
    Option.Rel SameSight (n.visit? (i :: b)) (n'.visit? (i :: b)) := by
  generalize hn : n.children[i]? = found at h
  generalize hn' : n'.children[i]? = found' at h
  cases h with
  | none =>
      rw [visit?, visit?, hn, hn']
      exact .none
  | @some p q hway =>
      refine sameSight_below hn hn' hway.1 ?_
      rw [hway.2]
      exact sameSight_refl (q.2.visit? b)

/-- Replacing a place by one that looks the same does not change what the walk
sees anywhere else, on the way to that place or beside it. -/
theorem visit?_replaceAt {n m m' : Node} {a b : Address}
    (hm : n.find? a = some m) (h : m.Alike m') (hb : ¬ a <+: b) :
    Option.Rel SameSight (n.visit? b) ((n.replaceAt a m').visit? b) := by
  -- Induction on the way down to what is replaced.
  induction a generalizing n b with
  | nil => exact absurd List.nil_prefix hb
  | cons j a ih =>
      rcases exists_inside_of_find? hm with ⟨k, hk, hbelow⟩
      rw [replaceAt_cons hk]
      rcases alike_withChild hk (alike_replaceAt hbelow h) with
        ⟨_, hsame, hways⟩
      cases b with
      | nil => exact .some ⟨fun _ => rfl, hsame⟩
      | cons i b =>
          rcases hways with hall | ⟨x, hx, hset⟩
          · exact sameSight_of_sameWay (sameWay_getElem? hall i) b
          have hway := sameWay_getElem? hset i
          by_cases hij : j = i
          · have hrest : ¬ a <+: b := by
              intro hprefix
              rw [hij] at hb
              exact hb (List.cons_prefix_cons.mpr ⟨rfl, hprefix⟩)
            have hlt := (List.getElem?_eq_some_iff.mp hx).1
            rw [← hij, List.getElem?_set_self hlt] at hway
            generalize hq :
              (n.withChild j (k.replaceAt a m')).children[j]? = found at hway
            cases hway with
            | @some _ q hway =>
                rw [← hij]
                refine sameSight_below hx hq hway.1 ?_
                rw [← hway.2]
                exact ih hbelow hrest
          · rw [List.getElem?_set_ne hij] at hway
            exact sameSight_of_sameWay hway b

theorem registers_eq_any (c : Context) (n : Node) (b : Address) :
    n.registers c b = (n.visit? b).any fun v =>
      v.2.isRegistration (c.along v.1).scope := by
  rw [registers]
  cases n.visit? b with
  | none => rfl
  | some v =>
      rcases v with ⟨xs, k⟩
      cases k <;> rfl

theorem judged_eq_of_sameSight {n n' : Node} {b : Address}
    (h : Option.Rel SameSight (n.visit? b) (n'.visit? b)) (c : Context) :
    n.registers c b = n'.registers c b ∧
      n.isConstAt c b = n'.isConstAt c b := by
  rw [registers_eq_any, registers_eq_any, isConstAt, isConstAt]
  generalize n.visit? b = found at h
  generalize n'.visit? b = found' at h
  cases h with
  | none => exact ⟨rfl, rfl⟩
  | @some v w hvw =>
      constructor
      · dsimp only [Option.any_some]
        rw [hvw.1 c, hvw.2]
      · exact congrArg Context.inConst (hvw.1 c)

end Node

/-!
## Statements that declare nothing
-/

/-- Whether a statement is neither a declaration nor an item. -/
def Stmt.declaresNothing : Stmt -> Bool
  | .expr _ _ _ => true
  | .invocation _ _ _ => true
  | _ => false

theorem Stmt.alike_of_declaresNothing {s t : Stmt}
    (hs : s.declaresNothing = true) (ht : t.declaresNothing = true) :
    (Node.stmt s).Alike (.stmt t) := by
  cases s <;> cases hs <;> cases t <;> cases ht <;>
    exact .stmt (fun _ => rfl) (fun _ => rfl)

/-- The discipline of scopes.  Whatever state a visit finds, it leaves that
state behind: the same scopes with the same names in each, and the same count of
const contexts, with nothing but its faults added.  So a statement that declares
nothing can be replaced by another one, and no place that is not inside it can
tell. -/
theorem Node.visited_leaves_no_trace :
    (forall (n : Node) (v : Visitor), (forall ss, n ≠ .stmts ss) ->
      n.visited v =
        ((n.guarded v.context).value,
          v.withFaults (n.guarded v.context).faults)) ∧
    (forall (n : Node) (a : Address) (s t : Stmt),
      n.find? a = some (.stmt s) -> s.declaresNothing = true ->
        t.declaresNothing = true ->
          (n.replaceAt a (.stmt t)).find? a = some (.stmt t) ∧
            forall (c : Context) (b : Address), ¬ a <+: b ->
              (n.replaceAt a (.stmt t)).registers c b = n.registers c b ∧
                (n.replaceAt a (.stmt t)).isConstAt c b =
                  n.isConstAt c b) := by
  constructor
  · intro n v hn
    rw [visited_eq]
    cases n with
    | stmts ss => exact absurd rfl (hn ss)
    | _ => rfl
  · intro n a s t hfind hs ht
    have halike := Stmt.alike_of_declaresNothing hs ht
    constructor
    · exact find?_replaceAt hfind halike
    · intro c b hb
      have heq := judged_eq_of_sameSight (visit?_replaceAt hfind halike hb) c
      exact ⟨heq.1.symm, heq.2.symm⟩

/-- In `{ f(); defer(f); }` the first statement gives way to a `return;`. -/
theorem Node.visited_leaves_no_trace_block :
    let f := Expr.ofIdent (.plain "f")
    let call := Stmt.expr .origin (.bare (.call f [])) true
    let registration := Stmt.expr .origin
      (.bare (.call (.ofIdent (.plain sentinelName)) [.expr f])) true
    let stop := Stmt.expr .origin (.bare (.ret [])) true
    let n := Node.block [call, registration]
    let c := Context.root (.mk true [.mk (.plain "deferred") []])
    let v := Visitor.start c.runtime
    n.visited v =
        ((n.guarded v.context).value,
          v.withFaults (n.guarded v.context).faults) ∧
      (n.replaceAt [0, 0] (.stmt stop)).find? [0, 0] = some (.stmt stop) ∧
      (n.replaceAt [0, 0] (.stmt stop)).registers c [0, 1, 0] = true := by
  intro f call registration stop n c v
  have hvisited := visited_leaves_no_trace.1 n v (fun ss hss => nomatch hss)
  have hreplaced := visited_leaves_no_trace.2 n [0, 0] call stop rfl rfl rfl
  have hbeside := hreplaced.2 c [0, 1, 0] (by decide)
  refine ⟨hvisited, hreplaced.1, ?_⟩
  rw [hbeside.1]
  rfl

end ScopeExit
