import ScopeExit.Proofs.OpaqueRegions

/-!
# Spelling

A name that is no reserved word may be written raw or not.  Which names may be
respelled is a matter of three sets: one for the last name in the path of an
attribute, one for the last name in the path of a macro, and one for all others.
Trees are compared by taking the raw marks off the names in the sets.

Names are mostly compared without the mark, and then nothing that is asked about
a tree depends on it.  Two comparisons are of the spelling: the name `deferred`
of an attribute, and the names of macros that never give a value.
-/

namespace ScopeExit

/-- Which names are to be written without the raw mark, and where the places of
statements go. -/
structure Spelling where
  names : String -> Bool
  attrNames : String -> Bool
  macroNames : String -> Bool
  place : Position -> Position

namespace Spelling

def inPlace (f : Spelling) : Spelling := { f with place := id }

/-- Whether the names are left alone whose spelling is compared. -/
structure IsFaithful (f : Spelling) : Prop where
  attrs : f.attrNames expansionName = false
  invocations : forall name, name ∈ divergingMacros ->
    f.macroNames name = false

theorem IsFaithful.inPlace {f : Spelling} (h : f.IsFaithful) :
    f.inPlace.IsFaithful :=
  ⟨h.attrs, h.invocations⟩

end Spelling

namespace Ident

/-- The identifier without the raw mark, if it is one of these names and no
reserved word. -/
def plainAmong (names : String -> Bool) (i : Ident) : Ident :=
  if names i.name && !reserved.contains i.name then .plain i.name else i

/-- The names of a path, of which the last one is looked up in a set of its
own. -/
def pathAmong (names last : String -> Bool) : List Ident -> List Ident
  | [] => []
  | [i] => [i.plainAmong last]
  | i :: j :: rest => i.plainAmong names :: pathAmong names last (j :: rest)

@[simp] theorem name_plainAmong (names : String -> Bool) (i : Ident) :
    (i.plainAmong names).name = i.name := by
  unfold plainAmong
  split <;> rfl

@[simp] theorem plainAmong_plain (names : String -> Bool) (name : String) :
    (plain name).plainAmong names = plain name := by
  unfold plainAmong
  split <;> rfl

/-- A word is told from its raw spelling if it is reserved, or none of the
names. -/
theorem isWord_plainAmong {names : String -> Bool} {word : String}
    (h : reserved.contains word = true ∨ names word = false) (i : Ident) :
    (i.plainAmong names).isWord word = i.isWord word := by
  unfold plainAmong
  split
  · rename_i hplain
    have hname : i.name ≠ word := by
      rintro rfl
      rw [Bool.and_eq_true, Bool.not_eq_true'] at hplain
      rcases h with hreserved | hnone
      · rw [hreserved] at hplain
        exact Bool.noConfusion hplain.2
      · rw [hnone] at hplain
        exact Bool.noConfusion hplain.1
    simp [isWord, plain, hname]
  · rfl

theorem getLast?_pathAmong (names last : String -> Bool) (is : List Ident) :
    (pathAmong names last is).getLast? =
      is.getLast?.map (plainAmong last) := by
  induction is with
  | nil => rfl
  | cons i rest ih =>
      cases rest with
      | nil => rfl
      | cons j more =>
          rw [pathAmong, List.getLast?_cons_cons, ← ih]
          cases more <;> rfl

end Ident

/-!
## Respelled trees
-/

def Token.respelled (f : Spelling) : Token -> Token
  | .atom (.ident i) => .atom (.ident (i.plainAmong f.names))
  | t => t

/-- The path of an attribute or a macro, whose last name is looked up in a set
of its own. -/
def SimplePath.respelled (f : Spelling) (last : String -> Bool)
    (p : SimplePath) : SimplePath where
  absolute := p.absolute
  segments := Ident.pathAmong f.names last p.segments

def Invocation.respelled (f : Spelling) (m : Invocation) : Invocation where
  path := m.path.respelled f f.macroNames
  delimiter := m.delimiter
  body := m.body.map (Token.respelled f)

mutual

def UseTree.respelled (f : Spelling) : UseTree -> UseTree
  | .path name rest => .path (name.plainAmong f.names) (rest.respelled f)
  | .leaf name => .leaf (name.plainAmong f.names)
  | .rename name newName =>
      .rename (name.plainAmong f.names) (newName.plainAmong f.names)
  | .glob => .glob
  | .group trees trailing => .group (treesRespelled f trees) trailing

def treesRespelled (f : Spelling) : List UseTree -> List UseTree
  | [] => []
  | t :: rest => t.respelled f :: treesRespelled f rest

end

mutual

def Attr.respelled (f : Spelling) : Attr -> Attr
  | .mk inner path args =>
      .mk inner (path.respelled f f.attrNames) (partsRespelled f args)

def attrsRespelled (f : Spelling) : List Attr -> List Attr
  | [] => []
  | a :: rest => a.respelled f :: attrsRespelled f rest

def Part.respelled (f : Spelling) : Part -> Part
  | .token t => .token (t.respelled f)
  | .attr a => .attr (a.respelled f)
  | .expr e => .expr (e.respelled f)
  | .pat p => .pat (p.respelled f)
  | .clauseLast body clause =>
      .clauseLast (partsRespelled f body) (partsRespelled f clause)

def partsRespelled (f : Spelling) : List Part -> List Part
  | [] => []
  | p :: rest => p.respelled f :: partsRespelled f rest

def Segment.respelled (f : Spelling) : Segment -> Segment
  | .mk name args => .mk (name.plainAmong f.names) (partsRespelled f args)

def segmentsRespelled (f : Spelling) : List Segment -> List Segment
  | [] => []
  | s :: rest => s.respelled f :: segmentsRespelled f rest

def Path.respelled (f : Spelling) : Path -> Path
  | .mk absolute segments => .mk absolute (segmentsRespelled f segments)

def Expr.respelled (f : Spelling) : Expr -> Expr
  | .mk attrs kind => .mk (attrsRespelled f attrs) (kind.respelled f)

def ExprKind.respelled (f : Spelling) : ExprKind -> ExprKind
  | .path p => .path (p.respelled f)
  | .qualified parts => .qualified (partsRespelled f parts)
  | .call callee args => .call (callee.respelled f) (partsRespelled f args)
  | .closure binder marks inputs output body =>
      .closure (partsRespelled f binder) marks (partsRespelled f inputs)
        (partsRespelled f output) (body.respelled f)
  | .paren inner => .paren (inner.respelled f)
  | .block style body => .block style (stmtsRespelled f body)
  | .ifThen cond body => .ifThen (cond.respelled f) (stmtsRespelled f body)
  | .ifElse cond body orElse =>
      .ifElse (cond.respelled f) (stmtsRespelled f body) (orElse.respelled f)
  | .whileLoop label cond body =>
      .whileLoop label (cond.respelled f) (stmtsRespelled f body)
  | .forLoop label pat source body =>
      .forLoop label (pat.respelled f) (source.respelled f)
        (stmtsRespelled f body)
  | .loop label body => .loop label (stmtsRespelled f body)
  | .matchOn scrutinee arms =>
      .matchOn (scrutinee.respelled f) (armsRespelled f arms)
  | .letCond pat scrutinee =>
      .letCond (pat.respelled f) (scrutinee.respelled f)
  | .binary left op right =>
      .binary (left.respelled f) (op.map (Token.respelled f))
        (right.respelled f)
  | .invocation m => .invocation (m.respelled f)
  | .ret value => .ret (partsRespelled f value)
  | .breakTo label value => .breakTo label (partsRespelled f value)
  | .continueTo label => .continueTo label
  | .range parts => .range (partsRespelled f parts)
  | .data parts => .data (partsRespelled f parts)
  | .other parts => .other (partsRespelled f parts)

def Pat.respelled (f : Spelling) : Pat -> Pat
  | .binder before name sub =>
      .binder (before.map (Token.respelled f)) (name.plainAmong f.names)
        (partsRespelled f sub)
  | .compound parts => .compound (partsRespelled f parts)

def Arm.respelled (f : Spelling) : Arm -> Arm
  | .mk attrs pat guard body comma =>
      .mk (attrsRespelled f attrs) (pat.respelled f) (partsRespelled f guard)
        (body.respelled f) comma

def armsRespelled (f : Spelling) : List Arm -> List Arm
  | [] => []
  | a :: rest => a.respelled f :: armsRespelled f rest

def Stmt.respelled (f : Spelling) : Stmt -> Stmt
  | .binding attrs pat init =>
      .binding (attrsRespelled f attrs) (pat.respelled f)
        (partsRespelled f init)
  | .item i => .item (i.respelled f)
  | .expr pos e semi => .expr (f.place pos) (e.respelled f) semi
  | .invocation attrs m semi =>
      .invocation (attrsRespelled f attrs) (m.respelled f) semi

def stmtsRespelled (f : Spelling) : List Stmt -> List Stmt
  | [] => []
  | s :: rest => s.respelled f :: stmtsRespelled f rest

def Item.respelled (f : Spelling) : Item -> Item
  | .mk attrs kind => .mk (attrsRespelled f attrs) (kind.respelled f)

def ItemKind.respelled (f : Spelling) : ItemKind -> ItemKind
  | .function before isConst qualifiers name signature body =>
      .function (before.map (Token.respelled f)) isConst
        (qualifiers.map (Token.respelled f)) (name.plainAmong f.names)
        (partsRespelled f signature) (stmtsRespelled f body)
  | .constant before name after =>
      .constant (before.map (Token.respelled f)) (name.plainAmong f.names)
        (partsRespelled f after)
  | .implementation header members =>
      .implementation (partsRespelled f header) (itemsRespelled f members)
  | .traitDef before name header members =>
      .traitDef (before.map (Token.respelled f)) (name.plainAmong f.names)
        (partsRespelled f header) (itemsRespelled f members)
  | .module before name items =>
      .module (before.map (Token.respelled f)) (name.plainAmong f.names)
        (itemsRespelled f items)
  | .moduleFile before name =>
      .moduleFile (before.map (Token.respelled f)) (name.plainAmong f.names)
  | .imports before absolute tree =>
      .imports (before.map (Token.respelled f)) absolute (tree.respelled f)
  | .externCrate before name newName =>
      .externCrate (before.map (Token.respelled f)) (name.plainAmong f.names)
        (newName.map (Ident.plainAmong f.names))
  | .definition before name after =>
      .definition (before.map (Token.respelled f)) (name.plainAmong f.names)
        (partsRespelled f after)
  | .other parts => .other (partsRespelled f parts)

def itemsRespelled (f : Spelling) : List Item -> List Item
  | [] => []
  | i :: rest => i.respelled f :: itemsRespelled f rest

end

/-- Whether the second item is the first one with other raw marks on names that
may be respelled.  New marks shift what stands behind them, so the places of
statements move. -/
def Item.Respells (f : Spelling) (i i' : Item) : Prop :=
  i'.respelled f.inPlace = i.respelled f

variable {f : Spelling}

@[simp] theorem Token.respelled_punct (c : Char) :
    (Token.punct c).respelled f = .punct c := rfl

@[simp] theorem Expr.respelled_bare (k : ExprKind) :
    (Expr.bare k).respelled f = .bare (k.respelled f) := rfl

@[simp] theorem Expr.respelled_ofIdent (name : String) :
    (Expr.ofIdent (.plain name)).respelled f = .ofIdent (.plain name) := by
  simp [ofIdent, ExprKind.respelled, Path.respelled, segmentsRespelled,
    Segment.respelled, partsRespelled]

@[simp] theorem Pat.respelled_binder (name : String) :
    (Pat.binder [] (.plain name) []).respelled f =
      .binder [] (.plain name) [] := by
  simp [respelled, partsRespelled]

theorem partsRespelled_isEmpty (ps : List Part) :
    (partsRespelled f ps).isEmpty = ps.isEmpty := by
  cases ps <;> rfl

theorem stmtsRespelled_isEmpty (ss : List Stmt) :
    (stmtsRespelled f ss).isEmpty = ss.isEmpty := by
  cases ss <;> rfl

theorem stmtsRespelled_append (a b : List Stmt) :
    stmtsRespelled f (a ++ b) = stmtsRespelled f a ++ stmtsRespelled f b := by
  induction a with
  | nil => rfl
  | cons s rest ih =>
      rw [List.cons_append, stmtsRespelled, ih]
      rfl

/-!
## Names

Scopes hold names without their marks.
-/

mutual

theorem Pat.binders_respelled (p : Pat) :
    (p.respelled f).binders = p.binders := by
  cases p with
  | binder before name sub =>
      rw [Pat.respelled, Pat.binders, Pat.binders, Ident.name_plainAmong,
        partsBinders_respelled sub]
  | compound parts => exact partsBinders_respelled parts

theorem partsBinders_respelled (ps : List Part) :
    partsBinders (partsRespelled f ps) = partsBinders ps := by
  cases ps with
  | nil => rfl
  | cons p rest =>
      rw [partsRespelled, partsBinders, partsBinders, Part.binders_respelled p,
        partsBinders_respelled rest]

theorem Part.binders_respelled (p : Part) :
    (p.respelled f).binders = p.binders := by
  cases p with
  | pat p => exact Pat.binders_respelled p
  | _ => rfl

end

mutual

theorem Expr.conditionBinders_respelled (e : Expr) :
    (e.respelled f).conditionBinders = e.conditionBinders := by
  rcases e with ⟨attrs, kind⟩
  exact ExprKind.conditionBinders_respelled kind

theorem ExprKind.conditionBinders_respelled (k : ExprKind) :
    (k.respelled f).conditionBinders = k.conditionBinders := by
  cases k with
  | letCond pat scrutinee => exact Pat.binders_respelled pat
  | binary left op right =>
      rw [ExprKind.respelled, ExprKind.conditionBinders,
        ExprKind.conditionBinders, Expr.conditionBinders_respelled left,
        Expr.conditionBinders_respelled right]
  | paren inner => exact Expr.conditionBinders_respelled inner
  | _ => rfl

end

namespace ScopeStack

theorem isWord_self_plainAmong (names : String -> Bool) (name : Ident) :
    (name.plainAmong names).isWord "self" = name.isWord "self" :=
  Ident.isWord_plainAmong (.inl (by decide)) name

theorem leafPath_plainAmong (names : String -> Bool) (parent : List String)
    (name : Ident) :
    leafPath parent (name.plainAmong names) = leafPath parent name := by
  rw [leafPath, isWord_self_plainAmong, Ident.name_plainAmong]
  rfl

theorem leafName?_plainAmong (names : String -> Bool) (parent : List String)
    (name : Ident) :
    leafName? parent (name.plainAmong names) = leafName? parent name := by
  rw [leafName?, isWord_self_plainAmong, Ident.name_plainAmong]
  rfl

mutual

theorem declareTree_respelled (s : ScopeStack) (parent : List String)
    (t : UseTree) :
    s.declareTree parent (t.respelled f) = s.declareTree parent t := by
  cases t with
  | path name rest =>
      rw [UseTree.respelled, declareTree, declareTree, Ident.name_plainAmong]
      exact declareTree_respelled s _ rest
  | leaf name =>
      rw [UseTree.respelled, declareTree, declareTree, leafName?_plainAmong,
        leafPath_plainAmong]
  | rename name newName =>
      have hhidden : (newName.plainAmong f.names).isWord "_" =
          newName.isWord "_" :=
        Ident.isWord_plainAmong (.inl (by decide)) newName
      rw [UseTree.respelled, declareTree, declareTree, hhidden,
        Ident.name_plainAmong, leafPath_plainAmong]
  | glob => rfl
  | group trees trailing =>
      rw [UseTree.respelled, declareTree, declareTree]
      exact declareTrees_respelled s parent trees

theorem declareTrees_respelled (s : ScopeStack) (parent : List String)
    (ts : List UseTree) :
    s.declareTrees parent (treesRespelled f ts) = s.declareTrees parent ts := by
  cases ts with
  | nil => rfl
  | cons t rest =>
      rw [treesRespelled, declareTrees, declareTrees,
        declareTree_respelled s parent t]
      exact declareTrees_respelled _ parent rest

end

theorem declareItem_respelled (s : ScopeStack) (i : Item) :
    s.declareItem (i.respelled f) = s.declareItem i := by
  rcases i with ⟨attrs, kind⟩
  cases kind with
  | imports before absolute tree => exact declareTree_respelled s [] tree
  | externCrate before name newName =>
      cases newName <;>
        simp [Item.respelled, ItemKind.respelled, declareItem]
  | _ => simp [Item.respelled, ItemKind.respelled, declareItem]

theorem declareItems_respelled (s : ScopeStack) (items : List Item) :
    s.declareItems (itemsRespelled f items) = s.declareItems items := by
  induction items generalizing s with
  | nil => rfl
  | cons i rest ih =>
      change ((s.declareItem (i.respelled f)).declareItems
        (itemsRespelled f rest)) = (s.declareItem i).declareItems rest
      rw [declareItem_respelled, ih]

theorem itemsOf_respelled (body : List Stmt) :
    itemsOf (stmtsRespelled f body) = itemsRespelled f (itemsOf body) := by
  induction body with
  | nil => rfl
  | cons s rest ih =>
      cases s with
      | item i => exact congrArg (i.respelled f :: ·) ih
      | _ => exact ih

theorem declareStmts_respelled (s : ScopeStack) (body : List Stmt) :
    s.declareStmts (stmtsRespelled f body) = s.declareStmts body := by
  rw [declareStmts, itemsOf_respelled, declareItems_respelled]
  rfl

theorem resolve_respelled (s : ScopeStack) (p : Path) :
    s.resolve (p.respelled f) = s.resolve p := by
  rcases p with ⟨absolute, segments⟩
  have hnames : (segmentsRespelled f segments).map (fun s => s.name.name) =
      segments.map fun s => s.name.name := by
    induction segments with
    | nil => rfl
    | cons t rest ih =>
        rcases t with ⟨name, args⟩
        rw [segmentsRespelled, List.map_cons, List.map_cons, ih]
        exact congrArg (· :: _) (Ident.name_plainAmong f.names name)
  rw [Path.respelled, resolve, resolve, Path.names, hnames]
  rfl

end ScopeStack

/-!
## Registrations
-/

theorem Token.respelled_eq_iff {t : Token}
    (h : forall i, t ≠ .atom (.ident i)) (u : Token) :
    u.respelled f = t ↔ u = t := by
  cases u with
  | atom a =>
      cases a with
      | ident i => exact iff_of_false (h _).symm (h i).symm
      | _ => rfl
  | _ => rfl

theorem partsRespelled_eq_ofTokens_iff {ts : List Token}
    (h : forall i, .atom (.ident i) ∉ ts) (ps : List Part) :
    partsRespelled f ps = Part.ofTokens ts ↔ ps = Part.ofTokens ts := by
  induction ts generalizing ps with
  | nil => cases ps <;> simp [partsRespelled, Part.ofTokens]
  | cons t ts ih =>
      cases ps with
      | nil => exact Iff.rfl
      | cons p rest =>
          have hfirst : forall u : Token, u.respelled f = t ↔ u = t := by
            apply Token.respelled_eq_iff
            intro i ht
            exact h i (ht ▸ List.mem_cons_self)
          have hrest := ih (fun i hi => h i (List.mem_cons_of_mem t hi)) rest
          rw [Part.ofTokens] at hrest
          cases p <;>
            simp [partsRespelled, Part.respelled, Part.ofTokens, hfirst, hrest]

theorem returnsUnit_respelled (ps : List Part) :
    returnsUnit (partsRespelled f ps) = returnsUnit ps := by
  rw [Bool.eq_iff_iff, returnsUnit_iff, returnsUnit_iff,
    partsRespelled_eq_ofTokens_iff (by simp),
    partsRespelled_eq_ofTokens_iff (by simp [Token.group, Token.punct])]

theorem soleArgument?_respelled (ps : List Part) :
    soleArgument? (partsRespelled f ps) =
      (soleArgument? ps).map (Expr.respelled f) := by
  match ps with
  | [] => rfl
  | [p] => cases p <;> rfl
  | [p, q] =>
      cases p with
      | expr e =>
          cases q with
          | token t =>
              have hcomma := Token.respelled_eq_iff (f := f)
                (t := .atom (.punct ',')) nofun t
              by_cases ht : t = .atom (.punct ',')
              · rw [ht]
                rfl
              · have ht' := mt hcomma.mp ht
                simp [partsRespelled, Part.respelled, soleArgument?, ht, ht']
          | _ => rfl
      | _ => rfl
  | p :: q :: r :: rest => simp [partsRespelled, soleArgument?]

mutual

theorem Expr.isAction_respelled (e : Expr) :
    (e.respelled f).isAction = e.isAction := by
  rcases e with ⟨attrs, kind⟩
  exact ExprKind.isAction_respelled kind

theorem ExprKind.isAction_respelled (k : ExprKind) :
    (k.respelled f).isAction = k.isAction := by
  cases k with
  | closure binder marks inputs output body =>
      rw [ExprKind.respelled, ExprKind.isAction, ExprKind.isAction,
        partsRespelled_isEmpty, returnsUnit_respelled]
  | paren inner => exact Expr.isAction_respelled inner
  | block style body => cases style <;> rfl
  | _ => rfl

end

theorem Expr.isPath_respelled (e : Expr) :
    (e.respelled f).isPath = e.isPath := by
  rcases e with ⟨attrs, kind⟩
  cases kind <;> rfl

theorem Expr.calleePath?_respelled (e : Expr) :
    (e.respelled f).calleePath? = e.calleePath?.map (Path.respelled f) := by
  rcases e with ⟨attrs, kind⟩
  cases kind <;> rfl

theorem Stmt.isRegistration_respelled (scope : ScopeStack) (s : Stmt) :
    (s.respelled f).isRegistration scope = s.isRegistration scope := by
  cases s with
  | expr pos e semi =>
      rcases e with ⟨attrs, kind⟩
      cases kind with
      | call callee args =>
          rw [Stmt.respelled, Expr.respelled, ExprKind.respelled,
            isRegistration, isRegistration, Expr.calleePath?_respelled,
            soleArgument?_respelled, Option.any_map, Option.any_map]
          simp only [ScopeStack.resolve_respelled, Expr.isAction_respelled]
      | _ => rfl
  | _ => rfl

/-!
## Shapes
-/

theorem ExprKind.hasWalkedAttrs_respelled (k : ExprKind) :
    (k.respelled f).hasWalkedAttrs = k.hasWalkedAttrs := by
  cases k <;> rfl

theorem ItemKind.hasWalkedAttrs_respelled (k : ItemKind) :
    (k.respelled f).hasWalkedAttrs = k.hasWalkedAttrs := by
  cases k <;> rfl

theorem ItemKind.isExpandable_respelled (k : ItemKind) :
    (k.respelled f).isExpandable = k.isExpandable := by
  cases k <;> rfl

theorem Expr.isLoop_respelled (e : Expr) :
    (e.respelled f).isLoop = e.isLoop := by
  rcases e with ⟨attrs, kind⟩
  cases kind <;> rfl

theorem Expr.grouped_respelled (e : Expr) :
    (e.respelled f).grouped = e.grouped.respelled f := by
  rcases e with ⟨attrs, kind⟩
  cases kind with
  | range parts => cases attrs <;> rfl
  | _ => rfl

/-!
## Comparisons of spellings
-/

theorem Attr.isExpansion_respelled (hf : f.IsFaithful) (a : Attr) :
    (a.respelled f).isExpansion = a.isExpansion := by
  rcases a with ⟨inner, path, args⟩
  have hword := Ident.isWord_plainAmong (.inr hf.attrs)
  rw [Attr.respelled, isExpansion, isExpansion, Attr.path,
    SimplePath.respelled, Ident.getLast?_pathAmong, Option.any_map]
  simp only [hword]
  rfl

theorem hasOwnExpansion_respelled (hf : f.IsFaithful) (as : List Attr) :
    hasOwnExpansion (attrsRespelled f as) = hasOwnExpansion as := by
  induction as with
  | nil => rfl
  | cons a rest ih =>
      rw [attrsRespelled, hasOwnExpansion, List.any_cons,
        Attr.isExpansion_respelled hf a]
      exact congrArg (a.isExpansion || ·) ih

theorem Invocation.diverges_respelled (hf : f.IsFaithful) (m : Invocation) :
    (m.respelled f).diverges = m.diverges := by
  have hwords : forall i,
      (divergingMacros.any fun name =>
          (Ident.plainAmong f.macroNames i).isWord name) =
        divergingMacros.any fun name => i.isWord name := by
    intro i
    rw [Bool.eq_iff_iff, List.any_eq_true, List.any_eq_true]
    apply exists_congr
    intro name
    apply and_congr_right
    intro hname
    rw [Ident.isWord_plainAmong (.inr (hf.invocations name hname))]
  rw [Invocation.respelled, diverges, diverges, SimplePath.respelled,
    Ident.getLast?_pathAmong, Option.any_map]
  simp only [hwords]

mutual

theorem Expr.diverges_respelled (hf : f.IsFaithful) (e : Expr) :
    (e.respelled f).diverges = e.diverges := by
  rcases e with ⟨attrs, kind⟩
  exact ExprKind.diverges_respelled hf kind

theorem ExprKind.diverges_respelled (hf : f.IsFaithful) (k : ExprKind) :
    (k.respelled f).diverges = k.diverges := by
  cases k with
  | invocation m => exact m.diverges_respelled hf
  | block style body =>
      match style with
      | .plain none => exact stmtsDiverge_respelled hf body
      | .plain (some _) => rfl
      | .unsafeBlock => exact stmtsDiverge_respelled hf body
      | .constBlock => rfl
      | .tryBlock => rfl
      | .asyncBlock _ => rfl
  | ifElse cond body orElse =>
      rw [ExprKind.respelled, ExprKind.diverges, ExprKind.diverges,
        stmtsDiverge_respelled hf body, Expr.diverges_respelled hf orElse]
  | matchOn scrutinee arms =>
      have hempty : (armsRespelled f arms).isEmpty = arms.isEmpty := by
        cases arms <;> rfl
      rw [ExprKind.respelled, ExprKind.diverges, ExprKind.diverges, hempty,
        armsDiverge_respelled hf arms]
  | paren inner => exact Expr.diverges_respelled hf inner
  | _ => rfl

theorem armsDiverge_respelled (hf : f.IsFaithful) (as : List Arm) :
    armsDiverge (armsRespelled f as) = armsDiverge as := by
  cases as with
  | nil => rfl
  | cons a rest =>
      rw [armsRespelled, armsDiverge, armsDiverge, Arm.diverges_respelled hf a,
        armsDiverge_respelled hf rest]

theorem Arm.diverges_respelled (hf : f.IsFaithful) (a : Arm) :
    (a.respelled f).diverges = a.diverges := by
  rcases a with ⟨attrs, pat, guard, body, comma⟩
  exact Expr.diverges_respelled hf body

theorem stmtsDiverge_respelled (hf : f.IsFaithful) (ss : List Stmt) :
    stmtsDiverge (stmtsRespelled f ss) = stmtsDiverge ss := by
  match ss with
  | [] => rfl
  | [s] => exact Stmt.diverges_respelled hf s
  | s :: t :: rest => exact stmtsDiverge_respelled hf (t :: rest)

theorem Stmt.diverges_respelled (hf : f.IsFaithful) (s : Stmt) :
    (s.respelled f).diverges = s.diverges := by
  cases s with
  | expr pos e semi => exact Expr.diverges_respelled hf e
  | invocation attrs m semi => exact m.diverges_respelled hf
  | _ => rfl

end

theorem Stmt.isValue_respelled (hf : f.IsFaithful) (s : Stmt) :
    (s.respelled f).isValue = s.isValue := by
  cases s with
  | expr pos e semi =>
      cases semi with
      | true => rfl
      | false =>
          change (e.respelled f).needsBinding = e.needsBinding
          rw [Expr.needsBinding, Expr.needsBinding, Expr.isLoop_respelled,
            Expr.diverges_respelled hf]
  | _ => rfl

end ScopeExit
