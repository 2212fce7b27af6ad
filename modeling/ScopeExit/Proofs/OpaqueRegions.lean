import ScopeExit.Proofs.Replacement

/-!
# Opaque regions

The arguments of a macro are plain tokens, and an item with an expansion of its
own is left alone.  So two trees that are alike but for such regions should be
expanded alike.  Here it is said what that means, and that nothing which is
asked about a tree, to tell registrations and scopes apart, can tell the two
trees apart.
-/

namespace ScopeExit

/-- What can stand in an opaque region: the arguments of a macro, or an item
with an expansion of its own. -/
inductive Region where
  | args (body : List Token)
  | item (i : Item)

/-- What is known of an item from outside: its kind and its name. -/
inductive ItemLabel where
  | function (name : Ident)
  | implementation
  | traitDef (name : Ident)
  | module (name : Ident)

def ItemKind.label? : ItemKind -> Option ItemLabel
  | .function _ _ _ name _ _ => some (.function name)
  | .implementation _ _ => some .implementation
  | .traitDef _ name _ _ => some (.traitDef name)
  | .module _ name _ => some (.module name)
  | _ => none

/-- The invocation of a macro behind its path, where it is kept as tokens: in a
type or a pattern, or as an item. -/
def Part.ofMacro (name : Option Ident) (delimiter : Delimiter)
    (body : List Token) : List Part :=
  Part.ofTokens (.punct '!' ::
    (name.toList.map Token.ident ++ Token.group delimiter body))

/-- Whether the second tree is the first one with other contents in its opaque
regions.  The list holds what stands in them, before and after, in the order in
which they come by.  New contents shift what stands behind them, so the places
of statements move. -/
inductive Node.Refilled (move : Position -> Position) :
    List (Region × Region) -> Node -> Node -> Prop
  | attr {inner path args args' rs}
      (hargs : Refilled move rs (.parts args) (.parts args')) :
      Refilled move rs (.attr (.mk inner path args))
        (.attr (.mk inner path args'))
  | attrsNil : Refilled move [] (.attrs []) (.attrs [])
  | attrsCons {a a' as as' rs qs}
      (ha : Refilled move rs (.attr a) (.attr a'))
      (has : Refilled move qs (.attrs as) (.attrs as')) :
      Refilled move (rs ++ qs) (.attrs (a :: as)) (.attrs (a' :: as'))
  | partToken (t : Token) :
      Refilled move [] (.part (.token t)) (.part (.token t))
  | partAttr {a a' rs} (ha : Refilled move rs (.attr a) (.attr a')) :
      Refilled move rs (.part (.attr a)) (.part (.attr a'))
  | partExpr {e e' rs} (he : Refilled move rs (.expr e) (.expr e')) :
      Refilled move rs (.part (.expr e)) (.part (.expr e'))
  | partPat {p p' rs} (hp : Refilled move rs (.pat p) (.pat p')) :
      Refilled move rs (.part (.pat p)) (.part (.pat p'))
  | partClauseLast {clause clause' body body' rs qs}
      (hclause : Refilled move rs (.parts clause) (.parts clause'))
      (hbody : Refilled move qs (.parts body) (.parts body')) :
      Refilled move (rs ++ qs) (.part (.clauseLast body clause))
        (.part (.clauseLast body' clause'))
  | partsNil : Refilled move [] (.parts []) (.parts [])
  | partsCons {p p' ps ps' rs qs}
      (hp : Refilled move rs (.part p) (.part p'))
      (hps : Refilled move qs (.parts ps) (.parts ps')) :
      Refilled move (rs ++ qs) (.parts (p :: ps)) (.parts (p' :: ps'))
  | partsMacro (name : Option Ident) (delimiter : Delimiter)
      (body body' : List Token) {ps ps' rs}
      (hps : Refilled move rs (.parts ps) (.parts ps')) :
      Refilled move ((.args body, .args body') :: rs)
        (.parts (Part.ofMacro name delimiter body ++ ps))
        (.parts (Part.ofMacro name delimiter body' ++ ps'))
  | segment {name args args' rs}
      (hargs : Refilled move rs (.parts args) (.parts args')) :
      Refilled move rs (.segment (.mk name args)) (.segment (.mk name args'))
  | segmentsNil : Refilled move [] (.segments []) (.segments [])
  | segmentsCons {s s' ss ss' rs qs}
      (hs : Refilled move rs (.segment s) (.segment s'))
      (hss : Refilled move qs (.segments ss) (.segments ss')) :
      Refilled move (rs ++ qs) (.segments (s :: ss)) (.segments (s' :: ss'))
  | path {absolute ss ss' rs}
      (hss : Refilled move rs (.segments ss) (.segments ss')) :
      Refilled move rs (.path (.mk absolute ss)) (.path (.mk absolute ss'))
  | expr {as as' k k' rs qs}
      (has : Refilled move rs (.attrs as) (.attrs as'))
      (hk : Refilled move qs (.kind k) (.kind k')) :
      Refilled move (rs ++ qs) (.expr (.mk as k)) (.expr (.mk as' k'))
  | kindPath {p p' rs} (hp : Refilled move rs (.path p) (.path p')) :
      Refilled move rs (.kind (.path p)) (.kind (.path p'))
  | qualified {ps ps' rs} (hps : Refilled move rs (.parts ps) (.parts ps')) :
      Refilled move rs (.kind (.qualified ps)) (.kind (.qualified ps'))
  | call {callee callee' args args' rs qs}
      (hcallee : Refilled move rs (.expr callee) (.expr callee'))
      (hargs : Refilled move qs (.parts args) (.parts args')) :
      Refilled move (rs ++ qs) (.kind (.call callee args))
        (.kind (.call callee' args'))
  | closure {binder binder' marks inputs inputs' output output' value value'}
      {rs qs us ts}
      (hbinder : Refilled move rs (.parts binder) (.parts binder'))
      (hinputs : Refilled move qs (.parts inputs) (.parts inputs'))
      (houtput : Refilled move us (.parts output) (.parts output'))
      (hvalue : Refilled move ts (.expr value) (.expr value')) :
      Refilled move (rs ++ (qs ++ (us ++ ts)))
        (.kind (.closure binder marks inputs output value))
        (.kind (.closure binder' marks inputs' output' value'))
  | paren {e e' rs} (he : Refilled move rs (.expr e) (.expr e')) :
      Refilled move rs (.kind (.paren e)) (.kind (.paren e'))
  | kindBlock {style body body' rs}
      (hbody : Refilled move rs (.block body) (.block body')) :
      Refilled move rs (.kind (.block style body)) (.kind (.block style body'))
  | ifThen {cond cond' body body' rs qs}
      (hcond : Refilled move rs (.expr cond) (.expr cond'))
      (hbody : Refilled move qs (.block body) (.block body')) :
      Refilled move (rs ++ qs) (.kind (.ifThen cond body))
        (.kind (.ifThen cond' body'))
  | ifElse {cond cond' body body' orElse orElse' rs qs us}
      (hcond : Refilled move rs (.expr cond) (.expr cond'))
      (hbody : Refilled move qs (.block body) (.block body'))
      (horElse : Refilled move us (.expr orElse) (.expr orElse')) :
      Refilled move (rs ++ (qs ++ us)) (.kind (.ifElse cond body orElse))
        (.kind (.ifElse cond' body' orElse'))
  | whileLoop {label cond cond' body body' rs qs}
      (hcond : Refilled move rs (.expr cond) (.expr cond'))
      (hbody : Refilled move qs (.block body) (.block body')) :
      Refilled move (rs ++ qs) (.kind (.whileLoop label cond body))
        (.kind (.whileLoop label cond' body'))
  | forLoop {label p p' source source' body body' rs qs us}
      (hp : Refilled move rs (.pat p) (.pat p'))
      (hsource : Refilled move qs (.expr source) (.expr source'))
      (hbody : Refilled move us (.block body) (.block body')) :
      Refilled move (rs ++ (qs ++ us)) (.kind (.forLoop label p source body))
        (.kind (.forLoop label p' source' body'))
  | loop {label body body' rs}
      (hbody : Refilled move rs (.block body) (.block body')) :
      Refilled move rs (.kind (.loop label body)) (.kind (.loop label body'))
  | matchOn {scrutinee scrutinee' arms arms' rs qs}
      (hscrutinee : Refilled move rs (.expr scrutinee) (.expr scrutinee'))
      (harms : Refilled move qs (.arms arms) (.arms arms')) :
      Refilled move (rs ++ qs) (.kind (.matchOn scrutinee arms))
        (.kind (.matchOn scrutinee' arms'))
  | letCond {p p' scrutinee scrutinee' rs qs}
      (hp : Refilled move rs (.pat p) (.pat p'))
      (hscrutinee : Refilled move qs (.expr scrutinee) (.expr scrutinee')) :
      Refilled move (rs ++ qs) (.kind (.letCond p scrutinee))
        (.kind (.letCond p' scrutinee'))
  | binary {left left' op right right' rs qs}
      (hleft : Refilled move rs (.expr left) (.expr left'))
      (hright : Refilled move qs (.expr right) (.expr right')) :
      Refilled move (rs ++ qs) (.kind (.binary left op right))
        (.kind (.binary left' op right'))
  | kindMacro (path : SimplePath) (delimiter : Delimiter)
      (body body' : List Token) :
      Refilled move [(.args body, .args body')]
        (.kind (.invocation ⟨path, delimiter, body⟩))
        (.kind (.invocation ⟨path, delimiter, body'⟩))
  | ret {ps ps' rs} (hps : Refilled move rs (.parts ps) (.parts ps')) :
      Refilled move rs (.kind (.ret ps)) (.kind (.ret ps'))
  | breakTo {label ps ps' rs}
      (hps : Refilled move rs (.parts ps) (.parts ps')) :
      Refilled move rs (.kind (.breakTo label ps)) (.kind (.breakTo label ps'))
  | continueTo (label : Option String) :
      Refilled move [] (.kind (.continueTo label)) (.kind (.continueTo label))
  | range {ps ps' rs}
      (hps : Refilled move rs (.parts ps) (.parts ps')) :
      Refilled move rs (.kind (.range ps)) (.kind (.range ps'))
  | data {ps ps' rs} (hps : Refilled move rs (.parts ps) (.parts ps')) :
      Refilled move rs (.kind (.data ps)) (.kind (.data ps'))
  | other {ps ps' rs} (hps : Refilled move rs (.parts ps) (.parts ps')) :
      Refilled move rs (.kind (.other ps)) (.kind (.other ps'))
  | binder {before name sub sub' rs}
      (hsub : Refilled move rs (.parts sub) (.parts sub')) :
      Refilled move rs (.pat (.binder before name sub))
        (.pat (.binder before name sub'))
  | compound {ps ps' rs} (hps : Refilled move rs (.parts ps) (.parts ps')) :
      Refilled move rs (.pat (.compound ps)) (.pat (.compound ps'))
  | arm {as as' p p' guard guard' value value' comma rs qs us ts}
      (has : Refilled move rs (.attrs as) (.attrs as'))
      (hp : Refilled move qs (.pat p) (.pat p'))
      (hguard : Refilled move us (.parts guard) (.parts guard'))
      (hvalue : Refilled move ts (.expr value) (.expr value')) :
      Refilled move (rs ++ (qs ++ (us ++ ts)))
        (.arm (.mk as p guard value comma))
        (.arm (.mk as' p' guard' value' comma))
  | armsNil : Refilled move [] (.arms []) (.arms [])
  | armsCons {a a' as as' rs qs}
      (ha : Refilled move rs (.arm a) (.arm a'))
      (has : Refilled move qs (.arms as) (.arms as')) :
      Refilled move (rs ++ qs) (.arms (a :: as)) (.arms (a' :: as'))
  | block {body body' rs}
      (hbody : Refilled move rs (.stmts body) (.stmts body')) :
      Refilled move rs (.block body) (.block body')
  | binding {as as' p p' init init' rs qs us}
      (has : Refilled move rs (.attrs as) (.attrs as'))
      (hp : Refilled move qs (.pat p) (.pat p'))
      (hinit : Refilled move us (.parts init) (.parts init')) :
      Refilled move (rs ++ (qs ++ us)) (.stmt (.binding as p init))
        (.stmt (.binding as' p' init'))
  | stmtItem {i i' rs} (hi : Refilled move rs (.item i) (.item i')) :
      Refilled move rs (.stmt (.item i)) (.stmt (.item i'))
  | stmtExpr (pos : Position) {e e' semi rs}
      (he : Refilled move rs (.expr e) (.expr e')) :
      Refilled move rs (.stmt (.expr pos e semi))
        (.stmt (.expr (move pos) e' semi))
  | stmtMacro (path : SimplePath) (delimiter : Delimiter)
      (body body' : List Token) {as as' semi rs}
      (has : Refilled move rs (.attrs as) (.attrs as')) :
      Refilled move (rs ++ [(.args body, .args body')])
        (.stmt (.invocation as ⟨path, delimiter, body⟩ semi))
        (.stmt (.invocation as' ⟨path, delimiter, body'⟩ semi))
  | stmtsNil : Refilled move [] (.stmts []) (.stmts [])
  | stmtsCons {s s' ss ss' rs qs}
      (hs : Refilled move rs (.stmt s) (.stmt s'))
      (hss : Refilled move qs (.stmts ss) (.stmts ss')) :
      Refilled move (rs ++ qs) (.stmts (s :: ss)) (.stmts (s' :: ss'))
  | item {as as' k k' rs qs}
      (has : Refilled move rs (.attrs as) (.attrs as'))
      (hk : Refilled move qs (.itemKind k) (.itemKind k')) :
      Refilled move (rs ++ qs) (.item (.mk as k)) (.item (.mk as' k'))
  | ownExpansion {as as' : List Attr} {k k' : ItemKind} {label : ItemLabel}
      (hk : k.label? = some label) (hk' : k'.label? = some label)
      (has : hasOwnExpansion as = true) (has' : hasOwnExpansion as' = true) :
      Refilled move [(.item (.mk as k), .item (.mk as' k'))]
        (.item (.mk as k)) (.item (.mk as' k'))
  | itemsNil : Refilled move [] (.items []) (.items [])
  | itemsCons {i i' is is' rs qs}
      (hi : Refilled move rs (.item i) (.item i'))
      (his : Refilled move qs (.items is) (.items is')) :
      Refilled move (rs ++ qs) (.items (i :: is)) (.items (i' :: is'))
  | function {before isConst qualifiers name signature signature'}
      {body body' rs qs}
      (hsignature : Refilled move rs (.parts signature) (.parts signature'))
      (hbody : Refilled move qs (.block body) (.block body')) :
      Refilled move (rs ++ qs)
        (.itemKind (.function before isConst qualifiers name signature body))
        (.itemKind (.function before isConst qualifiers name signature' body'))
  | constant {before name after after' rs}
      (hafter : Refilled move rs (.parts after) (.parts after')) :
      Refilled move rs (.itemKind (.constant before name after))
        (.itemKind (.constant before name after'))
  | implementation {header header' members members' rs qs}
      (hheader : Refilled move rs (.parts header) (.parts header'))
      (hmembers : Refilled move qs (.items members) (.items members')) :
      Refilled move (rs ++ qs) (.itemKind (.implementation header members))
        (.itemKind (.implementation header' members'))
  | traitDef {before name header header' members members' rs qs}
      (hheader : Refilled move rs (.parts header) (.parts header'))
      (hmembers : Refilled move qs (.items members) (.items members')) :
      Refilled move (rs ++ qs)
        (.itemKind (.traitDef before name header members))
        (.itemKind (.traitDef before name header' members'))
  | module {before name is is' rs}
      (his : Refilled move rs (.items is) (.items is')) :
      Refilled move rs (.itemKind (.module before name is))
        (.itemKind (.module before name is'))
  | moduleFile (before : List Token) (name : Ident) :
      Refilled move [] (.itemKind (.moduleFile before name))
        (.itemKind (.moduleFile before name))
  | imports (before : List Token) (absolute : Bool) (tree : UseTree) :
      Refilled move [] (.itemKind (.imports before absolute tree))
        (.itemKind (.imports before absolute tree))
  | externCrate (before : List Token) (name : Ident)
      (newName : Option Ident) :
      Refilled move [] (.itemKind (.externCrate before name newName))
        (.itemKind (.externCrate before name newName))
  | definition {before name after after' rs}
      (hafter : Refilled move rs (.parts after) (.parts after')) :
      Refilled move rs (.itemKind (.definition before name after))
        (.itemKind (.definition before name after'))
  | otherItem {ps ps' rs}
      (hps : Refilled move rs (.parts ps) (.parts ps')) :
      Refilled move rs (.itemKind (.other ps)) (.itemKind (.other ps'))

/-!
## Names

What a tree binds and declares stands outside the regions.
-/

namespace Node

variable {move : Position -> Position} {rs : List (Region × Region)}
  {n n' : Node}

def binders : Node -> List String
  | .part p => p.binders
  | .parts ps => partsBinders ps
  | .pat p => p.binders
  | _ => []

def conditionBinders : Node -> List String
  | .expr e => e.conditionBinders
  | .kind k => k.conditionBinders
  | _ => []

def segmentNames : Node -> List Ident
  | .segment s => [s.name]
  | .segments ss => ss.map Segment.name
  | _ => []

def attrPaths : Node -> List SimplePath
  | .attr a => [a.path]
  | .attrs as => as.map Attr.path
  | _ => []

def declaredIn (s : ScopeStack) : Node -> ScopeStack
  | .stmt x => s.declareStmts [x]
  | .stmts xs => s.declareStmts xs
  | .item i => s.declareItem i
  | .items is => s.declareItems is
  | .itemKind k => s.declareItem (.mk [] k)
  | _ => s

namespace Refilled

theorem binders_eq (h : Refilled move rs n n') : n.binders = n'.binders := by
  have htokens : forall ts : List Token,
      partsBinders (Part.ofTokens ts) = [] := by
    intro ts
    induction ts with
    | nil => rfl
    | cons t ts ih => exact ih
  induction h with
  | partPat hp ih => exact ih
  | partsCons hp hps ihp ihps => exact congrArg₂ _ ihp ihps
  | partsMacro name delimiter body body' hps ih =>
      simp only [binders, Part.ofMacro, partsBinders_append, htokens]
      exact ih
  | binder hsub ih => exact congrArg (List.cons _) ih
  | compound hps ih => exact ih
  | _ => rfl

theorem conditionBinders_eq (h : Refilled move rs n n') :
    n.conditionBinders = n'.conditionBinders := by
  induction h with
  | expr has hk ihas ihk => exact ihk
  | paren he ih => exact ih
  | letCond hp hscrutinee ihp ihscrutinee => exact hp.binders_eq
  | binary hleft hright ihleft ihright => exact congrArg₂ _ ihleft ihright
  | _ => rfl

theorem segmentNames_eq (h : Refilled move rs n n') :
    n.segmentNames = n'.segmentNames := by
  induction h with
  | segmentsCons hs hss ihs ihss => exact congrArg₂ (· ++ ·) ihs ihss
  | _ => rfl

theorem attrPaths_eq (h : Refilled move rs n n') :
    n.attrPaths = n'.attrPaths := by
  induction h with
  | attrsCons ha has iha ihas => exact congrArg₂ (· ++ ·) iha ihas
  | _ => rfl

/-- Attributes have no say in what an item declares, and of an item with an
expansion of its own only its label has. -/
theorem declareItem_eq_of_label {k k' : ItemKind} {label : ItemLabel}
    (hk : k.label? = some label) (hk' : k'.label? = some label)
    (s : ScopeStack) (as as' : List Attr) :
    s.declareItem (.mk as k) = s.declareItem (.mk as' k') := by
  cases k <;> cases hk <;> cases k' <;> cases hk' <;> rfl

theorem declaredIn_eq (h : Refilled move rs n n') (s : ScopeStack) :
    n.declaredIn s = n'.declaredIn s := by
  have hattrs : forall (s : ScopeStack) (as as' : List Attr) (k : ItemKind),
      s.declareItem (.mk as k) = s.declareItem (.mk as' k) := by
    intro s as as' k
    cases k <;> rfl
  induction h generalizing s with
  | stmtItem hi ih => exact ih s
  | @stmtsCons x x' xs xs' rs qs hs hss ihs ihss =>
      have hfirst : s.declareStmts [x] = s.declareStmts [x'] := ihs s
      have hrest : (s.declareStmts [x']).declareStmts xs =
          (s.declareStmts [x']).declareStmts xs' := ihss _
      rw [declaredIn, declaredIn, ScopeStack.declareStmts_cons,
        ScopeStack.declareStmts_cons s x', hfirst, hrest]
  | @item as as' k k' rs qs has hk ihas ihk =>
      have hkind : s.declareItem (.mk [] k) = s.declareItem (.mk [] k') := ihk s
      rw [declaredIn, declaredIn, hattrs s as [], hkind, hattrs s [] as']
  | ownExpansion hk hk' has has' =>
      exact declareItem_eq_of_label hk hk' s _ _
  | @itemsCons i i' is is' rs qs hi his ihi ihis =>
      have hfirst : s.declareItem i = s.declareItem i' := ihi s
      have hrest : (s.declareItem i').declareItems is =
          (s.declareItem i').declareItems is' := ihis _
      change (s.declareItem i).declareItems is =
        (s.declareItem i').declareItems is'
      rw [hfirst, hrest]
  | _ => rfl

/-!
## Shapes

A call has the same number of arguments, and its sole argument is an action in
both trees or in none of them.
-/

theorem isEmpty_eq {ps ps' : List Part}
    (h : Refilled move rs (.parts ps) (.parts ps')) :
    ps.isEmpty = ps'.isEmpty := by
  cases h <;> rfl

theorem eq_ofTokens {ps ps' : List Part} {ts : List Token}
    (h : Refilled move rs (.parts ps) (.parts ps'))
    (hbang : Token.punct '!' ∉ ts) :
    ps = Part.ofTokens ts ↔ ps' = Part.ofTokens ts := by
  induction ts generalizing rs ps ps' with
  | nil =>
      cases h with
      | partsNil => exact Iff.rfl
      | partsCons hp hps => simp [Part.ofTokens]
      | partsMacro name delimiter body body' hps =>
          simp [Part.ofMacro, Part.ofTokens]
  | cons t ts ih =>
      rcases List.ne_and_not_mem_of_not_mem_cons hbang with ⟨hne, hrest⟩
      cases h with
      | partsNil => exact Iff.rfl
      | partsCons hp hps =>
          cases hp with
          | partToken u =>
              simp only [Part.ofTokens, List.map_cons, List.cons.injEq]
              exact and_congr_right fun _ => ih hps hrest
          | _ => simp [Part.ofTokens]
      | partsMacro name delimiter body body' hps =>
          have hfirst : forall {body : List Token} {ps : List Part},
              Part.ofMacro name delimiter body ++ ps ≠
                Part.ofTokens (t :: ts) :=
            fun heq => hne (Part.token.inj (List.cons.inj heq).1)
          exact iff_of_false hfirst hfirst

theorem returnsUnit_eq {ps ps' : List Part}
    (h : Refilled move rs (.parts ps) (.parts ps')) :
    returnsUnit ps = returnsUnit ps' := by
  rw [Bool.eq_iff_iff, returnsUnit_iff, returnsUnit_iff,
    h.eq_ofTokens (by decide), h.eq_ofTokens (by decide)]

theorem soleArgument?_rel {ps ps' : List Part}
    (h : Refilled move rs (.parts ps) (.parts ps')) :
    Option.Rel (fun e e' => Refilled move rs (.expr e) (.expr e'))
      (soleArgument? ps) (soleArgument? ps') := by
  cases h with
  | partsNil => exact .none
  | partsMacro name delimiter body body' hps => exact .none
  | partsCons hp hps =>
      cases hp with
      | partExpr he =>
          cases hps with
          | partsNil =>
              rw [List.append_nil]
              exact .some he
          | partsMacro name delimiter body body' hps => exact .none
          | partsCons hq hrest =>
              cases hq with
              | partToken t =>
                  cases hrest with
                  | partsNil =>
                      by_cases ht : t = .atom (.punct ',')
                      · rw [ht]
                        exact .some (by simpa using he)
                      · simp [soleArgument?, ht]
                  | partsCons => simp [soleArgument?]
                  | partsMacro name delimiter body body' hps =>
                      simp [soleArgument?, Part.ofMacro, Part.ofTokens]
              | _ => exact .none
      | _ => exact .none

end Refilled

def isAction : Node -> Bool
  | .expr e => e.isAction
  | .kind k => k.isAction
  | _ => true

def diverges : Node -> Bool
  | .expr e => e.diverges
  | .kind k => k.diverges
  | .arm a => a.diverges
  | .arms as => armsDiverge as
  | .block body => stmtsDiverge body
  | .stmt s => s.diverges
  | .stmts ss => stmtsDiverge ss
  | _ => false

namespace Refilled

theorem isAction_eq (h : Refilled move rs n n') : n.isAction = n'.isAction := by
  induction h with
  | expr has hk ihas ihk => exact ihk
  | @closure _ _ marks _ _ _ _ _ _ _ _ _ _ _ hinputs houtput =>
      simp only [isAction, ExprKind.isAction, hinputs.isEmpty_eq,
        houtput.returnsUnit_eq]
  | paren he ih => exact ih
  | @kindBlock style => cases style <;> rfl
  | _ => rfl

theorem diverges_eq (h : Refilled move rs n n') : n.diverges = n'.diverges := by
  induction h with
  | expr has hk ihas ihk => exact ihk
  | paren he ih => exact ih
  | @kindBlock style body body' rs hbody ih =>
      match style with
      | .plain none => exact ih
      | .plain (some _) => rfl
      | .unsafeBlock => exact ih
      | .constBlock => rfl
      | .tryBlock => rfl
      | .asyncBlock _ => rfl
  | ifElse hcond hbody horElse ihcond ihbody ihorElse =>
      exact congrArg₂ and ihbody ihorElse
  | matchOn hscrutinee harms ihscrutinee iharms =>
      cases harms with
      | armsNil => rfl
      | armsCons => exact iharms
  | arm has hp hguard hvalue ihas ihp ihguard ihvalue => exact ihvalue
  | armsCons ha has iha ihas => exact congrArg₂ and iha ihas
  | block hbody ih => exact ih
  | stmtExpr pos he ih => exact ih
  | stmtsCons hs hss ihs ihss =>
      cases hss with
      | stmtsNil => exact ihs
      | stmtsCons => exact ihss
  | _ => rfl

/-!
## Judgements

What is found out about statements, blocks and items is the same in both trees.
-/

theorem isPath_eq {e e' : Expr} (h : Refilled move rs (.expr e) (.expr e')) :
    e.isPath = e'.isPath := by
  cases h with
  | expr has hk => cases hk <;> rfl

theorem resolve_eq {p p' : Path} (h : Refilled move rs (.path p) (.path p'))
    (s : ScopeStack) : s.resolve p = s.resolve p' := by
  cases h with
  | path hss => exact Node.resolve_eq_of_names hss.segmentNames_eq s

theorem isSentinel_eq {e e' : Expr}
    (h : Refilled move rs (.expr e) (.expr e')) (s : ScopeStack) :
    (e.calleePath?.any fun p => s.resolve p = .sentinel) =
      (e'.calleePath?.any fun p => s.resolve p = .sentinel) := by
  cases h with
  | expr has hk =>
      cases hk with
      | kindPath hp => simp [Expr.calleePath?, hp.resolve_eq s]
      | _ => rfl

theorem isAction_soleArgument? {ps ps' : List Part}
    (h : Refilled move rs (.parts ps) (.parts ps')) :
    (soleArgument? ps).any Expr.isAction =
      (soleArgument? ps').any Expr.isAction := by
  have hrel := h.soleArgument?_rel
  generalize soleArgument? ps = o, soleArgument? ps' = o' at hrel
  cases hrel with
  | none => rfl
  | some he => exact he.isAction_eq

theorem hasOwnExpansion_eq {as as' : List Attr}
    (h : Refilled move rs (.attrs as) (.attrs as')) :
    hasOwnExpansion as = hasOwnExpansion as' :=
  Node.hasOwnExpansion_eq h.attrPaths_eq

theorem isRegistration_eq {x x' : Stmt}
    (h : Refilled move rs (.stmt x) (.stmt x')) (s : ScopeStack) :
    x.isRegistration s = x'.isRegistration s := by
  cases h with
  | stmtExpr pos he =>
      cases he with
      | expr has hk =>
          cases hk with
          | call hcallee hargs =>
              exact congrArg₂ and (hcallee.isSentinel_eq s)
                hargs.isAction_soleArgument?
          | _ => rfl
  | _ => rfl

theorem needsBinding_eq {e e' : Expr}
    (h : Refilled move rs (.expr e) (.expr e')) :
    e.needsBinding = e'.needsBinding := by
  have hdiverges : e.diverges = e'.diverges := h.diverges_eq
  have hloop : e.isLoop = e'.isLoop := by
    cases h with
    | expr has hk => cases hk <;> rfl
  rw [Expr.needsBinding, Expr.needsBinding, hdiverges, hloop]

theorem inExpr_eq {k k' : ExprKind}
    (h : Refilled move rs (.kind k) (.kind k')) (c : Context) :
    c.inExpr k = c.inExpr k' := by
  cases h with
  | closure hbinder hinputs houtput hvalue =>
      exact congrArg c.binding hinputs.binders_eq
  | @kindBlock style => cases style <;> rfl
  | _ => rfl

theorem inItem_eq {k k' : ItemKind}
    (h : Refilled move rs (.itemKind k) (.itemKind k')) (c : Context) :
    c.inItem k = c.inItem k' := by
  cases h with
  | @function _ isConst _ _ _ _ _ _ _ _ hsignature hbody =>
      exact congrArg (fun names => ({ c with
        scope := c.scope.pushBarrier.bindLocals names
        inConst := c.inConst || isConst } : Context)) hsignature.binders_eq
  | module his =>
      exact congrArg (fun s => { c with scope := s }) (his.declaredIn_eq _)
  | _ => rfl

theorem inBlock_eq {body body' : List Stmt}
    (h : Refilled move rs (.stmts body) (.stmts body')) (c : Context) :
    c.inBlock body = c.inBlock body' :=
  congrArg (fun s => { c with scope := s }) (h.declaredIn_eq _)

theorem afterStmt_eq {x x' : Stmt}
    (h : Refilled move rs (.stmt x) (.stmt x')) (c : Context) :
    c.afterStmt x = c.afterStmt x' := by
  cases h with
  | binding has hp hinit =>
      exact congrArg (fun names => { c with
        scope := c.scope.bindLocals names }) hp.binders_eq
  | _ => rfl

theorem hasWalkedAttrs_eq {k k' : ExprKind}
    (h : Refilled move rs (.kind k) (.kind k')) :
    k.hasWalkedAttrs = k'.hasWalkedAttrs := by
  cases h <;> rfl

theorem itemHasWalkedAttrs_eq {k k' : ItemKind}
    (h : Refilled move rs (.itemKind k) (.itemKind k')) :
    k.hasWalkedAttrs = k'.hasWalkedAttrs := by
  cases h <;> rfl

theorem isExpandable_eq {k k' : ItemKind}
    (h : Refilled move rs (.itemKind k) (.itemKind k')) :
    k.isExpandable = k'.isExpandable := by
  cases h <;> rfl

end Refilled
end Node

def Fault.moved (move : Position -> Position) : Fault -> Fault
  | constContext pos => constContext (move pos)
  | runtimePath pos => runtimePath (move pos)

end ScopeExit
