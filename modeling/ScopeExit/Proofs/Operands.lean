import ScopeExit.Proofs.Reading

/-!
# Operands

A range is the one expression that attributes cannot be read in front of: they
are those of its lower end, if it has one, and cannot stand there otherwise.  An
operand is known to be a range by its form, and operators behind an operand do
not ask for anything else of it; what they add does not depend on the operand,
either.
-/

namespace ScopeExit

namespace Reader

variable {α β : Type}

/-- Whether everything that a reader may give has a property. -/
def Gives (r : Reader α) (P : α -> Prop) : Prop :=
  forall ts a rest, r ts = some (a, rest) -> P a

theorem exists_of_bind {r : Reader α} {f : α -> Reader β}
    {ts rest : List TokenTree} {b : β} (h : (r >>= f) ts = some (b, rest)) :
    exists a mid, r ts = some (a, mid) ∧ f a mid = some (b, rest) := by
  have hbind : (r ts).bind (fun p => f p.1 p.2) = some (b, rest) := h
  rcases Option.bind_eq_some_iff.mp hbind with ⟨⟨a, mid⟩, ha, hb⟩
  exact ⟨a, mid, ha, hb⟩

theorem gives_bind {r : Reader α} {f : α -> Reader β} {P : α -> Prop}
    {Q : β -> Prop} (hr : Gives r P) (hf : forall a, P a -> Gives (f a) Q) :
    Gives (r >>= f) Q := by
  intro ts b rest h
  rcases exists_of_bind h with ⟨a, mid, ha, hb⟩
  exact hf a (hr ts a mid ha) mid b rest hb

theorem Gives.mono {r : Reader α} {P Q : α -> Prop} (h : Gives r P)
    (hPQ : forall a, P a -> Q a) : Gives r Q := by
  intro ts a rest ha
  exact hPQ a (h ts a rest ha)

theorem gives_any (r : Reader α) : Gives r fun _ => True := by
  intro ts a rest h
  exact trivial

theorem gives_behind {r : Reader α} {f : α -> Reader β} {Q : β -> Prop}
    (hf : forall a, Gives (f a) Q) : Gives (r >>= f) Q :=
  gives_bind (gives_any r) fun a _ => hf a

theorem gives_pure {a : α} {P : α -> Prop} (h : P a) :
    Gives (pure a) P := by
  intro ts b rest hb
  cases hb
  exact h

theorem gives_fail (P : α -> Prop) : Gives (fail : Reader α) P := by
  intro ts a rest h
  cases h

theorem gives_require {condition : Bool} :
    Gives (require condition) fun _ => condition = true := by
  intro ts a rest h
  cases condition with
  | true => rfl
  | false => cases h

theorem gives_ite {condition : Prop} [Decidable condition] {r s : Reader α}
    {P : α -> Prop} (hr : Gives r P) (hs : Gives s P) :
    Gives (if condition then r else s) P := by
  split
  · exact hr
  · exact hs

theorem gives_whileNext (test : List TokenTree -> Bool) {r : Reader α}
    {P : α -> Prop} (h : Gives r P) :
    Gives (whileNext test r) fun found => forall a, a ∈ found -> P a := by
  have hfuel : forall fuel, Gives (whileFuel test r fuel) fun found =>
      forall a, a ∈ found -> P a := by
    intro fuel
    induction fuel with
    | zero => exact gives_fail _
    | succ fuel ih =>
        refine gives_behind fun _ => gives_ite ?_ (gives_pure (by simp))
        refine gives_bind h fun a ha => gives_bind ih fun more hmore => ?_
        refine gives_pure fun b hb => ?_
        rcases List.mem_cons.mp hb with rfl | hb
        · exact ha
        · exact hmore b hb
  exact gives_behind fun ts => hfuel (ts.length + 1)

theorem gives_inside {d : Delimiter} {r : Reader α} {P : α -> Prop}
    (h : Gives r P) : Gives (inside d r) P := by
  intro ts a rest ha
  unfold inside at ha
  split at ha
  · split at ha
    · rcases Option.map_eq_some_iff.mp ha with ⟨b, hb, heq⟩
      unfold all? at hb
      split at hb
      · next hread =>
          cases heq
          cases hb
          exact h _ _ _ hread
      · cases hb
    · cases ha
  · cases ha

end Reader

def Expr.isRange (e : Expr) : Bool := e.kind.isRange

/-- Whether a shape is an ordinary one: no range, no path and no call. -/
def ExprKind.isOrdinary : ExprKind -> Bool
  | .path _ => false
  | .qualified _ => false
  | .call _ _ => false
  | .range _ => false
  | _ => true

theorem Expr.isRange_of_isOrdinary {e : Expr}
    (h : e.kind.isOrdinary = true) : e.isRange = false := by
  rcases e with ⟨attrs, kind⟩
  cases kind with
  | range parts => cases h
  | _ => rfl

/-- Whether the form of an operand says truly whether it is a range, which then
has no attributes. -/
def Operand.KnowsRange (o : Operand) : Prop :=
  match o.form with
  | .range => o.expr.attrs = [] ∧ o.expr.isRange = true
  | _ => o.expr.isRange = false

namespace Grammar

open Reader

abbrev GivesNoRange (r : Reader Expr) : Prop :=
  r.Gives fun e => e.isRange = false

abbrev GivesOrdinary (r : Reader Expr) : Prop :=
  r.Gives fun e => e.kind.isOrdinary = true

variable (g : Grammar)

theorem readConditional_givesOrdinary :
    GivesOrdinary (readConditional g) := by
  unfold readConditional
  refine gives_behind fun _ => gives_behind fun _ => gives_behind fun _ =>
    gives_behind fun _ => gives_ite ?_ (gives_pure rfl)
  refine gives_behind fun _ => gives_behind fun _ => gives_ite ?_ ?_
  · exact gives_behind fun _ => gives_pure rfl
  · exact gives_behind fun _ => gives_pure rfl

theorem conditional_givesOrdinary (n : Nat) :
    GivesOrdinary (level n).conditional := by
  cases n with
  | zero => exact gives_fail _
  | succ n => exact readConditional_givesOrdinary (level n)

theorem conditional_givesNoRange (n : Nat) :
    GivesNoRange (level n).conditional :=
  (conditional_givesOrdinary n).mono fun _ => Expr.isRange_of_isOrdinary

theorem blockExpr_givesOrdinary (label : Option String) :
    GivesOrdinary (blockExpr g label) :=
  gives_behind fun _ => gives_pure rfl

theorem whileExpr_givesOrdinary (label : Option String) :
    GivesOrdinary (whileExpr g label) :=
  gives_behind fun _ => gives_behind fun _ => gives_behind fun _ =>
    gives_pure rfl

theorem forExpr_givesOrdinary (label : Option String) :
    GivesOrdinary (forExpr g label) :=
  gives_behind fun _ => gives_behind fun _ => gives_behind fun _ =>
    gives_behind fun _ => gives_behind fun _ => gives_pure rfl

theorem loopExpr_givesOrdinary (label : Option String) :
    GivesOrdinary (loopExpr g label) :=
  gives_behind fun _ => gives_behind fun _ => gives_pure rfl

theorem labeledExpr_givesOrdinary : GivesOrdinary (labeledExpr g) := by
  unfold labeledExpr
  refine gives_behind fun label => gives_behind fun _ =>
    gives_behind fun _ => ?_
  exact gives_ite (whileExpr_givesOrdinary g _)
    (gives_ite (forExpr_givesOrdinary g _)
      (gives_ite (loopExpr_givesOrdinary g _) (blockExpr_givesOrdinary g _)))

theorem matchExpr_givesOrdinary : GivesOrdinary (matchExpr g) :=
  gives_behind fun _ => gives_behind fun _ => gives_behind fun _ =>
    gives_pure rfl

theorem closureExpr_givesOrdinary (allowStruct : Bool) :
    GivesOrdinary (closureExpr g allowStruct) := by
  unfold closureExpr
  refine gives_behind fun _ => gives_behind fun _ => gives_behind fun _ =>
    gives_behind fun _ => gives_behind fun _ => gives_behind fun _ =>
      gives_behind fun _ => gives_behind fun _ => gives_behind fun _ =>
        gives_ite ?_ ?_
  · exact gives_behind fun _ => gives_behind fun _ => gives_pure rfl
  · exact gives_behind fun _ => gives_pure rfl

theorem asyncExpr_givesOrdinary : GivesOrdinary (asyncExpr g) :=
  gives_behind fun _ => gives_behind fun _ => gives_behind fun _ =>
    gives_pure rfl

theorem tryExpr_givesOrdinary : GivesOrdinary (tryExpr g) :=
  gives_behind fun _ => gives_behind fun _ => gives_pure rfl

theorem unsafeExpr_givesOrdinary : GivesOrdinary (unsafeExpr g) :=
  gives_behind fun _ => gives_behind fun _ => gives_pure rfl

theorem constBlock_givesOrdinary : GivesOrdinary (constBlock g) :=
  gives_behind fun _ => gives_behind fun _ => gives_pure rfl

/-!
## What operands can be

Only a path, a call and a range need a look of their own: whatever all other
operands have in common, they have because their shape is an ordinary one.
-/

section

variable {Q : Operand -> Prop}
    (hplain : forall e, e.kind.isOrdinary = true -> Q (.plain e))

include hplain

theorem plain_gives {r : Reader Expr} (h : GivesOrdinary r) :
    (do return .plain (← r) : Reader Operand).Gives Q :=
  gives_bind h fun e he => gives_pure (hplain e he)

theorem ofKind_gives {k : ExprKind} (h : k.isOrdinary = true) :
    (pure (.ofKind k) : Reader Operand).Gives Q :=
  gives_pure (hplain (.bare k) h)

theorem pathExpr_gives
    (hpath : forall p : PathSyntax, Q (.ofKind p.toExprKind))
    (allowStruct : Bool) : (pathExpr g allowStruct).Gives Q := by
  unfold pathExpr
  refine gives_behind fun p => gives_behind fun ts => ?_
  have hrest : Reader.Gives (if allowStruct && Next.isGroup .brace ts then do
        return .ofKind
          (.data (p.parts ++ (← groupParts .brace (fieldValues g))))
      else return .ofKind p.toExprKind) Q :=
    gives_ite (gives_behind fun _ => ofKind_gives hplain rfl)
      (gives_pure (hpath p))
  dsimp only
  split
  · exact gives_ite (gives_behind fun _ => ofKind_gives hplain rfl) hrest
  · exact hrest

theorem parenExpr_gives : (parenExpr g).Gives Q := by
  unfold parenExpr
  refine gives_inside (gives_behind fun _ => ?_)
  refine gives_ite (ofKind_gives hplain rfl) (gives_behind fun _ =>
    gives_behind fun _ => gives_ite (ofKind_gives hplain rfl) ?_)
  exact gives_behind fun _ => gives_behind fun _ => ofKind_gives hplain rfl

theorem opaqueExpr_gives (r : Reader Unit) : (opaqueExpr r).Gives Q :=
  gives_behind fun _ => ofKind_gives hplain rfl

theorem breakExpr_gives (allowStruct : Bool) :
    (breakExpr g allowStruct).Gives Q :=
  gives_behind fun _ => gives_behind fun _ => gives_behind fun _ =>
    gives_behind fun _ => gives_behind fun _ => ofKind_gives hplain rfl

theorem arrayExpr_gives : (arrayExpr g).Gives Q :=
  gives_behind fun _ => ofKind_gives hplain rfl

theorem letExpr_gives (allowStruct : Bool) :
    (letExpr g allowStruct).Gives Q :=
  gives_behind fun _ => gives_behind fun _ => gives_behind fun _ =>
    gives_behind fun _ => gives_behind fun _ => ofKind_gives hplain rfl

theorem atomExpr_gives
    (hpath : forall p : PathSyntax, Q (.ofKind p.toExprKind))
    (hrange : forall parts, Q ⟨.bare (.range parts), .range⟩)
    (hconditional :
      (do return .plain (← g.conditional) : Reader Operand).Gives Q)
    (allowStruct : Bool) : (atomExpr g allowStruct).Gives Q := by
  have hexpr : forall {r : Reader Expr}, GivesOrdinary r ->
      (do return .plain (← r) : Reader Operand).Gives Q :=
    plain_gives hplain
  unfold atomExpr
  refine gives_behind fun ts => ?_
  refine gives_ite (gives_behind fun _ => ofKind_gives hplain rfl) ?_
  refine gives_ite (hexpr (asyncExpr_givesOrdinary g)) ?_
  refine gives_ite (hexpr (tryExpr_givesOrdinary g)) ?_
  refine gives_ite (hexpr (closureExpr_givesOrdinary g allowStruct)) ?_
  refine gives_ite (opaqueExpr_gives hplain _) ?_
  refine gives_ite (pathExpr_gives g hplain hpath allowStruct) ?_
  refine gives_ite (parenExpr_gives g hplain) ?_
  refine gives_ite (breakExpr_gives g hplain allowStruct) ?_
  refine gives_ite (gives_behind fun _ => gives_behind fun _ =>
    ofKind_gives hplain rfl) ?_
  refine gives_ite (gives_behind fun _ => gives_behind fun _ =>
    ofKind_gives hplain rfl) ?_
  refine gives_ite (opaqueExpr_gives hplain _) ?_
  refine gives_ite (arrayExpr_gives g hplain) ?_
  refine gives_ite (letExpr_gives g hplain allowStruct) ?_
  refine gives_ite hconditional ?_
  refine gives_ite (hexpr (whileExpr_givesOrdinary g none)) ?_
  refine gives_ite (hexpr (forExpr_givesOrdinary g none)) ?_
  refine gives_ite (hexpr (loopExpr_givesOrdinary g none)) ?_
  refine gives_ite (hexpr (matchExpr_givesOrdinary g)) ?_
  refine gives_ite (gives_behind fun _ => gives_behind fun _ =>
    ofKind_gives hplain rfl) ?_
  refine gives_ite (hexpr (unsafeExpr_givesOrdinary g)) ?_
  refine gives_ite (hexpr (constBlock_givesOrdinary g)) ?_
  refine gives_ite (hexpr (blockExpr_givesOrdinary g none)) ?_
  refine gives_ite (gives_behind fun _ => gives_pure (hrange _)) ?_
  refine gives_ite (gives_behind fun _ => ofKind_gives hplain rfl) ?_
  exact gives_behind fun _ => hexpr (labeledExpr_givesOrdinary g)

theorem memberBehind_gives (e : Expr) (dot : List Part) :
    (memberBehind g e dot).Gives Q := by
  unfold memberBehind
  refine gives_behind fun _ => gives_ite ?_ ?_
  · exact gives_behind fun _ => ofKind_gives hplain rfl
  · refine gives_behind fun found => ?_
    have hname : forall turbofish : List Part, Reader.Gives (do
        if found.2 && (!turbofish.isEmpty ||
            (← next (Next.isGroup .paren))) then
          let args ← groupParts .paren (commaList g.exprPart)
          return .ofKind (.other
            (.expr e :: dot ++ .token found.1 :: turbofish ++ args))
        else return .ofKind (.other (.expr e :: dot ++ [.token found.1])))
          Q := by
      intro turbofish
      refine gives_behind fun _ => gives_ite ?_ (ofKind_gives hplain rfl)
      exact gives_behind fun _ => ofKind_gives hplain rfl
    exact gives_ite (gives_behind hname) (gives_behind hname)

theorem dotTrailer_gives (e : Expr) : (dotTrailer g e).Gives Q := by
  unfold dotTrailer
  refine gives_behind fun dot => gives_behind fun _ => gives_ite ?_ ?_
  · refine gives_behind fun a => ?_
    split
    · split
      · exact gives_ite (memberBehind_gives g hplain _ dot)
          (ofKind_gives hplain rfl)
      · exact gives_fail _
    · exact gives_fail _
  · exact memberBehind_gives g hplain e dot

theorem trailersFuel_gives
    (hcall : forall e : Operand, Q e -> forall args,
      Q (.ofKind (.call e.expr args)))
    (fuel : Nat) {e : Operand} (he : Q e) :
    (trailersFuel g fuel e).Gives Q := by
  induction fuel generalizing e with
  | zero => exact gives_fail _
  | succ fuel ih =>
      unfold trailersFuel
      refine gives_behind fun ts => ?_
      refine gives_ite (gives_behind fun args => ih (hcall e he args)) ?_
      refine gives_ite (gives_bind (dotTrailer_gives g hplain e.expr)
        fun _ h => ih h) ?_
      refine gives_ite (gives_behind fun _ => ih (hplain (.bare _) rfl)) ?_
      exact gives_ite (gives_behind fun _ => ih (hplain (.bare _) rfl))
        (gives_pure he)

theorem trailers_gives
    (hcall : forall e : Operand, Q e -> forall args,
      Q (.ofKind (.call e.expr args)))
    {e : Operand} (he : Q e) : (trailers g e).Gives Q :=
  gives_behind fun ts =>
    trailersFuel_gives g hplain hcall (ts.length + 1) he

end

/-!
## Operands know whether they are ranges
-/

/-- A reader of operands that know whether they are ranges. -/
abbrev GivesKnown (r : Reader Operand) : Prop :=
  r.Gives Operand.KnowsRange

theorem knowsRange_of_isOrdinary {e : Expr}
    (h : e.kind.isOrdinary = true) : (Operand.plain e).KnowsRange :=
  Expr.isRange_of_isOrdinary h

theorem toExprKind_isRange (p : PathSyntax) :
    (Expr.bare p.toExprKind).isRange = false := by
  unfold PathSyntax.toExprKind
  split <;> rfl

theorem atomExpr_givesKnown (hg : GivesNoRange g.conditional)
    (allowStruct : Bool) : GivesKnown (atomExpr g allowStruct) :=
  atomExpr_gives g (fun _ => knowsRange_of_isOrdinary) toExprKind_isRange
    (fun _ => ⟨rfl, rfl⟩)
    (gives_bind hg fun _ he => gives_pure he) allowStruct

theorem trailers_givesKnown {e : Operand} (he : e.KnowsRange) :
    GivesKnown (trailers g e) :=
  trailers_gives g (fun _ => knowsRange_of_isOrdinary)
    (fun _ _ _ => rfl) he

theorem knowsRange_withAttrs {e : Operand} (he : e.KnowsRange)
    {attrs : List Attr} (h : attrs = [] ∨ e.form ≠ .range) :
    ({ e with expr := e.expr.withAttrs attrs } : Operand).KnowsRange := by
  rcases e with ⟨⟨own, kind⟩, form⟩
  rcases h with h | h
  · rw [h]
    exact he
  · cases form with
    | plain => exact he
    | range => exact absurd rfl h
    | comparison => exact he

/-!
## Attributes in front of an operand
-/

/-- An operand with attributes in front of it, given how it is read without
them. -/
def behindAttrs (attrs : List Attr) (r : Reader Operand) : Reader Operand := do
  let e ← r
  require (attrs.isEmpty || e.form ≠ .range)
  return { e with expr := e.expr.withAttrs attrs }

theorem behindAttrs_some (attrs : List Attr) {r : Reader Operand}
    {ts rest : List TokenTree} {e : Operand} (h : r ts = some (e, rest)) :
    behindAttrs attrs r ts =
      if attrs.isEmpty || e.form ≠ .range then
        some ({ e with expr := e.expr.withAttrs attrs }, rest)
      else none := by
  rw [behindAttrs, bind_some h]
  split
  · next happly => exact require_bind happly _ rest
  · next hrefuse =>
      rw [require, if_neg hrefuse]
      rfl

theorem behindAttrs_none (attrs : List Attr) {r : Reader Operand}
    {ts : List TokenTree} (h : r ts = none) :
    behindAttrs attrs r ts = none :=
  bind_none h _

theorem behindAttrs_sign (attrs : List Attr) (r : Reader ExprKind)
    (ts : List TokenTree) :
    behindAttrs attrs (do return .plain (.mk [] (← r))) ts =
      (do return .plain (.mk attrs (← r)) : Reader Operand) ts := by
  cases hr : r ts with
  | none =>
      have hnone : forall own, (do return .plain (.mk own (← r)) :
          Reader Operand) ts = none := by
        intro own
        exact bind_none hr _
      rw [behindAttrs_none attrs (hnone []), hnone attrs]
  | some p =>
      have hsome : forall own, (do return .plain (.mk own (← r)) :
          Reader Operand) ts = some (.plain (.mk own p.1), p.2) :=
        fun own => bind_some hr _
      rw [behindAttrs_some attrs (hsome []), hsome attrs]
      simp [Operand.plain, Expr.withAttrs]

theorem behindAttrs_nil (r : Reader Operand) : behindAttrs [] r = r := by
  funext ts
  cases hr : r ts with
  | none => exact behindAttrs_none [] hr
  | some p =>
      rcases p with ⟨⟨⟨own, kind⟩, form⟩, rest⟩
      exact behindAttrs_some [] hr

theorem readUnary_behindAttrs (allowStruct : Bool) {attrs : List Attr}
    {ts front : List TokenTree} (hts : Next.isOp "#" ts = false)
    (hattrs : outerAttrs g front = some (attrs, ts)) :
    readUnary g allowStruct front =
      behindAttrs attrs (readUnary g allowStruct) ts := by
  have hnone : outerAttrs g ts = some ([], ts) := whileNext_of_not _ hts
  have hbehind : behindAttrs attrs (readUnary g allowStruct) ts =
      behindAttrs attrs (fun _ => readUnary g allowStruct ts) ts := rfl
  rw [hbehind, readUnary, bind_some hattrs, bind_some hnone,
    get_bind, get_bind]
  by_cases hand : Next.isOp "&" ts = true
  · simp only [if_pos hand]
    exact (behindAttrs_sign attrs _ ts).symm
  · by_cases hsign : Next.isOpIn ["*", "!", "-"] ts = true
    · simp only [if_neg hand, if_pos hsign]
      exact (behindAttrs_sign attrs _ ts).symm
    · simp only [if_neg hand, if_neg hsign]
      have hassoc : forall own, (do
          let e ← trailers g (← atomExpr g allowStruct)
          require (own.isEmpty || e.form ≠ .range)
          return { e with expr := e.expr.withAttrs own }) =
            behindAttrs own (atomExpr g allowStruct >>= trailers g) := by
        intro own
        exact (bind_assoc _ _ _).symm
      rw [hassoc, hassoc, behindAttrs_nil]
      rfl

/-!
## Operators behind an operand

What follows an operand is read without looking at more of it than its form.
-/

theorem tokens_bare (kind : ExprKind) :
    (Expr.bare kind).tokens = kind.tokens [] := by
  simp [Expr.bare, Expr.tokens, attrsTokens, parenIf]

/-- What is put behind an expression, and the form of the whole. -/
structure Addition where
  onto : Expr -> Expr
  form : OperandForm
  tokens : List Token
  tokens_onto : forall e, (onto e).tokens = e.tokens ++ tokens
  attrs_onto : forall e, (onto e).attrs = []

def Addition.operand (a : Addition) (e : Expr) : Operand :=
  ⟨a.onto e, a.form⟩

def Addition.binary (op : List Token) (right : Expr) (form : OperandForm) :
    Addition where
  onto left := .bare (.binary left op right)
  form := form
  tokens := op ++ right.tokens
  tokens_onto left := by
    simp [tokens_bare, ExprKind.tokens]
  attrs_onto _ := rfl

def Addition.data (behind : List Part) : Addition where
  onto left := .bare (.data (.expr left :: behind))
  form := .plain
  tokens := partsTokens behind
  tokens_onto left := by
    simp [tokens_bare, ExprKind.tokens, partsTokens, Part.tokens]
  attrs_onto _ := rfl

def Addition.range (behind : List Part) : Addition where
  onto left := .bare (.range (.expr left :: behind))
  form := .range
  tokens := partsTokens behind
  tokens_onto left := by
    simp [tokens_bare, ExprKind.tokens, partsTokens, Part.tokens]
  attrs_onto _ := rfl

def Addition.other (behind : List Part) : Addition where
  onto left := .bare (.other (.expr left :: behind))
  form := .plain
  tokens := partsTokens behind
  tokens_onto left := by
    simp [tokens_bare, ExprKind.tokens, partsTokens, Part.tokens]
  attrs_onto _ := rfl

def Addition.comp (a b : Addition) : Addition where
  onto e := b.onto (a.onto e)
  form := b.form
  tokens := a.tokens ++ b.tokens
  tokens_onto e := by
    rw [b.tokens_onto, a.tokens_onto, List.append_assoc]
  attrs_onto e := b.attrs_onto (a.onto e)

/-- Whether a reader that goes on behind an expression adds the same to all
expressions. -/
def AddsSame (step : Expr -> Reader (Option Operand)) : Prop :=
  forall e ts r rest, step e ts = some (r, rest) ->
    exists added : Option Addition, forall other,
      step other ts = some (added.map fun a => a.operand other, rest)

theorem addsSame_none : AddsSame fun _ => pure none := by
  intro e ts r rest h
  cases h
  exact ⟨none, fun _ => rfl⟩

theorem addsSame_addition (a : Addition) :
    AddsSame fun e => pure (some (a.operand e)) := by
  intro e ts r rest h
  cases h
  exact ⟨some a, fun _ => rfl⟩

theorem addsSame_bind {α : Type} (r : Reader α)
    {step : α -> Expr -> Reader (Option Operand)}
    (h : forall a, AddsSame (step a)) :
    AddsSame fun e => r >>= fun a => step a e := by
  intro e ts result rest he
  rcases exists_of_bind he with ⟨a, mid, ha, hstep⟩
  rcases h a e mid result rest hstep with ⟨added, hadded⟩
  exact ⟨added, fun other => (bind_some ha _).trans (hadded other)⟩

theorem addsSame_ite {condition : Expr -> Prop}
    [forall e, Decidable (condition e)]
    (hsame : forall e other, condition e -> condition other)
    {step more : Expr -> Reader (Option Operand)} (hstep : AddsSame step)
    (hmore : AddsSame more) :
    AddsSame fun e => if condition e then step e else more e := by
  intro e ts r rest he
  dsimp only at he ⊢
  by_cases h : condition e
  · rw [if_pos h] at he
    rcases hstep e ts r rest he with ⟨added, hadded⟩
    refine ⟨added, fun other => ?_⟩
    rw [if_pos (hsame e other h)]
    exact hadded other
  · rw [if_neg h] at he
    rcases hmore e ts r rest he with ⟨added, hadded⟩
    refine ⟨added, fun other => ?_⟩
    rw [if_neg fun hother => h (hsame other e hother)]
    exact hadded other

theorem climbStep_addsSame (allowStruct : Bool) (form : OperandForm)
    (base : Nat) :
    AddsSame fun e => climbStep g allowStruct ⟨e, form⟩ base := by
  unfold climbStep
  refine addsSame_bind _ fun ts =>
    addsSame_ite (fun _ _ h => h) addsSame_none ?_
  cases nextOperator ts with
  | some o =>
      refine addsSame_ite (fun _ _ h => h) addsSame_none
        (addsSame_bind
          (require !(o.2 = comparePrec && form = .comparison)) fun _ =>
            addsSame_bind _ fun op => addsSame_bind _ fun right => ?_)
      exact addsSame_addition (.binary op right
        (if o.2 = comparePrec then .comparison else .plain))
  | none =>
      refine addsSame_ite (fun _ _ h => h) ?_
        (addsSame_ite (fun _ _ h => h) ?_
          (addsSame_ite (fun _ _ h => h) ?_ addsSame_none))
      · exact addsSame_bind _ fun eq => addsSame_bind _ fun right =>
          addsSame_addition (.data (eq ++ [Part.expr right]))
      · exact addsSame_bind _ fun behind =>
          addsSame_addition (.range behind)
      · exact addsSame_bind _ fun as_ => addsSame_bind _ fun ty =>
          addsSame_bind _ fun _ => addsSame_bind _ fun _ =>
            addsSame_addition (.other (as_ ++ ty))

/-- Operators behind an operand either are not there or add the same to all
operands of one form. -/
theorem climbFuel_addsSame (allowStruct : Bool) (base : Nat) (fuel : Nat)
    {left result : Operand} {ts rest : List TokenTree}
    (h : climbFuel g allowStruct base fuel left ts = some (result, rest)) :
    exists added : Option Addition, forall other,
      climbFuel g allowStruct base fuel ⟨other, left.form⟩ ts =
        some ((added.map fun a => a.operand other).getD ⟨other, left.form⟩,
          rest) := by
  induction fuel generalizing left ts with
  | zero => cases h
  | succ fuel ih =>
      unfold climbFuel at h ⊢
      rcases exists_of_bind h with ⟨step, mid, hstep, hmore⟩
      rcases climbStep_addsSame g allowStruct left.form base left.expr ts step
        mid hstep with ⟨added, hadded⟩
      have hsame := (hadded left.expr).symm.trans hstep
      cases added with
      | none =>
          cases hsame
          cases hmore
          exact ⟨none, fun other => bind_some (hadded other) _⟩
      | some a =>
          cases hsame
          rcases ih hmore with ⟨more, hall⟩
          refine ⟨some ((more.map a.comp).getD a), fun other => ?_⟩
          rw [bind_some (hadded other)]
          refine (hall (a.onto other)).trans ?_
          cases more <;> rfl

theorem readClimb_addsSame (allowStruct : Bool) {base : Nat}
    {left result : Operand} {ts rest : List TokenTree}
    (h : readClimb g allowStruct left base ts = some (result, rest)) :
    exists added : Option Addition, forall other,
      readClimb g allowStruct ⟨other, left.form⟩ base ts =
        some ((added.map fun a => a.operand other).getD ⟨other, left.form⟩,
          rest) :=
  climbFuel_addsSame g allowStruct base _ h

theorem referenceExpr_gives (allowStruct : Bool) :
    (referenceExpr g allowStruct).Gives fun k => k.isOrdinary = true := by
  unfold referenceExpr
  refine gives_behind fun _ => gives_behind fun _ => gives_ite ?_ ?_
  · refine gives_behind fun _ => gives_behind fun _ => gives_ite ?_ ?_
    · exact gives_behind fun _ => gives_behind fun _ => gives_pure rfl
    · exact gives_behind fun _ => gives_behind fun _ => gives_pure rfl
  · exact gives_behind fun _ => gives_behind fun _ => gives_pure rfl

theorem signExpr_gives (allowStruct : Bool) :
    (signExpr g allowStruct).Gives fun k => k.isOrdinary = true := by
  have hoperand : forall sign : List Part, Reader.Gives (do
      return ExprKind.data (sign ++ [.expr (← g.unary allowStruct).expr]))
        fun k => k.isOrdinary = true :=
    fun _ => gives_behind fun _ => gives_pure rfl
  unfold signExpr
  refine gives_behind fun _ => gives_behind fun _ =>
    gives_ite (gives_behind hoperand) (gives_ite ?_ ?_)
  · exact gives_behind hoperand
  · exact gives_behind hoperand

theorem readUnary_givesKnown (hg : GivesNoRange g.conditional)
    (allowStruct : Bool) : GivesKnown (readUnary g allowStruct) := by
  unfold readUnary
  refine gives_behind fun attrs => gives_behind fun ts => ?_
  have hsign : forall k : ExprKind, k.isOrdinary = true ->
      GivesKnown (pure (.plain (.mk attrs k))) := fun k hk =>
    gives_pure (knowsRange_of_isOrdinary hk)
  refine gives_ite (gives_bind (referenceExpr_gives g allowStruct) hsign) ?_
  refine gives_ite (gives_bind (signExpr_gives g allowStruct) hsign) ?_
  refine gives_bind (atomExpr_givesKnown g hg allowStruct) fun a ha => ?_
  refine gives_bind (trailers_givesKnown g ha) fun e he => ?_
  refine gives_bind gives_require fun _ happly => gives_pure ?_
  apply knowsRange_withAttrs he
  simpa using happly

/-!
## Attributes in front of an expression

The attributes go to the first operand, so the tree is another one than with
attributes in front of the whole; but its tokens are the same, unless the whole
is a range.
-/

theorem attrsTokens_append (within : Bool) (attrs more : List Attr) :
    attrsTokens within (attrs ++ more) =
      attrsTokens within attrs ++ attrsTokens within more := by
  induction attrs with
  | nil => rfl
  | cons a rest ih =>
      rcases a with ⟨inner, path, args⟩
      rw [List.cons_append, attrsTokens, attrsTokens, ih, List.append_assoc]

theorem tokens_withAttrs {attrs : List Attr} (h : attrsTokens true attrs = [])
    {e : Expr} (he : attrs = [] ∨ e.isRange = false) :
    (e.withAttrs attrs).tokens = attrsTokens false attrs ++ e.tokens := by
  rcases e with ⟨own, kind⟩
  rcases he with rfl | hrange
  · rfl
  · have hkind : kind.isRange = false := hrange
    simp [Expr.withAttrs, Expr.tokens, attrsTokens_append, h, hkind]

theorem tokens_withAttrs_of_isRange {attrs : List Attr} {e : Expr}
    (h : attrsTokens true attrs = []) (hattrs : attrs ≠ [])
    (he : e.isRange = true) (hown : e.attrs = []) :
    (e.withAttrs attrs).tokens =
      attrsTokens false attrs ++ Token.group .paren e.tokens := by
  rcases e with ⟨own, kind⟩
  have hnil : own = [] := hown
  have hkind : kind.isRange = true := he
  simp [Expr.withAttrs, Expr.tokens, hnil, hkind, h, hattrs, attrsTokens,
    parenIf]

theorem grouped_withAttrs {attrs : List Attr} {e : Expr} (hattrs : attrs ≠ [])
    (he : e.isRange = true) (hown : e.attrs = []) :
    (e.withAttrs attrs).grouped = .mk attrs (.paren e) := by
  rcases e with ⟨own, kind⟩
  have hnil : own = [] := hown
  have hkind : kind.isRange = true := he
  simp [Expr.withAttrs, Expr.grouped, Expr.bare, hnil, hkind, hattrs]

theorem isRange_of_knowsRange {e : Operand} (h : e.KnowsRange) :
    e.expr.isRange = true ↔ e.form = .range := by
  rcases e with ⟨e, form⟩
  cases form with
  | range => exact ⟨fun _ => rfl, fun _ => h.2⟩
  | plain =>
      have hno : e.isRange = false := h
      simp [hno]
  | comparison =>
      have hno : e.isRange = false := h
      simp [hno]

theorem readClimb_range (allowStruct : Bool) {left : Operand}
    (h : left.form = .range) (base : Nat) (ts : List TokenTree) :
    readClimb g allowStruct left base ts = some (left, ts) := by
  have hstep : climbStep g allowStruct left base ts = some (none, ts) := by
    rw [climbStep, get_bind, if_pos h]
    rfl
  rw [readClimb, get_bind, climbFuel, bind_some hstep]
  rfl

/-- How an expression has been read: an operand, and perhaps more behind it,
which a range does not have. -/
theorem exists_operand_of_expr (hg : GivesNoRange g.conditional)
    {allowStruct : Bool} {ts rest : List TokenTree} {e : Expr}
    (he : (above g).expr allowStruct ts = some (e, rest)) :
    exists (first : Operand) (mid : List TokenTree)
        (added : Option Addition),
      readUnary g allowStruct ts = some (first, mid) ∧
        first.KnowsRange ∧
        (first.form = .range -> e.isRange = true) ∧
        e = (added.map fun a => a.onto first.expr).getD first.expr ∧
        forall other, readClimb g allowStruct ⟨other, first.form⟩ 0 mid =
          some ((added.map fun a => a.operand other).getD
            ⟨other, first.form⟩, rest) := by
  rcases exists_of_bind he with ⟨first, mid, hfirst, he⟩
  rcases exists_of_bind he with ⟨last, _, hlast, he⟩
  cases he
  have hknows := readUnary_givesKnown g hg allowStruct ts first mid hfirst
  have hrange : first.form = .range -> last.expr.isRange = true := by
    intro hform
    cases (readClimb_range g allowStruct hform 0 mid).symm.trans hlast
    exact (isRange_of_knowsRange hknows).mpr hform
  rcases readClimb_addsSame g allowStruct hlast with ⟨added, hadded⟩
  have hsame := (hadded first.expr).symm.trans hlast
  cases added with
  | none =>
      cases hsame
      exact ⟨first, mid, none, hfirst, hknows, hrange, rfl, hadded⟩
  | some a =>
      cases hsame
      exact ⟨first, mid, some a, hfirst, hknows, hrange, rfl, hadded⟩

theorem attrs_of_isRange (hg : GivesNoRange g.conditional)
    {allowStruct : Bool} {ts rest : List TokenTree} {e : Expr}
    (he : (above g).expr allowStruct ts = some (e, rest))
    (h : e.isRange = true) : e.attrs = [] := by
  rcases exists_operand_of_expr g hg he with
    ⟨first, mid, added, hfirst, hknows, hform, hwhole, hmore⟩
  cases added with
  | none =>
      have hfirst : e = first.expr := hwhole
      rw [hfirst] at h ⊢
      rw [Operand.KnowsRange, (isRange_of_knowsRange hknows).mp h] at hknows
      exact hknows.1
  | some a =>
      rw [hwhole]
      exact a.attrs_onto first.expr

section

variable {allowStruct : Bool} {attrs : List Attr}
    {front ts rest : List TokenTree} {e : Expr}

/-- Behind attributes an expression is read with the same tokens, unless it is
a range. -/
theorem expr_behindAttrs (hg : GivesNoRange g.conditional)
    (hattrs : outerAttrs g front = some (attrs, ts))
    (houter : attrsTokens true attrs = [])
    (hts : Next.isOp "#" ts = false)
    (he : (above g).expr allowStruct ts = some (e, rest))
    (h : attrs = [] ∨ e.isRange = false) :
    exists e', (above g).expr allowStruct front = some (e', rest) ∧
      e'.tokens = (e.withAttrs attrs).tokens := by
  rcases exists_operand_of_expr g hg he with
    ⟨first, mid, added, hfirst, hknows, hform, hwhole, hmore⟩
  have hplain : attrs = [] ∨ first.form ≠ .range := by
    refine h.imp_right fun hno hrange => ?_
    exact absurd ((hform hrange).symm.trans hno) (by simp)
  have hunary : readUnary g allowStruct front =
      some (⟨first.expr.withAttrs attrs, first.form⟩, mid) := by
    rw [readUnary_behindAttrs g allowStruct hts hattrs,
      behindAttrs_some attrs hfirst, if_pos (by simpa using hplain)]
  refine ⟨(added.map fun a => a.onto (first.expr.withAttrs attrs)).getD
    (first.expr.withAttrs attrs), ?_, ?_⟩
  · rw [expr]
    refine (bind_some hunary _).trans ?_
    refine (bind_some (hmore (first.expr.withAttrs attrs)) _).trans ?_
    cases added <;> rfl
  · have hfront : (first.expr.withAttrs attrs).tokens =
        attrsTokens false attrs ++ first.expr.tokens := by
      refine tokens_withAttrs houter (hplain.imp_right fun hform => ?_)
      rw [← Bool.not_eq_true, isRange_of_knowsRange hknows]
      exact hform
    rw [tokens_withAttrs houter h, hwhole]
    cases added with
    | none => exact hfront
    | some a =>
        change (a.onto _).tokens = _ ++ (a.onto _).tokens
        rw [a.tokens_onto, a.tokens_onto, hfront, List.append_assoc]

end

end Grammar

end ScopeExit
