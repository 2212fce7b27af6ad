import ScopeExit.Syntax.Basic

/-!
# Writing syntax trees

`tokens` gives the tokens of a tree in the order of the source.  Outer
attributes stand in front of what they belong to and inner ones behind its
opening brace, if it has one; a trailing `where` clause stands behind the body.
-/

namespace ScopeExit

def labelTokens : Option String -> List Token
  | some name => [.atom (.lifetime name), .punct ':']
  | none => []

def targetTokens : Option String -> List Token
  | some name => [.atom (.lifetime name)]
  | none => []

def wordIf (present : Bool) (word : String) : List Token :=
  if present then [.word word] else []

namespace BlockStyle

def tokens : BlockStyle -> List Token
  | plain label => labelTokens label
  | unsafeBlock => [.word "unsafe"]
  | constBlock => [.word "const"]
  | tryBlock => [.word "try"]
  | asyncBlock moves => .word "async" :: wordIf moves "move"

end BlockStyle

namespace ClosureMarks

def tokens (m : ClosureMarks) : List Token :=
  wordIf m.isConst "const" ++ wordIf m.isStatic "static" ++
    wordIf m.isAsync "async" ++ wordIf m.moves "move"

end ClosureMarks

namespace Invocation

def tokens (m : Invocation) : List Token :=
  m.path.tokens ++ .punct '!' :: Token.group m.delimiter m.body

end Invocation

/-- The tokens of a comma or semicolon that may be left out. -/
def punctIf (present : Bool) (c : Char) : List Token :=
  if present then [.punct c] else []

/-- Whether a shape has a brace behind which inner attributes stand. -/
def ExprKind.isBraced : ExprKind -> Bool
  | .block _ _ => true
  | .whileLoop _ _ _ => true
  | .forLoop _ _ _ _ => true
  | .loop _ _ => true
  | .matchOn _ _ => true
  | _ => false

def ExprKind.isRange : ExprKind -> Bool
  | .range _ => true
  | _ => false

def parenIf (present : Bool) (ts : List Token) : List Token :=
  if present then Token.group .paren ts else ts

/-- Whether an item has a brace behind which inner attributes stand. -/
def ItemKind.isBraced : ItemKind -> Bool
  | .function _ _ _ _ _ _ => true
  | .implementation _ _ => true
  | .traitDef _ _ _ _ => true
  | .module _ _ _ => true
  | _ => false

mutual

def Attr.tokens : Attr -> List Token
  | .mk inner path args =>
      .punct '#' :: (punctIf inner '!' ++
        Token.group .bracket (path.tokens ++ partsTokens args))

/-- The tokens of the attributes that stand inside the braces, or of those that
stand outside. -/
def attrsTokens (within : Bool) : List Attr -> List Token
  | [] => []
  | .mk inner path args :: rest =>
      (if inner = within then (Attr.mk inner path args).tokens else []) ++
        attrsTokens within rest

def Part.tokens : Part -> List Token
  | .token t => [t]
  | .attr a => a.tokens
  | .expr e => e.tokens
  | .pat p => p.tokens
  | .clauseLast body clause => partsTokens body ++ partsTokens clause

def partsTokens : List Part -> List Token
  | [] => []
  | p :: rest => p.tokens ++ partsTokens rest

def Segment.tokens : Segment -> List Token
  | .mk name args => .ident name :: partsTokens args

/-- Segments, each behind a separator; the first one only if `led`. -/
def segmentsTokens (led : Bool) : List Segment -> List Token
  | [] => []
  | s :: rest =>
      (if led then pathSeparator else []) ++ s.tokens ++
        segmentsTokens true rest

def Path.tokens : Path -> List Token
  | .mk absolute segments => segmentsTokens absolute segments

/-- The tokens of an expression.  A range with attributes stands in parentheses,
as they would belong to its lower end otherwise. -/
def Expr.tokens : Expr -> List Token
  | .mk attrs kind =>
      attrsTokens false attrs ++
        (if kind.isBraced then [] else attrsTokens true attrs) ++
        parenIf (kind.isRange && !attrs.isEmpty)
          (kind.tokens (attrsTokens true attrs))

/-- The tokens of a shape; `inner` are those of the attributes behind its
opening brace. -/
def ExprKind.tokens (inner : List Token) : ExprKind -> List Token
  | .path p => p.tokens
  | .qualified parts => partsTokens parts
  | .call callee args => callee.tokens ++ Token.group .paren (partsTokens args)
  | .closure binder marks inputs output body =>
      partsTokens binder ++ marks.tokens ++
        .punct '|' :: (partsTokens inputs ++
          .punct '|' :: (partsTokens output ++ body.tokens))
  | .paren e => Token.group .paren e.tokens
  | .block style body =>
      style.tokens ++ Token.group .brace (inner ++ stmtsTokens body)
  | .ifThen cond body =>
      .word "if" :: (cond.tokens ++ Token.group .brace (stmtsTokens body))
  | .ifElse cond body orElse =>
      .word "if" :: (cond.tokens ++ Token.group .brace (stmtsTokens body) ++
        .word "else" :: orElse.tokens)
  | .whileLoop label cond body =>
      labelTokens label ++ .word "while" :: (cond.tokens ++
        Token.group .brace (inner ++ stmtsTokens body))
  | .forLoop label pat source body =>
      labelTokens label ++ .word "for" :: (pat.tokens ++
        .word "in" :: (source.tokens ++
          Token.group .brace (inner ++ stmtsTokens body)))
  | .loop label body =>
      labelTokens label ++ .word "loop" ::
        Token.group .brace (inner ++ stmtsTokens body)
  | .matchOn scrutinee arms =>
      .word "match" :: (scrutinee.tokens ++
        Token.group .brace (inner ++ armsTokens arms))
  | .letCond pat scrutinee =>
      .word "let" :: (pat.tokens ++ .punct '=' :: scrutinee.tokens)
  | .binary left op right => left.tokens ++ op ++ right.tokens
  | .invocation m => m.tokens
  | .ret value => .word "return" :: partsTokens value
  | .breakTo label value =>
      .word "break" :: (targetTokens label ++ partsTokens value)
  | .continueTo label => .word "continue" :: targetTokens label
  | .range parts => partsTokens parts
  | .data parts => partsTokens parts
  | .other parts => partsTokens parts

def Pat.tokens : Pat -> List Token
  | .binder before name sub => before ++ .ident name :: partsTokens sub
  | .compound parts => partsTokens parts

def Arm.tokens : Arm -> List Token
  | .mk attrs pat guard body comma =>
      attrsTokens false attrs ++ attrsTokens true attrs ++ pat.tokens ++
        partsTokens guard ++ Token.operator "=>" ++ body.tokens ++
          punctIf comma ','

def armsTokens : List Arm -> List Token
  | [] => []
  | a :: rest => a.tokens ++ armsTokens rest

def Stmt.tokens : Stmt -> List Token
  | .binding attrs pat init =>
      attrsTokens false attrs ++ attrsTokens true attrs ++
        .word "let" :: (pat.tokens ++ partsTokens init ++ [.punct ';'])
  | .item i => i.tokens
  | .expr _ e semi => e.tokens ++ punctIf semi ';'
  | .invocation attrs m semi =>
      attrsTokens false attrs ++ attrsTokens true attrs ++ m.tokens ++
        punctIf semi ';'

def stmtsTokens : List Stmt -> List Token
  | [] => []
  | s :: rest => s.tokens ++ stmtsTokens rest

def Item.tokens : Item -> List Token
  | .mk attrs kind =>
      attrsTokens false attrs ++
        (if kind.isBraced then [] else attrsTokens true attrs) ++
        kind.tokens (attrsTokens true attrs)

/-- The tokens of an item behind its outer attributes; `inner` are those of the
attributes behind its opening brace. -/
def ItemKind.tokens (inner : List Token) : ItemKind -> List Token
  | .function before isConst qualifiers name signature body =>
      before ++ wordIf isConst "const" ++ qualifiers ++
        .word "fn" :: .ident name :: (partsTokens signature ++
          Token.group .brace (inner ++ stmtsTokens body))
  | .constant before name after =>
      before ++ .ident name :: partsTokens after
  | .implementation header members =>
      partsTokens header ++ Token.group .brace (inner ++ itemsTokens members)
  | .traitDef before name header members =>
      before ++ .ident name :: (partsTokens header ++
        Token.group .brace (inner ++ itemsTokens members))
  | .module before name items =>
      before ++ .ident name ::
        Token.group .brace (inner ++ itemsTokens items)
  | .moduleFile before name => before ++ [.ident name, .punct ';']
  | .imports before absolute tree =>
      before ++ (if absolute then pathSeparator else []) ++ tree.tokens ++
        [.punct ';']
  | .externCrate before name newName =>
      before ++ .ident name ::
        ((match newName with
          | some alias_ => [.word "as", .ident alias_]
          | none => []) ++ [.punct ';'])
  | .definition before name after =>
      before ++ .ident name :: partsTokens after
  | .other parts => partsTokens parts

def itemsTokens : List Item -> List Token
  | [] => []
  | i :: rest => i.tokens ++ itemsTokens rest

end

def blockTokens (body : List Stmt) : List Token :=
  Token.group .brace (stmtsTokens body)

@[simp] theorem partsTokens_append (a b : List Part) :
    partsTokens (a ++ b) = partsTokens a ++ partsTokens b := by
  induction a with
  | nil => simp [partsTokens]
  | cons p rest ih => simp [partsTokens, ih]

@[simp] theorem stmtsTokens_append (a b : List Stmt) :
    stmtsTokens (a ++ b) = stmtsTokens a ++ stmtsTokens b := by
  induction a with
  | nil => simp [stmtsTokens]
  | cons s rest ih => simp [stmtsTokens, ih]

@[simp] theorem partsTokens_ofTokens (ts : List Token) :
    partsTokens (Part.ofTokens ts) = ts := by
  induction ts with
  | nil => rfl
  | cons t rest ih =>
      have h := ih
      simp [Part.ofTokens] at h
      simp [Part.ofTokens, partsTokens, Part.tokens, h]

end ScopeExit
