import ScopeExit.Grammar.Type
import ScopeExit.Grammar.Pattern

/-!
# Expressions

Operands with what may follow them (calls, fields, indices), and operators by
precedence.  In the head of a condition or loop no structure literal is read,
since a brace begins the body there.
-/

namespace ScopeExit
namespace Grammar

open Reader

/-!
## What begins and ends an expression
-/

/-- Whether an expression may begin here; what is not one of these ends a
`return`, `break` or `yield`. -/
def canBegin (ts : List TokenTree) : Bool :=
  (Next.isAnyIdent ts && !Next.isWord "as" ts) || Next.isAnyGroup ts ||
    Next.isLiteral ts || Next.isBang ts ||
    (Next.isOp "-" ts && !Next.isOpIn ["-=", "->"] ts) ||
    (Next.isOp "*" ts && !Next.isOp "*=" ts) ||
    (Next.isOp "|" ts && !Next.isOp "|=" ts) ||
    (Next.isOp "&" ts && !Next.isOp "&=" ts) ||
    Next.isOp ".." ts ||
    (Next.isOp "<" ts && !Next.isOpIn ["<=", "<<="] ts) ||
    Next.isOp "::" ts || Next.isLifetime ts || Next.isOp "#" ts

/-- The value of a jump, if one follows.  Structure literals may stand in it
even where they may not stand around it. -/
def jumpValue (g : Grammar) (allowed : Bool) : Reader (List Part) := do
  if allowed && (← next canBegin) then g.exprPart else return []

/-!
## Blocks, conditions and loops
-/

def readConditional (g : Grammar) : Reader Expr := do
  let _ ← word "if"
  let cond ← g.expr false
  let body ← block g
  if ← next (Next.isWord "else") then
    let _ ← word "else"
    if ← next (Next.isWord "if") then
      return .bare (.ifElse cond body (← g.conditional))
    else
      let orElse ← block g
      return .bare (.ifElse cond body (.bare (.block (.plain none) orElse)))
  else return .bare (.ifThen cond body)

def whileExpr (g : Grammar) (label : Option String) : Reader Expr := do
  let _ ← word "while"
  let cond ← g.expr false
  let (attrs, body) ← blockWithAttrs g
  return .mk attrs (.whileLoop label cond body)

def forExpr (g : Grammar) (label : Option String) : Reader Expr := do
  let _ ← word "for"
  let pat ← alternatives g
  let _ ← word "in"
  let source ← g.expr false
  let (attrs, body) ← blockWithAttrs g
  return .mk attrs (.forLoop label pat.pat source body)

def loopExpr (g : Grammar) (label : Option String) : Reader Expr := do
  let _ ← word "loop"
  let (attrs, body) ← blockWithAttrs g
  return .mk attrs (.loop label body)

/-- Whether an expression has the shape of a block, so that it ends a statement
or an arm without punctuation. -/
def isBlockLike (e : Expr) : Bool :=
  match e.kind with
  | .block (.asyncBlock _) _ => false
  | .block _ _ => true
  | .ifThen .. => true
  | .ifElse .. => true
  | .whileLoop .. => true
  | .forLoop .. => true
  | .loop .. => true
  | .matchOn .. => true
  | _ => false

def unsafeExpr (g : Grammar) : Reader Expr := do
  let _ ← word "unsafe"
  let (attrs, body) ← blockWithAttrs g
  return .mk attrs (.block .unsafeBlock body)

def tryExpr (g : Grammar) : Reader Expr := do
  let _ ← word "try"
  return .bare (.block .tryBlock (← block g))

def asyncExpr (g : Grammar) : Reader Expr := do
  let _ ← word "async"
  let moves ← optionalWord "move"
  return .bare (.block (.asyncBlock !moves.isEmpty) (← block g))

def labeledExpr (g : Grammar) : Reader Expr := do
  let label ← lifetime
  let _ ← op ":"
  let ts ← get
  if Next.isWord "while" ts then whileExpr g (some label)
  else if Next.isWord "for" ts then forExpr g (some label)
  else if Next.isWord "loop" ts then loopExpr g (some label)
  else blockExpr g (some label)

def isForLifetimes (ts : List TokenTree) : Bool :=
  Next.isWord "for" ts && isGenerics (ts.drop 1)

/-- Whether a dot or question mark follows, so that a block goes on as an
operand. -/
def isTrailer (ts : List TokenTree) : Bool :=
  Next.isDot ts || Next.isOp "?" ts

/-!
## Operators
-/

/-- Operators with their precedence: a higher number binds more tightly.
Longer operators stand before those that they begin with. -/
def binaryOperators : List (String × Nat) :=
  [("+=", 1), ("-=", 1), ("*=", 1), ("/=", 1), ("%=", 1), ("^=", 1),
    ("&=", 1), ("|=", 1), ("<<=", 1), (">>=", 1), ("&&", 4), ("||", 3),
    ("<<", 10), (">>", 10), ("==", 6), ("<=", 6), ("!=", 6), (">=", 6),
    ("+", 11), ("-", 11), ("*", 12), ("/", 12), ("%", 12), ("^", 8),
    ("&", 9), ("|", 7), ("<", 6), (">", 6)]

def assignPrec : Nat := 1

def rangePrec : Nat := 2

def comparePrec : Nat := 6

def castPrec : Nat := 13

def nextOperator (ts : List TokenTree) : Option (String × Nat) :=
  binaryOperators.find? fun o => Next.isOp o.1 ts

/-- An assignment comes next, and not the arrow of an arm. -/
def isAssign (ts : List TokenTree) : Bool :=
  Next.isOp "=" ts && !Next.isOp "=>" ts

def nextPrecedence (ts : List TokenTree) : Nat :=
  match nextOperator ts with
  | some (_, p) => p
  | none =>
      if isAssign ts then assignPrec
      else if Next.isOp ".." ts then rangePrec
      else if Next.isWord "as" ts then castPrec
      else 0

/-- Whatever binds more tightly than the operator in front of the operand.  An
operand may refuse an operator that would bind tightly enough, and then this
ends. -/
def rightFuel (g : Grammar) (allowStruct : Bool) (prec : Nat) :
    Nat -> Operand -> Reader Operand
  | 0, _ => fail
  | fuel + 1, e => do
      let ts ← get
      let next := nextPrecedence ts
      if prec < next || (next = prec && prec = assignPrec) then
        let e ← g.climb allowStruct e next
        if (← get).length = ts.length then return e
        else rightFuel g allowStruct prec fuel e
      else return e

def rightOperand (g : Grammar) (allowStruct : Bool) (prec : Nat) :
    Reader Expr := do
  let first ← g.unary allowStruct
  let fuel := (← get).length + 1
  return (← rightFuel g allowStruct prec fuel first).expr

def isRangeEnd (allowStruct : Bool) (ts : List TokenTree) : Bool :=
  ts.isEmpty || Next.isDot ts ||
    Next.isOpIn [",", ";", "?", "=>", "=", "+", "/", "%", "^", ">", "<=",
      "!=", "-=", "*=", "&=", "|=", "<<="] ts ||
    (!allowStruct && Next.isGroup .brace ts) || Next.isWord "as" ts

def rangeBehind (g : Grammar) (allowStruct : Bool) : Reader (List Part) := do
  let ts ← get
  if Next.isOp "..=" ts then
    let dots ← parts (op "..=")
    return dots ++ [.expr (← rightOperand g allowStruct rangePrec)]
  else
    require !(Next.isOp "..." ts)
    let dots ← parts (op "..")
    if ← next (isRangeEnd allowStruct) then return dots
    else return dots ++ [.expr (← rightOperand g allowStruct rangePrec)]

/-- Whether what follows a cast could only belong to its operand. -/
def isBehindCast (ts : List TokenTree) : Bool :=
  Next.isDot ts || Next.isOp "?" ts || Next.isGroup .bracket ts ||
    Next.isGroup .paren ts

/-- One operator behind an operand, or nothing where no operator that binds
tightly enough follows.  Comparisons do not chain, and a range is no operand
of a further operator. -/
def climbStep (g : Grammar) (allowStruct : Bool) (left : Operand)
    (base : Nat) : Reader (Option Operand) := do
  let ts ← get
  if left.form = .range then return none
  match nextOperator ts with
  | some (o, prec) =>
      if prec < base then return none
      require !(prec = comparePrec && left.form = .comparison)
      let tokens ← op o
      let right ← rightOperand g allowStruct prec
      let e := Expr.bare (.binary left.expr tokens right)
      return some
        ⟨e, if prec = comparePrec then .comparison else .plain⟩
  | none =>
      if base <= assignPrec && isAssign ts then
        let eq ← parts (op "=")
        let right ← rightOperand g allowStruct assignPrec
        return some (.ofKind
          (.data (.expr left.expr :: eq ++ [.expr right])))
      else if base <= rangePrec && Next.isOp ".." ts then
        let behind ← rangeBehind g allowStruct
        return some ⟨.bare (.range (.expr left.expr :: behind)), .range⟩
      else if base <= castPrec && Next.isWord "as" ts then
        let as_ ← parts (word "as")
        let ty ← g.typeParts false
        require !(← next isBehindCast)
        return some (.ofKind (.other (.expr left.expr :: as_ ++ ty)))
      else return none

def climbFuel (g : Grammar) (allowStruct : Bool) (base : Nat) :
    Nat -> Operand -> Reader Operand
  | 0, _ => fail
  | fuel + 1, left => do
      match ← climbStep g allowStruct left base with
      | some e => climbFuel g allowStruct base fuel e
      | none => return left

/-- The operators behind an operand that bind at least as tightly as
`base`. -/
def readClimb (g : Grammar) (allowStruct : Bool) (left : Operand)
    (base : Nat) : Reader Operand := do
  climbFuel g allowStruct base ((← get).length + 1) left

/-!
## Operands
-/

/-- A parameter of a closure.  A boxed pattern without a type does not keep its
attributes. -/
def closureParam (g : Grammar) : Reader (List Part) := do
  let attrs ← attrParts g
  let boxed ← next (Next.isWord "box")
  let p ← g.pattern
  if ← next (Next.isOp ":") then
    let colon ← parts (op ":")
    let ty ← g.typeParts true
    return attrs ++ [.pat (.compound (.pat p.pat :: colon ++ ty))]
  else return (if boxed then [] else attrs) ++ [.pat p.pat]

def closureExpr (g : Grammar) (allowStruct : Bool) : Reader Expr := do
  let binder ← when (Next.isWord "for") (boundLifetimes g)
  let const_ ← optionalWord "const"
  let static_ ← optionalWord "static"
  let async_ ← optionalWord "async"
  let move_ ← optionalWord "move"
  let marks : ClosureMarks :=
    ⟨!const_.isEmpty, !static_.isEmpty, !async_.isEmpty, !move_.isEmpty⟩
  let _ ← op "|"
  let inputs ← sepUntil (Next.isOp "|") "," (closureParam g)
  let _ ← op "|"
  if ← next (Next.isOp "->") then
    let output ← returnType g true
    let body ← block g
    return .bare (.closure binder marks inputs output
      (.bare (.block (.plain none) body)))
  else
    return .bare (.closure binder marks inputs [] (← g.expr allowStruct))

def fieldValue (g : Grammar) : Reader (List Part) := do
  let attrs ← attrParts g
  let (name, named) ← member
  if !named || (← next (Next.isOp ":")) then
    let colon ← parts (op ":")
    return attrs ++ .token name :: colon ++ (← g.exprPart)
  else return attrs ++ [.token name]

/-- The fields of a structure literal, the last of which may be a base behind
two dots. -/
def fieldValues (g : Grammar) : Reader (List Part) :=
  commaList do
    if ← next (Next.isOp "..") then
      let dots ← parts (op "..")
      if ← next List.isEmpty then return dots
      let base ← g.exprPart
      require (← next List.isEmpty)
      return dots ++ base
    else fieldValue g

def pathExpr (g : Grammar) (allowStruct : Bool) : Reader Operand := do
  let p ← path g false
  let ts ← get
  match p.toSimple? with
  | some simple =>
      if Next.isBang ts then
        return .ofKind (.invocation (← invocationBehind simple))
  | none => pure ()
  if allowStruct && Next.isGroup .brace ts then
    return .ofKind
      (.data (p.parts ++ (← groupParts .brace (fieldValues g))))
  else return .ofKind p.toExprKind

def parenExpr (g : Grammar) : Reader Operand := do
  let wrap (inner : List Part) : ExprKind :=
    .data (.token (.opening .paren) :: inner ++ [.token (.closing .paren)])
  inside .paren do
    if ← next List.isEmpty then return .ofKind (wrap [])
    let first ← g.expr true
    if ← next List.isEmpty then return .ofKind (.paren first)
    let comma ← parts (op ",")
    let more ← commaList g.exprPart
    return .ofKind (wrap (.expr first :: comma ++ more))

def arrayExpr (g : Grammar) : Reader Operand := do
  let inner ← groupParts .bracket do
    if ← next List.isEmpty then return []
    let first ← g.exprPart
    if ← next (Next.isOp ";") then
      let semi ← parts (op ";")
      return first ++ semi ++ (← g.exprPart)
    else if ← next List.isEmpty then return first
    else
      let comma ← parts (op ",")
      return first ++ comma ++ (← commaList g.exprPart)
  return .ofKind (.data inner)

/-- The jump out of a loop.  A label with a colon would begin a loop, which
needs parentheses here. -/
def breakExpr (g : Grammar) (allowStruct : Bool) : Reader Operand := do
  let _ ← word "break"
  let label ← optionalLifetime
  let ts ← get
  require !(label.isSome && Next.isOp ":" ts)
  let allowed := allowStruct || !Next.isGroup .brace ts
  return .ofKind (.breakTo label (← jumpValue g allowed))

/-- A `let` in a condition.  What it is matched with ends at an operator that
binds less tightly than a comparison. -/
def letExpr (g : Grammar) (allowStruct : Bool) : Reader Operand := do
  let _ ← word "let"
  let pat ← alternatives g
  let _ ← op "="
  let first ← g.unary allowStruct
  let scrutinee ← g.climb allowStruct first comparePrec
  return .ofKind (.letCond pat.pat scrutinee.expr)

/-- An arm of a `match`.  A comma is needed behind a body that is not shaped
like a block, unless the arm is the last. -/
def matchArm (g : Grammar) : Reader Arm := do
  let attrs ← outerAttrs g
  let pat ← alternatives g
  let guard ← when (Next.isWord "if") do
    let if_ ← parts (word "if")
    return if_ ++ (← g.exprPart)
  let _ ← op "=>"
  let e ← g.leading
  let comma ← optionalOp ","
  require (isBlockLike e || !comma.isEmpty || (← next List.isEmpty))
  return .mk attrs pat.pat guard e !comma.isEmpty

def matchExpr (g : Grammar) : Reader Expr := do
  let _ ← word "match"
  let scrutinee ← g.expr false
  let (attrs, arms) ← inside .brace do
    let attrs ← innerAttrs g
    return (attrs, ← untilEnd (matchArm g))
  return .mk attrs (.matchOn scrutinee arms)

/-- An expression that only some compilers know, kept as plain tokens. -/
def opaqueExpr (r : Reader Unit) : Reader Operand := do
  let ((), tokens) ← withTokens r
  return .ofKind (.other (Part.ofTokens tokens))

/-- Whether an expression begins with one that is kept as plain tokens, as
`builtin # offset_of(A, b) + 1` does. -/
def beginsOpaque : Expr -> Bool
  | .mk _ (.binary left _ _) => beginsOpaque left
  | .mk _ (.data (.expr left :: .token t :: _)) =>
      t = .punct '=' && beginsOpaque left
  | .mk _ (.other (.expr left :: .token t :: _)) =>
      t = .word "as" && beginsOpaque left
  | .mk _ (.other (.token t :: .token _ :: _)) =>
      t = .word "builtin" || t = .word "become"
  | _ => false

/-- An expression with the attributes in front of it, which it does not keep if
it begins with plain tokens. -/
def attributed (attrs : List Attr) (e : Expr) : Expr :=
  if beginsOpaque e then e else e.withAttrs attrs

def isClosure (ts : List TokenTree) : Bool :=
  let second := ts.drop 1
  Next.isOp "|" ts || Next.isWordIn ["move", "static"] ts ||
    isForLifetimes ts ||
    (Next.isWord "const" ts && !Next.isGroup .brace second) ||
    (Next.isWord "async" ts &&
      (Next.isOp "|" second || Next.isWord "move" second))

def isAsyncBlock (ts : List TokenTree) : Bool :=
  Next.isWord "async" ts &&
    (Next.isGroup .brace (ts.drop 1) ||
      (Next.isWord "move" (ts.drop 1) && Next.isGroup .brace (ts.drop 2)))

def isPathExpr (ts : List TokenTree) : Bool :=
  isPathStart ts ||
    (Next.isWord "try" ts && Next.isOpIn ["!", "::"] (ts.drop 1))

def atomExpr (g : Grammar) (allowStruct : Bool) : Reader Operand := do
  let ts ← get
  if Next.isLiteral ts then return .ofKind (.data (← parts literal))
  else if isAsyncBlock ts then return .plain (← asyncExpr g)
  else if Next.isWord "try" ts && Next.isGroup .brace (ts.drop 1) then
    return .plain (← tryExpr g)
  else if isClosure ts then return .plain (← closureExpr g allowStruct)
  else if Next.isWord "builtin" ts && Next.isOp "#" (ts.drop 1) then
    opaqueExpr do
      let _ ← word "builtin"
      let _ ← op "#"
      let _ ← ident
      require (← next (Next.isGroup .paren))
      let _ ← rawGroup
  else if isPathExpr ts then pathExpr g allowStruct
  else if Next.isGroup .paren ts then parenExpr g
  else if Next.isWord "break" ts then breakExpr g allowStruct
  else if Next.isWord "continue" ts then
    let _ ← word "continue"
    return .ofKind (.continueTo (← optionalLifetime))
  else if Next.isWord "return" ts then
    let _ ← word "return"
    return .ofKind (.ret (← jumpValue g true))
  else if Next.isWord "become" ts then
    opaqueExpr do
      let _ ← word "become"
      let _ ← g.expr true
  else if Next.isGroup .bracket ts then arrayExpr g
  else if Next.isWord "let" ts then letExpr g allowStruct
  else if Next.isWord "if" ts then return .plain (← g.conditional)
  else if Next.isWord "while" ts then return .plain (← whileExpr g none)
  else if Next.isWord "for" ts then return .plain (← forExpr g none)
  else if Next.isWord "loop" ts then return .plain (← loopExpr g none)
  else if Next.isWord "match" ts then return .plain (← matchExpr g)
  else if Next.isWord "yield" ts then
    let yield_ ← parts (word "yield")
    return .ofKind (.other (yield_ ++ (← jumpValue g true)))
  else if Next.isWord "unsafe" ts then return .plain (← unsafeExpr g)
  else if Next.isWord "const" ts then return .plain (← constBlock g)
  else if Next.isGroup .brace ts then return .plain (← blockExpr g none)
  else if Next.isOp ".." ts then
    return ⟨.bare (.range (← rangeBehind g allowStruct)), .range⟩
  else if Next.isWord "_" ts then
    return .ofKind (.other (← parts (word "_")))
  else
    require (Next.isLifetime ts)
    return .plain (← labeledExpr g)

/-- The members that a number with points denotes, as in `x.0.1`, and whether
it ends with a point. -/
def memberChain? (text : String) : Option (List Part × Bool) :=
  let pieces := (text.splitOn ".").map Literal.indexValue?
  let open_ := text.endsWith "."
  let pieces := if open_ then pieces.dropLast else pieces
  let step (done : List Part) (n : Nat) : List Part :=
    done ++ [.token (.punct '.'), .token (.atom (.literal n.repr))]
  if pieces.all Option.isSome then
    some ((pieces.filterMap id).foldl step [], open_)
  else none

def isFloat : List TokenTree -> Bool
  | .leaf (.literal text) _ _ :: _ => Literal.isFloat text
  | _ => false

/-- What follows a dot, given the operand and the tokens of the dot: a member,
a call of a method, or the word `await`. -/
def memberBehind (g : Grammar) (e : Expr) (dot : List Part) :
    Reader Operand := do
  if ← next (Next.isWord "await") then
    let await_ ← parts (word "await")
    return .ofKind (.other (.expr e :: dot ++ await_))
  let (name, named) ← member
  let turbofish ←
    if named then when (Next.isOp "::") g.genericArgs else pure []
  if named && (!turbofish.isEmpty || (← next (Next.isGroup .paren))) then
    let args ← groupParts .paren (commaList g.exprPart)
    return .ofKind
      (.other (.expr e :: dot ++ .token name :: turbofish ++ args))
  else return .ofKind (.other (.expr e :: dot ++ [.token name]))

def dotTrailer (g : Grammar) (e : Expr) : Reader Operand := do
  let dot ← parts (op ".")
  if ← next isFloat then
    match ← atom with
    | .literal text =>
        match memberChain? text with
        | some (members, open_) =>
            if open_ then
              memberBehind g (.bare (.other (.expr e :: members))) dot
            else return .ofKind (.other (.expr e :: members))
        | none => fail
    | _ => fail
  else memberBehind g e dot

def trailersFuel (g : Grammar) : Nat -> Operand -> Reader Operand
  | 0, _ => fail
  | fuel + 1, e => do
      let ts ← get
      if Next.isGroup .paren ts then
        let args ← inside .paren (commaList g.exprPart)
        trailersFuel g fuel (.ofKind (.call e.expr args))
      else if Next.isDot ts && e.form ≠ .range then
        trailersFuel g fuel (← dotTrailer g e.expr)
      else if Next.isGroup .bracket ts then
        let index ← groupParts .bracket g.exprPart
        trailersFuel g fuel (.ofKind (.other (.expr e.expr :: index)))
      else if Next.isOp "?" ts && e.form ≠ .range then
        let mark ← parts (op "?")
        trailersFuel g fuel (.ofKind (.other (.expr e.expr :: mark)))
      else return e

def trailers (g : Grammar) (e : Operand) : Reader Operand := do
  trailersFuel g ((← get).length + 1) e

def referenceExpr (g : Grammar) (allowStruct : Bool) : Reader ExprKind := do
  let and_ ← parts (op "&")
  let ts ← get
  if Next.isWord "raw" ts && Next.isWordIn ["mut", "const"] (ts.drop 1) then
    let raw_ ← parts (word "raw")
    let mark ←
      if ← next (Next.isWord "mut") then parts (word "mut")
      else parts (word "const")
    return .other (and_ ++ raw_ ++ mark ++
      [.expr (← g.unary allowStruct).expr])
  else
    let mut_ ← parts (optionalWord "mut")
    return .other (and_ ++ mut_ ++ [.expr (← g.unary allowStruct).expr])

def signExpr (g : Grammar) (allowStruct : Bool) : Reader ExprKind := do
  let sign ←
    if ← next (Next.isOp "*") then parts (op "*")
    else if ← next (Next.isOp "!") then parts (op "!")
    else parts (op "-")
  return .data (sign ++ [.expr (← g.unary allowStruct).expr])

/-- An expression that ends where a statement may end: one that is shaped like
a block goes no further, unless a dot or question mark follows it. -/
def readLeading (g : Grammar) : Reader Expr := do
  let attrs ← outerAttrs g
  let ts ← get
  let blockLike : Reader Expr :=
    if Next.isWord "if" ts then g.conditional
    else if Next.isWord "while" ts then whileExpr g none
    else if Next.isWord "for" ts && !isForLifetimes ts then forExpr g none
    else if Next.isWord "loop" ts then loopExpr g none
    else if Next.isWord "match" ts then matchExpr g
    else if Next.isWord "try" ts && Next.isGroup .brace (ts.drop 1) then
      tryExpr g
    else if Next.isWord "unsafe" ts then unsafeExpr g
    else if Next.isWord "const" ts && Next.isGroup .brace (ts.drop 1) then
      constBlock g
    else if Next.isGroup .brace ts then blockExpr g none
    else labeledExpr g
  let isBlock :=
    Next.isWordIn ["if", "while", "loop", "match", "unsafe"] ts ||
      (Next.isWord "for" ts && !isForLifetimes ts) ||
      (Next.isWordIn ["try", "const"] ts && Next.isGroup .brace (ts.drop 1)) ||
      Next.isGroup .brace ts || Next.isLifetime ts
  if isBlock then
    let e ← blockLike
    if ← next isTrailer then
      let e ← trailers g (.plain e)
      let e ← g.climb true ⟨e.expr.withAttrs attrs, e.form⟩ 0
      return e.expr
    else return e.withAttrs attrs
  else
    let e ← g.unary true
    return (← g.climb true ⟨attributed attrs e.expr, e.form⟩ 0).expr

def readUnary (g : Grammar) (allowStruct : Bool) : Reader Operand := do
  let attrs ← outerAttrs g
  let ts ← get
  if Next.isOp "&" ts then
    return .plain (.mk attrs (← referenceExpr g allowStruct))
  else if Next.isOpIn ["*", "!", "-"] ts then
    return .plain (.mk attrs (← signExpr g allowStruct))
  else
    let e ← trailers g (← atomExpr g allowStruct)
    require (attrs.isEmpty || e.form ≠ .range)
    return { e with expr := e.expr.withAttrs attrs }

end Grammar
end ScopeExit
