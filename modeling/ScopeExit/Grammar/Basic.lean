import ScopeExit.Grammar.Reader

/-!
# The recursive readers

Types, patterns, expressions, statements and items contain one another.  The
readers that this recursion goes through are the fields of one record, and
every other reader is a function of such a record.  `ScopeExit.Grammar.Entry`
ties the knot: the record that may nest one level deeper is built from the
record for the level below.
-/

namespace ScopeExit

/-- What kind of type has been read, as far as what may follow depends on it:
a single name, another path, one bound alone, one bound in parentheses of its
own, or anything else. -/
inductive TypeForm where
  | name
  | path
  | bareBound
  | parenBound
  | other
  deriving DecidableEq

namespace TypeForm

/-- Whether the type is a path that does not begin with a type in angle
brackets. -/
def isPath : TypeForm -> Bool
  | name => true
  | path => true
  | _ => false

/-- Whether a type in parentheses can be the first of several bounds. -/
def canBound (f : TypeForm) : Bool :=
  f.isPath || f = bareBound || f = parenBound

end TypeForm

structure TypeSyntax where
  parts : List Part
  form : TypeForm

/-- A pattern, and whether it is a range without one of its ends. -/
structure PatternSyntax where
  pat : Pat
  openRange : Bool

/-- What kind of expression has been read, as far as operators that may follow
depend on it. -/
inductive OperandForm where
  | plain
  | range
  | comparison
  deriving DecidableEq

structure Operand where
  expr : Expr
  form : OperandForm

namespace Operand

def plain (e : Expr) : Operand := ⟨e, .plain⟩

def ofKind (k : ExprKind) : Operand := plain (.bare k)

end Operand

/-- The recursive readers.

`type` may read bounds that a plus sign joins only if `allowPlus`; expressions
may read a structure literal only if `allowStruct`.  `climb` goes on behind an
operand with the operators that bind at least as tightly as the number says.
`leading` reads an expression where a statement may end, and `conditional` one
that begins with the word `if`. -/
structure Grammar where
  genericArgs : Reader (List Part)
  type : (allowPlus : Bool) -> Reader TypeSyntax
  pattern : Reader PatternSyntax
  unary : (allowStruct : Bool) -> Reader Operand
  climb : (allowStruct : Bool) -> Operand -> Nat -> Reader Operand
  conditional : Reader Expr
  leading : Reader Expr
  statements : Reader (List Stmt)
  item : Reader Item

namespace Grammar

def nothing : Grammar where
  genericArgs := Reader.fail
  type := fun _ => Reader.fail
  pattern := Reader.fail
  unary := fun _ => Reader.fail
  climb := fun _ _ _ => Reader.fail
  conditional := Reader.fail
  leading := Reader.fail
  statements := Reader.fail
  item := Reader.fail

open Reader

def typeParts (g : Grammar) (allowPlus : Bool) : Reader (List Part) := do
  return (← g.type allowPlus).parts

def expr (g : Grammar) (allowStruct : Bool) : Reader Expr := do
  let first ← g.unary allowStruct
  return (← g.climb allowStruct first 0).expr

def exprPart (g : Grammar) : Reader (List Part) := do
  return [.expr (← g.expr true)]

def block (g : Grammar) : Reader (List Stmt) :=
  inside .brace g.statements

/-!
## Attributes
-/

def simpleSegments : Nat -> Reader (List Ident)
  | 0 => fail
  | fuel + 1 => do
      require (← next Next.isPathSegment)
      let i ← anyIdent
      if ← next (Next.isOp "::") then
        let _ ← op "::"
        return i :: (← simpleSegments fuel)
      else return [i]

def simplePath : Reader SimplePath := do
  let led ← optionalOp "::"
  return ⟨!led.isEmpty, ← simpleSegments ((← get).length + 1)⟩

def attrArgs (g : Grammar) : Reader (List Part) := do
  let ts ← get
  if Next.isAnyGroup ts then parts rawGroup
  else if Next.isOp "=" ts && !Next.isOpIn ["==", "=>"] ts then
    let eq ← parts (op "=")
    let ts ← get
    require !(Next.isOp "#" ts && Next.isGroup .bracket (ts.drop 1))
    return eq ++ (← g.exprPart)
  else return []

def attrBody (g : Grammar) (inner : Bool) : Reader Attr := do
  if ← next (Next.isWord "unsafe") then
    let _ ← word "unsafe"
    return .mk inner ⟨false, [.plain "unsafe"]⟩ (← attrArgs g)
  else
    let path ← simplePath
    return .mk inner path (← attrArgs g)

def outerAttr (g : Grammar) : Reader Attr := do
  let _ ← op "#"
  inside .bracket (attrBody g false)

def innerAttr (g : Grammar) : Reader Attr := do
  let _ ← op "#"
  let _ ← op "!"
  inside .bracket (attrBody g true)

def outerAttrs (g : Grammar) : Reader (List Attr) :=
  whileNext (Next.isOp "#") (outerAttr g)

def innerAttrs (g : Grammar) : Reader (List Attr) :=
  whileNext (fun ts => Next.isOp "#" ts && Next.isOp "!" (ts.drop 1))
    (innerAttr g)

def attrParts (g : Grammar) : Reader (List Part) := do
  return (← outerAttrs g).map .attr

def blockWithAttrs (g : Grammar) : Reader (List Attr × List Stmt) :=
  inside .brace do
    let attrs ← innerAttrs g
    return (attrs, ← g.statements)

def blockExpr (g : Grammar) (label : Option String) : Reader Expr := do
  let (attrs, body) ← blockWithAttrs g
  return .mk attrs (.block (.plain label) body)

/-!
## Paths
-/

/-- A path as it is read: the type in angle brackets that it may begin with,
and its segments. -/
structure PathSyntax where
  self : List Part
  absolute : Bool
  segments : List Segment

/-- The parts of segments, each behind a separator; the first one only if
`led`. -/
def segmentParts (led : Bool) : List Segment -> List Part
  | [] => []
  | .mk name args :: rest =>
      Part.ofTokens (if led then pathSeparator else []) ++
        .token (.ident name) :: args ++ segmentParts true rest

namespace PathSyntax

def parts (p : PathSyntax) : List Part :=
  p.self ++ segmentParts p.absolute p.segments

def toExprKind (p : PathSyntax) : ExprKind :=
  if p.self.isEmpty then .path (.mk p.absolute p.segments)
  else .qualified p.parts

/-- Whether no segment has generic arguments. -/
def isPlain (p : PathSyntax) : Bool :=
  p.segments.all fun | .mk _ args => args.isEmpty

def toSimple? (p : PathSyntax) : Option SimplePath :=
  if p.self.isEmpty && p.isPlain then
    some ⟨p.absolute, p.segments.map Segment.name⟩
  else none

/-- Whether arguments in parentheses may follow: the last segment has no
generic arguments, or angle brackets with nothing in them. -/
def lastIsOpen (p : PathSyntax) : Bool :=
  p.segments.getLast?.any Segment.hasNoArgs

def withLastArgs (p : PathSyntax) (args : List Part) : PathSyntax :=
  match p.segments.getLast? with
  | some (.mk name _) =>
      { p with segments := p.segments.dropLast ++ [.mk name args] }
  | none => p

end PathSyntax

/-- Generic arguments come next behind the two colons that an expression
needs. -/
def isTurbofish (ts : List TokenTree) : Bool :=
  Next.isOp "::" ts && Next.isOp "<" (ts.drop 2)

/-- A segment of a path.  In a type, generic arguments may follow the name
directly. -/
def segment (g : Grammar) (inType : Bool) : Reader Segment := do
  if ← next (Next.isWordIn ["super", "self", "crate", "try"]) then
    return .mk (← anyIdent) []
  let name ← if ← next (Next.isWord "Self") then anyIdent else ident
  let ts ← get
  if (inType && Next.isOp "<" ts && !Next.isOpIn ["<=", "<<="] ts) ||
      isTurbofish ts then
    return .mk name (← g.genericArgs)
  else return .mk name []

/-- Whether another segment follows.  Two colons in front of parentheses belong
to the arguments of the last segment. -/
def isMoreSegments (ts : List TokenTree) : Bool :=
  Next.isOp "::" ts && !Next.isGroup .paren (ts.drop 2)

def moreSegments (g : Grammar) (inType : Bool) : Reader (List Segment) :=
  whileNext isMoreSegments do
    let _ ← op "::"
    segment g inType

/-- A path that does not begin with a type in angle brackets. -/
def plainPath (g : Grammar) (inType : Bool) : Reader PathSyntax := do
  let led ← optionalOp "::"
  let first ← segment g inType
  return ⟨[], !led.isEmpty, first :: (← moreSegments g inType)⟩

/-- A path that may begin with a type in angle brackets. -/
def path (g : Grammar) (inType : Bool) : Reader PathSyntax := do
  if ← next (Next.isOp "<") then
    let opening ← parts (op "<")
    let self ← g.typeParts true
    let trait ← when (Next.isWord "as") do
      let as_ ← parts (word "as")
      return as_ ++ (← plainPath g true).parts
    let closing ← parts (op ">")
    let sep ← parts (op "::")
    let first ← segment g inType
    let more ← whileNext (Next.isOp "::") do
      let _ ← op "::"
      segment g inType
    return ⟨opening ++ self ++ trait ++ closing ++ sep, false, first :: more⟩
  else plainPath g inType

def invocationBehind (path : SimplePath) : Reader Invocation := do
  let _ ← op "!"
  let (delimiter, body) ← anyGroup
  return ⟨path, delimiter, body⟩

def constArg (g : Grammar) : Reader (List Part) := do
  if ← next Next.isLiteral then parts literal
  else if ← next Next.isIdent then
    return [.token (.ident (← ident))]
  else return [.expr (← blockExpr g none)]

end Grammar

end ScopeExit
