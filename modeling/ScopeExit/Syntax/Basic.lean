import ScopeExit.Syntax.UseTree

/-!
# Syntax trees

The syntax of Rust, kept as coarse as the guarding of blocks allows.  What can
bind a name, hold a block, end a block early or be a call has a constructor of
its own.  All else is a list of *parts*: tokens, and the attributes, expressions
and patterns that stand among them.  No token is lost, so a tree can be written
out again; see `ScopeExit.Syntax.Print`.
-/

namespace ScopeExit

/-- What a macro is called with: its path and its untouched arguments. -/
structure Invocation where
  path : SimplePath
  delimiter : Delimiter
  body : List Token
  deriving DecidableEq

/-- The keyword in front of a block expression, or the label. -/
inductive BlockStyle where
  | plain (label : Option String)
  | unsafeBlock
  | constBlock
  | tryBlock
  | asyncBlock (moves : Bool)
  deriving DecidableEq

/-- The keywords in front of the parameters of a closure. -/
structure ClosureMarks where
  isConst : Bool
  isStatic : Bool
  isAsync : Bool
  moves : Bool
  deriving DecidableEq

/-!
The tree itself.  An expression or item carries all its attributes in one list,
those inside its braces (`inner`) included.
-/

mutual

/-- An attribute.  Arguments in brackets are plain tokens; behind an equals
sign stands an expression. -/
inductive Attr where
  | mk (inner : Bool) (path : SimplePath) (args : List Part)

/-- A piece of syntax without a shape of its own.

`clauseLast body clause` is a body that a `where` clause follows which belongs
to the declaration before the body: it is written last and analysed first. -/
inductive Part where
  | token (t : Token)
  | attr (a : Attr)
  | expr (e : Expr)
  | pat (p : Pat)
  | clauseLast (body clause : List Part)

inductive Segment where
  | mk (name : Ident) (args : List Part)

/-- A path whose segments may carry generic arguments. -/
inductive Path where
  | mk (absolute : Bool) (segments : List Segment)

inductive Expr where
  | mk (attrs : List Attr) (kind : ExprKind)

/-- The shapes of expressions.

`qualified` is a path that begins with a type in angle brackets.  `data` is a
literal, array, structure, tuple, negation, assignment or the like, which can
never be called; `other` is any remaining expression. -/
inductive ExprKind where
  | path (p : Path)
  | qualified (parts : List Part)
  | call (callee : Expr) (args : List Part)
  | closure (binder : List Part) (marks : ClosureMarks)
      (inputs output : List Part) (body : Expr)
  | paren (inner : Expr)
  | block (style : BlockStyle) (body : List Stmt)
  | ifThen (cond : Expr) (body : List Stmt)
  | ifElse (cond : Expr) (body : List Stmt) (orElse : Expr)
  | whileLoop (label : Option String) (cond : Expr) (body : List Stmt)
  | forLoop (label : Option String) (pat : Pat) (source : Expr)
      (body : List Stmt)
  | loop (label : Option String) (body : List Stmt)
  | matchOn (scrutinee : Expr) (arms : List Arm)
  | letCond (pat : Pat) (scrutinee : Expr)
  | binary (left : Expr) (op : List Token) (right : Expr)
  | invocation (m : Invocation)
  | ret (value : List Part)
  | breakTo (label : Option String) (value : List Part)
  | continueTo (label : Option String)
  | range (parts : List Part)
  | data (parts : List Part)
  | other (parts : List Part)

/-- A pattern.  A `binder` introduces a name, and `sub` is the pattern behind
an at sign, if there is one.  The names that a `compound` pattern introduces are
those of the patterns among its parts. -/
inductive Pat where
  | binder (before : List Token) (name : Ident) (sub : List Part)
  | compound (parts : List Part)

/-- An arm of a `match`.  The guard, if there is one, is the word `if` and an
expression. -/
inductive Arm where
  | mk (attrs : List Attr) (pat : Pat) (guard : List Part) (body : Expr)
      (comma : Bool)

/-- A statement.  A `binding` is a `let` with all that follows the pattern up
to the semicolon.  An expression statement knows where it began. -/
inductive Stmt where
  | binding (attrs : List Attr) (pat : Pat) (init : List Part)
  | item (i : Item)
  | expr (pos : Position) (e : Expr) (semi : Bool)
  | invocation (attrs : List Attr) (m : Invocation) (semi : Bool)

/-- An item, or a member of an `impl` or a trait, with its attributes. -/
inductive Item where
  | mk (attrs : List Attr) (kind : ItemKind)

/-- The kinds of items.

A `function` has a body; its signature is what follows its name, and the
patterns among those parts are those of its parameters.  A `constant` is a
`const` or a `static`.  A `moduleFile` is a module whose items stand elsewhere.
A `definition` is any other item that introduces its name alone, such as a type.
`other` introduces no name that matters here. -/
inductive ItemKind where
  | function (before : List Token) (isConst : Bool) (qualifiers : List Token)
      (name : Ident) (signature : List Part) (body : List Stmt)
  | constant (before : List Token) (name : Ident) (after : List Part)
  | implementation (header : List Part) (members : List Item)
  | traitDef (before : List Token) (name : Ident) (header : List Part)
      (members : List Item)
  | module (before : List Token) (name : Ident) (items : List Item)
  | moduleFile (before : List Token) (name : Ident)
  | imports (before : List Token) (absolute : Bool) (tree : UseTree)
  | externCrate (before : List Token) (name : Ident) (newName : Option Ident)
  | definition (before : List Token) (name : Ident) (after : List Part)
  | other (parts : List Part)

end

namespace Attr

def path : Attr -> SimplePath
  | mk _ path _ => path

end Attr

namespace Segment

def name : Segment -> Ident
  | mk name _ => name

/-- Whether a segment has no generic arguments.  Angle brackets with nothing
in them, possibly behind two colons, count as none. -/
def hasNoArgs : Segment -> Bool
  | mk _ args => args.all fun
      | .token t =>
          t = .punct ':' || t = .punct '<' || t = .punct '>'
      | _ => false

end Segment

namespace Path

def isAbsolute : Path -> Bool
  | mk absolute _ => absolute

/-- The names of the segments, without their arguments and as they are however
they are spelled. -/
def names : Path -> List String
  | mk _ segments => segments.map fun s => s.name.name

end Path

def SimplePath.toPath (p : SimplePath) : Path :=
  .mk p.absolute (p.segments.map fun i => .mk i [])

namespace Expr

def attrs : Expr -> List Attr
  | mk attrs _ => attrs

def kind : Expr -> ExprKind
  | mk _ kind => kind

/-- The expression with more attributes in front of its own. -/
def withAttrs (more : List Attr) : Expr -> Expr
  | mk attrs kind => mk (more ++ attrs) kind

@[simp] theorem withAttrs_nil (e : Expr) : e.withAttrs [] = e := by
  cases e
  rfl

def bare (kind : ExprKind) : Expr := mk [] kind

def ofIdent (i : Ident) : Expr := bare (.path (.mk false [.mk i []]))

end Expr

def Part.ofTokens (ts : List Token) : List Part := ts.map .token

end ScopeExit
