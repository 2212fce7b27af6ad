import ScopeExit.Source.Lexer
import ScopeExit.Grammar.Statement

/-!
# Reading whole texts

The recursive readers are built level by level: those of level `n + 1` go
through those of level `n`.  No recursion goes more than a few levels deep
without taking a token, so a level above four times the number of tokens reads
whatever can be read at all; `Grammar.forTrees` chooses such a level.

The functions below read a text as one piece of syntax, and nothing may be left
over.
-/

namespace ScopeExit
namespace Grammar

/-- The readers that go through the given ones. -/
def above (g : Grammar) : Grammar where
  genericArgs := readGenericArgs g
  type := readType g
  pattern := readPattern g
  unary := readUnary g
  climb := readClimb g
  conditional := readConditional g
  leading := readLeading g
  statements := readStatements g
  item := readItem g

/-- The readers that may nest to the given depth. -/
def level : Nat -> Grammar
  | 0 => nothing
  | n + 1 => above (level n)

/-- Readers that nest as deep as any reading of these trees can. -/
def forTrees (ts : List TokenTree) : Grammar :=
  level (4 * (TokenTree.flatten ts).length + 8)

/-- Read all of the trees with a reader that may go through the grammar. -/
def read? {α : Type} (r : Grammar -> Reader α) (ts : List TokenTree) :
    Option α :=
  (r (forTrees ts)).all? ts

def readText? {α : Type} (r : Grammar -> Reader α) (text : String) :
    Option α :=
  (TokenTree.ofText? text).bind (read? r)

/-- The path that a whole reading gave, if it does not begin with a type in
angle brackets. -/
def barePath (inType : Bool) (g : Grammar) : Reader Path := do
  let p ← plainPath g inType
  return .mk p.absolute p.segments

end Grammar

namespace Path

/-- The path that a text is, with generic arguments directly behind a name. -/
def ofTypeText? (text : String) : Option Path :=
  Grammar.readText? (Grammar.barePath true) text

/-- The path that a text is, with generic arguments behind two colons. -/
def ofExprText? (text : String) : Option Path :=
  Grammar.readText? (Grammar.barePath false) text

end Path

namespace Ident

def ofText? (text : String) : Option Ident :=
  Grammar.readText? (fun _ => Reader.ident) text

end Ident

namespace Pat

def ofText? (text : String) : Option Pat :=
  (Grammar.readText? Grammar.alternatives text).map PatternSyntax.pat

end Pat

namespace Stmt

def listOfText? (text : String) : Option (List Stmt) :=
  Grammar.readText? Grammar.statements text

def blockOfText? (text : String) : Option (List Stmt) :=
  Grammar.readText? Grammar.block text

end Stmt

namespace Item

def ofTrees? (ts : List TokenTree) : Option Item :=
  Grammar.read? Grammar.item ts

def ofText? (text : String) : Option Item :=
  (TokenTree.ofText? text).bind ofTrees?

/-- The items of a file, whose inner attributes are passed over. -/
def listOfText? (text : String) : Option (List Item) :=
  Grammar.readText? (fun g => do
    let _ ← Grammar.innerAttrs g
    Reader.untilEnd g.item) text

end Item

end ScopeExit
