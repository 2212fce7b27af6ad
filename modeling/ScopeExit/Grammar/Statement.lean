import ScopeExit.Grammar.Expression
import ScopeExit.Grammar.Item

/-!
# Statements

The inside of a block: declarations, items, macro invocations and expressions.
An expression that is not shaped like a block needs a semicolon unless it is the
last statement.
-/

namespace ScopeExit
namespace Grammar

open Reader

/-- Whether an item begins here, behind the outer attributes of a
statement. -/
def isItemStart (ts : List TokenTree) : Bool :=
  let second := ts.drop 1
  let third := ts.drop 2
  Next.isWordIn ["pub", "extern", "use", "fn", "mod", "type", "struct", "enum",
    "trait", "impl", "macro"] ts ||
    (Next.isWord "crate" ts && !Next.isOp "::" second) ||
    (Next.isWord "static" ts &&
      (Next.isWord "mut" second || Next.isIdent second)) ||
    (Next.isWord "const" ts &&
      !(Next.isGroup .brace second || Next.isWordIn ["static", "move"] second ||
        Next.isOp "|" second ||
        (Next.isWord "async" second &&
          !Next.isWordIn ["unsafe", "extern", "fn"] third))) ||
    (Next.isWord "unsafe" ts && !Next.isGroup .brace second) ||
    (Next.isWord "async" ts &&
      Next.isWordIn ["unsafe", "extern", "fn"] second) ||
    (Next.isWord "union" ts && Next.isIdent second) ||
    (Next.isWord "auto" ts && Next.isWord "trait" second) ||
    (Next.isWord "default" ts && Next.isWordIn ["unsafe", "impl"] second)

/-- What the path of a macro at the front of a statement makes of it. -/
inductive MacroStart where
  | item
  | statement (path : SimplePath) (rest : List TokenTree)
  | none

/-- How a statement that may begin with a macro is to be read: a name behind the
exclamation mark makes it an item, and braces that no dot or question mark
follows make it a statement of its own. -/
def macroStart (ts : List TokenTree) : MacroStart :=
  match simplePath ts with
  | some (path, rest) =>
      let second := rest.drop 1
      if !Next.isOp "!" rest then .none
      else if Next.isIdent second || Next.isWord "try" second then .item
      else if Next.isGroup .brace second && !isTrailer (rest.drop 2) then
        .statement path rest
      else .none
  | .none => .none

/-- A declaration behind its attributes.  The block behind `else` needs an
initial value that does not end with a brace. -/
def bindingStmt (g : Grammar) (attrs : List Attr) : Reader Stmt := do
  let _ ← word "let"
  let p ← g.pattern
  let pat ←
    if ← next (Next.isOp ":") then
      let colon ← parts (op ":")
      let ty ← g.typeParts true
      pure (Pat.compound (.pat p.pat :: colon ++ ty))
    else pure p.pat
  let init ← when (Next.isOp "=") do
    let eq ← parts (op "=")
    let (e, tokens) ← withTokens (g.expr true)
    let braced := tokens.getLast? = some (.closing .brace)
    if !braced && (← next (Next.isWord "else")) then
      let else_ ← parts (word "else")
      let body ← block g
      return eq ++ .expr e :: else_ ++
        [.expr (.bare (.block (.plain none) body))]
    else return eq ++ [.expr e]
  let _ ← op ";"
  return .binding attrs pat init

/-- An expression as a statement, given its attributes and where it begins.  A
macro with a semicolon or in braces is a macro statement. -/
def expressionStmt (g : Grammar) (pos : Position) (attrs : List Attr) :
    Reader Stmt := do
  let e ← g.leading
  let semi ← optionalOp ";"
  match e with
  | .mk own (.invocation m) =>
      if !semi.isEmpty || m.delimiter = .brace then
        return .invocation (attrs ++ own) m !semi.isEmpty
      else return .expr pos (e.withAttrs attrs) false
  | _ => return .expr pos (attributed attrs e) !semi.isEmpty

def statement (g : Grammar) : Reader Stmt := do
  let whole ← get
  let pos ← position
  let attrs ← outerAttrs g
  let ts ← get
  match macroStart ts with
  | .item =>
      set whole
      return .item (← g.item)
  | .statement path rest =>
      set rest
      let m ← invocationBehind path
      let semi ← optionalOp ";"
      return .invocation attrs m !semi.isEmpty
  | .none =>
      if Next.isWord "let" ts then bindingStmt g attrs
      else if isItemStart ts then
        set whole
        return .item (← g.item)
      else expressionStmt g pos attrs

def emptyStmt : Reader Stmt := do
  let pos ← position
  let _ ← op ";"
  return .expr pos (.bare (.other [])) true

/-- Whether a statement has to be the last one, as it lacks its semicolon. -/
def needsSemicolon : Stmt -> Bool
  | .expr _ e semi => !semi && !isBlockLike e
  | .invocation _ m semi => !semi && m.delimiter ≠ .brace
  | _ => false

def blockStatement (g : Grammar) : Reader Stmt := do
  if ← next (Next.isOp ";") then emptyStmt
  else
    let s ← statement g
    require (!needsSemicolon s || (← next List.isEmpty))
    return s

def readStatements (g : Grammar) : Reader (List Stmt) :=
  untilEnd (blockStatement g)

end Grammar
end ScopeExit
