import ScopeExit.Grammar.Basic

/-!
# Patterns

A name alone is a binder, also where it might name a constant.  All other
patterns are compounds, whose parts hold the patterns inside them.
-/

namespace ScopeExit
namespace Grammar

open Reader

/-- A compound pattern that ends on both sides. -/
def closedPattern (parts : List Part) : PatternSyntax :=
  ⟨.compound parts, false⟩

def isAlternative (ts : List TokenTree) : Bool :=
  Next.isOp "|" ts && !Next.isOpIn ["||", "|="] ts

/-- A pattern with alternatives, which a bar may begin. -/
def alternatives (g : Grammar) : Reader PatternSyntax := do
  let led ← parts (optionalOp "|")
  let first ← g.pattern
  if !led.isEmpty || (← next isAlternative) then
    let more ← whileNext isAlternative do
      let bar ← parts (op "|")
      return bar ++ [.pat (← g.pattern).pat]
    return closedPattern (led ++ .pat first.pat :: more.flatten)
  else return first

def patternPart (g : Grammar) : Reader (List Part) := do
  return [.pat (← alternatives g).pat]

def isNoRangeBound (ts : List TokenTree) : Bool :=
  ts.isEmpty || Next.isOpIn ["|", "=", ",", ";"] ts ||
    (Next.isOp ":" ts && !Next.isOp "::" ts) || Next.isWord "if" ts

def constBlock (g : Grammar) : Reader Expr := do
  let _ ← word "const"
  let (attrs, body) ← blockWithAttrs g
  return .mk attrs (.block .constBlock body)

def isPathStart (ts : List TokenTree) : Bool :=
  Next.isPathSegment ts || Next.isOpIn ["::", "<"] ts

def rangeBound (g : Grammar) : Reader (List Part) := do
  let ts ← get
  if isNoRangeBound ts then return []
  else if Next.isLiteral ts then parts literal
  else if isPathStart ts then
    return (← path g false).parts
  else return [.expr (← constBlock g)]

/-- The dots of a range pattern.  Three dots mean the same as two dots and an
equals sign, and are kept as these. -/
def rangeDots : Reader (List Token) := do
  if ← next (Next.isOp "..=") then op "..="
  else if ← next (Next.isOp "...") then
    let _ ← op "..."
    return Token.operator "..="
  else op ".."

def rangeFrom (g : Grammar) (first : List Part) : Reader PatternSyntax := do
  let dots ← rangeDots
  let last ← rangeBound g
  require (dots.length = 2 || !last.isEmpty)
  return ⟨.compound (first ++ Part.ofTokens dots ++ last), last.isEmpty⟩

/-- A range pattern without a first bound, or the pattern of two dots that
stands for any number of elements. -/
def rangeTo (g : Grammar) : Reader PatternSyntax := do
  let dots ← if ← next (Next.isOp "..=") then op "..=" else op ".."
  let last ← rangeBound g
  require (dots.length = 2 || !last.isEmpty)
  return ⟨.compound (Part.ofTokens dots ++ last), !last.isEmpty⟩

def literalPattern (g : Grammar) : Reader PatternSyntax := do
  let first ← rangeBound g
  if ← next (Next.isOp "..") then rangeFrom g first
  else return closedPattern first

def member : Reader (Token × Bool) := do
  if ← next Next.isIdent then return (.ident (← ident), true)
  else
    match ← atom with
    | .literal text =>
        match Literal.indexValue? text with
        | some n => return (.atom (.literal n.repr), false)
        | none => fail
    | _ => fail

/-- A field of a structure pattern: a field with a pattern, or the name of a
field alone, which it binds. -/
def fieldPattern (g : Grammar) : Reader (List Part) := do
  let (boxed, boxTokens) ← withTokens (optionalWord "box")
  let by_ ← optionalWord "ref"
  let mut_ ← optionalWord "mut"
  let marks := by_ ++ mut_
  if boxed.isEmpty && marks.isEmpty then
    let (name, named) ← member
    if !named || (← next (Next.isOp ":")) then
      let colon ← parts (op ":")
      return .token name :: colon ++ (← patternPart g)
    else
      match name with
      | .atom (.ident i) => return [.pat (.binder [] i [])]
      | _ => fail
  else
    let name ← ident
    if boxed.isEmpty then return [.pat (.binder marks name [])]
    else
      return Part.ofTokens (boxTokens ++ marks) ++ [.token (.ident name)]

def structFields (g : Grammar) : Reader (List Part) :=
  commaList do
    let attrs ← attrParts g
    if ← next (Next.isOp "..") then
      let dots ← parts (op "..")
      require (← next List.isEmpty)
      return attrs ++ dots
    else return attrs ++ (← fieldPattern g)

def pathPattern (g : Grammar) : Reader PatternSyntax := do
  let p ← path g false
  let ts ← get
  match p.toSimple? with
  | some simple =>
      if Next.isBang ts then
        let bang ← op "!"
        return closedPattern
          (Part.ofTokens (simple.tokens ++ bang ++ (← rawGroup)))
  | none => pure ()
  if Next.isGroup .brace ts then
    return closedPattern (p.parts ++ (← groupParts .brace (structFields g)))
  else if Next.isGroup .paren ts then
    return closedPattern
      (p.parts ++ (← groupParts .paren (commaList (patternPart g))))
  else if Next.isOp ".." ts then rangeFrom g p.parts
  else return closedPattern p.parts

/-- An element of a slice pattern, which may not be a range without an end. -/
def sliceElement (g : Grammar) : Reader (List Part) := do
  let p ← alternatives g
  require !p.openRange
  return [.pat p.pat]

/-- A binder: a name, and the pattern behind an at sign if there is one. -/
def binderPattern (g : Grammar) : Reader PatternSyntax := do
  let by_ ← optionalWord "ref"
  let mut_ ← optionalWord "mut"
  let name ← if ← next (Next.isWord "self") then anyIdent else ident
  let sub ← when (Next.isOp "@") do
    let at_ ← parts (op "@")
    return at_ ++ [.pat (← g.pattern).pat]
  return ⟨.binder (by_ ++ mut_) name sub, false⟩

def isPathPattern (ts : List TokenTree) : Bool :=
  let second := ts.drop 1
  (Next.isIdent ts &&
    (Next.isOpIn ["::", "!", ".."] second || Next.isGroup .brace second ||
      Next.isGroup .paren second)) ||
    (Next.isWord "self" ts && Next.isOp "::" second) ||
    Next.isOpIn ["::", "<"] ts || Next.isWordIn ["Self", "super", "crate"] ts

def readPattern (g : Grammar) : Reader PatternSyntax := do
  let ts ← get
  if isPathPattern ts then pathPattern g
  else if Next.isWord "_" ts then
    return closedPattern (← parts (word "_"))
  else if Next.isWord "box" ts then
    let ((), tokens) ← withTokens do
      let _ ← word "box"
      let _ ← g.pattern
    return closedPattern (Part.ofTokens tokens)
  else if Next.isOp "-" ts || Next.isLiteral ts || Next.isWord "const" ts then
    literalPattern g
  else if Next.isWordIn ["ref", "mut", "self"] ts || Next.isIdent ts then
    binderPattern g
  else if Next.isOp "&" ts then
    let and_ ← parts (op "&")
    let mut_ ← parts (optionalWord "mut")
    return closedPattern (and_ ++ mut_ ++ [.pat (← g.pattern).pat])
  else if Next.isGroup .paren ts then
    return closedPattern (← groupParts .paren (commaList (patternPart g)))
  else if Next.isGroup .bracket ts then
    return closedPattern (← groupParts .bracket (commaList (sliceElement g)))
  else if Next.isOp ".." ts && !Next.isOp "..." ts then rangeTo g
  else fail

end Grammar
end ScopeExit
