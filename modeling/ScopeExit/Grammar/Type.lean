import ScopeExit.Grammar.Basic

/-!
# Types

Types, bounds, generic parameters and arguments, and `where` clauses.  All of
them become parts; only the expressions inside (array lengths, constant
arguments, attribute values) keep a shape of their own.
-/

namespace ScopeExit
namespace Grammar

open Reader

/-!
## Bounds
-/

def lifetimePart : Reader (List Part) := do
  return [.token (.atom (.lifetime (← lifetime)))]

def boundLifetimes (g : Grammar) : Reader (List Part) := do
  let for_ ← parts (word "for")
  let opening ← parts (op "<")
  let names ← sepUntil (Next.isOp ">") "," do
    let attrs ← attrParts g
    return attrs ++ (← lifetimePart)
  let closing ← parts (op ">")
  return for_ ++ opening ++ names ++ closing

def returnType (g : Grammar) (allowPlus : Bool) : Reader (List Part) :=
  when (Next.isOp "->") do
    let arrow ← parts (op "->")
    return arrow ++ (← g.typeParts allowPlus)

/-- Arguments in parentheses and a return type, as in `Fn(u8) -> u8`.  Only a
bound may have them. -/
def parenArgs (g : Grammar) : Reader (List Part) := do
  let inputs ← groupParts .paren (commaList (g.typeParts true))
  return inputs ++ (← returnType g false)

/-- Arguments in parentheses come next, possibly behind two colons, which are
not kept. -/
def isParenArgs (ts : List TokenTree) : Bool :=
  Next.isGroup .paren ts ||
    (Next.isOp "::" ts && Next.isGroup .paren (ts.drop 2))

def traitPath (g : Grammar) : Reader (List Part) := do
  let p ← plainPath g true
  if p.lastIsOpen && (← next isParenArgs) then
    let _ ← optionalOp "::"
    return (p.withLastArgs (← parenArgs g)).parts
  else return p.parts

structure Bound where
  parts : List Part
  isTrait : Bool

/-- Whether a bound is `const`, always or where its context is. -/
def constMark (allowConst : Bool) : Reader (List Part) := do
  let ts ← get
  if Next.isGroup .bracket ts then
    require allowConst
    groupParts .bracket (parts (word "const"))
  else if Next.isWord "const" ts then
    require allowConst
    parts (word "const")
  else return []

/-- A trait as a bound.  Bound lifetimes and a question mark exclude one
another.  A bound with a `const` mark is kept as plain tokens. -/
def traitBound (g : Grammar) (allowConst : Bool) : Reader (List Part) := do
  let (bound, tokens) ← withTokens do
    let before ← when (Next.isWord "for") (boundLifetimes g)
    let mark ← constMark allowConst
    let maybe ← parts (optionalOp "?")
    require (before.isEmpty || maybe.isEmpty)
    let path ← traitPath g
    return (before ++ mark ++ maybe ++ path, !mark.isEmpty)
  return if bound.2 then Part.ofTokens tokens else bound.1

/-!
Lists in angle brackets keep their lifetimes in front, however they are
written.  If the last lifetime has no comma of its own and something else comes
behind it, one is put there.
-/

/-- An entry of a list in angle brackets, and whether a comma stands behind
it. -/
structure AngleEntry where
  isLifetime : Bool
  parts : List Part
  comma : Bool

namespace AngleEntry

def lifetime (parts : List Part) : AngleEntry := ⟨true, parts, false⟩

def other (parts : List Part) : AngleEntry := ⟨false, parts, false⟩

def joined (e : AngleEntry) : List Part :=
  e.parts ++ if e.comma then [.token (.punct ',')] else []

def inOrder (es : List AngleEntry) : List Part :=
  let lifetimes := es.filter isLifetime
  let others := es.filter fun e => !e.isLifetime
  let lastIsBare := lifetimes.getLast?.any fun e => !e.comma
  lifetimes.flatMap joined ++
    (if lastIsBare && !others.isEmpty then [.token (.punct ',')] else []) ++
    others.flatMap joined

end AngleEntry

/-- Entries up to a closing angle bracket. -/
def angleEntriesFuel (entry : Reader AngleEntry) :
    Nat -> Reader (List AngleEntry)
  | 0 => fail
  | fuel + 1 => do
      if ← next (Next.isOp ">") then return []
      let first ← entry
      if ← next (Next.isOp ">") then return [first]
      let _ ← op ","
      return { first with comma := true } :: (← angleEntriesFuel entry fuel)

def angleEntries (entry : Reader AngleEntry) : Reader (List Part) := do
  return AngleEntry.inOrder
    (← angleEntriesFuel entry ((← get).length + 1))

def preciseCapture : Reader (List Part) := do
  let use_ ← parts (word "use")
  let opening ← parts (op "<")
  let names ← angleEntries do
    if ← next Next.isLifetime then return .lifetime (← lifetimePart)
    else if ← next (Next.isWord "Self") then
      return .other (← parts (word "Self"))
    else return .other [.token (.ident (← ident))]
  let closing ← parts (op ">")
  return use_ ++ opening ++ names ++ closing

/-- One bound: a lifetime, captured names where they are allowed, or a trait,
which may stand in parentheses. -/
def bound (g : Grammar) (allowCapture allowConst : Bool) : Reader Bound := do
  let ts ← get
  if Next.isLifetime ts then
    return ⟨← lifetimePart, false⟩
  else if Next.isWord "use" ts then
    require allowCapture
    return ⟨← preciseCapture, false⟩
  else if Next.isGroup .paren ts then
    return ⟨← groupParts .paren (traitBound g allowConst), true⟩
  else return ⟨← traitBound g allowConst, true⟩

def boundParts (g : Grammar) : Reader (List Part) := do
  return (← bound g false true).parts

/-- Whether a bound can follow a plus sign. -/
def isBoundStart (ts : List TokenTree) : Bool :=
  Next.isAnyIdent ts || Next.isOpIn ["::", "?"] ts || Next.isLifetime ts ||
    Next.isGroup .paren ts

def moreBounds (g : Grammar) (allowCapture allowConst : Bool) :
    Reader (List Bound) :=
  whileNext (Next.isOp "+") do
    let plus ← parts (op "+")
    let ts ← get
    if isBoundStart ts || (allowConst && Next.isGroup .bracket ts) then
      let b ← bound g allowCapture allowConst
      return ⟨plus ++ b.parts, b.isTrait⟩
    else
      require !(Next.isOp "+" ts)
      return ⟨plus, false⟩

def bounds (g : Grammar) (allowPlus allowCapture allowConst : Bool) :
    Reader (List Bound) := do
  let first ← bound g allowCapture allowConst
  if allowPlus then
    return first :: (← moreBounds g allowCapture allowConst)
  else return [first]

/-- Bounds of which at least one has to be a trait. -/
def traitBounds (g : Grammar) (allowPlus allowCapture allowConst : Bool) :
    Reader (List Bound) := do
  let bs ← bounds g allowPlus allowCapture allowConst
  require (bs.any Bound.isTrait)
  return bs

def joinBounds (bs : List Bound) : List Part := bs.flatMap Bound.parts

/-!
## Generic parameters and arguments
-/

/-- Bounds behind a colon, up to a place where the test holds.  A colon that no
bound follows is not kept. -/
def boundsBehindColon (g : Grammar) (stop : List TokenTree -> Bool) :
    Reader (List Part) :=
  when (Next.isOp ":") do
    let colon ← parts (op ":")
    let bs ← sepWhile stop "+" (boundParts g)
    return if bs.isEmpty then [] else colon ++ bs

def genericParam (g : Grammar) : Reader AngleEntry := do
  let attrs ← attrParts g
  let ts ← get
  if Next.isLifetime ts then
    let name ← lifetimePart
    let bs ← when (Next.isOp ":") do
      let colon ← parts (op ":")
      let bs ← sepWhile (Next.isOpIn [",", ">"]) "+" lifetimePart
      return if bs.isEmpty then [] else colon ++ bs
    return .lifetime (attrs ++ name ++ bs)
  else if Next.isIdent ts then
    let name ← ident
    let bs ← boundsBehindColon g (Next.isOpIn [",", ">", "="])
    let default_ ← when (Next.isOp "=") do
      let eq ← parts (op "=")
      return eq ++ (← g.typeParts true)
    return .other (attrs ++ .token (.ident name) :: bs ++ default_)
  else if Next.isWord "const" ts then
    let const_ ← parts (word "const")
    let name ← ident
    let colon ← parts (op ":")
    let ty ← g.typeParts true
    let default_ ← when (Next.isOp "=") do
      let eq ← parts (op "=")
      return eq ++ (← constArg g)
    return .other (attrs ++ const_ ++ .token (.ident name) :: colon ++ ty ++
      default_)
  else return .other (attrs ++ (← parts (word "_")))

/-- Generic parameters in angle brackets, if they come next.  Brackets without
parameters are not kept. -/
def generics (g : Grammar) : Reader (List Part) :=
  when (Next.isOp "<") do
    let opening ← parts (op "<")
    let params ← angleEntries (genericParam g)
    let closing ← parts (op ">")
    return if params.isEmpty then [] else opening ++ params ++ closing

def isClauseEnd (ts : List TokenTree) : Bool :=
  ts.isEmpty || Next.isGroup .brace ts || Next.isOpIn [",", ";", "="] ts ||
    (Next.isOp ":" ts && !Next.isOp "::" ts)

def wherePredicate (g : Grammar) : Reader (List Part) := do
  let ts ← get
  if Next.isLifetime ts && Next.isOp ":" (ts.drop 1) then
    let name ← lifetimePart
    let colon ← parts (op ":")
    return name ++ colon ++ (← sepWhile isClauseEnd "+" lifetimePart)
  else
    let before ← when (Next.isWord "for") (boundLifetimes g)
    let ty ← g.typeParts true
    let colon ← parts (op ":")
    return before ++ ty ++ colon ++
      (← sepWhile isClauseEnd "+" (boundParts g))

/-- A `where` clause, if one comes next.  A clause without predicates is not
kept. -/
def whereClause (g : Grammar) : Reader (List Part) :=
  when (Next.isWord "where") do
    let where_ ← parts (word "where")
    let predicates ← sepWhile isClauseEnd "," (wherePredicate g)
    return if predicates.isEmpty then [] else where_ ++ predicates

/-- A generic argument.  Behind a single name, an equals sign gives the value of
an associated item and a colon its bounds. -/
def genericArg (g : Grammar) : Reader AngleEntry := do
  let ts ← get
  if Next.isLifetime ts && !Next.isOp "+" (ts.drop 1) then
    return .lifetime (← lifetimePart)
  else if Next.isLiteral ts || Next.isGroup .brace ts then
    return .other (← constArg g)
  else
    let ty ← g.type true
    let ts ← get
    if ty.form = .name && Next.isOp "=" ts then
      let eq ← parts (op "=")
      let ts ← get
      let value ←
        if Next.isLiteral ts || Next.isGroup .brace ts then constArg g
        else g.typeParts true
      return .other (ty.parts ++ eq ++ value)
    else if ty.form = .name && Next.isOp ":" ts then
      let colon ← parts (op ":")
      let bs ← sepWhile (Next.isOpIn [",", ">"]) "+" (boundParts g)
      return .other (ty.parts ++ colon ++ bs)
    else return .other ty.parts

/-- Generic arguments in angle brackets, possibly behind two colons. -/
def readGenericArgs (g : Grammar) : Reader (List Part) := do
  let sep ← parts (optionalOp "::")
  let opening ← parts (op "<")
  let args ← angleEntries (genericArg g)
  let closing ← parts (op ">")
  return sep ++ opening ++ args ++ closing

/-- Whether generic parameters come next rather than a path that begins with a
type in angle brackets. -/
def isGenerics (ts : List TokenTree) : Bool :=
  let second := ts.drop 1
  let third := ts.drop 2
  Next.isOp "<" ts &&
    (Next.isOpIn [">", "#"] second ||
      ((Next.isLifetime second || Next.isIdent second) &&
        (Next.isOpIn [">", ",", "="] third ||
          (Next.isOp ":" third && !Next.isOp "::" third))) ||
      Next.isWord "const" second)

/-!
## Types
-/

inductive ParenType where
  | closed (parts : List Part)
  | maybeBound (parts : List Part)
  | single (ty : TypeSyntax)

def parenType (g : Grammar) : Reader ParenType := do
  let ts ← get
  if ts.isEmpty then return .closed []
  else if Next.isLifetime ts then
    return .closed (joinBounds (← traitBounds g true false false))
  else if Next.isOp "?" ts then
    return .maybeBound (← traitBound g false)
  else
    let first ← g.type true
    if ← next (Next.isOp ",") then
      let comma ← parts (op ",")
      return .closed (first.parts ++ comma ++
        (← commaList (g.typeParts true)))
    else return .single first

/-- Further bounds behind plus signs, each of which has a bound behind it. -/
def strictBounds (g : Grammar) : Reader (List Part) := do
  let bs ← whileNext (Next.isOp "+") do
    let plus ← parts (op "+")
    return plus ++ (← bound g false false).parts
  return bs.flatten

/-- A type that begins with parentheses.  A bound keeps only one pair of
them. -/
def typeInParens (g : Grammar) (allowPlus : Bool) : Reader TypeSyntax := do
  let wrap (inner : List Part) : List Part :=
    .token (.opening .paren) :: inner ++ [.token (.closing .paren)]
  match ← inside .paren (parenType g) with
  | .closed inner => return ⟨wrap inner, .other⟩
  | .maybeBound inner =>
      let more ← strictBounds g
      return ⟨wrap inner ++ more,
        if more.isEmpty then .parenBound else .other⟩
  | .single ty =>
      if allowPlus && ty.form.canBound && (← next (Next.isOp "+")) then
        let first :=
          if ty.form = .parenBound then ty.parts else wrap ty.parts
        return ⟨first ++ (← strictBounds g), .other⟩
      else return ⟨wrap ty.parts, .other⟩

/-- The last parameter of a function pointer, if it stands for any number of
arguments. -/
def isVariadic (ts : List TokenTree) : Bool :=
  Next.isOp "..." ts ||
    ((Next.isIdent ts || Next.isWord "_" ts) && Next.isOp ":" (ts.drop 1) &&
      Next.isOp "..." (ts.drop 2))

def selfInPlace : Reader (List Part) := do
  let mut_ ← parts (word "mut")
  return mut_ ++ (← parts (word "self"))

/-- A parameter of a function pointer, which may have a name.  Only the first
one may be a receiver, and one that stands for any number of arguments is the
last. -/
def pointerParam (g : Grammar) (first : Bool) : Reader (List Part) := do
  let attrs ← attrParts g
  let ts ← get
  let isMutSelf (ts : List TokenTree) : Bool :=
    first && Next.isWord "mut" ts && Next.isWord "self" (ts.drop 1)
  let hasName (ts : List TokenTree) : Bool :=
    (Next.isIdent ts || Next.isWord "_" ts ||
        (first && Next.isWord "self" ts)) &&
      Next.isOp ":" (ts.drop 1) && !Next.isOp "::" (ts.drop 1)
  if isVariadic ts then
    let name ← when Next.isAnyIdent do
      let name ← anyIdent
      return .token (.ident name) :: (← parts (op ":"))
    let dots ← parts (op "...")
    require (← next fun ts => (ts.drop 1).isEmpty)
    return attrs ++ name ++ dots
  else if isMutSelf ts then
    let receiver ← selfInPlace
    let ty ← when (fun ts => Next.isOp ":" ts && !Next.isOp "::" ts) do
      let colon ← parts (op ":")
      return colon ++ (← g.typeParts true)
    return attrs ++ receiver ++ ty
  else if hasName ts then
    let isSelf := Next.isWord "self" ts
    let name ← anyIdent
    let colon ← parts (op ":")
    let ty ←
      if !isSelf && isMutSelf (← get) then selfInPlace
      else g.typeParts true
    return attrs ++ .token (.ident name) :: colon ++ ty
  else return attrs ++ (← g.typeParts true)

def pointerParams (g : Grammar) : Reader (List Part) := do
  if ← next List.isEmpty then return []
  let first ← pointerParam g true
  if ← next List.isEmpty then return first
  let comma ← parts (op ",")
  return first ++ comma ++ (← commaList (pointerParam g false))

def abi : Reader (List Token) := do
  let extern_ ← word "extern"
  if ← next Next.isString then return extern_ ++ (← literal)
  else return extern_

def pointerType (g : Grammar) : Reader (List Part) := do
  let unsafe_ ← parts (optionalWord "unsafe")
  let abi_ ← when (Next.isWord "extern") (parts abi)
  let fn_ ← parts (word "fn")
  let inputs ← groupParts .paren (pointerParams g)
  return unsafe_ ++ abi_ ++ fn_ ++ inputs ++ (← returnType g false)

/-- A type that begins with a path: the path itself, a macro, or the first of
several bounds. -/
def typeFromPath (g : Grammar) (allowPlus : Bool) (lifetimes : List Part) :
    Reader TypeSyntax := do
  let p ← path g true
  if !p.self.isEmpty then return ⟨lifetimes ++ p.parts, .other⟩
  let ts ← get
  match p.toSimple? with
  | some simple =>
      if Next.isBang ts then
        let m ← invocationBehind simple
        return ⟨Part.ofTokens (simple.tokens ++ .punct '!' ::
          Token.group m.delimiter m.body), .other⟩
  | none => pure ()
  if !lifetimes.isEmpty || (allowPlus && Next.isOp "+" ts) then
    let more ← if allowPlus then moreBounds g false false else pure []
    return ⟨lifetimes ++ p.parts ++ joinBounds more,
      if more.isEmpty then .bareBound else .other⟩
  else if !p.absolute && p.segments.length = 1 then
    return ⟨p.parts, .name⟩
  else return ⟨p.parts, .path⟩

def typeDyn (g : Grammar) (allowPlus : Bool) : Reader TypeSyntax := do
  let ((type_, starred), tokens) ← withTokens do
    let dyn_ ← parts (word "dyn")
    let star ← parts (optionalOp "*")
    let bs ← traitBounds g allowPlus false false
    return (dyn_ ++ star ++ joinBounds bs, !star.isEmpty)
  return ⟨if starred then Part.ofTokens tokens else type_, .other⟩

def typeInBrackets (g : Grammar) : Reader TypeSyntax := do
  let inner ← groupParts .bracket do
    let element ← g.typeParts true
    let length ← when (Next.isOp ";") do
      let semi ← parts (op ";")
      return semi ++ (← g.exprPart)
    return element ++ length
  return ⟨inner, .other⟩

def typePointer (g : Grammar) : Reader TypeSyntax := do
  let star ← parts (op "*")
  let mark ←
    if ← next (Next.isWord "const") then parts (word "const")
    else parts (word "mut")
  return ⟨star ++ mark ++ (← g.typeParts false), .other⟩

def typeReference (g : Grammar) : Reader TypeSyntax := do
  let and_ ← parts (op "&")
  let lifetime_ ← when Next.isLifetime lifetimePart
  let mut_ ← parts (optionalWord "mut")
  return ⟨and_ ++ lifetime_ ++ mut_ ++ (← g.typeParts false), .other⟩

def readType (g : Grammar) (allowPlus : Bool) : Reader TypeSyntax := do
  let lifetimes ← when (Next.isWord "for") (boundLifetimes g)
  let ts ← get
  if !lifetimes.isEmpty then
    require (Next.isIdent ts ||
      Next.isWordIn (["fn", "unsafe", "extern"] ++ Ident.pathWords) ts)
  if Next.isGroup .paren ts then typeInParens g allowPlus
  else if Next.isWordIn ["fn", "unsafe", "extern"] ts then
    return ⟨lifetimes ++ (← pointerType g), .other⟩
  else if Next.isPathSegment ts ||
      Next.isOpIn ["::", "<"] ts then
    typeFromPath g allowPlus lifetimes
  else if Next.isWord "dyn" ts then typeDyn g allowPlus
  else if Next.isGroup .bracket ts then typeInBrackets g
  else if Next.isOp "*" ts then typePointer g
  else if Next.isOp "&" ts then typeReference g
  else if Next.isOp "!" ts then return ⟨← parts (op "!"), .other⟩
  else if Next.isWord "impl" ts then
    let impl_ ← parts (word "impl")
    return ⟨impl_ ++ joinBounds (← traitBounds g allowPlus true true), .other⟩
  else if Next.isWord "_" ts then return ⟨← parts (word "_"), .other⟩
  else if Next.isLifetime ts then
    let bs ← traitBounds g allowPlus false false
    return ⟨joinBounds bs, if bs.length = 1 then .bareBound else .other⟩
  else fail

end Grammar
end ScopeExit
