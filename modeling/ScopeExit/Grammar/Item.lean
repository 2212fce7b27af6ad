import ScopeExit.Grammar.Type
import ScopeExit.Grammar.Pattern
import ScopeExit.Syntax.Print

/-!
# Items

Functions, modules, `impl` blocks, traits, imports and definitions, and the
members of `impl` blocks, traits and foreign blocks.  A form that the grammar
accepts without giving it a meaning (a constant without a value, a function
without a body) is kept as plain tokens.
-/

namespace ScopeExit
namespace Grammar

open Reader

/-- What is read of an item behind its outer attributes: its inner attributes
and its kind, or nothing if its tokens are kept as they are. -/
abbrev ItemBody : Type := Option (List Attr × ItemKind)

def opaqueItem (tokens : List Token) : Item :=
  .mk [] (.other (Part.ofTokens tokens))

def itemOf (r : Reader (List Attr × ItemBody)) : Reader Item := do
  let ((attrs, body), tokens) ← withTokens r
  match body with
  | some (inner, kind) => return .mk (attrs ++ inner) kind
  | none => return opaqueItem tokens

def bare (kind : ItemKind) : ItemBody := some ([], kind)

/-- Parts with a `where` clause behind them that governs what stands before
them. -/
def behindClause (body clause : List Part) : List Part :=
  if clause.isEmpty then body else [.clauseLast body clause]

/-!
## Visibility and signatures
-/

def restriction : Reader (List Token) := do
  if ← next (Next.isWord "in") then
    let in_ ← word "in"
    return in_ ++ (← simplePath).tokens
  else
    require (← next (Next.isWordIn ["crate", "self", "super"]))
    return [.ident (← anyIdent)]

/-- A visibility, which may be left out.  Parentheses that are no restriction
belong to what follows. -/
def visibility : Reader (List Token) := do
  if ← next (Next.isWord "pub") then
    let pub_ ← word "pub"
    let ts ← get
    match inside .paren restriction ts with
    | some (tokens, rest) =>
        set rest
        return pub_ ++ Token.group .paren tokens
    | none => return pub_
  else return []

def pastVisibility (ts : List TokenTree) : List TokenTree :=
  match visibility ts with
  | some (_, rest) => rest
  | none => ts

def pastWord (w : String) (ts : List TokenTree) : List TokenTree :=
  if Next.isWord w ts then ts.drop 1 else ts

/-- Whether a signature comes next: the word `fn` behind its qualifiers. -/
def isSignature (allowSafe : Bool) (ts : List TokenTree) : Bool :=
  let ts := pastWord "async" (pastWord "const" ts)
  let ts :=
    if allowSafe && Next.isWord "safe" ts then ts.drop 1
    else pastWord "unsafe" ts
  let ts :=
    if Next.isWord "extern" ts then
      let ts := ts.drop 1
      if Next.isString ts then ts.drop 1 else ts
    else ts
  Next.isWord "fn" ts

structure SignatureSyntax where
  isConst : Bool
  qualifiers : List Token
  name : Ident
  generics : List Part
  inputs : List Part
  output : List Part
  clause : List Part

namespace SignatureSyntax

def head (s : SignatureSyntax) : List Token :=
  wordIf s.isConst "const" ++ s.qualifiers ++ [.word "fn", .ident s.name]

def parts (s : SignatureSyntax) : List Part :=
  s.generics ++ s.inputs ++ s.output ++ s.clause

end SignatureSyntax

def receiver (g : Grammar) : Reader (List Part) := do
  let and_ ← optionalOp "&"
  let lifetime_ ←
    if and_.isEmpty then pure [] else when Next.isLifetime lifetimePart
  let mut_ ← parts (optionalWord "mut")
  let self_ ← parts (word "self")
  let ty ←
    if and_.isEmpty then
      when (Next.isOp ":") do
        let colon ← parts (op ":")
        return colon ++ (← g.typeParts true)
    else pure []
  return Part.ofTokens and_ ++ lifetime_ ++ mut_ ++ self_ ++ ty

/-- The parameters of a function.  The receiver, if there is one, comes
first.  The name of a last parameter that stands for any number of arguments
binds nothing. -/
def functionParams (g : Grammar) : Nat -> (first : Bool) ->
    Reader (List Part)
  | 0, _ => fail
  | fuel + 1, first => do
      if ← next List.isEmpty then return []
      let attrs ← attrParts g
      let finish (ps : List Part) : Reader (List Part) := do
        if ← next List.isEmpty then return ps
        let comma ← parts (op ",")
        return ps ++ comma ++ (← functionParams g fuel false)
      let variadic (ps : List Part) : Reader (List Part) := do
        let dots ← parts (op "...")
        let comma ← when (fun ts => !ts.isEmpty) (parts (op ","))
        return ps ++ dots ++ comma
      let ts ← get
      if Next.isOp "..." ts then variadic attrs
      else
        match receiver g ts with
        | some (self_, rest) =>
            require first
            set rest
            finish (attrs ++ self_)
        | none =>
            if Next.isIdent ts && Next.isOp "<" (ts.drop 1) then
              finish (attrs ++ .token (.word "_") :: .token (.punct ':') ::
                (← g.typeParts true))
            else
              let p ← g.pattern
              let colon ← parts (op ":")
              if ← next (Next.isOp "...") then
                variadic (attrs ++ Part.ofTokens p.pat.tokens ++ colon)
              else
                finish (attrs ++ .pat p.pat :: colon ++ (← g.typeParts true))

def signature (g : Grammar) (allowSafe : Bool) : Reader SignatureSyntax := do
  let const_ ← optionalWord "const"
  let async_ ← optionalWord "async"
  let safe_ ←
    if allowSafe && (← next (Next.isWord "safe")) then word "safe"
    else optionalWord "unsafe"
  let abi_ ← when (Next.isWord "extern") abi
  let _ ← word "fn"
  let name ← ident
  let generics_ ← generics g
  let inputs ← groupParts .paren do
    functionParams g ((← get).length + 1) true
  let output ← returnType g true
  let clause ← whereClause g
  return ⟨!const_.isEmpty, async_ ++ safe_ ++ abi_, name, generics_, inputs,
    output, clause⟩

def functionBody (g : Grammar) :
    Reader (Option (List Attr × List Stmt)) := do
  if ← next (Next.isOp ";") then
    let _ ← op ";"
    return none
  else return some (← blockWithAttrs g)

/-- A function behind its visibility.  Without a body it has no meaning
here. -/
def functionItem (g : Grammar) (before : List Token) : Reader ItemBody := do
  let s ← signature g false
  match ← functionBody g with
  | some (attrs, body) =>
      return some (attrs, .function before s.isConst s.qualifiers s.name
        s.parts body)
  | none => return none

/-!
## Imports
-/

/-- What is read of an import tree.  A tree with a group in which a member
begins with two colons has no meaning here and is read as nothing. -/
abbrev UseSyntax : Type := Option UseTree

def newName : Reader Ident := do
  require (← next fun ts => Next.isIdent ts || Next.isWord "_" ts)
  anyIdent

def useMembers (member : Reader UseSyntax) :
    Nat -> Reader (Option (List UseTree) × Bool)
  | 0 => fail
  | fuel + 1 => do
      if ← next List.isEmpty then return (some [], false)
      let first ← member
      if ← next List.isEmpty then return (first.map ([·]), false)
      let _ ← op ","
      if ← next List.isEmpty then return (first.map ([·]), true)
      let (rest, trailing) ← useMembers member fuel
      return ((do return (← first) :: (← rest)), trailing)

/-- A member of a group, given the reader of trees.  Only a tree that is not
yet below a name may begin with two colons. -/
def useMember (allowRoot : Bool) (tree : Bool -> Reader UseSyntax) :
    Reader UseSyntax := do
  if allowRoot && (← next (Next.isOp "::")) then
    let _ ← op "::"
    let _ ← tree false
    return none
  else tree allowRoot

/-- An import tree.  Members of a group may begin with two colons only where
`allowRoot` says that the tree is not yet below a name. -/
def useTreeFuel : Nat -> (allowRoot : Bool) -> Reader UseSyntax
  | 0, _ => fail
  | fuel + 1, allowRoot => do
      let ts ← get
      if Next.isIdent ts ||
          Next.isWordIn ["self", "super", "crate", "try"] ts then
        let name ← anyIdent
        let ts ← get
        if Next.isOp "::" ts then
          let _ ← op "::"
          return (← useTreeFuel fuel false).map (.path name)
        else if Next.isWord "as" ts then
          let _ ← word "as"
          return some (.rename name (← newName))
        else return some (.leaf name)
      else if Next.isOp "*" ts then
        let _ ← op "*"
        return some .glob
      else
        let member := useMember allowRoot (useTreeFuel fuel)
        let (trees, trailing) ← inside .brace do
          useMembers member ((← get).length + 1)
        return trees.map fun trees => .group trees trailing

def importItem (before : List Token) : Reader ItemBody := do
  let use_ ← word "use"
  let led ← optionalOp "::"
  let fuel := (TokenTree.flatten (← get)).length + 1
  let tree ← useTreeFuel fuel led.isEmpty
  let _ ← op ";"
  return tree.bind fun tree =>
    bare (.imports (before ++ use_) (!led.isEmpty) tree)

def externCrateItem (before : List Token) : Reader ItemBody := do
  let extern_ ← word "extern"
  let crate_ ← word "crate"
  let name ← if ← next (Next.isWord "self") then anyIdent else ident
  let renamed ←
    if ← next (Next.isWord "as") then
      let _ ← word "as"
      some <$> newName
    else pure none
  let _ ← op ";"
  return bare (.externCrate (before ++ extern_ ++ crate_) name renamed)

/-!
## Constants and definitions
-/

def value (g : Grammar) : Reader (List Part) :=
  when (Next.isOp "=") do
    let eq ← parts (op "=")
    return eq ++ (← g.exprPart)

def staticItem (g : Grammar) (before : List Token) : Reader ItemBody := do
  let static_ ← word "static"
  let mut_ ← optionalWord "mut"
  let name ← ident
  let ty ← when (fun ts => !Next.isOp "=" ts) do
    let colon ← parts (op ":")
    return colon ++ (← g.typeParts true)
  let init ← value g
  let semi ← parts (op ";")
  if ty.isEmpty || init.isEmpty then return none
  else
    return bare (.constant (before ++ static_ ++ mut_) name
      (ty ++ init ++ semi))

def constantName : Reader Ident := newName

/-- A constant behind its visibility and the like.  Without a value it has a
meaning only where `needsValue` does not ask for one. -/
def constantItem (g : Grammar) (before : List Token) (needsValue : Bool) :
    Reader ItemBody := do
  let const_ ← word "const"
  let name ← constantName
  let generic ← next (Next.isOp "<")
  let _ ← generics g
  let colon ← parts (op ":")
  let ty ← g.typeParts true
  let init ← value g
  let clausal ← next (Next.isWord "where")
  let _ ← whereClause g
  let semi ← parts (op ";")
  if generic || clausal || (needsValue && init.isEmpty) then return none
  else
    return bare (.constant (before ++ const_) name
      (colon ++ ty ++ init ++ semi))

def isNestedFields (ts : List TokenTree) : Bool :=
  Next.isWord "struct" ts ||
    (Next.isWord "union" ts && Next.isGroup .brace (ts.drop 1))

/-- Fields with names, in braces.  A field whose name is an underscore may have
fields of its own in place of a type, which are kept as plain tokens. -/
def namedFieldsFuel (g : Grammar) : Nat -> Reader (List Part)
  | 0 => fail
  | fuel + 1 => groupParts .brace (commaList do
      let attrs ← attrParts g
      let vis ← parts visibility
      let unnamed ← next (Next.isWord "_")
      let name ← if unnamed then anyIdent else ident
      let colon ← parts (op ":")
      let ty ←
        if unnamed && (← next isNestedFields) then do
          let (_, tokens) ← withTokens do
            let _ ← anyIdent
            namedFieldsFuel g fuel
          pure (Part.ofTokens tokens)
        else g.typeParts true
      return attrs ++ vis ++ .token (.ident name) :: colon ++ ty)

def namedFields (g : Grammar) : Reader (List Part) := do
  namedFieldsFuel g ((TokenTree.flatten (← get)).length + 1)

def plainField (g : Grammar) : Reader (List Part) := do
  let attrs ← attrParts g
  let vis ← parts visibility
  return attrs ++ vis ++ (← g.typeParts true)

def plainFields (g : Grammar) : Reader (List Part) :=
  groupParts .paren (commaList (plainField g))

def structItem (g : Grammar) (before : List Token) : Reader ItemBody := do
  let struct_ ← word "struct"
  let name ← ident
  let params ← generics g
  let body ←
    if ← next (Next.isGroup .paren) then
      let fields ← plainFields g
      let clause ← whereClause g
      let semi ← parts (op ";")
      pure (behindClause fields clause ++ semi)
    else
      let clause ← whereClause g
      if ← next (Next.isGroup .brace) then
        pure (clause ++ (← namedFields g))
      else pure (clause ++ (← parts (op ";")))
  return bare (.definition (before ++ struct_) name (params ++ body))

/-- A variant of an enumeration.  A visibility is accepted and not kept. -/
def variant (g : Grammar) : Reader (List Part) := do
  let attrs ← attrParts g
  let _ ← visibility
  let name ← ident
  let ts ← get
  let fields ←
    if Next.isGroup .brace ts then namedFields g
    else if Next.isGroup .paren ts then plainFields g
    else pure []
  return attrs ++ .token (.ident name) :: fields ++ (← value g)

def enumItem (g : Grammar) (before : List Token) : Reader ItemBody := do
  let enum_ ← word "enum"
  let name ← ident
  let params ← generics g
  let clause ← whereClause g
  let body ← groupParts .brace (commaList (variant g))
  return bare (.definition (before ++ enum_) name (params ++ clause ++ body))

def unionItem (g : Grammar) (before : List Token) : Reader ItemBody := do
  let union_ ← word "union"
  let name ← ident
  let params ← generics g
  let clause ← whereClause g
  let body ← namedFields g
  return bare (.definition (before ++ union_) name (params ++ clause ++ body))

inductive ClausePlace where
  | beforeEq
  | afterEq
  | both
  deriving DecidableEq

structure TypeItemSyntax where
  before : List Token
  name : Ident
  generics : List Part
  bounds : List Part
  hasColon : Bool
  first : List Part
  definition : List Part
  last : List Part

def typeItemSyntax (g : Grammar) (before : List Token) (place : ClausePlace) :
    Reader TypeItemSyntax := do
  let type_ ← word "type"
  let name ← ident
  let params ← generics g
  let hasColon ← next (Next.isOp ":")
  let bs ← when (Next.isOp ":") do
    let colon ← parts (op ":")
    let stop (ts : List TokenTree) : Bool :=
      Next.isWord "where" ts || Next.isOpIn ["=", ";"] ts
    let bs ← sepUntil stop "+" (boundParts g)
    return if bs.isEmpty then [] else colon ++ bs
  let early := place ≠ .afterEq && (← next (Next.isWord "where"))
  let first ← if early then whereClause g else pure []
  let definition ← when (Next.isOp "=") do
    let eq ← parts (op "=")
    return eq ++ (← g.typeParts true)
  let last ←
    if place = .beforeEq || early then pure [] else whereClause g
  let _ ← op ";"
  return ⟨before ++ type_, name, params, bs, hasColon, first, definition, last⟩

def semicolon : List Part := [.token (.punct ';')]

def typeItem (g : Grammar) (before : List Token) : Reader ItemBody := do
  let t ← typeItemSyntax g before .beforeEq
  if t.hasColon || t.definition.isEmpty then return none
  else
    return bare (.definition t.before t.name
      (t.generics ++ t.first ++ t.definition ++ semicolon))

/-!
## Macros
-/

/-- The invocation of a macro in the place of an item or member.  Only an item
may have a name behind the exclamation mark. -/
def macroItem (named : Bool) : Reader ItemBody := do
  let path ← simplePath
  let bang ← op "!"
  let name ←
    if named && (← next fun ts => Next.isIdent ts || Next.isWord "try" ts) then
      let i ← anyIdent
      pure [.ident i]
    else pure []
  let braced ← next (Next.isGroup .brace)
  let body ← rawGroup
  let semi ← if braced then pure [] else op ";"
  return bare (.other
    (Part.ofTokens (path.tokens ++ bang ++ name ++ body ++ semi)))

def isMacroPath (ts : List TokenTree) : Bool :=
  Next.isIdent ts || Next.isWordIn ["self", "super", "crate"] ts ||
    Next.isOp "::" ts

/-- The definition of a macro behind its visibility.  It has no meaning
here. -/
def macroDefinition : Reader ItemBody := do
  let _ ← word "macro"
  let _ ← ident
  if ← next (Next.isGroup .paren) then
    let _ ← rawGroup
  require (← next (Next.isGroup .brace))
  let _ ← rawGroup
  return none

/-!
## Members of `impl` blocks, traits and foreign blocks
-/

def implMember (g : Grammar) : Reader Item :=
  itemOf do
    let attrs ← outerAttrs g
    let vis ← visibility
    let ts ← get
    let default_ ←
      if Next.isWord "default" ts && !Next.isOp "!" (ts.drop 1) then
        word "default"
      else pure []
    let before := vis ++ default_
    let ts ← get
    let body ←
      if isSignature false ts then functionItem g before
      else if Next.isWord "const" ts then constantItem g before true
      else if Next.isWord "type" ts then do
        let t ← typeItemSyntax g before .afterEq
        if t.hasColon || t.definition.isEmpty then pure none
        else
          pure (bare (.other (Part.ofTokens t.before ++
            .token (.ident t.name) :: t.generics ++
              behindClause t.definition t.last ++ semicolon)))
      else do
        require (before.isEmpty && isMacroPath ts)
        macroItem false
    return (attrs, body)

/-- A function of a trait behind its attributes.  Where it has no body nothing
in it is analysed, so it is kept as plain tokens. -/
def traitFunction (g : Grammar) (attrs : List Attr) :
    Reader (List Attr × ItemBody) := do
  let s ← signature g false
  match ← functionBody g with
  | some (inner, body) =>
      return (attrs, some (inner, .function [] s.isConst s.qualifiers s.name
        s.parts body))
  | none =>
      return ([], bare (.other (Part.ofTokens (attrsTokens false attrs ++
        s.head ++ partsTokens s.parts ++ [.punct ';']))))

/-- A member of a trait.  With a visibility or the word `default` it has no
meaning here. -/
def traitMember (g : Grammar) : Reader Item :=
  itemOf do
    let attrs ← outerAttrs g
    let vis ← visibility
    let default_ ← optionalWord "default"
    let plain := vis.isEmpty && default_.isEmpty
    let ts ← get
    let (attrs, body) ←
      if isSignature false ts then traitFunction g attrs
      else if Next.isWord "const" ts then do
        pure (attrs, ← constantItem g [] false)
      else if Next.isWord "type" ts then do
        let t ← typeItemSyntax g [] .afterEq
        pure (attrs, bare (.other (Part.ofTokens t.before ++
          .token (.ident t.name) :: t.generics ++
            behindClause (t.bounds ++ t.definition) t.last ++ semicolon)))
      else do
        require (plain && isMacroPath ts)
        pure (attrs, ← macroItem false)
    return (attrs, if plain then body else none)

/-- A function of a foreign block.  Its signature is analysed like any other
part, unless it has a body or is marked as safe. -/
def foreignFunction (g : Grammar) (vis : List Token) : Reader ItemBody := do
  let safe_ ← next fun ts =>
    Next.isWord "safe" (pastWord "async" (pastWord "const" ts))
  let s ← signature g true
  let bodied ← next (Next.isGroup .brace)
  if bodied then
    let _ ← blockWithAttrs g
  else
    let _ ← op ";"
  if safe_ || bodied then return none
  else
    return bare (.other (Part.ofTokens (vis ++ s.head) ++ s.generics ++
      behindClause (s.inputs ++ s.output) s.clause ++ semicolon))

def foreignStatic (g : Grammar) (vis : List Token) : Reader ItemBody := do
  let marked ← next (Next.isWordIn ["unsafe", "safe"])
  if marked then
    let _ ← anyIdent
  let static_ ← word "static"
  let mut_ ← optionalWord "mut"
  let name ← ident
  let colon ← parts (op ":")
  let ty ← g.typeParts true
  let init ← value g
  let semi ← parts (op ";")
  if marked || !init.isEmpty then return none
  else
    return bare (.other (Part.ofTokens (vis ++ static_ ++ mut_) ++
      .token (.ident name) :: colon ++ ty ++ semi))

def foreignMember (g : Grammar) : Reader Item :=
  itemOf do
    let attrs ← outerAttrs g
    let vis ← visibility
    let ts ← get
    let body ←
      if isSignature true ts then foreignFunction g vis
      else if Next.isWord "static" ts ||
          (Next.isWordIn ["unsafe", "safe"] ts &&
            Next.isWord "static" (ts.drop 1)) then
        foreignStatic g vis
      else if Next.isWord "type" ts then do
        let t ← typeItemSyntax g vis .both
        if t.hasColon || !t.definition.isEmpty then pure none
        else
          pure (bare (.other (Part.ofTokens t.before ++
            .token (.ident t.name) :: t.generics ++ t.first ++ t.last ++
              semicolon)))
      else do
        require (vis.isEmpty && isMacroPath ts)
        macroItem false
    return (attrs, body)

def membersWithAttrs (g : Grammar) (member : Reader Item) :
    Reader (List Attr × List Item) :=
  inside .brace do
    let attrs ← innerAttrs g
    return (attrs, ← untilEnd member)

/-!
## Items with members
-/

def moduleItem (g : Grammar) (before : List Token) : Reader ItemBody := do
  let unsafe_ ← optionalWord "unsafe"
  let mod_ ← word "mod"
  let name ← if ← next (Next.isWord "try") then anyIdent else ident
  let before := before ++ unsafe_ ++ mod_
  if ← next (Next.isOp ";") then
    let _ ← op ";"
    return bare (.moduleFile before name)
  else
    let (attrs, items) ← membersWithAttrs g g.item
    return some (attrs, .module before name items)

def traitItem (g : Grammar) (before : List Token) : Reader ItemBody := do
  let unsafe_ ← optionalWord "unsafe"
  let auto_ ← optionalWord "auto"
  let trait_ ← word "trait"
  let name ← ident
  let params ← generics g
  let plain := unsafe_.isEmpty && auto_.isEmpty
  let before := before ++ unsafe_ ++ auto_ ++ trait_
  if plain && (← next (Next.isOp "=")) then
    let eq ← parts (op "=")
    let stop (ts : List TokenTree) : Bool :=
      Next.isWord "where" ts || Next.isOp ";" ts
    let bs ← sepUntil stop "+" (boundParts g)
    let clause ← whereClause g
    let _ ← op ";"
    return bare (.other (Part.ofTokens before ++ .token (.ident name) ::
      params ++ behindClause (eq ++ bs) clause ++ semicolon))
  else
    let bs ← when (Next.isOp ":") do
      let colon ← parts (op ":")
      let stop (ts : List TokenTree) : Bool :=
        Next.isWord "where" ts || Next.isGroup .brace ts
      let bs ← sepUntil stop "+" (boundParts g)
      return if bs.isEmpty then [] else colon ++ bs
    let clause ← whereClause g
    let (attrs, members) ← membersWithAttrs g (traitMember g)
    return some (attrs, .traitDef before name
      (params ++ behindClause bs clause) members)

/-- An `impl` block.  Only the `impl` of a trait may be negative.  The block
has no meaning here if it has a visibility, is
`const`, or is for something else than a trait given by its path. -/
def implItem (g : Grammar) (vis : List Token) : Reader ItemBody := do
  let default_ ← optionalWord "default"
  let unsafe_ ← optionalWord "unsafe"
  let impl_ ← word "impl"
  let params ← if ← next isGenerics then generics g else pure []
  let ts ← get
  let isConst := Next.isWord "const" ts ||
    (Next.isOp "?" ts && Next.isWord "const" (ts.drop 1))
  if isConst then
    let _ ← optionalOp "?"
    let _ ← word "const"
  let ts ← get
  let negative ←
    if Next.isOp "!" ts && !Next.isGroup .brace (ts.drop 1) then
      parts (op "!")
    else pure []
  let first ← g.type true
  let forTrait ← next (Next.isWord "for")
  let subject ← when (Next.isWord "for") do
    let for_ ← parts (word "for")
    return for_ ++ (← g.typeParts true)
  require (forTrait || negative.isEmpty)
  let clause ← whereClause g
  let (attrs, members) ← membersWithAttrs g (implMember g)
  if !vis.isEmpty || isConst || (forTrait && !first.form.isPath) then
    return none
  else
    let header := Part.ofTokens (default_ ++ unsafe_ ++ impl_) ++ params ++
      behindClause (negative ++ first.parts ++ subject) clause
    return some (attrs, .implementation header members)

def foreignParts : Item -> List Part
  | .mk attrs (.other parts) => attrs.map .attr ++ parts
  | _ => []

def foreignItem (g : Grammar) : Reader ItemBody := do
  let unsafe_ ← parts (optionalWord "unsafe")
  let abi_ ← parts abi
  let inner ← groupParts .brace do
    let attrs ← innerAttrs g
    let members ← untilEnd (foreignMember g)
    return attrs.map .attr ++ members.flatMap foreignParts
  return bare (.other (unsafe_ ++ abi_ ++ inner))

/-!
## All items
-/

def itemBody (g : Grammar) : Reader ItemBody := do
  let whole ← get
  let ts := pastVisibility whole
  let second := ts.drop 1
  if isSignature false ts then functionItem g (← visibility)
  else if Next.isWord "extern" ts then
    if Next.isWord "crate" second then externCrateItem (← visibility)
    else foreignItem g
  else if Next.isWord "use" ts then importItem (← visibility)
  else if Next.isWord "static" ts then staticItem g (← visibility)
  else if Next.isWord "const" ts then constantItem g (← visibility) true
  else if Next.isWord "unsafe" ts then
    if Next.isWord "trait" second ||
        (Next.isWord "auto" second && Next.isWord "trait" (ts.drop 2)) then
      traitItem g (← visibility)
    else if Next.isWord "impl" second then implItem g (← visibility)
    else if Next.isWord "mod" second then moduleItem g (← visibility)
    else do
      require (Next.isWord "extern" second)
      foreignItem g
  else if Next.isWord "mod" ts then moduleItem g (← visibility)
  else if Next.isWord "type" ts then typeItem g (← visibility)
  else if Next.isWord "struct" ts then structItem g (← visibility)
  else if Next.isWord "enum" ts then enumItem g (← visibility)
  else if Next.isWord "union" ts && Next.isIdent second then
    unionItem g (← visibility)
  else if Next.isWord "trait" ts ||
      (Next.isWord "auto" ts && Next.isWord "trait" second) then
    traitItem g (← visibility)
  else if Next.isWord "impl" ts ||
      (Next.isWord "default" ts && !Next.isOp "!" second) then
    implItem g (← visibility)
  else if Next.isWord "macro" ts then do
    let _ ← visibility
    macroDefinition
  else do
    require (whole.length = ts.length && isMacroPath ts)
    macroItem true

def readItem (g : Grammar) : Reader Item :=
  itemOf do
    let attrs ← outerAttrs g
    return (attrs, ← itemBody g)

end Grammar
end ScopeExit
