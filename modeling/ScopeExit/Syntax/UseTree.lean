import ScopeExit.Source.Token

/-!
# Simple paths and import trees

Paths without generic arguments, as attributes, macro invocations and imports
use them, and the trees of names behind the word `use`.
-/

namespace ScopeExit

def pathSeparator : List Token := Token.operator "::"

structure SimplePath where
  absolute : Bool
  segments : List Ident
  deriving DecidableEq

namespace SimplePath

/-- Segments, each behind a separator; the first one only if `led`. -/
def segmentTokens (led : Bool) : List Ident -> List Token
  | [] => []
  | i :: rest =>
      (if led then pathSeparator else []) ++ .ident i :: segmentTokens true rest

def tokens (p : SimplePath) : List Token :=
  segmentTokens p.absolute p.segments

end SimplePath

/-- What follows the word `use`.  A renamed leaf may have the underscore as its
new name. -/
inductive UseTree where
  | path (name : Ident) (rest : UseTree)
  | leaf (name : Ident)
  | rename (name newName : Ident)
  | glob
  | group (trees : List UseTree) (trailing : Bool)

namespace UseTree

mutual

def tokens : UseTree -> List Token
  | path name rest => .ident name :: (pathSeparator ++ rest.tokens)
  | leaf name => [.ident name]
  | rename name newName => [.ident name, .word "as", .ident newName]
  | glob => [.punct '*']
  | group trees trailing =>
      Token.group .brace
        (listTokens trees ++ if trailing then [.punct ','] else [])

def listTokens : List UseTree -> List Token
  | [] => []
  | [t] => t.tokens
  | t :: rest => t.tokens ++ .punct ',' :: listTokens rest

end

end UseTree

end ScopeExit
