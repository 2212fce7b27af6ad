import ScopeExit.Source.Literal
import ScopeExit.Syntax.Basic

/-!
# Readers over token trees

A reader takes token trees off the front of a list or refuses.  What decides
between two ways of reading is a test on the trees that come next; those tests
are the functions of the namespace `Next`.

An operator of several characters is there only if all its characters but the
last are joint.  A test for an operator of one character also succeeds on a
longer operator that begins with it.
-/

namespace ScopeExit

namespace Next

def isAnyIdent : List TokenTree -> Bool
  | .leaf (.ident _) _ _ :: _ => true
  | _ => false

def isIdent : List TokenTree -> Bool
  | .leaf (.ident i) _ _ :: _ => !i.isReserved
  | _ => false

/-- The next tree is an identifier or a reserved word that may be a segment of
a path. -/
def isPathSegment : List TokenTree -> Bool
  | .leaf (.ident i) _ _ :: _ => i.isPathSegment
  | _ => false

def isWord (word : String) : List TokenTree -> Bool
  | .leaf (.ident i) _ _ :: _ => i.isWord word
  | _ => false

def isWordIn (words : List String) (ts : List TokenTree) : Bool :=
  words.any fun w => isWord w ts

def isLifetime : List TokenTree -> Bool
  | .leaf (.lifetime _) _ _ :: _ => true
  | _ => false

def isLiteralToken : List TokenTree -> Bool
  | .leaf (.literal _) _ _ :: _ => true
  | _ => false

def isString : List TokenTree -> Bool
  | .leaf (.literal text) _ _ :: _ => Literal.isString text
  | _ => false

def isNegative : List TokenTree -> Bool
  | .leaf (.punct '-') _ _ :: .leaf (.literal text) _ _ :: _ =>
      Literal.isNumber text
  | _ => false

/-- A literal value comes next: a literal token, a truth value, or a number
behind a minus sign. -/
def isLiteral (ts : List TokenTree) : Bool :=
  isLiteralToken ts || isWordIn ["true", "false"] ts || isNegative ts

def isGroup (d : Delimiter) : List TokenTree -> Bool
  | .group d' _ _ :: _ => d' == d
  | _ => false

def isAnyGroup : List TokenTree -> Bool
  | .group .. :: _ => true
  | _ => false

def isChars : List Char -> List TokenTree -> Bool
  | [], _ => true
  | c :: cs, .leaf (.punct d) _ joint :: rest =>
      c == d && (cs.isEmpty || joint) && isChars cs rest
  | _ :: _, _ => false

def isOp (op : String) (ts : List TokenTree) : Bool := isChars op.toList ts

def isOpIn (ops : List String) (ts : List TokenTree) : Bool :=
  ops.any fun o => isOp o ts

/-- A dot comes next that does not begin a range. -/
def isDot (ts : List TokenTree) : Bool := isOp "." ts && !isOp ".." ts

/-- An exclamation mark comes next that is not part of an inequality. -/
def isBang (ts : List TokenTree) : Bool := isOp "!" ts && !isOp "!=" ts

end Next

/-- A reader of syntax: it takes trees off the front, or refuses. -/
abbrev Reader (α : Type) : Type := StateT (List TokenTree) Option α

namespace Reader

variable {α : Type}

def fail : Reader α := fun _ => none

def require (condition : Bool) : Reader Unit :=
  if condition then pure () else fail

/-- A test on what comes next. -/
def next (test : List TokenTree -> Bool) : Reader Bool := do
  return test (← get)

def position : Reader Position := do
  return ((← get).head?.map TokenTree.position).getD .origin

/-- Read the whole list: nothing may be left. -/
def all? (r : Reader α) (ts : List TokenTree) : Option α :=
  match r ts with
  | some (a, []) => some a
  | _ => none

/-- The tokens that a reader takes, besides what it gives. -/
def withTokens (r : Reader α) : Reader (α × List Token) := do
  let before ← get
  let a ← r
  let after ← get
  return (a, TokenTree.flatten (before.take (before.length - after.length)))

/-!
## Single trees
-/

def atom : Reader Atom
  | .leaf a _ _ :: rest => some (a, rest)
  | _ => none

def anyIdent : Reader Ident
  | .leaf (.ident i) _ _ :: rest => some (i, rest)
  | _ => none

def ident : Reader Ident
  | .leaf (.ident i) _ _ :: rest => if i.isReserved then none else some (i, rest)
  | _ => none

def lifetime : Reader String
  | .leaf (.lifetime name) _ _ :: rest => some (name, rest)
  | _ => none

def word (w : String) : Reader (List Token)
  | .leaf (.ident i) _ _ :: rest =>
      if i.isWord w then some ([.word w], rest) else none
  | _ => none

def op (o : String) : Reader (List Token) := fun ts =>
  if Next.isOp o ts then some (Token.operator o, ts.drop o.length) else none

def literal : Reader (List Token) := do
  if ← next Next.isNegative then
    let sign ← op "-"
    return sign ++ [.atom (← atom)]
  else
    require (← next Next.isLiteral)
    return [.atom (← atom)]

/-- The inside of a group in brackets of this kind, which has to be read
whole. -/
def inside (d : Delimiter) (r : Reader α) : Reader α
  | .group d' _ body :: rest =>
      if d' = d then (r.all? body).map fun a => (a, rest) else none
  | _ => none

def anyGroup : Reader (Delimiter × List Token)
  | .group d _ body :: rest => some ((d, TokenTree.flatten body), rest)
  | _ => none

/-!
## What may be left out
-/

/-- What the reader gives if the test holds of what comes next, and nothing
otherwise. -/
def when (test : List TokenTree -> Bool) (r : Reader (List α)) :
    Reader (List α) := do
  if ← next test then r else return []

def optionalWord (w : String) : Reader (List Token) :=
  when (Next.isWord w) (word w)

def optionalOp (o : String) : Reader (List Token) :=
  when (Next.isOp o) (op o)

def optionalLifetime : Reader (Option String) := do
  if ← next Next.isLifetime then return some (← lifetime) else return none

/-!
## Repetition

Repetition is driven by tests.  The fuel is the number of trees that are left
and one more; a round that reads nothing uses it up, and then the reader
refuses.
-/

/-- Rounds as long as the test holds, with the number of rounds bounded. -/
def whileFuel (test : List TokenTree -> Bool) (r : Reader α) :
    Nat -> Reader (List α)
  | 0 => fail
  | fuel + 1 => do
      if ← next test then
        let a ← r
        return a :: (← whileFuel test r fuel)
      else return []

def whileNext (test : List TokenTree -> Bool) (r : Reader α) :
    Reader (List α) := do
  whileFuel test r ((← get).length + 1)

def untilEnd (r : Reader α) : Reader (List α) :=
  whileNext (fun ts => !ts.isEmpty) r

end Reader

/-!
## Lists with separators

The parts of a list and its separators, in order.  A separator may also stand
behind the last element.
-/

def Reader.parts (r : Reader (List Token)) : Reader (List Part) := do
  return Part.ofTokens (← r)

namespace Reader

/-- Elements up to a place where the test holds.  Behind an element that does
not end the list its separator must follow. -/
def sepUntilFuel (stop : List TokenTree -> Bool) (sep : String)
    (element : Reader (List Part)) : Nat -> Reader (List Part)
  | 0 => fail
  | fuel + 1 => do
      if ← next stop then return []
      let first ← element
      if ← next stop then return first
      let between ← parts (op sep)
      return first ++ between ++ (← sepUntilFuel stop sep element fuel)

/-- Elements with separators, up to a place where the test holds. -/
def sepUntil (stop : List TokenTree -> Bool) (sep : String)
    (element : Reader (List Part)) : Reader (List Part) := do
  sepUntilFuel stop sep element ((← get).length + 1)

def commaList (element : Reader (List Part)) : Reader (List Part) :=
  sepUntil List.isEmpty "," element

/-- Elements as long as a separator follows; the test says where no further
element begins. -/
def sepWhileFuel (stop : List TokenTree -> Bool) (sep : String)
    (element : Reader (List Part)) : Nat -> Reader (List Part)
  | 0 => fail
  | fuel + 1 => do
      if ← next stop then return []
      let first ← element
      if ← next (Next.isOp sep) then
        let between ← parts (op sep)
        return first ++ between ++ (← sepWhileFuel stop sep element fuel)
      else return first

/-- Elements as long as a separator follows. -/
def sepWhile (stop : List TokenTree -> Bool) (sep : String)
    (element : Reader (List Part)) : Reader (List Part) := do
  sepWhileFuel stop sep element ((← get).length + 1)

/-- A group whose inside is read as parts, with its brackets. -/
def groupParts (d : Delimiter) (body : Reader (List Part)) :
    Reader (List Part) := do
  let inner ← inside d body
  return .token (.opening d) :: inner ++ [.token (.closing d)]

/-- A group of any kind, its brackets included, as plain tokens. -/
def rawGroup : Reader (List Token) := do
  let (d, body) ← anyGroup
  return Token.group d body

end Reader

end ScopeExit
