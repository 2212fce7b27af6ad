/-!
# Tokens of Rust source text

Source code is handled at the level of tokens.  Text is read into
*token trees*, in which every delimited group is one tree and every leaf knows
where it stood; code is written as a flat list of *tokens* without positions.
The flat list is what two pieces of code are compared by.
-/

namespace ScopeExit

/-- A place in a text: lines count from one, columns (in characters) from
zero. -/
structure Position where
  line : Nat
  column : Nat
  deriving DecidableEq

namespace Position

def origin : Position := ⟨1, 0⟩

def after (p : Position) (c : Char) : Position :=
  if c = '\n' then ⟨p.line + 1, 0⟩ else ⟨p.line, p.column + 1⟩

def afterAll (p : Position) (cs : List Char) : Position :=
  cs.foldl after p

@[simp] theorem afterAll_nil (p : Position) : p.afterAll [] = p := rfl

@[simp] theorem afterAll_cons (p : Position) (c : Char) (cs : List Char) :
    p.afterAll (c :: cs) = (p.after c).afterAll cs := rfl

end Position

/-!
## Identifiers

An identifier may be written raw, as in `r#type`.  The name is the same either
way; the spelling differs, and a raw identifier is never a keyword.
-/

/-- An identifier or keyword: its name, and whether it is written raw. -/
structure Ident where
  raw : Bool
  name : String
  deriving DecidableEq

namespace Ident

def plain (name : String) : Ident := ⟨false, name⟩

def text (i : Ident) : String :=
  if i.raw then "r#" ++ i.name else i.name

/-- Words that are not identifiers unless written raw. -/
def reserved : List String :=
  ["_", "abstract", "as", "async", "await", "become", "box", "break",
    "const", "continue", "crate", "do", "dyn", "else", "enum", "extern",
    "false", "final", "fn", "for", "if", "impl", "in", "let", "loop",
    "macro", "match", "mod", "move", "mut", "override", "priv", "pub",
    "ref", "return", "Self", "self", "static", "struct", "super", "trait",
    "true", "try", "type", "typeof", "unsafe", "unsized", "use", "virtual",
    "where", "while", "yield"]

def isReserved (i : Ident) : Bool :=
  !i.raw && reserved.contains i.name

/-- Reserved words that may nevertheless be segments of a path. -/
def pathWords : List String := ["super", "self", "Self", "crate"]

def isPathSegment (i : Ident) : Bool :=
  !i.isReserved || pathWords.contains i.name

/-- Whether the identifier is exactly this word, and not its raw spelling. -/
def isWord (i : Ident) (word : String) : Bool :=
  !i.raw && i.name == word

end Ident

/-!
## Tokens
-/

/-- A token that is not a delimiter.  A lifetime or label is one token, and
punctuation comes one character at a time. -/
inductive Atom where
  | ident (i : Ident)
  | lifetime (name : String)
  | literal (text : String)
  | punct (c : Char)
  deriving DecidableEq

namespace Atom

def text : Atom -> String
  | ident i => i.text
  | lifetime name => "'" ++ name
  | literal text => text
  | punct c => c.toString

end Atom

inductive Delimiter where
  | paren
  | bracket
  | brace
  deriving DecidableEq

namespace Delimiter

def opening : Delimiter -> Char
  | paren => '('
  | bracket => '['
  | brace => '\x7b'

def closing : Delimiter -> Char
  | paren => ')'
  | bracket => ']'
  | brace => '\x7d'

def ofOpening? (c : Char) : Option Delimiter :=
  [paren, bracket, brace].find? fun d => d.opening == c

def ofClosing? (c : Char) : Option Delimiter :=
  [paren, bracket, brace].find? fun d => d.closing == c

end Delimiter

inductive Token where
  | atom (a : Atom)
  | opening (d : Delimiter)
  | closing (d : Delimiter)
  deriving DecidableEq

namespace Token

def text : Token -> String
  | atom a => a.text
  | opening d => d.opening.toString
  | closing d => d.closing.toString

def word (name : String) : Token := atom (.ident (.plain name))

def ident (i : Ident) : Token := atom (.ident i)

def punct (c : Char) : Token := atom (.punct c)

/-- An operator, one token for each of its characters. -/
def operator (s : String) : List Token := s.toList.map punct

def group (d : Delimiter) (body : List Token) : List Token :=
  opening d :: body ++ [closing d]

/-- Whether a token is shown.  A quote is only shown as part of a lifetime. -/
def isShown (t : Token) : Bool := t ≠ punct '\''

/-- The spelling of a list of tokens, one space between neighbours. -/
def flat (ts : List Token) : String :=
  " ".intercalate ((ts.filter isShown).map text)

end Token

/-!
## Token trees
-/

/-- A leaf of source text, or a whole bracketed group.  A leaf is `joint` when
another punctuation character follows it without a gap, which is what makes two
characters one operator. -/
inductive TokenTree where
  | leaf (a : Atom) (pos : Position) (joint : Bool)
  | group (d : Delimiter) (pos : Position) (body : List TokenTree)

namespace TokenTree

def position : TokenTree -> Position
  | leaf _ pos _ => pos
  | group _ pos _ => pos

mutual

def tokens : TokenTree -> List Token
  | leaf a _ _ => [.atom a]
  | group d _ body => .opening d :: (flatten body ++ [.closing d])

def flatten : List TokenTree -> List Token
  | [] => []
  | t :: rest => t.tokens ++ flatten rest

end

@[simp] theorem flatten_append (a b : List TokenTree) :
    flatten (a ++ b) = flatten a ++ flatten b := by
  induction a with
  | nil => simp [flatten]
  | cons t rest ih => simp [flatten, ih]

end TokenTree

end ScopeExit
