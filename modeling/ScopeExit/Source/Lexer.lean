import ScopeExit.Source.Token
import ScopeExit.Source.Literal

/-!
# Reading token trees from text

`TokenTree.ofText?` reads a whole text.  It goes in two steps: the text is cut
into pieces, which are leaves and single brackets, and the pieces are folded
into trees.  Blanks and comments vanish; a documentation comment becomes the
attribute that it abbreviates.
-/

namespace ScopeExit

/-- A leaf of the text, or one bracket. -/
inductive Piece where
  | leaf (a : Atom) (pos : Position) (joint : Bool)
  | opening (d : Delimiter) (pos : Position)
  | closing (d : Delimiter)

namespace Lexer

/-!
## Blanks and comments
-/

/-- Blank characters, in the sense of Unicode. -/
def isBlank (c : Char) : Bool :=
  let n := c.toNat
  (9 <= n && n <= 13) || n == 0x20 || n == 0x85 || n == 0xa0 || n == 0x1680 ||
    (0x2000 <= n && n <= 0x200a) || n == 0x2028 || n == 0x2029 ||
    n == 0x202f || n == 0x205f || n == 0x3000

/-- What separates tokens: blank characters and the two direction marks. -/
def isSeparator (c : Char) : Bool :=
  isBlank c || c == '\u200e' || c == '\u200f'

def splitLine : List Char -> List Char × List Char
  | [] => ([], [])
  | '\n' :: rest => ([], '\n' :: rest)
  | '\r' :: '\n' :: rest => ([], '\r' :: '\n' :: rest)
  | c :: rest =>
      let (line, rest) := splitLine rest
      (c :: line, rest)

/-- The inside of a block comment whose opening mark has been read, and what
follows its closing mark.  Block comments nest; `depth` counts the inner ones
that are open. -/
def splitBlock? (depth : Nat) : List Char -> Option (List Char × List Char)
  | '/' :: '*' :: rest =>
      (splitBlock? (depth + 1) rest).map fun (body, rest) =>
        ('/' :: '*' :: body, rest)
  | '*' :: '/' :: rest =>
      match depth with
      | 0 => some ([], rest)
      | depth + 1 =>
          (splitBlock? depth rest).map fun (body, rest) =>
            ('*' :: '/' :: body, rest)
  | c :: rest =>
      (splitBlock? depth rest).map fun (body, rest) => (c :: body, rest)
  | [] => none

/-- What follows a comment that documents nothing, if the text begins with
one. -/
def pastComment? : List Char -> Option (List Char)
  | '/' :: '/' :: '/' :: '/' :: rest => some (splitLine rest).2
  | '/' :: '/' :: '/' :: _ => none
  | '/' :: '/' :: '!' :: _ => none
  | '/' :: '/' :: rest => some (splitLine rest).2
  | '/' :: '*' :: '*' :: '/' :: rest => some rest
  | '/' :: '*' :: '*' :: '*' :: rest =>
      (splitBlock? 0 ('*' :: '*' :: rest)).map Prod.snd
  | '/' :: '*' :: '*' :: _ => none
  | '/' :: '*' :: '!' :: _ => none
  | '/' :: '*' :: rest => (splitBlock? 0 rest).map Prod.snd
  | _ => none

/-- A documentation comment: whether it documents what encloses it, and its
text. -/
structure DocComment where
  inner : Bool
  text : List Char

def hasNoBareReturn : List Char -> Bool
  | '\r' :: '\n' :: rest => hasNoBareReturn rest
  | '\r' :: _ => false
  | _ :: rest => hasNoBareReturn rest
  | [] => true

/-- The documentation comment that the text begins with, and what follows
it. -/
def docComment? (cs : List Char) : Option (DocComment × List Char) :=
  let found : Option (DocComment × List Char) :=
    match cs with
    | '/' :: '/' :: '!' :: rest =>
        let (line, rest) := splitLine rest
        some (⟨true, line⟩, rest)
    | '/' :: '/' :: '/' :: rest =>
        let (line, rest) := splitLine rest
        some (⟨false, line⟩, rest)
    | '/' :: '*' :: '!' :: rest =>
        (splitBlock? 0 rest).map fun (body, rest) => (⟨true, body⟩, rest)
    | '/' :: '*' :: '*' :: rest =>
        (splitBlock? 0 rest).map fun (body, rest) => (⟨false, body⟩, rest)
    | _ => none
  found.filter fun (doc, _) => hasNoBareReturn doc.text

/-- The attribute that a documentation comment stands for. -/
def DocComment.pieces (doc : DocComment) (pos : Position) : List Piece :=
  let mark (c : Char) : Piece := .leaf (.punct c) pos false
  let value := Literal.ofString (String.ofList doc.text)
  mark '#' :: ((if doc.inner then [mark '!'] else []) ++
    [.opening .bracket pos, .leaf (.ident (.plain "doc")) pos false,
      mark '=', .leaf (.literal value) pos false, .closing .bracket])

/-!
## Punctuation and names
-/

def punctuation : List Char :=
  "~!@#$%^&*-=+|;:,<.>/?'".toList

/-- Whether the text begins with punctuation.  The slash of a comment is
none. -/
def startsPunct : List Char -> Bool
  | '/' :: '/' :: _ => false
  | '/' :: '*' :: _ => false
  | c :: _ => punctuation.contains c
  | [] => false

def name? : List Char -> Option (String × List Char)
  | c :: rest =>
      if IdentChars.isStart c then
        some (String.ofList (c :: rest.takeWhile IdentChars.isContinue),
          rest.dropWhile IdentChars.isContinue)
      else none
  | [] => none

/-- Words that cannot be written raw. -/
def neverRaw : List String := "_" :: Ident.pathWords

def ident? : List Char -> Option (Ident × List Char)
  | 'r' :: '#' :: rest =>
      match name? rest with
      | some (name, rest) =>
          if neverRaw.contains name then none else some (⟨true, name⟩, rest)
      | none => none
  | cs => (name? cs).map fun (name, rest) => (.plain name, rest)

/-- Beginnings that are those of a literal even where no literal follows. -/
def literalOpenings : List (List Char) :=
  ["r\"", "r#\"", "r##", "b\"", "b'", "br\"", "br#", "c\"", "cr\"",
    "cr#"].map String.toList

def opensLiteral (cs : List Char) : Bool :=
  literalOpenings.any fun o => o.isPrefixOf cs

/-- What stands behind a quote that begins no character: a name that no second
quote closes.  Where the name is only the letters in front of a string, the
quote is punctuation of its own. -/
def quoted? (cs : List Char) : Option (Atom × Bool × List Char) :=
  match ident? cs with
  | some (i, rest) =>
      if rest.head? = some '\'' || (rest.head? = some '#' && !i.raw) then none
      else if opensLiteral cs then some (.punct '\'', true, cs)
      else some (.lifetime i.text, false, rest)
  | none => none

/-- The leaf that the text begins with: whether it is joint, and what follows
it. -/
def leaf? (cs : List Char) : Option (Atom × Bool × List Char) :=
  match Literal.rest? cs with
  | some rest =>
      let text := cs.take (cs.length - rest.length)
      some (.literal (String.ofList text), false, rest)
  | none =>
      match cs with
      | '\'' :: rest => quoted? rest
      | c :: rest =>
          if startsPunct cs then some (.punct c, startsPunct rest, rest)
          else if opensLiteral cs then none
          else (ident? cs).map fun (i, rest) => (.ident i, false, rest)
      | [] => none

/-- The literal in place of a value that could not be made.  It is the only one
that begins with a bracket. -/
def failedValue : String := "(/*ERROR*/)"

def pastFailedValue? (cs : List Char) : Option (List Char) :=
  if failedValue.toList.isPrefixOf cs then
    some (cs.drop failedValue.toList.length)
  else none

/-!
## Cutting a text into pieces
-/

/-- The pieces of a text that begins at the given place.  Every step reads at
least one character, so the number of characters is fuel enough. -/
def piecesFrom? : Nat -> Position -> List Char -> Option (List Piece)
  | _, _, [] => some []
  | 0, _, _ :: _ => none
  | fuel + 1, pos, c :: cs =>
      let go (rest : List Char) : Option (List Piece) :=
        let read := (c :: cs).take ((c :: cs).length - rest.length)
        piecesFrom? fuel (pos.afterAll read) rest
      if isSeparator c then go cs
      else
        match pastComment? (c :: cs) with
        | some rest => go rest
        | none =>
        match docComment? (c :: cs) with
        | some (doc, rest) => (go rest).map (doc.pieces pos ++ ·)
        | none =>
        match pastFailedValue? (c :: cs) with
        | some rest =>
            (go rest).map (.leaf (.literal failedValue) pos false :: ·)
        | none =>
        match Delimiter.ofOpening? c with
        | some d => (go cs).map (.opening d pos :: ·)
        | none =>
        match Delimiter.ofClosing? c with
        | some d => (go cs).map (.closing d :: ·)
        | none =>
        match leaf? (c :: cs) with
        | some (a, joint, rest) => (go rest).map (.leaf a pos joint :: ·)
        | none => none

/-- The pieces of a whole text.  A byte order mark in front is passed over, but
it takes up a column. -/
def pieces? (text : String) : Option (List Piece) :=
  match text.toList with
  | '\ufeff' :: cs =>
      piecesFrom? cs.length (Position.origin.after '\ufeff') cs
  | cs => piecesFrom? cs.length .origin cs

/-!
## Folding pieces into trees
-/

structure OpenGroup where
  delimiter : Delimiter
  pos : Position
  before : List TokenTree

/-- The trees of a list of pieces.  `done` holds, newest first, what has been
read inside the innermost open group.  A bracket must close the group that was
opened last, and all groups must be closed at the end. -/
def fold? : List OpenGroup -> List TokenTree -> List Piece ->
    Option (List TokenTree)
  | [], done, [] => some done.reverse
  | _ :: _, _, [] => none
  | stack, done, .leaf a pos joint :: rest =>
      fold? stack (.leaf a pos joint :: done) rest
  | stack, done, .opening d pos :: rest =>
      fold? (⟨d, pos, done⟩ :: stack) [] rest
  | g :: stack, done, .closing d :: rest =>
      if g.delimiter = d then
        fold? stack (.group d g.pos done.reverse :: g.before) rest
      else none
  | [], _, .closing _ :: _ => none

end Lexer

/-- The token trees of a text, if it can be cut into tokens and its brackets
match. -/
def TokenTree.ofText? (text : String) : Option (List TokenTree) :=
  (Lexer.pieces? text).bind (Lexer.fold? [] [])

end ScopeExit
