import ScopeExit.Source.IdentChars
import ScopeExit.Source.HiddenChars

/-!
# Literals

A literal is kept as it is spelled.  This module says where a literal that
begins a text ends (`Literal.rest?`), and reads the few values that the program
needs from a spelling: the text of a string and the number of a tuple index.

A recogniser gives what is left of the text behind the literal, or nothing if
the text does not begin with one.
-/

namespace ScopeExit
namespace Literal

/-!
## Escapes

What may follow a backslash.  A text escape names a character; a byte escape
names any byte.  In a string a backslash before a line end skips the blanks
that follow.
-/

def hexValue? (c : Char) : Option Nat :=
  if c.isDigit then some (c.toNat - '0'.toNat)
  else if 'a' <= c && c <= 'f' then some (c.toNat - 'a'.toNat + 10)
  else if 'A' <= c && c <= 'F' then some (c.toNat - 'A'.toNat + 10)
  else none

def charOf? (n : Nat) : Option Char :=
  if h : n.isValidChar then some (Char.ofNatAux n h) else none

def hexPair? : List Char -> Option (Nat × List Char)
  | a :: b :: rest =>
      match hexValue? a, hexValue? b with
      | some x, some y => some (16 * x + y, rest)
      | _, _ => none
  | _ => none

/-- The inside of a braced escape: one to six hexadecimal digits, which
underscores may separate, and the closing brace. -/
def bracedDigits? (count value : Nat) : List Char -> Option (Char × List Char)
  | [] => none
  | c :: rest =>
      if c = '_' && 0 < count then bracedDigits? count value rest
      else if c = '\x7d' && 0 < count then
        (charOf? value).map fun ch => (ch, rest)
      else
        match hexValue? c with
        | some d =>
            if count < 6 then bracedDigits? (count + 1) (16 * value + d) rest
            else none
        | none => none

def simpleEscape? : Char -> Option Char
  | 'n' => some '\n'
  | 'r' => some '\r'
  | 't' => some '\t'
  | '\\' => some '\\'
  | '\'' => some '\''
  | '"' => some '"'
  | '0' => some '\x00'
  | _ => none

def textEscape? : List Char -> Option (Char × List Char)
  | 'x' :: rest =>
      match hexPair? rest with
      | some (n, rest) =>
          if n < 128 then some (Char.ofNat n, rest) else none
      | none => none
  | 'u' :: '\x7b' :: rest => bracedDigits? 0 0 rest
  | c :: rest => (simpleEscape? c).map fun ch => (ch, rest)
  | [] => none

def byteEscape? : List Char -> Option (Char × List Char)
  | 'x' :: rest =>
      (hexPair? rest).map fun (n, rest) => (Char.ofNat n, rest)
  | c :: rest => (simpleEscape? c).map fun ch => (ch, rest)
  | [] => none

/-- The escape behind a backslash, in text that cannot hold the null
character. -/
def terminatedEscape? (cs : List Char) : Option (Char × List Char) :=
  let escape :=
    match cs with
    | 'x' :: _ => byteEscape? cs
    | _ => textEscape? cs
  escape.filter fun (c, _) => c != '\x00'

/-- What a line continuation skips: spaces, tabs and line ends, where a carriage
return has to be followed by a line feed.  Something must follow. -/
def continuation? : List Char -> Option (List Char)
  | '\r' :: '\n' :: rest => continuation? rest
  | '\r' :: _ => none
  | [] => none
  | c :: rest =>
      if c = ' ' || c = '\t' || c = '\n' then continuation? rest
      else some (c :: rest)

/-!
## Quoted text

The characters of a string that is open, up to its closing quote.
-/

/-- The kinds of quoted literals: text, bytes, and text that ends at a null
character. -/
inductive Quoted where
  | text
  | bytes
  | terminated
  deriving DecidableEq

namespace Quoted

def admits : Quoted -> Char -> Bool
  | text, _ => true
  | bytes, c => c.toNat < 128
  | terminated, c => c != '\x00'

def escape? : Quoted -> List Char -> Option (Char × List Char)
  | text => textEscape?
  | bytes => byteEscape?
  | terminated => terminatedEscape?

end Quoted

/-- The value of an open string and what follows its closing quote.  The fuel
is the number of characters that may be looked at. -/
def quotedBody? (kind : Quoted) :
    Nat -> List Char -> Option (List Char × List Char)
  | 0, _ => none
  | _ + 1, [] => none
  | _ + 1, '"' :: rest => some ([], rest)
  | fuel + 1, '\r' :: '\n' :: rest =>
      (quotedBody? kind fuel rest).map fun (v, rest) => ('\n' :: v, rest)
  | _ + 1, '\r' :: _ => none
  | fuel + 1, '\\' :: '\n' :: rest =>
      (continuation? rest).bind (quotedBody? kind fuel)
  | fuel + 1, '\\' :: '\r' :: rest =>
      (continuation? ('\r' :: rest)).bind (quotedBody? kind fuel)
  | fuel + 1, '\\' :: rest =>
      match kind.escape? rest with
      | some (c, rest) =>
          (quotedBody? kind fuel rest).map fun (v, rest) => (c :: v, rest)
      | none => none
  | fuel + 1, c :: rest =>
      if kind.admits c then
        (quotedBody? kind fuel rest).map fun (v, rest) => (c :: v, rest)
      else none

def quoted? (kind : Quoted) (cs : List Char) :
    Option (List Char × List Char) :=
  quotedBody? kind (cs.length + 1) cs

def rawBody? (kind : Quoted) (hashes : Nat) :
    List Char -> Option (List Char × List Char)
  | [] => none
  | '"' :: rest =>
      if rest.take hashes = List.replicate hashes '#' then
        some ([], rest.drop hashes)
      else
        (rawBody? kind hashes rest).map fun (v, rest) => ('"' :: v, rest)
  | '\r' :: '\n' :: rest =>
      (rawBody? kind hashes rest).map fun (v, rest) => ('\n' :: v, rest)
  | c :: rest =>
      if c = '\r' || !kind.admits c then none
      else (rawBody? kind hashes rest).map fun (v, rest) => (c :: v, rest)

/-- A raw string behind its letter: hash signs, at most 255 of them, a quote
and the text. -/
def raw? (kind : Quoted) (cs : List Char) : Option (List Char × List Char) :=
  let hashes := (cs.takeWhile (· == '#')).length
  match cs.drop hashes with
  | '"' :: rest => if hashes <= 255 then rawBody? kind hashes rest else none
  | _ => none

/-!
## Characters and bytes
-/

def character? : List Char -> Option (List Char)
  | '\\' :: rest =>
      match textEscape? rest with
      | some (_, '\'' :: rest) => some rest
      | _ => none
  | _ :: '\'' :: rest => some rest
  | _ => none

def byte? : List Char -> Option (List Char)
  | '\\' :: rest =>
      match byteEscape? rest with
      | some (_, '\'' :: rest) => some rest
      | _ => none
  | c :: '\'' :: rest => if c.toNat < 128 then some rest else none
  | _ => none

/-!
## Numbers

A floating-point number has a point or an exponent; a point that a second point
or a name follows belongs to what comes next.
-/

def pastName (cs : List Char) : List Char :=
  match cs with
  | c :: rest =>
      if IdentChars.isStart c then rest.dropWhile IdentChars.isContinue else cs
  | [] => []

def isDigitOrGap (c : Char) : Bool := c.isDigit || c == '_'

/-- The exponent of a number behind its letter: at most one sign, and at least
one digit. -/
def exponent? (cs : List Char) : Option (List Char) :=
  let unsigned (cs : List Char) : Option (List Char) :=
    let digits := cs.takeWhile isDigitOrGap
    if digits.any Char.isDigit then some (cs.drop digits.length) else none
  match cs.dropWhile (· == '_') with
  | '+' :: rest => unsigned rest
  | '-' :: rest => unsigned rest
  | _ => unsigned cs

def floatDigits? (cs : List Char) : Option (List Char) :=
  match cs with
  | c :: _ =>
      if !c.isDigit then none
      else
        match cs.dropWhile isDigitOrGap with
        | '.' :: rest =>
            match rest with
            | d :: _ =>
                if d = '.' || IdentChars.isStart d then none
                else
                  let rest := rest.dropWhile isDigitOrGap
                  match rest with
                  | e :: more =>
                      if e = 'e' || e = 'E' then
                        some ((exponent? more).getD rest)
                      else some rest
                  | [] => some rest
            | [] => some rest
        | e :: more => if e = 'e' || e = 'E' then exponent? more else none
        | [] => none
  | [] => none

/-- The digits of a whole number: decimal, or behind `0x`, `0o` and `0b` in
another base. -/
def intDigits? (cs : List Char) : Option (List Char) :=
  let digits (base : Nat) (cs : List Char) : Option (List Char) :=
    let run := cs.takeWhile fun c =>
      c == '_' || (c.isDigit || (hexValue? c).any (· < base))
    if run.all fun c => !c.isDigit || (hexValue? c).any (· < base) then
      if run.any (· != '_') && (base != 10 || run.head? != some '_') then
        some (cs.drop run.length)
      else none
    else none
  match cs with
  | '0' :: 'x' :: rest => digits 16 rest
  | '0' :: 'o' :: rest => digits 8 rest
  | '0' :: 'b' :: rest => digits 2 rest
  | _ => digits 10 cs

/-- A number, its suffix included: nothing that belongs to an identifier may
follow. -/
def number? (cs : List Char) : Option (List Char) :=
  let closed (digits : Option (List Char)) : Option (List Char) :=
    (digits.map pastName).filter fun rest =>
      !(rest.head?.any IdentChars.isContinue)
  (closed (floatDigits? cs)).or (closed (intDigits? cs))

/-!
## Where a literal ends
-/

/-- What follows a literal, its suffix included, if the text begins with one. -/
def rest? (cs : List Char) : Option (List Char) :=
  let suffixed (r : Option (List Char × List Char)) : Option (List Char) :=
    r.map fun (_, rest) => pastName rest
  match cs with
  | '"' :: rest => suffixed (quoted? .text rest)
  | 'r' :: rest => suffixed (raw? .text rest)
  | 'b' :: '"' :: rest => suffixed (quoted? .bytes rest)
  | 'b' :: 'r' :: rest => suffixed (raw? .bytes rest)
  | 'b' :: '\'' :: rest => (byte? rest).map pastName
  | 'c' :: '"' :: rest => suffixed (quoted? .terminated rest)
  | 'c' :: 'r' :: rest => suffixed (raw? .terminated rest)
  | '\'' :: rest => (character? rest).map pastName
  | _ => number? cs

/-!
## Values

The text of a string literal with its suffix, and the number of a tuple index.
-/

/-- The value and the suffix of a string literal. -/
def string? (text : String) : Option (String × String) :=
  let read :=
    match text.toList with
    | '"' :: rest => quoted? .text rest
    | 'r' :: rest => raw? .text rest
    | _ => none
  read.map fun (value, suffix) => (String.ofList value, String.ofList suffix)

def isString (text : String) : Bool := (string? text).isSome

def isNumber (text : String) : Bool :=
  text.toList.head?.any Char.isDigit

/-- The number that a tuple index without a suffix denotes. -/
def indexValue? (text : String) : Option Nat :=
  let value (base : Nat) (cs : List Char) : Option Nat :=
    (cs.filter (· != '_')).foldlM (fun n c =>
      ((hexValue? c).filter (· < base)).map fun d => base * n + d) 0
  let n :=
    match text.toList with
    | '0' :: 'x' :: rest => value 16 rest
    | '0' :: 'o' :: rest => value 8 rest
    | '0' :: 'b' :: rest => value 2 rest
    | c :: rest => if c.isDigit then value 10 (c :: rest) else none
    | [] => none
  n.filter (· < 0x100000000)

def isFloat (text : String) : Bool :=
  isNumber text && (floatDigits? text.toList).isSome

/-!
## Writing a string literal
-/

/-- The spelling of one character between quotation marks; `next` is the
character behind it. -/
def escaped (c : Char) (next : Option Char) : String :=
  match c with
  | '\x00' =>
      if next.any fun d => '0' <= d && d <= '7' then "\\x00" else "\\0"
  | '\t' => "\\t"
  | '\n' => "\\n"
  | '\r' => "\\r"
  | '"' => "\\\""
  | '\\' => "\\\\"
  | c =>
      if HiddenChars.isHidden c then
        "\\u\x7b" ++ String.ofList (Nat.toDigits 16 c.toNat) ++ "\x7d"
      else c.toString

def escapedAll : List Char -> String
  | [] => ""
  | c :: rest => escaped c rest.head? ++ escapedAll rest

def ofString (value : String) : String :=
  "\"" ++ escapedAll value.toList ++ "\""

end Literal
end ScopeExit
