import ScopeExit.Source.Lexer
import ScopeExit.Syntax.UseTree

/-!
# The arguments of the attribute

The arguments name the path at which the runtime crate is reached.  They are
either empty or

    crate = "path"

with an optional comma behind it.  A second entry is always refused: if it is
well formed, it repeats the only setting that there is.

Every refusal has a cause of its own.  Some causes are worded differently where
the text ends; `atEnd` says so.
-/

namespace ScopeExit

inductive ArgumentError where
  | noName
  | literalName
  | strayName
  | nameSegment (atEnd : Bool)
  | unsupported
  | duplicate
  | noEquals
  | noString (atEnd : Bool)
  | unreadable
  | noPath (atEnd : Bool)
  | reservedWord (word : String)
  | pathSegment (atEnd : Bool)
  | leftover
  | suffix (text : String)
  | noComma
  deriving DecidableEq

namespace ArgumentError

/-- The text of a complaint that says first that the input ends, if it does. -/
def worded (atEnd : Bool) (text : String) : String :=
  if atEnd then "unexpected end of input, " ++ text else text

def message : ArgumentError -> String
  | noName => worded true "expected nested attribute"
  | literalName => "unexpected literal in nested attribute, expected ident"
  | strayName => "unexpected token in nested attribute, expected ident"
  | nameSegment atEnd => worded atEnd "expected ident"
  | unsupported => "unsupported argument, expected `crate = \"path\"`"
  | duplicate => "duplicate `crate` argument"
  | noEquals => "expected `=`"
  | noString atEnd => worded atEnd "expected string literal"
  | unreadable => "cannot parse string into token stream"
  | noPath atEnd => worded atEnd "expected identifier"
  | reservedWord word =>
      "expected identifier, found keyword `" ++ word ++ "`"
  | pathSegment atEnd => worded atEnd "expected path segment after `::`"
  | leftover => "unexpected token"
  | suffix text => "unexpected suffix `" ++ text ++ "` on string literal"
  | noComma => "expected `,`"

end ArgumentError

namespace Arguments

/-!
## Paths

The name of an entry and the path of the runtime are both read up to the first
place where no separator follows.  They differ in the words that may be a
segment, and in how a missing segment is reported.
-/

def pastSeparator? : List TokenTree -> Option (List TokenTree)
  | .leaf (.punct ':') _ true :: .leaf (.punct ':') _ _ :: rest => some rest
  | _ => none

def segments (admitted : Ident -> Bool) (missing : Bool -> ArgumentError) :
    List TokenTree -> Except ArgumentError (List Ident × List TokenTree)
  | .leaf (.punct ':') _ true :: .leaf (.punct ':') _ _ ::
      .leaf (.ident i) _ _ :: rest =>
      if admitted i then
        match segments admitted missing rest with
        | .ok (more, rest) => .ok (i :: more, rest)
        | .error e => .error e
      else .error (missing false)
  | .leaf (.punct ':') _ true :: .leaf (.punct ':') _ _ :: rest =>
      .error (missing rest.isEmpty)
  | ts => .ok ([], ts)

def beginsWithLiteral : List TokenTree -> Bool
  | .leaf (.literal _) _ _ :: _ => true
  | .leaf (.punct '-') _ _ :: .leaf (.literal text) _ _ :: _ =>
      Literal.isNumber text
  | _ => false

/-- The name of an entry: any words, keywords among them. -/
def entryName (ts : List TokenTree) :
    Except ArgumentError (SimplePath × List TokenTree) :=
  let absolute := (pastSeparator? ts).isSome
  match (pastSeparator? ts).getD ts with
  | .leaf (.ident i) _ _ :: rest => do
      let (more, rest) ← segments (fun _ => true) .nameSegment rest
      return (⟨absolute, i :: more⟩, rest)
  | [] => .error .noName
  | ts =>
      .error (if beginsWithLiteral ts then .literalName else .strayName)

def modulePath (ts : List TokenTree) :
    Except ArgumentError (SimplePath × List TokenTree) :=
  let absolute := (pastSeparator? ts).isSome
  match (pastSeparator? ts).getD ts with
  | .leaf (.ident i) _ _ :: rest =>
      if i.isPathSegment then do
        let (more, rest) ← segments Ident.isPathSegment .pathSegment rest
        return (⟨absolute, i :: more⟩, rest)
      else .error (.reservedWord i.text)
  | ts => .error (.noPath ts.isEmpty)

/-!
## Entries
-/

/-- The path that the value of a string literal is. -/
def pathOfValue (value : String) : Except ArgumentError SimplePath :=
  match TokenTree.ofText? value with
  | some ts => do
      let (path, rest) ← modulePath ts
      if rest.isEmpty then return path else .error .leftover
  | none => .error .unreadable

/-- The path of the runtime behind the name of its entry. -/
def pathSetting : List TokenTree ->
    Except ArgumentError (SimplePath × List TokenTree)
  | .leaf (.punct '=') _ _ :: .leaf (.literal text) _ _ :: rest =>
      match Literal.string? text with
      | some (value, suffix) => do
          let path ← pathOfValue value
          if suffix = "" then return (path, rest) else .error (.suffix suffix)
      | none => .error (.noString false)
  | .leaf (.punct '=') _ _ :: rest => .error (.noString rest.isEmpty)
  | _ => .error .noEquals

def settingName : SimplePath := ⟨false, [.plain "crate"]⟩

def defaultRuntime : SimplePath := ⟨true, [.plain "deferred"]⟩

def runtime : List TokenTree -> Except ArgumentError SimplePath
  | [] => .ok defaultRuntime
  | ts => do
      let (name, rest) ← entryName ts
      if name ≠ settingName then .error .unsupported
      else
        let (path, rest) ← pathSetting rest
        match rest with
        | [] => return path
        | [.leaf (.punct ',') _ _] => return path
        | .leaf (.punct ',') _ _ :: more =>
            let (second, _) ← entryName more
            .error (if second = settingName then .duplicate else .unsupported)
        | _ => .error .noComma

end Arguments
end ScopeExit
