import ScopeExit.Expansion.Arguments
import ScopeExit.Guarding.Tree

/-!
# Expansions

The attribute replaces an item by the guarded item, or leaves it as it is
written and puts an error in front of it for each thing that is wrong.  Nothing
is ever changed by half.
-/

namespace ScopeExit

/-- What keeps an item from being expanded: refused arguments, an item without
bodies, a module whose items stand elsewhere, or a fault of its registrations. -/
inductive ExpansionError where
  | arguments (e : ArgumentError)
  | target
  | moduleFile
  | fault (f : Fault)
  deriving DecidableEq

namespace ExpansionError

def message : ExpansionError -> String
  | arguments e => e.message
  | target =>
      "`#[deferred]` can only be applied to a function, impl block, " ++
        "trait or inline module"
  | moduleFile =>
      "`#[deferred]` on a module requires an inline body: " ++
        "`mod name \x7b ... \x7d`"
  | fault f => f.message

/-- The code that reports an error to whoever compiles it. -/
def tokens (e : ExpansionError) : List Token :=
  pathSeparator ++ .word "core" :: pathSeparator ++
    .word "compile_error" :: .punct '!' ::
      Token.group .brace [.atom (.literal (Literal.ofString e.message))]

end ExpansionError

namespace Item

def targetError? : Item -> Option ExpansionError
  | .mk _ (.function _ _ _ _ _ _) => none
  | .mk _ (.implementation _ _) => none
  | .mk _ (.traitDef _ _ _ _) => none
  | .mk _ (.module _ _ _) => none
  | .mk _ (.moduleFile _ _) => some .moduleFile
  | .mk _ _ => some .target

/-- An item with guards in place of its registrations, for a runtime at the
given path. -/
def guardedAt (runtime : SimplePath) (i : Item) : Report Item :=
  i.guarded (.root runtime.toPath)

def expanded (args : List TokenTree) (i : Item) :
    Except (List ExpansionError) Item :=
  match Arguments.runtime args with
  | .error e => .error [.arguments e]
  | .ok runtime =>
      match i.targetError? with
      | some e => .error [e]
      | none =>
          let report := i.guardedAt runtime
          if report.faults.isEmpty then .ok report.value
          else .error (report.faults.map .fault)

end Item

/-- The code in place of an item with the attribute, if it is an item. -/
def expansion? (args item : List TokenTree) : Option (List Token) :=
  (Item.ofTrees? item).map fun i =>
    match i.expanded args with
    | .ok i => i.tokens
    | .error errors =>
        errors.flatMap ExpansionError.tokens ++ TokenTree.flatten item

/-!
## Texts

The arguments and the item are given as texts.  Unbalanced brackets and the like
make either of them unreadable.
-/

/-- Which of the two texts cannot be read. -/
inductive Unreadable where
  | item
  | arguments
  deriving DecidableEq

/-- The expansion of an item in text.  Both texts have to be tokens before the
item is read as one. -/
def expandText (args item : String) : Except Unreadable (List Token) :=
  match TokenTree.ofText? item, TokenTree.ofText? args with
  | none, _ => .error .item
  | some _, none => .error .arguments
  | some item, some args =>
      match expansion? args item with
      | some tokens => .ok tokens
      | none => .error .item

def readRequest (args item : String) :
    Except Unreadable (List TokenTree × Item) :=
  match Item.ofText? item, TokenTree.ofText? args with
  | none, _ => .error .item
  | some _, none => .error .arguments
  | some i, some args => .ok (args, i)

end ScopeExit
