import ScopeExit.Proofs.Accounts

/-!
# All or nothing

Blocks are guarded before it is known whether anything is wrong further on.
Nothing of that is seen if there is an error: then the item is left as it is
written, and the errors stand in front of it.
-/

namespace ScopeExit

namespace Item

end Item

section

variable {argsText itemText : String} {args item : List TokenTree} {i : Item}

end

end ScopeExit
