import ScopeExit.Proofs.Surroundings

/-!
# Members

An `impl` or a trait has nothing of its own that its members could see, and the
members see nothing of each other.  So expanding one of them comes to expanding
each of its members alone.
-/

namespace ScopeExit

namespace ScopeStack

theorem seals_root (runtime : Path) : Seals [] (root runtime) := by
  intro name typesOnly
  change lookupIn name typesOnly false (root runtime).scopes =
    lookupIn name true false (root runtime).scopes
  by_cases h : name = sentinelName
  · simp [scopes, root, lookupIn, Frame.get?_bind, h]
  · simp [scopes, root, lookupIn, Frame.get?_bind, h]

theorem seals_pushBarrier (s : ScopeStack) : Seals [] s.pushBarrier := by
  intro name typesOnly
  change s.pushBarrier.lookup name typesOnly = s.pushBarrier.lookup name true
  rw [lookup_pushBarrier, lookup_pushBarrier]

theorem sameExits_pushBarrier (p : String -> Prop) (s : ScopeStack) :
    SameExits p s.pushBarrier s := by
  constructor
  · rfl
  · intro path _
    have hsame : s.pushBarrier.pushBarrier.resolve path =
        s.pushBarrier.resolve path := by
      apply resolve_congr rfl
      intro name typesOnly
      rw [lookup_pushBarrier, lookup_pushBarrier]
    rw [hsame]

end ScopeStack

theorem itemsGuarded_eq (c : Context) (is : List Item) :
    itemsGuarded c is =
      ⟨is.map fun i => (i.guarded c).value,
        is.flatMap fun i => (i.guarded c).faults⟩ := by
  induction is with
  | nil => rfl
  | cons i rest ih =>
      rw [itemsGuarded, ih]
      simp [bind, pure]

namespace Item

theorem guarded_boundary (runtime : SimplePath) (m : Item) :
    m.guarded ((Context.root runtime.toPath).cross .boundary) =
      m.guardedAt runtime := by
  have hnames : AllNames (fun _ => True) (Node.item m).tokens :=
    fun _ _ => trivial
  have hagreed : (Node.item m).Agreed
      ((Context.root runtime.toPath).cross .boundary)
      (.root runtime.toPath) :=
    Node.agreed_of_sealed rfl rfl rfl
      (ScopeStack.seals_pushBarrier (.root runtime.toPath))
      (ScopeStack.seals_root runtime.toPath)
      (ScopeStack.sameExits_pushBarrier _ _) hnames
  exact guarded_eq_of_agreed hagreed (Context.opensCall_root runtime)

def members? : Item -> Option (List Item)
  | .mk _ (.implementation _ members) => some members
  | .mk _ (.traitDef _ _ _ members) => some members
  | _ => none

def withMembers (members : List Item) : Item -> Item
  | .mk attrs (.implementation header _) =>
      .mk attrs (.implementation header members)
  | .mk attrs (.traitDef before name header _) =>
      .mk attrs (.traitDef before name header members)
  | i => i

def attrs : Item -> List Attr
  | .mk attrs _ => attrs

theorem guardedAt_eq_of_members (runtime : SimplePath) {i : Item}
    {members : List Item} (hmembers : i.members? = some members)
    (hown : hasOwnExpansion i.attrs = false) :
    (i.guardedAt runtime).value =
        ((i.withMembers []).guardedAt runtime).value.withMembers
          (members.map fun m => (m.guardedAt runtime).value) ∧
      (i.guardedAt runtime).faults =
        ((i.withMembers []).guardedAt runtime).faults ++
          members.flatMap (fun m => (m.guardedAt runtime).faults) ∧
      (i.guardedAt runtime).value.members? =
        some (members.map fun m => (m.guardedAt runtime).value) := by
  have hinside : itemsGuarded ((Context.root runtime.toPath).cross .boundary)
      members =
        ⟨members.map fun m => (m.guardedAt runtime).value,
          members.flatMap fun m => (m.guardedAt runtime).faults⟩ := by
    simp only [itemsGuarded_eq, guarded_boundary]
  rcases i with ⟨as, kind⟩
  have hskip : hasOwnExpansion as = false := hown
  cases kind with
  | implementation header ms =>
      cases hmembers
      have hcontext : forall ms, (Context.root runtime.toPath).inItem
          (.implementation header ms) =
            (Context.root runtime.toPath).cross .boundary := fun _ => rfl
      simp [guardedAt, withMembers, members?, Item.guarded, ItemKind.guarded,
        ItemKind.hasWalkedAttrs, hskip, hcontext, hinside, itemsGuarded]
  | traitDef before name header ms =>
      cases hmembers
      have hcontext : forall ms, (Context.root runtime.toPath).inItem
          (.traitDef before name header ms) =
            (Context.root runtime.toPath).cross .boundary := fun _ => rfl
      simp [guardedAt, withMembers, members?, Item.guarded, ItemKind.guarded,
        ItemKind.hasWalkedAttrs, hskip, hcontext, hinside, itemsGuarded]
  | _ => cases hmembers

/-!
## Methods

A method is a function, in front of which other words may stand.
-/

end Item

/-- A function without the words in front of it, such as its visibility. -/
structure Method where
  attrs : List Attr
  isConst : Bool
  qualifiers : List Token
  name : Ident
  signature : List Part
  body : List Stmt

namespace Method

def item (f : Method) (before : List Token) : Item :=
  .mk f.attrs (.function before f.isConst f.qualifiers f.name f.signature
    f.body)

/-- What stands in front of a function has no say in what becomes of its
body. -/
theorem guardedAt_item (runtime : SimplePath) (f : Method) :
    exists (body : List Stmt) (faults : List Fault),
      forall before : List Token,
        (f.item before).guardedAt runtime =
          ⟨{ f with body := body }.item before, faults⟩ := by
  cases hskip : hasOwnExpansion f.attrs with
  | true =>
      refine ⟨f.body, [], ?_⟩
      intro before
      simp [item, Item.guardedAt, Item.guarded, ItemKind.isExpandable, hskip,
        pure]
  | false =>
      let c := (Context.root runtime.toPath).cross
        (.function f.isConst f.signature)
      let walked := Stmt.walkBlock c f.body fun c => stmtsGuarded c f.body
      refine ⟨walked.value, walked.faults, ?_⟩
      intro before
      have hcontext : (Context.root runtime.toPath).inItem (.function before
          f.isConst f.qualifiers f.name f.signature f.body) = c := rfl
      simp [item, Item.guardedAt, Item.guarded, ItemKind.guarded,
        ItemKind.hasWalkedAttrs, hskip, hcontext, walked, bind, pure]

end Method

namespace Item

/-- Expanding an `impl` or a trait comes to expanding each member alone.  Its
members are those that result, and to the faults that it has without any member
those of the members are added in their order.  A method gets the body that the
function with its attributes, signature and body gets, whatever stands in front
of that function, and the faults of that function are among those of the
whole. -/
theorem guardedAt_members (runtime : SimplePath) {i : Item}
    {members : List Item} (hmembers : i.members? = some members)
    (hown : hasOwnExpansion i.attrs = false) :
    let whole := i.guardedAt runtime
    let empty := (i.withMembers []).guardedAt runtime
    whole.value =
        empty.value.withMembers
          (members.map fun m => (m.guardedAt runtime).value) ∧
      whole.faults =
        empty.faults ++ members.flatMap
          (fun m => (m.guardedAt runtime).faults) ∧
      forall (k : Nat) (f : Method) (before free : List Token),
        members[k]? = some (f.item before) ->
          exists body,
            ((f.item free).guardedAt runtime).value =
                { f with body := body }.item free ∧
              whole.value.members?.bind (fun ms => ms[k]?) =
                some ({ f with body := body }.item before) ∧
              ((f.item free).guardedAt runtime).faults <:+: whole.faults := by
  intro whole empty
  rcases guardedAt_eq_of_members runtime hmembers hown with
    ⟨hvalue, hfaults, hresult⟩
  refine ⟨hvalue, hfaults, ?_⟩
  intro k f before free hmethod
  rcases f.guardedAt_item runtime with ⟨body, faults, hfunction⟩
  refine ⟨body, congrArg Report.value (hfunction free), ?_, ?_⟩
  · rw [hresult, Option.bind_some, List.getElem?_map, hmethod,
      Option.map_some, hfunction before]
  · have hmem := List.mem_map_of_mem (f := fun m =>
      (guardedAt runtime m).faults) (List.mem_of_getElem? hmethod)
    have hpart := List.infix_of_mem_flatten hmem
    simp only [hfunction before] at hpart
    rw [hfunction free, hfaults]
    exact hpart.trans (List.suffix_append _ _).isInfix

/-- A method whose registration is refused stands in front of one that declares
another name for the sentinel, which stands for it there only. -/
theorem guardedAt_members_impl :
    let call := fun x => Stmt.expr .origin (.bare (.call
      (.ofIdent (.plain x)) [.expr (.ofIdent (.plain "close"))])) true
    let parens := Part.ofTokens (Token.group .paren [])
    let early : Method :=
      ⟨[], true, [], .plain "early", parens, [call "defer", call "later"]⟩
    let late : Method := ⟨[], false, [], .plain "late", parens,
      [.item (.mk [] (.imports [.word "use"] false (.path (.plain "deferred")
          (.rename (.plain "defer") (.plain "later"))))),
        call "later"]⟩
    let i := Item.mk [] (.implementation
      (Part.ofTokens [.word "impl", .word "Job"])
      [early.item [], late.item [.word "pub"]])
    let runtime : SimplePath := ⟨true, [.plain "deferred"]⟩
    let whole := i.guardedAt runtime
    i.members? = some [early.item [], late.item [.word "pub"]] ∧
      hasOwnExpansion i.attrs = false ∧
      whole.faults = [.constContext .origin] ∧
      exists body,
        ((late.item []).guardedAt runtime).value =
            { late with body := body }.item [] ∧
          whole.value.members?.bind (fun ms => ms[1]?) =
            some ({ late with body := body }.item [.word "pub"]) := by
  intro call parens early late i runtime whole
  have hmembers : i.members? =
      some [early.item [], late.item [.word "pub"]] := rfl
  have hown : hasOwnExpansion i.attrs = false := rfl
  have hfaults : whole.faults = [.constContext .origin] := by
    decide +kernel
  rcases (guardedAt_members runtime hmembers hown).2.2 1 late [.word "pub"] []
    rfl with ⟨body, hfree, hmethod, _⟩
  exact ⟨hmembers, hown, hfaults, body, hfree, hmethod⟩

end Item
end ScopeExit
