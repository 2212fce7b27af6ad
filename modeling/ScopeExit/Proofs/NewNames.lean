import ScopeExit.Proofs.Cutting
import ScopeExit.Proofs.RelativePaths

/-!
# New names that are read

What is read behind the word `as` can stand there, wherever an import is read.
Its reader refuses a reserved word, and among the trees that a text is cut into
there is no raw spelling of a word that is never written raw.  The readers of
what may stand in front of an import, attributes and a visibility, only take
trees away, so all that is left for the import is still such a tree.
-/

namespace ScopeExit

namespace Reader

variable {α β : Type}

/-- Whether a reader of trees that can be spelled gives only what has a
property. -/
def GivesSpelled (r : Reader α) (P : α -> Prop) : Prop :=
  forall ts a rest, (forall t, t ∈ ts -> t.IsSpelled) ->
    r ts = some (a, rest) -> P a

/-- Whether it also leaves such trees. -/
def KeepsSpelled (r : Reader α) (P : α -> Prop) : Prop :=
  forall ts a rest, (forall t, t ∈ ts -> t.IsSpelled) ->
    r ts = some (a, rest) -> P a ∧ forall t, t ∈ rest -> t.IsSpelled

section

variable {r : Reader α} {f : α -> Reader β} {P : α -> Prop} {Q : β -> Prop}

theorem Gives.givesSpelled (h : Gives r P) : GivesSpelled r P :=
  fun ts a rest _ => h ts a rest

theorem givesSpelled_bind (hr : KeepsSpelled r P)
    (hf : forall a, P a -> GivesSpelled (f a) Q) :
    GivesSpelled (r >>= f) Q := by
  intro ts b rest hts h
  rcases exists_of_bind h with ⟨a, mid, ha, hb⟩
  rcases hr ts a mid hts ha with ⟨hP, hmid⟩
  exact hf a hP mid b rest hmid hb

theorem givesSpelled_ite {condition : Prop} [Decidable condition]
    {s : Reader α} (hr : GivesSpelled r P) (hs : GivesSpelled s P) :
    GivesSpelled (if condition then r else s) P := by
  split
  · exact hr
  · exact hs

theorem givesSpelled_get {f : List TokenTree -> Reader β}
    (hf : forall ts, GivesSpelled (f ts) Q) : GivesSpelled (get >>= f) Q :=
  fun ts b rest hts h => hf ts ts b rest hts h

/-!
## Readers that leave trees as they are
-/

theorem KeepsSpelled.givesSpelled (h : KeepsSpelled r P) :
    GivesSpelled r P :=
  fun ts a rest hts ha => (h ts a rest hts ha).1

theorem keepsSpelled_bind (hr : KeepsSpelled r P)
    (hf : forall a, P a -> KeepsSpelled (f a) Q) :
    KeepsSpelled (r >>= f) Q := by
  intro ts b rest hts h
  rcases exists_of_bind h with ⟨a, mid, ha, hb⟩
  rcases hr ts a mid hts ha with ⟨hP, hmid⟩
  exact hf a hP mid b rest hmid hb

theorem keepsSpelled_fail (P : α -> Prop) :
    KeepsSpelled (fail : Reader α) P := by
  intro ts a rest _ h
  cases h

theorem keepsSpelled_pure {a : α} (h : P a) : KeepsSpelled (pure a) P := by
  intro ts b rest hts hb
  cases hb
  exact ⟨h, hts⟩

theorem keepsSpelled_map (h : KeepsSpelled r P) {g : α -> β}
    (hg : forall a, P a -> Q (g a)) : KeepsSpelled (g <$> r) Q := by
  rw [map_eq_pure_bind]
  exact keepsSpelled_bind h fun a ha => keepsSpelled_pure (hg a ha)

theorem keepsSpelled_ite {condition : Prop} [Decidable condition]
    {s : Reader α} (hr : KeepsSpelled r P) (hs : KeepsSpelled s P) :
    KeepsSpelled (if condition then r else s) P := by
  split
  · exact hr
  · exact hs

theorem keepsSpelled_get {f : List TokenTree -> Reader β}
    (hf : forall ts, (forall t, t ∈ ts -> t.IsSpelled) ->
      KeepsSpelled (f ts) Q) : KeepsSpelled (get >>= f) Q :=
  fun ts b rest hts h => hf ts hts ts b rest hts h

theorem keepsSpelled_next (test : List TokenTree -> Bool)
    {f : Bool -> Reader β} (hf : forall answer, KeepsSpelled (f answer) Q) :
    KeepsSpelled (next test >>= f) Q :=
  keepsSpelled_get fun ts _ => hf (test ts)

theorem keepsSpelled_anyIdent : KeepsSpelled anyIdent Ident.IsSpelled := by
  intro ts i rest hts h
  unfold anyIdent at h
  split at h
  · cases h
    rw [List.forall_mem_cons] at hts
    exact ⟨hts.1 _ (List.mem_singleton_self _), hts.2⟩
  · cases h

theorem keepsSpelled_ident : KeepsSpelled ident fun _ => True := by
  intro ts i rest hts h
  unfold ident at h
  split at h
  · split at h
    · cases h
    · cases h
      exact ⟨trivial, (List.forall_mem_cons.mp hts).2⟩
  · cases h

theorem keepsSpelled_word (w : String) :
    KeepsSpelled (word w) fun _ => True := by
  intro ts a rest hts h
  unfold word at h
  split at h
  · split at h
    · cases h
      exact ⟨trivial, (List.forall_mem_cons.mp hts).2⟩
    · cases h
  · cases h

theorem keepsSpelled_op (o : String) : KeepsSpelled (op o) fun _ => True := by
  intro ts a rest hts h
  unfold op at h
  split at h
  · cases h
    exact ⟨trivial, fun t ht => hts t (List.mem_of_mem_drop ht)⟩
  · cases h

theorem keepsSpelled_optionalOp (o : String) :
    KeepsSpelled (optionalOp o) fun _ => True :=
  keepsSpelled_next _ fun _ =>
    keepsSpelled_ite (keepsSpelled_op o) (keepsSpelled_pure trivial)

theorem keepsSpelled_inside (d : Delimiter) (h : GivesSpelled r P) :
    KeepsSpelled (inside d r) P := by
  intro ts a rest hts ha
  unfold inside at ha
  split at ha
  · rw [List.forall_mem_cons] at hts
    split at ha
    · rcases Option.map_eq_some_iff.mp ha with ⟨b, hb, heq⟩
      cases heq
      unfold all? at hb
      split at hb
      · next hread =>
        cases hb
        have hbody := TokenTree.isSpelled_group_iff.mp hts.1
        exact ⟨h _ _ _ hbody hread, hts.2⟩
      · cases hb
    · cases ha
  · cases ha

theorem keepsSpelled_whileNext (test : List TokenTree -> Bool)
    (h : KeepsSpelled r fun _ => True) :
    KeepsSpelled (whileNext test r) fun _ => True := by
  have hfuel : forall fuel,
      KeepsSpelled (whileFuel test r fuel) fun _ => True := by
    intro fuel
    induction fuel with
    | zero => exact keepsSpelled_fail _
    | succ fuel ih =>
        refine keepsSpelled_next _ fun _ => keepsSpelled_ite ?_ ?_
        · exact keepsSpelled_bind h fun a _ => keepsSpelled_bind ih
            fun more _ => keepsSpelled_pure trivial
        · exact keepsSpelled_pure trivial
  exact keepsSpelled_get fun ts _ => hfuel (ts.length + 1)

end

end Reader

namespace Grammar

open Reader

/-!
## Imports
-/

theorem newName_keepsSpelled :
    KeepsSpelled newName fun i => i.isNewName = true := by
  intro ts i rest hts h
  have hread : (require (Next.isIdent ts || Next.isWord "_" ts) >>=
      fun _ => anyIdent) ts = some (i, rest) := h
  rcases exists_of_bind hread with ⟨_, mid, hrequire, hident⟩
  have hname := gives_require ts _ mid hrequire
  rw [hname] at hrequire
  cases hrequire
  rcases keepsSpelled_anyIdent ts i rest hts hident with ⟨hspelled, hrest⟩
  refine ⟨?_, hrest⟩
  unfold anyIdent at hident
  split at hident
  · cases hident
    have hcases : i.isReserved = false ∨ i.isWord "_" = true := by
      simpa [Next.isIdent, Next.isWord] using hname
    have hraw : i.raw = true -> Lexer.neverRaw.contains i.name = false := by
      simpa using hspelled.raw
    rcases hcases with hreserved | hword
    · cases hr : i.raw <;> simp_all [Ident.isNewName]
    · rw [Ident.isNewName, hword, Bool.true_or]
  · cases hident

theorem useMember_keepsSpelled (allowRoot : Bool)
    {tree : Bool -> Reader UseSyntax}
    (h : forall root, KeepsSpelled (tree root)
      fun t => t.all UseTree.hasNewNames = true) :
    KeepsSpelled (useMember allowRoot tree)
      fun t => t.all UseTree.hasNewNames = true := by
  cases allowRoot with
  | false => exact h false
  | true =>
      refine keepsSpelled_next _ fun _ => keepsSpelled_ite ?_ (h true)
      exact keepsSpelled_bind (keepsSpelled_op _) fun _ _ =>
        keepsSpelled_bind (h false) fun _ _ => keepsSpelled_pure rfl

theorem useMembers_keepsSpelled {member : Reader UseSyntax}
    (h : KeepsSpelled member fun t => t.all UseTree.hasNewNames = true)
    (fuel : Nat) :
    KeepsSpelled (useMembers member fuel)
      fun found => found.1.all treesHaveNewNames = true := by
  induction fuel with
  | zero => exact keepsSpelled_fail _
  | succ fuel ih =>
      refine keepsSpelled_next _ fun _ =>
        keepsSpelled_ite (keepsSpelled_pure rfl) ?_
      refine keepsSpelled_bind h fun first hfirst => ?_
      have hsingle : (first.map ([·])).all treesHaveNewNames = true := by
        cases first with
        | none => rfl
        | some t => simpa [treesHaveNewNames] using hfirst
      refine keepsSpelled_next _ fun _ =>
        keepsSpelled_ite (keepsSpelled_pure hsingle) ?_
      refine keepsSpelled_bind (keepsSpelled_op _) fun _ _ => ?_
      refine keepsSpelled_next _ fun _ =>
        keepsSpelled_ite (keepsSpelled_pure hsingle) ?_
      refine keepsSpelled_bind ih fun found hfound => keepsSpelled_pure ?_
      rcases first with _ | t
      · rfl
      · rcases found with ⟨_ | more, trailing⟩
        · rfl
        · exact Bool.and_eq_true_iff.mpr ⟨hfirst, hfound⟩

/-- Import trees are read with new names.  The induction is on the fuel. -/
theorem useTree_keepsSpelled (fuel : Nat) (allowRoot : Bool) :
    KeepsSpelled (useTreeFuel fuel allowRoot)
      fun t => t.all UseTree.hasNewNames = true := by
  induction fuel generalizing allowRoot with
  | zero => exact keepsSpelled_fail _
  | succ fuel ih =>
      refine keepsSpelled_get fun _ _ =>
        keepsSpelled_ite ?_ (keepsSpelled_ite ?_ ?_)
      · refine keepsSpelled_bind keepsSpelled_anyIdent fun name _ => ?_
        refine keepsSpelled_get fun _ _ =>
          keepsSpelled_ite ?_ (keepsSpelled_ite ?_ ?_)
        · refine keepsSpelled_bind (keepsSpelled_op _) fun _ _ => ?_
          refine keepsSpelled_bind (ih false) fun t ht => keepsSpelled_pure ?_
          rw [Option.all_map]
          exact ht
        · refine keepsSpelled_bind (keepsSpelled_word _) fun _ _ => ?_
          exact keepsSpelled_bind newName_keepsSpelled fun newName hnew =>
            keepsSpelled_pure hnew
        · exact keepsSpelled_pure rfl
      · exact keepsSpelled_bind (keepsSpelled_op _) fun _ _ =>
          keepsSpelled_pure rfl
      · have hmembers : GivesSpelled (do
            useMembers (useMember allowRoot (useTreeFuel fuel))
              ((← get).length + 1))
            fun found => found.1.all treesHaveNewNames = true :=
          (keepsSpelled_get fun _ _ => useMembers_keepsSpelled
            (useMember_keepsSpelled allowRoot ih) _).givesSpelled
        refine keepsSpelled_bind (keepsSpelled_inside _ hmembers)
          fun found hfound => keepsSpelled_pure ?_
        rw [Option.all_map]
        exact hfound

/-- Whether any item with this body, if it is an import, has new names. -/
def BodyHasNewNames (body : ItemBody) : Prop :=
  forall inner kind, body = some (inner, kind) ->
    forall attrs, (Item.mk attrs kind).hasNewNames = true

theorem bodyHasNewNames_none : BodyHasNewNames none := by
  intro inner kind h
  cases h

theorem bodyHasNewNames_some {inner : List Attr} {kind : ItemKind}
    (h : forall attrs, (Item.mk attrs kind).hasNewNames = true) :
    BodyHasNewNames (some (inner, kind)) := by
  intro inner' kind' heq
  cases heq
  exact h

theorem importItem_keepsSpelled (before : List Token) :
    KeepsSpelled (importItem before) BodyHasNewNames := by
  refine keepsSpelled_bind (keepsSpelled_word _) fun _ _ => ?_
  refine keepsSpelled_bind (keepsSpelled_optionalOp _) fun _ _ => ?_
  refine keepsSpelled_get fun _ _ => ?_
  refine keepsSpelled_bind (useTree_keepsSpelled _ _) fun tree htree => ?_
  refine keepsSpelled_bind (keepsSpelled_op _) fun _ _ => keepsSpelled_pure ?_
  cases tree with
  | none => exact bodyHasNewNames_none
  | some tree => exact bodyHasNewNames_some fun _ => htree

theorem externCrateItem_keepsSpelled (before : List Token) :
    KeepsSpelled (externCrateItem before) BodyHasNewNames := by
  refine keepsSpelled_bind (keepsSpelled_word _) fun extern_ _ => ?_
  refine keepsSpelled_bind (keepsSpelled_word _) fun crate_ _ => ?_
  -- What follows a test is part of its branches, so the last reader comes first.
  have hfinish : forall name newName,
      newName.all Ident.isNewName = true ->
        KeepsSpelled (do
          let _ ← op ";"
          return bare (.externCrate (before ++ extern_ ++ crate_) name newName))
          BodyHasNewNames := by
    intro name newName hnew
    exact keepsSpelled_bind (keepsSpelled_op _) fun _ _ =>
      keepsSpelled_pure (bodyHasNewNames_some fun _ => hnew)
  have hrenamed : KeepsSpelled (some <$> newName)
      fun name => name.all Ident.isNewName = true :=
    keepsSpelled_map newName_keepsSpelled fun _ hnew => hnew
  have hbehind : forall name, KeepsSpelled (do
      if ← next (Next.isWord "as") then
        let _ ← word "as"
        let newName ← some <$> newName
        let _ ← op ";"
        return bare (.externCrate (before ++ extern_ ++ crate_) name newName)
      else
        let _ ← op ";"
        return bare (.externCrate (before ++ extern_ ++ crate_) name none))
      BodyHasNewNames := by
    intro name
    refine keepsSpelled_next _ fun _ => keepsSpelled_ite ?_ ?_
    · exact keepsSpelled_bind (keepsSpelled_word _) fun _ _ =>
        keepsSpelled_bind hrenamed fun newName hnew => hfinish name newName hnew
    · exact hfinish name none rfl
  refine keepsSpelled_next _ fun _ => keepsSpelled_ite ?_ ?_
  · exact keepsSpelled_bind keepsSpelled_anyIdent fun name _ => hbehind name
  · exact keepsSpelled_bind keepsSpelled_ident fun name _ => hbehind name

/-!
## Items
-/

theorem visibility_keepsSpelled : KeepsSpelled visibility fun _ => True := by
  refine keepsSpelled_next _ fun _ =>
    keepsSpelled_ite ?_ (keepsSpelled_pure trivial)
  refine keepsSpelled_bind (keepsSpelled_word _) fun pub_ _ => ?_
  refine keepsSpelled_get fun ts hts => ?_
  split
  · next tokens rest hread =>
    have hrest := (keepsSpelled_inside .paren
      (gives_any restriction).givesSpelled ts tokens rest hts hread).2
    intro ts' a left _ h
    cases h
    exact ⟨trivial, hrest⟩
  · exact keepsSpelled_pure trivial

theorem outerAttrs_keepsSpelled (g : Grammar) :
    KeepsSpelled (outerAttrs g) fun _ => True :=
  keepsSpelled_whileNext _ <| keepsSpelled_bind (keepsSpelled_op _)
    fun _ _ => keepsSpelled_inside _ (gives_any _).givesSpelled

theorem functionItem_gives (g : Grammar) (before : List Token) :
    Gives (functionItem g before) BodyHasNewNames := by
  refine gives_behind fun s => gives_behind fun body => ?_
  cases body with
  | none => exact gives_pure bodyHasNewNames_none
  | some body => exact gives_pure (bodyHasNewNames_some fun _ => rfl)

/-- Of the readers of what stands behind the attributes of an item only two give
imports.  What each of the others gives ends in an item of a kind without new
names, or in nothing. -/
theorem itemBody_givesSpelled (g : Grammar) :
    GivesSpelled (itemBody g) BodyHasNewNames := by
  have hbehind : forall {item : List Token -> Reader ItemBody},
      (forall before, KeepsSpelled (item before) BodyHasNewNames) ->
        GivesSpelled (do item (← visibility)) BodyHasNewNames :=
    fun hitem => givesSpelled_bind visibility_keepsSpelled
      fun before _ => (hitem before).givesSpelled
  refine givesSpelled_get fun whole => ?_
  -- One goal for each reader but those of imports, in the order of the tests.
  repeat' first
    | exact hbehind importItem_keepsSpelled
    | exact hbehind externCrateItem_keepsSpelled
    | apply givesSpelled_ite
  all_goals apply Gives.givesSpelled
  · exact gives_behind (functionItem_gives g)
  -- The rest end in what they give, behind other readers and tests.
  all_goals repeat' first
    | refine gives_behind fun _ => ?_
    | refine gives_ite ?_ ?_
    | exact gives_pure bodyHasNewNames_none
    | exact gives_pure (bodyHasNewNames_some fun _ => rfl)

theorem itemOf_givesSpelled {r : Reader (List Attr × ItemBody)}
    (h : GivesSpelled r fun found => BodyHasNewNames found.2) :
    GivesSpelled (itemOf r) fun i => i.hasNewNames = true := by
  intro ts i rest hts hread
  rcases exists_of_bind hread with ⟨⟨⟨attrs, body⟩, tokens⟩, mid, hbody, hitem⟩
  have hnew : BodyHasNewNames body := by
    rcases exists_of_bind hbody with ⟨_, _, hget, hbody⟩
    cases hget
    rcases exists_of_bind hbody with ⟨found, _, hfound, hbody⟩
    cases hbody
    exact h ts _ _ hts hfound
  rcases body with _ | ⟨inner, kind⟩
  · cases hitem
    rfl
  · cases hitem
    exact hnew _ _ rfl _

/-- Whatever item is read has new names where it is an import, with any readers
of what is in the item. -/
theorem readItem_givesSpelled (g : Grammar) :
    GivesSpelled (readItem g) fun i => i.hasNewNames = true := by
  apply itemOf_givesSpelled
  refine givesSpelled_bind (outerAttrs_keepsSpelled g) fun attrs _ => ?_
  intro ts found rest hts hread
  rcases exists_of_bind hread with ⟨body, mid, hbody, hpure⟩
  cases hpure
  exact itemBody_givesSpelled g ts body _ hts hbody

end Grammar

theorem Item.hasNewNames_of_ofText? {text : String} {i : Item}
    (h : ofText? text = some i) : i.hasNewNames = true := by
  rcases Option.bind_eq_some_iff.mp h with ⟨ts, hts, hread⟩
  unfold ofTrees? Grammar.read? Reader.all? at hread
  split at hread
  · next hitem =>
    cases hread
    exact Grammar.readItem_givesSpelled _ ts i []
      (TokenTree.isSpelled_of_ofText? hts) hitem
  · cases hread

end ScopeExit
