import Mathlib.Data.List.Perm.Basic
import ScopeExit.Proofs.Changes
import ScopeExit.Proofs.Placement

/-!
# The order of declarations

The items of a block are visible in the whole block, so their order should not
matter.  But they are declared one after the other, and an import is resolved
among the names that are known by then.  The order does not matter for items
with different names, unless one of them imports through the name of another one
and that may be a name of the runtime crate.
-/

namespace ScopeExit

namespace ScopeStack

/-- Whether a name may be one of the runtime crate when some of these
declarations have been made, whichever and in whatever order. -/
inductive MayBeRuntime (s : ScopeStack) (ds : List Declaration) :
    String -> Prop where
  | known {name : String} :
      s.lookup name true = some .runtime -> s.MayBeRuntime ds name
  | crate {name source : String} :
      .externCrate name source ∈ ds -> s.runtime = [source] ->
        s.MayBeRuntime ds name
  | imported {name : String} :
      .imported name s.runtime ∈ ds -> s.MayBeRuntime ds name
  | renamed {name other : String} :
      .imported name [other] ∈ ds -> s.MayBeRuntime ds other ->
        s.MayBeRuntime ds name

/-- Whether it makes no difference to one of these declarations if another one
has been made.  It may be an import through the name of the other one, if that
cannot be one of the runtime crate, or if the import then leads to the same. -/
def Apart (s : ScopeStack) (ds : List Declaration)
    (d e : Declaration) : Prop :=
  forall rest, d.path? = some (e.key :: rest) ->
    s.MayBeRuntime ds e.key ->
      s.classify (s.runtime ++ rest) = s.classify (e.key :: rest)

/-- Whether no declaration of one item makes a difference to one of the
other. -/
def Independent (s : ScopeStack) (ds : List Declaration)
    (i j : Item) : Prop :=
  forall d, d ∈ i.declarations -> forall e, e ∈ j.declarations ->
    s.Apart ds d e ∧ s.Apart ds e d

theorem Independent.symm {s : ScopeStack} {ds : List Declaration}
    {i j : Item} (h : s.Independent ds i j) : s.Independent ds j i := by
  intro e he d hd
  exact And.symm (h d hd e he)

/-!
## Between the declarations
-/

/-- What is known of the stack at any time while the declarations are made. -/
structure Between (s : ScopeStack) (ds : List Declaration)
    (t : ScopeStack) : Prop where
  runtime : t.runtime = s.runtime
  lookup : forall name, t.lookup name true = some .runtime ->
    s.MayBeRuntime ds name

variable {s t : ScopeStack} {ds : List Declaration}

theorem Between.start (s : ScopeStack) (ds : List Declaration) :
    s.Between ds s := by
  constructor
  · rfl
  · intro name hname
    exact .known hname

theorem Between.mayBeRuntime_of_imported (h : s.Between ds t)
    {name : String} {path : List String} (hd : .imported name path ∈ ds)
    (hpath : t.importReferent path = .runtime) :
    s.MayBeRuntime ds name := by
  have hwhole : t.classify path = .runtime -> s.MayBeRuntime ds name := by
    intro heq
    rw [classify_eq_runtime_iff, h.runtime] at heq
    exact .imported (heq ▸ hd)
  match path with
  | [] => exact hwhole hpath
  | [first] =>
      rw [importReferent_cons] at hpath
      split at hpath
      · rename_i hfirst
        exact .renamed hd (h.lookup first hfirst)
      · exact hwhole hpath
  | first :: second :: rest =>
      rw [importReferent_cons] at hpath
      split at hpath
      · rw [classify_eq_runtime_iff] at hpath
        simp at hpath
      · exact hwhole hpath

/-- No declaration makes a name one of the runtime crate that may not be one. -/
theorem Between.declare (h : s.Between ds t) {d : Declaration}
    (hd : d ∈ ds) : s.Between ds (t.declare d) := by
  constructor
  · rw [runtime_declare, h.runtime]
  · intro name hname
    by_cases hkey : name = d.key
    · subst hkey
      cases d with
      | item name =>
          rw [ScopeStack.declare, Declaration.key,
            lookup_bind_self _ _ (by simp)] at hname
          cases hname
      | externCrate name source =>
          apply MayBeRuntime.crate hd
          by_contra hne
          rw [ScopeStack.declare, Declaration.key, h.runtime, if_neg hne,
            lookup_bind_self _ _ (by simp)] at hname
          cases hname
      | imported name path =>
          have hlocal : t.importReferent path ≠ .localVar :=
            classify_ne_localVar t _
          apply h.mayBeRuntime_of_imported hd
          rw [ScopeStack.declare, Declaration.key, bindImport,
            lookup_bind_self _ _ hlocal] at hname
          exact Option.some.inj hname
      | glob path =>
          apply h.lookup
          rw [ScopeStack.declare, bindGlob] at hname
          split at hname
          · by_contra hne
            exact lookup_bindWeak_ne_runtime hne hname
          · exact hname
    · apply h.lookup
      rw [lookup_declare_of_ne t hkey] at hname
      exact hname

theorem Between.declareAll (h : s.Between ds t) {es : List Declaration}
    (hes : forall e, e ∈ es -> e ∈ ds) :
    s.Between ds (t.declareAll es) := by
  induction es generalizing t with
  | nil => exact h
  | cons e rest ih =>
      apply ih (h.declare (hes e List.mem_cons_self))
      intro e' he'
      exact hes e' (List.mem_cons_of_mem e he')

def referent (s : ScopeStack) : Declaration -> Referent
  | .item _ => .item
  | .externCrate _ source =>
      if s.runtime = [source] then .runtime else .item
  | .imported _ path => s.importReferent path
  | .glob path => s.importReferent path

theorem Between.referent_declare (h : s.Between ds t) {d e : Declaration}
    (he : e ∈ ds) (hapart : s.Apart ds d e) :
    (t.declare e).referent d = t.referent d := by
  have himport : forall path, d.path? = some path ->
      (t.declare e).importReferent path = t.importReferent path := by
    intro path hpath
    symm
    apply importReferent_congr (runtime_declare t e).symm
    intro first rest hcons
    rw [hcons] at hpath
    by_cases hkey : first = e.key
    · subst hkey
      by_cases hmay : s.MayBeRuntime ds e.key
      · left
        rw [classify_congr h.runtime, classify_congr h.runtime, h.runtime]
        exact hapart rest hpath hmay
      · right
        constructor
        · intro hbefore
          exact absurd (h.lookup _ hbefore) hmay
        · intro hbehind
          exact absurd ((h.declare he).lookup _ hbehind) hmay
    · right
      rw [lookup_declare_of_ne t hkey]
  cases d with
  | item name => rfl
  | externCrate name source => rw [referent, referent, runtime_declare]
  | imported name path => exact himport path rfl
  | glob path => exact himport path rfl

/-!
## Two declarations that change places
-/

end ScopeStack

def Frame.add (f : Frame) (d : Declaration) (r : Referent) : Frame :=
  match d with
  | .glob _ =>
      if r = .runtime then f.bindWeak sentinelName .sentinel else f
  | d => f.bind d.key r

theorem Frame.barrier_add (f : Frame) (d : Declaration) (r : Referent) :
    (f.add d r).barrier = f.barrier := by
  cases d with
  | glob path =>
      simp only [add]
      split
      · exact f.barrier_bindWeak _ _
      · rfl
  | _ => rfl

theorem Frame.bind_comm (f : Frame) {name other : String}
    (h : name ≠ other) (r q : Referent) :
    ((f.bind name r).bind other q).Alike .same
      ((f.bind other q).bind name r) := by
  refine ⟨rfl, fun x => ?_⟩
  simp only [get?_bind]
  change (if x = other then _ else _) = if x = name then _ else _
  by_cases hother : x = other
  · have hname : x ≠ name := fun heq => h (heq ▸ hother)
    rw [if_pos hother, if_neg hname, if_pos hother]
  · rw [if_neg hother, if_neg hother]

/-- An explicit declaration and a weak one, also of the same name. -/
theorem Frame.bind_bindWeak_comm (f : Frame) (name other : String)
    (r q : Referent) :
    ((f.bind name r).bindWeak other q).Alike .same
      ((f.bindWeak other q).bind name r) := by
  refine ⟨by simp, fun x => ?_⟩
  simp only [get?_bind, get?_bindWeak]
  change (if x = other then _ else _) = if x = name then _ else _
  by_cases hother : x = other
  · by_cases hname : x = name
    · have heq : other = name := hother.symm.trans hname
      simp [hname, heq]
    · have hne : other ≠ name := fun heq => hname (hother.trans heq)
      simp [hother, hne]
  · simp [hother]

theorem Frame.add_comm (f : Frame) {d e : Declaration}
    (hname : forall name, d.name? = some name -> e.name? ≠ some name)
    (r q : Referent) :
    ((f.add d r).add e q).Alike .same ((f.add e q).add d r) := by
  have hnamed : forall name other, d.name? = some name ->
      e.name? = some other ->
        ((f.bind name r).bind other q).Alike .same
          ((f.bind other q).bind name r) := by
    intro name other hd he
    apply f.bind_comm
    intro heq
    exact hname name hd (by rw [heq, he])
  cases d with
  | glob path =>
      cases e with
      | glob path' =>
          simp only [add]
          split <;> split <;> exact .refl _ _
      | _ =>
          simp only [add]
          split
          · exact (f.bind_bindWeak_comm _ _ q .sentinel).symm
          · exact .refl _ _
  | _ =>
      cases e with
      | glob path' =>
          simp only [add]
          split
          · exact f.bind_bindWeak_comm _ _ r .sentinel
          · exact .refl _ _
      | _ => exact hnamed _ _ rfl rfl

namespace ScopeStack

variable {s t : ScopeStack} {ds : List Declaration}

theorem declare_eq_add (s : ScopeStack) (d : Declaration) :
    s.declare d = { s with top := s.top.add d (s.referent d) } := by
  cases d with
  | glob path =>
      rw [declare, bindGlob_eq, referent, Frame.add]
      split <;> rfl
  | _ => rfl

theorem Between.declare_comm (h : s.Between ds t) {d e : Declaration}
    (hdMem : d ∈ ds) (heMem : e ∈ ds)
    (hname : forall name, d.name? = some name -> e.name? ≠ some name)
    (hd : s.Apart ds d e) (he : s.Apart ds e d) :
    ((t.declare d).declare e).Alike .same ((t.declare e).declare d) := by
  rw [declare_eq_add (t.declare d) e, declare_eq_add (t.declare e) d,
    h.referent_declare heMem hd, h.referent_declare hdMem he]
  simp only [declare_eq_add]
  exact ⟨rfl, t.top.add_comm hname _ _, (Alike.refl .same t).outer⟩

/-!
## Lists of declarations that change places
-/

theorem name?_ne_of_nodup {d e : Declaration} {es : List Declaration}
    (h : (declaredNames (d :: es)).Nodup) (he : e ∈ es) :
    forall name, d.name? = some name -> e.name? ≠ some name := by
  intro name hd heq
  rw [declaredNames, List.filterMap_cons_some hd] at h
  exact (List.nodup_cons.mp h).1 (mem_declaredNames he heq)

theorem nodup_of_sublist {es es' : List Declaration}
    (h : (declaredNames es').Nodup) (hsub : es.Sublist es') :
    (declaredNames es).Nodup :=
  h.sublist (hsub.filterMap Declaration.name?)

theorem Between.declareAll_move (h : s.Between ds t) {d : Declaration}
    {es : List Declaration} (hmem : forall e, e ∈ d :: es -> e ∈ ds)
    (hnames : (declaredNames (d :: es)).Nodup)
    (hapart : forall e, e ∈ es -> s.Apart ds d e ∧ s.Apart ds e d) :
    (t.declareAll (d :: es)).Alike .same (t.declareAll (es ++ [d])) := by
  induction es generalizing t with
  | nil => exact .refl _ _
  | cons e rest ih =>
      have hd : d ∈ ds := hmem d List.mem_cons_self
      have he : e ∈ ds :=
        hmem e (List.mem_cons_of_mem d List.mem_cons_self)
      rcases hapart e List.mem_cons_self with ⟨hde, hed⟩
      have hswap := h.declare_comm hd he
        (name?_ne_of_nodup hnames List.mem_cons_self) hde hed
      have hfirst : (t.declareAll (d :: e :: rest)).Alike .same
          ((t.declare e).declareAll (d :: rest)) :=
        hswap.declareAll (Likeness.isHidden_same _) rest
      have hrest : (d :: rest).Sublist (d :: e :: rest) :=
        (List.sublist_cons_self e rest).cons_cons d
      apply hfirst.trans
      apply ih (h.declare he)
      · intro e' he'
        exact hmem e' (hrest.subset he')
      · exact nodup_of_sublist hnames hrest
      · intro e' he'
        exact hapart e' (List.mem_cons_of_mem e he')

theorem Between.declareAll_swap (h : s.Between ds t)
    {es fs : List Declaration} (hmem : forall e, e ∈ es ++ fs -> e ∈ ds)
    (hnames : (declaredNames (es ++ fs)).Nodup)
    (hapart : forall e, e ∈ es -> forall f, f ∈ fs ->
      s.Apart ds e f ∧ s.Apart ds f e) :
    (t.declareAll (es ++ fs)).Alike .same (t.declareAll (fs ++ es)) := by
  induction es generalizing t with
  | nil =>
      rw [List.nil_append, List.append_nil]
      exact .refl _ _
  | cons e rest ih =>
      have he : e ∈ ds := hmem e List.mem_cons_self
      have hbehind : (t.declareAll (e :: rest ++ fs)).Alike .same
          ((t.declare e).declareAll (fs ++ rest)) := by
        apply ih (h.declare he)
        · intro e' he'
          exact hmem e' (List.mem_cons_of_mem e he')
        · exact nodup_of_sublist hnames (List.sublist_cons_self e _)
        · intro e' he'
          exact hapart e' (List.mem_cons_of_mem e he')
      have hsub : (e :: fs).Sublist (e :: rest ++ fs) :=
        (List.sublist_append_right rest fs).cons_cons e
      have hmove : (t.declareAll (e :: fs)).Alike .same
          (t.declareAll (fs ++ [e])) := by
        apply h.declareAll_move
        · intro e' he'
          exact hmem e' (hsub.subset he')
        · exact nodup_of_sublist hnames hsub
        · exact hapart e List.mem_cons_self
      apply hbehind.trans
      have hrest := hmove.declareAll (Likeness.isHidden_same _) rest
      rw [← declareAll_append, ← declareAll_append, List.append_assoc]
        at hrest
      exact hrest

/-!
## What a declared name refers to

It refers to what its declaration did when it was made, because no other one
gives the same name, and a glob gives way to it.
-/

end ScopeStack

theorem Frame.get?_add_of_name (f : Frame) {d : Declaration} {name : String}
    (hd : d.name? = some name) (r : Referent) :
    (f.add d r).get? name = some r := by
  cases d <;> cases hd <;> simp only [add, get?_bind, Declaration.key, if_true]

theorem Frame.get?_add_of_ne (f : Frame) {e : Declaration} {name : String}
    {r : Referent} (hget : f.get? name = some r)
    (he : e.name? ≠ some name) (q : Referent) :
    (f.add e q).get? name = some r := by
  cases e with
  | glob path =>
      simp only [add]
      split
      · rw [get?_bindWeak]
        split
        · rename_i hname
          rw [← hname, hget]
          rfl
        · exact hget
      · exact hget
  | _ =>
      simp only [add, get?_bind]
      rw [if_neg]
      · exact hget
      · intro hname
        exact he (congrArg some hname.symm)

namespace ScopeStack

variable {s t : ScopeStack} {ds : List Declaration}

theorem referent_ne_localVar (s : ScopeStack) (d : Declaration) :
    s.referent d ≠ .localVar := by
  cases d with
  | item name => simp [referent]
  | externCrate name source =>
      simp only [referent]
      split <;> simp
  | imported name path => exact classify_ne_localVar s _
  | glob path => exact classify_ne_localVar s _

theorem get?_declareAll {name : String} {r : Referent}
    {es : List Declaration} (hget : t.top.get? name = some r)
    (hes : forall e, e ∈ es -> e.name? ≠ some name) :
    (t.declareAll es).top.get? name = some r := by
  induction es generalizing t with
  | nil => exact hget
  | cons e rest ih =>
      rw [declareAll_cons]
      apply ih
      · rw [declare_eq_add]
        exact t.top.get?_add_of_ne hget (hes e List.mem_cons_self) _
      · intro e' he'
        exact hes e' (List.mem_cons_of_mem e he')

/-- The last declaration of a name is the one that counts. -/
theorem get?_declareAll_of_name (t : ScopeStack)
    {front back : List Declaration} {d : Declaration} {name : String}
    (hd : d.name? = some name)
    (hback : forall e, e ∈ back -> e.name? ≠ some name) :
    (t.declareAll (front ++ d :: back)).top.get? name =
      some ((t.declareAll front).referent d) := by
  rw [declareAll_append, declareAll_cons]
  apply get?_declareAll
  · rw [declare_eq_add]
    exact Frame.get?_add_of_name _ hd _
  · exact hback

theorem lookup_of_get? {name : String} {r : Referent}
    (hget : t.top.get? name = some r) (hr : r ≠ .localVar)
    (typesOnly : Bool) : t.lookup name typesOnly = some r := by
  simp [lookup, lookupIn, hget, hr]

theorem lookup_declareAll_of_name (t : ScopeStack)
    {front back : List Declaration} {d : Declaration} {name : String}
    (hd : d.name? = some name)
    (hnames : (declaredNames (d :: back)).Nodup) :
    (t.declareAll (front ++ d :: back)).lookup name true =
      some ((t.declareAll front).referent d) := by
  have hget : (t.declareAll (front ++ d :: back)).top.get? name =
      some ((t.declareAll front).referent d) := by
    apply t.get?_declareAll_of_name hd
    intro e he
    exact name?_ne_of_nodup hnames he name hd
  exact lookup_of_get? hget (referent_ne_localVar _ d) true

/-!
## Items in another order
-/

theorem Between.declareItems_perm (h : s.Between ds t)
    {items reordered : List Item} (hperm : items.Perm reordered)
    (hmem : forall d, d ∈ itemsDeclarations items -> d ∈ ds)
    (hnames : (declaredNames (itemsDeclarations items)).Nodup)
    (hapart : items.Pairwise (s.Independent ds)) :
    (t.declareItems items).Alike .same (t.declareItems reordered) := by
  induction hperm generalizing t with
  | nil => exact .refl _ _
  | @cons i items reordered _ ih =>
      rw [itemsDeclarations_cons] at hmem hnames
      have hfirst : s.Between ds (t.declareItem i) := by
        rw [declareItem_eq]
        apply h.declareAll
        intro d hd
        exact hmem d (List.mem_append_left _ hd)
      apply ih hfirst
      · intro d hd
        exact hmem d (List.mem_append_right _ hd)
      · exact nodup_of_sublist hnames (List.sublist_append_right _ _)
      · exact (List.pairwise_cons.mp hapart).2
  | swap i j items =>
      have hji : s.Independent ds j i :=
        (List.pairwise_cons.mp hapart).1 i List.mem_cons_self
      rw [itemsDeclarations_cons, itemsDeclarations_cons,
        ← List.append_assoc] at hmem hnames
      have hboth : (t.declareAll (j.declarations ++ i.declarations)).Alike
          .same (t.declareAll (i.declarations ++ j.declarations)) := by
        apply h.declareAll_swap _ _ hji
        · intro d hd
          exact hmem d (List.mem_append_left _ hd)
        · exact nodup_of_sublist hnames (List.sublist_append_left _ _)
      have hrest := hboth.declareAll (Likeness.isHidden_same _)
        (itemsDeclarations items)
      rw [← declareAll_append, ← declareAll_append, List.append_assoc,
        List.append_assoc] at hrest
      rw [declareItems_eq, declareItems_eq]
      simpa only [itemsDeclarations_cons] using hrest
  | trans hfirst _ ih ih' =>
      have hdeclarations := hfirst.flatMap_right Item.declarations
      apply (ih h hmem hnames hapart).trans
      apply ih' h
      · intro d hd
        exact hmem d (hdeclarations.mem_iff.mpr hd)
      · exact (hdeclarations.filterMap Declaration.name?).nodup hnames
      · exact hfirst.pairwise hapart Independent.symm

end ScopeStack

/-!
## Places behind the declarations
-/

structure Context.Alike (c d : Context) : Prop where
  runtime : c.runtime = d.runtime
  scope : c.scope.Alike .same d.scope
  inConst : c.inConst = d.inConst

variable {c d : Context}

theorem Context.Alike.opened (h : c.Alike d) (x : Crossing) :
    (c.opened x).Alike (d.opened x) := by
  have hhidden := Likeness.isHidden_same c.scope.runtime
  cases x with
  | level => exact h
  | constant =>
      exact ⟨h.runtime, h.scope, congrArg (fun b => b || true) h.inConst⟩
  | closure inputs => exact ⟨h.runtime, h.scope.push, h.inConst⟩
  | pattern pat => exact ⟨h.runtime, h.scope.push, h.inConst⟩
  | condition cond => exact ⟨h.runtime, h.scope.push, h.inConst⟩
  | function isConst signature =>
      exact ⟨h.runtime, h.scope.pushBarrier,
        congrArg (fun b => b || isConst) h.inConst⟩
  | boundary => exact ⟨h.runtime, h.scope.pushBarrier, h.inConst⟩
  | module items =>
      exact ⟨h.runtime, h.scope.pushBarrier.declareItems hhidden items,
        h.inConst⟩
  | block body =>
      exact ⟨h.runtime, h.scope.push.declareItems hhidden
        (ScopeStack.itemsOf body),
        h.inConst⟩
  | behind s => exact h

theorem Context.Alike.along (h : c.Alike d) (xs : List Crossing) :
    (c.along xs).Alike (d.along xs) := by
  induction xs generalizing c d with
  | nil => exact h
  | cons x rest ih =>
      have hopened := h.opened x
      apply ih
      exact ⟨hopened.runtime, hopened.scope.bindLocals x.locals,
        hopened.inConst⟩

theorem Context.Alike.plan (h : c.Alike d) (n : Node) :
    n.plan c = n.plan d := by
  have hregisters : forall a, n.registers c a = n.registers d a := by
    intro a
    unfold Node.registers
    split
    · exact (h.along _).scope.isRegistration _
    · rfl
  have hconst : forall a, n.isConstAt c a = n.isConstAt d a := by
    intro a
    unfold Node.isConstAt
    split
    · exact (h.along _).inConst
    · rfl
  simp only [Node.plan, h.runtime, hregisters, hconst]

namespace ScopeStack

/-- Independent items may be declared in any order, be it in a block or in a
module.  Behind them every path means the same, and wherever one goes from
there, the same statements are replaced.  A name that one of them declares
refers to what it would if none of the others were declared. -/
theorem resolve_declareItems_perm {s : ScopeStack}
    {items reordered : List Item} (hperm : items.Perm reordered)
    (hnames : (declaredNames (itemsDeclarations items)).Nodup)
    (hapart : items.Pairwise (s.Independent (itemsDeclarations items))) :
    (forall path : Path, (s.declareItems items).resolve path =
        (s.declareItems reordered).resolve path) ∧
      (forall (runtime : Path) (inConst : Bool) (xs : List Crossing)
        (n : Node),
        n.plan ((Context.mk runtime (s.declareItems items) inConst).along
            xs) =
          n.plan ((Context.mk runtime (s.declareItems reordered)
            inConst).along xs)) ∧
      forall i, i ∈ items -> forall front d back name,
        i.declarations = front ++ d :: back -> d.name? = some name ->
          (s.declareItems reordered).lookup name true =
            some ((s.declareAll front).referent d) := by
  have halike : forall others, items.Perm others ->
      (s.declareItems items).Alike .same (s.declareItems others) := by
    intro others hothers
    exact (Between.start s _).declareItems_perm hothers (fun _ hd => hd)
      hnames hapart
  refine ⟨(halike reordered hperm).resolve, ?_, ?_⟩
  · intro runtime inConst xs n
    have hcontext : (Context.mk runtime (s.declareItems items)
        inConst).Alike ⟨runtime, s.declareItems reordered, inConst⟩ :=
      ⟨rfl, halike reordered hperm, rfl⟩
    exact (hcontext.along xs).plan n
  · intro i hi front d back name hdeclarations hname
    rcases List.append_of_mem hi with ⟨before, behind, hitems⟩
    have hfront : items.Perm (i :: (before ++ behind)) := by
      rw [hitems]
      exact List.perm_middle
    have hboth := (halike reordered hperm).symm.trans (halike _ hfront)
    have hall : itemsDeclarations (i :: (before ++ behind)) =
        front ++ d :: (back ++ itemsDeclarations (before ++ behind)) := by
      rw [itemsDeclarations_cons, hdeclarations, List.append_assoc,
        List.cons_append]
    have hdistinct := ((hfront.flatMap_right Item.declarations).filterMap
      Declaration.name?).nodup hnames
    change (declaredNames (itemsDeclarations _)).Nodup at hdistinct
    rw [hboth.lookup (fun _ _ heq => heq), declareItems_eq, hall]
    rw [hall] at hdistinct
    exact s.lookup_declareAll_of_name hname
      (nodup_of_sublist hdistinct (List.sublist_append_right front _))

/-- A block that imports a crate by another name and something through that
name, which could as well be done first. -/
theorem resolve_declareItems_through_alias :
    let s := (root (SimplePath.mk true [.plain "deferred"]).toPath).changes
      [.pushBarrier, .push]
    let crate := Item.mk [] (.imports [] false
      (.rename (.plain "std") (.plain "base")))
    let through := Item.mk [] (.imports [] false
      (.path (.plain "base") (.path (.plain "mem")
        (.rename (.plain "drop") (.plain "defer")))))
    [crate, through].Perm [through, crate] ∧
      (declaredNames (itemsDeclarations [crate, through])).Nodup ∧
      [crate, through].Pairwise
        (s.Independent (itemsDeclarations [crate, through])) ∧
      forall path : Path, (s.declareItems [crate, through]).resolve path =
        (s.declareItems [through, crate]).resolve path := by
  intro s crate through
  have hperm : [crate, through].Perm [through, crate] := .swap _ _ _
  have hnames :
      (declaredNames (itemsDeclarations [crate, through])).Nodup := by
    decide
  have hcrate : crate.declarations = [.imported "base" ["std"]] := by
    decide
  have hthrough : through.declarations =
      [.imported "defer" ["base", "mem", "drop"]] := by
    decide
  have hds : itemsDeclarations [crate, through] =
      [.imported "base" ["std"],
        .imported "defer" ["base", "mem", "drop"]] := by
    decide
  -- The one name that is imported through stays that of another crate.
  have hstd : ¬ s.MayBeRuntime (itemsDeclarations [crate, through])
      "std" := by
    intro h
    cases h with
    | known hlookup => exact absurd hlookup (by decide)
    | crate hd => simp [hds] at hd
    | imported hd => simp [hds] at hd
    | renamed hd => simp [hds] at hd
  have hbase : ¬ s.MayBeRuntime (itemsDeclarations [crate, through])
      "base" := by
    intro h
    cases h with
    | known hlookup => exact absurd hlookup (by decide)
    | crate hd => simp [hds] at hd
    | imported hd =>
        rw [hds] at hd
        exact absurd hd (by decide)
    | renamed hd hother =>
        simp [hds] at hd
        exact hstd (hd ▸ hother)
  have hapart : [crate, through].Pairwise
      (s.Independent (itemsDeclarations [crate, through])) := by
    apply List.pairwise_pair.mpr
    intro d hd e he
    rw [hcrate, List.mem_singleton] at hd
    rw [hthrough, List.mem_singleton] at he
    subst hd he
    constructor
    · intro rest hpath
      simp [Declaration.path?, Declaration.key] at hpath
    · intro rest _ hmay
      exact absurd hmay hbase
  exact ⟨hperm, hnames, hapart,
    (resolve_declareItems_perm hperm hnames hapart).1⟩

/-- An import through an alias of the runtime that the same block declares. -/
theorem resolve_declareItems_swapped :
    let s := (root (SimplePath.mk true [.plain "deferred"]).toPath).changes
      [.pushBarrier, .push]
    let rename := Item.mk [] (.imports [] false
      (.rename (.plain "deferred") (.plain "rt")))
    let through := Item.mk [] (.imports [] false
      (.path (.plain "rt") (.rename (.plain "defer") (.plain "later"))))
    let later := (SimplePath.mk false [.plain "later"]).toPath
    [rename, through].Perm [through, rename] ∧
      (declaredNames (itemsDeclarations [rename, through])).Nodup ∧
      (s.declareItems [rename, through]).resolve later = .sentinel ∧
      (s.declareItems [through, rename]).resolve later = .item := by
  intro s rename through later
  exact ⟨.swap _ _ _, by decide, by decide, by decide⟩

end ScopeStack

end ScopeExit
