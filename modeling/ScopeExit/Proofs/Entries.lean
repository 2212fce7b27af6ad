import ScopeExit.Proofs.Settings

/-!
# Entries of the arguments

A list of entries is refused as soon as one of its entries is.  A second entry
always is, so no list of two is accepted, but the first one that fails gives the
reason.  Nothing that reads an entry looks past the comma behind it, so each of
them can be judged alone.
-/

namespace ScopeExit

namespace Arguments

/-!
## Entries
-/

def isComma : TokenTree -> Bool
  | .leaf (.punct c) _ _ => c == ','
  | _ => false

/-- The entries of a list, each with the comma behind it. -/
def entries : List TokenTree -> List (List TokenTree)
  | [] => []
  | t :: rest =>
      if isComma t then [t] :: entries rest
      else
        match entries rest with
        | [] => [[t]]
        | e :: more => (t :: e) :: more

/-- Whether nothing is left of an entry but the comma behind it. -/
def isClosed : List TokenTree -> Bool
  | [] => true
  | [t] => isComma t
  | _ => false

/-- Why an entry is refused, if it is.  Its name is looked at first and then
whether the setting has been made before. -/
def entryError? (repeated : Bool) (entry : List TokenTree) :
    Option ArgumentError :=
  match entryName entry with
  | .error x => some x
  | .ok (name, rest) =>
      if name ≠ settingName then some .unsupported
      else if repeated then some .duplicate
      else
        match pathSetting rest with
        | .error x => some x
        | .ok (_, left) => if isClosed left then none else some .noComma

/-- Why the first of the entries that are refused is refused. -/
def firstError? (repeated : Bool) : List (List TokenTree) ->
    Option ArgumentError
  | [] => none
  | e :: rest => (entryError? repeated e).or (firstError? true rest)

theorem isComma_cases {t : TokenTree} (h : isComma t = true) :
    exists pos joint, t = .leaf (.punct ',') pos joint := by
  unfold isComma at h
  split at h
  · rw [beq_iff_eq] at h
    rw [h]
    exact ⟨_, _, rfl⟩
  · cases h

theorem flatten_entries (ts : List TokenTree) : (entries ts).flatten = ts := by
  induction ts with
  | nil => rfl
  | cons t rest ih =>
      rw [entries]
      split
      · rw [List.flatten_cons, ih]
        rfl
      · split
        · next h =>
          rw [h] at ih
          rw [← ih]
          rfl
        · next e more h =>
          rw [h] at ih
          rw [← ih]
          rfl

theorem entries_of_comma {body more : List TokenTree} {comma : TokenTree}
    (hcomma : isComma comma = true)
    (hbody : forall t, t ∈ body -> isComma t = false) :
    entries (body ++ comma :: more) =
      (body ++ [comma]) :: entries more := by
  induction body with
  | nil =>
      rw [List.nil_append, entries, if_pos hcomma]
      rfl
  | cons t rest ih =>
      rw [List.forall_mem_cons] at hbody
      rw [List.cons_append, entries, hbody.1, if_neg Bool.false_ne_true,
        ih hbody.2]
      rfl

theorem entries_of_no_comma {ts : List TokenTree} (hts : ts ≠ [])
    (h : forall t, t ∈ ts -> isComma t = false) : entries ts = [ts] := by
  induction ts with
  | nil => exact absurd rfl hts
  | cons t rest ih =>
      rw [List.forall_mem_cons] at h
      rw [entries, h.1, if_neg Bool.false_ne_true]
      cases rest with
      | nil => rfl
      | cons u more => rw [ih (by simp) h.2]

theorem comma_cases (ts : List TokenTree) :
    (forall t, t ∈ ts -> isComma t = false) ∨
      exists body comma more, ts = body ++ comma :: more ∧
        isComma comma = true ∧ forall t, t ∈ body -> isComma t = false := by
  induction ts with
  | nil => simp
  | cons t rest ih =>
      cases ht : isComma t with
      | true => exact .inr ⟨[], t, rest, rfl, ht, by simp⟩
      | false =>
          rcases ih with hnone | ⟨body, comma, more, rfl, hcomma, hbody⟩
          · exact .inl (List.forall_mem_cons.mpr ⟨ht, hnone⟩)
          · exact .inr ⟨t :: body, comma, more, rfl, hcomma,
              List.forall_mem_cons.mpr ⟨ht, hbody⟩⟩

/-!
## What is read of an entry

Nothing that reads an entry looks past the comma behind it.
-/

/-- Whether a reader does not look past a comma. -/
def StopsAtComma {α : Type}
    (r : List TokenTree -> Except ArgumentError (α × List TokenTree)) : Prop :=
  forall body comma, isComma comma = true ->
    (exists x, forall more, r (body ++ comma :: more) = .error x) ∨
      exists a left, left <:+ body ∧ forall more,
        r (body ++ comma :: more) = .ok (a, left ++ comma :: more)

theorem pastSeparator?_two (t u : TokenTree) (rest : List TokenTree) :
    pastSeparator? (t :: u :: rest) =
      (pastSeparator? [t, u]).map fun _ => rest := by
  cases h : pastSeparator? [t, u] with
  | none =>
      cases hall : pastSeparator? (t :: u :: rest) with
      | none => rfl
      | some left =>
          rcases pastSeparator?_eq_some hall with ⟨_, _, _, heq⟩
          cases heq
          cases h
  | some left =>
      rcases pastSeparator?_eq_some h with ⟨_, _, _, heq⟩
      cases heq
      rfl

theorem pastSeparator?_comma (body : List TokenTree) {comma : TokenTree}
    (hcomma : isComma comma = true) :
    (forall more, pastSeparator? (body ++ comma :: more) = none) ∨
      exists rest, rest <:+ body ∧ rest.length < body.length ∧
        forall more, pastSeparator? (body ++ comma :: more) =
          some (rest ++ comma :: more) := by
  rcases isComma_cases hcomma with ⟨pos, joint, rfl⟩
  rcases body with _ | ⟨t, _ | ⟨u, rest⟩⟩
  · exact .inl fun more => rfl
  · left
    intro more
    unfold pastSeparator?
    split
    · next heq => cases heq
    · rfl
  · cases h : pastSeparator? [t, u] with
    | none =>
        left
        intro more
        rw [List.cons_append, List.cons_append, pastSeparator?_two, h]
        rfl
    | some left =>
        right
        refine ⟨rest, ⟨[t, u], rfl⟩, ?_, fun more => ?_⟩
        · rw [List.length_cons, List.length_cons]
          omega
        · rw [List.cons_append, List.cons_append, pastSeparator?_two, h]
          rfl

section

variable {admitted : Ident -> Bool} {missing : Bool -> ArgumentError}
  {ts rest : List TokenTree}

theorem segments_of_no_separator (h : pastSeparator? ts = none) :
    segments admitted missing ts = .ok ([], ts) := by
  unfold segments
  split
  · cases h
  · cases h
  · rfl

theorem segments_of_ident {i : Ident} {pos : Position} {joint : Bool}
    (h : pastSeparator? ts = some (.leaf (.ident i) pos joint :: rest)) :
    segments admitted missing ts =
      if admitted i then
        (segments admitted missing rest).map fun r => (i :: r.1, r.2)
      else .error (missing false) := by
  rcases pastSeparator?_eq_some h with ⟨_, _, _, rfl⟩
  rw [segments]
  split
  · cases segments admitted missing rest <;> rfl
  · rfl

theorem segments_of_missing (h : pastSeparator? ts = some rest)
    (hrest : forall i pos joint more,
      rest ≠ .leaf (.ident i) pos joint :: more) :
    segments admitted missing ts = .error (missing rest.isEmpty) := by
  rcases pastSeparator?_eq_some h with ⟨_, _, _, rfl⟩
  unfold segments
  split
  · next heq =>
    cases heq
    exact absurd rfl (hrest _ _ _ _)
  · next heq =>
    cases heq
    rfl
  · next hnone => exact absurd rfl (hnone _ _ _ _)

theorem segments_suffix {is : List Ident}
    (h : segments admitted missing ts = .ok (is, rest)) : rest <:+ ts := by
  fun_induction segments admitted missing ts generalizing is rest with
  | case1 pos1 pos2 joint1 i pos3 joint2 more hi is left hmore ih =>
      cases h
      exact (ih hmore).trans ⟨[_, _, _], rfl⟩
  | case2 => cases h
  | case3 => cases h
  | case4 => cases h
  | case5 =>
      cases h
      exact List.suffix_refl _

theorem segments_stopsAtComma : StopsAtComma (segments admitted missing) := by
  intro body comma hcomma
  -- On the length, as a segment and the separator in front of it are three trees.
  induction hlength : body.length using Nat.strongRecOn
      generalizing body with
  | _ n ih =>
      rcases pastSeparator?_comma body hcomma with hnone | ⟨rest, hsuffix,
        hshort, hsome⟩
      · right
        refine ⟨[], body, List.suffix_refl _, fun more => ?_⟩
        exact segments_of_no_separator (hnone more)
      · by_cases hident : exists i pos joint more,
          rest = .leaf (.ident i) pos joint :: more
        · rcases hident with ⟨i, pos, joint, left, rfl⟩
          have hread : forall more,
              segments admitted missing (body ++ comma :: more) =
                if admitted i then
                  (segments admitted missing (left ++ comma :: more)).map
                    fun r => (i :: r.1, r.2)
                else .error (missing false) :=
            fun more => segments_of_ident (hsome more)
          by_cases hi : admitted i = true
          · have hleft : left <:+ body :=
              List.IsSuffix.trans ⟨[_], rfl⟩ hsuffix
            have hless : left.length < n := by
              rw [List.length_cons] at hshort
              omega
            rcases ih left.length hless left rfl with ⟨x, hx⟩ |
              ⟨is, last, hlast, hok⟩
            · refine .inl ⟨x, fun more => ?_⟩
              rw [hread, if_pos hi, hx]
              rfl
            · refine .inr ⟨i :: is, last, hlast.trans hleft, fun more => ?_⟩
              rw [hread, if_pos hi, hok]
              rfl
          · refine .inl ⟨missing false, fun more => ?_⟩
            rw [hread, if_neg hi]
        · left
          refine ⟨missing false, fun more => ?_⟩
          rw [segments_of_missing (hsome more)]
          · cases rest <;> rfl
          · intro i pos joint left heq
            rcases rest with _ | ⟨t, rest⟩
            · rcases isComma_cases hcomma with ⟨_, _, rfl⟩
              cases heq
            · cases heq
              exact hident ⟨_, _, _, _, rfl⟩

end

/-- The name of an entry behind two colons that may stand in front of it. -/
def nameAfter (absolute : Bool) (ts : List TokenTree) :
    Except ArgumentError (SimplePath × List TokenTree) :=
  match ts with
  | .leaf (.ident i) _ _ :: rest => do
      let (more, rest) ← segments (fun _ => true) .nameSegment rest
      return (⟨absolute, i :: more⟩, rest)
  | [] => .error .noName
  | ts =>
      .error (if beginsWithLiteral ts then .literalName else .strayName)

theorem nameAfter_of_not_ident {absolute : Bool} {t : TokenTree}
    {rest : List TokenTree}
    (h : ¬ exists i pos joint, t = .leaf (.ident i) pos joint) :
    nameAfter absolute (t :: rest) =
      .error (if beginsWithLiteral (t :: rest) then .literalName
        else .strayName) := by
  unfold nameAfter
  split
  · next heq =>
    cases heq
    exact absurd ⟨_, _, _, rfl⟩ h
  · next heq => cases heq
  · rfl

theorem beginsWithLiteral_two (t u : TokenTree) (rest : List TokenTree) :
    beginsWithLiteral (t :: u :: rest) = beginsWithLiteral [t, u] := by
  unfold beginsWithLiteral
  split
  · next heq =>
    cases heq
    rfl
  · next heq =>
    cases heq
    rfl
  · next hliteral hnegative =>
    split
    · next heq =>
      cases heq
      exact absurd rfl (hliteral _ _ _ _)
    · next heq =>
      cases heq
      exact absurd rfl (hnegative _ _ _ _ _ _)
    · rfl

theorem nameAfter_stopsAtComma (absolute : Bool) :
    StopsAtComma (nameAfter absolute) := by
  intro body comma hcomma
  rcases isComma_cases hcomma with ⟨pos, joint, rfl⟩
  rcases body with _ | ⟨t, rest⟩
  · exact .inl ⟨.strayName, fun more => rfl⟩
  · by_cases hident : exists i pos joint, t = .leaf (.ident i) pos joint
    · rcases hident with ⟨i, _, _, rfl⟩
      have hstops : StopsAtComma (segments (fun _ => true) .nameSegment) :=
        segments_stopsAtComma
      rcases hstops rest _ hcomma with ⟨x, hx⟩ | ⟨is, left, hleft, hok⟩
      · refine .inl ⟨x, fun more => ?_⟩
        rw [List.cons_append, nameAfter, hx]
        rfl
      · refine .inr ⟨⟨absolute, i :: is⟩, left, hleft.trans ⟨[_], rfl⟩,
          fun more => ?_⟩
        rw [List.cons_append, nameAfter, hok]
        rfl
    · have hstops : forall u rest, nameAfter absolute (t :: u :: rest) =
          .error (if beginsWithLiteral [t, u] then .literalName
            else .strayName) := by
        intro u rest
        rw [nameAfter_of_not_ident hident, beginsWithLiteral_two]
      rcases rest with _ | ⟨u, rest⟩
      · exact .inl ⟨_, fun more => hstops _ more⟩
      · exact .inl ⟨_, fun more => hstops u _⟩

theorem entryName_eq (ts : List TokenTree) :
    entryName ts =
      nameAfter (pastSeparator? ts).isSome ((pastSeparator? ts).getD ts) := by
  rfl

theorem entryName_stopsAtComma : StopsAtComma entryName := by
  intro body comma hcomma
  rcases pastSeparator?_comma body hcomma with hnone | ⟨rest, hsuffix, _,
    hsome⟩
  · simp only [entryName_eq, hnone]
    exact nameAfter_stopsAtComma false body comma hcomma
  · simp only [entryName_eq, hsome]
    rcases nameAfter_stopsAtComma true rest comma hcomma with ⟨x, hx⟩ |
      ⟨name, left, hleft, hok⟩
    · exact .inl ⟨x, hx⟩
    · exact .inr ⟨name, left, hleft.trans hsuffix, hok⟩

def pathOfLiteral (text : String) : Except ArgumentError SimplePath :=
  match Literal.string? text with
  | some (value, suffix) => do
      let path ← pathOfValue value
      if suffix = "" then return path else .error (.suffix suffix)
  | none => .error (.noString false)

theorem pathSetting_literal (text : String) (pos1 pos2 : Position)
    (joint1 joint2 : Bool) (rest : List TokenTree) :
    pathSetting (.leaf (.punct '=') pos1 joint1 ::
      .leaf (.literal text) pos2 joint2 :: rest) =
        (pathOfLiteral text).map fun p => (p, rest) := by
  rw [pathSetting, pathOfLiteral]
  cases Literal.string? text with
  | none => rfl
  | some read =>
      rcases read with ⟨value, suffix⟩
      dsimp only
      cases pathOfValue value with
      | error x => rfl
      | ok p =>
          by_cases hsuffix : suffix = "" <;>
            simp [hsuffix, bind, Except.bind, Except.map, pure, Except.pure]

theorem pathSetting_of_not_literal {pos : Position} {joint : Bool}
    {t : TokenTree} {rest : List TokenTree}
    (h : ¬ exists text pos2 joint2, t = .leaf (.literal text) pos2 joint2) :
    pathSetting (.leaf (.punct '=') pos joint :: t :: rest) =
      .error (.noString false) := by
  unfold pathSetting
  split
  · next heq =>
    cases heq
    exact absurd ⟨_, _, _, rfl⟩ h
  · next heq =>
    cases heq
    rfl
  · next hnone => exact absurd rfl (hnone _ _ _)

theorem pathSetting_of_not_equals {t : TokenTree} {rest : List TokenTree}
    (h : ¬ exists pos joint, t = .leaf (.punct '=') pos joint) :
    pathSetting (t :: rest) = .error .noEquals := by
  unfold pathSetting
  split
  · next heq =>
    cases heq
    exact absurd ⟨_, _, rfl⟩ h
  · next heq =>
    cases heq
    exact absurd ⟨_, _, rfl⟩ h
  · rfl

theorem pathSetting_stopsAtComma : StopsAtComma pathSetting := by
  intro body comma hcomma
  rcases isComma_cases hcomma with ⟨pos, joint, rfl⟩
  rcases body with _ | ⟨t, rest⟩
  · exact .inl ⟨.noEquals, fun more => rfl⟩
  · by_cases hequals : exists pos joint, t = .leaf (.punct '=') pos joint
    · rcases hequals with ⟨_, _, rfl⟩
      rcases rest with _ | ⟨u, rest⟩
      · exact .inl ⟨.noString false, fun more => rfl⟩
      · by_cases hliteral : exists text pos2 joint2,
          u = .leaf (.literal text) pos2 joint2
        · rcases hliteral with ⟨text, _, _, rfl⟩
          simp only [List.cons_append, pathSetting_literal]
          cases pathOfLiteral text with
          | error x => exact .inl ⟨x, fun more => rfl⟩
          | ok p => exact .inr ⟨p, rest, ⟨[_, _], rfl⟩, fun more => rfl⟩
        · exact .inl ⟨_, fun more => pathSetting_of_not_literal hliteral⟩
    · exact .inl ⟨_, fun more => pathSetting_of_not_equals hequals⟩

theorem nameAfter_suffix {absolute : Bool} {ts rest : List TokenTree}
    {name : SimplePath} (h : nameAfter absolute ts = .ok (name, rest)) :
    rest <:+ ts := by
  unfold nameAfter at h
  split at h
  · rcases ok_of_bind h with ⟨⟨more, left⟩, hmore, h⟩
    cases h
    exact (segments_suffix hmore).trans ⟨[_], rfl⟩
  · cases h
  · cases h

theorem entryName_suffix {ts rest : List TokenTree} {name : SimplePath}
    (h : entryName ts = .ok (name, rest)) : rest <:+ ts := by
  rw [entryName_eq] at h
  cases hsep : pastSeparator? ts with
  | none =>
      rw [hsep] at h
      exact nameAfter_suffix h
  | some after =>
      rw [hsep] at h
      rcases pastSeparator?_eq_some hsep with ⟨_, _, _, rfl⟩
      exact (nameAfter_suffix h).trans ⟨[_, _], rfl⟩

theorem pathSetting_suffix {ts rest : List TokenTree} {p : SimplePath}
    (h : pathSetting ts = .ok (p, rest)) : rest <:+ ts := by
  rcases pathSetting_eq_ok_iff.mp h with ⟨_, _, _, _, _, _, rfl, _⟩
  exact ⟨[_, _], rfl⟩

/-!
## The first entry that fails
-/

def refusal? {α : Type} : Except ArgumentError α -> Option ArgumentError
  | .error x => some x
  | .ok _ => none

theorem refusal?_eq_some_iff {α : Type} {r : Except ArgumentError α}
    {x : ArgumentError} : refusal? r = some x ↔ r = .error x := by
  cases r <;> simp [refusal?]

theorem afterEntry_of_not_comma (p : SimplePath) {t : TokenTree}
    (ht : isComma t = false) (rest : List TokenTree) :
    afterEntry p (t :: rest) = .error .noComma := by
  unfold afterEntry
  split
  · next heq => cases heq
  · next heq =>
    cases heq
    cases ht
  · next heq =>
    cases heq
    cases ht
  · rfl

theorem isClosed_of_not_comma {t : TokenTree} (ht : isComma t = false)
    (rest : List TokenTree) : isClosed (t :: rest) = false := by
  cases rest with
  | nil => exact ht
  | cons u more => rfl

theorem entryError?_true (e : List TokenTree) :
    entryError? true e =
      match entryName e with
      | .error x => some x
      | .ok (name, _) =>
          some (if name = settingName then .duplicate else .unsupported) := by
  unfold entryError?
  cases entryName e with
  | error x => rfl
  | ok named =>
      rcases named with ⟨name, rest⟩
      by_cases hsetting : name = settingName <;> simp [hsetting]

theorem isSome_entryError?_true (e : List TokenTree) :
    (entryError? true e).isSome = true := by
  rw [entryError?_true]
  cases entryName e <;> rfl

theorem entryError?_true_comma (body more : List TokenTree) {comma : TokenTree}
    (hcomma : isComma comma = true) :
    entryError? true (body ++ comma :: more) =
      entryError? true (body ++ [comma]) := by
  rw [entryError?_true, entryError?_true]
  rcases entryName_stopsAtComma body comma hcomma with ⟨x, hx⟩ |
    ⟨name, left, _, hok⟩
  · rw [hx more, hx []]
  · rw [hok more, hok []]

theorem firstError?_true {ts : List TokenTree} (hts : ts ≠ []) :
    firstError? true (entries ts) = entryError? true ts := by
  have hfirst : forall e es, firstError? true (e :: es) =
      entryError? true e := by
    intro e es
    rw [firstError?, Option.or_of_isSome (isSome_entryError?_true e)]
  rcases comma_cases ts with hnone | ⟨body, comma, more, rfl, hcomma, hbody⟩
  · rw [entries_of_no_comma hts hnone, hfirst]
  · rw [entries_of_comma hcomma hbody, hfirst, entryError?_true_comma body more
      hcomma]

theorem refusal?_second (p : SimplePath) (pos : Position) (joint : Bool)
    {more : List TokenTree} (hmore : more ≠ []) :
    refusal? (afterEntry p (.leaf (.punct ',') pos joint :: more)) =
      firstError? true (entries more) := by
  rw [firstError?_true hmore, entryError?_true]
  unfold afterEntry
  split
  · next heq => cases heq
  · next heq =>
    cases heq
    exact absurd rfl hmore
  · next heq =>
    cases heq
    cases entryName more <;> rfl
  · next hnone => exact absurd rfl (hnone _ _ _)

/-- What is refused of a single entry that no comma ends. -/
theorem refusal?_of_no_comma {ts : List TokenTree} (hts : ts ≠ [])
    (hnone : forall t, t ∈ ts -> isComma t = false) :
    refusal? (runtime ts) = entryError? false ts := by
  rw [entryError?]
  cases hname : entryName ts with
  | error x => rw [runtime_of_name_error hts hname, refusal?]
  | ok named =>
      rcases named with ⟨name, rest⟩
      dsimp only
      by_cases hsetting : name = settingName
      · rw [hsetting] at hname
        rw [if_neg (not_not.mpr hsetting), if_neg Bool.false_ne_true]
        cases hpath : pathSetting rest with
        | error x => rw [runtime_of_path_error hname hpath, refusal?]
        | ok read =>
            rcases read with ⟨p, left⟩
            rw [runtime_of_path hname hpath]
            cases left with
            | nil => rfl
            | cons t left =>
                have ht : isComma t = false := by
                  apply hnone
                  exact (entryName_suffix hname).subset
                    ((pathSetting_suffix hpath).subset List.mem_cons_self)
                dsimp only
                rw [afterEntry_of_not_comma p ht, isClosed_of_not_comma ht,
                  if_neg Bool.false_ne_true, refusal?]
      · rw [if_pos hsetting, runtime_of_other_name hname hsetting, refusal?]

/-- What is refused of an entry in front of others, or else of those. -/
theorem refusal?_of_comma {body : List TokenTree} {comma : TokenTree}
    (hcomma : isComma comma = true)
    (hbody : forall t, t ∈ body -> isComma t = false)
    (more : List TokenTree) :
    refusal? (runtime (body ++ comma :: more)) =
      (entryError? false (body ++ [comma])).or
        (firstError? true (entries more)) := by
  have hne : body ++ comma :: more ≠ [] := by simp
  rw [entryError?]
  rcases entryName_stopsAtComma body comma hcomma with ⟨x, hx⟩ |
    ⟨name, rest, hrest, hname⟩
  · rw [runtime_of_name_error hne (hx more), hx []]
    rfl
  · rw [hname []]
    dsimp only
    by_cases hsetting : name = settingName
    · rw [hsetting] at hname
      rw [if_neg (not_not.mpr hsetting), if_neg Bool.false_ne_true]
      rcases pathSetting_stopsAtComma rest comma hcomma with ⟨x, hx⟩ |
        ⟨p, left, hleft, hpath⟩
      · rw [runtime_of_path_error (hname more) (hx more), hx []]
        rfl
      · rw [runtime_of_path (hname more) (hpath more), hpath []]
        dsimp only
        cases left with
        | nil =>
            rcases isComma_cases hcomma with ⟨pos, joint, rfl⟩
            rw [List.nil_append, List.nil_append, isClosed, if_pos hcomma,
              Option.none_or]
            by_cases hmore : more = []
            · rw [hmore]
              rfl
            · exact refusal?_second p pos joint hmore
        | cons t left =>
            have ht : isComma t = false :=
              hbody t (hrest.subset (hleft.subset List.mem_cons_self))
            rw [List.cons_append, List.cons_append,
              afterEntry_of_not_comma p ht, isClosed_of_not_comma ht,
              if_neg Bool.false_ne_true]
            rfl
    · rw [if_pos hsetting, runtime_of_other_name (hname more) hsetting]
      rfl

/-- The arguments are refused for the reason of the first of their entries that
is. -/
theorem refusal?_runtime (ts : List TokenTree) :
    refusal? (runtime ts) = firstError? false (entries ts) := by
  by_cases hts : ts = []
  · rw [hts]
    rfl
  rcases comma_cases ts with hnone | ⟨body, comma, more, rfl, hcomma, hbody⟩
  · rw [entries_of_no_comma hts hnone, firstError?, firstError?, Option.or_none,
      refusal?_of_no_comma hts hnone]
  · rw [entries_of_comma hcomma hbody, firstError?,
      refusal?_of_comma hcomma hbody]

end Arguments

end ScopeExit
