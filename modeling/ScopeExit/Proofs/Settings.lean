import ScopeExit.Proofs.Rewriting

/-!
# The setting in the arguments

The arguments are accepted if and only if they are empty or a single setting
whose value is a path, and the path is the one that is spelled there.
-/

namespace ScopeExit

namespace Arguments

/-!
## Paths
-/

/-- Whether trees are segments, with separators between them.  A separator is
two colons without a gap. -/
inductive AreSegments : List TokenTree -> List Ident -> Prop
  | last : i.isPathSegment = true ->
      AreSegments [.leaf (.ident i) pos joint] [i]
  | next : i.isPathSegment = true -> AreSegments rest is ->
      AreSegments (.leaf (.ident i) pos joint :: .leaf (.punct ':') pos1 true ::
        .leaf (.punct ':') pos2 joint2 :: rest) (i :: is)

/-- Whether trees are a path of modules and nothing else. -/
inductive IsPath : List TokenTree -> SimplePath -> Prop
  | relative : AreSegments ts is -> IsPath ts ⟨false, is⟩
  | absolute : AreSegments ts is ->
      IsPath (.leaf (.punct ':') pos1 true :: .leaf (.punct ':') pos2 joint2 ::
        ts) ⟨true, is⟩

theorem areSegments_of_segments {ts : List TokenTree} {is : List Ident}
    {missing : Bool -> ArgumentError}
    (h : segments Ident.isPathSegment missing ts = .ok (is, [])) {i : Ident}
    (hi : i.isPathSegment = true) (pos : Position) (joint : Bool) :
    AreSegments (.leaf (.ident i) pos joint :: ts) (i :: is) := by
  fun_induction segments Ident.isPathSegment missing ts
      generalizing is i pos joint with
  | case1 _ _ _ j _ _ more hj is left hmore ih =>
      cases h
      exact .next hi (ih hmore hj _ _)
  | case2 => cases h
  | case3 => cases h
  | case4 => cases h
  | case5 =>
      cases h
      exact .last hi

theorem segments_of_areSegments {ts : List TokenTree} {is : List Ident}
    (missing : Bool -> ArgumentError) (h : AreSegments ts is) :
    exists i pos joint rest more, ts = .leaf (.ident i) pos joint :: rest ∧
      is = i :: more ∧ i.isPathSegment = true ∧
        segments Ident.isPathSegment missing rest = .ok (more, []) := by
  induction h with
  | last hi => exact ⟨_, _, _, _, _, rfl, rfl, hi, rfl⟩
  | next hi _ ih =>
      rcases ih with ⟨j, _, _, rest, more, rfl, rfl, hj, hrest⟩
      refine ⟨_, _, _, _, _, rfl, rfl, hi, ?_⟩
      rw [segments, if_pos hj, hrest]

theorem pastSeparator?_eq_some {ts rest : List TokenTree}
    (h : pastSeparator? ts = some rest) :
    exists pos1 pos2 joint, ts = .leaf (.punct ':') pos1 true ::
      .leaf (.punct ':') pos2 joint :: rest := by
  unfold pastSeparator? at h
  split at h
  · cases h
    exact ⟨_, _, _, rfl⟩
  · cases h

theorem modulePath_eq_ok_iff {ts : List TokenTree} {p : SimplePath} :
    modulePath ts = .ok (p, []) ↔ IsPath ts p := by
  constructor
  · intro h
    have hread : exists is,
        AreSegments ((pastSeparator? ts).getD ts) is ∧
          p = ⟨(pastSeparator? ts).isSome, is⟩ := by
      unfold modulePath at h
      dsimp only at h
      split at h
      · next heq =>
        split at h
        · next hi =>
          rcases ok_of_bind h with ⟨⟨is, left⟩, hmore, h⟩
          cases h
          rw [heq]
          exact ⟨_, areSegments_of_segments hmore hi _ _, rfl⟩
        · cases h
      · cases h
    rcases hread with ⟨is, hsegments, rfl⟩
    cases hsep : pastSeparator? ts with
    | none =>
        rw [hsep] at hsegments
        exact .relative hsegments
    | some rest =>
        rw [hsep] at hsegments
        rcases pastSeparator?_eq_some hsep with ⟨_, _, _, rfl⟩
        exact .absolute hsegments
  · intro h
    cases h with
    | relative hsegments =>
        rcases segments_of_areSegments .pathSegment hsegments with
          ⟨i, _, _, rest, more, rfl, rfl, hi, hrest⟩
        simp [modulePath, pastSeparator?, hi, hrest]
    | absolute hsegments =>
        rcases segments_of_areSegments .pathSegment hsegments with
          ⟨i, _, _, rest, more, rfl, rfl, hi, hrest⟩
        simp [modulePath, pastSeparator?, hi, hrest]

def IsPathText (value : String) (p : SimplePath) : Prop :=
  exists ts, TokenTree.ofText? value = some ts ∧ IsPath ts p

theorem pathOfValue_eq_ok_iff {value : String} {p : SimplePath} :
    pathOfValue value = .ok p ↔ IsPathText value p := by
  constructor
  · intro h
    unfold pathOfValue at h
    split at h
    · next ts hts =>
      rcases ok_of_bind h with ⟨⟨q, rest⟩, hpath, h⟩
      dsimp only at h
      split at h
      · next hempty =>
        cases h
        rw [List.isEmpty_iff] at hempty
        rw [hempty] at hpath
        exact ⟨ts, hts, modulePath_eq_ok_iff.mp hpath⟩
      · cases h
    · cases h
  · rintro ⟨ts, hts, hpath⟩
    have hread := modulePath_eq_ok_iff.mpr hpath
    rw [pathOfValue, hts]
    dsimp only
    rw [hread]
    rfl

/-!
## The setting
-/

/-- Whether arguments are the setting of a literal, which a comma may follow. -/
inductive IsSetting (text : String) : List TokenTree -> Prop
  | bare : IsSetting text [.leaf (.ident (.plain "crate")) pos1 joint1,
      .leaf (.punct '=') pos2 joint2, .leaf (.literal text) pos3 joint3]
  | comma : IsSetting text [.leaf (.ident (.plain "crate")) pos1 joint1,
      .leaf (.punct '=') pos2 joint2, .leaf (.literal text) pos3 joint3,
      .leaf (.punct ',') pos4 joint4]

theorem pathSetting_eq_ok_iff {ts rest : List TokenTree} {p : SimplePath} :
    pathSetting ts = .ok (p, rest) ↔
      exists pos1 joint1 text pos2 joint2 value,
        ts = .leaf (.punct '=') pos1 joint1 ::
          .leaf (.literal text) pos2 joint2 :: rest ∧
        Literal.string? text = some (value, "") ∧ IsPathText value p := by
  constructor
  · intro h
    unfold pathSetting at h
    split at h
    · split at h
      · next value suffix hstring =>
        rcases ok_of_bind h with ⟨q, hpath, h⟩
        split at h
        · next hsuffix =>
          cases h
          rw [hsuffix] at hstring
          exact ⟨_, _, _, _, _, value, rfl, hstring,
            pathOfValue_eq_ok_iff.mp hpath⟩
        · cases h
      · cases h
    · cases h
    · cases h
  · rintro ⟨_, _, text, _, _, value, rfl, hstring, hpath⟩
    have hread := pathOfValue_eq_ok_iff.mpr hpath
    simp [pathSetting, hstring, hread]

theorem segments_eq_nil {admitted : Ident -> Bool}
    {missing : Bool -> ArgumentError} {ts rest : List TokenTree}
    (h : segments admitted missing ts = .ok ([], rest)) : ts = rest := by
  unfold segments at h
  split at h
  · split at h
    · split at h <;> cases h
    · cases h
  · cases h
  · cases h
    rfl

theorem entryName_eq_settingName {ts rest : List TokenTree}
    (h : entryName ts = .ok (settingName, rest)) :
    exists pos joint,
      ts = .leaf (.ident (.plain "crate")) pos joint :: rest := by
  unfold entryName at h
  dsimp only at h
  split at h
  · next i pos joint after heq =>
    rcases ok_of_bind h with ⟨⟨more, left⟩, hmore, h⟩
    simp only [pure, Except.pure, Except.ok.injEq, Prod.mk.injEq, settingName,
      SimplePath.mk.injEq, List.cons.injEq] at h
    rcases h with ⟨⟨habsolute, rfl, rfl⟩, rfl⟩
    rw [Option.isSome_eq_false_iff, Option.isNone_iff_eq_none] at habsolute
    rw [habsolute, Option.getD_none] at heq
    exact ⟨pos, joint, by rw [heq, segments_eq_nil hmore]⟩
  · cases h
  · cases h

/-- What is made of the trees behind the first entry. -/
def afterEntry (p : SimplePath) : List TokenTree ->
    Except ArgumentError SimplePath
  | [] => .ok p
  | [.leaf (.punct ',') _ _] => .ok p
  | .leaf (.punct ',') _ _ :: more => do
      let (second, _) ← entryName more
      .error (if second = settingName then .duplicate else .unsupported)
  | _ => .error .noComma

section

variable {ts rest left : List TokenTree} {name p : SimplePath}
  {x : ArgumentError}

theorem runtime_of_name_error (hts : ts ≠ []) (hname : entryName ts = .error x) :
    runtime ts = .error x := by
  cases ts with
  | nil => exact absurd rfl hts
  | cons t ts =>
      unfold runtime
      dsimp only
      rw [hname]
      rfl

theorem runtime_of_other_name (hname : entryName ts = .ok (name, rest))
    (hother : name ≠ settingName) : runtime ts = .error .unsupported := by
  cases ts with
  | nil => cases hname
  | cons t ts =>
      unfold runtime
      dsimp only
      rw [hname]
      exact if_pos hother

theorem runtime_of_path_error
    (hname : entryName ts = .ok (settingName, rest))
    (hpath : pathSetting rest = .error x) : runtime ts = .error x := by
  cases ts with
  | nil => cases hname
  | cons t ts =>
      unfold runtime
      dsimp only
      rw [hname]
      simp only [bind, Except.bind, ne_eq, not_true_eq_false, if_false, hpath]

theorem runtime_of_path (hname : entryName ts = .ok (settingName, rest))
    (hpath : pathSetting rest = .ok (p, left)) :
    runtime ts = afterEntry p left := by
  cases ts with
  | nil => cases hname
  | cons t ts =>
      unfold runtime
      dsimp only
      rw [hname]
      simp only [bind, Except.bind, ne_eq, not_true_eq_false, if_false, hpath]
      rfl

end

theorem afterEntry_eq_ok {p q : SimplePath} {ts : List TokenTree}
    (h : afterEntry p ts = .ok q) :
    q = p ∧ (ts = [] ∨ exists pos joint, ts = [.leaf (.punct ',') pos joint]) := by
  unfold afterEntry at h
  split at h
  · cases h
    exact ⟨rfl, .inl rfl⟩
  · cases h
    exact ⟨rfl, .inr ⟨_, _, rfl⟩⟩
  · rcases ok_of_bind h with ⟨second, _, hsecond⟩
    cases hsecond
  · cases h

/-- The arguments are accepted if and only if they are empty or the setting of a
string literal without a suffix whose value is a path. -/
theorem runtime_eq_ok_iff {args : List TokenTree} {p : SimplePath} :
    runtime args = .ok p ↔
      args = [] ∧ p = defaultRuntime ∨
        exists text value, IsSetting text args ∧
          Literal.string? text = some (value, "") ∧ IsPathText value p := by
  constructor
  · intro h
    by_cases hargs : args = []
    · rw [hargs] at h
      cases h
      exact .inl ⟨hargs, rfl⟩
    · right
      cases hname : entryName args with
      | error x =>
          rw [runtime_of_name_error hargs hname] at h
          cases h
      | ok named =>
          rcases named with ⟨name, rest⟩
          by_cases hsetting : name = settingName
          · rw [hsetting] at hname
            cases hpath : pathSetting rest with
            | error x =>
                rw [runtime_of_path_error hname hpath] at h
                cases h
            | ok read =>
                -- Now the trees are known up to the end of the literal.
                rcases read with ⟨q, left⟩
                rw [runtime_of_path hname hpath] at h
                rcases entryName_eq_settingName hname with ⟨_, _, rfl⟩
                rcases pathSetting_eq_ok_iff.mp hpath with
                  ⟨_, _, text, _, _, value, rfl, hstring, hvalue⟩
                rcases afterEntry_eq_ok h with ⟨rfl, rfl | ⟨_, _, rfl⟩⟩
                · exact ⟨text, value, .bare, hstring, hvalue⟩
                · exact ⟨text, value, .comma, hstring, hvalue⟩
          · rw [runtime_of_other_name hname hsetting] at h
            cases h
  · rintro (⟨rfl, rfl⟩ | ⟨text, value, hsetting, hstring, hvalue⟩)
    · rfl
    · have hpath : forall pos1 joint1 pos2 joint2 rest,
          pathSetting (.leaf (.punct '=') pos1 joint1 ::
            .leaf (.literal text) pos2 joint2 :: rest) = .ok (p, rest) := by
        intro pos1 joint1 pos2 joint2 rest
        exact pathSetting_eq_ok_iff.mpr
          ⟨_, _, text, _, _, value, rfl, hstring, hvalue⟩
      have hname : forall pos1 joint1 pos2 joint2 rest,
          entryName (.leaf (.ident (.plain "crate")) pos1 joint1 ::
            .leaf (.punct '=') pos2 joint2 :: rest) =
              .ok (settingName, .leaf (.punct '=') pos2 joint2 :: rest) := by
        intros
        rfl
      cases hsetting <;> exact runtime_of_path (hname ..) (hpath ..)

end Arguments

end ScopeExit
