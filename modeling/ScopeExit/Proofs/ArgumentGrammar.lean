import ScopeExit.Proofs.Cutting
import ScopeExit.Proofs.Entries

/-!
# The grammar of the arguments

What the arguments are if they are accepted, and why they are refused if they
are not.  A path that has been accepted is accepted again when it is written
out: its names are cut out of the text as they are spelled, and none of its
characters needs an escape in a string.
-/

namespace ScopeExit

/-!
## Paths that are written
-/

namespace SimplePath

/-- The characters between two segments, with as many blanks on both sides. -/
def separatorChars (gap : Nat) : List Char :=
  List.replicate gap ' ' ++ ':' :: ':' :: List.replicate gap ' '

def segmentChars (gap : Nat) : List Ident -> List Char
  | [] => []
  | [i] => i.text.toList
  | i :: rest => i.text.toList ++ separatorChars gap ++ segmentChars gap rest

def written (gap : Nat) (p : SimplePath) : String :=
  String.ofList
    ((if p.absolute then ':' :: ':' :: List.replicate gap ' ' else []) ++
      segmentChars gap p.segments)

/-- Whether a path has segments, and they can be spelled where they stand. -/
structure IsSpelled (p : SimplePath) : Prop where
  ne_nil : p.segments ≠ []
  isSpelled : forall i, i ∈ p.segments -> i.IsSpelled
  isPathSegment : forall i, i ∈ p.segments -> i.isPathSegment = true

end SimplePath

namespace Lexer

theorem Cuts.blanks {cs : List Char} {P : List TokenTree -> Prop}
    (h : Cuts cs P) (n : Nat) : Cuts (List.replicate n ' ' ++ cs) P := by
  induction n with
  | zero => exact h
  | succ n ih => exact ih.blank

theorem endsName_blanks {cs : List Char} (h : EndsName cs) (n : Nat) :
    EndsName (List.replicate n ' ' ++ cs) := by
  cases n with
  | zero => exact h
  | succ n =>
      intro c hc
      cases hc
      exact .inl rfl

theorem Cuts.separator {cs : List Char} {P : List TokenTree -> Prop}
    (gap : Nat) (h : Cuts cs fun ts => forall pos1 pos2 joint,
      P (.leaf (.punct ':') pos1 true :: .leaf (.punct ':') pos2 joint :: ts)) :
    Cuts (':' :: ':' :: (List.replicate gap ' ' ++ cs)) P := by
  apply Cuts.sign (.inl rfl) rfl
  apply Cuts.sign (.inl rfl) rfl
  apply Cuts.blanks
  exact h.mono fun ts hts pos2 pos1 => hts pos1 pos2 _

theorem cuts_segmentChars (gap : Nat) {is : List Ident} (hne : is ≠ [])
    (hspelled : forall i, i ∈ is -> i.IsSpelled)
    (hsegment : forall i, i ∈ is -> i.isPathSegment = true) :
    Cuts (SimplePath.segmentChars gap is) fun ts =>
      Arguments.AreSegments ts is := by
  induction is with
  | nil => exact absurd rfl hne
  | cons i rest ih =>
      rw [List.forall_mem_cons] at hspelled hsegment
      cases rest with
      | nil =>
          have hend : EndsName [] := by
            intro c hc
            cases hc
          rw [SimplePath.segmentChars, ← List.append_nil i.text.toList]
          exact Cuts.name hspelled.1 hend
            (cuts_nil fun pos => .last hsegment.1)
      | cons j more =>
          have hrest := ih (by simp) hspelled.2 hsegment.2
          have hcolons : EndsName (':' :: ':' :: (List.replicate gap ' ' ++
              SimplePath.segmentChars gap (j :: more))) := by
            intro c hc
            cases hc
            exact .inr rfl
          have htext : SimplePath.segmentChars gap (i :: j :: more) =
              i.text.toList ++ (List.replicate gap ' ' ++
                ':' :: ':' :: (List.replicate gap ' ' ++
                  SimplePath.segmentChars gap (j :: more))) := by
            simp [SimplePath.segmentChars, SimplePath.separatorChars]
          rw [htext]
          apply Cuts.name hspelled.1 (endsName_blanks hcolons gap)
          apply Cuts.blanks
          apply Cuts.separator
          exact hrest.mono fun ts hts pos1 pos2 joint pos =>
            .next hsegment.1 hts

end Lexer

/-!
What is written of a path needs no escapes in a string.
-/

theorem Lexer.isVerbatim_of_isContinue {c : Char}
    (h : IdentChars.isContinue c = true) : isVerbatim c = true := by
  have hne : forall d, IdentChars.isContinue d = false -> c ≠ d := by
    rintro d hd rfl
    rw [hd] at h
    cases h
  simp [isVerbatim, hne '"' (by decide), hne '\\' (by decide),
    hne '\r' (by decide)]

theorem Ident.IsSpelled.isVerbatim {i : Ident} (hi : i.IsSpelled) :
    forall c, c ∈ i.text.toList -> Lexer.isVerbatim c = true := by
  rcases hi.text_cons with ⟨c, cs, htext, hc, hcs⟩
  rw [htext, List.forall_mem_cons]
  refine ⟨Lexer.isVerbatim_of_isContinue
    (IdentChars.isContinue_of_isStart hc), fun d hd => ?_⟩
  rcases hcs d hd with rfl | hd
  · decide
  · exact Lexer.isVerbatim_of_isContinue hd

namespace SimplePath

theorem isVerbatim_blanks (gap : Nat) :
    forall c, c ∈ List.replicate gap ' ' -> Lexer.isVerbatim c = true := by
  intro c hc
  rw [List.eq_of_mem_replicate hc]
  decide

theorem isVerbatim_segmentChars (gap : Nat) {is : List Ident}
    (h : forall i, i ∈ is -> i.IsSpelled) :
    forall c, c ∈ segmentChars gap is -> Lexer.isVerbatim c = true := by
  induction is with
  | nil => simp [segmentChars]
  | cons i rest ih =>
      rw [List.forall_mem_cons] at h
      cases rest with
      | nil => exact h.1.isVerbatim
      | cons j more =>
          have hcolon : Lexer.isVerbatim ':' = true := by decide
          have hblanks := isVerbatim_blanks gap
          have hseparator : forall c, c ∈ separatorChars gap ->
              Lexer.isVerbatim c = true := by
            rw [separatorChars, List.forall_mem_append, List.forall_mem_cons,
              List.forall_mem_cons]
            exact ⟨hblanks, hcolon, hcolon, hblanks⟩
          change forall c, c ∈ i.text.toList ++ separatorChars gap ++
            segmentChars gap (j :: more) -> _
          rw [List.forall_mem_append, List.forall_mem_append]
          exact ⟨⟨h.1.isVerbatim, hseparator⟩, ih h.2⟩

theorem segmentChars_cons (gap : Nat) (i : Ident) (rest : List Ident) :
    exists cs, segmentChars gap (i :: rest) = i.text.toList ++ cs := by
  cases rest with
  | nil => exact ⟨[], (List.append_nil _).symm⟩
  | cons j more => exact ⟨_, List.append_assoc _ _ _⟩

section

variable {p : SimplePath} (h : p.IsSpelled) (gap : Nat)
include h

theorem IsSpelled.isPathText : Arguments.IsPathText (p.written gap) p := by
  rcases p with ⟨absolute, is⟩
  have hcuts := Lexer.cuts_segmentChars gap h.ne_nil h.isSpelled
    h.isPathSegment
  cases absolute with
  | false =>
      apply Lexer.Cuts.ofText?
      · exact hcuts.mono fun ts hts => .relative hts
      · rcases is with _ | ⟨i, rest⟩
        · exact absurd rfl h.ne_nil
        · rcases segmentChars_cons gap i rest with ⟨cs, hcs⟩
          rcases (h.isSpelled i List.mem_cons_self).text_cons with
            ⟨c, name, htext, hc, _⟩
          dsimp only
          rw [hcs, htext]
          intro hhead
          cases hhead
          -- A byte order mark begins no name.
          exact absurd hc (by decide +kernel)
  | true =>
      apply Lexer.Cuts.ofText?
      · apply Lexer.Cuts.separator
        exact hcuts.mono fun ts hts pos1 pos2 joint => .absolute hts
      · intro hhead
        cases hhead

theorem IsSpelled.isVerbatim :
    forall c, c ∈ (p.written gap).toList -> Lexer.isVerbatim c = true := by
  have hcolon : Lexer.isVerbatim ':' = true := by decide
  have hsegments := isVerbatim_segmentChars gap h.isSpelled
  rw [written, String.toList_ofList, List.forall_mem_append]
  refine ⟨?_, hsegments⟩
  split
  · rw [List.forall_mem_cons, List.forall_mem_cons]
    exact ⟨hcolon, hcolon, isVerbatim_blanks gap⟩
  · simp

end

def asArguments (gap : Nat) (p : SimplePath) : String :=
  "crate = \"" ++ p.written gap ++ "\""

theorem isSpelled_crate : (Ident.plain "crate").IsSpelled :=
  Ident.isSpelled_plain 'c' ['r', 'a', 't', 'e'] (by decide) (by decide)

/-- The arguments that ask for a written path are read, and they are accepted
with this path. -/
theorem IsSpelled.runtime_asArguments {p : SimplePath} (h : p.IsSpelled)
    (gap : Nat) :
    exists args, TokenTree.ofText? (p.asArguments gap) = some args ∧
      Arguments.runtime args = .ok p := by
  have hverbatim := h.isVerbatim gap
  have hcuts : Lexer.Cuts ((Ident.plain "crate").text.toList ++ ' ' :: '=' ::
      ' ' :: '"' :: ((p.written gap).toList ++ ['"'])) fun args =>
        Arguments.IsSetting
          (String.ofList ('"' :: ((p.written gap).toList ++ ['"']))) args := by
    apply Lexer.Cuts.name isSpelled_crate
    · intro c hc
      cases hc
      exact .inl rfl
    · apply Lexer.Cuts.blank
      apply Lexer.Cuts.sign (.inr rfl) rfl
      apply Lexer.Cuts.blank
      exact Lexer.Cuts.string hverbatim fun _ _ _ => .bare
  have htext : p.asArguments gap =
      String.ofList ((Ident.plain "crate").text.toList ++ ' ' :: '=' ::
        ' ' :: '"' :: ((p.written gap).toList ++ ['"'])) := by
    rw [← String.toList_inj, String.toList_ofList, asArguments,
      String.toList_append, String.toList_append, List.append_assoc]
    rfl
  have hmark : ((Ident.plain "crate").text.toList ++ ' ' :: '=' ::
      ' ' :: '"' :: ((p.written gap).toList ++ ['"'])).head? ≠
        some '\ufeff' := by
    intro hhead
    cases hhead
  rcases hcuts.ofText? hmark with ⟨args, hargs, hsetting⟩
  refine ⟨args, by rw [htext, hargs], ?_⟩
  apply Arguments.runtime_eq_ok_iff.mpr
  right
  refine ⟨_, _, hsetting, Lexer.string?_of_isVerbatim hverbatim, ?_⟩
  rw [String.ofList_toList]
  exact h.isPathText gap

end SimplePath

namespace Arguments

theorem AreSegments.isSpelled {ts : List TokenTree} {is : List Ident}
    (h : AreSegments ts is) (hts : forall t, t ∈ ts -> t.IsSpelled) :
    is ≠ [] ∧ forall i, i ∈ is ->
      i.IsSpelled ∧ i.isPathSegment = true := by
  have hleaf : forall {i pos joint},
      (TokenTree.leaf (.ident i) pos joint).IsSpelled -> i.IsSpelled :=
    fun hi => hi _ (List.mem_singleton_self _)
  induction h with
  | last hi =>
      have hhead := hleaf (hts _ List.mem_cons_self)
      exact ⟨by simp, by simpa using ⟨hhead, hi⟩⟩
  | next hi _ ih =>
      rw [List.forall_mem_cons, List.forall_mem_cons,
        List.forall_mem_cons] at hts
      have hrest := (ih hts.2.2.2).2
      exact ⟨by simp, List.forall_mem_cons.mpr ⟨⟨hleaf hts.1, hi⟩, hrest⟩⟩

theorem IsPathText.isSpelled {value : String} {p : SimplePath}
    (h : IsPathText value p) : p.IsSpelled := by
  rcases h with ⟨ts, hts, hpath⟩
  have hspelled := TokenTree.isSpelled_of_ofText? hts
  cases hpath with
  | relative hsegments =>
      have his := hsegments.isSpelled hspelled
      exact ⟨his.1, fun i hi => (his.2 i hi).1, fun i hi => (his.2 i hi).2⟩
  | absolute hsegments =>
      rw [List.forall_mem_cons, List.forall_mem_cons] at hspelled
      have his := hsegments.isSpelled hspelled.2.2
      exact ⟨his.1, fun i hi => (his.2 i hi).1, fun i hi => (his.2 i hi).2⟩

/-- Nothing but the empty list and the setting of a string whose value is a path
is accepted, and the path is the default one or that of the value.  A suffix
behind the string is refused.  A path that such a value spells is also the one
that is accepted when it is written out, and all other arguments are refused for
the reason of the first of their entries that is: so are all lists of two or more
entries. -/
theorem runtime_grammar :
    (forall args p, runtime args = .ok p ↔
        args = [] ∧ p = ⟨true, [.plain "deferred"]⟩ ∨
          exists text value, IsSetting text args ∧
            Literal.string? text = some (value, "") ∧ IsPathText value p) ∧
      (forall value p gap, IsPathText value p ->
        exists args, TokenTree.ofText? (p.asArguments gap) = some args ∧
          runtime args = .ok p) ∧
      (forall args x, runtime args = .error x ↔
        firstError? false (entries args) = some x) ∧
      forall args, 2 ≤ (entries args).length ->
        exists x, runtime args = .error x := by
  have hreason : forall args x, runtime args = .error x ↔
      firstError? false (entries args) = some x := by
    intro args x
    rw [← refusal?_runtime, refusal?_eq_some_iff]
  refine ⟨fun args p => runtime_eq_ok_iff, ?_, hreason, ?_⟩
  · intro value p gap hvalue
    exact hvalue.isSpelled.runtime_asArguments gap
  · intro args hlength
    rcases hentries : entries args with _ | ⟨e, _ | ⟨second, more⟩⟩
    · rw [hentries] at hlength
      cases hlength
    · rw [hentries] at hlength
      cases Nat.not_succ_le_self _ hlength
    · simp only [hreason, hentries, firstError?]
      apply Option.isSome_iff_exists.mp
      simp [isSome_entryError?_true]

/-- A path with a keyword in it behind a raw string, and a list whose second
entry fails first. -/
theorem runtime_grammar_keyword_path :
    let p := SimplePath.mk true [.plain "crate", ⟨true, "fn"⟩]
    IsPathText "::crate :: r#fn" p ∧
      (exists args, TokenTree.ofText? "crate = r\"::crate :: r#fn\"," =
        some args ∧ runtime args = .ok p) ∧
      (exists args, TokenTree.ofText? "crate = \"::crate::r#fn\"" =
        some args ∧ runtime args = .ok p) ∧
      exists args, TokenTree.ofText? "crate = \"a\", crate, lazy" =
          some args ∧
        2 ≤ (entries args).length ∧ (exists x, runtime args = .error x) ∧
          runtime args = .error .duplicate := by
  intro p
  have hvalue : IsPathText "::crate :: r#fn" p :=
    pathOfValue_eq_ok_iff.mp (by decide +kernel)
  have hraw : (TokenTree.ofText? "crate = r\"::crate :: r#fn\",").any
      (fun args => runtime args = .ok p) = true := by
    decide +kernel
  have hwritten : p.asArguments 0 = "crate = \"::crate::r#fn\"" := by
    decide +kernel
  have hlist : (TokenTree.ofText? "crate = \"a\", crate, lazy").any
      (fun args => 2 ≤ (entries args).length ∧
        runtime args = .error .duplicate) = true := by
    decide +kernel
  rcases (Option.any_eq_true _ _).mp hraw with ⟨rawArgs, hrawArgs, hok⟩
  rcases (Option.any_eq_true _ _).mp hlist with ⟨args, hargs, hrefused⟩
  rw [decide_eq_true_eq] at hok hrefused
  have h := runtime_grammar
  refine ⟨hvalue, ⟨rawArgs, hrawArgs, hok⟩, ?_, args, hargs, hrefused.1,
    h.2.2.2 args hrefused.1, hrefused.2⟩
  rw [← hwritten]
  exact h.2.1 _ p 0 hvalue

end Arguments

end ScopeExit
