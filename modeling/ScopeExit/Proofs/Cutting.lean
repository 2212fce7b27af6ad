import Mathlib.Data.List.TakeWhile
import ScopeExit.Source.Lexer

/-!
# Names in a text

What is read as an identifier is spelled as identifiers are, and a name that is
spelled so is read as that identifier, if nothing stands behind it that would
make it part of a literal.  The text of a path is cut at its separators and
blanks, which is what a path that is written and read again relies on.
-/

namespace ScopeExit

/-- Whether an identifier can be spelled: what its name begins and goes on with,
and that it is not a word which is never written raw. -/
structure Ident.IsSpelled (i : Ident) : Prop where
  name : exists c rest, i.name = String.ofList (c :: rest) ∧
    IdentChars.isStart c = true ∧
      forall d, d ∈ rest -> IdentChars.isContinue d = true
  raw : i.raw = true -> i.name ∉ Lexer.neverRaw

/-- A name that is not written raw needs only the right characters, which is
computed for a fixed one. -/
theorem Ident.isSpelled_plain (c : Char) (cs : List Char)
    (hc : IdentChars.isStart c = true)
    (hcs : cs.all IdentChars.isContinue = true) :
    (Ident.plain (String.ofList (c :: cs))).IsSpelled :=
  ⟨⟨c, cs, rfl, hc, List.all_eq_true.mp hcs⟩, fun hraw => by cases hraw⟩

namespace IdentChars

/-!
## Characters that begin no name
-/

def separators : List Nat :=
  List.range' 9 5 ++ List.range' 0x2000 11 ++
    [0x20, 0x85, 0xa0, 0x1680, 0x200e, 0x200f, 0x2028, 0x2029, 0x202f, 0x205f,
      0x3000]

theorem mem_separators_of_isSeparator {c : Char}
    (h : Lexer.isSeparator c = true) : c.toNat ∈ separators := by
  simp only [Lexer.isSeparator, Bool.or_eq_true, beq_iff_eq] at h
  rcases h with (h | rfl) | rfl
  · simp only [Lexer.isBlank, Bool.or_eq_true, Bool.and_eq_true,
      decide_eq_true_eq, beq_iff_eq] at h
    simp only [separators, List.mem_append, List.mem_range'_1, List.mem_cons,
      List.not_mem_nil, or_false]
    omega
  · decide
  · decide

/-- A character is none with which a name begins if its code point is among some
that are not. -/
theorem isStart_eq_false {c : Char} {ns : List Nat} (hmem : c.toNat ∈ ns)
    (h : forall n, n ∈ ns -> isStart (Char.ofNat n) = false) :
    isStart c = false := by
  have hc := h c.toNat hmem
  rwa [Char.ofNat_toNat] at hc

theorem isStart_of_isSeparator {c : Char} (h : Lexer.isSeparator c = true) :
    isStart c = false :=
  isStart_eq_false (mem_separators_of_isSeparator h) (by decide +kernel)

theorem toNat_of_isDigit {c : Char} (h : c.isDigit = true) :
    48 ≤ c.toNat ∧ c.toNat ≤ 57 := by
  simpa [Char.isDigit, UInt32.le_iff_toNat_le] using h

theorem isStart_of_isDigit {c : Char} (h : c.isDigit = true) :
    isStart c = false := by
  have hrange := toNat_of_isDigit h
  have hmem : c.toNat ∈ List.range' 48 10 := by
    rw [List.mem_range'_1]
    omega
  exact isStart_eq_false hmem (by decide)

theorem isStart_eq_false_of_all {c : Char} {cs : List Char} (hmem : c ∈ cs)
    (h : cs.all (fun d => !isStart d) = true) : isStart c = false := by
  simpa using List.all_eq_true.mp h c hmem

theorem isStart_of_mem_punctuation {c : Char} (h : c ∈ Lexer.punctuation) :
    isStart c = false :=
  isStart_eq_false_of_all h (by decide)

end IdentChars

/-!
## Identifiers that are read
-/

def Piece.IsSpelled : Piece -> Prop
  | .leaf (.ident i) _ _ => i.IsSpelled
  | _ => True

namespace Lexer

theorem name?_isSpelled {cs rest : List Char} {name : String}
    (h : name? cs = some (name, rest)) :
    (Ident.plain name).IsSpelled := by
  unfold name? at h
  split at h
  · next c cs =>
    split at h
    · next hc =>
      cases h
      refine ⟨⟨c, _, rfl, hc, ?_⟩, fun hraw => Bool.noConfusion hraw⟩
      intro d hd
      exact List.mem_takeWhile_imp hd
    · cases h
  · cases h

theorem ident?_isSpelled {cs rest : List Char} {i : Ident}
    (h : ident? cs = some (i, rest)) : i.IsSpelled := by
  unfold ident? at h
  split at h
  · split at h
    · next hname =>
      split at h
      · cases h
      · next hraw =>
        cases h
        refine ⟨(name?_isSpelled hname).name, fun _ => ?_⟩
        simpa using hraw
    · cases h
  · rcases Option.map_eq_some_iff.mp h with ⟨⟨name, left⟩, hname, heq⟩
    cases heq
    exact name?_isSpelled hname

theorem leaf?_isSpelled {cs rest : List Char} {i : Ident} {joint : Bool}
    (h : leaf? cs = some (.ident i, joint, rest)) : i.IsSpelled := by
  unfold leaf? at h
  split at h
  · cases h
  · split at h
    · unfold quoted? at h
      split at h
      · split at h
        · cases h
        · split at h <;> cases h
      · cases h
    · split at h
      · cases h
      · split at h
        · cases h
        · rcases Option.map_eq_some_iff.mp h with ⟨⟨j, left⟩, hident, heq⟩
          cases heq
          exact ident?_isSpelled hident
    · cases h

theorem DocComment.pieces_isSpelled (doc : DocComment) (pos : Position) :
    forall p, p ∈ doc.pieces pos -> p.IsSpelled := by
  have hdoc : (Ident.plain "doc").IsSpelled :=
    Ident.isSpelled_plain 'd' ['o', 'c'] (by decide) (by decide)
  cases h : doc.inner <;> simp [pieces, h, Piece.IsSpelled, hdoc]

/-- What one round of the cutting adds, which may be nothing. -/
theorem piecesFrom?_cons {fuel : Nat} {pos : Position} {c : Char}
    {cs : List Char} {ps : List Piece}
    (h : piecesFrom? (fuel + 1) pos (c :: cs) = some ps) :
    exists first after rest more, (forall p, p ∈ first -> p.IsSpelled) ∧
      piecesFrom? fuel after rest = some more ∧ ps = first ++ more := by
  have hfirst : forall {after rest} (first : List Piece),
      (forall p, p ∈ first -> p.IsSpelled) ->
        (piecesFrom? fuel after rest).map (first ++ ·) = some ps ->
          exists first after rest more, (forall p, p ∈ first -> p.IsSpelled) ∧
            piecesFrom? fuel after rest = some more ∧ ps = first ++ more := by
    intro after rest first hfirst h
    rcases Option.map_eq_some_iff.mp h with ⟨more, hmore, rfl⟩
    exact ⟨first, after, rest, more, hfirst, hmore, rfl⟩
  have hother : forall {p : Piece}, p.IsSpelled ->
      forall q, q ∈ [p] -> q.IsSpelled := by
    intro p hp q hq
    rwa [List.mem_singleton.mp hq]
  rw [piecesFrom?] at h
  dsimp only at h
  -- Blanks and comments add nothing, and of all other pieces only a leaf and the
  -- attribute of a documentation comment can be identifiers.
  split at h
  · exact ⟨[], _, _, ps, by simp, h, rfl⟩
  split at h
  · exact ⟨[], _, _, ps, by simp, h, rfl⟩
  split at h
  · next doc _ _ => exact hfirst _ (doc.pieces_isSpelled pos) h
  split at h
  · exact hfirst [_] (hother (by trivial)) h
  split at h
  · exact hfirst [_] (hother (by trivial)) h
  split at h
  · exact hfirst [_] (hother (by trivial)) h
  split at h
  · next a _ _ hleaf =>
    refine hfirst [_] (hother ?_) h
    cases a with
    | ident i => exact leaf?_isSpelled hleaf
    | _ => trivial
  · cases h

theorem piecesFrom?_isSpelled {fuel : Nat} {pos : Position} {cs : List Char}
    {ps : List Piece} (h : piecesFrom? fuel pos cs = some ps) :
    forall p, p ∈ ps -> p.IsSpelled := by
  induction fuel generalizing pos cs ps with
  | zero =>
      cases cs with
      | nil =>
          cases h
          simp
      | cons c cs => cases h
  | succ fuel ih =>
      cases cs with
      | nil =>
          cases h
          simp
      | cons c cs =>
          rcases piecesFrom?_cons h with
            ⟨first, after, rest, more, hfirst, hmore, rfl⟩
          exact List.forall_mem_append.mpr ⟨hfirst, ih hmore⟩

end Lexer

def TokenTree.IsSpelled (t : TokenTree) : Prop :=
  forall i, .atom (.ident i) ∈ t.tokens -> i.IsSpelled

theorem TokenTree.mem_flatten_iff {x : Token} {ts : List TokenTree} :
    x ∈ flatten ts ↔ exists t, t ∈ ts ∧ x ∈ t.tokens := by
  induction ts with
  | nil => simp [flatten]
  | cons t rest ih => simp [flatten, ih]

theorem TokenTree.isSpelled_group_iff {d : Delimiter} {pos : Position}
    {body : List TokenTree} :
    (group d pos body).IsSpelled ↔ forall t, t ∈ body -> t.IsSpelled := by
  have hgroup : forall i : Ident,
      .atom (.ident i) ∈ (group d pos body).tokens ↔
        exists t, t ∈ body ∧ .atom (.ident i) ∈ t.tokens := by
    intro i
    simp [tokens, mem_flatten_iff]
  constructor
  · exact fun h t ht i hi => h i ((hgroup i).mpr ⟨t, ht, hi⟩)
  · intro h i hi
    rcases (hgroup i).mp hi with ⟨t, ht, hi⟩
    exact h t ht i hi

namespace Lexer

theorem fold?_isSpelled {stack : List OpenGroup} {done ts : List TokenTree}
    {ps : List Piece} (h : fold? stack done ps = some ts)
    (hps : forall p, p ∈ ps -> p.IsSpelled)
    (hdone : forall t, t ∈ done -> t.IsSpelled)
    (hstack : forall g, g ∈ stack -> forall t, t ∈ g.before -> t.IsSpelled) :
    forall t, t ∈ ts -> t.IsSpelled := by
  fun_induction fold? stack done ps with
  | case1 done =>
      cases h
      simpa using hdone
  | case2 => cases h
  | case3 stack done a pos joint rest ih =>
      rw [List.forall_mem_cons] at hps
      refine ih h hps.2 (List.forall_mem_cons.mpr ⟨?_, hdone⟩) hstack
      intro i hi
      have ha : .ident i = a := by simpa [TokenTree.tokens] using hi
      rw [← ha] at hps
      exact hps.1
  | case4 stack done d pos rest ih =>
      rw [List.forall_mem_cons] at hps
      exact ih h hps.2 (by simp) (List.forall_mem_cons.mpr ⟨hdone, hstack⟩)
  | case5 g stack done rest ih =>
      rw [List.forall_mem_cons] at hps hstack
      refine ih h hps.2 (List.forall_mem_cons.mpr ⟨?_, hstack.1⟩) hstack.2
      apply TokenTree.isSpelled_group_iff.mpr
      simpa using hdone
  | case6 => cases h
  | case7 => cases h

end Lexer

theorem TokenTree.isSpelled_of_ofText? {text : String} {ts : List TokenTree}
    (h : ofText? text = some ts) : forall t, t ∈ ts -> t.IsSpelled := by
  rcases Option.bind_eq_some_iff.mp h with ⟨ps, hps, hts⟩
  have hspelled : forall p, p ∈ ps -> p.IsSpelled := by
    unfold Lexer.pieces? at hps
    split at hps <;> exact Lexer.piecesFrom?_isSpelled hps
  exact Lexer.fold?_isSpelled hts hspelled (by simp) (by simp)

/-!
## Names that are written
-/

theorem Ident.IsSpelled.text_cons {i : Ident} (hi : i.IsSpelled) :
    exists c cs, i.text.toList = c :: cs ∧
      IdentChars.isStart c = true ∧
        forall d, d ∈ cs -> d = '#' ∨ IdentChars.isContinue d = true := by
  rcases i with ⟨raw, text⟩
  rcases hi with ⟨⟨c, name, htext, hc, hname⟩, _⟩
  dsimp only at htext
  subst htext
  cases raw with
  | false =>
      refine ⟨c, name, ?_, hc, fun d hd => .inr (hname d hd)⟩
      rw [text, if_neg Bool.false_ne_true, String.toList_ofList]
  | true =>
      refine ⟨'r', '#' :: c :: name, ?_, by decide, ?_⟩
      · rw [text, if_pos rfl, String.toList_append]
        simp only [String.toList_ofList]
        rfl
      · rw [List.forall_mem_cons, List.forall_mem_cons]
        exact ⟨.inl rfl, .inr (IdentChars.isContinue_of_isStart hc),
          fun d hd => .inr (hname d hd)⟩

namespace Lexer

/-- Whether no name or literal goes on with a text behind a name: what follows
is a blank or a colon, if anything. -/
def EndsName (cs : List Char) : Prop :=
  forall c, cs.head? = some c -> c = ' ' ∨ c = ':'

section

variable {rest : List Char}

theorem EndsName.isContinue (h : EndsName rest) :
    forall c, rest.head? = some c -> IdentChars.isContinue c = false := by
  intro c hc
  rcases h c hc with rfl | rfl <;> decide

theorem takeWhile_name {name : List Char}
    (hname : forall c, c ∈ name -> IdentChars.isContinue c = true)
    (hrest : EndsName rest) :
    (name ++ rest).takeWhile IdentChars.isContinue = name := by
  rw [List.takeWhile_append_of_pos hname]
  cases rest with
  | nil => simp
  | cons c cs => simp [hrest.isContinue c rfl]

theorem dropWhile_name {name : List Char}
    (hname : forall c, c ∈ name -> IdentChars.isContinue c = true)
    (hrest : EndsName rest) :
    (name ++ rest).dropWhile IdentChars.isContinue = rest := by
  rw [List.dropWhile_append_of_pos hname]
  cases rest with
  | nil => rfl
  | cons c cs => simp [hrest.isContinue c rfl]

theorem isDigit_of_isStart {c : Char} (h : IdentChars.isStart c = true) :
    c.isDigit = false := by
  rw [← Bool.not_eq_true]
  intro hdigit
  rw [IdentChars.isStart_of_isDigit hdigit] at h
  cases h

theorem intDigits?_of_not_isDigit {c : Char} (h : c.isDigit = false)
    (cs : List Char) : Literal.intDigits? (c :: cs) = none := by
  have hzero : c ≠ '0' := by
    rintro rfl
    cases h
  have hvalue : (Literal.hexValue? c).any (fun d => decide (d < 10)) =
      false := by
    rw [Literal.hexValue?, h, if_neg Bool.false_ne_true]
    split
    · simp
    · split <;> simp
  by_cases hgap : c = '_'
  · simp [Literal.intDigits?, hgap]
  · simp [Literal.intDigits?, h, hzero, hgap, hvalue]

theorem number?_of_not_isDigit {c : Char} (h : c.isDigit = false)
    (cs : List Char) : Literal.number? (c :: cs) = none := by
  simp [Literal.number?, Literal.floatDigits?, h,
    intDigits?_of_not_isDigit h]

end

/-- The mark behind the letters with which a literal may begin. -/
def IsMark (c : Char) : Prop := c = '"' ∨ c = '\'' ∨ c = '#'

/-- Whether there is no such mark behind the name with which a text begins. -/
def HasNoMark (cs : List Char) : Prop :=
  forall c, (cs.dropWhile IdentChars.isContinue).head? = some c -> ¬ IsMark c

theorem hasNoMark_name {name rest : List Char}
    (hname : forall c, c ∈ name -> IdentChars.isContinue c = true)
    (hrest : EndsName rest) : HasNoMark (name ++ rest) := by
  intro c hc
  rw [dropWhile_name hname hrest] at hc
  rcases hrest c hc with rfl | rfl <;> simp [IsMark]

theorem HasNoMark.tail {c : Char} {cs : List Char} (h : HasNoMark (c :: cs))
    (hc : IdentChars.isContinue c = true) : HasNoMark cs := by
  unfold HasNoMark at h
  rwa [List.dropWhile_cons_of_pos hc] at h

theorem HasNoMark.head {c : Char} {cs : List Char} (h : HasNoMark (c :: cs)) :
    ¬ IsMark c := by
  intro hc
  have hname : ¬ IdentChars.isContinue c = true := by
    rcases hc with rfl | rfl | rfl <;> decide
  unfold HasNoMark at h
  rw [List.dropWhile_cons_of_neg hname] at h
  exact h c rfl hc

theorem HasNoMark.raw? {cs : List Char} (h : HasNoMark cs)
    (kind : Literal.Quoted) : Literal.raw? kind cs = none := by
  cases cs with
  | nil => rfl
  | cons c cs =>
      have hc := h.head
      simp only [IsMark, not_or] at hc
      simp [Literal.raw?, hc]

theorem HasNoMark.rest? {c : Char} {cs : List Char} (h : HasNoMark (c :: cs))
    (hc : IdentChars.isStart c = true) : Literal.rest? (c :: cs) = none := by
  have htail := h.tail (IdentChars.isContinue_of_isStart hc)
  have hr : IdentChars.isContinue 'r' = true := by decide
  unfold Literal.rest?
  dsimp only
  split
  · next heq =>
    cases heq
    exact absurd hc (by decide)
  · next heq =>
    cases heq
    rw [htail.raw?, Option.map_none]
  · next heq =>
    cases heq
    exact absurd (.inl rfl) htail.head
  · next heq =>
    cases heq
    rw [(htail.tail hr).raw?, Option.map_none]
  · next heq =>
    cases heq
    exact absurd (.inr (.inl rfl)) htail.head
  · next heq =>
    cases heq
    exact absurd (.inl rfl) htail.head
  · next heq =>
    cases heq
    rw [(htail.tail hr).raw?, Option.map_none]
  · next heq =>
    cases heq
    exact absurd hc (by decide)
  · exact number?_of_not_isDigit (isDigit_of_isStart hc) cs

theorem HasNoMark.opensLiteral {cs : List Char} (h : HasNoMark cs) :
    opensLiteral cs = false := by
  have hmarks : literalOpenings.all (fun o =>
      (o.dropWhile IdentChars.isContinue).head?.any
        (['"', '\'', '#'].contains ·)) = true := by
    decide
  rw [Lexer.opensLiteral, List.any_eq_false]
  intro o ho hprefix
  rcases List.isPrefixOf_iff_prefix.mp hprefix with ⟨rest, rfl⟩
  rcases (Option.any_eq_true _ _).mp (List.all_eq_true.mp hmarks o ho) with
    ⟨c, hc, hmem⟩
  have hmark : IsMark c := by simpa [IsMark] using hmem
  have hempty : (o.dropWhile IdentChars.isContinue).isEmpty = false := by
    rw [← Bool.not_eq_true, List.isEmpty_iff]
    intro hnil
    rw [hnil] at hc
    cases hc
  unfold HasNoMark at h
  rw [List.dropWhile_append, hempty] at h
  exact h c (by simp [hc]) hmark

theorem name?_of_name {c : Char} {name rest : List Char}
    (hc : IdentChars.isStart c = true)
    (hname : forall d, d ∈ name -> IdentChars.isContinue d = true)
    (hrest : EndsName rest) :
    name? (c :: (name ++ rest)) = some (String.ofList (c :: name), rest) := by
  rw [name?, if_pos hc, takeWhile_name hname hrest, dropWhile_name hname hrest]

theorem startsPunct_of_isStart {c : Char} {cs : List Char}
    (hc : IdentChars.isStart c = true) : startsPunct (c :: cs) = false := by
  unfold startsPunct
  split
  · rfl
  · rfl
  · next heq =>
    cases heq
    rw [← Bool.not_eq_true, List.contains_iff_mem]
    intro hmem
    rw [IdentChars.isStart_of_mem_punctuation hmem] at hc
    cases hc
  · rfl

section

variable {c : Char} {name rest : List Char}
  (hc : IdentChars.isStart c = true)
  (hname : forall d, d ∈ name -> IdentChars.isContinue d = true)
  (hrest : EndsName rest)
include hc hname hrest

theorem leaf?_of_name :
    leaf? (c :: (name ++ rest)) =
      some (.ident (.plain (String.ofList (c :: name))), false, rest) := by
  have hmark : HasNoMark (c :: (name ++ rest)) := by
    rw [← List.cons_append]
    refine hasNoMark_name (List.forall_mem_cons.mpr ⟨?_, hname⟩) hrest
    exact IdentChars.isContinue_of_isStart hc
  have hident : ident? (c :: (name ++ rest)) =
      some (.plain (String.ofList (c :: name)), rest) := by
    unfold ident?
    split
    · next heq =>
      rcases List.cons.inj heq with ⟨_, hhash⟩
      have htail := hmark.tail (IdentChars.isContinue_of_isStart hc)
      rw [hhash] at htail
      exact absurd (.inr (.inr rfl)) htail.head
    · rw [name?_of_name hc hname hrest, Option.map_some]
  unfold leaf?
  rw [hmark.rest? hc]
  dsimp only
  split
  · next heq =>
    cases heq
    exact absurd hc (by decide)
  · next heq =>
    rw [startsPunct_of_isStart hc, hmark.opensLiteral, hident]
    rfl
  · next heq => cases heq

theorem leaf?_of_rawName
    (hraw : String.ofList (c :: name) ∉ neverRaw) :
    leaf? ('r' :: '#' :: c :: (name ++ rest)) =
      some (.ident ⟨true, String.ofList (c :: name)⟩, false, rest) := by
  have hquote : c ≠ '"' := by
    rintro rfl
    exact absurd hc (by decide)
  have hhash : c ≠ '#' := by
    rintro rfl
    exact absurd hc (by decide)
  have hliteral : Literal.rest? ('r' :: '#' :: c :: (name ++ rest)) =
      none := by
    simp [Literal.rest?, Literal.raw?, hhash, hquote]
  have hopens : opensLiteral ('r' :: '#' :: c :: (name ++ rest)) = false := by
    simp [opensLiteral, literalOpenings, List.isPrefixOf, hhash.symm,
      hquote.symm]
  have hpunct : startsPunct ('r' :: '#' :: c :: (name ++ rest)) = false :=
    startsPunct_of_isStart (by decide)
  unfold leaf?
  rw [hliteral]
  dsimp only
  rw [hpunct, hopens, ident?, name?_of_name hc hname hrest]
  simp only [List.contains_iff_mem, hraw, if_false, Bool.false_eq_true,
    Option.map_some]
  rfl

end

theorem leaf?_of_isSpelled {i : Ident} (hi : i.IsSpelled) {rest : List Char}
    (hrest : EndsName rest) :
    leaf? (i.text.toList ++ rest) = some (.ident i, false, rest) := by
  rcases i with ⟨raw, text⟩
  rcases hi with ⟨⟨c, name, htext, hc, hname⟩, hraw⟩
  dsimp only at htext hraw
  subst htext
  cases raw with
  | false =>
      rw [Ident.text, if_neg Bool.false_ne_true, String.toList_ofList]
      exact leaf?_of_name hc hname hrest
  | true =>
      rw [Ident.text, if_pos rfl, String.toList_append]
      simp only [String.toList_ofList]
      exact leaf?_of_rawName hc hname hrest (hraw rfl)

/-!
## Texts without brackets
-/

/-- Whether nothing but a leaf begins with a character. -/
def beginsLeaf (c : Char) : Bool :=
  !isSeparator c && c != '/' && (Delimiter.ofOpening? c).isNone &&
    (Delimiter.ofClosing? c).isNone

theorem beginsLeaf_of_isStart {c : Char} (h : IdentChars.isStart c = true) :
    beginsLeaf c = true := by
  have hsep : isSeparator c = false := by
    rw [← Bool.not_eq_true]
    intro hsep
    rw [IdentChars.isStart_of_isSeparator hsep] at h
    cases h
  have hother : c ∉ ['/', '(', '[', '\x7b', ')', ']', '\x7d'] := by
    intro hmem
    rw [IdentChars.isStart_eq_false_of_all hmem (by decide)] at h
    cases h
  simp only [List.mem_cons, List.not_mem_nil, or_false, not_or] at hother
  rcases hother with ⟨h1, h2, h3, h4, h5, h6, h7⟩
  simp [beginsLeaf, hsep, Delimiter.ofOpening?, Delimiter.ofClosing?,
    Delimiter.opening, Delimiter.closing, h1, h2, h3, h4, h5, h6, h7,
    Ne.symm]

theorem pastComment?_of_ne {c : Char} {cs : List Char} (h : c ≠ '/') :
    pastComment? (c :: cs) = none := by
  unfold pastComment?
  split <;> first | rfl | simp_all

theorem docComment?_of_ne {c : Char} {cs : List Char} (h : c ≠ '/') :
    docComment? (c :: cs) = none := by
  unfold docComment?
  dsimp only
  split <;> simp_all

theorem piecesFrom?_leaf {c : Char} {cs rest : List Char} {a : Atom}
    {joint : Bool} (hc : beginsLeaf c = true)
    (hleaf : leaf? (c :: cs) = some (a, joint, rest)) (fuel : Nat)
    (pos : Position) :
    exists after, piecesFrom? (fuel + 1) pos (c :: cs) =
      (piecesFrom? fuel after rest).map (.leaf a pos joint :: ·) := by
  simp only [beginsLeaf, Bool.and_eq_true, Bool.not_eq_true', bne_iff_ne,
    Option.isNone_iff_eq_none] at hc
  rcases hc with ⟨⟨⟨hsep, hslash⟩, hopening⟩, hclosing⟩
  have hfailed : pastFailedValue? (c :: cs) = none := by
    have hparen : c ≠ '(' := by
      rintro rfl
      cases hopening
    simp [pastFailedValue?, failedValue, List.isPrefixOf, hparen.symm]
  refine ⟨pos.afterAll ((c :: cs).take ((c :: cs).length - rest.length)), ?_⟩
  rw [piecesFrom?]
  simp only [hsep, pastComment?_of_ne hslash, docComment?_of_ne hslash,
    hfailed, hopening, hclosing, hleaf, Bool.false_eq_true, if_false]

/-- Whether a text is cut into trees that have a property, whatever stands in
front of it. -/
def Cuts (cs : List Char) (P : List TokenTree -> Prop) : Prop :=
  forall fuel pos done, cs.length ≤ fuel ->
    exists ps ts, piecesFrom? fuel pos cs = some ps ∧
      fold? [] done ps = some (done.reverse ++ ts) ∧ P ts

section

variable {P Q : List TokenTree -> Prop} {cs rest : List Char}

theorem Cuts.mono (h : Cuts cs P) (hPQ : forall ts, P ts -> Q ts) :
    Cuts cs Q := by
  intro fuel pos done hfuel
  rcases h fuel pos done hfuel with ⟨ps, ts, hps, hts, hP⟩
  exact ⟨ps, ts, hps, hts, hPQ ts hP⟩

theorem cuts_nil (h : P []) : Cuts [] P := by
  intro fuel pos done _
  refine ⟨[], [], ?_, ?_, h⟩
  · cases fuel <;> rfl
  · rw [List.append_nil]
    rfl

theorem Cuts.blank (h : Cuts cs P) : Cuts (' ' :: cs) P := by
  intro fuel pos done hfuel
  cases fuel with
  | zero => cases hfuel
  | succ fuel =>
      have hblank : isSeparator ' ' = true := by decide
      rcases h fuel _ done (Nat.le_of_succ_le_succ hfuel) with
        ⟨ps, ts, hps, hts, hP⟩
      refine ⟨ps, ts, ?_, hts, hP⟩
      rw [piecesFrom?, if_pos hblank]
      exact hps

theorem Cuts.leaf {c : Char} {a : Atom} {joint : Bool}
    (hc : beginsLeaf c = true)
    (hleaf : leaf? (c :: cs) = some (a, joint, rest))
    (hlength : rest.length ≤ cs.length)
    (h : Cuts rest fun ts => forall pos, P (.leaf a pos joint :: ts)) :
    Cuts (c :: cs) P := by
  intro fuel pos done hfuel
  cases fuel with
  | zero => cases hfuel
  | succ fuel =>
      rcases piecesFrom?_leaf hc hleaf fuel pos with
        ⟨after, hpieces⟩
      rcases h fuel after (.leaf a pos joint :: done)
          (hlength.trans (Nat.le_of_succ_le_succ hfuel)) with
        ⟨ps, ts, hps, hts, hP⟩
      refine ⟨.leaf a pos joint :: ps, .leaf a pos joint :: ts, ?_, ?_, hP pos⟩
      · rw [hpieces, hps, Option.map_some]
      · rw [fold?, hts]
        simp

theorem Cuts.name {i : Ident} (hi : i.IsSpelled) (hrest : EndsName rest)
    (h : Cuts rest fun ts =>
      forall pos, P (.leaf (.ident i) pos false :: ts)) :
    Cuts (i.text.toList ++ rest) P := by
  have hleaf := leaf?_of_isSpelled hi hrest
  rcases hi.text_cons with ⟨c, cs, htext, hc, _⟩
  rw [htext, List.cons_append] at hleaf ⊢
  exact Cuts.leaf (beginsLeaf_of_isStart hc) hleaf (by simp) h

def IsSign (c : Char) : Prop := c = ':' ∨ c = '='

theorem leaf?_of_isSign {c : Char} (hc : IsSign c) (cs : List Char) :
    leaf? (c :: cs) = some (.punct c, startsPunct cs, cs) := by
  have hdigit : c.isDigit = false := by
    rcases hc with rfl | rfl <;> decide
  have hrest : Literal.rest? (c :: cs) = none := by
    rw [← number?_of_not_isDigit hdigit cs]
    rcases hc with rfl | rfl <;> rfl
  unfold leaf?
  rw [hrest]
  rcases hc with rfl | rfl <;> rfl

theorem Cuts.sign {c : Char} (hc : IsSign c) {joint : Bool}
    (hjoint : startsPunct cs = joint)
    (h : Cuts cs fun ts => forall pos, P (.leaf (.punct c) pos joint :: ts)) :
    Cuts (c :: cs) P := by
  have hbegins : beginsLeaf c = true := by
    rcases hc with rfl | rfl <;> decide
  have hleaf := leaf?_of_isSign hc cs
  rw [hjoint] at hleaf
  exact Cuts.leaf hbegins hleaf (Nat.le_refl _) h

/-- Whether a character stands for itself in a string. -/
def isVerbatim (c : Char) : Bool := c != '"' && c != '\\' && c != '\r'

theorem quotedBody?_of_isVerbatim {body : List Char} {fuel : Nat}
    (hbody : forall c, c ∈ body -> isVerbatim c = true)
    (hfuel : body.length < fuel) :
    Literal.quotedBody? .text fuel (body ++ '"' :: rest) =
      some (body, rest) := by
  induction body generalizing fuel with
  | nil =>
      cases fuel with
      | zero => cases hfuel
      | succ fuel => rfl
  | cons c cs ih =>
      rw [List.forall_mem_cons] at hbody
      cases fuel with
      | zero => cases hfuel
      | succ fuel =>
          have hc := hbody.1
          simp only [isVerbatim, Bool.and_eq_true, bne_iff_ne] at hc
          have hcs := ih hbody.2 (Nat.lt_of_succ_lt_succ hfuel)
          simp [Literal.quotedBody?, hc, hcs, Literal.Quoted.admits]

theorem quoted?_of_isVerbatim {body : List Char}
    (hbody : forall c, c ∈ body -> isVerbatim c = true) :
    Literal.quoted? .text (body ++ ['"']) = some (body, []) := by
  apply quotedBody?_of_isVerbatim hbody
  rw [List.length_append]
  omega

theorem Cuts.string {body : List Char}
    (hbody : forall c, c ∈ body -> isVerbatim c = true)
    (h : forall pos, P [.leaf
      (.literal (String.ofList ('"' :: (body ++ ['"'])))) pos false]) :
    Cuts ('"' :: (body ++ ['"'])) P := by
  have hbegins : beginsLeaf '"' = true := by decide
  have hrest : Literal.rest? ('"' :: (body ++ ['"'])) = some [] := by
    change ((Literal.quoted? .text (body ++ ['"'])).map _) = _
    rw [quoted?_of_isVerbatim hbody]
    rfl
  have hleaf : leaf? ('"' :: (body ++ ['"'])) =
      some (.literal (String.ofList ('"' :: (body ++ ['"']))), false, []) := by
    unfold leaf?
    rw [hrest]
    dsimp only
    rw [List.length_nil, Nat.sub_zero, List.take_length]
  exact Cuts.leaf hbegins hleaf (Nat.zero_le _) (cuts_nil h)

theorem string?_of_isVerbatim {body : List Char}
    (hbody : forall c, c ∈ body -> isVerbatim c = true) :
    Literal.string? (String.ofList ('"' :: (body ++ ['"']))) =
      some (String.ofList body, "") := by
  rw [Literal.string?, String.toList_ofList]
  change (Literal.quoted? .text (body ++ ['"'])).map _ = _
  rw [quoted?_of_isVerbatim hbody]
  rfl

/-- A text that is cut can be read.  No byte order mark stands in front of it. -/
theorem Cuts.ofText? (h : Cuts cs P) (hmark : cs.head? ≠ some '\ufeff') :
    exists ts, TokenTree.ofText? (String.ofList cs) = some ts ∧ P ts := by
  rcases h cs.length .origin [] (Nat.le_refl _) with ⟨ps, ts, hps, hts, hP⟩
  refine ⟨ts, ?_, hP⟩
  have hpieces : pieces? (String.ofList cs) = some ps := by
    unfold pieces?
    rw [String.toList_ofList]
    split
    · exact absurd rfl hmark
    · exact hps
  rw [TokenTree.ofText?, hpieces, Option.bind_some, hts]
  rfl

end

end Lexer

end ScopeExit
