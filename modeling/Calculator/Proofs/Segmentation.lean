import Calculator.Proofs.Lexeme

/-!
# The segmentation of a text

A text is cut into lexemes with blank characters between them. Which pieces are lexemes
is said without the scanner (`IsLexeme`): the look of each kind of token, that a number
takes as many characters as it can, and that a minus sign belongs to a number exactly
where an operand is due. These rules leave no choice: every text has one segmentation,
and the scanner finds it.

Results:

* `Segmented.scan_eq`: the tokens of a segmentation are those of the scanner.
* `exists_segmented`: the scanner finds a segmentation.
* `Segmented.unique`: there is no other.
* `tokenize_segmented`: all of it for whole texts.
-/

namespace Calculator

namespace Token

open Text (isBlank)

/-- The text after the token `prev` is cut into the lexemes of tokens, with any number of
    blank characters before, between and after them. -/
inductive Segmented : Option Token → List Char → List (List Char × Token) → Prop
  | blank {prev : Option Token} {blanks : List Char} : blanks.all isBlank = true →
      Segmented prev blanks []
  | lexeme {prev : Option Token} {t : Token} {blanks piece rest : List Char}
      {segments : List (List Char × Token)} : blanks.all isBlank = true →
      IsLexeme prev piece t rest → Segmented (some t) rest segments →
      Segmented prev (blanks ++ (piece ++ rest)) ((piece, t) :: segments)

/-! ## Blank characters before a lexeme -/

theorem IsLexeme.exists_cons {prev : Option Token} {piece rest : List Char} {t : Token}
    (h : IsLexeme prev piece t rest) :
    ∃ c cs, piece ++ rest = c :: cs ∧ isBlank c = false := by
  cases hpiece : piece with
  | nil => exact absurd hpiece h.ne_nil
  | cons c cs => exact ⟨c, cs ++ rest, rfl, h.solid c (by rw [hpiece]; exact List.mem_cons_self)⟩

/-- The blank characters before a lexeme end where it begins. -/
theorem IsLexeme.dropWhile_isBlank {prev : Option Token} {blanks piece rest : List Char}
    {t : Token} (h : IsLexeme prev piece t rest) (hblank : blanks.all isBlank = true) :
    (blanks ++ (piece ++ rest)).dropWhile isBlank = piece ++ rest := by
  obtain ⟨c, cs, hcs, hc⟩ := h.exists_cons
  refine Run.dropWhile_append (List.all_eq_true.mp hblank) (Run.takeWhile_eq_nil ?_)
  intro d hd
  rw [hcs] at hd
  cases hd
  exact hc

theorem dropWhile_isBlank_eq_nil {blanks : List Char} (h : blanks.all isBlank = true) :
    blanks.dropWhile isBlank = [] := by
  have hdrop := Run.dropWhile_append (m := []) (List.all_eq_true.mp h) rfl
  rwa [List.append_nil] at hdrop

theorem Segmented.cons_blank {prev : Option Token} {cs : List Char} {c : Char}
    {segments : List (List Char × Token)} (h : Segmented prev cs segments)
    (hc : isBlank c = true) : Segmented prev (c :: cs) segments := by
  cases h with
  | blank hblank => exact .blank (by rw [List.all_cons, hc, hblank]; rfl)
  | @lexeme _ t blanks piece rest _ hblank hlexeme hrest =>
    have hcons : (c :: blanks).all isBlank = true := by rw [List.all_cons, hc, hblank]; rfl
    exact .lexeme hcons hlexeme hrest

/-! ## The scanner -/

/-- Every segmentation has the tokens of the scanner. -/
theorem Segmented.scan_eq {prev : Option Token} {cs : List Char}
    {segments : List (List Char × Token)} (h : Segmented prev cs segments) :
    scan (prev.all wantsOperand) cs = segments.map Prod.snd := by
  induction h with
  | @blank prev blanks hblank =>
    have hscan := scan_blanks hblank (prev.all wantsOperand) []
    rwa [List.append_nil, scan] at hscan
  | @lexeme prev t blanks piece rest segments hblank hlexeme _ ih =>
    obtain ⟨c, cs, hcs, hc⟩ := hlexeme.exists_cons
    rw [scan_blanks hblank, hcs, scan_lexeme hc (hlexeme.lexeme_eq hcs), List.map_cons, ← ih]
    rfl

/-- The scanner finds a segmentation, by induction on the length of the text: each lexeme
    takes at least one character. -/
theorem exists_segmented (bound : Nat) : ∀ (prev : Option Token) (cs : List Char),
    cs.length ≤ bound → ∃ segments, Segmented prev cs segments := by
  induction bound with
  | zero =>
    intro prev cs hlen
    have hnil : cs = [] := List.length_eq_zero_iff.mp (by omega)
    rw [hnil]
    exact ⟨[], .blank rfl⟩
  | succ bound ih =>
    intro prev cs hlen
    cases cs with
    | nil => exact ⟨[], .blank rfl⟩
    | cons c cs =>
      rw [List.length_cons] at hlen
      cases hc : isBlank c with
      | true =>
        obtain ⟨segments, hsegments⟩ := ih prev cs (by omega)
        exact ⟨segments, hsegments.cons_blank hc⟩
      | false =>
        obtain ⟨piece, hpiece, hlexeme⟩ := isLexeme_lexeme prev hc
        have hshort := length_lexeme_le (prev.all wantsOperand) c cs
        obtain ⟨segments, hsegments⟩ := ih (some (lexeme (prev.all wantsOperand) c cs).1)
          (lexeme (prev.all wantsOperand) c cs).2 (by omega)
        rw [← hpiece, ← List.nil_append (piece ++ _)]
        exact ⟨_, .lexeme rfl hlexeme hsegments⟩

/-- The tokens of a text are those of a segmentation. -/
theorem exists_segmented_tokenize (s : String) :
    ∃ segments, Segmented none s.toList segments ∧ tokenize s = segments.map Prod.snd := by
  obtain ⟨segments, hsegments⟩ := exists_segmented s.length none s.toList (Nat.le_refl _)
  exact ⟨segments, hsegments, hsegments.scan_eq⟩

/-! ## No second segmentation -/

theorem Segmented.unique {prev : Option Token} {cs : List Char}
    {segments : List (List Char × Token)} (h : Segmented prev cs segments) :
    ∀ {other}, Segmented prev cs other → other = segments := by
  induction h with
  | @blank prev blanks hblank =>
    intro other hother
    generalize hcs : blanks = cs at hother
    cases hother with
    | blank _ => rfl
    | lexeme hblank' hlexeme _ =>
      have hnil := dropWhile_isBlank_eq_nil hblank
      rw [hcs, hlexeme.dropWhile_isBlank hblank'] at hnil
      exact absurd (List.append_eq_nil_iff.mp hnil).1 hlexeme.ne_nil
  | @lexeme prev t blanks piece rest segments hblank hlexeme hrest ih =>
    intro other hother
    have hfront := hlexeme.dropWhile_isBlank hblank
    generalize hcs : blanks ++ (piece ++ rest) = cs at hother hfront
    cases hother with
    | blank hblank' =>
      rw [dropWhile_isBlank_eq_nil hblank'] at hfront
      exact absurd (List.append_eq_nil_iff.mp hfront.symm).1 hlexeme.ne_nil
    | @lexeme _ t' blanks' piece' rest' segments' hblank' hlexeme' hrest' =>
      rw [hlexeme'.dropWhile_isBlank hblank'] at hfront
      -- both pieces stand at the front of one text, from which the scanner cuts one piece
      obtain ⟨c, cs', hcons, _⟩ := hlexeme.exists_cons
      have hcut := hlexeme.lexeme_eq hcons
      rw [hlexeme'.lexeme_eq (hfront.trans hcons), Prod.mk.injEq] at hcut
      obtain ⟨rfl, rfl⟩ := hcut
      rw [List.append_cancel_right hfront, ih hrest']

/-- No character is lost but the blank ones. -/
theorem Segmented.flatMap_fst {prev : Option Token} {cs : List Char}
    {segments : List (List Char × Token)} (h : Segmented prev cs segments) :
    segments.flatMap Prod.fst = cs.filter fun c => !isBlank c := by
  have hnone : ∀ {blanks : List Char}, blanks.all isBlank = true →
      (blanks.filter fun c => !isBlank c) = [] := by
    intro blanks hblank
    rw [List.filter_eq_nil_iff]
    intro c hc
    rw [List.all_eq_true.mp hblank c hc]
    decide
  induction h with
  | blank hblank => exact (hnone hblank).symm
  | @lexeme prev t blanks piece rest segments hblank hlexeme _ ih =>
    have hpiece : (piece.filter fun c => !isBlank c) = piece := by
      rw [List.filter_eq_self]
      intro c hc
      rw [hlexeme.solid c hc]
      rfl
    rw [List.filter_append, List.filter_append, hnone hblank, hpiece, List.nil_append,
      List.flatMap_cons, ih]

/-! ## Whole texts -/

/-- **The tokens of a text are those of its segmentation.** A text can be cut into lexemes
    and blank characters in exactly one way, its tokens are the tokens of these lexemes, and
    the lexemes one after the other are the text without its blank characters. -/
theorem tokenize_segmented (s : String) :
    (∀ ts, tokenize s = ts ↔
      ∃ segments, Segmented none s.toList segments ∧ segments.map Prod.snd = ts) ∧
    ∃ segments, Segmented none s.toList segments ∧
      (∀ other, Segmented none s.toList other → other = segments) ∧
      segments.flatMap Prod.fst = s.toList.filter fun c => !isBlank c := by
  obtain ⟨segments, hsegments⟩ := exists_segmented s.length none s.toList (Nat.le_refl _)
  have htokens : tokenize s = segments.map Prod.snd := hsegments.scan_eq
  refine ⟨fun ts => ⟨fun h => ?_, ?_⟩, segments, hsegments, fun _ => hsegments.unique,
    hsegments.flatMap_fst⟩
  · exact ⟨segments, hsegments, htokens.symm.trans h⟩
  · rintro ⟨other, hother, rfl⟩
    rw [hsegments.unique hother, htokens]

/-- A sign where an operand is due, a minus after an invalid token, and two points. -/
theorem tokenize_segmented_signs :
    ∃ segments, Segmented none "-. $-1.2.3".toList segments ∧
      segments.map Prod.snd = [.invalid "Invalid number", .invalid "Invalid char: $",
        .operator .sub, .number "1.2", .number ".3"] ∧
      (∀ other, Segmented none "-. $-1.2.3".toList other → other = segments) ∧
      segments.flatMap Prod.fst = ['-', '.', '$', '-', '1', '.', '2', '.', '3'] := by
  have htokens : tokenize "-. $-1.2.3" = [.invalid "Invalid number", .invalid "Invalid char: $",
      .operator .sub, .number "1.2", .number ".3"] := by decide +kernel
  obtain ⟨htokenize, only, honly, hunique, hfilter⟩ := tokenize_segmented "-. $-1.2.3"
  obtain ⟨segments, hsegments, hmap⟩ := (htokenize _).mp htokens
  refine ⟨segments, hsegments, hmap, fun other hother => ?_, ?_⟩
  · rw [hunique other hother, hunique segments hsegments]
  · rw [hunique segments hsegments, hfilter]
    decide

end Token

end Calculator
