import Calculator.Proofs.Rereading

/-!
# Blanks between two texts

A blank character ends every lexeme, so nothing that is read before it takes a character
from behind it. All that the scanner carries over a blank is the last token, and all that
this token decides is whether a minus sign that comes next belongs to a number.

Results:

* `Segmented.append`: two segmentations with blanks between them make one.
* `scan_append`, `tokenize_append`: the tokens of two texts with blanks between them.
* `scan_signed_eq_iff`: only a minus sign at the front depends on what comes before.
* `tokenize_append_iff`: when the tokens are those of the two texts.
-/

namespace Calculator

namespace Token

open Text (isBlank)

/-! ## Blanks after a lexeme -/

/-- No lexeme goes on with a blank, nor with what comes after it. -/
theorem EndsBefore.append_blanks {lexeme rest blanks : List Char} (h : EndsBefore lexeme rest)
    (hne : blanks ≠ []) (hblank : blanks.all isBlank = true) (cs : List Char) :
    EndsBefore lexeme (rest ++ (blanks ++ cs)) := by
  intro c hc
  cases rest with
  | cons d rest => exact h c hc
  | nil =>
    cases blanks with
    | nil => exact absurd rfl hne
    | cons b blanks =>
      have hcb : b = c := by simpa using hc
      have hb : isBlank b = true := List.all_eq_true.mp hblank b List.mem_cons_self
      obtain ⟨hdigit, hpoint⟩ := Text.not_isDigit_of_isBlank hb
      rw [← hcb]
      exact ⟨hdigit, fun h => absurd h hpoint⟩

theorem IsLexeme.append_blanks {prev : Option Token} {piece rest blanks : List Char} {t : Token}
    (h : IsLexeme prev piece t rest) (hne : blanks ≠ []) (hblank : blanks.all isBlank = true)
    (cs : List Char) : IsLexeme prev piece t (rest ++ (blanks ++ cs)) :=
  { h with munch := fun hnumeric => (h.munch hnumeric).append_blanks hne hblank cs }

/-! ## Two segmentations -/

theorem Segmented.prepend_blanks {prev : Option Token} {blanks cs : List Char}
    {segments : List (List Char × Token)} (hblank : blanks.all isBlank = true)
    (h : Segmented prev cs segments) : Segmented prev (blanks ++ cs) segments := by
  induction blanks with
  | nil => exact h
  | cons b blanks ih =>
    simp only [List.all_cons, Bool.and_eq_true] at hblank
    exact (ih hblank.2).cons_blank hblank.1

/-- The second text is cut as it would be after the last token of the first. By induction on
    the first segmentation. -/
theorem Segmented.append {prev : Option Token} {cs ds blanks : List Char}
    {segments others : List (List Char × Token)} (hne : blanks ≠ [])
    (hblank : blanks.all isBlank = true) (h : Segmented prev cs segments) :
    Segmented ((segments.map Prod.snd).getLast?.or prev) ds others →
      Segmented prev (cs ++ (blanks ++ ds)) (segments ++ others) := by
  induction h with
  | @blank prev front hfront =>
    intro hothers
    exact Segmented.prepend_blanks hfront (Segmented.prepend_blanks hblank hothers)
  | @lexeme prev t front piece rest segments hfront hlexeme _ ih =>
    intro hothers
    rw [List.map_cons, getLast?_cons_or] at hothers
    have hrest := ih hothers
    have happend : front ++ (piece ++ rest) ++ (blanks ++ ds) =
        front ++ (piece ++ (rest ++ (blanks ++ ds))) := by simp
    rw [happend]
    exact .lexeme hfront (hlexeme.append_blanks hne hblank ds) hrest

/-- The scanner goes on after the blanks with the last token that it has read. -/
theorem scan_append {blanks : List Char} (hne : blanks ≠ []) (hblank : blanks.all isBlank = true)
    (prev : Option Token) (cs ds : List Char) :
    scan (prev.all wantsOperand) (cs ++ (blanks ++ ds)) =
      scan (prev.all wantsOperand) cs ++
        scan (((scan (prev.all wantsOperand) cs).getLast?.or prev).all wantsOperand) ds := by
  obtain ⟨segments, hsegments⟩ := exists_segmented cs.length prev cs (Nat.le_refl _)
  obtain ⟨others, hothers⟩ :=
    exists_segmented ds.length ((segments.map Prod.snd).getLast?.or prev) ds (Nat.le_refl _)
  have hall := (hsegments.append hne hblank hothers).scan_eq
  rw [List.map_append] at hall
  rw [hall, hsegments.scan_eq, hothers.scan_eq]

theorem tokenize_append {w : String} (hne : w ≠ "") (hblank : w.toList.all isBlank = true)
    (a b : String) : tokenize (a ++ w ++ b) =
      tokenize a ++ scan ((tokenize a).getLast?.all wantsOperand) b.toList := by
  have hchars : w.toList ≠ [] := by simpa using hne
  have hscan := scan_append hchars hblank none a.toList b.toList
  rw [Option.or_none] at hscan
  show scan true (a ++ w ++ b).toList = _
  rw [String.toList_append, String.toList_append, List.append_assoc]
  exact hscan

/-! ## A minus sign at the front -/

/-- A text is read from its first character that is not blank. -/
theorem scan_dropWhile_isBlank (signed : Bool) (cs : List Char) :
    scan signed (cs.dropWhile isBlank) = scan signed cs := by
  have hfront : (cs.takeWhile isBlank).all isBlank = true := List.all_takeWhile
  have hscan := scan_blanks hfront signed (cs.dropWhile isBlank)
  rw [List.takeWhile_append_dropWhile] at hscan
  exact hscan.symm

theorem scan_cons (signed : Bool) {c : Char} (hc : isBlank c = false) (cs : List Char) :
    scan signed (c :: cs) = (lexeme signed c cs).1 ::
      scan (lexeme signed c cs).1.wantsOperand (lexeme signed c cs).2 :=
  scan_lexeme hc rfl

/-- Only a minus sign can begin two different tokens. -/
theorem lexeme_signed_eq {c : Char} (h : c ≠ '-') (cs : List Char) :
    lexeme false c cs = lexeme true c cs := by
  have hstart : startsNumeral false c = startsNumeral true c := by simp [startsNumeral, h]
  simp only [lexeme, hstart]

/-- Where a sign may stand, a minus is never the operator. -/
theorem scan_minus_ne (cs : List Char) : scan false ('-' :: cs) ≠ scan true ('-' :: cs) := by
  have hblank : isBlank '-' = false := by decide
  have hsign : (lexeme true '-' cs).1 ≠ .operator .sub := by
    show ofNumeral (splitNumeral ('-' :: cs)).1 ≠ _
    unfold ofNumeral
    split <;> nofun
  intro h
  rw [scan_cons false hblank, scan_cons true hblank] at h
  exact hsign (List.cons.inj h).1.symm

/-- What comes before a text matters exactly when the text begins with a minus sign. -/
theorem scan_signed_eq_iff (cs : List Char) :
    scan false cs = scan true cs ↔ (cs.dropWhile isBlank).head? ≠ some '-' := by
  rw [← scan_dropWhile_isBlank false, ← scan_dropWhile_isBlank true]
  have hhead := List.head?_dropWhile_not isBlank cs
  cases hfront : cs.dropWhile isBlank with
  | nil => simp [scan]
  | cons c rest =>
    rw [hfront] at hhead
    have hblank : isBlank c = false := hhead
    by_cases hc : c = '-'
    · subst hc
      simp [scan_minus_ne]
    · have hsame : scan false (c :: rest) = scan true (c :: rest) := by
        rw [scan_cons false hblank, scan_cons true hblank, lexeme_signed_eq hc]
      simp [hsame, hc]

/-! ## Whole texts -/

/-- An operand is due at the end of tokens: there is none, or the last one is an operator or
    an opening bracket. -/
theorem getLast?_all_wantsOperand_iff (ts : List Token) :
    ts.getLast?.all wantsOperand = true ↔ ts = [] ∨ (∃ op, ts.getLast? = some (.operator op)) ∨
      ∃ bracket, ts.getLast? = some (.opening bracket) := by
  have hnil : ts = [] ↔ ts.getLast? = none := List.getLast?_eq_none_iff.symm
  rw [hnil]
  cases ts.getLast? with
  | none => simp
  | some t => cases t <;> simp [wantsOperand]

/-- **Texts with blanks between them.** Two texts with one or more blanks between them have
    the tokens of the first and then those of the second if and only if the first has no
    token, or ends with an operator or an opening bracket, or the second does not begin with
    a minus sign. Which blanks stand there, and how many, never matters, nor do blanks in
    front of a text or behind it. -/
theorem tokenize_append_iff {w : String} (hne : w ≠ "") (hblank : w.toList.all isBlank = true)
    (a b : String) :
    (tokenize (a ++ w ++ b) = tokenize a ++ tokenize b ↔
      tokenize a = [] ∨ (∃ op, (tokenize a).getLast? = some (.operator op)) ∨
      (∃ bracket, (tokenize a).getLast? = some (.opening bracket)) ∨
      (b.toList.dropWhile isBlank).head? ≠ some '-') ∧
    (∀ w' : String, w' ≠ "" → w'.toList.all isBlank = true →
      tokenize (a ++ w' ++ b) = tokenize (a ++ w ++ b)) ∧
    tokenize (w ++ a) = tokenize a ∧ tokenize (a ++ w) = tokenize a := by
  refine ⟨?_, fun w' hne' hblank' => ?_, ?_, ?_⟩
  · have hdue := getLast?_all_wantsOperand_iff (tokenize a)
    have hminus := scan_signed_eq_iff b.toList
    rw [tokenize_append hne hblank, List.append_cancel_left_eq]
    cases hlast : (tokenize a).getLast?.all wantsOperand with
    | true =>
      refine iff_of_true rfl ?_
      rcases hdue.mp hlast with h | h | h
      · exact .inl h
      · exact .inr (.inl h)
      · exact .inr (.inr (.inl h))
    | false =>
      rw [hlast] at hdue
      have hnot := mt hdue.mpr Bool.false_ne_true
      show scan false b.toList = scan true b.toList ↔ _
      rw [hminus]
      constructor
      · exact fun h => .inr (.inr (.inr h))
      · rintro (h | h | h | h)
        · exact absurd (.inl h) hnot
        · exact absurd (.inr (.inl h)) hnot
        · exact absurd (.inr (.inr h)) hnot
        · exact h
  · rw [tokenize_append hne' hblank', tokenize_append hne hblank]
  · show scan true (w ++ a).toList = _
    rw [String.toList_append, scan_blanks hblank]
    rfl
  · have hend := tokenize_append hne hblank a ""
    rw [String.append_empty] at hend
    simpa [scan] using hend

/-- A minus after an operator, after a number and after an invalid sign, behind two kinds of
    blanks. -/
theorem tokenize_append_iff_signs :
    tokenize ("2*" ++ " " ++ "-1") = tokenize "2*" ++ tokenize "-1" ∧
    tokenize ("2" ++ " " ++ "-1") ≠ tokenize "2" ++ tokenize "-1" ∧
    tokenize ("(-" ++ " " ++ "-.") ≠ tokenize "(-" ++ tokenize "-." ∧
    tokenize ("2" ++ "\t\u3000" ++ "-1") = tokenize ("2" ++ " " ++ "-1") ∧
    tokenize (" " ++ "2") = tokenize "2" := by
  have hne : " " ≠ "" := by decide
  have hblank : " ".toList.all isBlank = true := by decide
  have hproduct : tokenize "2*" = [.number "2", .operator .mul] := by decide +kernel
  have hnumber : tokenize "2" = [.number "2"] := by decide +kernel
  have hsign : tokenize "(-" = [.opening .round, .invalid "Invalid number"] := by decide +kernel
  refine ⟨(tokenize_append_iff hne hblank "2*" "-1").1.mpr ?_, fun h => ?_, fun h => ?_,
    (tokenize_append_iff hne hblank "2" "-1").2.1 "\t\u3000" (by decide) (by decide),
    (tokenize_append_iff hne hblank "2" "").2.2.1⟩
  · exact .inr (.inl ⟨.mul, by rw [hproduct]; rfl⟩)
  · rcases (tokenize_append_iff hne hblank "2" "-1").1.mp h with h | ⟨_, h⟩ | ⟨_, h⟩ | h
    · rw [hnumber] at h; cases h
    · rw [hnumber] at h; cases h
    · rw [hnumber] at h; cases h
    · exact h (by decide)
  · rcases (tokenize_append_iff hne hblank "(-" "-.").1.mp h with h | ⟨_, h⟩ | ⟨_, h⟩ | h
    · rw [hsign] at h; cases h
    · rw [hsign] at h; cases h
    · rw [hsign] at h; cases h
    · exact h (by decide)

end Token

end Calculator
