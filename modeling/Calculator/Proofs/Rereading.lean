import Calculator.Proofs.Grammar
import Calculator.Proofs.Segmentation

/-!
# Reading the tokens of a text once more

The texts of tokens do not tell a sign from an operator: a minus is written the same
whether it belongs to a number or stands between two operands. Only the token before
it decides. So a token list is that of a text exactly when each token may follow the one
before it (`Follows`), and such a list is read back from the texts of its tokens with a
space before each. Without the spaces the one thing that can go wrong is that two numbers
run together; they stay apart only at a second point.

Results:

* `Follows.isLexeme`, `IsLexeme.follows`: a token may follow another exactly when its text
  is a lexeme after it.
* `lexical_iff_coherent`: the same rules said by positions.
* `Coherent.tokenize_joined`: texts divided by spaces are read back.
* `tokenize_image`: exactly the token lists of texts.
* `Segmented.parted`, `Coherent.tokenize_compact`: numbers that touch in a text.
* `tokenize_compact_iff`: exactly when texts without spaces are read back.
-/

namespace Calculator

namespace Token

open Text (isBlank)

/-! ## What may follow a token -/

/-- The tokens that may follow the token `prev`, or stand first. A number is a numeral, and
    it has a sign only where one may stand; there a minus is not an operator. -/
inductive Follows (prev : Option Token) : Token → Prop
  | number (n : Numeral) : (n.negative = true → TakesSign prev) → Follows prev (.number n.text)
  | operator (op : Operator) : (op = .sub → ¬ TakesSign prev) → Follows prev (.operator op)
  | opening (b : Bracket) : Follows prev (.opening b)
  | closing (b : Bracket) : Follows prev (.closing b)

/-- Every token may follow the one before it; the first follows `prev`. -/
inductive Coherent : Option Token → List Token → Prop
  | nil {prev : Option Token} : Coherent prev []
  | cons {prev : Option Token} {t : Token} {ts : List Token} :
      Follows prev t → Coherent (some t) ts → Coherent prev (t :: ts)

/-- A lexeme of one character. -/
theorem Symbolic.isLexeme {prev : Option Token} {c : Char} {t : Token} (rest : List Char)
    (h : Symbolic [c] t) (hblank : isBlank c = false) (hminus : c = '-' → ¬ TakesSign prev) :
    IsLexeme prev [c] t rest where
  ne_nil := List.cons_ne_nil _ _
  solid := by
    intro d hd
    rwa [List.mem_singleton.mp hd]
  kind := .inr h
  munch := fun hnumeric => absurd hnumeric h.not_numeric
  sign := fun hhead => ⟨fun hnumeric => absurd hnumeric h.not_numeric,
    fun hsign => absurd hsign (hminus (Option.some.inj hhead))⟩

/-- The text of a token that may follow is a lexeme, provided that the text after a number
    does not go on with it. -/
theorem Follows.isLexeme {prev : Option Token} {t : Token} {rest : List Char} (h : Follows prev t)
    (hends : ∀ text, t = .number text → EndsBefore text.toList rest) :
    IsLexeme prev t.text.toList t rest := by
  cases h with
  | number n hsign =>
    have hnumeric : Numeric n.chars (.number n.text) := .number n
    have hrest := hends n.text rfl
    rw [n.toList_text] at hrest
    show IsLexeme prev n.text.toList _ rest
    rw [n.toList_text]
    refine ⟨hnumeric.solid.1, hnumeric.solid.2, .inl hnumeric, fun _ => hrest, fun hminus => ?_⟩
    exact ⟨fun _ => hsign (n.head?_chars.mp hminus), fun _ => hnumeric⟩
  | operator op hsub =>
    rw [toList_text_operator]
    refine (Symbolic.operator op).isLexeme rest (by cases op <;> decide) fun hminus => hsub ?_
    cases op <;> first | rfl | exact absurd hminus (by decide)
  | opening b =>
    rw [toList_text_opening]
    exact (Symbolic.opening b).isLexeme rest (by cases b <;> decide)
      fun hminus => absurd hminus (by cases b <;> decide)
  | closing b =>
    rw [toList_text_closing]
    exact (Symbolic.closing b).isLexeme rest (by cases b <;> decide)
      fun hminus => absurd hminus (by cases b <;> decide)

/-- The token of a lexeme may follow the one before it, unless it is invalid. -/
theorem IsLexeme.follows {prev : Option Token} {piece rest : List Char} {t : Token}
    (h : IsLexeme prev piece t rest) (hvalid : ∀ complaint, t ≠ .invalid complaint) :
    Follows prev t := by
  rcases h.kind with hnumeric | hsymbolic
  · rcases hnumeric.number_or_malformed with ⟨n, rfl, rfl⟩ | ⟨ht, _⟩
    · exact .number n fun hnegative => (h.sign (n.head?_chars.mpr hnegative)).mp hnumeric
    · exact absurd ht (hvalid _)
  · have hnot := hsymbolic.not_numeric
    cases hsymbolic with
    | operator op =>
      refine .operator op ?_
      rintro rfl hsign
      exact hnot ((h.sign rfl).mpr hsign)
    | opening b => exact .opening b
    | closing b => exact .closing b
    | stray _ _ _ _ => exact absurd rfl (hvalid _)

/-- A segmentation, by induction on it. -/
theorem Segmented.coherent {prev : Option Token} {cs : List Char}
    {segments : List (List Char × Token)} (h : Segmented prev cs segments)
    (hvalid : ∀ complaint, .invalid complaint ∉ segments.map Prod.snd) :
    Coherent prev (segments.map Prod.snd) := by
  induction h with
  | blank _ => exact .nil
  | @lexeme _ t _ _ _ segments _ hlexeme _ ih =>
    rw [List.map_cons] at hvalid ⊢
    refine .cons (hlexeme.follows fun complaint ht => hvalid complaint ?_)
      (ih fun complaint hmem => hvalid complaint (List.mem_cons_of_mem _ hmem))
    rw [← ht]
    exact List.mem_cons_self

theorem coherent_tokenize {s : String} (hvalid : ∀ complaint, .invalid complaint ∉ tokenize s) :
    Coherent none (tokenize s) := by
  obtain ⟨segments, hsegments, htokens⟩ := exists_segmented_tokenize s
  rw [htokens] at hvalid ⊢
  exact hsegments.coherent hvalid

/-! ## The rules by positions -/

/-- The rules for the tokens of a text in which none is invalid, position by position. -/
structure Lexical (ts : List Token) : Prop where
  /-- Every number is a numeral. -/
  numeral : ∀ text, .number text ∈ ts → ∃ n : Numeral, n.text = text
  /-- A number with a sign stands first, or after an operator or an opening bracket. -/
  signed : ∀ pre text post, ts = pre ++ .number text :: post → text.toList.head? = some '-' →
    TakesSign pre.getLast?
  /-- A minus operator stands neither first nor after an operator or an opening bracket. -/
  minus : ∀ pre post, ts = pre ++ .operator .sub :: post → ¬ TakesSign pre.getLast?

theorem getLast?_cons_or (t : Token) (pre : List Token) (prev : Option Token) :
    (t :: pre).getLast?.or prev = pre.getLast?.or (some t) := by
  rw [List.getLast?_cons]
  cases pre.getLast? <;> rfl

/-- The token before a position is the last one of those in front of it. -/
theorem coherent_iff (ts : List Token) : ∀ {prev : Option Token}, Coherent prev ts ↔
    ∀ pre t post, ts = pre ++ t :: post → Follows (pre.getLast?.or prev) t := by
  induction ts with
  | nil =>
    intro prev
    refine ⟨fun _ pre t post hts => ?_, fun _ => .nil⟩
    cases pre <;> cases hts
  | cons u ts ih =>
    intro prev
    constructor
    · rintro (_ | ⟨hfollows, hrest⟩) pre t post hts
      cases pre with
      | nil =>
        cases hts
        exact hfollows
      | cons x pre =>
        cases hts
        rw [getLast?_cons_or]
        exact ih.mp hrest pre t post rfl
    · intro h
      refine .cons (h [] u ts rfl) (ih.mpr fun pre t post hts => ?_)
      rw [← getLast?_cons_or u pre prev]
      exact h (u :: pre) t post (by rw [hts]; rfl)

theorem lexical_iff_coherent {ts : List Token} (hvalid : ∀ complaint, .invalid complaint ∉ ts) :
    Lexical ts ↔ Coherent none ts := by
  rw [coherent_iff]
  constructor
  · intro h pre t post hts
    rw [Option.or_none]
    have hmem : t ∈ ts := by rw [hts]; simp
    cases t with
    | number text =>
      obtain ⟨n, rfl⟩ := h.numeral text hmem
      refine .number n fun hnegative => h.signed pre _ post hts ?_
      rwa [n.toList_text, n.head?_chars]
    | operator op =>
      refine .operator op ?_
      rintro rfl
      exact h.minus pre post hts
    | opening b => exact .opening b
    | closing b => exact .closing b
    | invalid complaint => exact absurd hmem (hvalid complaint)
  · intro h
    have hat : ∀ pre t post, ts = pre ++ t :: post → Follows pre.getLast? t := by
      intro pre t post hts
      have hfollows := h pre t post hts
      rwa [Option.or_none] at hfollows
    refine ⟨fun text hmem => ?_, fun pre text post hts hhead => ?_, fun pre post hts => ?_⟩
    · obtain ⟨pre, post, hts⟩ := List.append_of_mem hmem
      cases hat pre _ post hts with
      | number n _ => exact ⟨n, rfl⟩
    · cases hat pre _ post hts with
      | number n hsign =>
        rw [n.toList_text, n.head?_chars] at hhead
        exact hsign hhead
    · cases hat pre _ post hts with
      | operator _ hsub => exact hsub rfl

/-! ## Texts divided by spaces -/

/-- The texts of tokens, with a space before each. -/
def spaced (ts : List Token) : List Char := ts.flatMap fun t => ' ' :: t.text.toList

theorem spaced_cons (t : Token) (ts : List Token) :
    spaced (t :: ts) = ' ' :: (t.text.toList ++ spaced ts) := rfl

/-- It is the texts divided by spaces, but for the first space. -/
theorem spaced_eq_joined (ts : List Token) :
    ∀ t, spaced (t :: ts) = ' ' :: (joined (t :: ts)).toList := by
  induction ts with
  | nil => intro t; simp [spaced, joined]
  | cons u ts ih =>
    intro t
    have hjoined : (joined (t :: u :: ts)).toList =
        t.text.toList ++ ' ' :: (joined (u :: ts)).toList := by simp [joined]
    rw [spaced_cons, ih u, hjoined]

theorem scan_spaced (signed : Bool) (ts : List Token) :
    scan signed (spaced ts) = scan signed (joined ts).toList := by
  cases ts with
  | nil => rfl
  | cons t ts =>
    rw [spaced_eq_joined]
    have hblank : [' '].all isBlank = true := rfl
    exact scan_blanks hblank signed _

/-- Before a space, and at the end, a number does not go on. -/
theorem endsBefore_spaced (piece : List Char) (ts : List Token) : EndsBefore piece (spaced ts) := by
  intro c hc
  cases ts with
  | nil => cases hc
  | cons t ts =>
    cases hc
    exact ⟨by decide, fun h => absurd h (by decide)⟩

theorem Coherent.segmented_spaced {prev : Option Token} {ts : List Token} (h : Coherent prev ts) :
    Segmented prev (spaced ts) (ts.map fun t => (t.text.toList, t)) := by
  induction h with
  | nil => exact .blank rfl
  | @cons prev t ts hfollows _ ih =>
    have hlexeme := hfollows.isLexeme fun text _ => endsBefore_spaced text.toList ts
    have hblank : [' '].all isBlank = true := rfl
    exact .lexeme hblank hlexeme ih

theorem map_snd_texts (ts : List Token) :
    (ts.map fun t => (t.text.toList, t)).map Prod.snd = ts := by
  rw [List.map_map]
  exact List.map_id ts

theorem Coherent.tokenize_joined {ts : List Token} (h : Coherent none ts) :
    tokenize (joined ts) = ts := by
  have hscan := h.segmented_spaced.scan_eq
  rw [scan_spaced, map_snd_texts] at hscan
  exact hscan

/-- **Exactly the token lists of texts.** A list without invalid tokens is that of some text
    if and only if its numbers are numerals, a number with a sign stands only where an operand
    is due, and a minus operator only where none is. Every such list is read back from the
    texts of its tokens divided by spaces, and so are the tokens of every text. -/
theorem tokenize_image {ts : List Token} (hvalid : ∀ complaint, .invalid complaint ∉ ts) :
    ((∃ s, tokenize s = ts) ↔ Lexical ts) ∧
    (Lexical ts → tokenize (joined ts) = ts) ∧
    ∀ s, tokenize s = ts → tokenize (joined (tokenize s)) = tokenize s := by
  have hback : Lexical ts → tokenize (joined ts) = ts :=
    fun h => ((lexical_iff_coherent hvalid).mp h).tokenize_joined
  have himage : ∀ s, tokenize s = ts → Coherent none ts := by
    rintro s rfl
    exact coherent_tokenize hvalid
  refine ⟨⟨?_, fun h => ⟨_, hback h⟩⟩, hback, ?_⟩
  · rintro ⟨s, hs⟩
    exact (lexical_iff_coherent hvalid).mpr (himage s hs)
  · intro s hs
    rw [hs]
    exact (himage s hs).tokenize_joined

/-- Signs after an operator and an opening bracket, a minus after a closing one, and two
    numbers in a row. -/
theorem tokenize_image_signs :
    let ts : List Token := [.number "-2", .operator .sub, .opening .square, .number "-.5",
      .closing .round, .operator .sub, .number "1", .number "2."]
    (∀ complaint, .invalid complaint ∉ ts) ∧ Lexical ts ∧ tokenize (joined ts) = ts := by
  intro ts
  have hvalid : ∀ complaint, .invalid complaint ∉ ts := by simp [ts]
  have hs : tokenize "-2-[-.5)-1 2." = ts := by decide +kernel
  obtain ⟨himage, hback, _⟩ := tokenize_image hvalid
  have hlexical : Lexical ts := himage.mp ⟨_, hs⟩
  exact ⟨hvalid, hlexical, hback hlexical⟩

/-! ## Texts without spaces -/

/-- Where two numbers stand side by side, the first has a point and the second begins with
    one. -/
def Parted (ts : List Token) : Prop :=
  ∀ pre x y post, ts = pre ++ .number x :: .number y :: post →
    '.' ∈ x.toList ∧ y.toList.head? = some '.'

theorem Parted.tail {t : Token} {ts : List Token} (h : Parted (t :: ts)) : Parted ts := by
  intro pre x y post hts
  exact h (t :: pre) x y post (by rw [hts]; rfl)

theorem toList_compact (ts : List Token) :
    (compact ts).toList = ts.flatMap fun t => t.text.toList := by
  simp [compact, List.flatMap_map]

/-- A number does not go on with the text of the token after it. -/
theorem endsBefore_compact {x : String} {ts : List Token} (h : Coherent (some (.number x)) ts)
    (hparted : Parted (.number x :: ts)) :
    EndsBefore x.toList (ts.flatMap fun t => t.text.toList) := by
  intro c hc
  cases h with
  | nil => cases hc
  | @cons _ t ts hfollows _ =>
    rw [List.flatMap_cons] at hc
    cases hfollows with
    | number n _ =>
      -- a second point does not go on with the first number
      obtain ⟨hpoint, hhead⟩ := hparted [] x n.text ts rfl
      obtain ⟨tail, htail⟩ := List.head?_eq_some_iff.mp hhead
      have htext : (Token.number n.text).text.toList = '.' :: tail := htail
      rw [htext] at hc
      cases hc
      exact ⟨by decide, fun _ => hpoint⟩
    | operator op _ => cases op <;> cases hc <;> exact ⟨by decide, fun h => absurd h (by decide)⟩
    | opening b => cases b <;> cases hc <;> exact ⟨by decide, fun h => absurd h (by decide)⟩
    | closing b => cases b <;> cases hc <;> exact ⟨by decide, fun h => absurd h (by decide)⟩

theorem Coherent.segmented_compact {prev : Option Token} {ts : List Token} (h : Coherent prev ts) :
    Parted ts → Segmented prev (ts.flatMap fun t => t.text.toList)
      (ts.map fun t => (t.text.toList, t)) := by
  induction h with
  | nil => exact fun _ => .blank rfl
  | @cons prev t ts hfollows hrest ih =>
    intro hparted
    have hlexeme : IsLexeme prev t.text.toList t (ts.flatMap fun t => t.text.toList) := by
      refine hfollows.isLexeme ?_
      rintro text rfl
      exact endsBefore_compact hrest hparted
    have hblank : ([] : List Char).all isBlank = true := rfl
    exact .lexeme hblank hlexeme (ih hparted.tail)

theorem Coherent.tokenize_compact {ts : List Token} (h : Coherent none ts) (hparted : Parted ts) :
    tokenize (compact ts) = ts := by
  have hscan := (h.segmented_compact hparted).scan_eq
  rw [← toList_compact, map_snd_texts] at hscan
  exact hscan

/-- The texts of tokens have no blank characters. -/
theorem Coherent.solid {prev : Option Token} {ts : List Token} (h : Coherent prev ts) :
    ∀ c ∈ (compact ts).toList, isBlank c = false := by
  rw [toList_compact]
  induction h with
  | nil => exact fun _ hc => absurd hc List.not_mem_nil
  | @cons prev t ts hfollows _ ih =>
    intro c hc
    rw [List.flatMap_cons, List.mem_append] at hc
    have hlexeme : IsLexeme prev t.text.toList t [] :=
      hfollows.isLexeme fun _ _ _ hd => nomatch hd
    exact hc.elim (hlexeme.solid c) (ih c)

/-- The lexeme of a number is a numeral, with a sign only where one may stand. -/
theorem IsLexeme.exists_numeral {prev : Option Token} {piece rest : List Char} {text : String}
    (h : IsLexeme prev piece (.number text) rest) :
    ∃ n : Numeral, piece = n.chars ∧ text = n.text ∧ EndsBefore piece rest ∧
      (n.negative = true → TakesSign prev) := by
  rcases h.kind with hnumeric | hsymbolic
  · rcases hnumeric.number_or_malformed with ⟨n, rfl, htext⟩ | ⟨htext, _⟩
    · exact ⟨n, rfl, Token.number.inj htext, h.munch hnumeric,
        fun hnegative => (h.sign (n.head?_chars.mpr hnegative)).mp hnumeric⟩
    · cases htext
  · cases hsymbolic

/-- The number after a number has no sign, so where they touch it begins with a point, and
    the first one has one already. -/
theorem point_of_touching {x y : String} {piece rest : List Char}
    (hends : EndsBefore x.toList (piece ++ rest))
    (h : IsLexeme (some (.number x)) piece (.number y) rest) :
    '.' ∈ x.toList ∧ y.toList.head? = some '.' := by
  obtain ⟨n, rfl, rfl, _, hsign⟩ := h.exists_numeral
  obtain ⟨c, cs, hchars, hstart⟩ := n.chars_head
  have hunsigned : startsNumeral false c = true := by
    refine hstart false fun hnegative => ?_
    rcases hsign hnegative _ rfl with ⟨_, hx⟩ | ⟨_, hx⟩ <;> cases hx
  obtain ⟨hdigit, hpoint⟩ := hends c (by rw [hchars]; rfl)
  have hc : c = '.' := by simpa [startsNumeral, hdigit] using hunsigned
  refine ⟨hpoint hc, ?_⟩
  rw [n.toList_text, hchars, hc]
  rfl

/-- In a text without blank characters, numbers side by side touch. -/
theorem Segmented.parted {prev : Option Token} {cs : List Char}
    {segments : List (List Char × Token)} (h : Segmented prev cs segments) :
    (∀ c ∈ cs, isBlank c = false) → Parted (segments.map Prod.snd) := by
  induction h with
  | blank _ =>
    intro _ pre x y post hts
    cases pre <;> cases hts
  | @lexeme prev t blanks piece rest segments _ hlexeme hrest ih =>
    intro hsolid pre x y post hts
    have hsolid' : ∀ c ∈ rest, isBlank c = false :=
      fun c hc => hsolid c (by simp [hc])
    cases pre with
    | cons u pre => exact ih hsolid' pre x y post (List.cons.inj hts).2
    | nil =>
      obtain ⟨rfl, hrest'⟩ : t = .number x ∧ segments.map Prod.snd = .number y :: post :=
        List.cons.inj hts
      obtain ⟨n, rfl, rfl, hends, _⟩ := hlexeme.exists_numeral
      rw [← n.toList_text] at hends
      -- nothing stands between the two lexemes, for it could only be blank
      cases hrest with
      | blank _ => cases hrest'
      | @lexeme _ t' blanks' piece' rest' segments' hblank hlexeme' _ =>
        obtain ⟨rfl, _⟩ : t' = .number y ∧ segments'.map Prod.snd = post := List.cons.inj hrest'
        cases blanks' with
        | nil =>
          rw [List.nil_append] at hends
          exact point_of_touching hends hlexeme'
        | cons c blanks' =>
          have hc := List.all_eq_true.mp hblank c List.mem_cons_self
          rw [hsolid' c (by simp)] at hc
          cases hc

/-- Where operands and operators alternate, no two numbers stand side by side. -/
theorem alternate_numbers (pre post : List Token) (x y : String) :
    ∀ due, alternate due (pre ++ .number x :: .number y :: post) = false := by
  induction pre with
  | nil => intro due; cases due <;> rfl
  | cons t pre ih =>
    intro due
    cases due <;> cases t <;> first | rfl | exact ih _

theorem parted_of_derives {w : List Token} {t : Tree String} (h : Derives .expression w t) :
    Parted w := by
  rintro pre x y post rfl
  have halternate := h.alternate
  rw [alternate_numbers] at halternate
  cases halternate

/-- **Exactly when texts without spaces are read back.** The tokens of a text, none of them
    invalid, are read back from their texts with nothing between them if and only if, wherever
    two numbers stand side by side, the first has a point and the second begins with one. So
    the tokens of an expression always are. -/
theorem tokenize_compact_iff {s : String}
    (hvalid : ∀ complaint, .invalid complaint ∉ tokenize s) :
    (tokenize (compact (tokenize s)) = tokenize s ↔
      ∀ pre x y post, tokenize s = pre ++ .number x :: .number y :: post →
        '.' ∈ x.toList ∧ y.toList.head? = some '.') ∧
    ∀ t, Derives .expression (tokenize s) t → tokenize (compact (tokenize s)) = tokenize s := by
  have hcoherent := coherent_tokenize hvalid
  refine ⟨⟨fun hback => ?_, hcoherent.tokenize_compact⟩, fun t ht => ?_⟩
  · obtain ⟨segments, hsegments, htokens⟩ := exists_segmented_tokenize (compact (tokenize s))
    have hparted := hsegments.parted hcoherent.solid
    rwa [← htokens, hback] at hparted
  · exact hcoherent.tokenize_compact (parted_of_derives ht)

/-- Numbers that a second point keeps apart, and numbers that run together. -/
theorem tokenize_compact_iff_points :
    tokenize (compact (tokenize "1. .5 - -2")) = tokenize "1. .5 - -2" ∧
    tokenize (compact (tokenize "1 .5")) ≠ tokenize "1 .5" := by
  have hapart : tokenize "1. .5 - -2" =
      [.number "1.", .number ".5", .operator .sub, .number "-2"] := by decide +kernel
  have htouching : tokenize "1 .5" = [.number "1", .number ".5"] := by decide +kernel
  constructor
  · refine (tokenize_compact_iff (s := "1. .5 - -2") (by rw [hapart]; simp)).1.mpr ?_
    intro pre x y post hts
    rw [hapart] at hts
    rcases pre with _ | ⟨a, _ | ⟨b, _ | ⟨c, _ | ⟨d, pre⟩⟩⟩⟩
    · cases hts
      decide
    · cases hts
    · cases hts
    · cases hts
    · cases pre <;> cases hts
  · intro hback
    have hparted := (tokenize_compact_iff (s := "1 .5") (by rw [htouching]; simp)).1.mp hback
    exact absurd (hparted [] "1" ".5" [] htouching).1 (by decide)

end Token

end Calculator
