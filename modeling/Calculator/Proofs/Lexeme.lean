import Calculator.Proofs.Spelling

/-!
# Lexemes

The piece of text that each kind of token is written with, said without the scanner:
what a piece looks like, what may follow it, and when a minus sign belongs to a number.
The scanner cuts off exactly such a piece.

Results:

* `numeric_splitNumeral`: what the scanner cuts off as a number is a numeral, or a sign
  or a point without a digit, and the text after it does not go on with it.
* `isLexeme_lexeme`: the piece that the scanner cuts off is a lexeme of its token.
* `IsLexeme.lexeme_eq`: the scanner cuts off no other piece.
-/

namespace Calculator

namespace Token

open Text (isBlank)

/-! ## The kinds of lexemes -/

/-- The lexemes of numbers: numerals, and a sign and a point that have no digit. -/
inductive Numeric : List Char → Token → Prop
  | number (n : Numeral) : Numeric n.chars (.number n.text)
  | sign : Numeric ['-'] (.invalid malformedNumber)
  | point : Numeric ['.'] (.invalid malformedNumber)
  | signedPoint : Numeric ['-', '.'] (.invalid malformedNumber)

/-- The lexemes of one character: the symbols of operators and brackets, and the
    characters that begin no token. -/
inductive Symbolic : List Char → Token → Prop
  | operator (op : Operator) : Symbolic [op.symbol] (.operator op)
  | opening (b : Bracket) : Symbolic [b.opener] (.opening b)
  | closing (b : Bracket) : Symbolic [b.closer] (.closing b)
  | stray {c : Char} : c.isDigit = false → c ≠ '.' → (∀ op : Operator, c ≠ op.symbol) →
      (∀ b : Bracket, c ≠ b.opener ∧ c ≠ b.closer) → Symbolic [c] (.invalid (strayCharacter c))

/-- The text after the lexeme of a number does not go on with it: it begins with no digit,
    and with a point only if the lexeme has one. -/
def EndsBefore (lexeme rest : List Char) : Prop :=
  ∀ c ∈ rest.head?, c.isDigit = false ∧ (c = '.' → '.' ∈ lexeme)

/-- A minus sign after the token `prev` belongs to a number: there is no token, or it is an
    operator or an opening bracket. -/
def TakesSign (prev : Option Token) : Prop :=
  ∀ t ∈ prev, (∃ op, t = .operator op) ∨ ∃ b, t = .opening b

/-- After the token `prev` and before the text `rest` stands a lexeme of the token `t`. -/
structure IsLexeme (prev : Option Token) (lexeme : List Char) (t : Token) (rest : List Char) :
    Prop where
  ne_nil : lexeme ≠ []
  solid : ∀ c ∈ lexeme, isBlank c = false
  kind : Numeric lexeme t ∨ Symbolic lexeme t
  munch : Numeric lexeme t → EndsBefore lexeme rest
  sign : lexeme.head? = some '-' → (Numeric lexeme t ↔ TakesSign prev)

/-! ## Literals with or without a digit -/

/-- The characters of a literal by its parts. -/
def literal (negative : Bool) (whole : List Char) (fraction : Option (List Char)) : List Char :=
  (if negative then ['-'] else []) ++ (whole ++ fraction.elim [] ('.' :: ·))

theorem literal_numeral (n : Numeral) : literal n.negative n.whole n.fraction = n.chars := by
  have htail : n.fraction.elim [] ('.' :: ·) = n.tail := by
    unfold Numeral.tail
    cases n.fraction <;> rfl
  unfold literal Numeral.chars Numeral.magnitude
  rw [htail]
  cases n.negative <;> rfl

/-- A literal has a point exactly when it has a fraction. -/
theorem point_mem_literal {negative : Bool} {whole : List Char} {fraction : Option (List Char)}
    (digits : (whole ++ fraction.getD []).all Char.isDigit = true) :
    '.' ∈ literal negative whole fraction ↔ fraction ≠ none := by
  have hwhole : '.' ∉ whole := by
    intro h
    have hdigit := List.all_eq_true.mp digits '.' (List.mem_append_left _ h)
    exact absurd hdigit (by decide)
  have hsign : '.' ∉ (if negative then ['-'] else []) := by cases negative <;> decide
  cases fraction with
  | none => simp [literal, hwhole, hsign]
  | some ds => simp [literal]

/-- A literal is the lexeme of a number. -/
theorem numeric_literal {negative : Bool} {whole : List Char} {fraction : Option (List Char)}
    (digits : (whole ++ fraction.getD []).all Char.isDigit = true)
    (hne : literal negative whole fraction ≠ []) :
    Numeric (literal negative whole fraction) (ofNumeral (literal negative whole fraction)) := by
  by_cases hdigit : whole ++ fraction.getD [] = []
  · obtain ⟨rfl, hfraction⟩ := List.append_eq_nil_iff.mp hdigit
    cases fraction with
    | none =>
      cases negative with
      | true => exact .sign
      | false => exact absurd rfl hne
    | some ds =>
      have hds : ds = [] := hfraction
      subst hds
      cases negative with
      | true => exact .signedPoint
      | false => exact .point
  · have hchars := literal_numeral ⟨negative, whole, fraction, digits, hdigit⟩
    rw [hchars, Numeral.ofNumeral_chars]
    exact .number _

/-! ## Cutting off a number -/

/-- The magnitude that is cut off has digits and at most one point, and it is the longest. -/
theorem splitMagnitude_shape (cs : List Char) : ∃ whole fraction,
    (whole ++ fraction.getD []).all Char.isDigit = true ∧
    (splitMagnitude cs).1 = literal false whole fraction ∧
    ∀ c ∈ (splitMagnitude cs).2.head?, c.isDigit = false ∧ (c = '.' → fraction ≠ none) := by
  have hhead : ∀ l : List Char, ∀ c ∈ (l.dropWhile Char.isDigit).head?, c.isDigit = false := by
    intro l c hc
    have h := List.head?_dropWhile_not Char.isDigit l
    rwa [Option.mem_def.mp hc] at h
  have hdigits : ∀ l : List Char, (l.takeWhile Char.isDigit).all Char.isDigit = true :=
    fun _ => List.all_takeWhile
  unfold splitMagnitude
  split
  · next rest hdrop =>
    refine ⟨cs.takeWhile Char.isDigit, some (rest.takeWhile Char.isDigit), ?_, rfl, ?_⟩
    · rw [List.all_append, hdigits, Option.getD_some, hdigits]
      rfl
    · exact fun c hc => ⟨hhead rest c hc, fun _ => Option.some_ne_none _⟩
  · next hpoint =>
    refine ⟨cs.takeWhile Char.isDigit, none, ?_, ?_, ?_⟩
    · rw [Option.getD_none, List.append_nil, hdigits]
    · simp [literal]
    · intro c hc
      refine ⟨hhead cs c hc, ?_⟩
      rintro rfl
      obtain ⟨rest, hrest⟩ := List.head?_eq_some_iff.mp hc
      exact absurd hrest (hpoint rest)

/-- A number is cut off with its sign. -/
theorem splitNumeral_shape (cs : List Char) : ∃ negative whole fraction,
    (whole ++ fraction.getD []).all Char.isDigit = true ∧
    (splitNumeral cs).1 = literal negative whole fraction ∧
    ∀ c ∈ (splitNumeral cs).2.head?, c.isDigit = false ∧ (c = '.' → fraction ≠ none) := by
  unfold splitNumeral
  split
  · next cs =>
    obtain ⟨whole, fraction, hdigits, hcut, hrest⟩ := splitMagnitude_shape cs
    refine ⟨true, whole, fraction, hdigits, ?_, hrest⟩
    simp only
    rw [hcut]
    rfl
  · exact ⟨false, splitMagnitude_shape cs⟩

/-- What is cut off as a number is the longest lexeme of one. -/
theorem numeric_splitNumeral {signed : Bool} {c : Char} (cs : List Char)
    (h : startsNumeral signed c = true) :
    Numeric (splitNumeral (c :: cs)).1 (ofNumeral (splitNumeral (c :: cs)).1) ∧
    EndsBefore (splitNumeral (c :: cs)).1 (splitNumeral (c :: cs)).2 := by
  obtain ⟨negative, whole, fraction, hdigits, hcut, hrest⟩ := splitNumeral_shape (c :: cs)
  have hne := splitNumeral_ne_nil cs h
  rw [hcut] at hne
  rw [hcut]
  refine ⟨numeric_literal hdigits hne, fun d hd => ⟨(hrest d hd).1, fun hpoint => ?_⟩⟩
  exact (point_mem_literal hdigits).mpr ((hrest d hd).2 hpoint)

/-- Where neither a digit nor a point follows, the magnitude is empty. -/
theorem splitMagnitude_eq_nil {rest : List Char}
    (h : ∀ c ∈ rest.head?, c.isDigit = false ∧ c ≠ '.') : splitMagnitude rest = ([], rest) := by
  have htake := Run.takeWhile_eq_nil fun c hc => (h c hc).1
  have hdrop := Run.dropWhile_eq_self htake
  unfold splitMagnitude
  rw [htake, hdrop]
  split
  · exact absurd rfl (h '.' rfl).2
  · rfl

/-- A point with no digit after it. -/
theorem splitMagnitude_point {rest : List Char} (h : ∀ c ∈ rest.head?, c.isDigit = false) :
    splitMagnitude ('.' :: rest) = (['.'], rest) := by
  have htake := Run.takeWhile_eq_nil h
  have hdrop := Run.dropWhile_eq_self htake
  show (['.'] ++ rest.takeWhile Char.isDigit, rest.dropWhile Char.isDigit) = _
  rw [htake, hdrop]
  rfl

/-! ## Numbers without blanks -/

theorem isBlank_of_isDigit {c : Char} (h : c.isDigit = true) : isBlank c = false := by
  cases hb : isBlank c with
  | false => rfl
  | true => rw [(Text.not_isDigit_of_isBlank hb).1] at h; cases h

theorem solid_literal {negative : Bool} {whole : List Char} {fraction : Option (List Char)}
    (digits : (whole ++ fraction.getD []).all Char.isDigit = true) :
    ∀ c ∈ literal negative whole fraction, isBlank c = false := by
  have hdigit : ∀ c ∈ whole ++ fraction.getD [], isBlank c = false :=
    fun c hc => isBlank_of_isDigit (List.all_eq_true.mp digits c hc)
  intro c hc
  rcases List.mem_append.mp hc with hsign | hc
  · cases negative with
    | true => rw [List.mem_singleton.mp hsign]; decide
    | false => cases hsign
  · rcases List.mem_append.mp hc with hwhole | htail
    · exact hdigit c (List.mem_append_left _ hwhole)
    · cases fraction with
      | none => cases htail
      | some ds =>
        rcases List.mem_cons.mp htail with rfl | hds
        · decide
        · exact hdigit c (List.mem_append_right _ hds)

/-- The lexeme of a number has at least one character, and no blank one. -/
theorem Numeric.solid {lexeme : List Char} {t : Token} (h : Numeric lexeme t) :
    lexeme ≠ [] ∧ ∀ c ∈ lexeme, isBlank c = false := by
  cases h with
  | number n =>
    obtain ⟨c, cs, hchars, _⟩ := n.chars_head
    refine ⟨by rw [hchars]; exact List.cons_ne_nil _ _, ?_⟩
    rw [← literal_numeral]
    exact solid_literal n.digits
  | sign =>
    have hsolid : ∀ c ∈ literal true [] none, isBlank c = false := solid_literal rfl
    exact ⟨List.cons_ne_nil _ _, hsolid⟩
  | point =>
    have hsolid : ∀ c ∈ literal false [] (some []), isBlank c = false := solid_literal rfl
    exact ⟨List.cons_ne_nil _ _, hsolid⟩
  | signedPoint =>
    have hsolid : ∀ c ∈ literal true [] (some []), isBlank c = false := solid_literal rfl
    exact ⟨List.cons_ne_nil _ _, hsolid⟩

/-! ## From the scanner to the lexeme -/

theorem takesSign_iff {prev : Option Token} :
    TakesSign prev ↔ prev.all wantsOperand = true := by
  unfold TakesSign
  cases prev with
  | none => simp
  | some t => cases t <;> simp [wantsOperand]

/-- The token of a single character. -/
theorem symbolic_ofSymbol {c : Char} (hdigit : c.isDigit = false) (hpoint : c ≠ '.') :
    Symbolic [c] (ofSymbol c) := by
  unfold ofSymbol
  split
  · exact .opening .round
  · exact .closing .round
  · exact .opening .square
  · exact .closing .square
  · next hround hround' hsquare hsquare' =>
    cases hop : Operator.ofSymbol? c with
    | some op =>
      rw [← Operator.symbol_of_ofSymbol? hop]
      exact .operator op
    | none =>
      refine .stray hdigit hpoint (fun op hc => ?_) (fun b => ?_)
      · rw [hc, Operator.ofSymbol?_symbol] at hop
        cases hop
      · cases b with
        | round => exact ⟨hround, hround'⟩
        | square => exact ⟨hsquare, hsquare'⟩

/-- The lexeme of a number is a numeral, or it has no digit. -/
theorem Numeric.number_or_malformed {piece : List Char} {t : Token} (h : Numeric piece t) :
    (∃ n : Numeral, piece = n.chars ∧ t = .number n.text) ∨
    (t = .invalid malformedNumber ∧ (piece = ['-'] ∨ piece = ['.'] ∨ piece = ['-', '.'])) := by
  cases h with
  | number n => exact .inl ⟨n, rfl, rfl⟩
  | sign => exact .inr ⟨rfl, .inl rfl⟩
  | point => exact .inr ⟨rfl, .inr (.inl rfl)⟩
  | signedPoint => exact .inr ⟨rfl, .inr (.inr rfl)⟩

/-- No lexeme is of both kinds. -/
theorem Symbolic.not_numeric {piece : List Char} {t : Token} (h : Symbolic piece t) :
    ¬ Numeric piece t := by
  intro hnumeric
  cases h with
  | operator op => rcases hnumeric.number_or_malformed with ⟨_, _, ht⟩ | ⟨ht, _⟩ <;> cases ht
  | opening b => rcases hnumeric.number_or_malformed with ⟨_, _, ht⟩ | ⟨ht, _⟩ <;> cases ht
  | closing b => rcases hnumeric.number_or_malformed with ⟨_, _, ht⟩ | ⟨ht, _⟩ <;> cases ht
  | stray _ hpoint hop _ =>
    rcases hnumeric.number_or_malformed with ⟨n, _, ht⟩ | ⟨_, hsign | hdot | hboth⟩
    · cases ht
    · exact hop .sub (List.cons.inj hsign).1
    · exact hpoint (List.cons.inj hdot).1
    · cases hboth

/-- What the scanner cuts off is a lexeme of the token it gives. -/
theorem isLexeme_lexeme (prev : Option Token) {c : Char} {cs : List Char}
    (hc : isBlank c = false) : ∃ piece,
      piece ++ (lexeme (prev.all wantsOperand) c cs).2 = c :: cs ∧
      IsLexeme prev piece (lexeme (prev.all wantsOperand) c cs).1
        (lexeme (prev.all wantsOperand) c cs).2 := by
  unfold lexeme
  by_cases hstart : startsNumeral (prev.all wantsOperand) c = true
  · rw [if_pos hstart]
    obtain ⟨hnumeric, hends⟩ := numeric_splitNumeral cs hstart
    have hcut := splitNumeral_append (c :: cs)
    refine ⟨_, hcut, hnumeric.solid.1, hnumeric.solid.2, .inl hnumeric, fun _ => hends, ?_⟩
    intro hminus
    refine ⟨fun _ => ?_, fun _ => hnumeric⟩
    -- the piece begins as the text does, and a minus sign begins a number only where one may stand
    obtain ⟨tail, htail⟩ := List.head?_eq_some_iff.mp hminus
    rw [htail, List.cons_append] at hcut
    have hhead : c = '-' := (List.cons.inj hcut).1.symm
    subst hhead
    rw [takesSign_iff]
    simpa [startsNumeral] using hstart
  · rw [if_neg hstart]
    have hplain : c.isDigit = false ∧ c ≠ '.' ∧ (c = '-' → prev.all wantsOperand = false) := by
      simpa [startsNumeral, and_assoc] using hstart
    have hsymbolic := symbolic_ofSymbol hplain.1 hplain.2.1
    refine ⟨[c], rfl, List.cons_ne_nil _ _, ?_, .inr hsymbolic, ?_, ?_⟩
    · intro d hd
      rw [List.mem_singleton.mp hd]
      exact hc
    · exact fun hnumeric => absurd hnumeric hsymbolic.not_numeric
    · intro hminus
      have hsigned := hplain.2.2 (Option.some.inj hminus)
      rw [takesSign_iff, hsigned]
      exact ⟨fun hnumeric => absurd hnumeric hsymbolic.not_numeric, fun h => by cases h⟩

/-! ## From the lexeme to the scanner -/

theorem lexeme_of_splitNumeral {signed : Bool} {c : Char} {cs piece rest : List Char}
    (hstart : startsNumeral signed c = true) (hcut : splitNumeral (c :: cs) = (piece, rest)) :
    lexeme signed c cs = (ofNumeral piece, rest) := by
  rw [lexeme, if_pos hstart, hcut]

/-- A number is read in one piece. -/
theorem Numeric.lexeme_eq {signed : Bool} {piece rest cs : List Char} {c : Char} {t : Token}
    (h : Numeric piece t) (hends : EndsBefore piece rest)
    (hsigned : piece.head? = some '-' → signed = true) (hcs : piece ++ rest = c :: cs) :
    lexeme signed c cs = (t, rest) := by
  cases h with
  | number n =>
    have hendsAt : n.EndsAt rest := by
      intro d hd
      refine ⟨(hends d hd).1, fun hpoint => ?_⟩
      have hmem := (hends d hd).2 hpoint
      rw [← literal_numeral] at hmem
      exact (point_mem_literal n.digits).mp hmem
    refine n.lexeme_eq hendsAt (fun hneg => hsigned ?_) hcs
    rw [Numeral.chars, if_pos hneg]
    rfl
  | sign =>
    obtain ⟨rfl, rfl⟩ : '-' = c ∧ rest = cs := List.cons.inj hcs
    have hnil : splitMagnitude rest = ([], rest) :=
      splitMagnitude_eq_nil fun d hd => ⟨(hends d hd).1, fun hpoint =>
        absurd ((hends d hd).2 hpoint) (by decide)⟩
    have hcut : splitNumeral ('-' :: rest) = (['-'], rest) := by rw [splitNumeral, hnil]
    exact lexeme_of_splitNumeral (by rw [hsigned rfl]; rfl) hcut
  | point =>
    obtain ⟨rfl, rfl⟩ : '.' = c ∧ rest = cs := List.cons.inj hcs
    have hcut : splitNumeral ('.' :: rest) = (['.'], rest) :=
      splitMagnitude_point fun d hd => (hends d hd).1
    exact lexeme_of_splitNumeral (by cases signed <;> rfl) hcut
  | signedPoint =>
    obtain ⟨rfl, rfl⟩ : '-' = c ∧ '.' :: rest = cs := List.cons.inj hcs
    have hcut : splitNumeral ('-' :: '.' :: rest) = (['-', '.'], rest) := by
      rw [splitNumeral, splitMagnitude_point fun d hd => (hends d hd).1]
    exact lexeme_of_splitNumeral (by rw [hsigned rfl]; rfl) hcut

/-- A single character is the symbol of one token only, and begins no number unless it is
    a minus sign. -/
theorem Symbolic.ofSymbol_eq {piece : List Char} {t : Token} (h : Symbolic piece t) :
    ∃ c, piece = [c] ∧ c.isDigit = false ∧ c ≠ '.' ∧ ofSymbol c = t := by
  cases h with
  | operator op => exact ⟨op.symbol, rfl, by cases op <;> decide⟩
  | opening b => exact ⟨b.opener, rfl, by cases b <;> decide⟩
  | closing b => exact ⟨b.closer, rfl, by cases b <;> decide⟩
  | @stray c hdigit hpoint hop hbracket =>
    refine ⟨c, rfl, hdigit, hpoint, ?_⟩
    unfold ofSymbol
    split
    · exact absurd rfl (hbracket .round).1
    · exact absurd rfl (hbracket .round).2
    · exact absurd rfl (hbracket .square).1
    · exact absurd rfl (hbracket .square).2
    · cases hsome : Operator.ofSymbol? c with
      | some op => exact absurd (Operator.symbol_of_ofSymbol? hsome).symm (hop op)
      | none => rfl

/-- The scanner cuts off the lexeme that stands at the front of the text. -/
theorem IsLexeme.lexeme_eq {prev : Option Token} {piece rest cs : List Char} {c : Char}
    {t : Token} (h : IsLexeme prev piece t rest) (hcs : piece ++ rest = c :: cs) :
    lexeme (prev.all wantsOperand) c cs = (t, rest) := by
  rcases h.kind with hnumeric | hsymbolic
  · refine hnumeric.lexeme_eq (h.munch hnumeric) (fun hminus => ?_) hcs
    exact takesSign_iff.mp ((h.sign hminus).mp hnumeric)
  · obtain ⟨d, rfl, hdigit, hpoint, hsymbol⟩ := hsymbolic.ofSymbol_eq
    obtain ⟨rfl, rfl⟩ := List.cons.inj hcs
    have hsigned : d = '-' → prev.all wantsOperand = false := by
      rintro rfl
      have hnot := mt (h.sign rfl).mpr hsymbolic.not_numeric
      rwa [takesSign_iff, Bool.not_eq_true] at hnot
    have hstart : startsNumeral (prev.all wantsOperand) d = false := by
      simpa [startsNumeral, hdigit, hpoint] using hsigned
    rw [lexeme, hstart, ← hsymbol]
    rfl

end Token

end Calculator
