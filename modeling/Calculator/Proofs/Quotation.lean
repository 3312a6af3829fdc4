import Calculator.Json
import Calculator.Json.Document

/-!
# Quoted texts

How a text may be written between quotes, said without the reader: a character stands for
itself, or is written with a backslash and a letter, or as a code unit in hexadecimal
digits. The reader takes every such writing apart into the same pieces, and the writer of
structured values uses one of them.

Results:

* `splitContent_spelled`: a quoted text is read with its content.
* `textSpelled_writeText`: what the writer puts between quotes spells the text.
* `printable_writeText`: it has no control characters.
-/

namespace Calculator.Json

/-! ## What stands between quotes -/

/-- The ways to write a piece of a quoted text. -/
inductive Piece.Spelled : Piece → List Char → Prop
  | plain {c : Char} : 0x20 ≤ c.toNat → c ≠ '"' → c ≠ '\\' → Spelled (.char c) [c]
  | letter {letter c : Char} : escaped? letter = some c → Spelled (.char c) ['\\', letter]
  | unit {a b c d : Char} {code : Nat} : unit? a b c d = some code →
      Spelled (.unit code) ['\\', 'u', a, b, c, d]

/-- The ways to write pieces one after the other. -/
inductive PiecesSpelled : List Piece → List Char → Prop
  | nil : PiecesSpelled [] []
  | cons {piece : Piece} {pieces : List Piece} {cs rest : List Char} : piece.Spelled cs →
      PiecesSpelled pieces rest → PiecesSpelled (piece :: pieces) (cs ++ rest)

/-- The ways to write a text with its quotes. Its content is the characters that the pieces
    make up, if they make up any. -/
def TextSpelled (content : Option String) (cs : List Char) : Prop :=
  ∃ pieces inner, PiecesSpelled pieces inner ∧ cs = '"' :: (inner ++ ['"']) ∧
    content = (characters? pieces).map String.ofList

/-- No control characters stand in the text. -/
def Printable (cs : List Char) : Prop := ∀ c ∈ cs, 0x20 ≤ c.toNat

instance (cs : List Char) : Decidable (Printable cs) :=
  decidable_of_bool (cs.all fun c => 0x20 ≤ c.toNat) (by simp [Printable])

theorem Printable.append {cs ds : List Char} (hcs : Printable cs) (hds : Printable ds) :
    Printable (cs ++ ds) :=
  fun c hc => (List.mem_append.mp hc).elim (hcs c) (hds c)

theorem Printable.cons {c : Char} {cs : List Char} (hc : 0x20 ≤ c.toNat) (hcs : Printable cs) :
    Printable (c :: cs) :=
  fun d hd => (List.mem_cons.mp hd).elim (fun h => h ▸ hc) (hcs d)

/-! ## The reader -/

theorem splitText_quote (rest : List Char) : splitText ('"' :: rest) = some ([], rest) := by
  rw [splitText]

theorem Piece.Spelled.splitText_append {piece : Piece} {cs : List Char} (h : piece.Spelled cs)
    (rest : List Char) : splitText (cs ++ rest) =
      (splitText rest).map fun (pieces, rest) => (piece :: pieces, rest) := by
  cases h with
  | @plain c hprintable hquote hbackslash =>
    have hkeep : (decide (c.toNat < 0x20) || c == '\\') = false := by
      rw [Bool.or_eq_false_iff]
      exact ⟨decide_eq_false (by omega), beq_eq_false_iff_ne.mpr hbackslash⟩
    rw [List.singleton_append, splitText]
    · rw [hkeep]
      cases splitText rest <;> rfl
    · exact hquote
    · exact fun _ _ _ _ _ h => absurd h hbackslash
    · exact fun _ _ h => absurd h hbackslash
  | @letter letter c hletter =>
    have hu : letter ≠ 'u' := by
      rintro rfl
      cases hletter
    rw [List.cons_append, List.singleton_append, splitText]
    · rw [hletter]
      cases splitText rest <;> rfl
    · exact fun _ _ _ _ _ h => absurd h hu
  | unit hcode =>
    show splitText ('\\' :: 'u' :: _ :: _ :: _ :: _ :: rest) = _
    rw [splitText, hcode]
    cases splitText rest <;> rfl

theorem PiecesSpelled.splitText_append {pieces : List Piece} {cs : List Char}
    (h : PiecesSpelled pieces cs) (rest : List Char) :
    splitText (cs ++ '"' :: rest) = some (pieces, rest) := by
  induction h with
  | nil => exact splitText_quote rest
  | cons hpiece _ ih => rw [List.append_assoc, hpiece.splitText_append, ih]; rfl

/-- A quoted text is read with its content. -/
theorem splitContent_spelled {content : Option String} {cs : List Char}
    (h : TextSpelled content cs) (rest : List Char) :
    splitContent (cs ++ rest) = some (content, rest) := by
  obtain ⟨pieces, inner, hpieces, rfl, rfl⟩ := h
  rw [List.cons_append, List.append_assoc, List.singleton_append, splitContent,
    hpieces.splitText_append]
  rfl

/-! ## The writer -/

/-- A code unit that is no half of a character is one of its own. -/
theorem characters?_unit {code : Nat} (hhigh : isHigh code = false) (hlow : isLow code = false)
    (pieces : List Piece) : characters? (.unit code :: pieces) =
      (characters? pieces).map (Char.ofNat code :: ·) := by
  cases pieces with
  | nil => simp [characters?, hhigh, hlow]
  | cons piece pieces =>
    cases piece with
    | char c => simp [characters?, hhigh, hlow]
    | unit low => simp [characters?, hhigh, hlow]

theorem hexValue?_hexDigit {n : Nat} (h : n < 16) : hexValue? (hexDigit n) = some n := by
  have hall : ∀ k : Fin 16, hexValue? (hexDigit k) = some k.val := by decide
  exact hall ⟨n, h⟩

theorem unit?_hexDigit {n : Nat} (h : n < 256) :
    unit? '0' '0' (hexDigit (n / 16)) (hexDigit (n % 16)) = some n := by
  have hzero : hexValue? '0' = some 0 := rfl
  have hsum : 16 * (n / 16) + n % 16 = n := by omega
  simp [unit?, hzero, hexValue?_hexDigit (n := n / 16) (by omega),
    hexValue?_hexDigit (n := n % 16) (by omega), hsum]

/-- The writer writes a character as itself, with a letter, or as its code unit. -/
theorem exists_spelled_escape (c : Char) : ∃ piece : Piece, piece.Spelled (escape c) ∧
    ∀ pieces, characters? (piece :: pieces) = (characters? pieces).map (c :: ·) := by
  have hchar : ∀ pieces, characters? (.char c :: pieces) = (characters? pieces).map (c :: ·) :=
    fun _ => rfl
  unfold escape
  split
  · exact ⟨.char '"', .letter rfl, hchar⟩
  · exact ⟨.char '\\', .letter rfl, hchar⟩
  · exact ⟨.char '\x08', .letter rfl, hchar⟩
  · exact ⟨.char '\t', .letter rfl, hchar⟩
  · exact ⟨.char '\n', .letter rfl, hchar⟩
  · exact ⟨.char '\x0c', .letter rfl, hchar⟩
  · exact ⟨.char '\r', .letter rfl, hchar⟩
  · next hquote hbackslash _ _ _ _ _ =>
    split
    · next hcontrol =>
      have hcode := unit?_hexDigit (n := c.toNat) (by omega)
      refine ⟨.unit c.toNat, .unit hcode, fun pieces => ?_⟩
      have hhigh : isHigh c.toNat = false := by
        rw [isHigh, Bool.and_eq_false_iff]
        exact .inl (decide_eq_false (by omega))
      have hlow : isLow c.toNat = false := by
        rw [isLow, Bool.and_eq_false_iff]
        exact .inl (decide_eq_false (by omega))
      rw [characters?_unit hhigh hlow, Char.ofNat_toNat]
    · next hprintable =>
      exact ⟨.char c, .plain (by omega) hquote hbackslash, hchar⟩

theorem exists_spelled_flatMap (cs : List Char) :
    ∃ pieces, PiecesSpelled pieces (cs.flatMap escape) ∧ characters? pieces = some cs := by
  induction cs with
  | nil => exact ⟨[], .nil, rfl⟩
  | cons c cs ih =>
    obtain ⟨pieces, hpieces, hcontent⟩ := ih
    obtain ⟨piece, hpiece, hcons⟩ := exists_spelled_escape c
    refine ⟨piece :: pieces, ?_, by rw [hcons, hcontent]; rfl⟩
    rw [List.flatMap_cons]
    exact .cons hpiece hpieces

/-- What the writer puts between quotes spells the text. -/
theorem textSpelled_writeText (s : String) : TextSpelled (some s) (writeText s) := by
  obtain ⟨pieces, hpieces, hcontent⟩ := exists_spelled_flatMap s.toList
  exact ⟨pieces, _, hpieces, rfl, by rw [hcontent, Option.map_some, String.ofList_toList]⟩

theorem printable_hexDigit {n : Nat} (h : n < 16) : 0x20 ≤ (hexDigit n).toNat := by
  have hall : ∀ k : Fin 16, 0x20 ≤ (hexDigit k).toNat := by decide
  exact hall ⟨n, h⟩

theorem printable_escape (c : Char) : Printable (escape c) := by
  unfold escape
  split
  · decide
  · decide
  · decide
  · decide
  · decide
  · decide
  · decide
  · split
    · next hcontrol =>
      have hdigits : Printable [hexDigit (c.toNat / 16), hexDigit (c.toNat % 16)] :=
        .cons (printable_hexDigit (by omega)) (.cons (printable_hexDigit (by omega)) nofun)
      have hfront : Printable ['\\', 'u', '0', '0'] := by decide
      exact hfront.append hdigits
    · next hprintable => exact .cons (by omega) nofun

/-- A quoted text stands on one line: control characters are written with letters or as
    code units. -/
theorem printable_writeText (s : String) : Printable (writeText s) := by
  have hquote : 0x20 ≤ '"'.toNat := by decide
  refine .cons hquote (Printable.append (fun d hd => ?_) (.cons hquote nofun))
  obtain ⟨c, _, hc⟩ := List.mem_flatMap.mp hd
  exact printable_escape c d hc

end Calculator.Json
