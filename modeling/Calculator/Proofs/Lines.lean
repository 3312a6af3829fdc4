import Calculator.Command.Batch
import Calculator.Proofs.Basic

/-!
# Texts, bytes and lines

The input comes as bytes. Cutting it into lines before its bytes are decoded is the same
as cutting the text, because no byte of a longer character is the byte of a line end; and
an end that is written with a carriage return is cut off with the blanks around the line.

Results:

* `decodeText?_eq_some_iff`: bytes are decoded to the text that encodes to them.
* `lineEnd_not_mem_encodeText`: a text without line ends has no byte of one.
* `inputLines_append`: the lines of two inputs, of which the first ends with a line.
* `evaluateLine_return`: a carriage return at the end of a line changes nothing.
-/

namespace Calculator

/-! ## Trimming -/

namespace Text

/-- A blank at the end is trimmed. -/
theorem trimChars_append_blank {c : Char} (hc : isBlank c = true) (cs : List Char) :
    trimChars (cs ++ [c]) = trimChars cs := by
  have hblank : [c].dropWhile isBlank = [] := by rw [List.dropWhile_cons, if_pos hc]; rfl
  unfold trimChars
  rw [List.dropWhile_append, hblank]
  split
  · next h => rw [List.isEmpty_iff.mp h]
  · rw [List.reverse_append, List.reverse_singleton, List.singleton_append, List.dropWhile_cons,
      if_pos hc]

/-- What neither begins nor ends with a blank is trimmed already. -/
theorem trimChars_eq_self {cs : List Char} (hfirst : ∀ c ∈ cs.head?, isBlank c = false)
    (hlast : ∀ c ∈ cs.getLast?, isBlank c = false) : trimChars cs = cs := by
  have hlast' : ∀ c ∈ cs.reverse.head?, isBlank c = false := by rwa [List.head?_reverse]
  unfold trimChars
  rw [Run.dropWhile_eq_self (Run.takeWhile_eq_nil hfirst),
    Run.dropWhile_eq_self (Run.takeWhile_eq_nil hlast'), List.reverse_reverse]

end Text

namespace Command

/-! ## The bytes of a text -/

/-- The bytes that encode a text. -/
def encodeText (s : String) : List UInt8 := s.toUTF8.data.toList

theorem encodeText_append (s t : String) : encodeText (s ++ t) = encodeText s ++ encodeText t := by
  simp [encodeText]

theorem encodeText_eq_flatMap (s : String) :
    encodeText s = s.toList.flatMap String.utf8EncodeChar := by
  rw [encodeText, String.toUTF8_eq_toByteArray, ← String.utf8Encode_toList, List.utf8Encode]
  simp

/-- Bytes are decoded to the text that encodes to them, and to no other. -/
theorem decodeText?_eq_some_iff {bytes : List UInt8} {s : String} :
    decodeText? bytes = some s ↔ bytes = encodeText s := by
  unfold decodeText? String.fromUTF8? encodeText
  constructor
  · intro h
    split at h
    · cases h
      rfl
    · cases h
  · rintro rfl
    exact dif_pos s.isValidUTF8

theorem decodeText?_encodeText (s : String) : decodeText? (encodeText s) = some s :=
  decodeText?_eq_some_iff.mpr rfl

/-- A byte below 128 is a character of its own: no longer character has such a byte. -/
theorem utf8EncodeChar_of_mem {c : Char} {b : UInt8} (hb : b ∈ String.utf8EncodeChar c)
    (hlt : b.toNat < 128) : String.utf8EncodeChar c = [b] ∧ c.toNat = b.toNat := by
  have hcode : c.val.toNat = c.toNat := rfl
  unfold String.utf8EncodeChar at hb ⊢
  simp only at hb ⊢
  split at hb
  · next hascii =>
    have hb' := List.mem_singleton.mp hb
    rw [if_pos hascii, hb', UInt8.toNat_ofNat']
    exact ⟨rfl, by omega⟩
  · -- every byte of a longer character has its highest bit set
    exfalso
    split at hb
    · simp only [List.mem_cons, List.not_mem_nil, or_false] at hb
      rcases hb with rfl | rfl <;> rw [UInt8.toNat_ofNat'] at hlt <;> omega
    · split at hb
      · simp only [List.mem_cons, List.not_mem_nil, or_false] at hb
        rcases hb with rfl | rfl | rfl <;> rw [UInt8.toNat_ofNat'] at hlt <;> omega
      · simp only [List.mem_cons, List.not_mem_nil, or_false] at hb
        rcases hb with rfl | rfl | rfl | rfl <;> rw [UInt8.toNat_ofNat'] at hlt <;> omega

/-- The text has a line end wherever its bytes have one. -/
theorem lineEnd_not_mem_encodeText {s : String} (h : '\n' ∉ s.toList) : 10 ∉ encodeText s := by
  intro hmem
  rw [encodeText_eq_flatMap, List.mem_flatMap] at hmem
  obtain ⟨c, hc, hb⟩ := hmem
  obtain ⟨_, hcode⟩ := utf8EncodeChar_of_mem hb (by decide)
  have hnewline : c = '\n' := Char.toNat_inj.mp hcode
  exact h (hnewline ▸ hc)

/-- A carriage return behind bytes that encode no text does not make them one. -/
theorem decodeText?_append_return (line : List UInt8) :
    decodeText? (line ++ [13]) = (decodeText? line).map (· ++ "\r") := by
  cases hline : decodeText? line with
  | some s =>
    rw [decodeText?_eq_some_iff] at hline
    rw [Option.map_some, decodeText?_eq_some_iff, encodeText_append, hline]
    rfl
  | none =>
    cases hall : decodeText? (line ++ [13]) with
    | none => rfl
    | some s =>
      rw [decodeText?_eq_some_iff, encodeText_eq_flatMap] at hall
      rcases List.eq_nil_or_concat s.toList with hs | ⟨cs, c, hs⟩
      · rw [hs, List.flatMap_nil] at hall
        exact absurd hall (List.append_ne_nil_of_right_ne_nil _ (List.cons_ne_nil _ _))
      · -- the byte belongs to the last character, which is then the carriage return
        rw [hs, List.concat_eq_append, List.flatMap_append, List.flatMap_singleton] at hall
        have hlast := congrArg List.getLast? hall
        rw [List.getLast?_append, List.getLast?_append] at hlast
        cases hc : (String.utf8EncodeChar c).getLast? with
        | none => exact absurd (List.getLast?_eq_none_iff.mp hc) String.utf8EncodeChar_ne_nil
        | some b =>
          rw [hc] at hlast
          cases hlast
          obtain ⟨hsingle, _⟩ := utf8EncodeChar_of_mem (List.mem_of_getLast? hc) (by decide)
          rw [hsingle] at hall
          have hline' : decodeText? line = some (String.ofList cs) := by
            rw [decodeText?_eq_some_iff, encodeText_eq_flatMap, String.toList_ofList]
            exact List.append_cancel_right hall
          rw [hline'] at hline
          cases hline

/-! ## Cutting an input into lines -/

/-- The pieces between line ends hold none. -/
theorem lineEnd_not_mem_of_mem_splitOn {bytes : List UInt8} :
    ∀ line ∈ bytes.splitOn 10, 10 ∉ line := by
  induction bytes with
  | nil =>
    intro line hline
    rw [List.splitOn_nil, List.mem_singleton] at hline
    rw [hline]
    exact List.not_mem_nil
  | cons b bytes ih =>
    intro line hline
    rw [List.splitOn_cons_eq_if_modifyHead] at hline
    split at hline
    · rcases List.mem_cons.mp hline with rfl | hline
      · exact List.not_mem_nil
      · exact ih line hline
    · next hb =>
      obtain ⟨piece, pieces, hsplit⟩ := List.exists_cons_of_ne_nil (List.splitOn_ne_nil 10 bytes)
      rw [hsplit] at hline ih
      rcases List.mem_cons.mp hline with rfl | hline
      · intro hmem
        rcases List.mem_cons.mp hmem with rfl | hmem
        · exact hb (beq_self_eq_true _)
        · exact ih piece List.mem_cons_self hmem
      · exact ih line (List.mem_cons_of_mem _ hline)

theorem lineEnd_not_mem_of_mem_inputLines {bytes line : List UInt8} (h : line ∈ inputLines bytes) :
    10 ∉ line := by
  unfold inputLines at h
  simp only at h
  split at h
  · exact lineEnd_not_mem_of_mem_splitOn line (List.dropLast_subset _ h)
  · exact lineEnd_not_mem_of_mem_splitOn line h

/-- The lines up to a line end, and those after it. -/
theorem inputLines_append_lineEnd (ls ms : List UInt8) :
    inputLines (ls ++ 10 :: ms) = ls.splitOn 10 ++ inputLines ms := by
  simp only [inputLines, List.splitOn_append_cons_self, List.getLast?_append]
  have hne := List.splitOn_ne_nil 10 ms
  cases hlast : (ms.splitOn 10).getLast? with
  | none => exact absurd (List.getLast?_eq_none_iff.mp hlast) hne
  | some last =>
    rw [Option.some_or]
    by_cases hempty : some last = some []
    · rw [if_pos hempty, if_pos hempty, List.dropLast_append_of_ne_nil hne]
    · rw [if_neg hempty, if_neg hempty]

theorem inputLines_lineEnd (ls : List UInt8) : inputLines (ls ++ [10]) = ls.splitOn 10 := by
  rw [inputLines_append_lineEnd]
  exact List.append_nil _

/-- A line by itself. -/
theorem inputLines_singleton {line : List UInt8} (h : 10 ∉ line) :
    inputLines (line ++ [10]) = [line] := by
  rw [inputLines_lineEnd, List.splitOn_eq_singleton h]

/-- Where the first of two inputs ends with a line, no line goes on into the second. -/
theorem inputLines_append {as bs : List UInt8} (h : as = [] ∨ as.getLast? = some 10) :
    inputLines (as ++ bs) = inputLines as ++ inputLines bs := by
  rcases h with rfl | hlast
  · rfl
  · obtain ⟨ls, rfl⟩ := List.getLast?_eq_some_iff.mp hlast
    rw [List.append_assoc, List.singleton_append, inputLines_append_lineEnd, inputLines_lineEnd]

/-! ## Carriage returns -/

/-- An end that is written with a carriage return is an end all the same. -/
theorem evaluateLine_return (a : Arguments) (limits : Limits) (line : List UInt8) :
    evaluateLine a limits (line ++ [13]) = evaluateLine a limits line := by
  unfold evaluateLine
  rw [decodeText?_append_return]
  cases decodeText? line with
  | none => rfl
  | some s =>
    have htrim : Text.trim (s ++ "\r") = Text.trim s := by
      rw [Text.trim, String.toList_append]
      exact congrArg String.ofList (Text.trimChars_append_blank (by decide) s.toList)
    rw [Option.map_some]
    simp only [htrim]

end Command

end Calculator
