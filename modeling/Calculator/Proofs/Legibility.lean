import Calculator.Proofs.Accounts
import Calculator.Proofs.Amounts

/-!
# Lines that are read back

The lines of the events that a calculation is told by, spelled out with the names of their
values. Each line gives its values: what a line says can be read back from it, because the
fixed parts of lines do not begin one another, an operator is one character, and a double is
either written as a literal, which ends before the space that follows it, or by a name.

Results:

* `line_tokenRead`, `line_operatorPushed`, `line_bracketMatched`, `line_released`,
  `line_event`: the lines of events.
* `eq_of_amount_append`: a double is read back from the front of a text.
* `producedLine_inj`, `pushedLine_injective`, `matchedLine_injective`, `poppedLine_injective`,
  `appliedLine_injective`: a line is that of one event.
-/

namespace Calculator.Journal

/-! ## Lines spelled out -/

/-- The line of a token up to its text. -/
def producedHead : Token.Kind → String
  | .number => "TRACE shunt::lexer: Produced token kind=Number text="
  | .operator => "TRACE shunt::lexer: Produced token kind=Operator text="
  | .opening .round => "TRACE shunt::lexer: Produced token kind=LeftParenRound text="
  | .opening .square => "TRACE shunt::lexer: Produced token kind=LeftParenSquare text="
  | .closing .round => "TRACE shunt::lexer: Produced token kind=RightParenRound text="
  | .closing .square => "TRACE shunt::lexer: Produced token kind=RightParenSquare text="
  | .invalid => "DEBUG shunt::lexer: Produced invalid token "

/-- The text of a token, as its line has it. -/
def producedText : Token → String
  | .number text => text
  | .operator op => op.symbol.toString
  | .opening .round => "("
  | .opening .square => "["
  | .closing .round => ")"
  | .closing .square => "]"
  | .invalid complaint => visibleText complaint

/-- The line of a token, with its kind and its text. -/
def producedLine (t : Token) : String := producedHead t.kind ++ producedText t

/-- The line of an operator that is put on the stack, with the number of what waits below it. -/
def pushedLine (op : Operator) (depth : Nat) : String :=
  "TRACE shunt::translator: Push operator op=" ++ op.symbol.toString ++ " depth=" ++ depth.repr

/-- The line of a bracket that is closed. -/
def matchedLine : Bracket → String
  | .round => "TRACE shunt::translator: Matched bracket bracket=)"
  | .square => "TRACE shunt::translator: Matched bracket bracket=]"

/-- The line of an operator that leaves the stack for a token. -/
def poppedLine (op : Operator) : String :=
  "TRACE shunt::translator: Pop to output token=" ++ op.symbol.toString

/-- The line of an operator that is applied to its operands, the left one first. -/
def appliedLine (x : Application) : String :=
  "TRACE shunt::evaluator: Applied operator a=" ++ amount.write x.left ++ " op=" ++
    x.op.symbol.toString ++ " b=" ++ amount.write x.right ++ " result=" ++ amount.write x.result

theorem line_tokenRead (t : Token) : (Event.tokenRead t).line = producedLine t := by
  cases t with
  | opening b => cases b <;> rfl
  | closing b => cases b <;> rfl
  | _ => rfl

theorem line_operatorPushed (op : Operator) (depth : Nat) :
    (Event.operatorPushed op depth).line = pushedLine op depth := by
  cases op <;> rfl

theorem line_bracketMatched (b : Bracket) : (Event.bracketMatched b).line = matchedLine b := by
  cases b <;> rfl

theorem line_released (op : Operator) :
    (Event.released (.operator op)).line = poppedLine op := rfl

theorem line_event (x : Application) : x.event.line = appliedLine x := by
  unfold Application.event Event.line Event.text appliedLine double value
  simp only [String.append_assoc]
  rfl

/-! ## Texts and operators -/

theorem symbol_injective : Function.Injective Operator.symbol := by
  intro op op' h
  have hread := congrArg Operator.ofSymbol? h
  rw [Operator.ofSymbol?_symbol, Operator.ofSymbol?_symbol] at hread
  exact Option.some.inj hread

theorem toList_symbol (op : Operator) : op.symbol.toString.toList = [op.symbol] := by
  simp

theorem repr_injective : Function.Injective Nat.repr := by
  intro m n h
  have hdigits := congrArg (fun s => Decimal.ofDigits s.toList) h
  simp only [Nat.repr, String.toList_ofList, Json.Number.ofDigits_toDigits] at hdigits
  exact hdigits

/-! ## Doubles -/

/-- The journal's names of what is no finite number. -/
theorem amount_write_of_not_isFinite {x : Float} (h : (Decimal.decode x).isFinite = false) :
    (Decimal.decode x = .undefined ∧ amount.write x = "NaN") ∨
      (Decimal.decode x = .infinite false ∧ amount.write x = "inf") ∨
      (Decimal.decode x = .infinite true ∧ amount.write x = "-inf") := by
  unfold Decimal.Layout.write
  cases hx : Decimal.decode x with
  | undefined => exact .inl ⟨rfl, rfl⟩
  | infinite negative =>
    cases negative with
    | false => exact .inr (.inl ⟨rfl, rfl⟩)
    | true => exact .inr (.inr ⟨rfl, rfl⟩)
  | zero negative => rw [hx] at h; cases h
  | finite negative b => rw [hx] at h; cases h

/-- A literal ends before what follows it, and is read as the double. -/
theorem split_amount {x : Float} {rest : List Char} (h : (Decimal.decode x).isFinite = true)
    (hrest : Json.Number.EndsBefore rest) :
    ∃ n : Json.Number, n.RoundsTo x ∧
      Json.Number.split ((amount.write x).toList ++ rest) = some (n, rest) := by
  obtain ⟨n, hspelled, hrounds⟩ := amount.spelled_write h
  exact ⟨n, hrounds, Json.Number.split_append hspelled hrest⟩

/-- A name is no literal, whatever follows it. -/
theorem split_amount_of_not_isFinite {x : Float} (h : (Decimal.decode x).isFinite = false)
    (rest : List Char) :
    Json.Number.split ((amount.write x).toList ++ rest) = none := by
  rcases amount_write_of_not_isFinite h with ⟨_, hx⟩ | ⟨_, hx⟩ | ⟨_, hx⟩ <;> rw [hx] <;> rfl

/-- Names are told apart by their first characters. -/
theorem eq_of_name_append {x y : Float} {u v : List Char}
    (hx : (Decimal.decode x).isFinite = false) (hy : (Decimal.decode y).isFinite = false)
    (h : (amount.write x).toList ++ u = (amount.write y).toList ++ v) : x = y ∧ u = v := by
  have hdecode : Decimal.decode x = Decimal.decode y ∧ u = v := by
    rcases amount_write_of_not_isFinite hx with ⟨hx, htext⟩ | ⟨hx, htext⟩ | ⟨hx, htext⟩ <;>
      rcases amount_write_of_not_isFinite hy with ⟨hy, htext'⟩ | ⟨hy, htext'⟩ | ⟨hy, htext'⟩ <;>
      simp [htext, htext'] at h <;> simp [hx, hy, h]
  exact ⟨Decimal.decode_injective hdecode.1, hdecode.2⟩

/-- A double is read back from the front of a text. -/
theorem eq_of_amount_append {x y : Float} {u v : List Char} (hu : Json.Number.EndsBefore u)
    (hv : Json.Number.EndsBefore v)
    (h : (amount.write x).toList ++ u = (amount.write y).toList ++ v) : x = y ∧ u = v := by
  have hsplit := congrArg Json.Number.split h
  cases hx : (Decimal.decode x).isFinite with
  | true =>
    obtain ⟨n, hn, hread⟩ := split_amount hx hu
    rw [hread] at hsplit
    cases hy : (Decimal.decode y).isFinite with
    | true =>
      obtain ⟨m, hm, hread'⟩ := split_amount hy hv
      rw [hread', Option.some.injEq, Prod.mk.injEq] at hsplit
      obtain ⟨rfl, huv⟩ := hsplit
      exact ⟨hn.unique hm, huv⟩
    | false =>
      rw [split_amount_of_not_isFinite hy] at hsplit
      cases hsplit
  | false =>
    rw [split_amount_of_not_isFinite hx] at hsplit
    cases hy : (Decimal.decode y).isFinite with
    | true =>
      obtain ⟨m, _, hread'⟩ := split_amount hy hv
      rw [hread'] at hsplit
      cases hsplit
    | false => exact eq_of_name_append hx hy h

/-! ## Lines -/

theorem endsBefore_nil : Json.Number.EndsBefore [] := nofun

theorem endsBefore_space {cs : List Char} (h : cs.head? = some ' ') :
    Json.Number.EndsBefore cs := by
  intro c hc
  rw [h] at hc
  cases hc
  decide

theorem toList_pushedLine (op : Operator) (depth : Nat) : (pushedLine op depth).toList =
    "TRACE shunt::translator: Push operator op=".toList ++
      op.symbol :: (" depth=".toList ++ depth.repr.toList) := by
  unfold pushedLine
  simp only [String.toList_append, toList_symbol, List.append_assoc, List.cons_append,
    List.nil_append]

theorem toList_poppedLine (op : Operator) : (poppedLine op).toList =
    "TRACE shunt::translator: Pop to output token=".toList ++ [op.symbol] := by
  unfold poppedLine
  rw [String.toList_append, toList_symbol]

theorem toList_appliedLine (x : Application) : (appliedLine x).toList =
    "TRACE shunt::evaluator: Applied operator a=".toList ++ ((amount.write x.left).toList ++
      (" op=".toList ++ x.op.symbol :: (" b=".toList ++ ((amount.write x.right).toList ++
        (" result=".toList ++ (amount.write x.result).toList))))) := by
  unfold appliedLine
  simp only [String.toList_append, toList_symbol, List.append_assoc, List.cons_append,
    List.nil_append]

/-- All kinds of tokens. -/
def kinds : List Token.Kind :=
  [.number, .operator, .opening .round, .opening .square, .closing .round, .closing .square,
    .invalid]

theorem mem_kinds (k : Token.Kind) : k ∈ kinds := by
  cases k with
  | opening b => cases b <;> decide
  | closing b => cases b <;> decide
  | _ => decide

theorem prefixFree_producedHead : PrefixFree (kinds.map producedHead) := by
  unfold PrefixFree
  decide +kernel

theorem producedHead_injective : Function.Injective producedHead := by
  have hone : ∀ a ∈ kinds, ∀ b ∈ kinds, producedHead a = producedHead b → a = b := by
    decide +kernel
  intro a b
  exact hone a (mem_kinds a) b (mem_kinds b)

/-- A valid token is read back from its line. -/
theorem producedLine_inj {t u : Token} (ht : ∀ text, t ≠ .invalid text)
    (h : producedLine u = producedLine t) : u = t := by
  unfold producedLine at h
  have hmem : ∀ v : Token, producedHead v.kind ∈ kinds.map producedHead := fun v =>
    List.mem_map_of_mem (mem_kinds v.kind)
  have hbegins : (producedHead u.kind ++ producedText u).toList <+:
      (producedHead t.kind ++ producedText t).toList := by
    rw [h]
  obtain ⟨hhead, _⟩ := prefixFree_producedHead.of_append (hmem u) (hmem t) hbegins
  have hkind := producedHead_injective hhead
  rw [hhead, ← String.toList_inj, String.toList_append, String.toList_append] at h
  have htext := String.toList_inj.mp (List.append_cancel_left h)
  cases t with
  | number text =>
    cases u <;> cases hkind
    exact congrArg _ htext
  | operator op =>
    cases u <;> cases hkind
    have hsymbol := congrArg String.toList htext
    unfold producedText at hsymbol
    rw [toList_symbol, toList_symbol] at hsymbol
    exact congrArg _ (symbol_injective (List.cons.inj hsymbol).1)
  | opening b =>
    cases u <;> cases hkind
    rfl
  | closing b =>
    cases u <;> cases hkind
    rfl
  | invalid text => exact absurd rfl (ht text)

theorem pushedLine_injective : Function.Injective2 pushedLine := by
  intro op op' depth depth' h
  have hchars := congrArg String.toList h
  rw [toList_pushedLine, toList_pushedLine] at hchars
  obtain ⟨hsymbol, hrest⟩ := List.cons.inj (List.append_cancel_left hchars)
  have hdepth := List.append_cancel_left hrest
  exact ⟨symbol_injective hsymbol, repr_injective (String.toList_inj.mp hdepth)⟩

theorem matchedLine_injective : Function.Injective matchedLine := by
  intro b b' h
  unfold matchedLine at h
  cases b <;> cases b' <;> simp at h ⊢

theorem poppedLine_injective : Function.Injective poppedLine := by
  intro op op' h
  have hchars := congrArg String.toList h
  rw [toList_poppedLine, toList_poppedLine] at hchars
  exact symbol_injective (List.cons.inj (List.append_cancel_left hchars)).1

theorem appliedLine_injective : Function.Injective appliedLine := by
  intro x y h
  have hchars := congrArg String.toList h
  rw [toList_appliedLine, toList_appliedLine] at hchars
  obtain ⟨hleft, hrest⟩ := eq_of_amount_append (endsBefore_space (by rfl))
    (endsBefore_space (by rfl)) (List.append_cancel_left hchars)
  obtain ⟨hsymbol, hrest⟩ := List.cons.inj (List.append_cancel_left hrest)
  obtain ⟨hright, hrest⟩ := eq_of_amount_append (endsBefore_space (by rfl))
    (endsBefore_space (by rfl)) (List.append_cancel_left hrest)
  have hlast := List.append_cancel_left hrest
  rw [← List.append_nil (amount.write x.result).toList,
    ← List.append_nil (amount.write y.result).toList] at hlast
  obtain ⟨hresult, _⟩ := eq_of_amount_append endsBefore_nil endsBefore_nil hlast
  have hop := symbol_injective hsymbol
  cases x
  cases y
  subst hleft hright hresult hop
  rfl

end Calculator.Journal
