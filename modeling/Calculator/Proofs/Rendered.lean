import Calculator.Proofs.Amounts
import Calculator.Proofs.Calculation
import Calculator.Proofs.Documents
import Calculator.Rendering

/-!
# The line of a calculation

The structured output of a calculation is one line of text, and reading it gives back all
that was put into it: the expression as it was given, its tokens with their kinds, and
either the postfix order with the value or the report of the fault. The writer spells each
part as the grammar of structured texts says, so the reader's theorem applies to the whole.

Results:

* `Json.Writes.array`, `Json.Writes.object`: what is written of the parts is written of the
  whole.
* `Json.writes_ofFloat`: what is written of a double.
* `Calculation.tokens_of_run`: a calculation keeps the tokens of its source.
* `Rendering.read_line`: what is read from the line of a calculation.
-/

namespace Calculator.Json

open Document (ItemsSpelled MembersSpelled MemberSpelled Blanks)

/-! ## The writer -/

/-- The value is written on one line, as a text of the document. -/
structure Writes (j : Json) (d : Document) : Prop where
  spelled : d.Spelled j.write
  printable : Printable j.write

theorem Writes.text (s : String) : Writes (.text s) (.text (some s)) := by
  constructor
  · exact .text (textSpelled_writeText s)
  · exact printable_writeText s

section

variable {α : Type} {toJson : α → Json} {toDocument : α → Document}

/-- Items with commas between them. -/
theorem itemsSpelled_writeItems (items : List α) :
    ∀ a, (∀ b ∈ a :: items, Writes (toJson b) (toDocument b)) →
      ItemsSpelled ((a :: items).map toDocument) (writeItems ((a :: items).map toJson)) ∧
      Printable (writeItems ((a :: items).map toJson)) := by
  induction items with
  | nil =>
    intro a h
    obtain ⟨hspelled, hprintable⟩ := h a List.mem_cons_self
    refine ⟨?_, hprintable⟩
    have hlast := ItemsSpelled.last .nil hspelled .nil
    rwa [List.nil_append, List.append_nil] at hlast
  | cons b items ih =>
    intro a h
    obtain ⟨hspelled, hprintable⟩ := h a List.mem_cons_self
    obtain ⟨hrest, hprintable'⟩ := ih b fun c hc => h c (List.mem_cons_of_mem _ hc)
    exact ⟨.more .nil hspelled .nil hrest, hprintable.append (.cons (by decide) hprintable')⟩

theorem Writes.array {items : List α} (h : ∀ a ∈ items, Writes (toJson a) (toDocument a)) :
    Writes (.array (items.map toJson)) (.array (items.map toDocument)) := by
  cases items with
  | nil =>
    have hprintable : Printable ['[', ']'] := by decide
    exact ⟨.noItems .nil, hprintable⟩
  | cons a items =>
    obtain ⟨hspelled, hprintable⟩ := itemsSpelled_writeItems items a h
    exact ⟨.items hspelled, .cons (by decide) (hprintable.append (by decide))⟩

end

/-- A name, a colon and a value. -/
theorem memberSpelled_write (name : String) {j : Json} {d : Document} (h : Writes j d) :
    MemberSpelled (some name, d) (writeText name ++ ':' :: j.write) ∧
    Printable (writeText name ++ ':' :: j.write) := by
  refine ⟨?_, (printable_writeText name).append (.cons (by decide) h.printable)⟩
  have hmember := MemberSpelled.intro .nil (textSpelled_writeText name) .nil .nil h.spelled .nil
  rwa [List.nil_append, List.nil_append, List.nil_append, List.append_nil] at hmember

/-- Members with commas between them. -/
theorem membersSpelled_writeMembers (members : List (String × Json × Document)) :
    ∀ m, (∀ x ∈ m :: members, Writes x.2.1 x.2.2) →
      MembersSpelled ((m :: members).map fun x => (some x.1, x.2.2))
        (writeMembers ((m :: members).map fun x => (x.1, x.2.1))) ∧
      Printable (writeMembers ((m :: members).map fun x => (x.1, x.2.1))) := by
  induction members with
  | nil =>
    intro m h
    obtain ⟨hspelled, hprintable⟩ := memberSpelled_write m.1 (h m List.mem_cons_self)
    exact ⟨.last hspelled, hprintable⟩
  | cons x members ih =>
    intro m h
    obtain ⟨hspelled, hprintable⟩ := memberSpelled_write m.1 (h m List.mem_cons_self)
    obtain ⟨hrest, hprintable'⟩ := ih x fun y hy => h y (List.mem_cons_of_mem _ hy)
    exact ⟨.more hspelled hrest, hprintable.append (.cons (by decide) hprintable')⟩

theorem Writes.object (members : List (String × Json × Document))
    (h : ∀ m ∈ members, Writes m.2.1 m.2.2) :
    Writes (.object (members.map fun m => (m.1, m.2.1)))
      (.object (members.map fun m => (some m.1, m.2.2))) := by
  cases members with
  | nil =>
    have hprintable : Printable ['\x7b', '\x7d'] := by decide
    exact ⟨.noMembers .nil, hprintable⟩
  | cons m members =>
    obtain ⟨hspelled, hprintable⟩ := membersSpelled_writeMembers members m h
    exact ⟨.members hspelled, .cons (by decide) (hprintable.append (by decide))⟩

/-- Members whose values are texts. -/
theorem Writes.texts (members : List (String × String)) :
    Writes (.object (members.map fun m => (m.1, .text m.2)))
      (.object (members.map fun m => (some m.1, .text (some m.2)))) := by
  have hmembers := Writes.object
    (members.map fun m => (m.1, .text m.2, .text (some m.2))) fun m hm => by
      obtain ⟨t, _, rfl⟩ := List.mem_map.mp hm
      exact .text t.2
  rwa [List.map_map, List.map_map] at hmembers

/-- A finite double stands as the literal of its shortest decimal, which is read as it; any
    other stands as `null`. -/
def IsAmount (x : Float) (d : Document) : Prop :=
  match (Decimal.decode x).isFinite with
  | true => ∃ n : Number, d = .number n ∧ n.Spelled (amount.write x).toList ∧ n.RoundsTo x
  | false => d = .null

theorem writes_ofFloat (x : Float) : ∃ d, IsAmount x d ∧ Writes (.ofFloat x) d := by
  unfold IsAmount
  cases hx : (Decimal.decode x).isFinite with
  | true =>
    obtain ⟨n, hn, hrounds⟩ := amount.spelled_write hx
    exact ⟨.number n, ⟨n, rfl, hn, hrounds⟩, .number hn, hn.printable⟩
  | false =>
    have hprintable : Printable "null".toList := by decide
    refine ⟨.null, rfl, ?_⟩
    rw [ofFloat, amount_write_of_not_isFinite hx]
    exact ⟨.wordNull, hprintable⟩

end Calculator.Json

namespace Calculator

/-! ## What is written -/

/-- A calculation keeps the tokens of its source. -/
theorem Calculation.tokens_of_run {options : Options} {source : String} {out : Outcome}
    (h : run options source = .ok out) : out.tokens = Token.tokenize source := by
  obtain ⟨hfits, harrange, hvalue⟩ := parts_of_run h
  rw [run_of_arrange hfits harrange, hvalue] at h
  exact (congrArg (fun out : Outcome => out.tokens) (Except.ok.inj h)).symm

namespace Rendering

open Json (Document Writes IsAmount)

/-- A token as it is read back. -/
def tokenDocument (t : Token) : Document :=
  .object [(some "kind", .text (some t.kind.tag)), (some "text", .text (some t.text))]

/-- Tokens as they are read back. -/
def tokensDocument (ts : List Token) : Document := .array (ts.map tokenDocument)

/-- A report as it is read back. -/
def reportDocument (r : Report) : Document :=
  .object
    [(some "error_kind", .text (some r.title)), (some "message", .text (some r.message)),
     (some "phase", .text (some r.phase))]

theorem writes_ofToken (t : Token) : Writes (ofToken t) (tokenDocument t) :=
  .texts [("kind", t.kind.tag), ("text", t.text)]

theorem writes_ofTokens (ts : List Token) : Writes (ofTokens ts) (tokensDocument ts) :=
  .array fun t _ => writes_ofToken t

theorem writes_toMember (r : Report) : Writes r.toMember (reportDocument r) :=
  .texts [("error_kind", r.title), ("message", r.message), ("phase", r.phase)]

/-! ## The line -/

/-- What the line of a calculation says. The tokens are those of the source whether the
    calculation succeeds or not, and a fault has its report in place of an order and a value. -/
def Says (source : String) : Except Fault Outcome → Document → Prop
  | .ok outcome, d =>
    ∃ value, IsAmount outcome.value value ∧
      d = .object
        [(some "expression", .text (some source)),
         (some "postfix", .text (some (Token.joined outcome.ordered))),
         (some "tokens", tokensDocument (Token.tokenize source)), (some "value", value)]
  | .error fault, d =>
    d = .object
      [(some "error", reportDocument (.ofFault fault)), (some "expression", .text (some source)),
       (some "tokens", tokensDocument (Token.tokenize source))]

/-- What is written of a calculation of the source says what it came to. -/
theorem writes_toJson (options : Options) (source : String) :
    ∃ d, Says source (Calculation.run options source) d ∧
      Writes (toJson source (Calculation.run options source)) d := by
  cases hrun : Calculation.run options source with
  | ok outcome =>
    obtain ⟨value, hvalue, hwrites⟩ := Json.writes_ofFloat outcome.value
    refine ⟨_, ⟨value, hvalue, rfl⟩, ?_⟩
    have htokens := writes_ofTokens (Token.tokenize source)
    rw [toJson, Calculation.tokens_of_run hrun]
    refine Writes.object
      [("expression", _, _), ("postfix", _, _), ("tokens", _, _), ("value", _, _)] ?_
    simp only [List.forall_mem_cons]
    exact ⟨.text source, .text _, htokens, hwrites, nofun⟩
  | error fault =>
    refine ⟨_, rfl, ?_⟩
    refine Writes.object [("error", _, _), ("expression", _, _), ("tokens", _, _)] ?_
    simp only [List.forall_mem_cons]
    exact ⟨writes_toMember _, .text source, writes_ofTokens _, nofun⟩

/-- **The line of a calculation.** For every expression and all options, the structured
    output of the calculation has no control characters, so it stands on one line. It spells
    an object with the expression, its tokens, and either the postfix order and the value or
    the report of the fault, and it is read back as this object to the last character. -/
theorem read_line (options : Options) (source : String) :
    Json.Printable (line source (Calculation.run options source)).toList ∧
    ∃ d, Document.Spelled d (line source (Calculation.run options source)).toList ∧
      Document.read (line source (Calculation.run options source)).toList = (d, some []) ∧
      Says source (Calculation.run options source) d := by
  obtain ⟨d, hsays, hwrites⟩ := writes_toJson options source
  rw [line, Json.compact, String.toList_ofList]
  exact ⟨hwrites.printable, d, hwrites.spelled, Document.read_spelled hwrites.spelled, hsays⟩

end Rendering

end Calculator
