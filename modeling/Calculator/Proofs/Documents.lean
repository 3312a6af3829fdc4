import Calculator.Proofs.Literal

/-!
# Structured texts

The grammar of structured texts, said without the reader: words, literals, quoted texts,
and arrays and objects with commas between their parts and blanks around them. The reader
reads every text of the grammar as the document it spells, up to its last character, and
what it leaves over is what comes after.

Results:

* `readsBy`: one value, one or more items, one or more members, by induction on the steps
  that the reader has to go.
* `read_spelled`: a spelled document is read back, with the text after it.
* `Spelled.isSound`: a spelled document has no broken part.
-/

namespace Calculator.Json.Document

/-! ## The grammar -/

/-- Blanks alone. -/
def Blanks (cs : List Char) : Prop := ∀ c ∈ cs, isSpace c = true

instance (cs : List Char) : Decidable (Blanks cs) :=
  decidable_of_bool (cs.all isSpace) List.all_eq_true

mutual

/-- The texts that spell a document. -/
inductive Spelled : Document → List Char → Prop
  | wordNull : Spelled null ['n', 'u', 'l', 'l']
  | wordTrue : Spelled (bool true) ['t', 'r', 'u', 'e']
  | wordFalse : Spelled (bool false) ['f', 'a', 'l', 's', 'e']
  | number {n : Number} {cs : List Char} : n.Spelled cs → Spelled (number n) cs
  | text {content : Option String} {cs : List Char} : TextSpelled content cs →
      Spelled (text content) cs
  | noItems {blanks : List Char} : Blanks blanks → Spelled (array []) ('[' :: (blanks ++ [']']))
  | items {items : List Document} {cs : List Char} : ItemsSpelled items cs →
      Spelled (array items) ('[' :: (cs ++ [']']))
  | noMembers {blanks : List Char} : Blanks blanks →
      Spelled (object []) ('\x7b' :: (blanks ++ ['\x7d']))
  | members {members : List (Option String × Document)} {cs : List Char} :
      MembersSpelled members cs → Spelled (object members) ('\x7b' :: (cs ++ ['\x7d']))

/-- The texts that spell one or more items. -/
inductive ItemsSpelled : List Document → List Char → Prop
  | last {item : Document} {before cs after : List Char} : Blanks before → Spelled item cs →
      Blanks after → ItemsSpelled [item] (before ++ (cs ++ after))
  | more {item : Document} {items : List Document} {before cs after rest : List Char} :
      Blanks before → Spelled item cs → Blanks after → ItemsSpelled items rest →
      ItemsSpelled (item :: items) (before ++ (cs ++ (after ++ ',' :: rest)))

/-- The texts that spell one or more members. -/
inductive MembersSpelled : List (Option String × Document) → List Char → Prop
  | last {member : Option String × Document} {cs : List Char} : MemberSpelled member cs →
      MembersSpelled [member] cs
  | more {member : Option String × Document} {members : List (Option String × Document)}
      {cs rest : List Char} : MemberSpelled member cs → MembersSpelled members rest →
      MembersSpelled (member :: members) (cs ++ ',' :: rest)

/-- The texts that spell a member: its name, a colon and its value. -/
inductive MemberSpelled : Option String × Document → List Char → Prop
  | intro {name : Option String} {value : Document} {before key colon gap cs after : List Char} :
      Blanks before → TextSpelled name key → Blanks colon → Blanks gap → Spelled value cs →
      Blanks after →
      MemberSpelled (name, value) (before ++ (key ++ (colon ++ ':' :: (gap ++ (cs ++ after)))))

end

/-- The texts that spell a document with blanks around it. -/
def Text (d : Document) (cs : List Char) : Prop :=
  ∃ before inner after, Blanks before ∧ Spelled d inner ∧ Blanks after ∧
    cs = before ++ (inner ++ after)

/-! ## Blanks -/

theorem Blanks.nil : Blanks [] := nofun

/-- What comes after a value cannot belong to a number. -/
theorem endsBefore_append {blanks rest : List Char} (h : Blanks blanks)
    (hrest : Number.EndsBefore rest) : Number.EndsBefore (blanks ++ rest) := by
  cases blanks with
  | nil => exact hrest
  | cons b blanks =>
    intro c hc
    cases hc
    have hspace := h b List.mem_cons_self
    simp only [isSpace, Bool.or_eq_true, beq_iff_eq] at hspace
    rcases hspace with ((rfl | rfl) | rfl) | rfl <;> decide

/-- The first character of a text that is not blank. -/
theorem skipSpace_append {blanks rest : List Char} {c : Char} (h : Blanks blanks)
    (hc : isSpace c = false) : skipSpace (blanks ++ c :: rest) = c :: rest :=
  Run.dropWhile_append h (Run.takeWhile_eq_nil fun d hd => by cases hd; exact hc)

theorem skipSpace_blanks {blanks : List Char} (h : Blanks blanks) : skipSpace blanks = [] := by
  have hskip := Run.dropWhile_append (m := []) h rfl
  rwa [List.append_nil] at hskip

/-! ## First characters -/

/-- A number begins with a character of its own. -/
theorem number_head {n : Number} {cs : List Char} (h : n.Spelled cs) :
    ∃ c rest, cs = c :: rest ∧ isSpace c = false ∧
      c ∉ ['[', ']', '\x7b', '\x7d', 'n', 't', 'f', '"'] := by
  obtain ⟨c, rest, rfl, hc⟩ := h.exists_cons
  refine ⟨c, rest, rfl, ?_⟩
  rcases hc with rfl | hdigit
  · decide
  · have hne : ∀ d : Char, d.isDigit = false → c ≠ d := by
      rintro d hd rfl
      rw [hdigit] at hd
      cases hd
    refine ⟨?_, fun hmem => ?_⟩
    · simp [isSpace, hne]
    · simp only [List.mem_cons, List.not_mem_nil, or_false] at hmem
      rcases hmem with h | h | h | h | h | h | h | h <;> exact hne _ (by decide) h

/-- No value begins with a blank or a closing bracket. -/
theorem Spelled.head {d : Document} {cs : List Char} (h : Spelled d cs) :
    ∃ c rest, cs = c :: rest ∧ isSpace c = false ∧ c ≠ ']' := by
  cases h with
  | wordNull => exact ⟨_, _, rfl, by decide⟩
  | wordTrue => exact ⟨_, _, rfl, by decide⟩
  | wordFalse => exact ⟨_, _, rfl, by decide⟩
  | number hn =>
    obtain ⟨c, rest, hcs, hspace, hother⟩ := number_head hn
    refine ⟨c, rest, hcs, hspace, ?_⟩
    rintro rfl
    exact hother (by decide)
  | text htext =>
    obtain ⟨_, _, _, rfl, _⟩ := htext
    exact ⟨_, _, rfl, by decide⟩
  | noItems _ => exact ⟨_, _, rfl, by decide⟩
  | items _ => exact ⟨_, _, rfl, by decide⟩
  | noMembers _ => exact ⟨_, _, rfl, by decide⟩
  | members _ => exact ⟨_, _, rfl, by decide⟩

theorem Spelled.skipSpace_append {d : Document} {before cs rest : List Char} (h : Spelled d cs)
    (hbefore : Blanks before) : skipSpace (before ++ (cs ++ rest)) = cs ++ rest := by
  obtain ⟨c, tail, rfl, hc, _⟩ := h.head
  exact Document.skipSpace_append hbefore hc

/-- Items begin with a value. -/
theorem ItemsSpelled.skipSpace_ne {items : List Document} {cs : List Char}
    (h : ItemsSpelled items cs) (rest : List Char) :
    ∀ tail, skipSpace (cs ++ rest) ≠ ']' :: tail := by
  intro tail htail
  have hhead : ∀ {d : Document} {before value after : List Char}, Blanks before →
      Spelled d value → skipSpace (before ++ (value ++ after)) ≠ ']' :: tail := by
    intro d before value after hbefore hvalue h
    obtain ⟨c, inner, rfl, _, hc⟩ := hvalue.head
    rw [hvalue.skipSpace_append hbefore] at h
    exact hc (List.cons.inj h).1
  cases h with
  | last hbefore hvalue _ =>
    rw [List.append_assoc, List.append_assoc] at htail
    exact hhead hbefore hvalue htail
  | more hbefore hvalue _ _ =>
    rw [List.append_assoc, List.append_assoc] at htail
    exact hhead hbefore hvalue htail

/-- A member begins with the quote of its name. -/
theorem MemberSpelled.skipSpace_eq {member : Option String × Document} {cs : List Char}
    (h : MemberSpelled member cs) (rest : List Char) :
    ∃ tail, skipSpace (cs ++ rest) = '"' :: tail := by
  obtain ⟨hbefore, hkey, _, _, _, _⟩ := h
  obtain ⟨_, _, _, rfl, _⟩ := hkey
  rw [List.append_assoc]
  exact ⟨_, Document.skipSpace_append hbefore (by decide)⟩

theorem MembersSpelled.skipSpace_eq {members : List (Option String × Document)}
    {cs : List Char} (h : MembersSpelled members cs) (rest : List Char) :
    ∃ tail, skipSpace (cs ++ rest) = '"' :: tail := by
  cases h with
  | last hmember => exact hmember.skipSpace_eq rest
  | more hmember _ =>
    rw [List.append_assoc]
    exact hmember.skipSpace_eq _

/-! ## The reader -/

/-- With `fuel` steps to go, the reader reads every value, every list of items and every list
    of members that needs no more. A value takes two steps for each of its characters, and
    items and members one more. -/
structure ReadsBy (fuel : Nat) : Prop where
  value {d : Document} {before cs rest : List Char} : Spelled d cs → Blanks before →
    Number.EndsBefore rest → 2 * cs.length ≤ fuel →
    ofChars fuel (before ++ (cs ++ rest)) = (d, some rest)
  items {items : List Document} {cs : List Char} (rest : List Char) : ItemsSpelled items cs →
    2 * cs.length + 1 ≤ fuel → itemsOfChars fuel (cs ++ ']' :: rest) = (items, some rest)
  members {members : List (Option String × Document)} {cs : List Char} (rest : List Char) :
    MembersSpelled members cs → 2 * cs.length + 1 ≤ fuel →
    membersOfChars fuel (cs ++ '\x7d' :: rest) = (members, some rest)

/-- A word is read whatever comes after it. -/
theorem ofWord_append (word : String) {value : Document} (rest : List Char) :
    ofWord word value (word.toList ++ rest) = (value, some rest) := by
  have hprefix : word.toList.isPrefixOf (word.toList ++ rest) = true :=
    List.isPrefixOf_iff_prefix.mpr ⟨rest, rfl⟩
  rw [ofWord, splitWord, if_pos hprefix, List.drop_left]

/-- A value without parts. -/
theorem ofScalar_number {n : Number} {cs rest : List Char} (h : n.Spelled cs)
    (hrest : Number.EndsBefore rest) : ofScalar (cs ++ rest) = (number n, some rest) := by
  have hsplit := Number.split_append h hrest
  obtain ⟨c, tail, rfl, _, hc⟩ := number_head h
  simp only [List.mem_cons, List.not_mem_nil, or_false, not_or] at hc
  obtain ⟨_, _, _, _, hn, ht, hf, hquote⟩ := hc
  rw [List.cons_append] at hsplit ⊢
  unfold ofScalar
  split
  · next h => exact absurd (List.cons.inj h).1 hn
  · next h => exact absurd (List.cons.inj h).1 ht
  · next h => exact absurd (List.cons.inj h).1 hf
  · next h => exact absurd (List.cons.inj h).1 hquote
  · rw [hsplit]

/-- A value that is no array and no object. -/
theorem ofChars_scalar {fuel : Nat} {d : Document} {cs before rest : List Char}
    (hskip : skipSpace (before ++ (cs ++ rest)) = cs ++ rest)
    (hhead : ∀ c ∈ (cs ++ rest).head?, c ≠ '[' ∧ c ≠ '\x7b')
    (h : ofScalar (cs ++ rest) = (d, some rest)) :
    ofChars (fuel + 1) (before ++ (cs ++ rest)) = (d, some rest) := by
  rw [ofChars, hskip]
  generalize hcs : cs ++ rest = text at hhead h
  split
  · exact absurd rfl (hhead '[' rfl).1
  · exact absurd rfl (hhead '\x7b' rfl).2
  · exact h

/-- A value, given that its parts are read with a step less. -/
theorem ReadsBy.value_succ {fuel : Nat} (ih : ReadsBy fuel) {d : Document}
    {before cs rest : List Char} (h : Spelled d cs) (hbefore : Blanks before)
    (hrest : Number.EndsBefore rest) (hfuel : 2 * cs.length ≤ fuel + 1) :
    ofChars (fuel + 1) (before ++ (cs ++ rest)) = (d, some rest) := by
  have hskip : skipSpace (before ++ (cs ++ rest)) = cs ++ rest := h.skipSpace_append hbefore
  cases h with
  | wordNull =>
    exact ofChars_scalar hskip (fun c hc => by cases hc; decide) (ofWord_append "null" rest)
  | wordTrue =>
    exact ofChars_scalar hskip (fun c hc => by cases hc; decide) (ofWord_append "true" rest)
  | wordFalse =>
    exact ofChars_scalar hskip (fun c hc => by cases hc; decide)
      (ofWord_append "false" rest)
  | number hn =>
    refine ofChars_scalar hskip (fun c hc => ?_) (ofScalar_number hn hrest)
    obtain ⟨d, tail, rfl, _, hother⟩ := number_head hn
    cases hc
    constructor <;> (rintro rfl; exact hother (by decide))
  | text htext =>
    have hcontent := splitContent_spelled htext rest
    obtain ⟨_, _, _, rfl, _⟩ := htext
    refine ofChars_scalar hskip (fun c hc => by cases hc; decide) ?_
    rw [List.cons_append] at hcontent ⊢
    simp only [ofScalar, hcontent]
  | @noItems blanks hblanks =>
    have hinner : skipSpace (blanks ++ [']'] ++ rest) = ']' :: rest := by
      rw [List.append_assoc]
      exact skipSpace_append hblanks (by decide)
    rw [ofChars, hskip, List.cons_append]
    simp only [hinner]
  | @items items inner hitems =>
    rw [List.length_cons, List.length_append, List.length_singleton] at hfuel
    have hinner := hitems.skipSpace_ne (']' :: rest)
    have hread := ih.items rest hitems (by omega)
    rw [ofChars, hskip, List.cons_append, List.append_assoc, List.singleton_append]
    -- the reader looks for a closing bracket first, which `hinner` excludes
    simp only [hread]
  | @noMembers blanks hblanks =>
    have hinner : skipSpace (blanks ++ ['\x7d'] ++ rest) = '\x7d' :: rest := by
      rw [List.append_assoc]
      exact skipSpace_append hblanks (by decide)
    rw [ofChars, hskip, List.cons_append]
    simp only [hinner]
  | @members members inner hmembers =>
    rw [List.length_cons, List.length_append, List.length_singleton] at hfuel
    obtain ⟨tail, hinner⟩ := hmembers.skipSpace_eq ('\x7d' :: rest)
    have hread := ih.members rest hmembers (by omega)
    rw [ofChars, hskip, List.cons_append, List.append_assoc, List.singleton_append]
    simp only [hinner, hread]
    rfl

/-- Items, given that each and those after it are read with a step less. -/
theorem ReadsBy.items_succ {fuel : Nat} (ih : ReadsBy fuel) {items : List Document}
    {cs : List Char} (rest : List Char) (h : ItemsSpelled items cs)
    (hfuel : 2 * cs.length + 1 ≤ fuel + 1) :
    itemsOfChars (fuel + 1) (cs ++ ']' :: rest) = (items, some rest) := by
  cases h with
  | @last item before cs after hbefore hitem hafter =>
    rw [List.length_append, List.length_append] at hfuel
    have hend : Number.EndsBefore (after ++ ']' :: rest) :=
      endsBefore_append hafter fun c hc => by cases hc; decide
    have hskip : skipSpace (after ++ ']' :: rest) = ']' :: rest :=
      skipSpace_append hafter (by decide)
    rw [itemsOfChars, List.append_assoc, List.append_assoc,
      ih.value hitem hbefore hend (by omega)]
    simp only [hskip]
  | @more item items before cs after tail hbefore hitem hafter hitems =>
    simp only [List.length_append, List.length_cons] at hfuel
    have hend : Number.EndsBefore (after ++ ',' :: (tail ++ ']' :: rest)) :=
      endsBefore_append hafter fun c hc => by cases hc; decide
    have hskip : skipSpace (after ++ ',' :: (tail ++ ']' :: rest)) = ',' :: (tail ++ ']' :: rest) :=
      skipSpace_append hafter (by decide)
    obtain ⟨c, inner, hcs, _⟩ := hitem.head
    have hpos : 0 < cs.length := by rw [hcs]; exact Nat.zero_lt_succ _
    have htext : before ++ (cs ++ (after ++ ',' :: tail)) ++ ']' :: rest =
        before ++ (cs ++ (after ++ ',' :: (tail ++ ']' :: rest))) := by simp
    rw [itemsOfChars, htext, ih.value hitem hbefore hend (by omega)]
    simp only [hskip, ih.items rest hitems (by omega)]

/-- One member up to the comma or brace after it, given that its value is read with a step
    less. -/
theorem ReadsBy.member_succ {fuel : Nat} (ih : ReadsBy fuel) {name : Option String}
    {value : Document} {cs : List Char} {mark : Char} (rest : List Char)
    (h : MemberSpelled (name, value) cs) (hmark : mark = ',' ∨ mark = '\x7d')
    (hfuel : 2 * cs.length ≤ fuel) :
    ∃ key gap after, splitContent (skipSpace (cs ++ mark :: rest)) = some (name, key) ∧
      skipSpace key = ':' :: gap ∧ ofChars fuel gap = (value, some after) ∧
      skipSpace after = mark :: rest := by
  have hspace : isSpace mark = false := by rcases hmark with rfl | rfl <;> decide
  have hplain : Number.EndsBefore (mark :: rest) := by
    intro c hc
    cases hc
    rcases hmark with rfl | rfl <;> decide
  obtain @⟨_, _, before, key, colon, gap, cs, after, hbefore, hkey, hcolon, hgap, hvalue, hafter⟩ := h
  simp only [List.length_append, List.length_cons] at hfuel
  have htext : before ++ (key ++ (colon ++ ':' :: (gap ++ (cs ++ after)))) ++ mark :: rest =
      before ++ (key ++ (colon ++ ':' :: (gap ++ (cs ++ (after ++ mark :: rest))))) := by simp
  have hquote :
      skipSpace (before ++ (key ++ (colon ++ ':' :: (gap ++ (cs ++ (after ++ mark :: rest)))))) =
      key ++ (colon ++ ':' :: (gap ++ (cs ++ (after ++ mark :: rest)))) := by
    obtain ⟨_, _, _, rfl, _⟩ := hkey
    exact skipSpace_append hbefore (by decide)
  refine ⟨_, gap ++ (cs ++ (after ++ mark :: rest)), after ++ mark :: rest, ?_,
    skipSpace_append hcolon (by decide),
    ih.value hvalue hgap (endsBefore_append hafter hplain) (by omega),
    skipSpace_append hafter hspace⟩
  rw [htext, hquote, splitContent_spelled hkey]

/-- Members, given that each and those after it are read with a step less. -/
theorem ReadsBy.members_succ {fuel : Nat} (ih : ReadsBy fuel)
    {members : List (Option String × Document)} {cs : List Char} (rest : List Char)
    (h : MembersSpelled members cs) (hfuel : 2 * cs.length + 1 ≤ fuel + 1) :
    membersOfChars (fuel + 1) (cs ++ '\x7d' :: rest) = (members, some rest) := by
  cases h with
  | @last member cs hmember =>
    obtain ⟨name, value⟩ := member
    obtain ⟨key, gap, after, hkey, hcolon, hvalue, hend⟩ :=
      ih.member_succ rest hmember (.inr rfl) (by omega)
    rw [membersOfChars, hkey]
    simp only [hcolon, hvalue, hend]
  | @more member members cs tail hmember hmembers =>
    simp only [List.length_append, List.length_cons] at hfuel
    obtain ⟨name, value⟩ := member
    obtain ⟨key, gap, after, hkey, hcolon, hvalue, hend⟩ :=
      ih.member_succ (tail ++ '\x7d' :: rest) hmember (.inl rfl) (by omega)
    rw [membersOfChars, List.append_assoc, List.cons_append, hkey]
    simp only [hcolon, hvalue, hend, ih.members rest hmembers (by omega)]

/-- What the reader reads, by induction on the steps that it has to go. -/
theorem readsBy (fuel : Nat) : ReadsBy fuel := by
  induction fuel with
  | zero =>
    constructor
    · intro d before cs rest h _ _ hfuel
      obtain ⟨c, tail, rfl, _⟩ := h.head
      rw [List.length_cons] at hfuel
      omega
    · intro _ _ _ _ hfuel
      omega
    · intro _ _ _ _ hfuel
      omega
  | succ fuel ih => exact ⟨ih.value_succ, ih.items_succ, ih.members_succ⟩

/-- A document is read back from each of its texts, and nothing but blanks is left. -/
theorem read_text {d : Document} {cs : List Char} (h : Text d cs) :
    ∃ rest, read cs = (d, some rest) ∧ skipSpace rest = [] := by
  obtain ⟨before, inner, after, hbefore, hinner, hafter, rfl⟩ := h
  refine ⟨after, (readsBy _).value hinner hbefore ?_ ?_, skipSpace_blanks hafter⟩
  · have hend : Number.EndsBefore (after ++ []) := endsBefore_append hafter nofun
    rwa [List.append_nil] at hend
  · simp only [List.length_append]
    omega

/-- A document alone is read with nothing left. -/
theorem read_spelled {d : Document} {cs : List Char} (h : Spelled d cs) :
    read cs = (d, some []) := by
  have hend : Number.EndsBefore [] := nofun
  have hread := (readsBy (2 * cs.length + 2)).value h .nil hend (by omega)
  rwa [List.nil_append, List.append_nil] at hread

/-! ## No broken parts -/

mutual

/-- A spelled document has no broken part. -/
theorem Spelled.isSound : ∀ {d : Document} {cs : List Char}, Spelled d cs → d.isSound = true
  | _, _, .wordNull => rfl
  | _, _, .wordTrue => rfl
  | _, _, .wordFalse => rfl
  | _, _, .number _ => rfl
  | _, _, .text _ => rfl
  | _, _, .noItems _ => rfl
  | _, _, .items h => h.areSound
  | _, _, .noMembers _ => rfl
  | _, _, .members h => h.membersAreSound

theorem ItemsSpelled.areSound : ∀ {items : List Document} {cs : List Char},
    ItemsSpelled items cs → Document.areSound items = true
  | _, _, .last _ h _ => by rw [Document.areSound, h.isSound]; rfl
  | _, _, .more _ h _ hrest => by rw [Document.areSound, h.isSound, hrest.areSound]; rfl

theorem MembersSpelled.membersAreSound : ∀ {members : List (Option String × Document)}
    {cs : List Char}, MembersSpelled members cs → Document.membersAreSound members = true
  | _, _, .last (.intro _ _ _ _ h _) => by rw [Document.membersAreSound, h.isSound]; rfl
  | _, _, .more (.intro _ _ _ _ h _) hrest => by
    rw [Document.membersAreSound, h.isSound, hrest.membersAreSound]; rfl

end

end Calculator.Json.Document
