import Calculator.Proofs.Basic
import Calculator.Settings.Reader

/-!
# Records in structured texts

A record may be written as an object with some of its fields, in any order and among unknown
names, or as an array with its first fields; what is left out has its default. A form says
how the values of a type are read and how they may be written, with the laws that tie both
together; a record whose fields have forms has a form of its own, so the forms of nested
records follow from the forms of their fields.

The reader settles one field after the other. What carries the proofs is that at every point
of the reading each field is settled or still to come.

Results:

* `Record.readItems_eq`, `Record.readMembers_eq`: the values of a record are read into it.
* `Record.tame_readItems`, `Record.tame_readMembers`: where each part writes a value, a record
  is read or a name is refused that stands more than once.
* `Record.not_repeats_of_readMembers`: nothing is read where a known name stands twice.
* `Record.form`: the form of a record.
-/

namespace Calculator.Settings

open Calculator.Json (Document)

/-! ## Forms -/

/-- The reading succeeds, or a name is refused because it stands more than once. -/
def Tame {β : Type} (result : Except Refusal β) : Prop :=
  (∃ b, result = .ok b) ∨ ∃ name, result = .error (.duplicateField name)

theorem Tame.bind {β γ : Type} {result : Except Refusal β} {f : β → Except Refusal γ}
    (h : Tame result) (hf : ∀ b, Tame (f b)) : Tame (result >>= f) := by
  obtain ⟨b, rfl⟩ | ⟨name, rfl⟩ := h
  · exact hf b
  · exact .inr ⟨name, rfl⟩

/-- How the values of a type are read, and how they may be written. -/
structure Form (β : Type) where
  read : Document → Except Refusal β
  /-- The document writes the value. -/
  Writes : β → Document → Prop
  /-- Each part of the document writes some value, but names may stand more than once. -/
  Admits : Document → Prop
  /-- A known name stands more than once. -/
  Repeats : Document → Prop
  read_writes {b : β} {d : Document} : d.isSound = true → Writes b d → read d = .ok b
  tame_read {d : Document} : d.isSound = true → Admits d → Tame (read d)
  not_repeats {b : β} {d : Document} : read d = .ok b → ¬ Repeats d

/-- The form of values that have no named parts. -/
def Form.plain {β : Type} (read : Document → Except Refusal β) (Writes : β → Document → Prop)
    (h : ∀ {b d}, Writes b d → read d = .ok b) : Form β where
  read := read
  Writes := Writes
  Admits d := ∃ b, Writes b d
  Repeats _ := False
  read_writes _ hd := h hd
  tame_read := fun _ ⟨b, hb⟩ => .inl ⟨b, h hb⟩
  not_repeats _ := id

/-! ## Records -/

/-- A field of a record: its name, the form of its values, and its place in the record. -/
structure Slot (α : Type) where
  name : String
  Value : Type
  form : Form Value
  get : α → Value
  set : α → Value → α
  get_set (a : α) (v : Value) : get (set a v) = v

namespace Slot

variable {α : Type}

/-- The slot as a field of the reader. -/
def field (s : Slot α) : Field α where
  name := s.name
  read a d := do return s.set a (← s.form.read d)

/-- The value of a slot goes into the record. -/
theorem read_field_bind {β : Type} (s : Slot α) (a : α) (d : Document) (f : α → Except Refusal β) :
    (s.field.read a d >>= f) = (s.form.read d >>= fun v => f (s.set a v)) := by
  show ((s.form.read d >>= fun v => pure (s.set a v)) >>= f) = _
  cases s.form.read d <;> rfl

/-- The slots have names of their own and do not touch each other's values. -/
structure Independent (s t : Slot α) : Prop where
  name : s.name ≠ t.name
  left (a : α) (v : t.Value) : s.get (t.set a v) = s.get a
  right (a : α) (v : s.Value) : t.get (s.set a v) = t.get a

end Slot

/-- A type of records: its slots in order, and the record that stands for what is left out. -/
structure Record (α : Type) where
  title : String
  slots : List (Slot α)
  default : α
  independent : slots.Pairwise Slot.Independent
  /-- A record has no more to it than its slots. -/
  ext {a b : α} : (∀ s ∈ slots, s.get a = s.get b) → a = b

/-- How often a name stands among members. -/
def mentions (name : String) (members : List (Option String × Document)) : Nat :=
  (members.map Prod.fst).count (some name)

theorem mentions_cons (name : String) (m : Option String × Document)
    (members : List (Option String × Document)) :
    mentions name (m :: members) = mentions name members + if m.1 == some name then 1 else 0 := by
  rw [mentions, List.map_cons, List.count_cons]
  rfl

/-- The names of all members are texts. -/
def Named (members : List (Option String × Document)) : Prop := ∀ m ∈ members, m.1 ≠ none

namespace Record

variable {α : Type}

/-- The ways to write a record: its first slots in an array, where the slots after them have
    their defaults, or named slots in an object, where those that are not named have theirs. -/
inductive Writes (r : Record α) (a : α) : Document → Prop
  | array {items : List Document} : items.length ≤ r.slots.length →
      (∀ p ∈ r.slots.zip items, p.1.form.Writes (p.1.get a) p.2) →
      (∀ s ∈ r.slots.drop items.length, s.get r.default = s.get a) → Writes r a (.array items)
  | object {members : List (Option String × Document)} : Named members →
      (∀ s ∈ r.slots, mentions s.name members ≤ 1) →
      (∀ s ∈ r.slots, ∀ d, (some s.name, d) ∈ members → s.form.Writes (s.get a) d) →
      (∀ s ∈ r.slots, mentions s.name members = 0 → s.get r.default = s.get a) →
      Writes r a (.object members)

/-- The documents that would write a record if no name stood more than once. -/
inductive Admits (r : Record α) : Document → Prop
  | array {items : List Document} : items.length ≤ r.slots.length →
      (∀ p ∈ r.slots.zip items, p.1.form.Admits p.2) → Admits r (.array items)
  | object {members : List (Option String × Document)} : Named members →
      (∀ s ∈ r.slots, ∀ d, (some s.name, d) ∈ members → s.form.Admits d) →
      Admits r (.object members)

/-- The documents with a known name that stands more than once, in the record itself or in
    one of its parts. -/
inductive Repeats (r : Record α) : Document → Prop
  | item {items : List Document} {p : Slot α × Document} : p ∈ r.slots.zip items →
      p.1.form.Repeats p.2 → Repeats r (.array items)
  | name {members : List (Option String × Document)} {s : Slot α} : s ∈ r.slots →
      2 ≤ mentions s.name members → Repeats r (.object members)
  | member {members : List (Option String × Document)} {s : Slot α} {d : Document} :
      s ∈ r.slots → (some s.name, d) ∈ members → s.form.Repeats d → Repeats r (.object members)

variable (r : Record α)

/-- The fields of the reader. -/
def fields : List (Field α) := r.slots.map Slot.field

variable {r} {s t : Slot α} {a record : α}

theorem eq_or_independent (hs : s ∈ r.slots) (ht : t ∈ r.slots) : s = t ∨ s.Independent t := by
  obtain ⟨i, hi, rfl⟩ := List.getElem_of_mem hs
  obtain ⟨j, hj, rfl⟩ := List.getElem_of_mem ht
  have hpairs := List.pairwise_iff_getElem.mp r.independent
  rcases Nat.lt_trichotomy i j with hij | rfl | hij
  · exact .inr (hpairs i j hi hj hij)
  · exact .inl rfl
  · have h := hpairs j i hj hi hij
    exact .inr ⟨h.name.symm, h.right, h.left⟩

theorem eq_of_name_eq (hs : s ∈ r.slots) (ht : t ∈ r.slots) (h : s.name = t.name) : s = t :=
  (eq_or_independent hs ht).resolve_right fun hind => hind.name h

/-- A settled slot stays settled when another one is. -/
theorem get_set_settled (hs : s ∈ r.slots) (ht : t ∈ r.slots) (h : t.get record = t.get a) :
    t.get (s.set record (s.get a)) = t.get a := by
  rcases eq_or_independent hs ht with rfl | hind
  · exact s.get_set record (s.get a)
  · rw [hind.right, h]

/-! ## Arrays -/

/-- An item goes into the first slot. -/
theorem readItems_cons (s : Slot α) (rest : List (Slot α)) (record : α) (item : Document)
    (items : List Document) :
    readItems ((s :: rest).map Slot.field) record (item :: items) =
      s.form.read item >>= fun v => readItems (rest.map Slot.field) (s.set record v) items := by
  rw [List.map_cons, readItems]
  exact s.read_field_bind record item _

/-- Items that write the slots of a record from here on are read into it, where each slot is
    settled or one of those that the items write. -/
theorem readItems_eq (items : List Document) : ∀ (rest : List (Slot α)) (record : α),
    (∀ s ∈ rest, s ∈ r.slots) → Document.areSound items = true → items.length ≤ rest.length →
    (∀ p ∈ rest.zip items, p.1.form.Writes (p.1.get a) p.2) →
    (∀ s ∈ r.slots, s.get record = s.get a ∨ s ∈ rest.take items.length) →
    readItems (rest.map Slot.field) record items = .ok a := by
  induction items with
  | nil =>
    intro rest record _ _ _ _ hsettled
    have hall : record = a := r.ext fun s hs => (hsettled s hs).resolve_right (by simp)
    rw [readItems, hall]
  | cons item items ih =>
    intro rest record hrest hsound hlength hwrites hsettled
    cases rest with
    | nil => exact absurd hlength (Nat.not_succ_le_zero _)
    | cons s rest =>
      rw [Document.areSound, Bool.and_eq_true] at hsound
      have hs : s ∈ r.slots := hrest s List.mem_cons_self
      have hitem := s.form.read_writes hsound.1 (hwrites (s, item) List.mem_cons_self)
      have hnext := ih rest (s.set record (s.get a))
        (fun t ht => hrest t (List.mem_cons_of_mem _ ht)) hsound.2 (Nat.le_of_succ_le_succ hlength)
        (fun p hp => hwrites p (List.mem_cons_of_mem _ hp)) fun t ht => by
          rcases hsettled t ht with h | h
          · exact .inl (get_set_settled hs ht h)
          · rcases List.mem_cons.mp h with rfl | h
            · exact .inl (t.get_set _ _)
            · exact .inr h
      rw [readItems_cons, hitem]
      exact hnext

theorem tame_readItems (items : List Document) : ∀ (rest : List (Slot α)) (record : α),
    Document.areSound items = true → items.length ≤ rest.length →
    (∀ p ∈ rest.zip items, p.1.form.Admits p.2) →
    Tame (readItems (rest.map Slot.field) record items) := by
  induction items with
  | nil =>
    intro rest record _ _ _
    rw [readItems]
    exact .inl ⟨record, rfl⟩
  | cons item items ih =>
    intro rest record hsound hlength hadmits
    cases rest with
    | nil => exact absurd hlength (Nat.not_succ_le_zero _)
    | cons s rest =>
      rw [Document.areSound, Bool.and_eq_true] at hsound
      have hitem := s.form.tame_read hsound.1 (hadmits (s, item) List.mem_cons_self)
      rw [readItems_cons]
      exact hitem.bind fun v => ih rest (s.set record v) hsound.2 (Nat.le_of_succ_le_succ hlength)
        fun p hp => hadmits p (List.mem_cons_of_mem _ hp)

theorem not_repeats_of_readItems (items : List Document) : ∀ (rest : List (Slot α)) (record : α),
    readItems (rest.map Slot.field) record items = .ok a →
    ∀ p ∈ rest.zip items, ¬ p.1.form.Repeats p.2 := by
  induction items with
  | nil =>
    intro rest record _ p hp
    rw [List.zip_nil_right] at hp
    cases hp
  | cons item items ih =>
    intro rest record h p hp
    cases rest with
    | nil => cases hp
    | cons s rest =>
      rw [readItems_cons] at h
      obtain ⟨v, hitem, hrest⟩ := Except.bind_eq_ok_iff.mp h
      rcases List.mem_cons.mp hp with rfl | hp
      · exact s.form.not_repeats hitem
      · exact ih rest (s.set record v) hrest p hp

/-! ## Objects -/

section

variable {name : String} {value : Document} {members : List (Option String × Document)}
  {seen : List String}

/-- A known name has its value read, unless it stood before. -/
theorem readMembers_known (hs : s ∈ r.slots) :
    readMembers r.fields seen record ((some s.name, value) :: members) =
      if seen.contains s.name then .error (.duplicateField s.name)
      else s.form.read value >>= fun v =>
        readMembers r.fields (s.name :: seen) (s.set record v) members := by
  have hfind : r.fields.find? (fun field => field.name == s.name) = some s.field := by
    cases h : r.fields.find? fun field => field.name == s.name with
    | none =>
      have hne := List.find?_eq_none.mp h s.field (List.mem_map_of_mem hs)
      exact absurd (beq_self_eq_true s.name) hne
    | some field =>
      obtain ⟨t, ht, rfl⟩ := List.mem_map.mp (List.mem_of_find?_eq_some h)
      have hname : t.name = s.name := beq_iff_eq.mp (List.find?_some h :)
      rw [eq_of_name_eq ht hs hname]
  rw [readMembers, hfind]
  simp only
  rw [s.read_field_bind]

/-- The value of an unknown name is passed over as long as it is well formed. -/
theorem readMembers_unknown (h : ∀ s ∈ r.slots, s.name ≠ name) :
    readMembers r.fields seen record ((some name, value) :: members) =
      if value.isSound then readMembers r.fields seen record members else .error .malformed := by
  have hfind : r.fields.find? (fun field => field.name == name) = none := by
    refine List.find?_eq_none.mpr fun field hfield => ?_
    obtain ⟨s, hs, rfl⟩ := List.mem_map.mp hfield
    exact fun heq => h s hs (beq_iff_eq.mp heq)
  rw [readMembers, hfind]

end

/-- A name is that of one slot or unknown. -/
theorem known_or_unknown (r : Record α) (name : String) :
    (∃ s ∈ r.slots, s.name = name) ∨ ∀ s ∈ r.slots, s.name ≠ name := by
  by_cases h : ∃ s ∈ r.slots, s.name = name
  · exact .inl h
  · exact .inr fun s hs heq => h ⟨s, hs, heq⟩

/-- Members that write the slots of a record are read into it, where each slot is settled or
    has its name among the members, and no name is both there and among those seen. -/
theorem readMembers_eq (members : List (Option String × Document)) :
    ∀ (seen : List String) (record : α), Named members →
    Document.membersAreSound members = true →
    (∀ s ∈ r.slots, seen.count s.name + mentions s.name members ≤ 1) →
    (∀ s ∈ r.slots, ∀ d, (some s.name, d) ∈ members → s.form.Writes (s.get a) d) →
    (∀ s ∈ r.slots, s.get record = s.get a ∨ mentions s.name members ≠ 0) →
    readMembers r.fields seen record members = .ok a := by
  induction members with
  | nil =>
    intro seen record _ _ _ _ hsettled
    have hall : record = a := r.ext fun s hs => (hsettled s hs).resolve_right fun h => h rfl
    rw [readMembers, hall]
  | cons m members ih =>
    intro seen record hnamed hsound honce hwrites hsettled
    obtain ⟨_ | name, value⟩ := m
    · exact absurd rfl (hnamed _ List.mem_cons_self)
    have hnamed' : Named members := fun m hm => hnamed m (List.mem_cons_of_mem _ hm)
    have hwrites' : ∀ s ∈ r.slots, ∀ d, (some s.name, d) ∈ members → s.form.Writes (s.get a) d :=
      fun s hs d hd => hwrites s hs d (List.mem_cons_of_mem _ hd)
    rw [Document.membersAreSound, Bool.and_eq_true] at hsound
    simp only [mentions_cons, beq_iff_eq, Option.some.injEq] at honce hsettled
    rcases r.known_or_unknown name with ⟨s, hs, rfl⟩ | hunknown
    · -- the name counts once for the member itself, so it cannot be among those seen
      have hseen : seen.contains s.name = false := by
        have h := honce s hs
        rw [if_pos rfl] at h
        rw [List.contains_eq_mem, decide_eq_false_iff_not, ← List.count_eq_zero]
        omega
      have hvalue := s.form.read_writes hsound.1 (hwrites s hs value List.mem_cons_self)
      rw [readMembers_known hs, hseen, if_neg Bool.false_ne_true, hvalue]
      refine ih _ _ hnamed' hsound.2 (fun t ht => ?_) hwrites' fun t ht => ?_
      · have h := honce t ht
        rw [List.count_cons]
        simp only [beq_iff_eq]
        omega
      · rcases hsettled t ht with h | h
        · exact .inl (get_set_settled hs ht h)
        -- the slot was still to come: with this member, or with a later one
        · by_cases heq : s.name = t.name
          · obtain rfl := eq_of_name_eq hs ht heq
            exact .inl (s.get_set _ _)
          · rw [if_neg heq] at h
            exact .inr h
    · rw [readMembers_unknown hunknown, if_pos hsound.1]
      refine ih _ _ hnamed' hsound.2 (fun t ht => ?_) hwrites' fun t ht => ?_
      · have h := honce t ht
        omega
      · have h := hsettled t ht
        rwa [if_neg (hunknown t ht).symm] at h

theorem tame_readMembers (members : List (Option String × Document)) :
    ∀ (seen : List String) (record : α), Named members →
    Document.membersAreSound members = true →
    (∀ s ∈ r.slots, ∀ d, (some s.name, d) ∈ members → s.form.Admits d) →
    Tame (readMembers r.fields seen record members) := by
  induction members with
  | nil =>
    intro seen record _ _ _
    exact .inl ⟨record, rfl⟩
  | cons m members ih =>
    intro seen record hnamed hsound hadmits
    obtain ⟨_ | name, value⟩ := m
    · exact absurd rfl (hnamed _ List.mem_cons_self)
    rw [Document.membersAreSound, Bool.and_eq_true] at hsound
    have hrest := fun seen record => ih seen record
      (fun m hm => hnamed m (List.mem_cons_of_mem _ hm)) hsound.2
      fun s hs d hd => hadmits s hs d (List.mem_cons_of_mem _ hd)
    rcases r.known_or_unknown name with ⟨s, hs, rfl⟩ | hunknown
    · rw [readMembers_known hs]
      split
      · exact .inr ⟨s.name, rfl⟩
      · have hvalue := s.form.tame_read hsound.1 (hadmits s hs value List.mem_cons_self)
        exact hvalue.bind fun v => hrest _ _
    · rw [readMembers_unknown hunknown, if_pos hsound.1]
      exact hrest seen record

/-- A name that was not seen twice does not stand twice, and no part of a record that is read
    repeats a name. -/
theorem not_repeats_of_readMembers (members : List (Option String × Document)) :
    ∀ (seen : List String) (record : α), readMembers r.fields seen record members = .ok a →
    ∀ s ∈ r.slots, (seen.count s.name ≤ 1 → seen.count s.name + mentions s.name members ≤ 1) ∧
      ∀ d, (some s.name, d) ∈ members → ¬ s.form.Repeats d := by
  induction members with
  | nil => exact fun seen _ _ s _ => ⟨id, nofun⟩
  | cons m members ih =>
    intro seen record h t ht
    obtain ⟨_ | name, value⟩ := m
    · rw [readMembers] at h
      cases h
    simp only [mentions_cons, beq_iff_eq, Option.some.injEq, List.mem_cons, Prod.mk.injEq]
    rcases r.known_or_unknown name with ⟨s, hs, rfl⟩ | hunknown
    · rw [readMembers_known hs] at h
      split at h
      case isTrue => cases h
      next hseen =>
      obtain ⟨v, hvalue, hrest⟩ := Except.bind_eq_ok_iff.mp h
      obtain ⟨honce, hparts⟩ := ih _ _ hrest t ht
      rw [List.count_cons] at honce
      simp only [beq_iff_eq] at honce
      by_cases heq : s.name = t.name
      · obtain rfl := eq_of_name_eq hs ht heq
        -- the reader has refused the name if it was seen, and counts it as seen from here on
        have hnew : seen.count s.name = 0 := by
          rw [List.count_eq_zero]
          rwa [List.contains_eq_mem, decide_eq_true_iff] at hseen
        refine ⟨fun _ => ?_, fun d hd => ?_⟩
        · simp only [if_true] at honce ⊢
          omega
        · rcases hd with ⟨_, rfl⟩ | hd
          · exact s.form.not_repeats hvalue
          · exact hparts d hd
      · rw [if_neg heq] at honce ⊢
        exact ⟨honce, fun d hd => hparts d (hd.resolve_left fun h => heq h.1.symm)⟩
    · rw [readMembers_unknown hunknown] at h
      split at h
      case isFalse => cases h
      obtain ⟨honce, hparts⟩ := ih _ _ h t ht
      rw [if_neg (hunknown t ht).symm]
      exact ⟨honce, fun d hd => hparts d (hd.resolve_left fun h => hunknown t ht h.1)⟩

/-! ## The form of a record -/

/-- Records are read into their slots. -/
def form (r : Record α) : Form α where
  read := readRecord r.title r.fields r.default
  Writes := r.Writes
  Admits := r.Admits
  Repeats := r.Repeats
  read_writes hsound h := by
    cases h with
    | @array items hlength hwrites hdefault =>
      refine readItems_eq items r.slots r.default (fun _ => id) hsound hlength hwrites ?_
      intro s hs
      rw [← List.take_append_drop items.length r.slots] at hs
      exact (List.mem_append.mp hs).symm.imp_left (hdefault s)
    | @object members hnamed honce hwrites hdefault =>
      refine readMembers_eq members [] r.default hnamed hsound (fun s hs => ?_) hwrites
        fun s hs => ?_
      · rw [List.count_nil, Nat.zero_add]
        exact honce s hs
      · by_cases h : mentions s.name members = 0
        · exact .inl (hdefault s hs h)
        · exact .inr h
  tame_read hsound h := by
    cases h with
    | array hlength hadmits => exact tame_readItems _ r.slots r.default hsound hlength hadmits
    | object hnamed hadmits => exact tame_readMembers _ [] r.default hnamed hsound hadmits
  not_repeats h hrepeats := by
    cases hrepeats with
    | item hmem hitem => exact not_repeats_of_readItems _ _ _ h _ hmem hitem
    | @name members s hs htwice =>
      have honce := (not_repeats_of_readMembers _ _ _ h s hs).1 (Nat.zero_le 1)
      rw [List.count_nil] at honce
      omega
    | @member members s d hs hmem hpart =>
      exact (not_repeats_of_readMembers _ _ _ h s hs).2 d hmem hpart

end Record

end Calculator.Settings
