import Calculator.Proofs.Documents
import Calculator.Proofs.Records

/-!
# The texts of settings

Settings are a record of two records, and each of the three may be written as an object or
as an array, with any of its fields left out that have their defaults. Each way to write
settings, with any blanks and any escapes in its texts, is read as these settings. A text
that repeats a known name of one of the three records is refused for it and never read.

Results:

* `limitsRecord`, `journalRecord`, `settingsRecord`: the records with their fields.
* `parse_of_writes`: the texts of settings.
* `parse_of_repeats`: the texts that would be such but for a repeated name.
-/

namespace Calculator.Settings

open Calculator.Json (Document Number)
open Calculator.Journal (Level)

/-! ## Single values -/

/-- A size that 64 bits hold is written with its decimal digits. -/
def WritesSize (k : Nat) (d : Document) : Prop :=
  k < Number.wordBound ∧ d = .number (Number.plain k)

/-- A level is written with its name; errors alone are also silence. -/
def WritesLevel (l : Level) (d : Document) : Prop :=
  d = .text (some l.name) ∨ l = .error ∧ d = .text (some "silent")

/-- A level that is left open is written with `null`. -/
def WritesOwnLevel : Option Level → Document → Prop
  | none, d => d = .null
  | some l, d => WritesLevel l d

theorem readSize_of_writes {k : Nat} {d : Document} (h : WritesSize k d) : readSize d = .ok k := by
  obtain ⟨hbound, rfl⟩ := h
  rw [readSize, Number.meaning_plain hbound]

theorem readLevel_of_writes {l : Level} {d : Document} (h : WritesLevel l d) :
    readLevel d = .ok l := by
  obtain rfl | ⟨rfl, rfl⟩ := h
  · rw [readLevel, readLevelName, Level.ofName?_name]
  · rfl

theorem readOwnLevel_of_writes {l : Option Level} {d : Document} (h : WritesOwnLevel l d) :
    readOwnLevel d = .ok l := by
  cases l with
  | none => rw [WritesOwnLevel] at h; rw [h]; rfl
  | some l =>
    have hread := readLevel_of_writes h
    obtain rfl | ⟨_, rfl⟩ := h
    · rw [readOwnLevel, hread]
      · rfl
      · nofun
    · rw [readOwnLevel, hread]
      · rfl
      · nofun

/-- Sizes as values of fields. -/
def sizeForm : Form Nat := .plain readSize WritesSize readSize_of_writes

/-- Levels as values of fields. -/
def levelForm : Form Level := .plain readLevel WritesLevel readLevel_of_writes

/-- Levels of single phases as values of fields. -/
def ownLevelForm : Form (Option Level) :=
  .plain readOwnLevel WritesOwnLevel readOwnLevel_of_writes

/-! ## Records -/

/-- The limits as a record. -/
def limitsRecord : Record Limits where
  title := "LimitConfig"
  slots :=
    [⟨"max_input_len", _, sizeForm, (·.inputLength), fun l k => { l with inputLength := k },
        fun _ _ => rfl⟩,
     ⟨"max_stack_size", _, sizeForm, (·.operands), fun l k => { l with operands := k },
        fun _ _ => rfl⟩]
  default := {}
  independent := List.pairwise_pair.mpr ⟨by decide, fun _ _ => rfl, fun _ _ => rfl⟩
  ext := by
    rintro ⟨_, _⟩ ⟨_, _⟩ h
    simp only [List.forall_mem_cons] at h
    obtain ⟨rfl, rfl, _⟩ := h
    rfl

/-- The journal settings as a record. -/
def journalRecord : Record JournalSettings where
  title := "LogConfig"
  slots :=
    [⟨"global", _, levelForm, (·.global), fun j l => { j with global := l }, fun _ _ => rfl⟩,
     ⟨"lexer", _, ownLevelForm, (·.reading), fun j l => { j with reading := l }, fun _ _ => rfl⟩,
     ⟨"translator", _, ownLevelForm, (·.ordering), fun j l => { j with ordering := l },
        fun _ _ => rfl⟩,
     ⟨"evaluator", _, ownLevelForm, (·.evaluating), fun j l => { j with evaluating := l },
        fun _ _ => rfl⟩]
  default := {}
  independent := by
    simp only [List.pairwise_cons, List.forall_mem_cons]
    refine ⟨⟨?_, ?_, ?_, List.forall_mem_nil _⟩, ⟨?_, ?_, List.forall_mem_nil _⟩,
      ⟨?_, List.forall_mem_nil _⟩, List.forall_mem_nil _, .nil⟩ <;>
      exact ⟨by decide, fun _ _ => rfl, fun _ _ => rfl⟩
  ext := by
    rintro ⟨_, _, _, _⟩ ⟨_, _, _, _⟩ h
    simp only [List.forall_mem_cons] at h
    obtain ⟨rfl, rfl, rfl, rfl, _⟩ := h
    rfl

/-- The settings as a record of both. -/
def settingsRecord : Record Settings where
  title := "ShuntConfig"
  slots :=
    [⟨"limits", _, limitsRecord.form, (·.limits), fun s l => { s with limits := l },
        fun _ _ => rfl⟩,
     ⟨"log", _, journalRecord.form, (·.journal), fun s j => { s with journal := j },
        fun _ _ => rfl⟩]
  default := {}
  independent := List.pairwise_pair.mpr ⟨by decide, fun _ _ => rfl, fun _ _ => rfl⟩
  ext := by
    rintro ⟨_, _⟩ ⟨_, _⟩ h
    simp only [List.forall_mem_cons] at h
    obtain ⟨rfl, rfl, _⟩ := h
    rfl

/-! ## Texts -/

/-- The settings are those of a text if its document is read as them. -/
theorem parse_of_text {source : String} {d : Document} (h : Document.Text d source.toList) :
    parse source = ofDocument d := by
  obtain ⟨rest, hread, hrest⟩ := Document.read_text h
  rw [parse, hread]
  simp only [hrest]
  cases ofDocument d <;> rfl

theorem isSound_of_text {d : Document} {cs : List Char} (h : Document.Text d cs) :
    d.isSound = true := by
  obtain ⟨_, _, _, _, hspelled, _⟩ := h
  exact hspelled.isSound

/-- **The texts of settings.** A text whose document writes settings, in any of the ways to
    write the three records and their values, is read as these settings, so any two texts of
    the same settings are read alike. A text that would be one of them, but for a known name
    that stands more than once in one of the records, is refused for such a name. -/
theorem parse_of_writes {source : String} {d : Document} (h : Document.Text d source.toList) :
    (∀ s, settingsRecord.Writes s d → parse source = .ok s ∧
      ∀ (other : String) (e : Document), Document.Text e other.toList →
        settingsRecord.Writes s e → parse other = parse source) ∧
    (settingsRecord.Admits d → settingsRecord.Repeats d →
      ∃ name, parse source = .error (.duplicateField name)) := by
  have hwrites : ∀ {source : String} {d : Document} {s : Settings},
      Document.Text d source.toList → settingsRecord.Writes s d → parse source = .ok s := by
    intro source d s htext hs
    rw [parse_of_text htext]
    exact settingsRecord.form.read_writes (isSound_of_text htext) hs
  constructor
  · intro s hs
    refine ⟨hwrites h hs, fun other e hother he => ?_⟩
    rw [hwrites h hs, hwrites hother he]
  · intro hadmits hrepeats
    rw [parse_of_text h]
    obtain ⟨s, hs⟩ | hname := settingsRecord.form.tame_read (isSound_of_text h) hadmits
    · exact absurd hrepeats (settingsRecord.form.not_repeats hs)
    · exact hname

/-- Settings with an unknown name, where `silent` stands for errors alone and the rest has its
    defaults; and settings whose journal stands twice, with two values. -/
theorem parse_of_writes_partial :
    parse " \x7b\"log\":[\"silent\",null,\"trace\"],\"x\":[true],\"limits\":[7]\x7d" =
      .ok
        { limits := { inputLength := 7 }
          journal := { global := .error, ordering := some .trace } } ∧
    ∃ name, parse "\x7b\"log\":[],\"log\":[\"info\"]\x7d" = .error (.duplicateField name) := by
  have hname := Json.textSpelled_writeText
  have htext : ∀ s : String, Document.Spelled (.text (some s)) (Json.writeText s) :=
    fun s => .text (Json.textSpelled_writeText s)
  constructor
  · have hsize : Document.Spelled (.number (Number.plain 7)) (Nat.toDigits 10 7) :=
      .number (Number.spelled_plain_iff.mpr rfl)
    have hlog := Document.Spelled.items (.more .nil (htext "silent") .nil
      (.more .nil .wordNull .nil (.last .nil (htext "trace") .nil)))
    have hspelled := Document.Spelled.members (.more (.intro .nil (hname "log") .nil .nil hlog .nil)
      (.more (.intro .nil (hname "x") .nil .nil (.items (.last .nil .wordTrue .nil)) .nil)
        (.last (.intro .nil (hname "limits") .nil .nil (.items (.last .nil hsize .nil)) .nil))))
    refine ((parse_of_writes ⟨[' '], _, [], by decide, hspelled, .nil, by decide⟩).1 _ ?_).1
    refine .object (by simp [Named]) ?_ ?_ ?_
    · simp [settingsRecord, mentions]
    · simp only [settingsRecord, List.forall_mem_cons]
      refine ⟨fun d hd => ?_, fun d hd => ?_, List.forall_mem_nil _⟩
      · obtain rfl : d = .array [.number (Number.plain 7)] := by simpa using hd
        refine .array (by decide) ?_ (by simp [limitsRecord])
        simp only [limitsRecord, List.zip_cons_cons, List.forall_mem_cons]
        exact ⟨⟨by decide, rfl⟩, List.forall_mem_nil _⟩
      · obtain rfl : d = .array [.text (some "silent"), .null, .text (some "trace")] := by
          simpa using hd
        refine .array (by decide) ?_ (by simp [journalRecord])
        simp only [journalRecord, List.zip_cons_cons, List.forall_mem_cons]
        exact ⟨.inr ⟨rfl, rfl⟩, rfl, .inl rfl, List.forall_mem_nil _⟩
    · simp [settingsRecord, mentions]
  · have hspelled := Document.Spelled.members
      (.more (.intro .nil (hname "log") .nil .nil (.noItems .nil) .nil)
        (.last (.intro .nil (hname "log") .nil .nil (.items (.last .nil (htext "info") .nil)) .nil)))
    refine (parse_of_writes ⟨[], _, [], .nil, hspelled, .nil, by decide⟩).2 ?_ ?_
    · refine .object (by simp [Named]) ?_
      simp only [settingsRecord, List.forall_mem_cons]
      refine ⟨fun d hd => ?_, fun d hd => ?_, List.forall_mem_nil _⟩
      · simp at hd
      · simp only [List.mem_cons, Prod.mk.injEq, true_and, List.not_mem_nil, or_false] at hd
        obtain rfl | rfl := hd
        · exact .array (by decide) (List.forall_mem_nil _)
        · refine .array (by decide) ?_
          simp only [journalRecord, List.zip_cons_cons, List.forall_mem_cons]
          exact ⟨⟨.info, .inl rfl⟩, List.forall_mem_nil _⟩
    · exact .name (s := settingsRecord.slots[1]) (List.mem_cons_of_mem _ List.mem_cons_self)
        (by decide)

end Calculator.Settings
