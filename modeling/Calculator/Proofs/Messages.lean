import Calculator.Journal.Event
import Calculator.Proofs.Basic

/-!
# Messages of the journal

A line of the journal names its level and the part of the program that speaks, and then
gives the message: a few fixed words, and after them the values. No fixed words begin other
fixed words, and no level with a part begins another one, so by how a line begins it tells
which kind of event it is about, whatever the values are.

Results:

* `begins_line_iff`: a line begins with the words of its own event and with no others.
* `told_lines`: the lines with given words are the lines of the events with these words.
* `origin_eq_of_words_eq`: the same words are used by one part of the program only.
* `lines_of_trace`: what is written when every part is traced.
-/

namespace Calculator.Journal

/-! ## Texts that are told apart by how they begin -/

/-- No text of the list begins another one. -/
def PrefixFree (texts : List String) : Prop :=
  ∀ a ∈ texts, ∀ b ∈ texts, a.toList <+: b.toList → a = b

/-- Whatever follows, two such texts that begin alike are the same. -/
theorem PrefixFree.of_append {texts : List String} {a b u v : String} (h : PrefixFree texts)
    (ha : a ∈ texts) (hb : b ∈ texts) (hbegins : (a ++ u).toList <+: (b ++ v).toList) :
    a = b ∧ u.toList <+: v.toList := by
  rw [String.toList_append, String.toList_append] at hbegins
  have hab : a = b := by
    have hleft := (List.prefix_append a.toList u.toList).trans hbegins
    have hright := List.prefix_append b.toList v.toList
    rcases List.prefix_or_prefix_of_prefix hleft hright with hle | hle
    · exact h a ha b hb hle
    · exact (h b hb a ha hle).symm
  refine ⟨hab, ?_⟩
  rw [hab] at hbegins
  exact (List.prefix_append_right_inj b.toList).mp hbegins

/-! ## Where a line comes from -/

/-- What stands in a line before its message. -/
def stamp (level : Level) (origin : Origin) : String := level.label ++ " " ++ origin.name ++ ": "

theorem Level.mem_all (level : Level) : level ∈ Level.all := by
  cases level <;> decide

theorem Origin.mem_all (origin : Origin) : origin ∈ Origin.all := by
  cases origin with
  | phase p => cases p <;> decide
  | calculation => decide
  | command => decide

/-- All that may stand in a line before its message. -/
def stamps : List String := Level.all.flatMap fun level => Origin.all.map (stamp level)

theorem mem_stamps (level : Level) (origin : Origin) : stamp level origin ∈ stamps :=
  List.mem_flatMap.mpr
    ⟨level, level.mem_all, List.mem_map_of_mem origin.mem_all⟩

theorem prefixFree_stamps : PrefixFree stamps := by
  unfold PrefixFree
  decide +kernel

/-! ## What a line says -/

namespace Event

/-- The fixed words that the message begins with. -/
def words : Event → String
  | readingStarted _ => "Creating new Lexer"
  | tokenRead (.invalid _) => "Produced invalid token"
  | tokenRead _ => "Produced token"
  | readingFinished _ => "Tokenize finished"
  | orderingStarted _ => "Starting shunting yard"
  | released _ => "Pop to output"
  | operatorPushed _ _ => "Push operator"
  | bracketMatched _ => "Matched bracket"
  | tokenRejected _ => "Rejecting invalid token"
  | orderingFinished _ => "Shunting yard finished"
  | evaluationStarted _ => "Starting evaluation"
  | operatorApplied _ _ _ _ => "Applied operator"
  | evaluationFinished _ => "Evaluation finished"
  | calculationStarted => "Starting execution"
  | inputRejected _ _ => "Input rejected"
  | tokensShown _ => "Tokens"
  | postfixShown _ => "Postfix"
  | arranged _ _ => "Translation completed"
  | calculationFinished _ => "Execution completed"
  | settingsLoaded _ => "Configuration loaded"
  | inputFinished _ _ => "Finished reading input"

/-- The values follow the words. -/
theorem exists_text_eq (e : Event) : ∃ values, e.text = e.words ++ values := by
  cases e with
  | tokenRead t =>
    cases t with
    | invalid complaint => exact ⟨" " ++ visibleText complaint, by rfl⟩
    | _ => exact ⟨_, String.append_assoc⟩
  | calculationStarted => exact ⟨"", by rfl⟩
  | operatorPushed op depth => exact ⟨_, String.append_assoc⟩
  | operatorApplied a op b result =>
    exact ⟨_, String.append_assoc.trans (String.append_assoc.trans String.append_assoc)⟩
  | inputRejected length limit => exact ⟨_, String.append_assoc⟩
  | arranged tokens ordered => exact ⟨_, String.append_assoc⟩
  | inputFinished evaluated failed => exact ⟨_, String.append_assoc⟩
  | _ => exact ⟨_, rfl⟩

end Event

/-- The fixed words of all messages, each with the part of the program that uses them. -/
def vocabulary : List (String × Origin) :=
  [("Creating new Lexer", .phase .reading), ("Produced invalid token", .phase .reading),
   ("Produced token", .phase .reading), ("Tokenize finished", .phase .reading),
   ("Starting shunting yard", .phase .ordering), ("Pop to output", .phase .ordering),
   ("Push operator", .phase .ordering), ("Matched bracket", .phase .ordering),
   ("Rejecting invalid token", .phase .ordering), ("Shunting yard finished", .phase .ordering),
   ("Starting evaluation", .phase .evaluating), ("Applied operator", .phase .evaluating),
   ("Evaluation finished", .phase .evaluating), ("Starting execution", .calculation),
   ("Input rejected", .calculation), ("Tokens", .calculation), ("Postfix", .calculation),
   ("Translation completed", .calculation), ("Execution completed", .calculation),
   ("Configuration loaded", .command), ("Finished reading input", .command)]

theorem mem_vocabulary (e : Event) : (e.words, e.origin) ∈ vocabulary := by
  cases e with
  | tokenRead t => cases t <;> simp [Event.words, Event.origin, vocabulary]
  | _ => simp [Event.words, Event.origin, vocabulary]

theorem mem_words (e : Event) : e.words ∈ vocabulary.map Prod.fst :=
  List.mem_map_of_mem (mem_vocabulary e)

theorem prefixFree_words : PrefixFree (vocabulary.map Prod.fst) := by
  unfold PrefixFree
  decide +kernel

theorem origin_eq_of_words_eq {e e' : Event} (h : e.words = e'.words) : e.origin = e'.origin := by
  have hone : ∀ a ∈ vocabulary, ∀ b ∈ vocabulary, a.1 = b.1 → a.2 = b.2 := by decide +kernel
  exact hone _ (mem_vocabulary e) _ (mem_vocabulary e') h

/-! ## Lines by their words -/

/-- Whether the message of a line begins with the words, at whatever level and from whatever
    part of the program. -/
def begins (words line : String) : Bool :=
  Level.all.any fun level => Origin.all.any fun origin =>
    (stamp level origin ++ words).toList.isPrefixOf line.toList

/-- The lines whose messages begin with the words. -/
def told (words : String) (lines : List String) : List String := lines.filter (begins words)

theorem begins_iff {words line : String} : begins words line = true ↔
    ∃ level origin, (stamp level origin ++ words).toList <+: line.toList := by
  simp only [begins, List.any_eq_true, List.isPrefixOf_iff_prefix]
  constructor
  · rintro ⟨level, _, origin, _, h⟩
    exact ⟨level, origin, h⟩
  · rintro ⟨level, origin, h⟩
    exact ⟨level, level.mem_all, origin, origin.mem_all, h⟩

/-- A line is its stamp and its message. -/
theorem line_eq (e : Event) : e.line = stamp e.level e.origin ++ e.text := rfl

theorem begins_line_iff (e e' : Event) : begins e'.words e.line = true ↔ e.words = e'.words := by
  obtain ⟨values, htext⟩ := e.exists_text_eq
  rw [begins_iff, line_eq, htext]
  constructor
  · rintro ⟨level, origin, h⟩
    obtain ⟨_, hmessage⟩ :=
      prefixFree_stamps.of_append (mem_stamps level origin) (mem_stamps e.level e.origin) h
    rw [← String.append_empty (s := e'.words)] at hmessage
    obtain ⟨hwords, _⟩ := prefixFree_words.of_append (mem_words e') (mem_words e) hmessage
    exact hwords.symm
  · intro h
    refine ⟨e.level, e.origin, ?_⟩
    rw [← h, ← String.append_assoc, String.toList_append (s := stamp _ _ ++ _)]
    exact List.prefix_append _ _

/-- The events with the words. -/
def about (words : String) (events : List Event) : List Event :=
  events.filter fun e => e.words = words

theorem about_append (words : String) (events more : List Event) :
    about words (events ++ more) = about words events ++ about words more :=
  List.filter_append events more

theorem about_eq_self {words : String} {events : List Event} (h : ∀ e ∈ events, e.words = words) :
    about words events = events :=
  List.filter_eq_self.mpr fun e he => decide_eq_true_iff.mpr (h e he)

theorem about_eq_nil {words : String} {events : List Event} (h : ∀ e ∈ events, e.words ≠ words) :
    about words events = [] :=
  List.filter_eq_nil_iff.mpr fun e he hwords => h e he (decide_eq_true_iff.mp hwords)

theorem told_lines (e' : Event) (events : List Event) :
    told e'.words (events.map Event.line) = (about e'.words events).map Event.line := by
  rw [told, List.filter_map, about]
  congr 1
  apply List.filter_congr
  intro e _
  rw [Function.comp_apply, Bool.eq_iff_iff, begins_line_iff, decide_eq_true_iff]

/-! ## Traces -/

/-- When every part is traced, every event is written. -/
theorem lines_of_trace {s : JournalSettings} (hs : ∀ origin, threshold s origin = .trace)
    (events : List Event) : lines s events = events.map Event.line := by
  rw [lines, List.filter_eq_self.mpr]
  intro e _
  rw [Event.isWritten, hs]
  cases e.level <;> rfl

end Calculator.Journal
