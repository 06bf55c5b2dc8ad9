import Mathlib
import ContextFree.Log.Colour
import ContextFree.Proofs.Prepared

/-!
What a run reports, and what interrupts it. Most of what can be wrong with the input is reported, and the run
ends with 1 or 2. The rest is told apart exactly: settings are read or refused if their file, should there
be one, is a text that can be read (`load_answers_iff`); and a run whose arguments are accepted ends unless
something about the settings, the log level or a file is `Unreported`. Nothing in a grammar is.
-/
namespace ContextFree

open Text

variable {tree : FileTree} {path : FilePath}

/-! ## Files -/

/-- A name on the path holds the character that ends paths. -/
def FilePath.hasNull (p : FilePath) : Bool := p.names.any (·.contains '\x00')

namespace FileTree

theorem text_of_hasNull (h : path.hasNull = true) : tree.text path = .error .nullInPath := by
  have hbytes : tree.bytes path = .error .nullInPath := if_pos h
  rw [text, hbytes]
  rfl

theorem bytes_cases (tree : FileTree) (h : path.hasNull = false) :
    (∃ fault, tree.bytes path = .error (.file fault path)) ∨ ∃ bytes, tree.bytes path = .ok bytes := by
  unfold FileTree.bytes
  rw [if_neg (by simpa [FilePath.hasNull] using h)]
  split
  · exact .inl ⟨_, rfl⟩
  · generalize tree.follow _ path.names = found
    cases found with
    | error fault => exact .inl ⟨fault, rfl⟩
    | ok bytes => exact .inr ⟨bytes, rfl⟩

/-- Under a path without that character there is no file, or bytes that are no text, or a text. -/
theorem text_cases (tree : FileTree) (h : path.hasNull = false) :
    (∃ fault, tree.bytes path = .error (.file fault path) ∧
        tree.text path = .error (.file fault path)) ∨
      (∃ bytes fault, tree.bytes path = .ok bytes ∧ decode bytes = .error fault ∧
        tree.text path = .error (.undecodable fault)) ∨
      ∃ bytes cs, tree.bytes path = .ok bytes ∧ decode bytes = .ok cs ∧
        tree.text path = .ok (String.ofList (plainLineEnds cs)) := by
  obtain ⟨fault, hfault⟩ | ⟨bytes, hok⟩ := tree.bytes_cases h
  · refine .inl ⟨fault, hfault, ?_⟩
    rw [text, hfault]
    rfl
  · cases hdecode : decode bytes with
    | error fault =>
      refine .inr (.inl ⟨bytes, fault, hok, hdecode, ?_⟩)
      rw [text, hok]
      simp only [bind, Except.bind, hdecode]
      rfl
    | ok cs =>
      refine .inr (.inr ⟨bytes, cs, hok, hdecode, ?_⟩)
      rw [text, hok]
      simp only [bind, Except.bind, hdecode]
      rfl

theorem text_eq_nullInPath_iff : tree.text path = .error .nullInPath ↔ path.hasNull = true := by
  refine ⟨fun h => ?_, text_of_hasNull⟩
  by_contra hnull
  obtain ⟨fault, -, htext⟩ | ⟨bytes, fault, -, -, htext⟩ | ⟨bytes, cs, -, -, htext⟩ :=
    tree.text_cases (Bool.eq_false_iff.mpr hnull) <;> rw [h] at htext <;> cases htext

end FileTree

/-! ## Settings -/

/-- What is wrong is reported as an error in the settings. -/
def SettingsError.isReported : SettingsError → Bool
  | .noText _ | .tooManyDigits _ => false
  | _ => true

namespace Settings

/-- Settings have been read, or refused with an error that is reported as theirs. -/
def Answers : Except SettingsError Settings → Prop
  | .ok _ => True
  | .error e => e.isReported = true

/-- The path leads somewhere, and if there is a file, it holds a text without an integer that is too
long. -/
def Readable (tree : FileTree) (path : FilePath) : Prop :=
  ∃ place, tree.atHome path = .ok place ∧ place.hasNull = false ∧
    ∀ bytes, tree.bytes place = .ok bytes → ∃ cs, decode bytes = .ok cs ∧
      ∀ count, Json.read (.ofList (plainLineEnds cs)) ≠ .error (.tooManyDigits count)

theorem ofMembers_answers (members : List (String × Json)) : Answers (ofMembers members) := by
  simp only [ofMembers]
  split
  · rfl
  · split
    · trivial
    · rfl

/-- Whatever a text holds, it is settings or refused, an integer that is too long apart. -/
theorem ofText_answers_iff (path : FilePath) (text : String) : Answers (ofText path text) ↔
    ∀ count, Json.read text ≠ .error (.tooManyDigits count) := by
  unfold ofText
  cases hread : Json.read text with
  | error refusal =>
    cases refusal with
    | malformed e => simp [Answers, SettingsError.isReported]
    | tooManyDigits count => simp [Answers, SettingsError.isReported]
  | ok value =>
    refine iff_of_true ?_ fun count h => by cases h
    cases value with
    | object members => exact ofMembers_answers members
    | _ => rfl

theorem load_answers_iff (tree : FileTree) (path : FilePath) :
    Answers (load tree path) ↔ Readable tree path := by
  unfold load Readable
  cases hhome : tree.atHome path with
  | error e => simp [Answers, SettingsError.isReported]
  | ok place =>
    by_cases hnull : place.hasNull = true
    · simp [FileTree.text_of_hasNull hnull, hnull, Answers, SettingsError.isReported]
    · have hnull : place.hasNull = false := Bool.eq_false_iff.mpr hnull
      obtain ⟨fault, hbytes, htext⟩ | ⟨bytes, fault, hbytes, hdecode, htext⟩ |
          ⟨bytes, cs, hbytes, hdecode, htext⟩ := tree.text_cases hnull
      · simp [htext, hbytes, hnull, Answers, SettingsError.isReported]
      · simp [htext, hbytes, hdecode, hnull, Answers, SettingsError.isReported]
      · simp [htext, hbytes, hdecode, hnull, ofText_answers_iff]

end Settings

namespace CommandLine

variable {o : Options} {plan : Plan} {settings : Settings} {arguments : List String}
  {colouredLine : Log.Record → String}

/-! ## One file -/

/-- What is not reported about a file: a path that is none, a start that is missed, and a grammar whose
words are asked for, where the option has no value. -/
inductive UnreportedFile (o : Options) (tree : FileTree) (path : FilePath) : Prop
  | path (h : path.hasNull = true)
  | start {text : String} {A : Symbol} (htext : tree.text path = .ok text)
      (ho : o.start = .withoutValue)
      (h : Grammar.parse text (some "") = .error (.malformed (.undeclaredStart A)))
  | sample {text : String} {g : Grammar} (htext : tree.text path = .ok text)
      (ho : o.sample = .withoutValue) (h : parsed o text = .ok (.ok g))

theorem parsed_eq_error {text : String} {e : Interruption} (h : parsed o text = .error e) :
    o.start = .withoutValue ∧
      ∃ A, Grammar.parse text (some "") = .error (.malformed (.undeclaredStart A)) := by
  unfold parsed at h
  split at h
  · cases h
  · cases h
  · rename_i hstart
    split at h
    · rename_i A hparse
      exact ⟨hstart, A, hparse⟩
    · cases h

theorem parsed_of_missing_start {text : String} {A : Symbol} (ho : o.start = .withoutValue)
    (h : Grammar.parse text (some "") = .error (.malformed (.undeclaredStart A))) :
    parsed o text = .error .startWithoutValue := by
  simp only [parsed, ho, h]

theorem runFile_isOk (hf : 1 ≤ plan.policy.factor)
    (h : ¬ UnreportedFile plan.options tree path) : ∃ result, runFile plan tree path = .ok result := by
  cases htext : tree.text path with
  | error e =>
    have he : e ≠ .nullInPath := by
      rintro rfl
      exact h (.path (FileTree.text_eq_nullInPath_iff.mp htext))
    obtain ⟨shown, hshown⟩ : ∃ shown, runFile plan tree path = .ok (shown, false) :=
      runFile_unreadable htext he
    exact ⟨_, hshown⟩
  | ok text =>
    cases hparsed : parsed plan.options text with
    | error e =>
      obtain ⟨hstart, A, hparse⟩ := parsed_eq_error hparsed
      exact absurd (.start htext hstart hparse) h
    | ok read =>
      cases read with
      | error e =>
        simp only [runFile, htext, hparsed]
        exact ⟨_, rfl⟩
      | ok g =>
        have hs : plan.options.sample ≠ .withoutValue := fun hs => h (.sample htext hs hparsed)
        obtain ⟨shown, hshown⟩ := runFile_well htext hparsed hf hs
        exact ⟨_, hshown⟩

theorem runFile_isError (hf : 1 ≤ plan.policy.factor)
    (h : UnreportedFile plan.options tree path) : ∃ e, runFile plan tree path = .error e := by
  cases h with
  | path h =>
    simp only [runFile, FileTree.text_of_hasNull h]
    exact ⟨_, rfl⟩
  | start htext ho h =>
    simp only [runFile, htext, parsed_of_missing_start ho h]
    exact ⟨_, rfl⟩
  | sample htext ho h =>
    simp only [runFile, htext, h, bind, Except.bind,
      runGrammar_withoutValue (valid_of_parsed h) hf ho]
    exact ⟨_, rfl⟩

theorem runFiles_isOk {names : List String}
    (h : ∀ name ∈ names, ∃ result, runFile plan tree (.ofString name) = .ok result) :
    ∃ result, runFiles plan tree names = .ok result := by
  induction names with
  | nil => exact ⟨_, rfl⟩
  | cons name names ih =>
    obtain ⟨⟨first, hfirst⟩, hlater⟩ := List.forall_mem_cons.mp h
    obtain ⟨others, hothers⟩ := ih hlater
    rw [runFiles, hfirst, hothers]
    exact ⟨_, rfl⟩

/-- One file is enough to interrupt all. -/
theorem runFiles_isError {names : List String} {name : String} (hname : name ∈ names)
    (h : ∃ e, runFile plan tree (.ofString name) = .error e) :
    ∃ e, runFiles plan tree names = .error e := by
  induction names with
  | nil => cases hname
  | cons first names ih =>
    rw [runFiles]
    cases hfirst : runFile plan tree (.ofString first) with
    | error e => exact ⟨e, rfl⟩
    | ok shown =>
      have hlater : name ∈ names := by
        refine (List.mem_cons.mp hname).resolve_left ?_
        rintro rfl
        obtain ⟨e, he⟩ := h
        rw [hfirst] at he
        cases he
      obtain ⟨e, he⟩ := ih hlater
      rw [he]
      exact ⟨e, rfl⟩

/-! ## Runs -/

/-- What is not reported about a run whose arguments are accepted. -/
inductive Unreported (o : Options) (tree : FileTree) : Prop
  | settings {path : String} (ho : o.config = .value path) (hne : path ≠ "")
      (h : ¬ Settings.Readable tree (.ofString path))
  | level {settings : Settings} (hs : loadSettings o tree = .ok settings)
      (h : Log.levelOf? (chosenLevel o settings) = none)
  | file {settings : Settings} {name : String} (hs : loadSettings o tree = .ok settings)
      (hname : name ∈ o.files) (h : UnreportedFile o tree (.ofString name))

theorem loadSettings_of_config {path : String} (ho : o.config = .value path) (hne : path ≠ "") :
    loadSettings o tree = Settings.load tree (.ofString path) := by
  simp only [loadSettings, ho]

theorem config_of_loadSettings {e : SettingsError} (h : loadSettings o tree = .error e) :
    ∃ path, o.config = .value path ∧ path ≠ "" ∧ Settings.load tree (.ofString path) = .error e := by
  unfold loadSettings at h
  split at h
  · cases h
  · cases h
  · cases h
  · rename_i path hne hconfig
    exact ⟨path, hconfig, hne, h⟩

theorem run_of_reported {e : SettingsError} (haccepted : Options.ofArguments arguments = .ok o)
    (hload : loadSettings o tree = .error e) (he : e.isReported = true) :
    ∃ outcome, run colouredLine arguments tree = .ok outcome ∧ outcome.exit ≤ 2 := by
  simp only [run, haccepted, hload]
  cases e with
  | noText e => cases he
  | tooManyDigits count => cases he
  | _ => exact ⟨_, rfl, Nat.le_refl 2⟩

theorem run_of_unreported {e : SettingsError} (haccepted : Options.ofArguments arguments = .ok o)
    (hload : loadSettings o tree = .error e) (he : ¬ e.isReported = true) :
    ∃ e, run colouredLine arguments tree = .error e := by
  simp only [run, haccepted, hload]
  cases e with
  | noText e => exact ⟨_, rfl⟩
  | tooManyDigits count => exact ⟨_, rfl⟩
  | _ => exact absurd rfl he

theorem run_isOk (haccepted : Options.ofArguments arguments = .ok o) (h : ¬ Unreported o tree) :
    ∃ outcome, run colouredLine arguments tree = .ok outcome ∧ outcome.exit ≤ 2 := by
  cases hload : loadSettings o tree with
  | error e =>
    obtain ⟨path, hconfig, hne, hpath⟩ := config_of_loadSettings hload
    have hanswers : Settings.Answers (Settings.load tree (.ofString path)) :=
      (Settings.load_answers_iff tree _).mpr (not_not.mp fun hread => h (.settings hconfig hne hread))
    rw [hpath] at hanswers
    exact run_of_reported haccepted hload hanswers
  | ok settings =>
    cases hlevel : Log.levelOf? (chosenLevel o settings) with
    | none => exact absurd (.level hload hlevel) h
    | some level =>
      have hprepared : Prepared arguments tree o settings level := ⟨haccepted, hload, hlevel⟩
      obtain ⟨⟨shown, well⟩, hshown⟩ := runFiles_isOk fun name hname =>
        runFile_isOk (one_le_factor_plan o settings) fun hfile => h (.file hload hname hfile)
      refine ⟨shown.outcome well (o.console colouredLine level), ?_, ?_⟩
      · rw [hprepared.run_eq, hshown]
        rfl
      · cases well <;> simp [Display.outcome]

theorem run_isError (haccepted : Options.ofArguments arguments = .ok o) (h : Unreported o tree) :
    ∃ e, run colouredLine arguments tree = .error e := by
  cases h with
  | @settings path ho hne h =>
    rw [← Settings.load_answers_iff, ← loadSettings_of_config ho hne] at h
    cases hload : loadSettings o tree with
    | error e =>
      rw [hload] at h
      exact run_of_unreported haccepted hload h
    | ok settings =>
      rw [hload] at h
      exact absurd trivial h
  | level hs h =>
    simp only [run, haccepted, hs, runWith, h]
    exact ⟨_, rfl⟩
  | @file settings name hs hname h =>
    -- The level may interrupt the run before the file does.
    cases hlevel : Log.levelOf? (chosenLevel o settings) with
    | none =>
      simp only [run, haccepted, hs, runWith, hlevel]
      exact ⟨_, rfl⟩
    | some level =>
      have hprepared : Prepared arguments tree o settings level := ⟨haccepted, hs, hlevel⟩
      obtain ⟨e, he⟩ := runFiles_isError hname (runFile_isError (one_le_factor_plan o settings) h)
      rw [hprepared.run_eq, he]
      exact ⟨e, rfl⟩

/-- **What is reported of bad input.** Settings are read or refused exactly where they are readable, and a
run whose arguments are accepted ends, with 2 at most, exactly where nothing is unreported. -/
theorem bad_input_reported_iff (colouredLine : Log.Record → String) (tree : FileTree) :
    (∀ path, Settings.Answers (Settings.load tree path) ↔ Settings.Readable tree path) ∧
    ∀ arguments o, Options.ofArguments arguments = .ok o →
      ((∃ outcome, run colouredLine arguments tree = .ok outcome ∧ outcome.exit ≤ 2) ↔
        ¬ Unreported o tree) := by
  refine ⟨Settings.load_answers_iff tree, fun arguments o haccepted => ⟨?_, run_isOk haccepted⟩⟩
  rintro ⟨outcome, hrun, -⟩ h
  obtain ⟨e, he⟩ := run_isError haccepted h
  rw [hrun] at he
  cases he

/-- A file with settings and one with a good grammar. -/
def settled (settings : List UInt8) : FileTree :=
  ⟨[(["c.json"], settings), (["g.txt"], "S->a".toUTF8.toList)], [], []⟩

def chosenSettings : Options :=
  ⟨["g.txt"], false, false, .absent, false, .absent, .value "c.json", .absent, false⟩

/-- An object that does not end is refused, and the run ends with it. -/
theorem bad_input_reported_unclosed :
    Options.ofArguments ["--config", "c.json", "g.txt"] = .ok chosenSettings ∧
    (∃ e, Settings.load (settled [0x7B]) (.ofString "c.json") = .error e) ∧
    ∃ outcome, run Log.colouredLine ["--config", "c.json", "g.txt"] (settled [0x7B]) = .ok outcome ∧
      outcome.exit ≤ 2 := by
  have haccepted : Options.ofArguments ["--config", "c.json", "g.txt"] = .ok chosenSettings := by cbv
  have hload : ∃ e, Settings.load (settled [0x7B]) (.ofString "c.json") = .error e ∧
      e.isReported = true := by
    refine ⟨.notJson ⟨"", ["c.json"]⟩ ⟨.memberName, 1, 2, 1⟩, ?_, rfl⟩
    cbv
  obtain ⟨e, hload, hreported⟩ := hload
  obtain ⟨hanswers, hruns⟩ := bad_input_reported_iff Log.colouredLine (settled [0x7B])
  refine ⟨haccepted, ⟨e, hload⟩, (hruns _ _ haccepted).mpr ?_⟩
  -- The level and the files are looked at behind settings that are loaded, and there are none.
  have hnone {settings : Settings} : loadSettings chosenSettings (settled [0x7B]) ≠ .ok settings := by
    intro h
    rw [loadSettings_of_config rfl (by decide), hload] at h
    cases h
  rintro (⟨hconfig, -, h⟩ | ⟨hs, -⟩ | ⟨hs, -, -⟩)
  · cases hconfig
    exact h ((hanswers _).mp (by rw [hload]; exact hreported))
  · exact hnone hs
  · exact hnone hs

/-- **A byte that begins no character.** Settings that are no text are not refused as settings are: they
interrupt the run. -/
theorem bad_input_unreported :
    ¬ Settings.Answers (Settings.load (settled [0xFF]) (.ofString "c.json")) ∧
    run Log.colouredLine ["--config", "c.json", "g.txt"] (settled [0xFF]) =
      .error (.reading (.undecodable ⟨.badLead, 0, 1, 0xFF⟩)) := by
  have hload : Settings.load (settled [0xFF]) (.ofString "c.json") =
      .error (.noText (.undecodable ⟨.badLead, 0, 1, 0xFF⟩)) := by cbv
  refine ⟨?_, by cbv⟩
  rw [hload]
  exact Bool.false_ne_true

end CommandLine

end ContextFree
