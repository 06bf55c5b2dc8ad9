import Mathlib
import ContextFree.Log.Colour
import ContextFree.Proofs.Prepared

/-!
The files of a run have nothing to do with each other. Options leave the files behind them alone, so what
is read of the arguments differs with the files in nothing but the files (`ofArguments_files`); what is
shown of a file depends on the options and on its text (`runFiles_withFiles`); and what is shown of several
files is what is shown of each, in order (`runFiles_joined`).
-/
namespace ContextFree.CommandLine

variable {options files : List String} {classified : List Argument} {tree : FileTree}

/-! ## Arguments -/

/-- Options with the values that they take; a double dash may stand behind them. -/
inductive OptionsOnly : List Argument → Prop
  | nil : OptionsOnly []
  | divider : OptionsOnly [.divider]
  | attached {o : Opt} {value : String} {rest : List Argument} (h : OptionsOnly rest) :
      OptionsOnly (.option o (some value) :: rest)
  | flag {o : Opt} {rest : List Argument} (ho : o.takesValue = false) (h : OptionsOnly rest) :
      OptionsOnly (.option o none :: rest)
  | followed {o : Opt} {value : String} {rest : List Argument} (ho : o.takesValue = true)
      (h : OptionsOnly rest) : OptionsOnly (.option o none :: .plain value :: rest)

/-- No option is left without its value, and no argument is without an option. -/
def SelfContained (options : List String) : Prop :=
  ∃ classified, Argument.ofTexts options = .ok classified ∧ OptionsOnly classified

/-- Behind these options, `file` is not taken for one. -/
def PlainBehind (options : List String) (file : String) : Prop :=
  ∃ classified, Argument.ofTexts options = .ok classified ∧
    Argument.ofTexts (options ++ [file]) = .ok (classified ++ [.plain file])

theorem ofTexts_cons_eq_ok {text : String} (ht : text ≠ "--") :
    Argument.ofTexts (text :: options) = .ok classified ↔ ∃ first rest,
      Argument.ofText text = .ok first ∧ Argument.ofTexts options = .ok rest ∧
        classified = first :: rest := by
  rw [Argument.ofTexts, if_neg ht]
  constructor
  · intro h
    cases hfirst : Argument.ofText text with
    | error e => rw [hfirst] at h; cases h
    | ok first =>
      cases hrest : Argument.ofTexts options with
      | error e => rw [hfirst, hrest] at h; cases h
      | ok rest =>
        rw [hfirst, hrest] at h
        cases h
        exact ⟨first, rest, rfl, rfl, rfl⟩
  · rintro ⟨first, rest, hfirst, hrest, rfl⟩
    rw [hfirst, hrest]
    rfl

/-- Behind a double dash everything is plain. -/
theorem ofTexts_append_of_mem (hd : "--" ∈ options) (texts : List String)
    (h : Argument.ofTexts options = .ok classified) :
    Argument.ofTexts (options ++ texts) = .ok (classified ++ texts.map .plain) := by
  induction options generalizing classified with
  | nil => cases hd
  | cons text options ih =>
    by_cases ht : text = "--"
    · subst ht
      rw [Argument.ofTexts, if_pos rfl] at h
      cases h
      simp [Argument.ofTexts]
    · obtain ⟨first, rest, hfirst, hrest, rfl⟩ := (ofTexts_cons_eq_ok ht).mp h
      have hlater : "--" ∈ options := (List.mem_cons.mp hd).resolve_left (Ne.symm ht)
      exact (ofTexts_cons_eq_ok ht).mpr ⟨first, _, hfirst, ih hlater hrest, rfl⟩

theorem ofTexts_append_of_notMem (hd : "--" ∉ options) {texts : List String} {later : List Argument}
    (h : Argument.ofTexts options = .ok classified) :
    Argument.ofTexts (options ++ texts) = .ok (classified ++ later) ↔
      Argument.ofTexts texts = .ok later := by
  induction options generalizing classified with
  | nil =>
    cases h
    rfl
  | cons text options ih =>
    simp only [List.mem_cons, not_or] at hd
    obtain ⟨ht, hd⟩ := hd
    obtain ⟨first, rest, hfirst, hrest, rfl⟩ := (ofTexts_cons_eq_ok (Ne.symm ht)).mp h
    rw [List.cons_append, ofTexts_cons_eq_ok (Ne.symm ht)]
    constructor
    · rintro ⟨_, _, -, hjoint, heq⟩
      cases heq
      exact (ih hd hrest).mp hjoint
    · intro hlater
      exact ⟨first, _, hfirst, (ih hd hrest).mpr hlater, rfl⟩

/-- What is plain alone is plain among others of the kind. -/
theorem ofTexts_plain (h : ∀ f ∈ files, Argument.ofTexts [f] = .ok [.plain f]) :
    Argument.ofTexts files = .ok (files.map .plain) := by
  induction files with
  | nil => rfl
  | cons f files ih =>
    obtain ⟨hf, hfiles⟩ := List.forall_mem_cons.mp h
    have hd : "--" ∉ [f] := by
      intro hd
      cases List.mem_singleton.mp hd
      cases hf
    exact (ofTexts_append_of_notMem hd hf).mpr (ih hfiles)

theorem ofTexts_files (h : Argument.ofTexts options = .ok classified)
    (hplain : ∀ f ∈ files, PlainBehind options f) :
    Argument.ofTexts (options ++ files) = .ok (classified ++ files.map .plain) := by
  by_cases hd : "--" ∈ options
  · exact ofTexts_append_of_mem hd files h
  · apply (ofTexts_append_of_notMem hd h).mpr
    apply ofTexts_plain
    intro f hf
    obtain ⟨before, hbefore, hjoint⟩ := hplain f hf
    exact (ofTexts_append_of_notMem hd hbefore).mp hjoint

/-! ## Reading -/

/-- The same options for other files. -/
def Options.withFiles (o : Options) (files : List String) : Options := { o with files := files }

variable {r : Reading} {o : Opt} {value : String} {rest : List Argument}

theorem readAll_attached : r.readAll (.option o (some value) :: rest) =
    r.options.setValue o value >>= fun options => Reading.readAll { r with options := options } rest := by
  rw [Reading.readAll]
  cases r.options.setValue o value <;> rfl

theorem readAll_flag (ho : o.takesValue = false) : r.readAll (.option o none :: rest) =
    r.options.setFlag o >>= fun options => Reading.readAll { r with options := options } rest := by
  rw [Reading.readAll.eq_def]
  simp only [ho, Bool.false_eq_true, if_false]
  cases r.options.setFlag o <;> rfl

theorem readAll_followed (ho : o.takesValue = true) :
    r.readAll (.option o none :: .plain value :: rest) =
      r.options.setValue o value >>= fun options =>
        Reading.readAll { r with options := options } rest := by
  rw [Reading.readAll.eq_def]
  simp only [ho, if_true]
  cases r.options.setValue o value <;> rfl

/-- Plain arguments up to the end are one run. -/
theorem readAll_run {first : Argument} (hfirst : first = .divider ∨ ∃ f, first = .plain f)
    (hrest : ∃ files : List String, rest = files.map .plain) :
    r.readAll (first :: rest) = .ok (r.takeRun (first :: rest)) := by
  obtain ⟨files, rfl⟩ := hrest
  have hplain : ∀ a ∈ files.map Argument.plain, a.isPlain = true := by
    intro a ha
    obtain ⟨f, -, rfl⟩ := List.mem_map.mp ha
    rfl
  have htake := List.takeWhile_eq_self_iff.mpr hplain
  have hdrop := List.dropWhile_eq_nil_iff.mpr hplain
  obtain rfl | ⟨f, rfl⟩ := hfirst <;>
    rw [Reading.readAll.eq_def] <;> simp only [htake, hdrop, Reading.readAll]

theorem readAll_plain (hr : r.filesMet = false) (hfiles : files ≠ []) :
    r.readAll (files.map .plain) = .ok ⟨r.options.withFiles files, r.extras, true⟩ := by
  match files, hfiles with
  | f :: files, _ =>
    rw [List.map_cons, readAll_run (.inr ⟨f, rfl⟩) ⟨files, rfl⟩]
    simp [Reading.takeRun, hr, Options.withFiles]

theorem readAll_divider (hr : r.filesMet = false) (hfiles : files ≠ []) :
    r.readAll (.divider :: files.map .plain) = .ok ⟨r.options.withFiles files, r.extras, true⟩ := by
  rw [readAll_run (.inl rfl) ⟨files, rfl⟩]
  simp [Reading.takeRun, hr, hfiles, Options.withFiles]

/-- Once the options are read, all that is plain is a file. -/
theorem OptionsOnly.readAll (h : OptionsOnly classified) {r : Reading} (hr : r.filesMet = false) :
    ∃ read : Except Ending Options, ∀ files : List String, files ≠ [] →
      r.readAll (classified ++ files.map .plain) =
        read.map fun o => ⟨o.withFiles files, r.extras, true⟩ := by
  -- Each option changes what has been read so far, so the reading is general; that no file has been met
  -- stays true of it.
  induction h generalizing r with
  | nil => exact ⟨.ok r.options, fun files hfiles => readAll_plain hr hfiles⟩
  | divider => exact ⟨.ok r.options, fun files hfiles => readAll_divider hr hfiles⟩
  | @attached o value rest _ ih =>
    simp only [List.cons_append, readAll_attached]
    cases r.options.setValue o value with
    | error e => exact ⟨.error e, fun _ _ => rfl⟩
    | ok options => exact ih (r := { r with options := options }) hr
  | @flag o rest ho _ ih =>
    simp only [List.cons_append, readAll_flag ho]
    cases r.options.setFlag o with
    | error e => exact ⟨.error e, fun _ _ => rfl⟩
    | ok options => exact ih (r := { r with options := options }) hr
  | @followed o value rest ho _ ih =>
    simp only [List.cons_append, readAll_followed ho]
    cases r.options.setValue o value with
    | error e => exact ⟨.error e, fun _ _ => rfl⟩
    | ok options => exact ih (r := { r with options := options }) hr

/-- With other files behind them, options are read as the same options. -/
theorem ofArguments_files (hoptions : SelfContained options) :
    ∃ read : Except Ending Options, ∀ files : List String, files ≠ [] →
      (∀ f ∈ files, PlainBehind options f) →
        Options.ofArguments (options ++ files) = read.map (·.withFiles files) := by
  obtain ⟨classified, hclassified, honly⟩ := hoptions
  obtain ⟨read, hread⟩ := honly.readAll (r := ⟨.none, [], false⟩) rfl
  refine ⟨read, fun files hfiles hplain => ?_⟩
  rw [Options.ofArguments, ofTexts_files hclassified hplain]
  simp only [hread files hfiles]
  cases read <;> simp [Except.map]

/-! ## Showing -/

/-- The outcome of runs one after the other. It is 0 if each of them is. -/
def Outcome.joined (outcomes : List Outcome) : Outcome where
  exit := if outcomes.any (·.exit == 1) then 1 else 0
  output := String.join (outcomes.map Outcome.output)
  errors := String.join (outcomes.map Outcome.errors)

variable {plan : Plan} {console : Log.Console} {colouredLine : Log.Record → String}
  {single : String → Outcome} {settings : Settings} {chosen : Options} {level : Int}
  {outcome : Outcome} {arguments : List String}

theorem outcome_append (a b : Display) (well well' : Bool) (console : Log.Console) :
    (a ++ b).outcome (well && well') console =
      ⟨if well then (b.outcome well' console).exit else 1,
        (a.outcome well console).output ++ (b.outcome well' console).output,
        (a.outcome well console).errors ++ (b.outcome well' console).errors⟩ := by
  have herrors : (a ++ b).errors = a.errors ++ b.errors := rfl
  cases well <;> simp [Display.outcome, herrors] <;> rfl

theorem joined_cons (outcome : Outcome) (later : List Outcome) : .joined (outcome :: later) =
    (⟨if outcome.exit = 1 then 1 else (Outcome.joined later).exit,
      outcome.output ++ (Outcome.joined later).output,
      outcome.errors ++ (Outcome.joined later).errors⟩ : Outcome) := by
  by_cases h : outcome.exit = 1 <;> simp [Outcome.joined, h]

/-- What is shown of several files is what is shown of each, in order. -/
theorem runFiles_joined (hsingle : ∀ f ∈ files, ∃ shown well,
      runFile plan tree (.ofString f) = .ok (shown, well) ∧
        Display.outcome shown well console = single f) :
    ∃ shown well, runFiles plan tree files = .ok (shown, well) ∧
      Display.outcome shown well console = .joined (files.map single) := by
  induction files with
  | nil => exact ⟨.nothing, true, rfl, rfl⟩
  | cons f files ih =>
    obtain ⟨⟨shown, well, hfirst, hshown⟩, hlater⟩ := List.forall_mem_cons.mp hsingle
    obtain ⟨others, othersWell, hothers, hjoined⟩ := ih hlater
    refine ⟨shown ++ others, well && othersWell, ?_, ?_⟩
    · rw [runFiles, hfirst, hothers]
      rfl
    · rw [outcome_append, hjoined, List.map_cons, joined_cons, ← hshown]
      cases well <;> simp [Display.outcome]

/-- What is shown of files does not depend on which ones the options name. -/
theorem runFiles_withFiles (o : Options) (files : List String) (settings : Settings)
    (tree : FileTree) (names : List String) :
    runFiles ((o.withFiles files).plan settings) tree names =
      runFiles (o.plan settings) tree names := by
  induction names with
  | nil => rfl
  | cons name names ih =>
    rw [runFiles, runFiles, ih]
    rfl

/-! ## Runs -/

/-- A run that ends otherwise than with 2 has come to its files. -/
theorem prepared_of_run (h : run colouredLine arguments tree = .ok outcome)
    (hne : outcome.exit ≠ 2) :
    ∃ chosen settings level, Prepared arguments tree chosen settings level := by
  unfold run at h
  cases hchosen : Options.ofArguments arguments with
  | error e => cases e <;> simp [hchosen] at h
  | ok chosen =>
    cases hsettings : loadSettings chosen tree with
    | error e =>
      rw [hchosen] at h
      simp only [hsettings] at h
      cases e <;> cases h <;> exact absurd rfl hne
    | ok settings =>
      cases hlevel : Log.levelOf? (chosenLevel chosen settings) with
      | none =>
        simp only [hchosen, hsettings, runWith, hlevel] at h
        cases h
      | some level => exact ⟨chosen, settings, level, hchosen, hsettings, hlevel⟩

/-- Other files change nothing about what comes before them. -/
theorem Prepared.withFiles (h : Prepared arguments tree (chosen.withFiles files) settings level)
    {arguments' files' : List String}
    (haccepted : Options.ofArguments arguments' = .ok (chosen.withFiles files')) :
    Prepared arguments' tree (chosen.withFiles files') settings level :=
  ⟨haccepted, h.loaded, h.levelled⟩

/-- A run with one file shows what is shown of it. -/
theorem Prepared.run_eq_ok_iff {f : String}
    (h : Prepared arguments tree (chosen.withFiles [f]) settings level) :
    run colouredLine arguments tree = .ok outcome ↔ ∃ shown well,
      runFile (chosen.plan settings) tree (.ofString f) = .ok (shown, well) ∧
        Display.outcome shown well (chosen.console colouredLine level) = outcome := by
  rw [h.run_eq, runFiles_withFiles, Options.withFiles, runFiles_singleton]
  constructor
  · intro hrun
    cases hfile : runFile (chosen.plan settings) tree (.ofString f) with
    | error e =>
      rw [hfile] at hrun
      cases hrun
    | ok result =>
      rw [hfile] at hrun
      exact ⟨result.1, result.2, rfl, Except.ok.inj hrun⟩
  · rintro ⟨shown, well, hfile, rfl⟩
    rw [hfile]
    rfl

/-- **Files do not influence each other.** Where each file behind the same options can be run alone, a run
over all of them shows what these runs show, in order; it ends with 0 if each of them does and otherwise
with 1. A run that ends with 2 has not come to its file, for want of settings. -/
theorem run_files_apart (hoptions : SelfContained options) (hfiles : files ≠ [])
    (hplain : ∀ f ∈ files, PlainBehind options f)
    (hsingle : ∀ f ∈ files,
      run colouredLine (options ++ [f]) tree = .ok (single f) ∧ (single f).exit ≠ 2) :
    run colouredLine (options ++ files) tree = .ok (.joined (files.map single)) := by
  obtain ⟨read, hread⟩ := ofArguments_files hoptions
  have hone {f : String} (hf : f ∈ files) :
      Options.ofArguments (options ++ [f]) = read.map (·.withFiles [f]) :=
    hread [f] (List.cons_ne_nil f []) (by simpa using hplain f hf)
  -- The settings and the level are those of any one file's run.
  obtain ⟨f₀, hf₀⟩ := List.exists_mem_of_ne_nil files hfiles
  obtain ⟨chosen₀, settings, level, hfirst⟩ := prepared_of_run (hsingle f₀ hf₀).1 (hsingle f₀ hf₀).2
  cases read with
  | error e => cases (hone hf₀).symm.trans hfirst.accepted
  | ok chosen =>
    obtain rfl : chosen.withFiles [f₀] = chosen₀ :=
      Except.ok.inj ((hone hf₀).symm.trans hfirst.accepted)
    have hshown : ∀ f ∈ files, ∃ shown well,
        runFile (chosen.plan settings) tree (.ofString f) = .ok (shown, well) ∧
          Display.outcome shown well (chosen.console colouredLine level) = single f := by
      intro f hf
      exact (hfirst.withFiles (hone hf)).run_eq_ok_iff.mp (hsingle f hf).1
    obtain ⟨shown, well, hrun, hjoined⟩ := runFiles_joined hshown
    have hall := hfirst.withFiles (hread files hfiles hplain)
    rw [hall.run_eq, runFiles_withFiles]
    change (runFiles (chosen.plan settings) tree files).map _ = _
    rw [hrun, ← hjoined]
    rfl

/-- A directory with one grammar, `S → a`. -/
def lonely : FileTree := ⟨[(["good.txt"], "S->a".toUTF8.toList)], [], []⟩

/-- The start symbol given, no steps shown. -/
def plainly : Options := ⟨[], true, false, .value "S", false, .absent, .absent, .absent, false⟩

theorem prepared_lonely {f : String}
    (h : Options.ofArguments ["--start", "S", "--no-steps", f] = .ok (plainly.withFiles [f])) :
    Prepared ["--start", "S", "--no-steps", f] lonely (plainly.withFiles [f]) .default Log.warning :=
  ⟨h, rfl, by cbv⟩

theorem run_good : ∃ good : Outcome, good.exit = 0 ∧
    run Log.colouredLine ["--start", "S", "--no-steps", "good.txt"] lonely = .ok good := by
  have hprepared := prepared_lonely (f := "good.txt") (by cbv)
  have htext : lonely.text (.ofString "good.txt") = .ok "S->a" := by cbv
  have hparsed : parsed plainly "S->a" =
      .ok (.ok ⟨["S"], ["a"], .ofList [("S", .ofList [["a"]])], "S"⟩) := by cbv
  obtain ⟨shown, hshown⟩ :
      ∃ shown, runFile (plainly.plan .default) lonely (.ofString "good.txt") = .ok (shown, true) :=
    runFile_well htext hparsed (one_le_factor_plan plainly .default) (by decide)
  exact ⟨_, rfl, hprepared.run_eq_ok_iff.mpr ⟨shown, true, hshown, rfl⟩⟩

theorem run_missing : ∃ bad : Outcome, bad.exit = 1 ∧
    run Log.colouredLine ["--start", "S", "--no-steps", "missing.txt"] lonely = .ok bad := by
  have hprepared := prepared_lonely (f := "missing.txt") (by cbv)
  have htext : lonely.text (.ofString "missing.txt") =
      .error (.file .notFound ⟨"", ["missing.txt"]⟩) := by cbv
  obtain ⟨shown, hshown⟩ :
      ∃ shown, runFile (plainly.plan .default) lonely (.ofString "missing.txt") = .ok (shown, false) :=
    runFile_unreadable htext (by decide)
  exact ⟨_, rfl, hprepared.run_eq_ok_iff.mpr ⟨shown, false, hshown, rfl⟩⟩

theorem run_files_apart_mixed : ∃ good bad : Outcome, good.exit = 0 ∧ bad.exit = 1 ∧
    run Log.colouredLine ["--start", "S", "--no-steps", "good.txt"] lonely = .ok good ∧
    run Log.colouredLine ["--start", "S", "--no-steps", "missing.txt"] lonely = .ok bad ∧
    run Log.colouredLine ["--start", "S", "--no-steps", "good.txt", "missing.txt", "good.txt"] lonely =
      .ok (.joined [good, bad, good]) := by
  obtain ⟨good, hgood, hrunGood⟩ := run_good
  obtain ⟨bad, hbad, hrunBad⟩ := run_missing
  have hoptions : Argument.ofTexts ["--start", "S", "--no-steps"] =
      .ok [.option .start none, .plain "S", .option .noSteps none] := by cbv
  have hcontained : SelfContained ["--start", "S", "--no-steps"] :=
    ⟨_, hoptions, .followed rfl (.flag rfl .nil)⟩
  have hplain : ∀ f ∈ ["good.txt", "missing.txt", "good.txt"],
      PlainBehind ["--start", "S", "--no-steps"] f := by
    have hgood : PlainBehind ["--start", "S", "--no-steps"] "good.txt" := ⟨_, hoptions, by cbv⟩
    have hbad : PlainBehind ["--start", "S", "--no-steps"] "missing.txt" := ⟨_, hoptions, by cbv⟩
    simpa using ⟨hgood, hbad, hgood⟩
  let single (f : String) : Outcome := if f = "good.txt" then good else bad
  have hsingle : ∀ f ∈ ["good.txt", "missing.txt", "good.txt"],
      run Log.colouredLine (["--start", "S", "--no-steps"] ++ [f]) lonely = .ok (single f) ∧
        (single f).exit ≠ 2 := by
    simp [single, hrunGood, hrunBad, hgood, hbad]
  have hall := run_files_apart hcontained (List.cons_ne_nil _ _) hplain hsingle
  exact ⟨good, bad, hgood, hbad, hrunGood, hrunBad, hall⟩

end ContextFree.CommandLine
