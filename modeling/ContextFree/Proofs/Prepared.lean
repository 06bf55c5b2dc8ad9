import ContextFree.CommandLine.Run
import ContextFree.Proofs.Conversion
import ContextFree.Proofs.Create
import ContextFree.Proofs.Words

/-!
How far a run comes. The arguments, the settings and the log level are looked at once, and a run for which
they are in order (`Prepared`) goes on to its files. A grammar that is read from a file is valid, so it is
converted and its words are listed (`runGrammar_isOk`).
-/
namespace ContextFree

variable {g : Grammar} {text : String}

/-- A grammar that a text describes has been created, and is valid as such. -/
theorem Listing.valid_of_toGrammar {l : Listing} {start : Option Symbol}
    (h : l.toGrammar start = .ok g) : g.Valid := by
  have hcreate {nts ts given s} (h : Grammar.create nts ts given s = .ok g) : g.Valid :=
    (Grammar.createdFrom_of_create h).valid
  unfold toGrammar at h
  simp only [bind, Except.bind] at h
  split at h
  · cases h
  · split at h
    · split at h
      · cases h
      · split at h
        · cases h
        · exact hcreate h
    · split at h
      · cases h
      · exact hcreate h

theorem Grammar.valid_of_parse {start : Option Symbol} (h : Grammar.parse text start = .ok g) :
    g.Valid := by
  unfold parse at h
  cases hread : Listing.read text with
  | error e => rw [hread] at h; cases h
  | ok l =>
    rw [hread] at h
    exact l.valid_of_toGrammar h

/-- The words of a valid grammar are always listed. -/
theorem Grammar.wordsUpTo_isOk (hg : g.Valid) (n : Nat) : ∃ words, g.wordsUpTo n = .ok words := by
  obtain ⟨t, hclose, hbegun, -⟩ := (g.begun_noWords n).close hg
  obtain ⟨words, hwords⟩ := hbegun.lists g.start hg.start_mem
  have hpos : ¬ (n : Int) < 0 := by omega
  exact ⟨words, by simp only [wordsUpTo, if_neg hpos, Int.toNat_natCast, hclose, hwords]⟩

theorem Settings.one_le_factorValue (s : Settings) : 1 ≤ s.factorValue := by
  obtain ⟨n, hn⟩ := Option.isSome_iff_exists.mp s.factor_positive
  rw [factorValue, hn, Option.getD_some]
  unfold Json.positive? at hn
  split at hn
  · split at hn
    · rename_i hpos
      exact Option.some.inj hn ▸ hpos
    · cases hn
  · cases hn
    decide
  · cases hn

namespace CommandLine

/-- The settings of a run that the options and the loaded settings make. -/
def Options.plan (o : Options) (settings : Settings) : Plan where
  options := o
  verbose := settings.verbose.truthy && !o.noSteps
  policy := { settings.policy with
    keepStartEpsilon := settings.policy.keepStartEpsilon || o.keepStartEpsilon }

def Options.console (o : Options) (colouredLine : Log.Record → String) (level : Int) : Log.Console :=
  .setUp colouredLine level (!o.noColour) false

/-- What has been shown, as it is written to a console. -/
def Display.outcome (shown : Display) (well : Bool) (console : Log.Console) : Outcome :=
  ⟨if well then 0 else 1, shown.output, String.join (shown.errors.map (·.written console))⟩

/-- The arguments are in order, and so are the settings and the log level that they name. -/
structure Prepared (arguments : List String) (tree : FileTree) (chosen : Options)
    (settings : Settings) (level : Int) : Prop where
  accepted : Options.ofArguments arguments = .ok chosen
  loaded : loadSettings chosen tree = .ok settings
  levelled : Log.levelOf? (chosenLevel chosen settings) = some level

variable {arguments : List String} {tree : FileTree} {chosen : Options} {settings : Settings}
  {level : Int} {plan : Plan} {path : FilePath}

theorem Prepared.run_eq (h : Prepared arguments tree chosen settings level)
    (colouredLine : Log.Record → String) :
    run colouredLine arguments tree =
      (runFiles (chosen.plan settings) tree chosen.files).map fun (shown, well) =>
        shown.outcome well (chosen.console colouredLine level) := by
  simp only [run, h.accepted, h.loaded, runWith, h.levelled]
  change (runFiles (chosen.plan settings) tree chosen.files >>= _) = _
  cases runFiles (chosen.plan settings) tree chosen.files <;> rfl

theorem one_le_factor_plan (chosen : Options) (settings : Settings) :
    1 ≤ (chosen.plan settings).policy.factor :=
  settings.one_le_factorValue

/-! ## One file -/

theorem append_nothing (shown : Display) : shown ++ Display.nothing = shown := by
  change (⟨shown.output ++ "", shown.errors ++ []⟩ : Display) = shown
  rw [String.append_empty, List.append_nil]

theorem runFiles_singleton (plan : Plan) (tree : FileTree) (f : String) :
    runFiles plan tree [f] = runFile plan tree (.ofString f) := by
  rw [runFiles]
  cases runFile plan tree (.ofString f) with
  | error e => rfl
  | ok result =>
    change Except.ok (result.1 ++ Display.nothing, result.2 && true) = _
    rw [append_nothing, Bool.and_true]

theorem valid_of_parsed {o : Options} (h : parsed o text = .ok (.ok g)) : g.Valid := by
  unfold parsed at h
  split at h
  · exact Grammar.valid_of_parse (Except.ok.inj h)
  · exact Grammar.valid_of_parse (Except.ok.inj h)
  · split at h
    · cases h
    · exact Grammar.valid_of_parse (Except.ok.inj h)

theorem sample_isOk (hg : g.Valid) (heading : String) (bound : Nat) :
    ∃ shown, sample heading g bound = .ok shown := by
  obtain ⟨words, hwords⟩ := Grammar.wordsUpTo_isOk hg bound
  rw [sample, hwords]
  exact ⟨_, rfl⟩

/-- A valid grammar is converted, and its words are listed unless their length has no value. -/
theorem runGrammar_isOk (hg : g.Valid) (hf : 1 ≤ plan.policy.factor)
    (hs : plan.options.sample ≠ .withoutValue) (path : FilePath) :
    ∃ shown, runGrammar plan path g = .ok (shown, none) := by
  obtain ⟨c, hc, hspec⟩ := Grammar.convert_spec hg hf
  unfold runGrammar
  simp only [hc]
  cases hsample : plan.options.sample with
  | absent => exact ⟨_, rfl⟩
  | withoutValue => exact absurd hsample hs
  | value bound =>
    obtain ⟨ofSource, hsource⟩ := sample_isOk hg "Original grammar" bound
    obtain ⟨ofResult, hresult⟩ := sample_isOk hspec.valid "CNF grammar" bound
    simp only [hsource, hresult]
    exact ⟨_, rfl⟩

theorem runGrammar_withoutValue (hg : g.Valid) (hf : 1 ≤ plan.policy.factor)
    (hs : plan.options.sample = .withoutValue) (path : FilePath) :
    runGrammar plan path g = .error .sampleWithoutValue := by
  obtain ⟨c, hc, -⟩ := Grammar.convert_spec hg hf
  unfold runGrammar
  simp only [hc, hs]
  rfl

/-- A file that cannot be read as text is reported. -/
theorem runFile_unreadable {e : ReadError} (htext : tree.text path = .error e)
    (he : e ≠ .nullInPath) : ∃ shown, runFile plan tree path = .ok (shown, false) := by
  simp only [runFile, htext]
  cases e with
  | nullInPath => exact absurd rfl he
  | file fault path => exact ⟨_, rfl⟩
  | undecodable fault => exact ⟨_, rfl⟩
  | unknownHome => exact ⟨_, rfl⟩

/-- A text that describes a grammar goes well. -/
theorem runFile_well (htext : tree.text path = .ok text)
    (hparsed : parsed plan.options text = .ok (.ok g)) (hf : 1 ≤ plan.policy.factor)
    (hs : plan.options.sample ≠ .withoutValue) :
    ∃ shown, runFile plan tree path = .ok (shown, true) := by
  obtain ⟨shown, hshown⟩ := runGrammar_isOk (valid_of_parsed hparsed) hf hs path
  refine ⟨shown, ?_⟩
  simp only [runFile, htext, hparsed, bind, Except.bind, hshown]
  rfl

end CommandLine

end ContextFree
