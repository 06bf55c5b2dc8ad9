import ContextFree.Proofs.Acceptance
import ContextFree.Proofs.GroupedRules

/-!
A body as it is written in a rule line and the same text as a body by hand. Both are a spelling of ε, words,
or a text to be split, and with declared terminals both split alike. They differ in what sets words apart: any
blank in a body by hand, a space or a tab in a rule line. So they agree on every text but those whose blanks
are all of other kinds (`readBody_alike_iff`).
-/
namespace ContextFree

open Text

variable {symbols : List Symbol} {cs : List Char} {l : Listing} {line : Nat} {written : String}

/-- The same body, or refused by both as malformed. -/
inductive SameAnswer : Except GrammarError Body → Except GrammarError Body → Prop
  | body (b : Body) : SameAnswer (.ok b) (.ok b)
  | refused (cause cause' : Malformed) :
      SameAnswer (.error (.malformed cause)) (.error (.malformed cause'))

/-- Words are set apart, but by no space and no tab. -/
structure OddlySpaced (cs : List Char) : Prop where
  blank : ∃ c ∈ cs, isBlank c = true
  noSpace : ' ' ∉ cs
  noTab : '\t' ∉ cs

/-- Words that are put together again hold no blank. -/
theorem not_splitsAs_words (blank : ∃ c ∈ cs, isBlank c = true) :
    ¬ SplitsAs symbols cs ((words cs).map String.ofList) := by
  intro hsplits
  obtain ⟨c, hc, hblank⟩ := blank
  rw [← (splitsAs_iff.mp hsplits).1, List.mem_flatMap] at hc
  obtain ⟨s, hs, hc⟩ := hc
  obtain ⟨w, hw, rfl⟩ := List.mem_map.mp hs
  rw [String.toList_ofList] at hc
  rw [not_isBlank_of_mem_words hw c hc] at hblank
  cases hblank

namespace Listing

theorem readBody_of_spelling (hε : written ∈ emptySpellings) : l.readBody line written = .ok [] :=
  if_pos hε

theorem readBody_of_separator (hε : written ∉ emptySpellings)
    (hsep : ' ' ∈ written.toList ∨ '\t' ∈ written.toList) :
    l.readBody line written = .ok ((words written.toList).map String.ofList) := by
  have hcontains : (written.contains ' ' || written.contains '\t') = true := by
    simpa [String.contains_char_eq] using hsep
  rw [readBody, if_neg hε, if_pos hcontains]

/-- Text without separators is split, and refused where it has no split. -/
theorem readBody_of_joined (line : Nat) (hdeclared : l.terminals.isSome = true) (hε : written ∉ emptySpellings)
    (hspace : ' ' ∉ written.toList) (htab : '\t' ∉ written.toList) :
    (∃ b, Preferred l.knownSymbols written.toList b ∧ l.readBody line written = .ok b) ∨
    (¬ ∃ b, SplitsAs l.knownSymbols written.toList b) ∧
      l.readBody line written = .error (.malformed (.unsplittableOnLine line written)) := by
  have hcontains : ¬ (written.contains ' ' || written.contains '\t') = true := by
    simp [String.contains_char_eq, hspace, htab]
  have hnone : l.terminals.isNone = false := by simpa using hdeclared
  rw [readBody, if_neg hε, if_neg hcontains, hnone]
  cases hsplit : split? l.knownSymbols false written.toList with
  | none => exact .inr ⟨split?_eq_none_iff.mp hsplit, rfl⟩
  | some b => exact .inl ⟨b, split?_eq_some_iff.mp hsplit, rfl⟩

end Listing

namespace GivenBody

theorem isEmptyForm_iff (htrim : Trimmed written.toList) :
    (GivenBody.text written).IsEmptyForm ↔ written ∈ emptySpellings := by
  rw [IsEmptyForm, strip_of_trimmed htrim, String.ofList_toList]
  exact or_iff_right htrim.ne_nil

/-- Text without blanks is split, and refused where it has no split. -/
theorem toBody_of_joined (symbols : List Symbol) (htrim : Trimmed written.toList) (hε : written ∉ emptySpellings)
    (hvisible : ∀ c ∈ written.toList, isBlank c = false) :
    (∃ b, Preferred symbols written.toList b ∧ (GivenBody.text written).toBody symbols = .ok b) ∨
    (¬ ∃ b, SplitsAs symbols written.toList b) ∧
      (GivenBody.text written).toBody symbols = .error (.malformed (.unsplittable written)) := by
  have hstrip := strip_of_trimmed htrim
  have hform : ¬ (GivenBody.text written).IsEmptyForm := by rwa [isEmptyForm_iff htrim]
  rw [toBody_joined hform (by rwa [hstrip]), hstrip, String.ofList_toList]
  cases hbody : splitBody symbols false written with
  | ok b =>
    rw [splitBody_eq_ok_iff, split?_eq_some_iff] at hbody
    exact .inl ⟨b, hbody, rfl⟩
  | error e =>
    rw [splitBody_eq_error_iff, split?_eq_none_iff] at hbody
    obtain ⟨rfl, hnone⟩ := hbody
    exact .inr ⟨hnone, rfl⟩

theorem toBody_of_blank (htrim : Trimmed written.toList) (blank : ∃ c ∈ written.toList, isBlank c = true) :
    (GivenBody.text written).toBody symbols = .ok ((words written.toList).map String.ofList) := by
  have hstrip := strip_of_trimmed htrim
  rw [toBody_separated (by rwa [hstrip]), hstrip]

end GivenBody

namespace Listing

/-- A text whose blanks, if there are any, are not all odd, is read alike. -/
theorem sameAnswer_readBody (hdeclared : l.terminals.isSome = true) (htrim : Trimmed written.toList)
    (hodd : ¬ OddlySpaced written.toList) :
    SameAnswer (l.readBody line written) ((GivenBody.text written).toBody l.knownSymbols) := by
  by_cases hε : written ∈ emptySpellings
  · rw [readBody_of_spelling hε,
      GivenBody.toBody_of_isEmptyForm ((GivenBody.isEmptyForm_iff htrim).mpr hε)]
    exact .body []
  by_cases hsep : ' ' ∈ written.toList ∨ '\t' ∈ written.toList
  · have hblank : ∃ c ∈ written.toList, isBlank c = true :=
      hsep.elim (fun h => ⟨' ', h, rfl⟩) (fun h => ⟨'\t', h, rfl⟩)
    rw [readBody_of_separator hε hsep, GivenBody.toBody_of_blank htrim hblank]
    exact .body _
  · obtain ⟨hspace, htab⟩ := not_or.mp hsep
    have hvisible : ∀ c ∈ written.toList, isBlank c = false := by
      intro c hc
      rw [Bool.eq_false_iff]
      exact fun hblank => hodd ⟨⟨c, hc, hblank⟩, hspace, htab⟩
    obtain ⟨b, hb, hread⟩ | ⟨hnone, hread⟩ := readBody_of_joined line hdeclared hε hspace htab <;>
      obtain ⟨b', hb', hgiven⟩ | ⟨hnone', hgiven⟩ :=
        GivenBody.toBody_of_joined l.knownSymbols htrim hε hvisible
    · rw [hread, hgiven, hb'.unique hb]
      exact .body _
    · exact absurd ⟨b, hb.splits⟩ hnone'
    · exact absurd ⟨b', hb'.splits⟩ hnone
    · rw [hread, hgiven]
      exact .refused _ _

theorem notMem_emptySpellings (htrim : Trimmed written.toList) (hodd : OddlySpaced written.toList) :
    written ∉ emptySpellings := by
  rw [← GivenBody.isEmptyForm_iff htrim]
  apply GivenBody.not_isEmptyForm_of_blank
  rw [strip_of_trimmed htrim]
  exact hodd.blank

/-- By hand an odd blank sets words apart. In a rule line it is a character like others, and words alone are
no split of a text with a blank. -/
theorem not_sameAnswer_readBody (hdeclared : l.terminals.isSome = true) (htrim : Trimmed written.toList)
    (hodd : OddlySpaced written.toList) :
    ¬ SameAnswer (l.readBody line written) ((GivenBody.text written).toBody l.knownSymbols) := by
  have hε := notMem_emptySpellings htrim hodd
  rw [GivenBody.toBody_of_blank htrim hodd.blank]
  intro hsame
  obtain ⟨b, hb, hread⟩ | ⟨-, hread⟩ :=
    readBody_of_joined line hdeclared hε hodd.noSpace hodd.noTab <;> rw [hread] at hsame
  · cases hsame
    exact not_splitsAs_words hodd.blank hb.splits
  · cases hsame

/-- **Where written bodies are read alike.** Let terminals be declared and the text have visible ends. A rule
line and a grammar by hand then give the same body or both refuse it, unless its blanks are all odd. A text
of that kind is words by hand, and in a rule line it is split as if it had no blank. -/
theorem readBody_alike_iff (hdeclared : l.terminals.isSome = true) (htrim : Trimmed written.toList)
    (line : Nat) :
    (SameAnswer (l.readBody line written) ((GivenBody.text written).toBody l.knownSymbols) ↔
      ¬ OddlySpaced written.toList) ∧
    (OddlySpaced written.toList →
      (GivenBody.text written).toBody l.knownSymbols =
        .ok ((words written.toList).map String.ofList) ∧
      ((∃ b, Preferred l.knownSymbols written.toList b ∧ l.readBody line written = .ok b) ∨
        (¬ ∃ b, SplitsAs l.knownSymbols written.toList b) ∧
          l.readBody line written = .error (.malformed (.unsplittableOnLine line written)))) := by
  refine ⟨⟨fun hsame hodd => ?_, sameAnswer_readBody hdeclared htrim⟩, fun hodd => ⟨?_, ?_⟩⟩
  · exact not_sameAnswer_readBody hdeclared htrim hodd hsame
  · exact GivenBody.toBody_of_blank htrim hodd.blank
  · exact readBody_of_joined line hdeclared (notMem_emptySpellings htrim hodd) hodd.noSpace hodd.noTab

/-- `S → a b` with declared terminals, the blank being a no-break space. -/
def noBreak : Listing := ⟨[⟨2, "S", ["a\u00a0b"]⟩], none, none, some ["a", "b"]⟩

theorem trimmed_noBreak : Trimmed "a\u00a0b".toList :=
  ⟨⟨'a', ['\u00a0', 'b'], rfl, rfl⟩, ⟨'b', ['a', '\u00a0'], rfl, rfl⟩⟩

theorem oddlySpaced_noBreak : OddlySpaced "a\u00a0b".toList :=
  ⟨⟨'\u00a0', by decide, rfl⟩, by decide, by decide⟩

theorem readBody_alike_iff_noBreak :
    noBreak.terminals.isSome = true ∧ Trimmed "a\u00a0b".toList ∧ OddlySpaced "a\u00a0b".toList ∧
    (GivenBody.text "a\u00a0b").toBody noBreak.knownSymbols = .ok ["a", "b"] ∧
    ¬ SameAnswer (noBreak.readBody 2 "a\u00a0b")
      ((GivenBody.text "a\u00a0b").toBody noBreak.knownSymbols) := by
  obtain ⟨halike, hodd⟩ := readBody_alike_iff (l := noBreak) rfl trimmed_noBreak 2
  exact ⟨rfl, trimmed_noBreak, oddlySpaced_noBreak, (hodd oddlySpaced_noBreak).1,
    fun hsame => halike.mp hsame oddlySpaced_noBreak⟩

/-- A rule line refuses what is two words by hand, so the two are not always alike. -/
theorem not_always_read_alike :
    noBreak.readBody 2 "a\u00a0b" = .error (.malformed (.unsplittableOnLine 2 "a\u00a0b")) ∧
    ¬ ∀ (l : Listing) (line : Nat) (written : String), l.terminals.isSome = true →
      Trimmed written.toList →
      SameAnswer (l.readBody line written) ((GivenBody.text written).toBody l.knownSymbols) := by
  constructor
  · cbv
  · intro h
    exact not_sameAnswer_readBody rfl trimmed_noBreak oddlySpaced_noBreak
      (h noBreak 2 "a\u00a0b" rfl trimmed_noBreak)

end Listing

end ContextFree
