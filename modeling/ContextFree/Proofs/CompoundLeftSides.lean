import ContextFree.Proofs.GroupedRules
import ContextFree.Proofs.PreferredSplit

/-!
Left sides in compact notation. Where bodies are written without separators, a left side that other left
sides and declared terminals make when they are put together (`IsCompound`) is several symbols and not a new
one. Splitting finds it even if a longer symbol is preferred somewhere inside: every split of a left side
that is not among the others has two symbols at least (`isSome_parts?_iff`). So the first line with such a
left side is refused before bodies are read, and what is accepted has none (`parse_compound`).
-/
namespace ContextFree

open Text

variable {A s : Symbol} {b : String} {parts : Body} {l : Listing} {said : List Line}
  {lines : List (List Char)} {text : String} {start : Option Symbol} {e : GrammarError} {g : Grammar}

namespace Line

/-- The other left sides and the declared terminals. -/
def others (said : List Line) (A : Symbol) : List Symbol :=
  (leftSides said).filter (· ≠ A) ++ (lastOf? said .terminals).getD []

/-- The text of a left side is two symbols or more of the others, put together. -/
def IsCompound (said : List Line) (A : Symbol) : Prop :=
  ∃ parts : Body, 2 ≤ parts.length ∧ SplitsAs (others said A) A.toList parts

/-- A compound left side that is no declared terminal. -/
structure IsRefused (said : List Line) (A : Symbol) : Prop where
  compound : IsCompound said A
  undeclared : A ∉ (lastOf? said .terminals).getD []

/-- Rules whose bodies are all written without separators, and no declared non-terminals. -/
structure Compact (said : List Line) : Prop where
  rules : leftSides said ≠ []
  undeclared : lastOf? said .nonterminals = none
  joined : ∀ A alts, Line.rule A alts ∈ said → ∀ b ∈ alts, ' ' ∉ b.toList ∧ '\t' ∉ b.toList

/-- A refused left side in the line at index `i`, the first line that has one. -/
structure FirstRefused (said : List Line) (i : Nat) (A : Symbol) : Prop where
  line : ∃ alts, said[i]? = some (.rule A alts)
  refused : IsRefused said A
  first : ∀ j < i, ∀ B alts, said[j]? = some (.rule B alts) → ¬ IsRefused said B

theorem mem_leftSides : A ∈ leftSides said ↔ ∃ alts, Line.rule A alts ∈ said := by
  rw [leftSides, List.mem_filterMap]
  constructor
  · rintro ⟨read, hread, hA⟩
    cases read with
    | rule lhs alts =>
      cases hA
      exact ⟨alts, hread⟩
    | _ => cases hA
  · rintro ⟨alts, h⟩
    exact ⟨_, h, rfl⟩

theorem mem_alternatives : b ∈ alternatives said A ↔ ∃ alts, Line.rule A alts ∈ said ∧ b ∈ alts := by
  rw [alternatives, List.mem_flatMap]
  constructor
  · rintro ⟨read, hread, hb⟩
    cases read with
    | rule lhs alts =>
      by_cases hA : lhs = A
      · rw [alternativesOf, if_pos hA] at hb
        exact ⟨alts, hA ▸ hread, hb⟩
      · rw [alternativesOf, if_neg hA] at hb
        cases hb
    | _ => cases hb
  · rintro ⟨alts, h, hb⟩
    refine ⟨_, h, ?_⟩
    rwa [alternativesOf, if_pos rfl]

/-- A left side is a word. -/
theorem ne_empty_of_textSays (htext : TextSays text said) (hA : A ∈ leftSides said) : A ≠ "" := by
  obtain ⟨alts, hread⟩ := mem_leftSides.mp hA
  obtain ⟨line, -, hsays⟩ : ∃ line ∈ Text.lines text.toList, Line.Says line (.rule A alts) := by
    obtain ⟨i, hi, hget⟩ := List.getElem_of_mem hread
    have hline : i < (Text.lines text.toList).length := by rwa [htext.length_eq]
    exact ⟨_, List.getElem_mem hline, hget ▸ htext.get hline hi⟩
  cases hsays with
  | rule _ _ _ word _ =>
    intro hempty
    exact word.1 (by simpa using hempty)

/-- The first rule line for which a search finds something. -/
theorem findSome?_ruleLines {α : Type} {f : RuleLine → Option α} {number : Nat} {a : α}
    (h : (ruleLines number said).findSome? f = some a) :
    ∃ i A alts, said[i]? = some (.rule A alts) ∧ f ⟨number + i, A, alts⟩ = some a ∧
      ∀ j < i, ∀ B alts, said[j]? = some (.rule B alts) → f ⟨number + j, B, alts⟩ = none := by
  induction said generalizing number with
  | nil => cases h
  | cons read said ih =>
    -- a line that the search passes by comes before what is found in the rest
    have hlater (hrest : (ruleLines (number + 1) said).findSome? f = some a)
        (hread : ∀ B alts, read = .rule B alts → f ⟨number, B, alts⟩ = none) :
        ∃ i A alts, (read :: said)[i]? = some (.rule A alts) ∧ f ⟨number + i, A, alts⟩ = some a ∧
          ∀ j < i, ∀ B alts, (read :: said)[j]? = some (.rule B alts) →
            f ⟨number + j, B, alts⟩ = none := by
      obtain ⟨i, A, alts, hline, hfound, hfirst⟩ := ih hrest
      refine ⟨i + 1, A, alts, hline, by rwa [Nat.add_right_comm] at hfound, ?_⟩
      intro j hj B alts hB
      cases j with
      | zero => exact hread B alts (Option.some.inj hB)
      | succ j =>
        have hnone := hfirst j (Nat.lt_of_succ_lt_succ hj) B alts hB
        rwa [Nat.add_right_comm] at hnone
    cases read with
    | rule lhs alts =>
      rw [ruleLines, List.findSome?_cons] at h
      cases hf : f ⟨number, lhs, alts⟩ with
      | some found =>
        rw [hf] at h
        cases h
        exact ⟨0, lhs, alts, rfl, hf, fun j hj => absurd hj (Nat.not_lt_zero j)⟩
      | none =>
        rw [hf] at h
        refine hlater h fun B alts hB => ?_
        cases hB
        exact hf
    | _ =>
      refine hlater h fun B alts hB => ?_
      cases hB

end Line

namespace Listing

/-! ## What is found -/

theorem parts?_eq_some_iff : l.parts? A = some parts ↔
    Preferred (l.otherSymbols A) A.toList parts ∧ 2 ≤ parts.length := by
  rw [parts?, Option.filter_eq_some_iff, split?_eq_some_iff, decide_eq_true_eq]

/-- A split into two symbols or more is found if there is any, unless the left side is one of the symbols
itself: then it is preferred whole. -/
theorem isSome_parts?_iff (hne : A ≠ "") : (l.parts? A).isSome = true ↔
    (∃ parts : Body, 2 ≤ parts.length ∧ SplitsAs (l.otherSymbols A) A.toList parts) ∧
      A ∉ l.otherSymbols A := by
  rw [Option.isSome_iff_exists]
  constructor
  · rintro ⟨parts, h⟩
    obtain ⟨hpreferred, htwo⟩ := parts?_eq_some_iff.mp h
    refine ⟨⟨parts, htwo, hpreferred.splits⟩, fun hA => ?_⟩
    have hwhole : parts = [A] :=
      (split?_eq_some_iff.mp (split?_symbol hA hne)).unique hpreferred
    rw [hwhole, List.length_singleton] at htwo
    omega
  · rintro ⟨⟨parts, -, hsplits⟩, hA⟩
    obtain ⟨preferred, hpreferred⟩ := exists_preferred ⟨parts, hsplits⟩
    exact ⟨preferred, parts?_eq_some_iff.mpr ⟨hpreferred, hpreferred.splits.two_le_length hne hA⟩⟩

namespace Records

variable (h : l.Records said)

include h

theorem terminals : l.terminals = Line.lastOf? said .terminals := h.given .terminals

theorem nonterminals : l.nonterminals = Line.lastOf? said .nonterminals := h.given .nonterminals

theorem mem_otherSymbols : s ∈ l.otherSymbols A ↔ s ∈ Line.others said A := by
  simp only [otherSymbols, Line.others, h.leftSides, h.terminals, List.mem_append, List.mem_filter,
    mem_distinct]

theorem isRefused_iff (hne : A ≠ "") : (l.parts? A).isSome = true ↔ Line.IsRefused said A := by
  have hsplits (parts : Body) : SplitsAs (l.otherSymbols A) A.toList parts ↔
      SplitsAs (Line.others said A) A.toList parts := SplitsAs.congr fun s => h.mem_otherSymbols
  have hundeclared : A ∈ l.otherSymbols A ↔ A ∈ (Line.lastOf? said .terminals).getD [] := by
    simp [h.mem_otherSymbols, Line.others]
  rw [isSome_parts?_iff hne, hundeclared]
  simp only [hsplits]
  exact ⟨fun ⟨hcompound, hA⟩ => ⟨hcompound, hA⟩, fun ⟨hcompound, hA⟩ => ⟨hcompound, hA⟩⟩

theorem isCompact (hcompact : Line.Compact said) : l.isCompact = true := by
  unfold Listing.isCompact
  simp only [List.all_eq_true]
  refine forall_rules_iff.mpr fun A b hb => ?_
  rw [h.alternativesOf, Line.mem_alternatives] at hb
  obtain ⟨alts, hline, hb⟩ := hb
  simpa [String.contains_char_eq] using hcompact.joined A alts hline b hb

theorem refusal?_eq (hcompact : Line.Compact said) :
    l.refusal? = (Line.ruleLines 1 said).findSome? l.compound? := by
  have hnone : l.nonterminals.isNone = true := by
    rw [h.nonterminals, hcompact.undeclared, Option.isNone_none]
  rw [refusal?, hnone, h.isCompact hcompact, h.rules]
  rfl

theorem rules_ne_nil (hcompact : Line.Compact said) : l.rules ≠ [] := by
  intro hnil
  apply hcompact.rules
  rw [← h.leftSides, Listing.leftSides, hnil, List.map_nil]

/-- What is refused is the first line with a refused left side. -/
theorem firstRefused (hcompact : Line.Compact said) (hword : ∀ A ∈ Line.leftSides said, A ≠ "")
    (hrefusal : l.refusal? = some e) : ∃ i A parts, Line.FirstRefused said i A ∧
      Preferred (Line.others said A) A.toList parts ∧ e = .leftSide (.compound (i + 1) A parts) := by
  rw [h.refusal?_eq hcompact] at hrefusal
  obtain ⟨i, A, alts, hline, hfound, hfirst⟩ := Line.findSome?_ruleLines hrefusal
  have hrefused {j : Nat} {B : Symbol} {alts : List String} (hB : said[j]? = some (.rule B alts)) :
      (l.parts? B).isSome = true ↔ Line.IsRefused said B :=
    h.isRefused_iff (hword B (Line.mem_leftSides.mpr ⟨alts, List.mem_of_getElem? hB⟩))
  rw [compound?_eq] at hfound
  obtain ⟨parts, hparts, rfl⟩ := Option.map_eq_some_iff.mp hfound
  refine ⟨i, A, parts, ⟨⟨alts, hline⟩, ?_, ?_⟩, ?_, by rw [Nat.add_comm]⟩
  · exact (hrefused hline).mp (Option.isSome_of_eq_some hparts)
  · intro j hj B alts hB hrefusedB
    have hnone := hfirst j hj B alts hB
    rw [compound?_eq, Option.map_eq_none_iff] at hnone
    have hsome := (hrefused hB).mpr hrefusedB
    rw [hnone] at hsome
    cases hsome
  · exact (Preferred.congr fun s => h.mem_otherSymbols).mp (parts?_eq_some_iff.mp hparts).1

end Records

/-- A grammar is made only after left sides are let through and bodies are read. -/
theorem of_toGrammar_eq_ok (h : l.toGrammar start = .ok g) : l.refusal? = none ∧
    ∃ bodies, l.createFrom (grouped bodies) start = .ok g := by
  rw [toGrammar_eq] at h
  split at h
  · cases h
  · split at h
    · cases h
    · rename_i hrefusal
      cases hbodies : l.readBodies with
      | error e =>
        rw [hbodies] at h
        cases h
      | ok bodies =>
        rw [hbodies] at h
        exact ⟨hrefusal, bodies, h⟩

/-- No declared terminal is a left side, since left sides are the non-terminals. -/
theorem notMem_terminals_of_createFrom {rules : List (Symbol × List Body)}
    (hnone : l.nonterminals = none) (h : l.createFrom rules start = .ok g) (hA : A ∈ l.leftSides) :
    A ∉ l.terminals.getD [] := by
  have hcreated := Grammar.createdFrom_of_create h
  have hdisjoint : A ∉ g.terminals := by
    apply hcreated.valid.disjoint A
    rwa [hcreated.nonterminals, mem_distinct, declaredNonterminals, hnone, Option.getD_none]
  rw [hcreated.terminals, mem_distinct] at hdisjoint
  cases hts : l.terminals with
  | none => exact List.not_mem_nil
  | some ts => rwa [hts] at hdisjoint

end Listing

namespace Grammar

/-- **Compound left sides are refused in compact notation.** What is accepted has no compound left side. If
a left side is compound and no declared terminal, the first line with such a left side is refused, whatever
bodies there are. -/
theorem parse_compound (htext : TextSays text said) (hcompact : Line.Compact said)
    (start : Option Symbol) :
    (∀ g, parse text start = .ok g → ∀ A ∈ Line.leftSides said, ¬ Line.IsCompound said A) ∧
    ((∃ A ∈ Line.leftSides said, Line.IsRefused said A) →
      ∃ i A parts, Line.FirstRefused said i A ∧ Preferred (Line.others said A) A.toList parts ∧
        parse text start = .error (.leftSide (.compound (i + 1) A parts))) := by
  obtain ⟨l, hl, h⟩ := Listing.read_of_textSays htext
  have hword (A : Symbol) (hA : A ∈ Line.leftSides said) : A ≠ "" := Line.ne_empty_of_textSays htext hA
  have hnone : l.nonterminals = none := h.nonterminals.trans hcompact.undeclared
  have hrefusal : l.refusal?.isSome = true ↔ ∃ A ∈ Line.leftSides said, Line.IsRefused said A := by
    rw [Listing.isSome_refusal?_iff, h.leftSides]
    constructor
    · rintro ⟨-, -, A, hA, hparts⟩
      exact ⟨A, hA, (h.isRefused_iff (hword A hA)).mp hparts⟩
    · rintro ⟨A, hA, hrefused⟩
      exact ⟨hnone, h.isCompact hcompact, A, hA, (h.isRefused_iff (hword A hA)).mpr hrefused⟩
  rw [parse_of_read hl]
  constructor
  · intro g hg A hA hcompound
    obtain ⟨hnoRefusal, bodies, hcreate⟩ := Listing.of_toGrammar_eq_ok hg
    have hundeclared : A ∉ l.terminals.getD [] :=
      Listing.notMem_terminals_of_createFrom hnone hcreate (h.leftSides.symm ▸ hA)
    rw [h.terminals] at hundeclared
    have hsome := hrefusal.mpr ⟨A, hA, hcompound, hundeclared⟩
    rw [hnoRefusal] at hsome
    cases hsome
  · intro hexists
    obtain ⟨e, he⟩ := Option.isSome_iff_exists.mp (hrefusal.mpr hexists)
    obtain ⟨i, A, parts, hfirst, hpreferred, rfl⟩ := h.firstRefused hcompact hword he
    refine ⟨i, A, parts, hfirst, hpreferred, ?_⟩
    rw [Listing.toGrammar_eq, if_neg (h.rules_ne_nil hcompact), he]

/-- On the third line `ab` is declared and not refused, but on the fourth `aS` is, although `X` on the line
of `S` is declared nowhere. -/
def overlappingText : String := "%terminals a b ab\nS -> aX\nab -> a\naS -> b"

def overlapping : List Line :=
  [.directive .terminals ["a", "b", "ab"], .rule "S" ["aX"], .rule "ab" ["a"], .rule "aS" ["b"]]

theorem parse_compound_overlapping :
    TextSays overlappingText overlapping ∧ Line.Compact overlapping ∧ Line.IsRefused overlapping "aS" ∧
    ∃ i A parts, Line.FirstRefused overlapping i A ∧
      Preferred (Line.others overlapping A) A.toList parts ∧
      parse overlappingText none = .error (.leftSide (.compound (i + 1) A parts)) := by
  have htext : TextSays overlappingText overlapping := textSays_iff.mpr rfl
  have hcompact : Line.Compact overlapping := by
    refine ⟨by decide, by decide, fun A alts hline => ?_⟩
    simp only [overlapping, List.mem_cons, reduceCtorEq, Line.rule.injEq, List.not_mem_nil, or_false,
      false_or] at hline
    obtain ⟨-, rfl⟩ | ⟨-, rfl⟩ | ⟨-, rfl⟩ := hline <;> decide
  have hrefused : Line.IsRefused overlapping "aS" :=
    ⟨⟨["a", "S"], by decide, splitsAs_iff.mpr (by decide)⟩, by decide⟩
  exact ⟨htext, hcompact, hrefused,
    (parse_compound htext hcompact none).2 ⟨"aS", by decide, hrefused⟩⟩

end Grammar

end ContextFree
