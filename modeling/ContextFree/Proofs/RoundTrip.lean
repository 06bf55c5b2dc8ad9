import ContextFree.Proofs.Create
import ContextFree.Proofs.Rendering

/-!
A grammar written down and read again. Its description declares the symbols and lists the rules. Reading it
line by line gives a listing with just these directives and rules (`read_describe`), the bodies of the
listing are the bodies of the grammar (`Describes.readBodies`), and a grammar that is created from its own
bodies is itself again (`Describable.createdFrom`), so that nothing is lost (`parse_describe`).
-/
namespace ContextFree

open Text

variable {g : Grammar} {A : Symbol} {b : Body} {l : Listing} {rules done : List (Symbol × List String)}

/-! ## What is written -/

namespace Grammar

/-- The bodies of one left side in the order in which they are rendered. -/
def shownBodies (alts : Alternatives) : List Body :=
  alts.sorted.filter (· ≠ []) ++ alts.sorted.filter (· = [])

/-- The left sides that are rendered, with their bodies. -/
def shownRules (g : Grammar) : List (Symbol × List Body) :=
  g.nonterminals.filterMap fun A => (g.rules.get? A).map fun alts => (A, shownBodies alts)

/-- The rules as they are rendered, bodies as text. -/
def writtenRules (g : Grammar) : List (Symbol × List String) :=
  g.shownRules.map fun e => (e.1, e.2.map g.renderBody)

/-- The symbols of a grammar as directives, and its rules. -/
def describe (g : Grammar) : String :=
  "\n".intercalate [Directive.start.line [g.start], Directive.nonterminals.line g.nonterminals,
    Directive.terminals.line g.terminals, g.render]

theorem mem_shownBodies {alts : Alternatives} : b ∈ shownBodies alts ↔ b ∈ alts := by
  simp only [shownBodies, List.mem_append, List.mem_filter, Alternatives.mem_sorted, decide_eq_true_eq,
    ← and_or_left, ne_eq, Decidable.not_or_self, and_true]

theorem mem_shownRules {e : Symbol × List Body} : e ∈ g.shownRules ↔
    e.1 ∈ g.nonterminals ∧ ∃ alts, g.rules.get? e.1 = some alts ∧ e.2 = shownBodies alts := by
  simp only [shownRules, List.mem_filterMap, Option.map_eq_some_iff]
  constructor
  · rintro ⟨A, hA, alts, halts, rfl⟩
    exact ⟨hA, alts, halts, rfl⟩
  · rintro ⟨hA, alts, halts, hbodies⟩
    exact ⟨e.1, hA, alts, halts, by rw [← hbodies]⟩

theorem mem_alternatives_of_mem_shownRules {e : Symbol × List Body} (he : e ∈ g.shownRules)
    (hb : b ∈ e.2) : b ∈ g.alternatives e.1 := by
  obtain ⟨-, alts, halts, hbodies⟩ := mem_shownRules.mp he
  rw [hbodies, mem_shownBodies] at hb
  exact Rules.mem_alternatives_iff.mpr ⟨alts, halts, hb⟩

theorem mem_shownRules_fst (hg : g.Valid) : A ∈ g.shownRules.map Prod.fst ↔ A ∈ g.rules.keys := by
  simp only [List.mem_map, mem_shownRules, Rules.mem_keys_iff, Option.isSome_iff_exists]
  constructor
  · rintro ⟨e, ⟨-, alts, halts, -⟩, rfl⟩
    exact ⟨alts, halts⟩
  · rintro ⟨alts, halts⟩
    have hA := hg.lhs_mem A (Rules.mem_keys_iff.mpr (halts ▸ rfl))
    exact ⟨(A, shownBodies alts), ⟨hA, alts, halts, rfl⟩, rfl⟩

theorem exists_mem_shownRules (hg : g.Valid) :
    (∃ e ∈ g.shownRules, e.1 = A ∧ b ∈ e.2) ↔ b ∈ g.alternatives A := by
  constructor
  · rintro ⟨e, he, rfl, hb⟩
    exact mem_alternatives_of_mem_shownRules he hb
  · intro hb
    obtain ⟨alts, halts, hmem⟩ := Rules.mem_alternatives_iff.mp hb
    have hA := hg.lhs_mem A (Rules.mem_keys_iff.mpr (halts ▸ rfl))
    exact ⟨(A, shownBodies alts), mem_shownRules.mpr ⟨hA, alts, halts, rfl⟩, rfl,
      mem_shownBodies.mpr hmem⟩

/-- Every left side has something to show. -/
theorem Describable.shownBodies_ne_nil (hd : g.Describable) {alts : Alternatives}
    (halts : g.rules.get? A = some alts) : shownBodies alts ≠ [] := by
  obtain ⟨b, hb⟩ := hd.hasBodies A (Rules.mem_keys_iff.mpr (halts ▸ rfl))
  obtain ⟨alts', halts', hb⟩ := Rules.mem_alternatives_iff.mp hb
  rw [halts] at halts'
  cases halts'
  exact List.ne_nil_of_mem (mem_shownBodies.mpr hb)

/-- Each left side stands on a line of its own. -/
theorem Describable.render_eq (hd : g.Describable) :
    g.render = "\n".intercalate (g.writtenRules.map fun e => ruleText e.1 e.2) := by
  unfold render writtenRules shownRules
  rw [List.map_map, List.map_filterMap]
  congr 1
  apply List.filterMap_congr
  intro A _
  cases halts : g.rules.get? A with
  | none => rfl
  | some alts =>
    have hshown : g.renderAlternatives alts = " | ".intercalate ((shownBodies alts).map g.renderBody) :=
      if_neg (hd.shownBodies_ne_nil halts)
    simp only [Option.map_some, Function.comp_apply, ruleText, hshown]

theorem Describable.isRule (hd : g.Describable) (hg : g.Valid) :
    ∀ e ∈ g.writtenRules, IsRule e.1 e.2 := by
  intro e he
  obtain ⟨shown, hshown, rfl⟩ := List.mem_map.mp he
  obtain ⟨hA, alts, halts, hbodies⟩ := mem_shownRules.mp hshown
  refine ⟨hd.isLeftSide hA, ?_, ?_⟩
  · rw [hbodies]
    exact List.map_eq_nil_iff.not.mpr (hd.shownBodies_ne_nil halts)
  · intro text htext
    obtain ⟨b, hb, rfl⟩ := List.mem_map.mp htext
    exact isAlternative_renderBody hd (hg.declared (mem_alternatives_of_mem_shownRules hshown hb))

theorem Describable.start_isWord (hd : g.Describable) (hg : g.Valid) :
    ∀ s ∈ [g.start], IsWord s.toList := by
  intro s hs
  rw [List.mem_singleton.mp hs]
  exact hd.isWord (List.mem_append_left _ hg.start_mem)

theorem Describable.lines_describe (hd : g.Describable) (hg : g.Valid) :
    lines g.describe.toList = (Directive.start.line [g.start]).toList ::
      (Directive.nonterminals.line g.nonterminals).toList ::
      (Directive.terminals.line g.terminals).toList ::
      g.writtenRules.map fun e => (ruleText e.1 e.2).toList := by
  have hstart := Directive.start.onLine_line (hd.start_isWord hg)
  have hnts := Directive.nonterminals.onLine_line fun s hs => hd.isWord (List.mem_append_left _ hs)
  have hts := Directive.terminals.onLine_line fun s hs => hd.isWord (List.mem_append_right _ hs)
  have hrules : lines g.render.toList = g.writtenRules.map fun e => (ruleText e.1 e.2).toList := by
    rw [hd.render_eq, String.toList_intercalate, List.map_map]
    apply lines_intercalate
    intro l hl
    obtain ⟨e, he, rfl⟩ := List.mem_map.mp hl
    exact ⟨(hd.isRule hg e he).text_ne_nil, (hd.isRule hg e he).onLine⟩
  have htext : g.describe.toList = (Directive.start.line [g.start]).toList ++ '\n' ::
      ((Directive.nonterminals.line g.nonterminals).toList ++ '\n' ::
        ((Directive.terminals.line g.terminals).toList ++ '\n' :: g.render.toList)) := by
    simp [describe]
  rw [htext, lines_append hstart, lines_append hnts, lines_append hts, hrules]

end Grammar

/-! ## What is read -/

namespace Listing

open Grammar

/-- The listing has the directives of `g` and the given rules. -/
structure Describes (l : Listing) (g : Grammar) (rules : List (Symbol × List String)) : Prop
    extends Declares l g where
  start : l.start = some [g.start]
  rules : l.rules.map (fun r => (r.lhs, r.alternatives)) = rules

theorem readFrom_cons {number : Nat} {line : List Char} {read : Line}
    (hread : Line.read number line = .ok read) (rest : List (List Char)) :
    l.readFrom number (line :: rest) = (l.add number read).readFrom (number + 1) rest := by
  rw [Listing.readFrom, hread]

theorem Describes.add_rule (hl : l.Describes g done) (number : Nat) (A : Symbol) (bodies : List String) :
    (l.add number (.rule A bodies)).Describes g (done ++ [(A, bodies)]) := by
  refine ⟨⟨hl.nonterminals, hl.terminals⟩, hl.start, ?_⟩
  simp only [add, List.map_append, hl.rules, List.map_singleton]

/-- A rule line adds its rule and nothing else, so all of them add all rules. -/
theorem Describes.readFrom (hl : l.Describes g done) (hrules : ∀ e ∈ rules, IsRule e.1 e.2)
    (number : Nat) :
    ∃ l', l.readFrom number (rules.map fun e => (ruleText e.1 e.2).toList) = .ok l' ∧
      l'.Describes g (done ++ rules) := by
  induction rules generalizing l done number with
  | nil => exact ⟨l, rfl, by rwa [List.append_nil]⟩
  | cons e rest ih =>
    obtain ⟨he, hrest⟩ := List.forall_mem_cons.mp hrules
    obtain ⟨l', hread, hl'⟩ := ih (hl.add_rule number e.1 e.2) hrest (number + 1)
    refine ⟨l', ?_, by rwa [List.append_cons]⟩
    rw [List.map_cons, readFrom_cons (he.read number), hread]

theorem read_describe (hd : g.Describable) (hg : g.Valid) :
    ∃ l, Listing.read g.describe = .ok l ∧ l.Describes g g.writtenRules := by
  have hdirectives : Describes ⟨[], some [g.start], some g.nonterminals, some g.terminals⟩ g [] :=
    ⟨⟨rfl, rfl⟩, rfl, rfl⟩
  obtain ⟨l, hl, hdescribes⟩ := hdirectives.readFrom (hd.isRule hg) 4
  refine ⟨l, ?_, hdescribes⟩
  have hstart := Line.read_directive 1 .start (hd.start_isWord hg)
  have hnts := Line.read_directive 2 .nonterminals fun s hs =>
    hd.isWord (List.mem_append_left g.terminals hs)
  have hts := Line.read_directive 3 .terminals fun s hs =>
    hd.isWord (List.mem_append_right g.nonterminals hs)
  rw [Listing.read, hd.lines_describe hg, readFrom_cons hstart, readFrom_cons hnts, readFrom_cons hts]
  exact hl

theorem Describes.readBodies (hl : l.Describes g g.writtenRules) (hd : g.Describable) (hg : g.Valid) :
    l.readBodies = .ok g.shownRules := by
  apply mapM_eq_ok_iff.mpr
  apply map_eq_of_map_eq hl.rules
  -- The number of a line shows in errors only.
  intro r shown hshown hr
  obtain ⟨hlhs, halternatives⟩ := Prod.mk.inj hr
  have hread : r.alternatives.mapM (l.readBody r.line) = .ok shown.2 := by
    rw [mapM_eq_ok_iff, halternatives, List.map_map]
    apply List.map_congr_left
    intro b hb
    exact hl.readBody_renderBody hd hg r.line (mem_alternatives_of_mem_shownRules hshown hb)
  rw [hread, hlhs]
  rfl

/-- What is created from the bodies of a listing. -/
def givenFrom (bodies : List (Symbol × List Body)) : List (Symbol × List GivenBody) :=
  (grouped bodies).map fun r => (r.1, r.2.map .symbols)

theorem mem_givenFrom_fst {bodies : List (Symbol × List Body)} :
    A ∈ (givenFrom bodies).map Prod.fst ↔ A ∈ bodies.map Prod.fst := by
  have hfst : (givenFrom bodies).map Prod.fst = distinct (bodies.map Prod.fst) := by
    simp [givenFrom, grouped, Function.comp_def]
  rw [hfst, mem_distinct]

theorem offers_givenFrom {bodies : List (Symbol × List Body)} {alt : GivenBody} :
    Offers (givenFrom bodies) A alt ↔ ∃ b, alt = .symbols b ∧ ∃ e ∈ bodies, e.1 = A ∧ b ∈ e.2 := by
  simp only [Offers, givenFrom, grouped, List.map_map, List.mem_map, mem_distinct, Function.comp_apply]
  constructor
  · rintro ⟨_, ⟨B, -, rfl⟩, rfl, halt⟩
    obtain ⟨b, hb, rfl⟩ := List.mem_map.mp halt
    obtain ⟨e, he, hb⟩ := List.mem_flatMap.mp hb
    rw [List.mem_filter, decide_eq_true_eq] at he
    exact ⟨b, rfl, e, he.1, he.2, hb⟩
  · rintro ⟨b, rfl, e, he, rfl, hb⟩
    refine ⟨_, ⟨e.1, ⟨e, he, rfl⟩, rfl⟩, rfl, List.mem_map_of_mem ?_⟩
    exact List.mem_flatMap.mpr ⟨e, List.mem_filter.mpr ⟨he, decide_eq_true rfl⟩, hb⟩

theorem Describes.toGrammar (hl : l.Describes g g.writtenRules) (hd : g.Describable) (hg : g.Valid) :
    l.toGrammar none = create g.nonterminals g.terminals (givenFrom g.shownRules) g.start := by
  have hrules : l.rules.isEmpty = false := by
    rw [List.isEmpty_eq_false_iff]
    intro hnil
    obtain ⟨A, hA⟩ := List.exists_mem_of_ne_nil _ hd.hasRules
    have hwritten : g.writtenRules = [] := by rw [← hl.rules, hnil, List.map_nil]
    have hshown : g.shownRules = [] := List.map_eq_nil_iff.mp hwritten
    rw [← mem_shownRules_fst hg, hshown] at hA
    cases hA
  have hstart : l.startSymbol = g.start := by
    rw [startSymbol, hl.start]
    rfl
  have hnts : l.declaredNonterminals = g.nonterminals := by
    rw [declaredNonterminals, hl.nonterminals]
    rfl
  simp only [Listing.toGrammar, hrules, hl.nonterminals, hl.terminals, hl.readBodies hd hg, hstart, hnts]
  rfl

end Listing

namespace Grammar

/-- A body that is given symbol by symbol is read as it stands. -/
theorem Describable.toBody_symbols (hd : g.Describable) (hg : g.Valid) (hb : b ∈ g.alternatives A)
    (declared : List Symbol) : (GivenBody.symbols b).toBody declared = .ok b := by
  have hsymbols : ∀ s ∈ b, s ∉ emptySpellings := fun s hs =>
    (hd.symbols s (hg.declared hb s hs)).notEmptySpelling
  match b with
  | [] => rfl
  | [s] => exact congrArg Except.ok (if_neg (hsymbols s List.mem_cons_self))
  | s :: t :: rest => rfl

theorem Describable.createdFrom (hd : g.Describable) (hg : g.Valid) (hnts : g.nonterminals.Nodup)
    (hts : g.terminals.Nodup) :
    CreatedFrom g.nonterminals g.terminals (Listing.givenFrom g.shownRules) g.start g where
  nonterminals := (distinct_eq_self hnts).symm
  terminals := (distinct_eq_self hts).symm
  start := rfl
  valid := hg
  rules := by
    apply Collects.of_symbols
    · exact fun A => ((Listing.mem_givenFrom_fst).trans (mem_shownRules_fst hg)).symm
    · intro A alt
      change _ ↔ ∃ b ∈ g.alternatives A, alt = .symbols b
      simp only [Listing.offers_givenFrom, exists_mem_shownRules hg]
      exact exists_congr fun b => and_comm
    · exact fun A b hb => hd.toBody_symbols hg hb _

variable {nts ts : List Symbol} {given : List (Symbol × List GivenBody)} {start : Symbol}

/-- **A grammar is read back from its description.** -/
theorem parse_describe (hg : create nts ts given start = .ok g) (hd : g.Describable) :
    ∃ h, parse g.describe none = .ok h ∧ h.sameAs g = true := by
  have hcreated := createdFrom_of_create hg
  have hvalid := hcreated.valid
  have hnts : g.nonterminals.Nodup := hcreated.nonterminals ▸ nodup_distinct nts
  have hts : g.terminals.Nodup := hcreated.terminals ▸ nodup_distinct ts
  obtain ⟨l, hread, hl⟩ := Listing.read_describe hd hvalid
  obtain ⟨h, hh, hsame⟩ := create_of_createdFrom (hd.createdFrom hvalid hnts hts)
  refine ⟨h, ?_, sameAs_iff_same.mpr hsame⟩
  rw [← hl.toGrammar hd hvalid] at hh
  simp only [parse, hread]
  exact hh

/-- `S → NP | N P` and `NP → N | ε`. Side by side, two of the symbols spell a third. -/
def phrase : Grammar where
  nonterminals := ["S", "NP"]
  terminals := ["N", "P"]
  rules := (Rules.empty.insert "S" (.ofList [["NP"], ["N", "P"]])).insert "NP" (.ofList [["N"], []])
  start := "S"

def phraseGiven : List (Symbol × List GivenBody) :=
  [("S", [.symbols ["NP"], .symbols ["N", "P"]]), ("NP", [.symbols ["N"], .symbols []])]

theorem mem_alternatives_phrase : b ∈ phrase.alternatives A ↔
    A = "S" ∧ (b = ["NP"] ∨ b = ["N", "P"]) ∨ A = "NP" ∧ (b = ["N"] ∨ b = []) := by
  change b ∈ ((Rules.empty.insert "S" _).insert "NP" _).alternatives A ↔ _
  rw [Rules.alternatives_insert, Rules.alternatives_insert]
  by_cases hNP : A = "NP"
  · simp [hNP]
  · by_cases hS : A = "S"
    · simp [hS]
    · simp [hNP, hS, Rules.alternatives]

theorem phrase_valid : phrase.Valid := by
  refine ⟨by decide, by decide, by decide, fun A b hb => ?_⟩
  obtain ⟨-, rfl | rfl⟩ | ⟨-, rfl | rfl⟩ := mem_alternatives_phrase.mp hb <;> decide

theorem phrase_describable : phrase.Describable where
  symbols := by decide
  leftSides := by decide
  hasRules := by decide
  hasBodies A hA := by
    have hkeys : ∀ A ∈ phrase.rules.keys, A = "S" ∨ A = "NP" := by decide
    obtain rfl | rfl := hkeys A hA
    · exact ⟨["NP"], mem_alternatives_phrase.mpr (.inl ⟨rfl, .inl rfl⟩)⟩
    · exact ⟨["N"], mem_alternatives_phrase.mpr (.inr ⟨rfl, .inl rfl⟩)⟩
  spelling hone := absurd (hone "NP" (by decide)) (by decide)

theorem createdFrom_phraseGiven : CreatedFrom ["S", "NP"] ["N", "P"] phraseGiven "S" phrase where
  nonterminals := by decide
  terminals := by decide
  start := rfl
  valid := phrase_valid
  rules := by
    apply Collects.of_symbols
    · intro A
      change A ∈ ((Rules.empty.insert "S" _).insert "NP" _).keys ↔ _
      rw [Rules.mem_keys_insert, Rules.mem_keys_insert]
      simp [phraseGiven, Rules.keys, Rules.empty, or_comm]
    · intro A alt
      have hsplit : phraseGiven = [("S", [.symbols ["NP"], .symbols ["N", "P"]])] ++
          [("NP", [.symbols ["N"], .symbols []])] := rfl
      change _ ↔ ∃ b ∈ phrase.alternatives A, alt = .symbols b
      rw [hsplit, offers_append, offers_singleton, offers_singleton]
      simp only [mem_alternatives_phrase, List.mem_pair, and_assoc, exists_and_left, or_and_right,
        exists_or, exists_eq_left]
    · exact fun A b hb => phrase_describable.toBody_symbols phrase_valid hb _

theorem parse_describe_phrase : ∃ g h, create ["S", "NP"] ["N", "P"] phraseGiven "S" = .ok g ∧
    g.Describable ∧ parse g.describe none = .ok h ∧ h.sameAs g = true := by
  obtain ⟨g, hg, hsame⟩ := create_of_createdFrom createdFrom_phraseGiven
  have hd : g.Describable := phrase_describable.same hsame.symm
  obtain ⟨h, hh, hback⟩ := parse_describe hg hd
  exact ⟨g, h, hg, hd, hh, hback⟩

end Grammar

end ContextFree
