import ContextFree.Grammar.Render
import ContextFree.Proofs.LineReading
import ContextFree.Proofs.Same
import ContextFree.Proofs.Split

/-!
Bodies as they are rendered, and what is read from them. Where each symbol is a single character a body is
read symbol by symbol; otherwise two symbols and more are words between blanks, and one symbol alone is the
longest that fits (`readBody_renderBody`). Only what is written like ε has to be kept apart.
-/
namespace ContextFree

open Text

/-- A symbol that can be written anywhere: a word with no bar and no end of an arrow in it, and no spelling
of ε. -/
structure Writable (s : Symbol) : Prop where
  word : IsWord s.toList
  noBar : '|' ∉ s.toList
  arrowless : Arrowless s.toList
  notEmptySpelling : s ∉ emptySpellings

instance (s : Symbol) : Decidable (Writable s) :=
  decidable_of_iff (IsWord s.toList ∧ '|' ∉ s.toList ∧ Arrowless s.toList ∧ s ∉ emptySpellings)
    ⟨fun ⟨hw, hb, ha, hε⟩ => ⟨hw, hb, ha, hε⟩, fun h => ⟨h.word, h.noBar, h.arrowless, h.notEmptySpelling⟩⟩

theorem Writable.ne_empty {s : Symbol} (hs : Writable s) : s ≠ "" :=
  fun h => hs.word.ne_nil (String.toList_eq_nil_iff.mpr h)

namespace Grammar

/-- What a grammar is made of that can be written down and read again. -/
structure Describable (g : Grammar) : Prop where
  symbols : ∀ s ∈ g.nonterminals ++ g.terminals, Writable s
  leftSides : ∀ A ∈ g.nonterminals, A.toList.head? ≠ some '#' ∧ A.toList.head? ≠ some '%'
  hasRules : g.rules.keys ≠ []
  hasBodies : ∀ A ∈ g.rules.keys, ∃ b, b ∈ g.alternatives A
  /-- Symbols that stand side by side do not spell ε. -/
  spelling : (∀ s ∈ g.nonterminals ++ g.terminals, s.length = 1) →
    ∀ A, ∀ b ∈ g.alternatives A, String.join b ≠ "eps" ∧ String.join b ≠ "epsilon"

variable {g : Grammar} {A : Symbol} {b : Body}

theorem Valid.declared (hg : g.Valid) (hb : b ∈ g.alternatives A) :
    ∀ s ∈ b, s ∈ g.nonterminals ++ g.terminals :=
  fun s hs => List.mem_append.mpr (hg.body_mem A b hb s hs)

theorem Describable.isWord (hd : g.Describable) {s : Symbol} (hs : s ∈ g.nonterminals ++ g.terminals) :
    IsWord s.toList := (hd.symbols s hs).word

theorem Describable.isLeftSide (hd : g.Describable) (hA : A ∈ g.nonterminals) : IsLeftSide A :=
  have hs := hd.symbols A (List.mem_append_left _ hA)
  ⟨hs.word, hs.arrowless, (hd.leftSides A hA).1, (hd.leftSides A hA).2⟩

theorem Describable.same {h : Grammar} (hd : g.Describable) (hs : g.Same h) : h.Describable where
  symbols := hs.nonterminals ▸ hs.terminals ▸ hd.symbols
  leftSides := hs.nonterminals ▸ hd.leftSides
  hasRules := by
    obtain ⟨A, hA⟩ := List.exists_mem_of_ne_nil _ hd.hasRules
    exact List.ne_nil_of_mem ((hs.rules.keys A).mp hA)
  hasBodies A hA := by
    obtain ⟨b, hb⟩ := hd.hasBodies A ((hs.rules.keys A).mpr hA)
    exact ⟨b, hs.mem_alternatives.mp hb⟩
  spelling hone A b hb := by
    rw [← hs.nonterminals, ← hs.terminals] at hone
    exact hd.spelling hone A b (hs.mem_alternatives.mpr hb)

/-! ## Bodies as text -/

theorem separator_cases (g : Grammar) :
    (g.separator = "" ∧ ∀ s ∈ g.nonterminals ++ g.terminals, s.length = 1) ∨ g.separator = " " := by
  unfold separator
  split
  · rename_i h
    exact .inl ⟨rfl, by simpa only [List.all_eq_true, beq_iff_eq] using h⟩
  · exact .inr rfl

theorem toList_renderBody (hb : b ≠ []) :
    (g.renderBody b).toList = g.separator.toList.intercalate (b.map String.toList) := by
  rw [renderBody, if_neg hb, String.toList_intercalate]

theorem mem_toList_separator {c : Char} (hc : c ∈ g.separator.toList) : c = ' ' := by
  obtain ⟨h, -⟩ | h := g.separator_cases
  · rw [h] at hc
    cases hc
  · rw [h] at hc
    exact List.mem_singleton.mp hc

theorem mem_toList_renderBody {c : Char} (hb : b ≠ []) (hc : c ∈ (g.renderBody b).toList) :
    c = ' ' ∨ ∃ s ∈ b, c ∈ s.toList := by
  rw [toList_renderBody hb] at hc
  obtain hsep | ⟨w, hw, hc⟩ := mem_intercalate hc
  · exact .inl (mem_toList_separator hsep)
  · obtain ⟨s, hs, rfl⟩ := List.mem_map.mp hw
    exact .inr ⟨s, hs, hc⟩

theorem isAlternative_epsilon : IsAlternative epsilon.toList := by
  have hword : IsWord epsilon.toList := by decide
  refine ⟨hword.trimmed, fun c hc => isLineEnd_eq_false (hword.visible c hc), ?_, ?_⟩
  · decide
  · decide

theorem isAlternative_renderBody (hd : g.Describable) (hb : ∀ s ∈ b, s ∈ g.nonterminals ++ g.terminals) :
    IsAlternative (g.renderBody b).toList := by
  by_cases hnil : b = []
  · rw [renderBody, if_pos hnil]
    exact isAlternative_epsilon
  have hchar : ∀ c ∈ (g.renderBody b).toList,
      isLineEnd c = false ∧ c ≠ '|' ∧ c ≠ '>' ∧ c ≠ '→' := by
    intro c hc
    obtain rfl | ⟨s, hs, hc⟩ := mem_toList_renderBody hnil hc
    · decide
    · have hs := hd.symbols s (hb s hs)
      have hbar : c ≠ '|' := by
        rintro rfl
        exact hs.noBar hc
      exact ⟨isLineEnd_eq_false (hs.word.visible c hc), hbar, hs.arrowless c hc⟩
  constructor
  · rw [toList_renderBody hnil]
    apply trimmed_intercalate _ (by simpa using hnil)
    simp only [List.forall_mem_map]
    exact fun s hs => (hd.isWord (hb s hs)).trimmed
  · exact fun c hc => (hchar c hc).1
  · exact fun hc => (hchar _ hc).2.1 rfl
  · exact fun c hc => (hchar c hc).2.2

end Grammar

/-! ## Text as bodies -/

namespace Listing

variable {l : Listing} {written : String} {b : Body} {g : Grammar} {A s : Symbol}

theorem readBody_of_words (number : Nat) (hε : written ∉ emptySpellings) (hspace : ' ' ∈ written.toList) :
    l.readBody number written = .ok ((words written.toList).map String.ofList) := by
  have hcontains : (written.contains ' ' || written.contains '\t') = true := by
    simp [String.contains_char_eq, hspace]
  rw [readBody, if_neg hε, if_pos hcontains]

theorem readBody_of_split (number : Nat) (hε : written ∉ emptySpellings)
    (hvisible : ∀ c ∈ written.toList, isBlank c = false)
    (hsplit : split? l.knownSymbols l.terminals.isNone written.toList = some b) :
    l.readBody number written = .ok b := by
  have hcontains : ¬ (written.contains ' ' || written.contains '\t') = true := by
    simp only [String.contains_char_eq, Bool.or_eq_true, decide_eq_true_eq]
    rintro (h | h)
    · cases hvisible _ h
    · cases hvisible _ h
  rw [readBody, if_neg hε, if_neg hcontains, hsplit]

/-- The listing declares the symbols of `g`. -/
structure Declares (l : Listing) (g : Grammar) : Prop where
  nonterminals : l.nonterminals = some g.nonterminals
  terminals : l.terminals = some g.terminals

theorem Declares.mem_knownSymbols (hl : l.Declares g) :
    s ∈ l.knownSymbols ↔ s ∈ g.nonterminals ++ g.terminals := by
  simp [knownSymbols, declaredNonterminals, hl.nonterminals, hl.terminals]

/-- Symbols that spell a single character have that character among them. -/
theorem mem_of_join_eq {c : Char} (hb : ∀ s ∈ b, s ≠ "") (h : String.join b = String.singleton c) :
    String.singleton c ∈ b := by
  have htext : b.flatMap String.toList = [c] := by
    rw [← String.toList_join, h, String.toList_singleton]
  cases b with
  | nil => cases htext
  | cons s rest =>
    have hs : s.toList ≠ [] := fun h => hb s List.mem_cons_self (String.toList_eq_nil_iff.mp h)
    rw [List.flatMap_cons, List.append_eq_singleton_iff] at htext
    obtain ⟨hnil, -⟩ | ⟨hc, -⟩ := htext
    · exact absurd hnil hs
    · have heq : s = String.singleton c := by
        rw [← String.toList_inj, hc, String.toList_singleton]
      exact heq ▸ List.mem_cons_self

theorem join_notMem_emptySpellings (hd : g.Describable)
    (hone : ∀ s ∈ g.nonterminals ++ g.terminals, s.length = 1) (hb : b ∈ g.alternatives A)
    (hdeclared : ∀ s ∈ b, s ∈ g.nonterminals ++ g.terminals) :
    String.join b ∉ emptySpellings := by
  have hne : ∀ s ∈ b, s ≠ "" := fun s hs => (hd.symbols s (hdeclared s hs)).ne_empty
  have hsingle (c : Char) (hε : String.singleton c ∈ emptySpellings) :
      String.join b ≠ String.singleton c := fun h =>
    (hd.symbols _ (hdeclared _ (mem_of_join_eq hne h))).notEmptySpelling hε
  have hspelling := hd.spelling hone A b hb
  intro hε
  simp only [emptySpellings, List.mem_cons, List.not_mem_nil, or_false] at hε
  obtain h | h | h | h := hε
  · exact hsingle 'ε' (by decide) h
  · exact hsingle 'ϵ' (by decide) h
  · exact hspelling.1 h
  · exact hspelling.2 h

/-- Symbols that stand side by side, none of them blank, are read one by one. -/
theorem Declares.readBody_compact (hl : l.Declares g) (hd : g.Describable) (number : Nat)
    (hone : ∀ s ∈ g.nonterminals ++ g.terminals, s.length = 1) (hb : b ∈ g.alternatives A)
    (hdeclared : ∀ s ∈ b, s ∈ g.nonterminals ++ g.terminals) :
    l.readBody number (String.join b) = .ok b := by
  have hjoin := String.toList_join (l := b)
  apply readBody_of_split
  · exact join_notMem_emptySpellings hd hone hb hdeclared
  · intro c hc
    rw [hjoin] at hc
    obtain ⟨s, hs, hc⟩ := List.mem_flatMap.mp hc
    exact (hd.isWord (hdeclared s hs)).visible c hc
  · rw [hjoin]
    apply split?_characters
    · exact fun s hs => hone s (hl.mem_knownSymbols.mp hs)
    · exact fun s hs => hl.mem_knownSymbols.mpr (hdeclared s hs)

theorem Declares.readBody_symbol (hl : l.Declares g) (hd : g.Describable) (number : Nat)
    (hs : s ∈ g.nonterminals ++ g.terminals) : l.readBody number s = .ok [s] := by
  have hwritable := hd.symbols s hs
  apply readBody_of_split number hwritable.notEmptySpelling hwritable.word.visible
  exact split?_symbol (hl.mem_knownSymbols.mpr hs) hwritable.ne_empty

/-- Two symbols and more between blanks are words. -/
theorem readBody_spaced (hd : g.Describable) (number : Nat) {t : Symbol} {rest : Body}
    (hdeclared : ∀ x ∈ s :: t :: rest, x ∈ g.nonterminals ++ g.terminals) :
    l.readBody number (" ".intercalate (s :: t :: rest)) = .ok (s :: t :: rest) := by
  have htext : (" ".intercalate (s :: t :: rest)).toList =
      [' '].intercalate ((s :: t :: rest).map String.toList) := String.toList_intercalate
  have hspace : ' ' ∈ (" ".intercalate (s :: t :: rest)).toList := by
    rw [htext]
    simp [List.intercalate_cons_cons]
  have hwords : ∀ w ∈ (s :: t :: rest).map String.toList, IsWord w := by
    intro w hw
    obtain ⟨x, hx, rfl⟩ := List.mem_map.mp hw
    exact hd.isWord (hdeclared x hx)
  have hback : ((s :: t :: rest).map String.toList).map String.ofList = s :: t :: rest := by simp
  have hε : " ".intercalate (s :: t :: rest) ∉ emptySpellings := by
    have hnospace : ∀ spelling ∈ emptySpellings, ' ' ∉ spelling.toList := by decide
    exact fun hmem => hnospace _ hmem hspace
  rw [readBody_of_words number hε hspace, htext, words_intercalate hwords, hback]

/-- What is rendered is read back. -/
theorem Declares.readBody_renderBody (hl : l.Declares g) (hd : g.Describable) (hg : g.Valid) (number : Nat)
    (hb : b ∈ g.alternatives A) : l.readBody number (g.renderBody b) = .ok b := by
  have hdeclared := hg.declared hb
  by_cases hnil : b = []
  · subst hnil
    rfl
  rw [Grammar.renderBody, if_neg hnil]
  obtain ⟨hsep, hone⟩ | hsep := g.separator_cases
  · have hjoin : "".intercalate b = String.join b := by
      rw [← String.toList_inj, String.toList_intercalate, String.toList_join, String.toList_empty,
        nil_intercalate, List.flatMap_def]
    rw [hsep, hjoin]
    exact hl.readBody_compact hd number hone hb hdeclared
  · rw [hsep]
    match b with
    | [s] =>
      rw [String.intercalate_singleton]
      exact hl.readBody_symbol hd number (hdeclared s List.mem_cons_self)
    | s :: t :: rest => exact readBody_spaced hd number hdeclared

end Listing

end ContextFree
