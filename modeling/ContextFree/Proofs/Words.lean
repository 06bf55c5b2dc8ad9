import ContextFree.Proofs.Reading
import ContextFree.Words

/-!
The words up to a length. A body reads the words that its symbols have in the table, as far as they are not
too long (`mem_bodyWords_iff`). What the table holds is always generated; and once a round over all
productions adds nothing, it holds whatever they read (`WordTable.Closed`), so that no word which is short
enough is missing. Both together make the enumeration exact.
-/
namespace ContextFree

variable {g : Grammar} {n : Nat} {t t' : WordTable} {A B s : Symbol} {b : Body} {w : Word}
  {new words : List Word} {ps : List (Symbol × Body)}

theorem Reads.of_length_le {Q : Symbol → Word → Prop}
    (hr : Reads (fun s u => u.length ≤ n → Q s u) b w) (hw : w.length ≤ n) : Reads Q b w := by
  induction hr with
  | nil => exact .nil
  | cons head _ ih =>
    rw [List.length_append] at hw
    exact .cons (head (by omega)) (ih (by omega))

namespace WordTable

/-- `w` is among the words of `A`. -/
def Holds (t : WordTable) (A : Symbol) (w : Word) : Prop := ∃ words, t.lookup A = some words ∧ w ∈ words

/-- What a symbol of a body stands for: a terminal for itself, any other symbol for its words. -/
def Meaning (g : Grammar) (t : WordTable) (s : Symbol) (w : Word) : Prop :=
  if s ∈ g.terminals then w = [s] else t.Holds s w

/-- Every non-terminal has an entry. -/
def Lists (g : Grammar) (t : WordTable) : Prop := ∀ A ∈ g.nonterminals, ∃ words, t.lookup A = some words

/-- Every word that is held is generated. -/
def Sound (g : Grammar) (t : WordTable) : Prop := ∀ A w, t.Holds A w → g.Generates A w

/-- The words that a body reads are held, unless they are too long. -/
def Closed (g : Grammar) (n : Nat) (t : WordTable) : Prop :=
  ∀ p ∈ g.productions, ∀ w, w.length ≤ n → Reads (t.Meaning g) p.2 w → t.Holds p.1 w

theorem lookup_add (t : WordTable) (A B : Symbol) (new : List Word) :
    (t.add A new).lookup B =
      (t.lookup B).map fun old => if B = A then distinct (old ++ new) else old := by
  induction t with
  | nil => rfl
  | cons e t ih =>
    obtain ⟨C, old⟩ := e
    have hentry : (if C = A then (C, distinct (old ++ new)) else (C, old)) =
        (C, if C = A then distinct (old ++ new) else old) := by
      split <;> rfl
    rw [WordTable.add, List.map_cons, hentry, lookup_cons_eq, lookup_cons_eq]
    split
    · rename_i hB
      subst hB
      rfl
    · exact ih

theorem holds_add : (t.add A new).Holds B w ↔
    t.Holds B w ∨ B = A ∧ w ∈ new ∧ ∃ words, t.lookup A = some words := by
  unfold Holds
  rw [lookup_add]
  cases hB : t.lookup B with
  | none =>
    constructor
    · simp
    · rintro (⟨words, hw, -⟩ | ⟨rfl, -, words, hw⟩)
      · cases hw
      · rw [hB] at hw
        cases hw
  | some old =>
    by_cases hA : B = A
    · subst hA
      simp [hB]
    · simp [hA]

theorem Lists.add (h : t.Lists g) (A : Symbol) (new : List Word) : (t.add A new).Lists g := by
  intro B hB
  obtain ⟨words, hw⟩ := h B hB
  exact ⟨_, by rw [lookup_add, hw]; rfl⟩

/-- An entry that does not grow had every word before. -/
theorem Within.mem_of_size_eq (h : t.Within g n) (hsize : (t.add A new).size = t.size)
    (hA : t.lookup A = some words) : ∀ w ∈ new, w ∈ words := by
  induction t with
  | nil => cases hA
  | cons e t ih =>
    obtain ⟨hnodup, -⟩ := h e List.mem_cons_self
    have hrest : WordTable.Within g n t := fun e he => h e (List.mem_cons_of_mem _ he)
    have htail := hrest.size_le_add A new
    obtain ⟨C, old⟩ := e
    rw [lookup_cons_eq] at hA
    split at hA
    · rename_i hC
      subst hC
      cases hA
      intro w hw
      by_contra hnew
      -- One word more than there was would fit among the words afterwards.
      have hmore : (w :: words).length ≤ (distinct (words ++ new)).length := by
        refine (List.nodup_cons.mpr ⟨hnew, hnodup⟩).length_le_of_subset fun v hv => ?_
        rw [mem_distinct, List.mem_append]
        obtain rfl | hv := List.mem_cons.mp hv
        · exact .inr hw
        · exact .inl hv
      simp [size, WordTable.add] at hsize hmore htail
      omega
    · rename_i hC
      refine ih hrest ?_ hA
      simp only [size, WordTable.add, List.map_cons, List.foldr_cons, if_neg (Ne.symm hC)] at hsize
      exact Nat.add_left_cancel hsize

end WordTable

namespace Grammar

/-! ## One body -/

/-- The words that are looked up for a symbol. -/
def options (g : Grammar) (t : WordTable) (s : Symbol) : Option (List Word) :=
  if g.isTerminal s then some [[s]] else t.lookup s

theorem mem_options (h : g.options t s = some words) : w ∈ words ↔ t.Meaning g s w := by
  unfold options at h
  unfold WordTable.Meaning
  split at h
  · rename_i hs
    cases h
    rw [if_pos (isTerminal_iff.mp hs), List.mem_singleton]
  · rename_i hs
    rw [if_neg (by simpa using hs)]
    constructor
    · exact fun hw => ⟨words, h, hw⟩
    · rintro ⟨words', h', hw⟩
      rw [h] at h'
      cases h'
      exact hw

/-- The words begun, each with a word of the next symbol put after it if there is room. -/
def extended (n : Nat) (begun words : List Word) : List Word :=
  distinct (begun.flatMap fun u =>
    (words.filter fun v => u.length + v.length ≤ n).map (u ++ ·))

theorem mem_extended {begun : List Word} : w ∈ extended n begun words ↔
    ∃ u ∈ begun, ∃ v ∈ words, w = u ++ v ∧ w.length ≤ n := by
  simp only [extended, mem_distinct, List.mem_flatMap, List.mem_map, List.mem_filter,
    decide_eq_true_eq]
  constructor
  · rintro ⟨u, hu, v, ⟨hv, hlen⟩, rfl⟩
    exact ⟨u, hu, v, hv, rfl, by rwa [List.length_append]⟩
  · rintro ⟨u, hu, v, hv, rfl, hlen⟩
    rw [List.length_append] at hlen
    exact ⟨u, hu, v, ⟨hv, hlen⟩, rfl⟩

theorem bodyWords_cons {begun : List Word} (h : g.options t s = some words) :
    g.bodyWords n t begun (s :: b) =
      if extended n begun words = [] then .ok []
      else g.bodyWords n t (extended n begun words) b := by
  unfold options at h
  rw [bodyWords, h]
  rfl

theorem bodyWords_isOk (h : ∀ s ∈ b, ∃ words, g.options t s = some words) (n : Nat)
    (begun : List Word) : ∃ new, g.bodyWords n t begun b = .ok new := by
  induction b generalizing begun with
  | nil => exact ⟨begun, rfl⟩
  | cons s b ih =>
    obtain ⟨⟨words, hs⟩, hb⟩ := List.forall_mem_cons.mp h
    rw [bodyWords_cons hs]
    split
    · exact ⟨[], rfl⟩
    · exact ih hb _

/-- A body adds to each word begun what it reads, as long as that fits. -/
theorem mem_bodyWords_iff {begun : List Word}
    (hoptions : ∀ s ∈ b, ∃ words, g.options t s = some words)
    (hbegun : ∀ u ∈ begun, u.length ≤ n) (h : g.bodyWords n t begun b = .ok new) :
    w ∈ new ↔ w.length ≤ n ∧ ∃ u ∈ begun, ∃ v, w = u ++ v ∧ Reads (t.Meaning g) b v := by
  induction b generalizing begun with
  | nil =>
    cases h
    constructor
    · intro hw
      exact ⟨hbegun w hw, w, hw, [], (List.append_nil w).symm, .nil⟩
    · rintro ⟨-, u, hu, v, rfl, hv⟩
      rw [reads_nil_iff] at hv
      subst hv
      rwa [List.append_nil]
  | cons s b ih =>
    obtain ⟨⟨words, hs⟩, hb⟩ := List.forall_mem_cons.mp hoptions
    rw [bodyWords_cons hs] at h
    have hlonger : ∀ u ∈ extended n begun words, u.length ≤ n := by
      intro u hu
      obtain ⟨_, _, _, _, -, hlen⟩ := mem_extended.mp hu
      exact hlen
    -- If nothing is left after the first symbol, then nothing that begins with it fits.
    have hrest : w ∈ new ↔ w.length ≤ n ∧
        ∃ u ∈ extended n begun words, ∃ v, w = u ++ v ∧ Reads (t.Meaning g) b v := by
      split at h
      · rename_i hnone
        cases h
        simp [hnone]
      · exact ih hb hlonger h
    rw [hrest]
    refine and_congr_right fun hlen => ?_
    constructor
    · rintro ⟨x, hx, v, rfl, hv⟩
      obtain ⟨u, hu, v₁, hv₁, rfl, -⟩ := mem_extended.mp hx
      exact ⟨u, hu, v₁ ++ v, List.append_assoc .., .cons ((mem_options hs).mp hv₁) hv⟩
    · rintro ⟨u, hu, v, rfl, hv⟩
      obtain ⟨v₁, v₂, rfl, hv₁, hv₂⟩ := reads_cons_iff.mp hv
      rw [← List.append_assoc] at hlen
      have hfits : (u ++ v₁).length ≤ n := by
        rw [List.length_append] at hlen
        omega
      refine ⟨u ++ v₁, mem_extended.mpr ⟨u, hu, v₁, (mem_options hs).mpr hv₁, rfl, hfits⟩, v₂, ?_, hv₂⟩
      exact (List.append_assoc ..).symm

/-! ## Rounds -/

theorem exists_options (hg : g.Valid) (hl : t.Lists g) (hb : b ∈ g.alternatives A) :
    ∀ s ∈ b, ∃ words, g.options t s = some words := by
  intro s hs
  unfold options
  split
  · exact ⟨[[s]], rfl⟩
  · rename_i hterminal
    have hs := (hg.body_mem A b hb s hs).resolve_right (by simpa using hterminal)
    exact hl s hs

/-- What a production adds to the words of its left side. -/
theorem exists_bodyWords (hg : g.Valid) (hl : t.Lists g) (hb : b ∈ g.alternatives A) (n : Nat) :
    ∃ new, g.bodyWords n t [[]] b = .ok new ∧
      ∀ w, w ∈ new ↔ w.length ≤ n ∧ Reads (t.Meaning g) b w := by
  have hoptions := exists_options hg hl hb
  obtain ⟨new, hnew⟩ := bodyWords_isOk hoptions n [[]]
  refine ⟨new, hnew, fun w => ?_⟩
  rw [mem_bodyWords_iff hoptions (by simp) hnew]
  simp

theorem wordRound_cons (h : g.bodyWords n t [[]] b = .ok new) :
    g.wordRound n t ((A, b) :: ps) = g.wordRound n (t.add A new) ps := by
  rw [wordRound, h]

end Grammar

namespace WordTable

open Grammar

theorem Sound.yields (hs : t.Sound g) (hr : Reads (t.Meaning g) b w) : Yields g b w := by
  refine yields_iff_reads.mpr (hr.imp fun s _ u hu => ?_)
  unfold Meaning at hu
  split at hu
  · rename_i hterminal
    subst hu
    exact generates_terminal hterminal
  · exact hs s u hu

theorem Sound.add (hs : t.Sound g) (hA : A ∈ g.nonterminals) (hb : b ∈ g.alternatives A)
    (hnew : ∀ w ∈ new, Reads (t.Meaning g) b w) : (t.add A new).Sound g := by
  intro B w hw
  obtain hw | ⟨rfl, hw, -⟩ := holds_add.mp hw
  · exact hs B w hw
  · exact generates_of_body hA hb (hs.yields (hnew w hw))

/-- A table on the way: bounded words, an entry for each non-terminal, no word that is not generated. -/
structure Begun (g : Grammar) (n : Nat) (t : WordTable) : Prop where
  within : t.Within g n
  lists : t.Lists g
  sound : t.Sound g

theorem Begun.add (h : t.Begun g n) (hA : A ∈ g.nonterminals) (hb : b ∈ g.alternatives A)
    (hnew : ∀ w, w ∈ new ↔ w.length ≤ n ∧ Reads (t.Meaning g) b w) : (t.add A new).Begun g n where
  within := h.within.add A fun w hw =>
    ⟨((hnew w).mp hw).1, (h.sound.yields ((hnew w).mp hw).2).terminal_of_mem⟩
  lists := h.lists.add A new
  sound := h.sound.add hA hb fun w hw => ((hnew w).mp hw).2

theorem Begun.round (hg : g.Valid) (h : t.Begun g n) (hps : ∀ p ∈ ps, p ∈ g.productions) :
    ∃ t', g.wordRound n t ps = .ok t' ∧ t'.Begun g n := by
  induction ps generalizing t with
  | nil => exact ⟨t, rfl, h⟩
  | cons p ps ih =>
    obtain ⟨hp, hrest⟩ := List.forall_mem_cons.mp hps
    obtain ⟨A, b⟩ := p
    obtain ⟨hA, hb⟩ := mem_productions.mp hp
    obtain ⟨new, hok, hnew⟩ := exists_bodyWords hg h.lists hb n
    rw [wordRound_cons hok]
    exact ih (h.add hA hb hnew) hrest

theorem meaning_congr (h : ∀ A w, t'.Holds A w ↔ t.Holds A w) : t'.Meaning g = t.Meaning g := by
  funext s w
  unfold Meaning
  rw [propext (h s w)]

/-- A round that adds nothing found everything that the bodies read. -/
theorem Begun.of_size_eq (hg : g.Valid) (h : t.Begun g n) (hps : ∀ p ∈ ps, p ∈ g.productions)
    (hround : g.wordRound n t ps = .ok t') (hsize : t'.size = t.size) :
    (∀ A w, t'.Holds A w ↔ t.Holds A w) ∧
      ∀ p ∈ ps, ∀ w, w.length ≤ n → Reads (t.Meaning g) p.2 w → t.Holds p.1 w := by
  induction ps generalizing t with
  | nil =>
    cases hround
    exact ⟨fun _ _ => Iff.rfl, by simp⟩
  | cons p ps ih =>
    obtain ⟨hp, hrest⟩ := List.forall_mem_cons.mp hps
    obtain ⟨A, b⟩ := p
    obtain ⟨hA, hb⟩ := mem_productions.mp hp
    obtain ⟨new, hok, hnew⟩ := exists_bodyWords hg h.lists hb n
    rw [wordRound_cons hok] at hround
    have hadd := h.add hA hb hnew
    -- Sizes only grow, so the first production did not add anything either.
    have hgrow : t.size ≤ (t.add A new).size := h.within.size_le_add A new
    have hlater : (t.add A new).size ≤ t'.size := (wordRound_within hadd.within hround).2.2
    obtain ⟨words, hwords⟩ := h.lists A hA
    have hold : ∀ w ∈ new, t.Holds A w := fun w hw =>
      ⟨words, hwords, h.within.mem_of_size_eq (by omega) hwords w hw⟩
    have hsame : ∀ B w, (t.add A new).Holds B w ↔ t.Holds B w := by
      intro B w
      rw [holds_add]
      constructor
      · rintro (hw | ⟨rfl, hw, -⟩)
        · exact hw
        · exact hold w hw
      · exact .inl
    obtain ⟨hholds, hclosed⟩ := ih hadd hrest hround (by omega)
    refine ⟨fun B w => (hholds B w).trans (hsame B w), List.forall_mem_cons.mpr ⟨?_, ?_⟩⟩
    · exact fun w hlen hr => hold w ((hnew w).mpr ⟨hlen, hr⟩)
    · intro q hq w hlen hr
      rw [← meaning_congr hsame] at hr
      exact (hsame _ _).mp (hclosed q hq w hlen hr)

/-- Rounds end at a table to which no production adds anything. -/
theorem Begun.close (hg : g.Valid) (h : t.Begun g n) :
    ∃ t', g.closeWords n t h.within = .ok t' ∧ t'.Begun g n ∧ t'.Closed g n := by
  have hall : ∀ p ∈ g.productions, p ∈ g.productions := fun _ hp => hp
  generalize hwithin : h.within = within
  fun_induction g.closeWords n t within with
  | case1 t within s herror =>
    obtain ⟨t', hok, -⟩ := h.round hg hall
    rw [herror] at hok
    cases hok
  | case2 t within t' hround hsize =>
    obtain ⟨t'', hok, hbegun⟩ := h.round hg hall
    rw [hround] at hok
    cases hok
    obtain ⟨hholds, hclosed⟩ := h.of_size_eq hg hall hround hsize
    refine ⟨t', rfl, hbegun, fun p hp w hlen hr => ?_⟩
    rw [meaning_congr hholds] at hr
    exact (hholds _ _).mpr (hclosed p hp w hlen hr)
  | case3 t within t' hround hsize ih =>
    obtain ⟨t'', hok, hbegun⟩ := h.round hg hall
    rw [hround] at hok
    cases hok
    exact ih hbegun rfl

/-- A table that no production adds to holds every word that is short enough. -/
theorem Closed.holds (hg : g.Valid) (hc : t.Closed g n) (hA : A ∈ g.nonterminals)
    (hy : g.Generates A w) (hlen : w.length ≤ n) : t.Holds A w := by
  have hr : Reads (fun s u => u.length ≤ n → t.Meaning g s u) [A] w := by
    refine hy.interpret (fun a ha _ => ?_) fun B hB c hc' u _ hr hu => ?_
    · rw [Meaning, if_pos ha]
    · rw [Meaning, if_neg (hg.disjoint B hB)]
      exact hc (B, c) (mem_productions.mpr ⟨hB, hc'⟩) u hu (hr.of_length_le hu)
  obtain ⟨u, v, rfl, hu, hv⟩ := reads_cons_iff.mp hr
  rw [reads_nil_iff] at hv
  subst hv
  rw [List.append_nil] at hlen ⊢
  have hmeaning := hu hlen
  rwa [Meaning, if_neg (hg.disjoint A hA)] at hmeaning

end WordTable

namespace Grammar

/-- The table without words. -/
theorem begun_noWords (g : Grammar) (n : Nat) :
    WordTable.Begun g n ((distinct g.nonterminals).map fun A => (A, [])) := by
  refine ⟨by simp [WordTable.Within], fun A hA => ⟨[], ?_⟩, fun A w hw => ?_⟩
  · rw [lookup_map_eq, if_pos (mem_distinct.mpr hA)]
  · obtain ⟨words, hwords, hw⟩ := hw
    rw [lookup_map_eq] at hwords
    split at hwords
    · cases hwords
      cases hw
    · cases hwords

/-- **The enumeration is exact.** It ends, and lists each word of the language once, up to the length. -/
theorem wordsUpTo_exact (hg : g.validate = .ok ()) (n : Nat) :
    ∃ words, g.wordsUpTo n = .ok words ∧ words.Nodup ∧
      ∀ w, w ∈ words ↔ w ∈ g.language ∧ w.length ≤ n := by
  have hvalid : g.Valid := validate_eq_ok_iff.mp hg
  obtain ⟨t, hclose, hbegun, hclosed⟩ := (g.begun_noWords n).close hvalid
  obtain ⟨words, hwords⟩ := hbegun.lists g.start hvalid.start_mem
  have hok : g.wordsUpTo n = .ok words := by
    have hpos : ¬ (n : Int) < 0 := by omega
    simp only [wordsUpTo, if_neg hpos, Int.toNat_natCast, hclose, hwords]
  have hentry : (g.start, words) ∈ t := by
    obtain ⟨before, after, heq, -⟩ := List.lookup_eq_some_iff.mp hwords
    rw [heq]
    simp
  obtain ⟨hnodup, hbounded⟩ := hbegun.within _ hentry
  refine ⟨words, hok, hnodup, fun w => ?_⟩
  rw [mem_language_iff]
  constructor
  · intro hw
    exact ⟨hbegun.sound g.start w ⟨words, hwords, hw⟩, (hbounded w hw).1⟩
  · rintro ⟨hy, hlen⟩
    obtain ⟨words', hwords', hw⟩ := hclosed.holds hvalid hvalid.start_mem hy hlen
    rw [hwords] at hwords'
    cases hwords'
    exact hw

theorem wordsUpTo_exact_nested : ∃ words, nested.wordsUpTo 4 = .ok words ∧ words.Nodup ∧
    ∀ w, w ∈ words ↔ w ∈ nested.language ∧ w.length ≤ 4 :=
  wordsUpTo_exact nested_validate 4

end Grammar

end ContextFree
