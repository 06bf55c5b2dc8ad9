import ContextFree.Grammar.Basic
import ContextFree.Text.Quoted

/-!
The words of a grammar up to a length. A table holds the words found so far for each non-terminal; rounds
over all productions add to it until one adds nothing. No word is longer than the bound and all are made
of terminals, so there are finitely many to add, whatever the grammar.
-/
namespace ContextFree

inductive WordsError where
  | negativeLength
  | unknownSymbol (symbol : Symbol)
  deriving DecidableEq

def WordsError.message : WordsError → String
  | negativeLength => "max_length must be >= 0"
  | unknownSymbol symbol => Text.quoted symbol

abbrev WordTable := List (Symbol × List Word)

/-- The words of length at most `n` over `terminals`. -/
def allWords (terminals : List Symbol) : Nat → List Word
  | 0 => [[]]
  | n + 1 => [] :: terminals.flatMap fun a => (allWords terminals n).map (a :: ·)

theorem mem_allWords {terminals : List Symbol} {w : Word} {n : Nat} (hlen : w.length ≤ n)
    (hmem : ∀ s ∈ w, s ∈ terminals) : w ∈ allWords terminals n := by
  induction n generalizing w with
  | zero => simpa [allWords] using List.eq_nil_of_length_eq_zero (Nat.le_zero.mp hlen)
  | succ n ih =>
    cases w with
    | nil => simp [allWords]
    | cons a w =>
      simp only [allWords, List.mem_cons, reduceCtorEq, List.mem_flatMap, List.mem_map, false_or]
      exact ⟨a, hmem a List.mem_cons_self, w,
        ih (Nat.le_of_succ_le_succ hlen) fun s hs => hmem s (List.mem_cons_of_mem _ hs), rfl⟩

/-- A word of length at most `n` over the terminals of `g`. -/
def Bounded (g : Grammar) (n : Nat) (w : Word) : Prop :=
  w.length ≤ n ∧ ∀ s ∈ w, s ∈ g.terminals

namespace WordTable

/-- The number of words in all entries. -/
def size (t : WordTable) : Nat := t.foldr (fun e n => e.2.length + n) 0

/-- The table with `new` among the words of `A`. -/
def add (t : WordTable) (A : Symbol) (new : List Word) : WordTable :=
  t.map fun e => if e.1 = A then (e.1, distinct (e.2 ++ new)) else e

/-- Each entry holds bounded words, each once. -/
def Within (g : Grammar) (n : Nat) (t : WordTable) : Prop :=
  ∀ e ∈ t, e.2.Nodup ∧ ∀ w ∈ e.2, Bounded g n w

theorem length_add (t : WordTable) (A : Symbol) (new : List Word) : (t.add A new).length = t.length :=
  List.length_map _

theorem Within.add {g : Grammar} {n : Nat} {t : WordTable} (h : t.Within g n) (A : Symbol)
    {new : List Word} (hnew : ∀ w ∈ new, Bounded g n w) : (t.add A new).Within g n := by
  intro e he
  obtain ⟨old, hold, rfl⟩ := List.mem_map.mp he
  split
  · refine ⟨nodup_distinct _, fun w hw => ?_⟩
    rcases List.mem_append.mp (mem_distinct.mp hw) with hw | hw
    · exact (h old hold).2 w hw
    · exact hnew w hw
  · exact h old hold

theorem Within.size_le_add {g : Grammar} {n : Nat} {t : WordTable} (h : t.Within g n) (A : Symbol)
    (new : List Word) : t.size ≤ (t.add A new).size := by
  induction t with
  | nil => exact Nat.le_refl _
  | cons e t ih =>
    have hrest := ih fun e he => h e (List.mem_cons_of_mem _ he)
    have hone : e.2.length ≤ (if e.1 = A then (e.1, distinct (e.2 ++ new)) else e).2.length := by
      split
      · refine (h e List.mem_cons_self).1.length_le_of_subset fun w hw => ?_
        exact mem_distinct.mpr (List.mem_append_left _ hw)
      · exact Nat.le_refl _
    simp only [size, WordTable.add, List.map_cons, List.foldr_cons] at hrest ⊢
    omega

theorem Within.size_le {g : Grammar} {n : Nat} {t : WordTable} (h : t.Within g n) :
    t.size ≤ t.length * (allWords g.terminals n).length := by
  induction t with
  | nil => exact Nat.zero_le _
  | cons e t ih =>
    have hrest := ih fun e he => h e (List.mem_cons_of_mem _ he)
    have hone : e.2.length ≤ (allWords g.terminals n).length :=
      (h e List.mem_cons_self).1.length_le_of_subset fun w hw =>
        mem_allWords ((h e List.mem_cons_self).2 w hw).1 ((h e List.mem_cons_self).2 w hw).2
    simp only [size, List.foldr_cons, List.length_cons, Nat.succ_mul] at hrest ⊢
    omega

end WordTable

namespace Grammar

/-- The words that `body` adds to each word in `begun`, where non-terminals stand for their words in the
table. A symbol is only looked up while some beginning is left. -/
def bodyWords (g : Grammar) (n : Nat) (t : WordTable) (begun : List Word) :
    Body → Except Symbol (List Word)
  | [] => .ok begun
  | s :: rest =>
    match if g.isTerminal s then some [[s]] else t.lookup s with
    | none => .error s
    | some options =>
      let longer := distinct (begun.flatMap fun u =>
        (options.filter fun v => u.length + v.length ≤ n).map (u ++ ·))
      if longer = [] then .ok [] else g.bodyWords n t longer rest

/-- The table after each production has added its words, each seeing what those before it added. -/
def wordRound (g : Grammar) (n : Nat) (t : WordTable) :
    List (Symbol × Body) → Except Symbol WordTable
  | [] => .ok t
  | (A, body) :: rest =>
    match g.bodyWords n t [[]] body with
    | .error s => .error s
    | .ok new => g.wordRound n (t.add A new) rest

theorem bounded_of_mem_bodyWords {g : Grammar} {n : Nat} {t : WordTable} (ht : t.Within g n)
    {begun new : List Word} {body : Body} (hb : ∀ w ∈ begun, Bounded g n w)
    (h : g.bodyWords n t begun body = .ok new) : ∀ w ∈ new, Bounded g n w := by
  induction body generalizing begun with
  | nil => cases h; exact hb
  | cons s rest ih =>
    rw [bodyWords] at h
    split at h
    · cases h
    · rename_i options hopt
      have hoptions : ∀ v ∈ options, ∀ a ∈ v, a ∈ g.terminals := by
        split at hopt
        · rename_i hs
          cases hopt
          intro v hv a ha
          rw [List.mem_singleton.mp hv] at ha
          rw [List.mem_singleton.mp ha]
          exact isTerminal_iff.mp hs
        · obtain ⟨before, after, ht', _⟩ := List.lookup_eq_some_iff.mp hopt
          have hmem : (s, options) ∈ t := by rw [ht']; simp
          exact fun v hv => ((ht _ hmem).2 v hv).2
      dsimp only at h
      split at h
      · cases h; simp
      · refine ih ?_ h
        intro w hw
        simp only [mem_distinct, List.mem_flatMap, List.mem_map, List.mem_filter,
          decide_eq_true_eq] at hw
        obtain ⟨u, hu, v, ⟨hv, hlen⟩, rfl⟩ := hw
        refine ⟨by simpa using hlen, fun a ha => ?_⟩
        exact (List.mem_append.mp ha).elim ((hb u hu).2 a) (hoptions v hv a)

theorem wordRound_within {g : Grammar} {n : Nat} {t t' : WordTable} {ps : List (Symbol × Body)}
    (ht : t.Within g n) (h : g.wordRound n t ps = .ok t') :
    t'.Within g n ∧ t'.length = t.length ∧ t.size ≤ t'.size := by
  induction ps generalizing t with
  | nil => cases h; exact ⟨ht, rfl, Nat.le_refl _⟩
  | cons p ps ih =>
    obtain ⟨A, body⟩ := p
    rw [wordRound] at h
    split at h
    · cases h
    · rename_i new hnew
      have hstart : ∀ w ∈ ([[]] : List Word), Bounded g n w := by simp [Bounded]
      have hadd := ht.add A (bounded_of_mem_bodyWords ht hstart hnew)
      obtain ⟨hw, hlen, hsize⟩ := ih hadd h
      exact ⟨hw, hlen.trans (t.length_add A new), Nat.le_trans (ht.size_le_add A new) hsize⟩

/-- Rounds until one adds nothing. -/
def closeWords (g : Grammar) (n : Nat) (t : WordTable) (ht : t.Within g n) :
    Except Symbol WordTable :=
  match h : g.wordRound n t g.productions with
  | .error s => .error s
  | .ok t' =>
    if t'.size = t.size then .ok t' else g.closeWords n t' (wordRound_within ht h).1
termination_by t.length * (allWords g.terminals n).length - t.size
decreasing_by
  rename_i hgrown
  obtain ⟨hw, hlen, hsize⟩ := wordRound_within ht h
  have := hw.size_le
  rw [hlen] at this ⊢
  omega

/-- The words of length at most `n`, each once. -/
def wordsUpTo (g : Grammar) (n : Int) : Except WordsError (List Word) :=
  if n < 0 then .error .negativeLength
  else
    match g.closeWords n.toNat ((distinct g.nonterminals).map fun A => (A, []))
      (by simp [WordTable.Within]) with
    | .error s => .error (.unknownSymbol s)
    | .ok t =>
      match t.lookup g.start with
      | some words => .ok words
      | none => .error (.unknownSymbol g.start)

end Grammar

/-- Shorter words first, words of one length in the order of their symbols. -/
def shorterFirst (u v : Word) : Bool :=
  if u.length = v.length then Body.le u v else decide (u.length < v.length)

end ContextFree
