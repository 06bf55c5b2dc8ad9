import ContextFree.Proofs.Reading
import ContextFree.Proofs.NameSupply
import ContextFree.NormalForm.StartEpsilon

/-!
Putting the empty word back. Whether the old start is kept or a fresh one takes its place, the start
afterwards has the bodies of the old one and the empty body, occurs in no body, and nothing else changes
(`addStartEpsilon_spec`). Hence the grammar gains the empty word and no other.
-/
namespace ContextFree

variable {g h : Grammar} {A : Symbol} {b : Body} {w : Word} {supply : NameSupply}

/-- `h` is `g` with the bodies of its start, and the empty body, under a start that occurs in no body. -/
structure WithStartEpsilon (g h : Grammar) : Prop where
  terminals : h.terminals = g.terminals
  nonterminals : ∀ A, A ∈ h.nonterminals ↔ A = h.start ∨ A ∈ g.nonterminals
  start : h.start = g.start ∨ h.start ∉ g.nonterminals
  start_notMem : h.start ∉ g.terminals
  keys : ∀ A, A ∈ h.rules.keys ↔ A = h.start ∨ A ∈ g.rules.keys
  startBodies : ∀ b, b ∈ h.alternatives h.start ↔ b = [] ∨ b ∈ g.alternatives g.start
  others : ∀ A, A ≠ h.start → h.alternatives A = g.alternatives A
  apart : ∀ A, ∀ b ∈ g.alternatives A, h.start ∉ b

namespace Grammar

theorem startOccurs_iff : g.startOccurs = true ↔ ∃ A, ∃ b ∈ g.alternatives A, g.start ∈ b := by
  rw [startOccurs, List.contains_iff_mem, mem_bodySymbols]

theorem mem_startBodies : b ∈ g.startBodies ↔ b = [] ∨ b ∈ g.alternatives g.start :=
  Alternatives.mem_insert

/-- The grammar with a fresh start that takes the bodies of the old one over. -/
def withFreshStart (g : Grammar) (fresh : Symbol) : Grammar :=
  g.replace (some (fresh :: g.nonterminals))
    (some ((Rules.empty.insert fresh g.startBodies).insertAll g.rules.entries)) (some fresh)

theorem addStartEpsilon_cases (g : Grammar) (supply : NameSupply) :
    (g.startOccurs = true ∧ g.addStartEpsilon supply =
        (g.withFreshStart supply.allocate.1, supply.allocate.2)) ∨
      (¬ g.startOccurs = true ∧ g.addStartEpsilon supply =
        ({ g with rules := g.rules.insert g.start g.startBodies }, supply)) := by
  unfold addStartEpsilon
  split
  · rename_i hocc
    exact .inl ⟨hocc, rfl⟩
  · rename_i hocc
    exact .inr ⟨hocc, rfl⟩

theorem withFreshStart_spec {fresh : Symbol} (hg : g.Valid) (hn : fresh ∉ g.nonterminals)
    (ht : fresh ∉ g.terminals) : WithStartEpsilon g (g.withFreshStart fresh) := by
  have hget (A : Symbol) : (g.withFreshStart fresh).rules.get? A =
      (g.rules.get? A).or (if A = fresh then some g.startBodies else none) := by
    change ((Rules.empty.insert fresh g.startBodies).insertAll g.rules.entries).get? A = _
    rw [Rules.get?_insertAll g.rules.nodup_keys, Rules.get?_insert, Rules.get?_empty]
    rfl
  have hnone : g.rules.get? fresh = none := by
    have hkey : fresh ∉ g.rules.keys := fun hX => hn (hg.lhs_mem fresh hX)
    simpa [Rules.mem_keys_iff] using hkey
  have hkeys (A : Symbol) :
      A ∈ (g.withFreshStart fresh).rules.keys ↔ A = fresh ∨ A ∈ g.rules.keys := by
    rw [Rules.mem_keys_iff, Rules.mem_keys_iff, hget]
    by_cases hA : A = fresh <;> simp [hA]
  have hstart : (g.withFreshStart fresh).alternatives fresh = g.startBodies := by
    rw [alternatives, Rules.alternatives, hget, hnone, if_pos rfl]
    rfl
  have hothers (A : Symbol) (hA : A ≠ fresh) :
      (g.withFreshStart fresh).alternatives A = g.alternatives A := by
    rw [alternatives, Rules.alternatives, hget, if_neg hA, Option.or_none]
    rfl
  have hbodies (b : Body) :
      b ∈ (g.withFreshStart fresh).alternatives fresh ↔ b = [] ∨ b ∈ g.alternatives g.start := by
    rw [hstart]
    exact mem_startBodies
  exact {
    terminals := rfl
    nonterminals := fun A => mem_distinct.trans List.mem_cons
    start := .inr hn
    start_notMem := ht
    keys := hkeys
    startBodies := hbodies
    others := hothers
    apart := fun A b hb hX => (hg.body_mem A b hb fresh hX).elim hn ht }

/-- The old start stays if it occurs in no body. -/
theorem keptStart_spec (hg : g.Valid) (hocc : ¬ g.startOccurs = true) :
    WithStartEpsilon g { g with rules := g.rules.insert g.start g.startBodies } where
  terminals := rfl
  nonterminals A := ⟨.inr, fun hA => hA.elim (fun e => e ▸ hg.start_mem) id⟩
  start := .inl rfl
  start_notMem := hg.disjoint _ hg.start_mem
  keys A := Rules.mem_keys_insert
  startBodies b := by
    simpa [alternatives] using mem_startBodies
  others A hA := by
    change (g.rules.insert g.start g.startBodies).alternatives A = _
    rw [Rules.alternatives_insert, if_neg hA]
    rfl
  apart A b hb hstart := hocc (startOccurs_iff.mpr ⟨A, b, hb, hstart⟩)

theorem addStartEpsilon_spec (hg : g.Valid) (hs : supply.Covers g) :
    WithStartEpsilon g (g.addStartEpsilon supply).1 := by
  have hnew := NameSupply.allocate_notMem supply
  cases g.addStartEpsilon_cases supply with
  | inl h =>
    rw [h.2]
    exact withFreshStart_spec hg (fun hX => hnew (hs.1 _ hX)) fun hX => hnew (hs.2 _ hX)
  | inr h =>
    rw [h.2]
    exact keptStart_spec hg h.1

theorem addStartEpsilon_covers (hs : supply.Covers g) :
    (g.addStartEpsilon supply).2.Covers (g.addStartEpsilon supply).1 := by
  cases g.addStartEpsilon_cases supply with
  | inl h =>
    rw [h.2]
    have hmem (s : Symbol) : s ∈ supply.allocate.2.registered ↔
        s ∈ supply.registered ∨ s = supply.allocate.1 := by
      rw [NameSupply.registered_allocate, List.mem_append, List.mem_singleton]
    constructor
    · intro s hs'
      have hor : s = supply.allocate.1 ∨ s ∈ g.nonterminals :=
        List.mem_cons.mp (mem_distinct.mp hs')
      exact (hmem s).mpr (hor.symm.imp_left (hs.1 s))
    · intro s hs'
      exact (hmem s).mpr (.inl (hs.2 s hs'))
  | inr h =>
    rw [h.2]
    exact hs

end Grammar

namespace WithStartEpsilon

/-- Every body is the empty one of the start, or a body of the grammar before. -/
theorem mem_alternatives (hh : WithStartEpsilon g h) (hb : b ∈ h.alternatives A) :
    (A = h.start ∧ b = []) ∨ ∃ B, b ∈ g.alternatives B := by
  by_cases hA : A = h.start
  · subst hA
    cases (hh.startBodies b).mp hb with
    | inl hempty => exact .inl ⟨rfl, hempty⟩
    | inr hold => exact .inr ⟨g.start, hold⟩
  · rw [hh.others A hA] at hb
    exact .inr ⟨A, hb⟩

theorem valid (hg : g.Valid) (hh : WithStartEpsilon g h) : h.Valid where
  disjoint A hA := by
    rw [hh.terminals]
    cases (hh.nonterminals A).mp hA with
    | inl hstart => exact hstart ▸ hh.start_notMem
    | inr hold => exact hg.disjoint A hold
  start_mem := (hh.nonterminals _).mpr (.inl rfl)
  lhs_mem A hA := by
    have hkey := (hh.keys A).mp hA
    exact (hh.nonterminals A).mpr (hkey.imp_right (hg.lhs_mem A))
  body_mem A b hb s hs := by
    obtain ⟨-, rfl⟩ | ⟨B, hb⟩ := hh.mem_alternatives hb
    · cases hs
    · have hold := hg.body_mem B b hb s hs
      rw [hh.terminals]
      exact hold.imp_left fun hs => (hh.nonterminals s).mpr (.inr hs)

theorem start_notMem_body (hh : WithStartEpsilon g h) (hb : b ∈ h.alternatives A) :
    h.start ∉ b := by
  obtain ⟨-, rfl⟩ | ⟨B, hb⟩ := hh.mem_alternatives hb
  · exact List.not_mem_nil
  · exact hh.apart B b hb

/-- A body without the start keeps its words. -/
theorem yields_iff (hh : WithStartEpsilon g h) (hb : h.start ∉ b) : Yields h b w ↔ Yields g b w := by
  have hkeep {A : Symbol} {c : Body} (hc : c ∈ g.alternatives A) : ∀ s ∈ c, s ≠ h.start := by
    rintro s hs rfl
    exact hh.apart A c hc hs
  have hbody : ∀ s ∈ b, s ≠ h.start := by
    rintro s hs rfl
    exact hb hs
  constructor
  · intro hy
    apply hy.transfer (· ≠ h.start) (fun a ha _ => hh.terminals ▸ ha) _ hbody
    intro A hA hne c hc w _
    rw [hh.others A hne] at hc
    have hold : A ∈ g.nonterminals := ((hh.nonterminals A).mp hA).resolve_left hne
    exact ⟨hkeep hc, generates_of_body hold hc⟩
  · intro hy
    apply hy.transfer (· ≠ h.start) (fun a ha _ => hh.terminals ▸ ha) _ hbody
    intro A hA hne c hc w _
    have hnew : A ∈ h.nonterminals := (hh.nonterminals A).mpr (.inr hA)
    exact ⟨hkeep hc, generates_of_body hnew (hh.others A hne ▸ hc)⟩

theorem accepts_iff (hg : g.Valid) (hh : WithStartEpsilon g h) :
    h.Accepts w ↔ g.Accepts w ∨ w = [] := by
  have hh' := hh.valid hg
  rw [Grammar.Accepts, Grammar.Accepts, hh'.generates_iff hh'.start_mem,
    hg.generates_iff hg.start_mem]
  constructor
  · rintro ⟨b, hb, hy⟩
    cases (hh.startBodies b).mp hb with
    | inl hempty =>
      subst hempty
      cases hy
      exact .inr rfl
    | inr hold => exact .inl ⟨b, hold, (hh.yields_iff (hh.apart _ b hold)).mp hy⟩
  · rintro (⟨b, hb, hy⟩ | rfl)
    · exact ⟨b, (hh.startBodies b).mpr (.inr hb), (hh.yields_iff (hh.apart _ b hb)).mpr hy⟩
    · exact ⟨[], (hh.startBodies []).mpr (.inl rfl), .nil⟩

end WithStartEpsilon

end ContextFree
