import ContextFree.NameSupply

/-!
What a supply hands out is not registered, and is registered from then on. The search for a free index
ends at one whose name is not taken, since names of different indices differ.
-/
namespace ContextFree.NameSupply

variable {supply : NameSupply} {stem : String} {taken : List Symbol} {m n : Nat} {s t : Symbol}

theorem indexed_inj : indexed stem m = indexed stem n ↔ m = n := by
  refine ⟨fun h => ?_, fun h => h ▸ rfl⟩
  have hdigits : Nat.toDigits 10 m = Nat.toDigits 10 n := by
    simpa [indexed, Nat.toString_eq_ofList_toDigits] using congrArg String.toList h
  rw [← Nat.ofDigitChars_ten_toDigits (n := m), hdigits, Nat.ofDigitChars_ten_toDigits]

theorem le_freeIndex (stem : String) (taken : List Symbol) (n : Nat) :
    n ≤ freeIndex stem taken n := by
  fun_induction freeIndex stem taken n with
  | case1 taken n h ih => omega
  | case2 => exact Nat.le_refl _

theorem indexed_freeIndex_notMem (stem : String) (taken : List Symbol) (n : Nat) :
    indexed stem (freeIndex stem taken n) ∉ taken := by
  fun_induction freeIndex stem taken n with
  | case1 taken n h ih =>
    intro hmem
    -- The name that was struck off belongs to an index below the one that is found.
    have hlate := le_freeIndex stem (taken.erase (indexed stem n)) (n + 1)
    refine ih ((List.mem_erase_of_ne fun he => ?_).mpr hmem)
    have := indexed_inj.mp he
    omega
  | case2 taken n h => exact h

theorem allocate_notMem (supply : NameSupply) : supply.allocate.1 ∉ supply.registered := by
  unfold allocate
  split
  · rename_i name later heq
    have hhead := List.head_dropWhile_not supply.isRegistered
      (by rw [heq]; exact List.cons_ne_nil name later)
    simpa [heq, isRegistered] using hhead
  · exact indexed_freeIndex_notMem _ _ _

theorem registered_allocate (supply : NameSupply) :
    supply.allocate.2.registered = supply.registered ++ [supply.allocate.1] := by
  unfold allocate
  split <;> rfl

theorem mem_registered_register :
    s ∈ (supply.register t).registered ↔ s ∈ supply.registered ∨ s = t := by
  unfold register
  split
  · rename_i h
    have : t ∈ supply.registered := by simpa [isRegistered] using h
    constructor
    · exact .inl
    · rintro (h | rfl)
      · exact h
      · exact this
  · simp

/-- Every symbol of a grammar is registered. -/
def Covers (supply : NameSupply) (g : Grammar) : Prop :=
  (∀ s ∈ g.nonterminals, s ∈ supply.registered) ∧ ∀ s ∈ g.terminals, s ∈ supply.registered

theorem forGrammarWith_covers (g : Grammar) (letters : List Symbol) (stem : String) :
    (forGrammarWith g letters stem).Covers g := by
  constructor <;> intro s hs <;> simp [forGrammarWith, create, hs]

/-- A supply that covers a grammar covers any other one with fewer symbols. -/
theorem Covers.of_subset {g h : Grammar} (hs : supply.Covers g)
    (hn : ∀ A ∈ h.nonterminals, A ∈ g.nonterminals) (ht : h.terminals = g.terminals) :
    supply.Covers h :=
  ⟨fun s hmem => hs.1 s (hn s hmem), fun s hmem => hs.2 s (ht ▸ hmem)⟩

end ContextFree.NameSupply
