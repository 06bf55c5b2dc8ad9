import ContextFree.Proofs.Exactness

/-!
What the analyses find. A set that is grown from the bodies of non-terminals is the least one of its kind,
so more non-terminals and more bodies can only make it larger (`supported_mono`), and the order in which a
round visits them does not show in it (`supported_congr`). For nullable non-terminals the set is that of the
symbols which derive the empty word (`nullable_exact`).
-/
namespace ContextFree.Grammar

variable {g h : Grammar} {base : Symbol → Bool} {stage stage' : String} {factor factor' : Int}
  {found found' : List Symbol} {A : Symbol}

theorem supported_mono (hn : ∀ A ∈ g.nonterminals, A ∈ h.nonterminals)
    (hb : ∀ A, ∀ b ∈ g.alternatives A, b ∈ h.alternatives A)
    (hg : g.supported stage base factor = .ok found)
    (hh : h.supported stage' base factor' = .ok found') : ∀ A ∈ found, A ∈ found' := by
  obtain ⟨hleast, -⟩ := supported_spec hg
  obtain ⟨-, hclosed⟩ := supported_spec hh
  apply hleast.least (· ∈ found')
  intro A hA b hbody hsupported
  exact hclosed A (hn A hA) b (hb A b hbody) hsupported

theorem supported_congr (hn : ∀ A, A ∈ g.nonterminals ↔ A ∈ h.nonterminals)
    (hb : ∀ A b, b ∈ g.alternatives A ↔ b ∈ h.alternatives A)
    (hg : g.supported stage base factor = .ok found)
    (hh : h.supported stage' base factor' = .ok found') : A ∈ found ↔ A ∈ found' :=
  ⟨supported_mono (fun A => (hn A).mp) (fun A b => (hb A b).mp) hg hh A,
    supported_mono (fun A => (hn A).mpr) (fun A b => (hb A b).mpr) hh hg A⟩

/-- **The nullable analysis is exact.** In any grammar, valid or not, it finds the non-terminals that derive
the empty word, whatever the order in which they are declared. -/
theorem nullable_exact (g : Grammar) (hf : 1 ≤ factor) :
    ∃ nulls, g.nullable factor = .ok nulls ∧
      (∀ s, s ∈ nulls ↔ s ∈ g.nonterminals ∧ [] ∈ g.languageOf s) ∧
      ∀ order, (∀ s, s ∈ order ↔ s ∈ g.nonterminals) →
        ∃ again, ({ g with nonterminals := order } : Grammar).nullable factor = .ok again ∧
          ∀ s, s ∈ again ↔ s ∈ nulls := by
  obtain ⟨nulls, hnulls⟩ := g.nullable_isOk hf
  refine ⟨nulls, hnulls, fun s => ?found, fun order horder => ?reordered⟩
  case found =>
    rw [mem_nullable_iff hnulls, mem_languageOf_iff]
    constructor
    · intro hs
      obtain ⟨-, hempty⟩ | ⟨hdeclared, -⟩ := hs.cases
      · cases hempty
      · exact ⟨hdeclared, hs⟩
    · exact fun hs => hs.2
  case reordered =>
    obtain ⟨again, hagain⟩ := ({ g with nonterminals := order } : Grammar).nullable_isOk hf
    have hbodies (A : Symbol) (b : Body) :
        b ∈ ({ g with nonterminals := order } : Grammar).alternatives A ↔ b ∈ g.alternatives A :=
      Iff.rfl
    exact ⟨again, hagain, fun s => supported_congr horder hbodies hagain hnulls⟩

theorem nullable_exact_looped : ∃ nulls, looped.nullable 1 = .ok nulls ∧
    ("T" ∈ nulls ↔ [] ∈ looped.languageOf "T") ∧
    ∃ again, ({ looped with nonterminals := ["T", "S"] } : Grammar).nullable 1 = .ok again ∧
      ∀ s, s ∈ again ↔ s ∈ nulls := by
  obtain ⟨nulls, hnulls, hfound, hreordered⟩ := nullable_exact looped (Int.le_refl 1)
  have horder : ∀ s, s ∈ ["T", "S"] ↔ s ∈ looped.nonterminals := by
    simp [looped, or_comm]
  refine ⟨nulls, hnulls, ?_, hreordered ["T", "S"] horder⟩
  rw [hfound, and_iff_right (by decide)]

end ContextFree.Grammar
