/-!
Sets of characters given by ranges of code points.
-/
namespace ContextFree.Text

/-- The first and the last code point of each run, in increasing order. -/
abbrev Ranges := List (Nat × Nat)

/-- Ranges are in increasing order, so the search stops at the first range that ends at or after the
character. -/
def Ranges.contains : Ranges → Char → Bool
  | [], _ => false
  | (first, last) :: rest, c => if c.toNat ≤ last then first ≤ c.toNat else Ranges.contains rest c

/-- Every range starts after the one before it has ended. -/
def Ranges.Ordered : Ranges → Prop
  | [] => True
  | (first, last) :: rest => first ≤ last ∧ (∀ r ∈ rest, last < r.1) ∧ Ranges.Ordered rest

/-- The same, checked from the left: ranges start at `least` or later. -/
def Ranges.isOrderedFrom (least : Nat) : Ranges → Bool
  | [] => true
  | (first, last) :: rest =>
    least ≤ first && first ≤ last && Ranges.isOrderedFrom (last + 1) rest

theorem Ranges.ordered_of_isOrderedFrom {least : Nat} {rs : Ranges}
    (h : rs.isOrderedFrom least = true) : rs.Ordered ∧ ∀ r ∈ rs, least ≤ r.1 := by
  induction rs generalizing least with
  | nil => simp [Ranges.Ordered]
  | cons r rest ih =>
    obtain ⟨first, last⟩ := r
    simp only [Ranges.isOrderedFrom, Bool.and_eq_true, decide_eq_true_eq] at h
    obtain ⟨⟨hleast, hlast⟩, hrest⟩ := h
    obtain ⟨hordered, hlater⟩ := ih hrest
    refine ⟨⟨hlast, fun q hq => hlater q hq, hordered⟩, fun q hq => ?_⟩
    rcases List.mem_cons.mp hq with rfl | hq
    · exact hleast
    · have := hlater q hq
      omega

theorem Ranges.contains_iff {rs : Ranges} (h : rs.Ordered) (c : Char) :
    rs.contains c = true ↔ ∃ r ∈ rs, r.1 ≤ c.toNat ∧ c.toNat ≤ r.2 := by
  induction rs with
  | nil => simp [Ranges.contains]
  | cons r rest ih =>
    obtain ⟨first, last⟩ := r
    obtain ⟨_, hlater, hrest⟩ := h
    rw [Ranges.contains]
    split
    · rename_i hc
      constructor
      · intro hf
        exact ⟨_, List.mem_cons_self, of_decide_eq_true hf, hc⟩
      · rintro ⟨q, hq, hlow, _⟩
        rcases List.mem_cons.mp hq with rfl | hq
        · exact decide_eq_true hlow
        · have := hlater q hq
          omega
    · rename_i hc
      rw [ih hrest]
      constructor
      · rintro ⟨q, hq, hb⟩
        exact ⟨q, List.mem_cons_of_mem _ hq, hb⟩
      · rintro ⟨q, hq, hlow, hhigh⟩
        rcases List.mem_cons.mp hq with rfl | hq
        · exact absurd hhigh hc
        · exact ⟨q, hq, hlow, hhigh⟩

end ContextFree.Text
