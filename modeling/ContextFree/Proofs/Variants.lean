import Mathlib.Data.Finset.Preimage
import ContextFree.Proofs.Epsilon

/-!
The variants of a body by positions. A variant is what is left when the symbols at some positions are left
out, each position being free as long as its symbol is nullable (`omits_iff_without`). So a body is a variant
of itself, and the variants of a variant are variants of the body (`visibleVariants_exact`).
-/
namespace ContextFree

variable {s : Symbol} {b c : Body} {nulls : List Symbol} {positions later : Finset ℕ}

/-- The body without the symbols at `positions`. -/
def Body.without (positions : Finset ℕ) (b : Body) : Body :=
  (b.zipIdx.filter (·.2 ∉ positions)).map Prod.fst

/-- All the positions hold members of `nulls`. -/
def HoldsAt (nulls : List Symbol) (b : Body) (positions : Finset ℕ) : Prop :=
  ∀ i ∈ positions, ∃ s ∈ nulls, b[i]? = some s

/-- The positions of the rest of a body are one less. -/
theorem Body.without_cons (hlater : ∀ i, i ∈ later ↔ i + 1 ∈ positions) :
    Body.without positions (s :: b) =
      if 0 ∈ positions then b.without later else s :: b.without later := by
  have hrest : ((b.zipIdx 1).filter (·.2 ∉ positions)).map Prod.fst = b.without later := by
    rw [List.zipIdx_succ, List.filter_map, List.map_map, Body.without]
    simp only [Function.comp_def, hlater]
  rw [Body.without, List.zipIdx_cons, List.filter_cons]
  split <;> simp_all

theorem holdsAt_cons (hlater : ∀ i, i ∈ later ↔ i + 1 ∈ positions) :
    HoldsAt nulls (s :: b) positions ↔ (0 ∈ positions → s ∈ nulls) ∧ HoldsAt nulls b later := by
  constructor
  · intro h
    refine ⟨fun hzero => ?_, fun i hi => ?_⟩
    · obtain ⟨t, ht, hs⟩ := h 0 hzero
      cases hs
      exact ht
    · exact h (i + 1) ((hlater i).mp hi)
  · rintro ⟨hzero, hrest⟩ i hi
    cases i with
    | zero => exact ⟨s, hzero hi, rfl⟩
    | succ i => exact hrest i ((hlater i).mpr hi)

theorem omits_iff_without :
    Omits nulls b c ↔ ∃ positions, HoldsAt nulls b positions ∧ c = b.without positions := by
  induction b generalizing c with
  | nil =>
    rw [omits_nil_iff]
    constructor
    · rintro rfl
      exact ⟨∅, by simp [HoldsAt], rfl⟩
    · rintro ⟨positions, -, rfl⟩
      rfl
  | cons s b ih =>
    constructor
    · intro h
      cases h with
      | keep h =>
        obtain ⟨later, hholds, rfl⟩ := ih.mp h
        have hlater (i : ℕ) : i ∈ later ↔ i + 1 ∈ later.image (· + 1) := by simp
        refine ⟨later.image (· + 1), (holdsAt_cons hlater).mpr ⟨by simp, hholds⟩, ?_⟩
        rw [Body.without_cons hlater, if_neg (by simp)]
      | drop hs h =>
        obtain ⟨later, hholds, rfl⟩ := ih.mp h
        have hlater (i : ℕ) : i ∈ later ↔ i + 1 ∈ insert 0 (later.image (· + 1)) := by simp
        refine ⟨_, (holdsAt_cons hlater).mpr ⟨fun _ => hs, hholds⟩, ?_⟩
        rw [Body.without_cons hlater, if_pos (by simp)]
    · rintro ⟨positions, hholds, rfl⟩
      have hlater (i : ℕ) : i ∈ positions.preimage (· + 1) (by simp) ↔ i + 1 ∈ positions := by simp
      obtain ⟨hfirst, hrest⟩ := (holdsAt_cons hlater).mp hholds
      have homits := ih.mpr ⟨_, hrest, rfl⟩
      rw [Body.without_cons hlater]
      split
      · rename_i hzero
        exact .drop (hfirst hzero) homits
      · exact .keep homits

/-- **Leaving out nullable symbols is exact.** The variants of a body are what is not empty and left after
leaving out some set of positions that hold nullable symbols. The body itself is one of them, and variants
of variants are none that are new. -/
theorem visibleVariants_exact (nulls : List Symbol) (b : Body) :
    (∀ c, c ∈ visibleVariants nulls b ↔
      c ≠ [] ∧ ∃ positions, HoldsAt nulls b positions ∧ c = b.without positions) ∧
    (b ≠ [] → b ∈ visibleVariants nulls b) ∧
    ∀ c ∈ visibleVariants nulls b, ∀ d ∈ visibleVariants nulls c, d ∈ visibleVariants nulls b := by
  refine ⟨fun c => ?members, fun hb => ?itself, fun c hc d hd => ?closed⟩
  case members => rw [mem_visibleVariants_iff, omits_iff_without]
  case itself => exact mem_visibleVariants_iff.mpr ⟨hb, Omits.refl nulls b⟩
  case closed =>
    obtain ⟨-, hbc⟩ := mem_visibleVariants_iff.mp hc
    obtain ⟨hne, hcd⟩ := mem_visibleVariants_iff.mp hd
    exact mem_visibleVariants_iff.mpr ⟨hne, hbc.trans hcd⟩

/-- Both occurrences of `A` are decided on their own. -/
theorem visibleVariants_exact_repeated :
    ["A", "a", "A"] ∈ visibleVariants ["A"] ["A", "a", "A"] ∧
    ["a", "A"] ∈ visibleVariants ["A"] ["A", "a", "A"] ∧
    ["a"] ∈ visibleVariants ["A"] ["A", "a", "A"] := by
  obtain ⟨hmembers, hitself, hclosed⟩ := visibleVariants_exact ["A"] ["A", "a", "A"]
  have hfirst : ["a", "A"] ∈ visibleVariants ["A"] ["A", "a", "A"] :=
    (hmembers _).mpr ⟨by decide, {0}, by simp [HoldsAt], by decide⟩
  have hsecond : ["a"] ∈ visibleVariants ["A"] ["a", "A"] :=
    mem_visibleVariants_iff.mpr ⟨by decide, .keep (.drop (by decide) .nil)⟩
  exact ⟨hitself (by decide), hfirst, hclosed _ hfirst _ hsecond⟩

end ContextFree
