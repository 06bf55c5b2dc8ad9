import ContextFree.Symbol.Basic

/-!
The alternatives of one left side: a finite set of bodies. The set is held as a list without repetition,
in the order in which its members were put in, so one set has many listings. Every operation is described
by its members; a stage whose result is to be the same for every listing goes through `sorted`.
-/
namespace ContextFree

structure Alternatives where
  toList : List Body
  nodup : toList.Nodup
  deriving DecidableEq

namespace Alternatives

instance : Membership Body Alternatives := ⟨fun alts b => b ∈ alts.toList⟩

theorem mem_def {b : Body} {alts : Alternatives} : b ∈ alts ↔ b ∈ alts.toList := Iff.rfl

instance (b : Body) (alts : Alternatives) : Decidable (b ∈ alts) :=
  inferInstanceAs (Decidable (b ∈ alts.toList))

def ofList (bs : List Body) : Alternatives := ⟨distinct bs, nodup_distinct bs⟩

def empty : Alternatives := ⟨[], List.Pairwise.nil⟩

def insert (alts : Alternatives) (b : Body) : Alternatives := ofList (b :: alts.toList)

def union (a b : Alternatives) : Alternatives := ofList (a.toList ++ b.toList)

def filter (p : Body → Bool) (alts : Alternatives) : Alternatives :=
  ⟨alts.toList.filter p, alts.nodup.filter p⟩

def size (alts : Alternatives) : Nat := alts.toList.length

def sorted (alts : Alternatives) : List Body := alts.toList.mergeSort Body.le

/-- Whether two sets have the same members. -/
def sameAs (a b : Alternatives) : Bool :=
  a.toList.all (b.toList.contains ·) && b.toList.all (a.toList.contains ·)

@[simp] theorem mem_ofList {b : Body} {bs : List Body} : b ∈ ofList bs ↔ b ∈ bs := mem_distinct

@[simp] theorem not_mem_empty (b : Body) : b ∉ empty := by simp [mem_def, empty]

@[simp] theorem mem_insert {b c : Body} {alts : Alternatives} :
    b ∈ alts.insert c ↔ b = c ∨ b ∈ alts := by
  rw [insert, mem_ofList, List.mem_cons, mem_def]

@[simp] theorem mem_union {c : Body} {a b : Alternatives} : c ∈ a.union b ↔ c ∈ a ∨ c ∈ b := by
  rw [union, mem_ofList, List.mem_append, mem_def, mem_def]

@[simp] theorem mem_filter {b : Body} {p : Body → Bool} {alts : Alternatives} :
    b ∈ alts.filter p ↔ b ∈ alts ∧ p b = true := List.mem_filter

@[simp] theorem mem_sorted {b : Body} {alts : Alternatives} : b ∈ alts.sorted ↔ b ∈ alts := by
  simp [sorted, mem_def]

theorem sameAs_iff {a b : Alternatives} : a.sameAs b = true ↔ ∀ c, c ∈ a ↔ c ∈ b := by
  simp only [sameAs, Bool.and_eq_true, List.all_eq_true, List.contains_iff_mem, mem_def]
  exact ⟨fun h c => ⟨h.1 c, h.2 c⟩, fun h => ⟨fun c => (h c).mp, fun c => (h c).mpr⟩⟩

end Alternatives

end ContextFree
