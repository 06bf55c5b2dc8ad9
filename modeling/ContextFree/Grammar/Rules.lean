import ContextFree.Grammar.Alternatives

/-!
The rules of a grammar: a finite map from left sides to their alternatives that remembers the order in
which left sides came in. A left side with no body is not the same as no left side. `get?` is the view
through which every operation is described.
-/
namespace ContextFree

structure Rules where
  entries : List (Symbol × Alternatives)
  nodup_keys : (entries.map Prod.fst).Nodup
  deriving DecidableEq

namespace Rules

def keys (r : Rules) : List Symbol := r.entries.map Prod.fst

def get? (r : Rules) (A : Symbol) : Option Alternatives := r.entries.lookup A

/-- The alternatives of `A`, none if `A` is no left side. -/
def alternatives (r : Rules) (A : Symbol) : Alternatives := (r.get? A).getD .empty

def empty : Rules := ⟨[], List.Pairwise.nil⟩

/-- The entry of `A` replaced where it stands, or put at the end. -/
def insertEntry (A : Symbol) (alts : Alternatives) :
    List (Symbol × Alternatives) → List (Symbol × Alternatives)
  | [] => [(A, alts)]
  | (B, old) :: rest =>
    if A = B then (B, alts) :: rest else (B, old) :: insertEntry A alts rest

theorem mem_keys_insertEntry {A B : Symbol} {alts : Alternatives}
    {es : List (Symbol × Alternatives)} :
    B ∈ (insertEntry A alts es).map Prod.fst ↔ B = A ∨ B ∈ es.map Prod.fst := by
  induction es with
  | nil => simp [insertEntry]
  | cons e es ih =>
    rw [insertEntry]
    split
    · rename_i h; subst h; simp
    · simp only [List.map_cons, List.mem_cons, ih]
      exact or_left_comm

theorem nodup_keys_insertEntry (A : Symbol) (alts : Alternatives)
    {es : List (Symbol × Alternatives)} (h : (es.map Prod.fst).Nodup) :
    ((insertEntry A alts es).map Prod.fst).Nodup := by
  induction es with
  | nil => simp [insertEntry]
  | cons e es ih =>
    obtain ⟨hmem, hrest⟩ := List.nodup_cons.mp h
    rw [insertEntry]
    split
    · exact h
    · rename_i hne
      refine List.nodup_cons.mpr ⟨?_, ih hrest⟩
      rw [mem_keys_insertEntry]
      exact fun hor => hor.elim (fun e => hne e.symm) hmem

def insert (r : Rules) (A : Symbol) (alts : Alternatives) : Rules :=
  ⟨insertEntry A alts r.entries, nodup_keys_insertEntry A alts r.nodup_keys⟩

/-- The map that holds each entry of `es`, the last one where a left side occurs more than once. -/
def insertAll (r : Rules) (es : List (Symbol × Alternatives)) : Rules :=
  es.foldl (fun r e => r.insert e.1 e.2) r

def ofList (es : List (Symbol × Alternatives)) : Rules := empty.insertAll es

/-- One entry per left side in `As`, with the alternatives that `f` gives it. -/
def tabulate (As : List Symbol) (f : Symbol → Alternatives) : Rules where
  entries := (distinct As).map fun A => (A, f A)
  nodup_keys := by
    rw [List.map_map]
    exact (List.map_id' (distinct As)).symm ▸ nodup_distinct As

/-- The entries whose left side satisfies `p`. -/
def restrict (p : Symbol → Bool) (r : Rules) : Rules where
  entries := r.entries.filter fun e => p e.1
  nodup_keys := r.nodup_keys.sublist (List.filter_sublist.map Prod.fst)

def mapAlternatives (f : Alternatives → Alternatives) (r : Rules) : Rules where
  entries := r.entries.map fun e => (e.1, f e.2)
  nodup_keys := by
    rw [List.map_map]
    exact r.nodup_keys

/-- The number of productions, a left side with each of its bodies. -/
def count (r : Rules) : Nat := r.entries.foldr (fun e n => e.2.size + n) 0

/-- Whether two maps have the same left sides with the same alternatives. -/
def sameAs (r s : Rules) : Bool :=
  s.keys.all (r.keys.contains ·) &&
    r.entries.all fun e => (s.get? e.1).any e.2.sameAs

theorem lookup_insertEntry (A B : Symbol) (alts : Alternatives)
    (es : List (Symbol × Alternatives)) :
    (insertEntry A alts es).lookup B = if B = A then some alts else es.lookup B := by
  induction es with
  | nil => rw [insertEntry, lookup_cons_eq]
  | cons e es ih =>
    obtain ⟨C, old⟩ := e
    rw [insertEntry]
    split
    · rename_i h
      subst h
      by_cases hB : B = A <;> simp [lookup_cons_eq, hB]
    · rename_i hne
      by_cases hC : B = C
      · subst hC; simp [Ne.symm hne]
      · simp [lookup_cons_eq, hC, ih]

@[simp] theorem get?_empty (A : Symbol) : empty.get? A = none := rfl

@[simp] theorem get?_insert (r : Rules) (A B : Symbol) (alts : Alternatives) :
    (r.insert A alts).get? B = if B = A then some alts else r.get? B :=
  lookup_insertEntry A B alts r.entries

@[simp] theorem get?_tabulate (As : List Symbol) (f : Symbol → Alternatives) (A : Symbol) :
    (tabulate As f).get? A = if A ∈ As then some (f A) else none := by
  simp only [get?, tabulate, lookup_map_eq, mem_distinct]

@[simp] theorem get?_restrict (p : Symbol → Bool) (r : Rules) (A : Symbol) :
    (r.restrict p).get? A = if p A then r.get? A else none := by
  simp only [get?, restrict]
  induction r.entries with
  | nil => simp
  | cons e es ih =>
    obtain ⟨B, alts⟩ := e
    by_cases hB : A = B
    · subst hB
      by_cases hp : p A <;> simp [hp, ih]
    · by_cases hp : p B <;> simp [lookup_cons_eq, hp, hB, ih]

@[simp] theorem get?_mapAlternatives (f : Alternatives → Alternatives) (r : Rules) (A : Symbol) :
    (r.mapAlternatives f).get? A = (r.get? A).map f := by
  simp only [get?, mapAlternatives]
  induction r.entries with
  | nil => rfl
  | cons e es ih =>
    obtain ⟨B, alts⟩ := e
    by_cases hB : A = B
    · subst hB; simp
    · simp [lookup_cons_eq, hB, ih]

theorem mem_keys_iff {r : Rules} {A : Symbol} : A ∈ r.keys ↔ (r.get? A).isSome = true := by
  simp only [keys, get?]
  induction r.entries with
  | nil => simp
  | cons e es ih =>
    obtain ⟨B, alts⟩ := e
    by_cases hB : A = B
    · subst hB; simp
    · simp [lookup_cons_eq, hB, ih]

theorem lookup_eq_some_iff {es : List (Symbol × Alternatives)} (h : (es.map Prod.fst).Nodup)
    {A : Symbol} {alts : Alternatives} : es.lookup A = some alts ↔ (A, alts) ∈ es := by
  induction es with
  | nil => simp
  | cons e es ih =>
    obtain ⟨B, old⟩ := e
    obtain ⟨hB, hes⟩ := List.nodup_cons.mp h
    by_cases hA : A = B
    · subst hA
      have hno : (A, alts) ∉ es := fun hm => hB (List.mem_map.mpr ⟨_, hm, rfl⟩)
      simp [hno, eq_comm]
    · simp [lookup_cons_eq, hA, ih hes]

theorem get?_eq_some_iff {r : Rules} {A : Symbol} {alts : Alternatives} :
    r.get? A = some alts ↔ (A, alts) ∈ r.entries := lookup_eq_some_iff r.nodup_keys

theorem mem_alternatives_iff {r : Rules} {A : Symbol} {b : Body} :
    b ∈ r.alternatives A ↔ ∃ alts, r.get? A = some alts ∧ b ∈ alts := by
  cases h : r.get? A <;> simp [alternatives, h]

theorem mem_keys_of_mem_alternatives {r : Rules} {A : Symbol} {b : Body}
    (h : b ∈ r.alternatives A) : A ∈ r.keys := by
  obtain ⟨alts, halts, -⟩ := mem_alternatives_iff.mp h
  exact mem_keys_iff.mpr (by rw [halts]; rfl)

theorem get?_insertAll {es : List (Symbol × Alternatives)} (h : (es.map Prod.fst).Nodup)
    (r : Rules) (A : Symbol) : (r.insertAll es).get? A = (es.lookup A).or (r.get? A) := by
  induction es generalizing r with
  | nil => rfl
  | cons e es ih =>
    obtain ⟨hnot, hrest⟩ := List.nodup_cons.mp h
    rw [insertAll, List.foldl_cons, ← insertAll, ih hrest, get?_insert, lookup_cons_eq]
    by_cases hA : A = e.1
    · have hnone : es.lookup A = none := by
        refine List.lookup_eq_none_iff.mpr fun p hp => bne_iff_ne.mpr fun he => hnot ?_
        exact List.mem_map.mpr ⟨p, hp, by rw [← hA, ← he]⟩
      simp [hA, hA ▸ hnone]
    · simp [hA]

theorem mem_alternatives_ofList {es : List (Symbol × Alternatives)} (h : (es.map Prod.fst).Nodup)
    {A : Symbol} {b : Body} :
    b ∈ (ofList es).alternatives A ↔ ∃ alts, (A, alts) ∈ es ∧ b ∈ alts := by
  simp only [mem_alternatives_iff, ofList, get?_insertAll h, get?_empty, Option.or_none,
    lookup_eq_some_iff h]

@[simp] theorem mem_keys_insert {r : Rules} {A B : Symbol} {alts : Alternatives} :
    B ∈ (r.insert A alts).keys ↔ B = A ∨ B ∈ r.keys := mem_keys_insertEntry

@[simp] theorem alternatives_insert (r : Rules) (A B : Symbol) (alts : Alternatives) :
    (r.insert A alts).alternatives B = if B = A then alts else r.alternatives B := by
  rw [alternatives, get?_insert]
  split <;> rfl

@[simp] theorem mem_keys_tabulate {As : List Symbol} {f : Symbol → Alternatives} {A : Symbol} :
    A ∈ (tabulate As f).keys ↔ A ∈ As := by
  rw [mem_keys_iff, get?_tabulate]
  by_cases h : A ∈ As <;> simp [h]

@[simp] theorem mem_alternatives_tabulate {As : List Symbol} {f : Symbol → Alternatives}
    {A : Symbol} {b : Body} : b ∈ (tabulate As f).alternatives A ↔ A ∈ As ∧ b ∈ f A := by
  rw [alternatives, get?_tabulate]
  by_cases h : A ∈ As <;> simp [h]

@[simp] theorem mem_keys_restrict {p : Symbol → Bool} {r : Rules} {A : Symbol} :
    A ∈ (r.restrict p).keys ↔ p A = true ∧ A ∈ r.keys := by
  rw [mem_keys_iff, mem_keys_iff, get?_restrict]
  by_cases h : p A = true <;> simp [h]

@[simp] theorem mem_alternatives_restrict {p : Symbol → Bool} {r : Rules} {A : Symbol}
    {b : Body} : b ∈ (r.restrict p).alternatives A ↔ p A = true ∧ b ∈ r.alternatives A := by
  rw [alternatives, alternatives, get?_restrict]
  by_cases h : p A = true <;> simp [h]

@[simp] theorem mem_keys_mapAlternatives {f : Alternatives → Alternatives} {r : Rules}
    {A : Symbol} : A ∈ (r.mapAlternatives f).keys ↔ A ∈ r.keys := by
  rw [mem_keys_iff, mem_keys_iff, get?_mapAlternatives, Option.isSome_map]

theorem mem_alternatives_mapAlternatives {f : Alternatives → Alternatives} {r : Rules}
    {A : Symbol} {b : Body} :
    b ∈ (r.mapAlternatives f).alternatives A ↔ A ∈ r.keys ∧ b ∈ f (r.alternatives A) := by
  rw [alternatives, alternatives, get?_mapAlternatives, mem_keys_iff]
  cases r.get? A <;> simp

end Rules

end ContextFree
