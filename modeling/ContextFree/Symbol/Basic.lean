/-!
Symbols, and strings of symbols. A string of symbols is a body of a rule or, when all its symbols are
terminals, a word. `distinct` lists a set in the order in which its members first occur. `Body.le` is a
total order, so that a finite set of symbol strings has one increasing list, whatever its listing.
-/
namespace ContextFree

abbrev Symbol := String

abbrev Body := List Symbol

abbrev Word := List Symbol

/-- Each member once, in the order of first occurrence. -/
def distinct {α : Type} [DecidableEq α] : List α → List α
  | [] => []
  | a :: as => a :: (distinct as).filter (· ≠ a)

@[simp] theorem mem_distinct {α : Type} [DecidableEq α] {a : α} {as : List α} :
    a ∈ distinct as ↔ a ∈ as := by
  induction as with
  | nil => rfl
  | cons b bs ih =>
    simp only [distinct, List.mem_cons, List.mem_filter, ih, ne_eq, decide_not, Bool.not_eq_true',
      decide_eq_false_iff_not]
    by_cases h : a = b <;> simp [h]

theorem nodup_distinct {α : Type} [DecidableEq α] (as : List α) : (distinct as).Nodup := by
  induction as with
  | nil => exact List.Pairwise.nil
  | cons a as ih => exact List.nodup_cons.mpr ⟨by simp, ih.filter _⟩

theorem distinct_eq_self {α : Type} [DecidableEq α] {as : List α} (h : as.Nodup) :
    distinct as = as := by
  induction as with
  | nil => rfl
  | cons a as ih =>
    obtain ⟨ha, has⟩ := List.nodup_cons.mp h
    rw [distinct, ih has, List.filter_eq_self.mpr]
    intro b hb
    simp only [decide_eq_true_eq]
    rintro rfl
    exact ha hb

theorem distinct_filter {α : Type} [DecidableEq α] (p : α → Bool) (as : List α) :
    distinct (as.filter p) = (distinct as).filter p := by
  induction as with
  | nil => rfl
  | cons a as ih =>
    by_cases hp : p a = true
    · rw [List.filter_cons_of_pos hp, distinct, distinct, ih, List.filter_cons_of_pos hp]
      simp only [List.filter_filter, Bool.and_comm]
    · rw [List.filter_cons_of_neg hp, distinct, List.filter_cons_of_neg hp, ih, List.filter_filter]
      apply List.filter_congr
      intro b _
      by_cases hb : b = a
      · simp [hb, hp]
      · simp [hb]

theorem distinct_append {α : Type} [DecidableEq α] (as bs : List α) :
    distinct (as ++ bs) = distinct as ++ (distinct bs).filter (· ∉ as) := by
  induction as with
  | nil => exact (List.filter_eq_self.mpr (by simp)).symm
  | cons a as ih =>
    simp only [List.cons_append, distinct, ih, List.filter_append, List.filter_filter]
    congr 2
    apply List.filter_congr
    intro b _
    by_cases h : b = a <;> simp [h]

theorem head?_distinct {α : Type} [DecidableEq α] (as : List α) : (distinct as).head? = as.head? := by
  cases as <;> rfl

theorem lookup_cons_eq {α : Type} (s t : Symbol) (a : α) (es : List (Symbol × α)) :
    ((t, a) :: es).lookup s = if s = t then some a else es.lookup s := by
  by_cases h : s = t
  · subst h; simp
  · rw [if_neg h, List.lookup_cons, beq_false_of_ne h]

theorem lookup_map_eq {α : Type} (f : Symbol → α) (s : Symbol) (ts : List Symbol) :
    (ts.map fun t => (t, f t)).lookup s = if s ∈ ts then some (f s) else none := by
  induction ts with
  | nil => rfl
  | cons t ts ih =>
    by_cases h : s = t
    · subst h; simp
    · simp [lookup_cons_eq, h, ih]

/-- Increasing order of symbol strings, by the first symbol that differs. A string comes after each of
its beginnings, and symbols are in the order of their code points. -/
def Body.le : Body → Body → Bool
  | [], _ => true
  | _ :: _, [] => false
  | a :: as, b :: bs => if a = b then Body.le as bs else decide (a < b)

theorem Body.le_total (a b : Body) : (Body.le a b || Body.le b a) = true := by
  induction a generalizing b with
  | nil => cases b <;> rfl
  | cons s as ih =>
    cases b with
    | nil => rfl
    | cons t bs =>
      by_cases h : s = t
      · subst h; simpa [Body.le] using ih bs
      · have h' : ¬ t = s := fun e => h e.symm
        simp only [Body.le, if_neg h, if_neg h', Bool.or_eq_true, decide_eq_true_eq]
        refine (Decidable.em (s < t)).imp_right fun hge => ?_
        exact Decidable.byContradiction fun hle =>
          h (String.le_antisymm (String.not_lt.mp hle) (String.not_lt.mp hge))

theorem Body.le_trans {a b c : Body} (hab : Body.le a b = true) (hbc : Body.le b c = true) :
    Body.le a c = true := by
  induction a generalizing b c with
  | nil => cases c <;> rfl
  | cons s as ih =>
    cases b with
    | nil => simp [Body.le] at hab
    | cons t bs =>
      cases c with
      | nil => simp [Body.le] at hbc
      | cons u cs =>
        simp only [Body.le] at hab hbc ⊢
        by_cases hst : s = t
        · subst hst
          by_cases hsu : s = u
          · subst hsu
            simp only [if_true] at hab hbc ⊢
            exact ih hab hbc
          · simpa [hsu] using hbc
        · by_cases htu : t = u
          · subst htu
            simpa [hst] using hab
          · simp only [if_neg hst, if_neg htu, decide_eq_true_eq] at hab hbc
            have hlt := String.lt_trans hab hbc
            have hsu : ¬ s = u := by rintro rfl; exact String.lt_irrefl s hlt
            rw [if_neg hsu]
            exact decide_eq_true hlt

theorem Body.le_antisymm {a b : Body} (hab : Body.le a b = true) (hba : Body.le b a = true) :
    a = b := by
  induction a generalizing b with
  | nil => cases b with
    | nil => rfl
    | cons t bs => simp [Body.le] at hba
  | cons s as ih =>
    cases b with
    | nil => simp [Body.le] at hab
    | cons t bs =>
      simp only [Body.le] at hab hba
      by_cases hst : s = t
      · subst hst
        simp only [if_true] at hab hba
        rw [ih hab hba]
      · rw [if_neg hst, decide_eq_true_eq] at hab
        rw [if_neg (fun e => hst e.symm), decide_eq_true_eq] at hba
        exact absurd (String.lt_trans hab hba) (String.lt_irrefl s)

/-- Whole lists of symbols in increasing order, repetitions kept. -/
def sortedSymbols (as : List Symbol) : List Symbol := as.mergeSort (fun a b => decide (a ≤ b))

end ContextFree
