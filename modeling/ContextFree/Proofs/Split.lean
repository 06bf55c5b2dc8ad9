import ContextFree.Symbol.Split

/-!
How text without separators is split. The split of a text starts with the first symbol, in the order in
which symbols are tried, that starts the text and leaves a rest with a split (`splitBy?_cons`). Longer
symbols are tried first, so a symbol is taken wherever no longer one fits (`split?_append`): a declared
symbol that stands alone is one symbol, however many shorter ones it is made of (`split?_symbol`), and
symbols of a single character are read back one by one (`split?_characters`).
-/
namespace ContextFree

variable {symbols tried : List Symbol} {anyCharacter : Bool} {a b s t : Symbol} {c : Char}
  {cs text : List Char} {body : Body} {n : Nat}

/-! ## The order in which symbols are tried -/

theorem length_le_of_longerFirst (h : longerFirst a b = true) : b.length ≤ a.length := by
  unfold longerFirst at h
  split at h
  · omega
  · rw [decide_eq_true_eq] at h
    omega

theorem longerFirst_of_length_lt (h : b.length < a.length) : longerFirst a b = true := by
  unfold longerFirst
  rw [if_neg (by omega), decide_eq_true_eq]
  exact h

theorem longerFirst_of_length_eq (h : a.length = b.length) :
    longerFirst a b = true ↔ a ≤ b := by
  unfold longerFirst
  rw [if_pos h, decide_eq_true_eq]

theorem longerFirst_total (a b : Symbol) : (longerFirst a b || longerFirst b a) = true := by
  rw [Bool.or_eq_true]
  obtain hlt | heq | hgt := Nat.lt_trichotomy a.length b.length
  · exact .inr (longerFirst_of_length_lt hlt)
  · rw [longerFirst_of_length_eq heq, longerFirst_of_length_eq heq.symm]
    exact String.le_total a b
  · exact .inl (longerFirst_of_length_lt hgt)

theorem longerFirst_trans (a b c : Symbol) (hab : longerFirst a b = true)
    (hbc : longerFirst b c = true) : longerFirst a c = true := by
  have hba := length_le_of_longerFirst hab
  have hcb := length_le_of_longerFirst hbc
  by_cases hac : c.length < a.length
  · exact longerFirst_of_length_lt hac
  · have hab' : a.length = b.length := by omega
    have hbc' : b.length = c.length := by omega
    rw [longerFirst_of_length_eq hab'] at hab
    rw [longerFirst_of_length_eq hbc'] at hbc
    rw [longerFirst_of_length_eq (hab'.trans hbc')]
    exact String.le_trans hab hbc

@[simp] theorem mem_candidates : s ∈ candidates symbols ↔ s ∈ symbols ∧ s ≠ "" := by
  simp [candidates]

theorem nodup_candidates (symbols : List Symbol) : (candidates symbols).Nodup :=
  (List.mergeSort_perm _ _).nodup_iff.mpr ((nodup_distinct symbols).filter _)

theorem pairwise_candidates (symbols : List Symbol) :
    (candidates symbols).Pairwise fun a b => longerFirst a b = true :=
  List.pairwise_mergeSort longerFirst_trans longerFirst_total _

/-! ## One symbol taken -/

/-- The split of a text into symbols that are tried in a given order. -/
def splitBy? (tried : List Symbol) (anyCharacter : Bool) (text : List Char) : Option Body :=
  ((splits tried anyCharacter text).head?).join

theorem split?_eq_splitBy? :
    split? symbols anyCharacter text = splitBy? (candidates symbols) anyCharacter text := rfl

theorem drop_splits (h : n ≤ text.length) :
    (splits tried anyCharacter text).drop n = splits tried anyCharacter (text.drop n) := by
  induction text generalizing n with
  | nil =>
    obtain rfl : n = 0 := Nat.le_zero.mp h
    rfl
  | cons c cs ih =>
    cases n with
    | zero => rfl
    | succ n => exact ih (Nat.le_of_succ_le_succ h)

theorem join_getElem?_splits (h : n ≤ text.length) :
    ((splits tried anyCharacter text)[n]?).join = splitBy? tried anyCharacter (text.drop n) := by
  rw [splitBy?, ← drop_splits h, List.head?_drop]

/-- The split of `text` that starts with `s`. -/
def splitAfter? (tried : List Symbol) (anyCharacter : Bool) (text : List Char) (s : Symbol) :
    Option Body :=
  if s.toList.isPrefixOf text then
    (splitBy? tried anyCharacter (text.drop s.length)).map (s :: ·)
  else none

theorem takeSymbol_eq (hne : ∀ s ∈ symbols, s ≠ "") :
    takeSymbol (c :: cs) (splits tried anyCharacter cs) symbols =
      symbols.findSome? (splitAfter? tried anyCharacter (c :: cs)) := by
  induction symbols with
  | nil => rfl
  | cons s rest ih =>
    obtain ⟨hs, hrest⟩ := List.forall_mem_cons.mp hne
    rw [takeSymbol, List.findSome?_cons, splitAfter?, ih hrest]
    cases hprefix : s.toList.isPrefixOf (c :: cs) with
    | false => rfl
    | true =>
      have hpos : s.length ≠ 0 := fun h => hs (String.length_eq_zero_iff.mp h)
      obtain ⟨n, hn⟩ := Nat.exists_eq_succ_of_ne_zero hpos
      have hle : n ≤ cs.length := by
        have := (List.isPrefixOf_iff_prefix.mp hprefix).length_le
        rw [String.length_toList, hn, List.length_cons] at this
        omega
      rw [hn, Nat.succ_eq_add_one, Nat.add_sub_cancel, join_getElem?_splits hle, List.drop_succ_cons]
      cases splitBy? tried anyCharacter (cs.drop n) <;> rfl

theorem splitBy?_cons (hne : ∀ s ∈ tried, s ≠ "") :
    splitBy? tried anyCharacter (c :: cs) =
      (tried.findSome? (splitAfter? tried anyCharacter (c :: cs))).or
        (if anyCharacter then (splitBy? tried anyCharacter cs).map (String.singleton c :: ·)
        else none) := by
  rw [← takeSymbol_eq hne, splitBy?, splits]
  cases takeSymbol (c :: cs) (splits tried anyCharacter cs) tried <;> rfl

/-- A symbol that starts a text is taken where no longer one does. -/
theorem split?_append (hs : s ∈ symbols) (hne : s ≠ "")
    (hlongest : ∀ t ∈ symbols, t.toList <+: s.toList ++ text → t.length ≤ s.length)
    (hrest : split? symbols anyCharacter text = some body) :
    split? symbols anyCharacter (s.toList ++ text) = some (s :: body) := by
  obtain ⟨before, after, hsplit⟩ := List.append_of_mem (mem_candidates.mpr ⟨hs, hne⟩)
  have hnodup := nodup_candidates symbols
  have hsorted := pairwise_candidates symbols
  rw [hsplit] at hnodup hsorted
  have htaken : splitAfter? (candidates symbols) anyCharacter (s.toList ++ text) s =
      some (s :: body) := by
    have hprefix : s.toList.isPrefixOf (s.toList ++ text) = true :=
      List.isPrefixOf_iff_prefix.mpr (List.prefix_append _ _)
    rw [splitAfter?, if_pos hprefix, ← String.length_toList, List.drop_left, ← split?_eq_splitBy?,
      hrest]
    rfl
  have hothers : ∀ t ∈ before,
      splitAfter? (candidates symbols) anyCharacter (s.toList ++ text) t = none := by
    intro t ht
    apply if_neg
    intro hprefix
    have hprefix := List.isPrefixOf_iff_prefix.mp hprefix
    have hmem : t ∈ symbols := (mem_candidates.mp (hsplit ▸ List.mem_append_left _ ht)).1
    have hle := hlongest t hmem hprefix
    have hge := length_le_of_longerFirst
      ((List.pairwise_append.mp hsorted).2.2 t ht s List.mem_cons_self)
    have heq : t.toList = s.toList := by
      apply (List.prefix_of_prefix_length_le hprefix (List.prefix_append _ _) ?_).eq_of_length
      · rw [String.length_toList, String.length_toList]
        omega
      · rw [String.length_toList, String.length_toList]
        omega
    exact (List.nodup_append.mp hnodup).2.2 t ht s List.mem_cons_self (String.toList_inj.mp heq)
  cases htext : s.toList ++ text with
  | nil =>
    have hnil : s.toList = [] := (List.append_eq_nil_iff.mp htext).1
    exact absurd (String.toList_eq_nil_iff.mp hnil) hne
  | cons c cs =>
    rw [htext] at htaken hothers
    have hfound : (candidates symbols).findSome?
        (splitAfter? (candidates symbols) anyCharacter (c :: cs)) = some (s :: body) :=
      List.findSome?_eq_some_iff.mpr ⟨before, s, after, hsplit, htaken, hothers⟩
    rw [split?_eq_splitBy?, splitBy?_cons fun t ht => (mem_candidates.mp ht).2, hfound]
    rfl

theorem split?_nil : split? symbols anyCharacter [] = some [] := rfl

/-- A declared symbol on its own is that symbol. -/
theorem split?_symbol (hs : s ∈ symbols) (hne : s ≠ "") :
    split? symbols anyCharacter s.toList = some [s] := by
  have hlongest : ∀ t ∈ symbols, t.toList <+: s.toList ++ [] → t.length ≤ s.length := by
    intro t _ hprefix
    have := hprefix.length_le
    rwa [List.append_nil, String.length_toList, String.length_toList] at this
  have halone : split? symbols anyCharacter (s.toList ++ []) = some [s] :=
    split?_append hs hne hlongest split?_nil
  rwa [List.append_nil] at halone

/-- Symbols of one character each are read one by one. -/
theorem split?_characters (hone : ∀ s ∈ symbols, s.length = 1) (hbody : ∀ s ∈ body, s ∈ symbols) :
    split? symbols anyCharacter (body.flatMap String.toList) = some body := by
  induction body with
  | nil => rfl
  | cons s rest ih =>
    obtain ⟨hs, hrest⟩ := List.forall_mem_cons.mp hbody
    have hne : s ≠ "" := by
      rintro rfl
      exact absurd (hone _ hs) (by decide)
    rw [List.flatMap_cons]
    apply split?_append hs hne _ (ih hrest)
    intro t ht _
    exact Nat.le_of_eq ((hone t ht).trans (hone s hs).symm)

end ContextFree
