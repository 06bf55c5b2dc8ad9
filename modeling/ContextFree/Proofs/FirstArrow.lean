import Mathlib.Data.List.Infix
import Mathlib.Data.List.TakeWhile
import ContextFree.Grammar.TextFormat
import ContextFree.Proofs.Pieces

/-!
Where a rule line is cut. With two visible characters or more before the first arrow, a line is cut at that
arrow, whatever follows. With a single one it is cut there only if no arrow follows; otherwise the left side
goes on to the next arrow and holds the first one (`cutRule?_exact`).
-/
namespace ContextFree

open Text

variable {c d : Char} {cs rest blanks arrow later p t w x y z : List Char}

namespace Text

/-- Without the blanks at the end. -/
def stripEnd (cs : List Char) : List Char := (skipBlanks cs.reverse).reverse

theorem strip_eq_stripEnd (cs : List Char) : strip cs = stripEnd (skipBlanks cs) := rfl

theorem skipBlanks_append (hvisible : ∃ c ∈ cs, isBlank c = false) :
    skipBlanks (cs ++ rest) = skipBlanks cs ++ rest := by
  have hne : ¬ (cs.dropWhile isBlank).isEmpty = true := by
    rw [List.isEmpty_iff, List.dropWhile_eq_nil_iff]
    simpa using hvisible
  rw [skipBlanks, List.dropWhile_append, if_neg hne, skipBlanks]

theorem skipBlanks_blanks (hblanks : ∀ c ∈ blanks, isBlank c = true) :
    skipBlanks (blanks ++ rest) = skipBlanks rest := List.dropWhile_append_of_pos hblanks

theorem stripEnd_append (front : List Char) (hvisible : ∃ c ∈ cs, isBlank c = false) :
    stripEnd (front ++ cs) = front ++ stripEnd cs := by
  have hback : ∃ c ∈ cs.reverse, isBlank c = false := by simpa using hvisible
  rw [stripEnd, List.reverse_append, skipBlanks_append hback, List.reverse_append,
    List.reverse_reverse, stripEnd]

theorem stripEnd_blanks (hd : isBlank d = false) (hblanks : ∀ c ∈ blanks, isBlank c = true) :
    stripEnd (d :: blanks) = [d] := by
  have hback : ∀ c ∈ blanks.reverse, isBlank c = true := by simpa using hblanks
  rw [stripEnd, List.reverse_cons, skipBlanks_blanks hback, skipBlanks,
    List.dropWhile_cons_of_neg (by simp [hd])]
  rfl

theorem visible_or_blank (cs : List Char) :
    (∃ c ∈ cs, isBlank c = false) ∨ ∀ c ∈ cs, isBlank c = true := by
  by_cases h : ∃ c ∈ cs, isBlank c = false
  · exact .inl h
  · exact .inr (by simpa using h)

/-- A text that is not blank begins, after its blanks, with a visible character. -/
theorem exists_skipBlanks_eq (hvisible : ∃ c ∈ cs, isBlank c = false) :
    ∃ c rest, skipBlanks cs = c :: rest ∧ isBlank c = false := by
  have hne : cs.dropWhile isBlank ≠ [] := by
    rw [Ne, List.dropWhile_eq_nil_iff]
    simpa using hvisible
  obtain ⟨c, rest, hskip⟩ := List.exists_cons_of_ne_nil hne
  have hhead := List.head_dropWhile_not isBlank hne
  refine ⟨c, rest, hskip, ?_⟩
  simpa [hskip] using hhead

/-- A text has a single visible character, or its first one and more. -/
theorem strip_cases (hvisible : ∃ c ∈ cs, isBlank c = false) :
    ∃ c t, skipBlanks cs = c :: t ∧ isBlank c = false ∧
      ((∀ e ∈ t, isBlank e = true) ∧ strip cs = [c] ∨
        (∃ e ∈ t, isBlank e = false) ∧ strip cs = c :: stripEnd t ∧ 1 < (strip cs).length) := by
  obtain ⟨c, t, hskip, hc⟩ := exists_skipBlanks_eq hvisible
  refine ⟨c, t, hskip, hc, ?_⟩
  rw [strip_eq_stripEnd, hskip]
  obtain hmore | hblanks := visible_or_blank t
  · have hlast : ∃ e ∈ t.reverse, isBlank e = false := by simpa using hmore
    obtain ⟨d, rest, hback, -⟩ := exists_skipBlanks_eq hlast
    have hend : stripEnd (c :: t) = c :: stripEnd t := stripEnd_append [c] hmore
    refine .inr ⟨hmore, hend, ?_⟩
    rw [hend, stripEnd, hback]
    simp
  · exact .inl ⟨hblanks, stripEnd_blanks hc hblanks⟩

end Text

/-! ## Arrows -/

/-- The spellings of the arrow. -/
def arrows : List (List Char) := [['-', '>'], ['→']]

/-- No arrow stands anywhere in the text. -/
def NoArrow (cs : List Char) : Prop := ∀ arrow ∈ arrows, ¬ arrow <:+: cs

instance (cs : List Char) : Decidable (NoArrow cs) :=
  inferInstanceAs (Decidable (∀ arrow ∈ arrows, ¬ arrow <:+: cs))

theorem arrows_cases (harrow : arrow ∈ arrows) : arrow = ['-', '>'] ∨ arrow = ['→'] := by
  simpa [arrows] using harrow

theorem NoArrow.of_infix (h : NoArrow cs) (hx : x <:+: cs) : NoArrow x :=
  fun arrow harrow hinside => h arrow harrow (hinside.trans hx)

/-- An arrow starts with a visible character, and with no other does an arrow start inside it. -/
theorem exists_arrow_tail (harrow : arrow ∈ arrows) :
    ∃ d tail, arrow = d :: tail ∧ isBlank d = false ∧ ∀ z, NoArrow z → NoArrow (tail ++ z) := by
  obtain rfl | rfl := arrows_cases harrow
  · refine ⟨'-', ['>'], rfl, by decide, fun z hz later hlater hinside => ?_⟩
    obtain hstart | hinside := List.infix_cons_iff.mp hinside
    · obtain rfl | rfl := arrows_cases hlater <;> simp at hstart
    · exact hz later hlater hinside
  · exact ⟨'→', [], rfl, by decide, fun z hz => hz⟩

theorem afterArrow?_eq_some_iff : afterArrow? cs = some rest ↔
    ∃ blanks, ∃ arrow ∈ arrows, (∀ c ∈ blanks, isBlank c = true) ∧ cs = blanks ++ (arrow ++ rest) := by
  unfold afterArrow?
  constructor
  · intro h
    have hblanks : ∀ c ∈ cs.takeWhile isBlank, isBlank c = true :=
      List.all_eq_true.mp List.all_takeWhile
    have hsplit : cs = cs.takeWhile isBlank ++ skipBlanks cs := List.takeWhile_append_dropWhile.symm
    split at h
    · rename_i hskip
      cases h
      exact ⟨_, ['-', '>'], by decide, hblanks, by rwa [hskip] at hsplit⟩
    · rename_i hskip
      cases h
      exact ⟨_, ['→'], by decide, hblanks, by rwa [hskip] at hsplit⟩
    · cases h
  · rintro ⟨blanks, arrow, harrow, hblanks, rfl⟩
    rw [skipBlanks_blanks hblanks]
    obtain rfl | rfl := arrows_cases harrow <;> rfl

theorem afterArrow?_blanks (harrow : arrow ∈ arrows) (hblanks : ∀ c ∈ blanks, isBlank c = true) :
    afterArrow? (blanks ++ (arrow ++ rest)) = some rest :=
  afterArrow?_eq_some_iff.mpr ⟨blanks, arrow, harrow, hblanks, rfl⟩

theorem NoArrow.afterArrow?_eq_none (h : NoArrow cs) : afterArrow? cs = none := by
  rw [Option.eq_none_iff_forall_ne_some]
  intro rest hrest
  obtain ⟨blanks, arrow, harrow, -, rfl⟩ := afterArrow?_eq_some_iff.mp hrest
  exact h arrow harrow ⟨blanks, rest, by simp⟩

/-- The first arrow is first: none begins in a text without arrows and ends behind it. -/
theorem NoArrow.length_le (hp : NoArrow p) (harrow : arrow ∈ arrows) (hlater : later ∈ arrows)
    (h : p ++ (arrow ++ w) = x ++ (later ++ rest)) : p.length ≤ x.length := by
  obtain ⟨between, rfl, -⟩ | ⟨between, hsplit, hrest⟩ := List.append_eq_append_iff.mp h
  · simp
  · cases between with
    | nil => simp [hsplit]
    | cons d between =>
      exfalso
      obtain rfl | rfl := arrows_cases hlater
      · cases between with
        | nil => obtain rfl | rfl := arrows_cases harrow <;> simp at hrest
        | cons e between =>
          simp only [List.cons_append, List.nil_append, List.cons.injEq] at hrest
          obtain ⟨rfl, rfl, -⟩ := hrest
          exact hp ['-', '>'] (by decide) ⟨x, between, by simp [hsplit]⟩
      · simp only [List.cons_append, List.nil_append, List.cons.injEq] at hrest
        obtain ⟨rfl, -⟩ := hrest
        exact hp ['→'] (by decide) ⟨x, between, by simp [hsplit]⟩

/-- No arrow follows where something visible comes before the first one. -/
theorem afterArrow?_visible (hp : NoArrow p) (harrow : arrow ∈ arrows)
    (hvisible : ∃ c ∈ p, isBlank c = false) : afterArrow? (p ++ (arrow ++ w)) = none := by
  rw [Option.eq_none_iff_forall_ne_some]
  intro rest hrest
  obtain ⟨blanks, later, hlater, hblanks, hsplit⟩ := afterArrow?_eq_some_iff.mp hrest
  have hle := hp.length_le harrow hlater hsplit
  obtain ⟨c, hc, hvisible⟩ := hvisible
  have hmem : c ∈ blanks := by
    have hstart : p <+: blanks := by
      refine List.prefix_of_prefix_length_le ⟨_, hsplit⟩ ⟨_, rfl⟩ hle
    exact hstart.subset hc
  rw [hblanks c hmem] at hvisible
  cases hvisible

theorem NoArrow.exists_first (h : ¬ NoArrow y) :
    ∃ z, ∃ later ∈ arrows, ∃ w, y = z ++ (later ++ w) ∧ NoArrow z := by
  induction y with
  | nil =>
    exfalso
    apply h
    decide
  | cons c y ih =>
    by_cases hnow : ∃ arrow ∈ arrows, arrow <+: c :: y
    · obtain ⟨arrow, harrow, w, hw⟩ := hnow
      exact ⟨[], arrow, harrow, w, hw.symm, by decide⟩
    · have hlater : ¬ NoArrow y := by
        intro hy
        apply h
        intro arrow harrow hinside
        obtain hstart | hinside := List.infix_cons_iff.mp hinside
        · exact hnow ⟨arrow, harrow, hstart⟩
        · exact hy arrow harrow hinside
      obtain ⟨z, later, hmem, w, rfl, hz⟩ := ih hlater
      refine ⟨c :: z, later, hmem, w, rfl, ?_⟩
      intro arrow harrow hinside
      obtain hstart | hinside := List.infix_cons_iff.mp hinside
      · exact hnow ⟨arrow, harrow, hstart.trans ⟨later ++ w, rfl⟩⟩
      · exact hz arrow harrow hinside

/-! ## The cut -/

/-- There is no cut without an arrow. Whether one starts with the first character does not matter. -/
theorem cutAtArrow?_eq_none (h : NoArrow cs) : cutAtArrow? (d :: cs) = none := by
  induction cs generalizing d with
  | nil => rfl
  | cons c cs ih =>
    have hcs : NoArrow cs := h.of_infix (List.suffix_cons c cs).isInfix
    rw [cutAtArrow?, h.afterArrow?_eq_none, ih hcs]
    rfl

/-- What comes before the first arrow is cut off there, if it is not blank. -/
theorem cutAtArrow?_cons (hp : NoArrow p) (harrow : arrow ∈ arrows)
    (hvisible : ∃ c ∈ d :: p, isBlank c = false) :
    cutAtArrow? (d :: (p ++ (arrow ++ w))) = some (stripEnd (d :: p), w) := by
  induction p generalizing d with
  | nil =>
    have hd : isBlank d = false := by simpa using hvisible
    have hafter : afterArrow? ([] ++ (arrow ++ w)) = some w := afterArrow?_blanks harrow (by simp)
    rw [cutAtArrow?, hafter, hd, stripEnd_blanks hd (by simp)]
  | cons e p ih =>
    rw [cutAtArrow?]
    obtain hlater | hblanks := visible_or_blank (e :: p)
    · have hrest : NoArrow p := hp.of_infix (List.suffix_cons e p).isInfix
      have hend : stripEnd (d :: e :: p) = d :: stripEnd (e :: p) := stripEnd_append [d] hlater
      rw [afterArrow?_visible hp harrow hlater, List.cons_append, ih hrest hlater, hend]
      rfl
    · have hd : isBlank d = false := by
        obtain ⟨c, hc, hvisible⟩ := hvisible
        obtain rfl | hc := List.mem_cons.mp hc
        · exact hvisible
        · rw [hblanks c hc] at hvisible
          cases hvisible
      rw [afterArrow?_blanks harrow hblanks, hd, stripEnd_blanks hd hblanks]

theorem cutAtArrow?_blanks (hblanks : ∀ c ∈ blanks, isBlank c = true) :
    cutAtArrow? (blanks ++ cs) = (cutAtArrow? cs).map fun cut => (blanks ++ cut.1, cut.2) := by
  induction blanks with
  | nil => simp
  | cons c blanks ih =>
    obtain ⟨hc, hblanks⟩ := List.forall_mem_cons.mp hblanks
    rw [List.cons_append, cutAtArrow?, hc, ih hblanks]
    cases afterArrow? (blanks ++ cs) <;> exact Option.map_map _ _ _

/-- A line whose visible part starts with `c`: longer left sides are tried first. -/
theorem cutRule?_append (hvisible : ∃ c ∈ x, isBlank c = false) (hskip : skipBlanks x = c :: t) :
    cutRule? (x ++ cs) = ((cutAtArrow? (t ++ cs)).map fun cut => (c :: cut.1, cut.2)).or
      ((afterArrow? (t ++ cs)).map ([c], ·)) := by
  rw [cutRule?, skipBlanks_append hvisible, hskip, List.cons_append]
  dsimp only
  cases cutAtArrow? (t ++ cs) <;> rfl

section

variable (harrow : arrow ∈ arrows) (hvisible : ∃ c ∈ x, isBlank c = false)

include harrow hvisible

/-- Two visible characters stand before the arrow, or no arrow comes after it. -/
theorem cutRule?_first (hx : NoArrow x) (h : 1 < (strip x).length ∨ NoArrow y) :
    cutRule? (x ++ (arrow ++ y)) = some (strip x, y) := by
  obtain ⟨c, t, hskip, -, ⟨hblanks, hstrip⟩ | ⟨hmore, hstrip, -⟩⟩ := strip_cases hvisible
  · rw [hstrip] at h ⊢
    have hy : NoArrow y := h.resolve_left (Nat.lt_irrefl 1)
    obtain ⟨d, tail, rfl, -, htail⟩ := exists_arrow_tail harrow
    rw [cutRule?_append hvisible hskip, cutAtArrow?_blanks hblanks, List.cons_append,
      cutAtArrow?_eq_none (htail y hy), ← List.cons_append, afterArrow?_blanks harrow hblanks]
    rfl
  · have hsuffix : c :: t <:+ x := hskip ▸ List.dropWhile_suffix _
    cases t with
    | nil => simp at hmore
    | cons d p =>
      have hp : NoArrow p :=
        hx.of_infix ((List.suffix_append [c, d] p).trans hsuffix).isInfix
      rw [cutRule?_append hvisible hskip, List.cons_append, cutAtArrow?_cons hp harrow hmore, hstrip]
      rfl

/-- A single visible character stands before the arrow, and another arrow comes after it. -/
theorem cutRule?_later (hone : (strip x).length = 1) (hz : NoArrow z) (hlater : later ∈ arrows) :
    cutRule? (x ++ (arrow ++ (z ++ (later ++ w)))) = some (strip (x ++ (arrow ++ z)), w) := by
  obtain ⟨c, t, hskip, -, ⟨hblanks, -⟩ | ⟨-, -, htwo⟩⟩ := strip_cases hvisible
  · obtain ⟨d, tail, rfl, hd, htail⟩ := exists_arrow_tail harrow
    have hshown : ∃ e ∈ d :: (tail ++ z), isBlank e = false := ⟨d, List.mem_cons_self, hd⟩
    have hcut : cutAtArrow? (d :: tail ++ (z ++ (later ++ w))) =
        some (stripEnd (d :: (tail ++ z)), w) := by
      rw [List.cons_append, ← List.append_assoc tail, cutAtArrow?_cons (htail z hz) hlater hshown]
    have hleft : strip (x ++ (d :: tail ++ z)) = c :: (t ++ stripEnd (d :: (tail ++ z))) := by
      rw [strip_eq_stripEnd, skipBlanks_append hvisible, hskip]
      exact stripEnd_append (c :: t) hshown
    rw [cutRule?_append hvisible hskip, cutAtArrow?_blanks hblanks, hcut, hleft]
    rfl
  · omega

end

/-- **Where a rule line is cut.** `x` is what stands before the first arrow. The line is cut there exactly if
`x` has two visible characters at least or no arrow follows. Otherwise it is cut at the next arrow, and the
first one is part of the left side. -/
theorem cutRule?_exact (harrow : arrow ∈ arrows) (hx : NoArrow x) (hvisible : ∃ c ∈ x, isBlank c = false)
    (y : List Char) :
    (cutRule? (x ++ (arrow ++ y)) = some (strip x, y) ↔ 1 < (strip x).length ∨ NoArrow y) ∧
    ∀ z, ∀ later ∈ arrows, ∀ w, (strip x).length = 1 → NoArrow z → y = z ++ (later ++ w) →
      cutRule? (x ++ (arrow ++ y)) = some (strip (x ++ (arrow ++ z)), w) := by
  constructor
  · refine ⟨fun hcut => ?_, cutRule?_first harrow hvisible hx⟩
    by_contra hno
    obtain ⟨hshort, hy⟩ := not_or.mp hno
    obtain ⟨z, later, hlater, w, rfl, hz⟩ := NoArrow.exists_first hy
    have hone : (strip x).length = 1 := by
      obtain ⟨c, t, -, -, ⟨-, hstrip⟩ | ⟨-, -, htwo⟩⟩ := strip_cases hvisible
      · rw [hstrip, List.length_singleton]
      · exact absurd htwo hshort
    rw [cutRule?_later harrow hvisible hone hz hlater] at hcut
    -- what is left after the later arrow would be as long as what is left after the first
    have hlength := congrArg (fun cut => cut.2.length) (Option.some.inj hcut)
    obtain ⟨d, tail, rfl, -, -⟩ := exists_arrow_tail hlater
    simp only [List.length_append, List.length_cons] at hlength
    omega
  · rintro z later hlater w hone hz rfl
    exact cutRule?_later harrow hvisible hone hz hlater

/-- A longer left side ends at the first arrow, and a left side of one character at the second one. -/
theorem cutRule?_exact_twice :
    ['-', '>'] ∈ arrows ∧ NoArrow "Sx ".toList ∧ NoArrow "S ".toList ∧
    cutRule? ("Sx ".toList ++ (['-', '>'] ++ " A -> B".toList)) = some ("Sx".toList, " A -> B".toList) ∧
    cutRule? ("S ".toList ++ (['-', '>'] ++ " A -> B".toList)) = some ("S -> A".toList, " B".toList) := by
  have harrow : ['-', '>'] ∈ arrows := by decide
  have hlong : NoArrow "Sx ".toList := by decide
  have hshort : NoArrow "S ".toList := by decide
  refine ⟨harrow, hlong, hshort, ?_, ?_⟩
  · exact (cutRule?_exact harrow hlong ⟨'S', by decide⟩ _).1.mpr (.inl (by decide))
  · exact (cutRule?_exact harrow hshort ⟨'S', by decide⟩ _).2 " A ".toList ['-', '>'] harrow
      " B".toList (by decide) (by decide) rfl

/-- Not every line with a visible character before its first arrow is cut there. -/
theorem not_cut_at_first_arrow :
    ¬ ∀ x y : List Char, ∀ arrow ∈ arrows, (∃ c ∈ x, isBlank c = false) → NoArrow x →
      (∀ c ∈ x ++ (arrow ++ y), isLineEnd c = false) →
      (skipBlanks (x ++ (arrow ++ y))).head? ≠ some '#' → directive? (x ++ (arrow ++ y)) = none →
      (cutRule? (x ++ (arrow ++ y))).map (fun cut => (cut.1, strip cut.2)) =
        some (strip x, strip y) := by
  intro h
  have hcut := h "S ".toList " A -> B".toList ['-', '>'] (by decide) ⟨'S', by decide⟩ (by decide)
    (by simp; decide) (by decide) (by decide)
  revert hcut
  decide

end ContextFree
