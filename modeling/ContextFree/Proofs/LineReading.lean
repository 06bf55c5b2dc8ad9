import ContextFree.Proofs.FirstArrow

/-!
Lines of the text format that are written with single blanks, and what is read from them. A rule line is
cut at its only arrow (`cutRule?_rule`).
-/
namespace ContextFree

open Text

variable {c : Char} {cs rest w : List Char} {A : Symbol} {arguments : List Symbol}
  {bodies : List String}

/-! ## The arrow -/

/-- With no character that an arrow ends in. -/
def Arrowless (cs : List Char) : Prop := ∀ c ∈ cs, c ≠ '>' ∧ c ≠ '→'

instance (cs : List Char) : Decidable (Arrowless cs) :=
  decidable_of_iff (cs.all (fun c => c != '>' && c != '→') = true) <| by simp [Arrowless]

theorem Arrowless.noArrow (h : Arrowless cs) : NoArrow cs := by
  intro arrow harrow hinside
  obtain rfl | rfl := arrows_cases harrow
  · exact (h '>' (hinside.subset (by simp))).1 rfl
  · exact (h '→' (hinside.subset (by simp))).2 rfl

theorem cutRule?_rule (hw : IsWord w) (harrow : Arrowless w) (hrest : Arrowless rest) :
    cutRule? (w ++ ' ' :: '→' :: rest) = some (w, rest) := by
  have hfront : Arrowless (w ++ [' ']) := by
    intro c hc
    obtain hc | hc := List.mem_append.mp hc
    · exact harrow c hc
    · rw [List.mem_singleton.mp hc]
      decide
  have hvisible : ∃ c ∈ w ++ [' '], isBlank c = false := by
    obtain ⟨c, _, rfl, hc⟩ := hw.trimmed.head
    exact ⟨c, by simp, hc⟩
  have hcut : cutRule? (w ++ [' '] ++ (['→'] ++ rest)) = some (strip (w ++ [' ']), rest) :=
    cutRule?_first (by decide) hvisible hfront.noArrow (.inr hrest.noArrow)
  rw [strip_trimmed_blank hw.trimmed rfl] at hcut
  rwa [List.append_assoc] at hcut

/-! ## Directives -/

/-- A directive as it is written. -/
def Directive.line (d : Directive) (arguments : List Symbol) : String :=
  " ".intercalate (("%" ++ d.name) :: arguments)

theorem afterWord?_append {name : String} (hrest : rest.head?.any isWordCharacter = false) :
    afterWord? name (name.toList ++ rest) = some rest := by
  have hprefix : name.toList.isPrefixOf (name.toList ++ rest) = true :=
    List.isPrefixOf_iff_prefix.mpr (List.prefix_append _ _)
  rw [afterWord?, if_pos hprefix, ← String.length_toList, List.drop_left]
  dsimp only
  rw [hrest]
  rfl

/-- No directive's name starts another's. -/
theorem afterWord?_other {d e : Directive} (hne : e ≠ d) (rest : List Char) :
    afterWord? e.name (d.name.toList ++ rest) = none := by
  cases d <;> cases e <;> first | exact absurd rfl hne | rfl

theorem directive?_name (d : Directive) (hrest : rest.head?.any isWordCharacter = false) :
    directive? ('%' :: (d.name.toList ++ rest)) = some (d, (words rest).map String.ofList) := by
  have hskip : skipBlanks ('%' :: (d.name.toList ++ rest)) = '%' :: (d.name.toList ++ rest) := rfl
  have hown : afterWord? d.name (d.name.toList ++ rest) = some rest := afterWord?_append hrest
  unfold directive?
  rw [hskip]
  change [Directive.start, .nonterminals, .terminals].findSome? _ = _
  cases d with
  | start =>
    rw [List.findSome?_cons, hown]
    rfl
  | nonterminals =>
    rw [List.findSome?_cons, afterWord?_other (by decide), Option.map_none, List.findSome?_cons, hown]
    rfl
  | terminals =>
    rw [List.findSome?_cons, afterWord?_other (by decide), Option.map_none, List.findSome?_cons,
      afterWord?_other (by decide), Option.map_none, List.findSome?_cons, hown]
    rfl

theorem Directive.toList_line (d : Directive) (arguments : List Symbol) :
    (d.line arguments).toList = '%' :: (d.name.toList ++
      if arguments = [] then [] else ' ' :: [' '].intercalate (arguments.map String.toList)) := by
  cases arguments <;> simp [Directive.line]

theorem directive?_line (d : Directive) (hwords : ∀ s ∈ arguments, IsWord s.toList) :
    directive? (d.line arguments).toList = some (d, arguments) := by
  have hmap : ∀ w ∈ arguments.map String.toList, IsWord w := by simpa using hwords
  have hback : (arguments.map String.toList).map String.ofList = arguments := by simp
  rw [d.toList_line, directive?_name]
  · split
    · rename_i hnil
      rw [hnil]
      rfl
    · rw [words_blank_cons rfl, words_intercalate hmap, hback]
  · split <;> rfl

theorem Directive.onLine_line (d : Directive) (hwords : ∀ s ∈ arguments, IsWord s.toList) :
    ∀ c ∈ (d.line arguments).toList, isLineEnd c = false := by
  have hname : ("%" ++ d.name).toList.all (!isLineEnd ·) = true := by cases d <;> decide
  rw [List.all_eq_true] at hname
  intro c hc
  rw [Directive.line, String.toList_intercalate] at hc
  obtain hsep | ⟨w, hw, hc⟩ := mem_intercalate hc
  · rw [List.mem_singleton.mp hsep]
    rfl
  · rw [List.map_cons, List.mem_cons] at hw
    obtain rfl | hw := hw
    · simpa using hname c hc
    · obtain ⟨s, hs, rfl⟩ := List.mem_map.mp hw
      exact isLineEnd_eq_false ((hwords s hs).visible c hc)

theorem Line.read_directive (number : Nat) (d : Directive)
    (hwords : ∀ s ∈ arguments, IsWord s.toList) :
    Line.read number (d.line arguments).toList = .ok (.directive d arguments) := by
  have hshown : ¬ (skipBlanks (d.line arguments).toList = [] ∨
      (skipBlanks (d.line arguments).toList).head? = some '#') := by
    rw [d.toList_line, skipBlanks, List.dropWhile_cons_of_neg (by decide)]
    simp
  rw [Line.read, if_neg hshown, directive?_line d hwords]

/-! ## Rule lines -/

/-- A rule as it is written, with its alternatives as text. -/
def ruleText (A : Symbol) (bodies : List String) : String := A ++ " → " ++ " | ".intercalate bodies

/-- What stands after the arrow. -/
def bodyText (bodies : List String) : List Char :=
  ' ' :: [' ', '|', ' '].intercalate (bodies.map String.toList)

theorem toList_ruleText (A : Symbol) (bodies : List String) :
    (ruleText A bodies).toList = A.toList ++ ' ' :: '→' :: bodyText bodies := by
  simp [ruleText, bodyText]

/-- A left side that begins no comment and no directive. -/
structure IsLeftSide (A : Symbol) : Prop where
  word : IsWord A.toList
  arrowless : Arrowless A.toList
  noComment : A.toList.head? ≠ some '#'
  noDirective : A.toList.head? ≠ some '%'

/-- Text that can stand for one alternative: no blank at its ends, and in it no line end, no bar and
no arrow. -/
structure IsAlternative (cs : List Char) : Prop where
  trimmed : Trimmed cs
  onLine : ∀ c ∈ cs, isLineEnd c = false
  noBar : '|' ∉ cs
  arrowless : Arrowless cs

/-- A rule that can be written on one line. -/
structure IsRule (A : Symbol) (bodies : List String) : Prop where
  leftSide : IsLeftSide A
  hasBodies : bodies ≠ []
  alternatives : ∀ b ∈ bodies, IsAlternative b.toList

theorem IsLeftSide.directive?_eq_none (hA : IsLeftSide A) (rest : List Char) :
    directive? (A.toList ++ rest) = none := by
  obtain ⟨c, cs, htext, -⟩ := hA.word.trimmed.head
  have hdirective := hA.noDirective
  unfold directive?
  rw [skipBlanks_of_trimmed hA.word.trimmed, htext]
  rw [htext] at hdirective
  split
  · rename_i heq
    cases heq
    exact absurd rfl hdirective
  · rfl

namespace IsRule

theorem bodyText_onLine (h : IsRule A bodies) :
    ∀ c ∈ bodyText bodies, isLineEnd c = false ∧ c ≠ '>' ∧ c ≠ '→' := by
  intro c hc
  obtain rfl | hc := List.mem_cons.mp hc
  · decide
  obtain hsep | ⟨text, htext, hc⟩ := mem_intercalate hc
  · simp only [List.mem_cons, List.not_mem_nil, or_false] at hsep
    obtain rfl | rfl | rfl := hsep <;> decide
  · obtain ⟨b, hb, rfl⟩ := List.mem_map.mp htext
    exact ⟨(h.alternatives b hb).onLine c hc, (h.alternatives b hb).arrowless c hc⟩

theorem onLine (h : IsRule A bodies) : ∀ c ∈ (ruleText A bodies).toList, isLineEnd c = false := by
  intro c hc
  rw [toList_ruleText, List.mem_append, List.mem_cons, List.mem_cons] at hc
  obtain hc | rfl | rfl | hc := hc
  · exact isLineEnd_eq_false (h.leftSide.word.visible c hc)
  · rfl
  · rfl
  · exact (h.bodyText_onLine c hc).1

theorem text_ne_nil (h : IsRule A bodies) : (ruleText A bodies).toList ≠ [] := by
  rw [toList_ruleText]
  exact List.append_ne_nil_of_left_ne_nil h.leftSide.word.ne_nil _

theorem pieces_bodyText (h : IsRule A bodies) :
    (pieces '|' (bodyText bodies)).map strip = bodies.map String.toList := by
  apply pieces_padded rfl _ (by simpa using h.hasBodies)
  intro text htext
  obtain ⟨b, hb, rfl⟩ := List.mem_map.mp htext
  exact ⟨(h.alternatives b hb).trimmed, (h.alternatives b hb).noBar⟩

/-- The line is not skipped. -/
theorem not_skipped (h : IsRule A bodies) : ¬ (skipBlanks (ruleText A bodies).toList = [] ∨
    (skipBlanks (ruleText A bodies).toList).head? = some '#') := by
  obtain ⟨c, cs, htext, -⟩ := h.leftSide.word.trimmed.head
  have hcomment := h.leftSide.noComment
  rw [htext] at hcomment
  rw [toList_ruleText, skipBlanks_of_trimmed h.leftSide.word.trimmed, htext]
  simpa using hcomment

theorem read (h : IsRule A bodies) (number : Nat) :
    Line.read number (ruleText A bodies).toList = .ok (.rule A bodies) := by
  have hcut : cutRule? (A.toList ++ ' ' :: '→' :: bodyText bodies) = some (A.toList, bodyText bodies) :=
    cutRule?_rule h.leftSide.word h.leftSide.arrowless fun c hc => (h.bodyText_onLine c hc).2
  have hfull : (bodies.map String.toList).contains [] = false := by
    rw [Bool.eq_false_iff, Ne, List.contains_iff_mem, List.mem_map]
    rintro ⟨b, hb, hnil⟩
    exact (h.alternatives b hb).trimmed.ne_nil hnil
  have hback : (bodies.map String.toList).map String.ofList = bodies := by simp
  rw [Line.read, if_neg h.not_skipped, toList_ruleText, h.leftSide.directive?_eq_none, hcut]
  dsimp only
  rw [words_eq_singleton h.leftSide.word, h.pieces_bodyText, hfull, hback, String.ofList_toList]
  rfl

end IsRule

end ContextFree
