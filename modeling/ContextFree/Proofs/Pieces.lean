import ContextFree.Text.Blank

/-!
Text that has been put together is taken apart into what it was made of: lines that hold no line end
(`lines_intercalate`), words that hold no blank (`words_intercalate`), and pieces that hold no separator,
each between blanks that stripping removes (`pieces_padded`).
-/
namespace ContextFree.Text

variable {c sep : Char} {cs rest l w : List Char} {ls ws bs : List (List Char)}

theorem mem_intercalate {separator : List Char} (h : c ∈ separator.intercalate ls) :
    c ∈ separator ∨ ∃ l ∈ ls, c ∈ l := by
  induction ls with
  | nil => simp at h
  | cons l rest ih =>
    cases rest with
    | nil => exact .inr ⟨l, List.mem_cons_self, by simpa using h⟩
    | cons l' rest =>
      rw [List.intercalate_cons_cons, List.mem_append, List.mem_append] at h
      obtain (hl | hsep) | hrest := h
      · exact .inr ⟨l, List.mem_cons_self, hl⟩
      · exact .inl hsep
      · obtain hsep | ⟨x, hx, hc⟩ := ih hrest
        · exact .inl hsep
        · exact .inr ⟨x, List.mem_cons_of_mem _ hx, hc⟩

theorem nil_intercalate (ls : List (List Char)) : [].intercalate ls = ls.flatten := by
  induction ls with
  | nil => rfl
  | cons l rest ih =>
    cases rest with
    | nil => simp
    | cons l' rest => rw [List.intercalate_cons_cons, ih, List.append_nil, List.flatten_cons (l := l)]

theorem isLineEnd_eq_false (hc : isBlank c = false) : isLineEnd c = false := by
  rw [Bool.eq_false_iff]
  intro h
  rw [isBlank_of_isLineEnd h] at hc
  cases hc

/-! ## Lines -/

/-- A character that ends no line belongs to the line that follows it. -/
theorem lines_cons (hc : isLineEnd c = false) :
    lines (c :: cs) = match lines cs with
      | [] => [[c]]
      | l :: ls => (c :: l) :: ls := by
  rw [lines]
  · exact if_neg (by simp [hc])
  · rintro _ rfl
    cases hc

theorem lines_append (hl : ∀ c ∈ l, isLineEnd c = false) :
    lines (l ++ '\n' :: rest) = l :: lines rest := by
  induction l with
  | nil => rfl
  | cons c l ih =>
    obtain ⟨hc, hl⟩ := List.forall_mem_cons.mp hl
    rw [List.cons_append, lines_cons hc, ih hl]

theorem lines_eq_singleton (hl : ∀ c ∈ l, isLineEnd c = false) (hne : l ≠ []) : lines l = [l] := by
  induction l with
  | nil => exact absurd rfl hne
  | cons c l ih =>
    obtain ⟨hc, hl⟩ := List.forall_mem_cons.mp hl
    rw [lines_cons hc]
    cases l with
    | nil => rfl
    | cons d l => rw [ih hl (List.cons_ne_nil d l)]

theorem lines_intercalate (hls : ∀ l ∈ ls, l ≠ [] ∧ ∀ c ∈ l, isLineEnd c = false) :
    lines (['\n'].intercalate ls) = ls := by
  induction ls with
  | nil => rfl
  | cons l rest ih =>
    obtain ⟨⟨hne, hl⟩, hrest⟩ := List.forall_mem_cons.mp hls
    cases rest with
    | nil => rw [List.intercalate_singleton, lines_eq_singleton hl hne]
    | cons l' rest =>
      rw [List.intercalate_cons_cons, List.append_assoc, List.singleton_append, lines_append hl, ih hrest]

/-! ## Words -/

/-- What a word is made of. -/
structure IsWord (w : List Char) : Prop where
  ne_nil : w ≠ []
  visible : ∀ c ∈ w, isBlank c = false

instance (w : List Char) : Decidable (IsWord w) :=
  decidable_of_iff (w ≠ [] ∧ w.all (!isBlank ·) = true) <| by
    simp only [List.all_eq_true, Bool.not_eq_true']
    exact ⟨fun h => ⟨h.1, h.2⟩, fun h => ⟨h.ne_nil, h.visible⟩⟩

theorem words_blank_cons (hc : isBlank c = true) : words (c :: cs) = words cs := by
  rw [words, if_pos hc]

theorem words_append (hw : IsWord w) (hrest : rest.head?.all isBlank = true) :
    words (w ++ rest) = w :: words rest := by
  obtain ⟨hne, hvisible⟩ := hw
  induction w with
  | nil => exact absurd rfl hne
  | cons c w ih =>
    obtain ⟨hc, hw⟩ := List.forall_mem_cons.mp hvisible
    rw [List.cons_append, words, if_neg (by simp [hc])]
    cases w with
    | nil => rw [List.nil_append, if_pos hrest]
    | cons d w =>
      have hd : isBlank d = false := hw d List.mem_cons_self
      rw [if_neg (by simp [hd]), ih (List.cons_ne_nil d w) hw]

theorem words_eq_singleton (hw : IsWord w) : words w = [w] := by
  have halone : words (w ++ []) = w :: words [] := words_append hw rfl
  rwa [List.append_nil] at halone

theorem words_intercalate (hws : ∀ w ∈ ws, IsWord w) : words ([' '].intercalate ws) = ws := by
  induction ws with
  | nil => rfl
  | cons w rest ih =>
    obtain ⟨hw, hrest⟩ := List.forall_mem_cons.mp hws
    cases rest with
    | nil => rw [List.intercalate_singleton, words_eq_singleton hw]
    | cons w' rest =>
      rw [List.intercalate_cons_cons, List.append_assoc, words_append hw rfl, List.singleton_append,
        words_blank_cons rfl, ih hrest]

/-! ## Stripping -/

/-- Neither the first nor the last character is a blank. -/
structure Trimmed (cs : List Char) : Prop where
  head : ∃ c rest, cs = c :: rest ∧ isBlank c = false
  last : ∃ c rest, cs = rest ++ [c] ∧ isBlank c = false

theorem Trimmed.ne_nil (h : Trimmed cs) : cs ≠ [] := by
  obtain ⟨c, rest, rfl, -⟩ := h.head
  exact List.cons_ne_nil c rest

theorem IsWord.trimmed (hw : IsWord w) : Trimmed w where
  head := by
    cases w with
    | nil => exact absurd rfl hw.ne_nil
    | cons c w => exact ⟨c, w, rfl, hw.visible c List.mem_cons_self⟩
  last := by
    have hlast := List.dropLast_concat_getLast hw.ne_nil
    exact ⟨_, _, hlast.symm, hw.visible _ (List.getLast_mem hw.ne_nil)⟩

theorem trimmed_intercalate {separator : List Char} (hls : ∀ l ∈ ls, Trimmed l) (hne : ls ≠ []) :
    Trimmed (separator.intercalate ls) := by
  induction ls with
  | nil => exact absurd rfl hne
  | cons l rest ih =>
    obtain ⟨hl, hrest⟩ := List.forall_mem_cons.mp hls
    cases rest with
    | nil => rwa [List.intercalate_singleton]
    | cons l' rest =>
      obtain ⟨c, front, hfront, hc⟩ := hl.head
      obtain ⟨d, back, hback, hd⟩ := (ih hrest (List.cons_ne_nil l' rest)).last
      rw [List.intercalate_cons_cons]
      constructor
      · exact ⟨c, front ++ separator ++ separator.intercalate (l' :: rest), by simp [hfront], hc⟩
      · exact ⟨d, l ++ separator ++ back, by simp [hback], hd⟩

theorem skipBlanks_of_trimmed (h : Trimmed cs) (rest : List Char) :
    skipBlanks (cs ++ rest) = cs ++ rest := by
  obtain ⟨c, cs, rfl, hc⟩ := h.head
  rw [skipBlanks, List.cons_append, List.dropWhile_cons_of_neg (by simp [hc])]

theorem Trimmed.reverse (h : Trimmed cs) : Trimmed cs.reverse where
  head := by
    obtain ⟨c, rest, rfl, hc⟩ := h.last
    exact ⟨c, rest.reverse, by simp, hc⟩
  last := by
    obtain ⟨c, rest, rfl, hc⟩ := h.head
    exact ⟨c, rest.reverse, by simp, hc⟩

theorem skipBlanks_blank_cons (hc : isBlank c = true) : skipBlanks (c :: cs) = skipBlanks cs := by
  rw [skipBlanks, List.dropWhile_cons_of_pos hc, skipBlanks]

theorem strip_of_trimmed (h : Trimmed cs) : strip cs = cs := by
  have hfront := skipBlanks_of_trimmed h []
  have hback := skipBlanks_of_trimmed h.reverse []
  rw [List.append_nil] at hfront hback
  rw [strip, hfront, hback, List.reverse_reverse]

theorem strip_blank_cons (hc : isBlank c = true) : strip (c :: cs) = strip cs := by
  rw [strip, skipBlanks_blank_cons hc, strip]

theorem strip_trimmed_blank (h : Trimmed cs) (hc : isBlank c = true) : strip (cs ++ [c]) = cs := by
  have hback := skipBlanks_of_trimmed h.reverse []
  rw [List.append_nil] at hback
  rw [strip, skipBlanks_of_trimmed h, List.reverse_append, List.reverse_singleton,
    List.singleton_append, skipBlanks_blank_cons hc, hback, List.reverse_reverse]

/-! ## Pieces -/

theorem pieces_append (hl : sep ∉ l) : pieces sep (l ++ sep :: rest) = l :: pieces sep rest := by
  induction l with
  | nil => rw [List.nil_append, pieces, if_pos rfl]
  | cons c l ih =>
    have hc : c ≠ sep := (List.ne_of_not_mem_cons hl).symm
    rw [List.cons_append, pieces, if_neg hc, ih (List.not_mem_of_not_mem_cons hl)]

theorem pieces_eq_singleton (hl : sep ∉ l) : pieces sep l = [l] := by
  induction l with
  | nil => rfl
  | cons c l ih =>
    have hc : c ≠ sep := (List.ne_of_not_mem_cons hl).symm
    rw [pieces, if_neg hc, ih (List.not_mem_of_not_mem_cons hl)]

/-- Pieces that are set apart by a separator between two blanks, after a blank. -/
theorem pieces_padded (hsep : isBlank sep = false) (hbs : ∀ b ∈ bs, Trimmed b ∧ sep ∉ b) (hne : bs ≠ []) :
    (pieces sep (' ' :: [' ', sep, ' '].intercalate bs)).map strip = bs := by
  have hblank : sep ≠ ' ' := by
    rintro rfl
    cases hsep
  induction bs with
  | nil => exact absurd rfl hne
  | cons b rest ih =>
    obtain ⟨⟨htrim, hb⟩, hrest⟩ := List.forall_mem_cons.mp hbs
    cases rest with
    | nil =>
      have hpiece : sep ∉ ' ' :: b := by simp [hblank, hb]
      rw [List.intercalate_singleton, pieces_eq_singleton hpiece, List.map_singleton,
        strip_blank_cons rfl, strip_of_trimmed htrim]
    | cons b' rest =>
      have hpiece : sep ∉ ' ' :: (b ++ [' ']) := by simp [hblank, hb]
      have htext : ' ' :: [' ', sep, ' '].intercalate (b :: b' :: rest) =
          ' ' :: (b ++ [' ']) ++ sep :: ' ' :: [' ', sep, ' '].intercalate (b' :: rest) := by
        simp [List.intercalate_cons_cons]
      rw [htext, pieces_append hpiece, List.map_cons, strip_blank_cons rfl, strip_trimmed_blank htrim rfl,
        ih hrest (List.cons_ne_nil b' rest)]

end ContextFree.Text
