import ContextFree.Proofs.Split
import ContextFree.Grammar.Create

/-!
Which split is found. Without unknown characters it is found exactly if there is one, and no other split of
the text has lengths that are lexicographically as great (`split?_eq_some_iff`): the first symbol is the
longest one after which the rest can be split, and what follows is the preferred split of the rest. With
unknown characters every rest can be split, so that at each place the longest symbol that fits is taken, and
a single character only where none fits (`split?_true_eq_some_iff`).
-/
namespace ContextFree

variable {symbols symbols' tried : List Symbol} {anyCharacter : Bool} {s : Symbol} {c : Char}
  {cs text : List Char} {body other : Body}

/-! ## Splits into declared symbols -/

theorem splitsAs_iff : SplitsAs symbols text body ↔
    body.flatMap String.toList = text ∧ ∀ s ∈ body, s ∈ symbols ∧ s ≠ "" := by
  constructor
  · intro h
    induction h with
    | nil => simp
    | cons declared visible _ ih =>
      obtain ⟨hjoin, hbody⟩ := ih
      rw [List.flatMap_cons, hjoin]
      exact ⟨rfl, List.forall_mem_cons.mpr ⟨⟨declared, visible⟩, hbody⟩⟩
  · rintro ⟨rfl, hbody⟩
    induction body with
    | nil => exact .nil
    | cons s body ih =>
      obtain ⟨⟨declared, visible⟩, hrest⟩ := List.forall_mem_cons.mp hbody
      exact .cons declared visible (ih hrest)

theorem splitsAs_candidates_iff : SplitsAs (candidates symbols) text body ↔
    SplitsAs symbols text body := by
  simp only [splitsAs_iff, mem_candidates, and_assoc, and_self]

theorem visible_of_mem_candidates : ∀ s ∈ candidates symbols, s ≠ "" :=
  fun _ hs => (mem_candidates.mp hs).2

theorem exists_cons_of_visible (visible : s ≠ "") (text : List Char) :
    ∃ c cs, s.toList ++ text = c :: cs := by
  apply List.exists_cons_of_ne_nil
  intro htext
  exact visible (String.toList_eq_nil_iff.mp (List.append_eq_nil_iff.mp htext).1)

theorem splitAfter?_eq_some_iff : splitAfter? tried anyCharacter text s = some body ↔
    ∃ rest later, text = s.toList ++ rest ∧ splitBy? tried anyCharacter rest = some later ∧
      body = s :: later := by
  unfold splitAfter?
  constructor
  · intro h
    split at h
    · rename_i hprefix
      obtain ⟨rest, rfl⟩ := List.isPrefixOf_iff_prefix.mp hprefix
      obtain ⟨later, hlater, rfl⟩ := Option.map_eq_some_iff.mp h
      rw [← String.length_toList, List.drop_left] at hlater
      exact ⟨rest, later, rfl, hlater, rfl⟩
    · cases h
  · rintro ⟨rest, later, rfl, hlater, rfl⟩
    have hprefix : s.toList.isPrefixOf (s.toList ++ rest) = true :=
      List.isPrefixOf_iff_prefix.mpr (List.prefix_append _ _)
    rw [if_pos hprefix, ← String.length_toList, List.drop_left, hlater]
    rfl

/-- A symbol of some length leaves a shorter rest. -/
theorem length_rest_lt {rest : List Char} (visible : s ≠ "") (htext : text = s.toList ++ rest) :
    rest.length < text.length := by
  have hpos : s.toList.length ≠ 0 := fun h =>
    visible (String.toList_eq_nil_iff.mp (List.length_eq_zero_iff.mp h))
  rw [htext, List.length_append]
  omega

/-- What is found is the first success in the order in which symbols are tried. -/
theorem splitBy?_false_cons_iff (hne : ∀ s ∈ tried, s ≠ "") :
    splitBy? tried false (c :: cs) = some body ↔
      ∃ before s after, tried = before ++ s :: after ∧
        splitAfter? tried false (c :: cs) s = some body ∧
        ∀ t ∈ before, splitAfter? tried false (c :: cs) t = none := by
  rw [splitBy?_cons hne, if_neg Bool.false_ne_true, Option.or_none]
  exact List.findSome?_eq_some_iff

theorem splitsAs_of_splitBy? (hne : ∀ s ∈ tried, s ≠ "")
    (h : splitBy? tried false text = some body) : SplitsAs tried text body := by
  induction hn : text.length using Nat.strongRecOn generalizing text body with
  | ind n ih =>
    cases text with
    | nil =>
      cases h
      exact .nil
    | cons c cs =>
      obtain ⟨before, s, after, hsplit, hs, -⟩ := (splitBy?_false_cons_iff hne).mp h
      have hmem : s ∈ tried := by simp [hsplit]
      obtain ⟨rest, later, htext, hlater, rfl⟩ := splitAfter?_eq_some_iff.mp hs
      have hshorter := length_rest_lt (hne s hmem) htext
      rw [htext]
      exact .cons hmem (hne s hmem) (ih _ (hn ▸ hshorter) hlater rfl)

theorem exists_splitBy?_of_splitsAs (hne : ∀ s ∈ tried, s ≠ "") (h : SplitsAs tried text other) :
    ∃ body, splitBy? tried false text = some body := by
  induction h with
  | nil => exact ⟨[], rfl⟩
  | @cons s text other declared visible rest ih =>
    obtain ⟨later, hlater⟩ := ih
    have hs : splitAfter? tried false (s.toList ++ text) s = some (s :: later) :=
      splitAfter?_eq_some_iff.mpr ⟨text, later, rfl, hlater, rfl⟩
    obtain ⟨c, cs, htext⟩ := exists_cons_of_visible visible text
    rw [htext] at hs ⊢
    have hfound : (tried.findSome? (splitAfter? tried false (c :: cs))).isSome = true :=
      List.findSome?_isSome_iff.mpr ⟨s, declared, by rw [hs]; rfl⟩
    rw [splitBy?_cons hne, if_neg Bool.false_ne_true, Option.or_none]
    exact Option.isSome_iff_exists.mp hfound

/-- A symbol that is not tried before another one is no longer than it. -/
theorem length_le_of_notMem {t : Symbol} {before after : List Symbol}
    (hsorted : (before ++ s :: after).Pairwise fun a b => longerFirst a b = true)
    (ht : t ∈ before ++ s :: after) (hnot : t ∉ before) : t.length ≤ s.length := by
  obtain hmem | hmem := List.mem_append.mp ht
  · exact absurd hmem hnot
  · cases hmem with
    | head => exact Nat.le_refl _
    | tail _ hafter =>
      have hpair := (List.pairwise_append.mp hsorted).2.1
      exact length_le_of_longerFirst (List.rel_of_pairwise_cons hpair hafter)

/-- Two symbols of one length that start the same text are the same. -/
theorem eq_of_append_eq {t : Symbol} {u v : List Char} (h : s.toList ++ u = t.toList ++ v)
    (hlen : s.length = t.length) : s = t ∧ u = v := by
  have hchars : s.toList.length = t.toList.length := by
    rw [String.length_toList, String.length_toList, hlen]
  obtain ⟨hst, huv⟩ := List.append_inj h hchars
  exact ⟨String.toList_inj.mp hst, huv⟩

/-- The lengths of `other` are lexicographically smaller than those of `body`. -/
def ShorterFirst (other body : Body) : Prop :=
  List.Lex (· < ·) (other.map String.length) (body.map String.length)

/-- No other split comes up to the one that is found. Up to the first symbol that differs the rests are the
same, and there the symbol that is found is longer, since longer ones are tried first. -/
theorem shorterFirst_of_splitBy? (hne : ∀ s ∈ tried, s ≠ "")
    (hsorted : tried.Pairwise fun a b => longerFirst a b = true)
    (h : splitBy? tried false text = some body) (hother : SplitsAs tried text other)
    (hdiffer : other ≠ body) : ShorterFirst other body := by
  induction hother generalizing body with
  | nil =>
    cases h
    exact absurd rfl hdiffer
  | @cons t rest' later' declared visible hrest' ih =>
    obtain ⟨c, cs, htext⟩ := exists_cons_of_visible visible rest'
    rw [htext] at h
    obtain ⟨before, s, after, hsplit, hs, hbefore⟩ := (splitBy?_false_cons_iff hne).mp h
    obtain ⟨rest, later, hcs, hlater, rfl⟩ := splitAfter?_eq_some_iff.mp hs
    -- The rest after `t` can be split, so `t` was not passed over.
    have hnot : t ∉ before := by
      intro hmem
      obtain ⟨found, hfound⟩ := exists_splitBy?_of_splitsAs hne hrest'
      have ht : splitAfter? tried false (c :: cs) t = some (t :: found) :=
        splitAfter?_eq_some_iff.mpr ⟨rest', found, htext.symm, hfound, rfl⟩
      cases (hbefore t hmem).symm.trans ht
    have hle : t.length ≤ s.length :=
      length_le_of_notMem (hsplit ▸ hsorted) (hsplit ▸ declared) hnot
    obtain hlt | heq := Nat.lt_or_eq_of_le hle
    · exact .rel hlt
    · obtain ⟨rfl, rfl⟩ := eq_of_append_eq (htext.trans hcs) heq
      exact .cons (ih hlater fun e => hdiffer (e ▸ rfl))

/-- A split whose lengths are lexicographically greater than those of every other one. -/
structure Preferred (symbols : List Symbol) (text : List Char) (body : Body) : Prop where
  splits : SplitsAs symbols text body
  greatest : ∀ other, SplitsAs symbols text other → other ≠ body → ShorterFirst other body

theorem ShorterFirst.asymm (h : ShorterFirst other body) : ¬ ShorterFirst body other :=
  fun h' => List.lt_asymm (α := Nat) h h'

theorem Preferred.unique (h : Preferred symbols text body) (h' : Preferred symbols text other) :
    other = body := by
  apply Decidable.byContradiction
  intro hne
  exact (h.greatest other h'.splits hne).asymm (h'.greatest body h.splits (Ne.symm hne))

theorem split?_eq_some_iff : split? symbols false text = some body ↔ Preferred symbols text body := by
  have hne : ∀ s ∈ candidates symbols, s ≠ "" := visible_of_mem_candidates
  have hfound {body : Body} (h : split? symbols false text = some body) :
      Preferred symbols text body := by
    rw [split?_eq_splitBy?] at h
    refine ⟨splitsAs_candidates_iff.mp (splitsAs_of_splitBy? hne h), fun other hother => ?_⟩
    exact shorterFirst_of_splitBy? hne (pairwise_candidates symbols) h
      (splitsAs_candidates_iff.mpr hother)
  refine ⟨hfound, fun h => ?_⟩
  obtain ⟨found, hsome⟩ := exists_splitBy?_of_splitsAs hne (splitsAs_candidates_iff.mpr h.splits)
  rw [← split?_eq_splitBy?] at hsome
  rw [hsome, (hfound hsome).unique h]

theorem split?_eq_none_iff :
    split? symbols false text = none ↔ ¬ ∃ body, SplitsAs symbols text body := by
  constructor
  · rintro h ⟨body, hbody⟩
    obtain ⟨found, hsome⟩ := exists_splitBy?_of_splitsAs visible_of_mem_candidates
      (splitsAs_candidates_iff.mpr hbody)
    cases h.symm.trans hsome
  · intro h
    cases hsplit : split? symbols false text with
    | none => rfl
    | some body => exact absurd ⟨body, (split?_eq_some_iff.mp hsplit).splits⟩ h

/-- What can be split has a preferred split. -/
theorem exists_preferred (h : ∃ body, SplitsAs symbols text body) : ∃ body, Preferred symbols text body := by
  cases hsplit : split? symbols false text with
  | none => exact absurd h (split?_eq_none_iff.mp hsplit)
  | some body => exact ⟨body, split?_eq_some_iff.mp hsplit⟩

theorem SplitsAs.congr (h : ∀ s, s ∈ symbols ↔ s ∈ symbols') :
    SplitsAs symbols text body ↔ SplitsAs symbols' text body := by
  simp only [splitsAs_iff, h]

theorem Preferred.congr (h : ∀ s, s ∈ symbols ↔ s ∈ symbols') :
    Preferred symbols text body ↔ Preferred symbols' text body := by
  have himp {d d' : List Symbol} (h : ∀ s, s ∈ d ↔ s ∈ d') (hb : Preferred d text body) :
      Preferred d' text body :=
    ⟨(SplitsAs.congr h).mp hb.splits, fun other ho => hb.greatest other ((SplitsAs.congr h).mpr ho)⟩
  exact ⟨himp h, himp fun s => (h s).symm⟩

/-- A text that is not declared itself takes several symbols. -/
theorem SplitsAs.two_le_length (h : SplitsAs symbols s.toList body) (hne : s ≠ "") (hs : s ∉ symbols) :
    2 ≤ body.length := by
  obtain ⟨hjoin, hbody⟩ := splitsAs_iff.mp h
  match body with
  | [] => exact absurd (String.toList_eq_nil_iff.mp hjoin.symm) hne
  | [t] =>
    rw [List.flatMap_singleton, String.toList_inj] at hjoin
    exact absurd (hjoin ▸ (hbody t List.mem_cons_self).1) hs
  | _ :: _ :: _ => simp

/-! ## Unknown characters -/

/-- A text read from the left: at each place the longest symbol that fits, or one character where none
fits. -/
inductive LongestMatch (symbols : List Symbol) : List Char → Body → Prop
  | nil : LongestMatch symbols [] []
  | symbol {s : Symbol} {text : List Char} {body : Body} (declared : s ∈ symbols) (visible : s ≠ "")
      (longest : ∀ t ∈ symbols, t.toList <+: s.toList ++ text → t.length ≤ s.length)
      (rest : LongestMatch symbols text body) : LongestMatch symbols (s.toList ++ text) (s :: body)
  | unknown {c : Char} {text : List Char} {body : Body}
      (alone : ∀ t ∈ symbols, t ≠ "" → ¬ t.toList <+: c :: text)
      (rest : LongestMatch symbols text body) :
      LongestMatch symbols (c :: text) (String.singleton c :: body)

theorem LongestMatch.join_eq (h : LongestMatch symbols text body) :
    body.flatMap String.toList = text := by
  induction h with
  | nil => rfl
  | symbol _ _ _ _ ih => rw [List.flatMap_cons, ih]
  | unknown _ _ ih => rw [List.flatMap_cons, ih, String.toList_singleton, List.singleton_append]

/-- The candidates are in the order of their lengths, so the first one that fits is the longest one. -/
theorem longest_fitting (symbols : List Symbol) (text : List Char) :
    (∃ s ∈ symbols, s ≠ "" ∧ s.toList <+: text ∧
      ∀ t ∈ symbols, t.toList <+: text → t.length ≤ s.length) ∨
    ∀ t ∈ symbols, t ≠ "" → ¬ t.toList <+: text := by
  cases hfind : (candidates symbols).find? (·.toList.isPrefixOf text) with
  | none =>
    refine .inr fun t ht hne hprefix => ?_
    have hno := List.find?_eq_none.mp hfind t (mem_candidates.mpr ⟨ht, hne⟩)
    exact hno (List.isPrefixOf_iff_prefix.mpr hprefix)
  | some s =>
    obtain ⟨hfits, before, after, hsplit, hbefore⟩ := List.find?_eq_some_iff_append.mp hfind
    have hs : s ∈ symbols ∧ s ≠ "" := mem_candidates.mp (by simp [hsplit])
    refine .inl ⟨s, hs.1, hs.2, List.isPrefixOf_iff_prefix.mp hfits, fun t ht hprefix => ?_⟩
    by_cases hne : t = ""
    · simp [hne]
    · have hnot : t ∉ before := by
        intro hmem
        have hno := hbefore t hmem
        rw [List.isPrefixOf_iff_prefix.mpr hprefix] at hno
        cases hno
      exact length_le_of_notMem (hsplit ▸ pairwise_candidates symbols)
        (hsplit ▸ mem_candidates.mpr ⟨ht, hne⟩) hnot

theorem exists_longestMatch (symbols : List Symbol) (text : List Char) :
    ∃ body, LongestMatch symbols text body := by
  induction hn : text.length using Nat.strongRecOn generalizing text with
  | ind n ih =>
    cases text with
    | nil => exact ⟨[], .nil⟩
    | cons c cs =>
      obtain ⟨s, declared, visible, ⟨rest, htext⟩, longest⟩ | alone :=
        longest_fitting symbols (c :: cs)
      · have hshorter := length_rest_lt visible htext.symm
        obtain ⟨body, hbody⟩ := ih _ (hn ▸ hshorter) rest rfl
        rw [← htext] at longest ⊢
        exact ⟨s :: body, .symbol declared visible longest hbody⟩
      · obtain ⟨body, hbody⟩ := ih cs.length (hn ▸ Nat.lt_succ_self _) cs rfl
        exact ⟨String.singleton c :: body, .unknown alone hbody⟩

theorem LongestMatch.split? (h : LongestMatch symbols text body) :
    split? symbols true text = some body := by
  induction h with
  | nil => rfl
  | symbol declared visible longest _ ih => exact split?_append declared visible longest ih
  | @unknown c text body alone _ ih =>
    have hnone : (candidates symbols).findSome? (splitAfter? (candidates symbols) true (c :: text)) =
        none := by
      apply List.findSome?_eq_none_iff.mpr
      intro t ht
      obtain ⟨ht, hne⟩ := mem_candidates.mp ht
      exact if_neg fun hprefix => alone t ht hne (List.isPrefixOf_iff_prefix.mp hprefix)
    rw [split?_eq_splitBy?] at ih ⊢
    rw [splitBy?_cons visible_of_mem_candidates, hnone, ih]
    rfl

theorem split?_true_eq_some_iff :
    split? symbols true text = some body ↔ LongestMatch symbols text body := by
  refine ⟨fun h => ?_, LongestMatch.split?⟩
  obtain ⟨other, hother⟩ := exists_longestMatch symbols text
  have hsame : some body = some other := h.symm.trans hother.split?
  cases hsame
  exact hother

/-! ## Both ways -/

theorem splitBody_eq_ok_iff {text : String} :
    splitBody symbols anyCharacter text = .ok body ↔
      split? symbols anyCharacter text.toList = some body := by
  unfold splitBody
  cases split? symbols anyCharacter text.toList <;> simp

theorem splitBody_eq_error_iff {text : String} {e : GrammarError} :
    splitBody symbols anyCharacter text = .error e ↔
      e = .malformed (.unsplittable text) ∧ split? symbols anyCharacter text.toList = none := by
  unfold splitBody
  cases split? symbols anyCharacter text.toList <;> simp [eq_comm]

/-- **Splitting finds the preferred split.** A text is refused exactly if it is no concatenation of declared
symbols, and otherwise the split with the lexicographically greatest lengths is found. Where single
characters may stand for themselves nothing is refused: the split is read from the left by longest match. -/
theorem splitBody_preferred (symbols : List Symbol) (text : String) :
    (∀ e, splitBody symbols false text = .error e ↔
      e = .malformed (.unsplittable text) ∧ ¬ ∃ body, SplitsAs symbols text.toList body) ∧
    (∀ body, splitBody symbols false text = .ok body ↔ Preferred symbols text.toList body) ∧
    (∃ body, splitBody symbols true text = .ok body ∧ body.flatMap String.toList = text.toList) ∧
    ∀ body, splitBody symbols true text = .ok body ↔ LongestMatch symbols text.toList body := by
  refine ⟨fun e => ?refused, fun body => ?found, ?total, fun body => ?longest⟩
  case refused => rw [splitBody_eq_error_iff, split?_eq_none_iff]
  case found => rw [splitBody_eq_ok_iff, split?_eq_some_iff]
  case total =>
    obtain ⟨body, hbody⟩ := exists_longestMatch symbols text.toList
    exact ⟨body, splitBody_eq_ok_iff.mpr hbody.split?, hbody.join_eq⟩
  case longest => rw [splitBody_eq_ok_iff, split?_true_eq_some_iff]

/-- The longest symbol gives way where the rest after it has no split. -/
example : splitBody ["ab", "abc", "cd"] false "abcd" = .ok ["ab", "cd"] := by cbv

end ContextFree
