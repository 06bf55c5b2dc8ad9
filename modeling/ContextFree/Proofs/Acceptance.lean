import Mathlib
import ContextFree.Proofs.Create
import ContextFree.Proofs.PreferredSplit

/-!
What is accepted as a grammar. A body by hand stands for a body of symbols (`GivenBody.Denotes`), or it is
text that no concatenation of declared symbols makes. Creation succeeds exactly if symbols, start and left
sides are declared as they should be and each body is `Acceptable`, and what is made holds what the bodies
stand for. Otherwise it is refused, and a left side that is not declared is told apart from one that is no
single symbol (`NotSingle`).
-/
namespace ContextFree

open Text

variable {nts ts declared declared' : List Symbol} {given before after : List (Symbol × List GivenBody)}
  {A start : Symbol} {alt : GivenBody} {alts : List GivenBody} {b : Body} {r : Rules} {g : Grammar}
  {e : GrammarError} {text : String}

/-! ## Bodies by hand -/

namespace GivenBody

/-- Nothing, or a spelling of ε by itself. -/
def IsEmptyForm : GivenBody → Prop
  | .text written => strip written.toList = [] ∨ String.ofList (strip written.toList) ∈ emptySpellings
  | .symbols body => body = [] ∨ ∃ s ∈ emptySpellings, body = [s]

/-- The body that stands for what is written: words where there is a blank inside, the symbols where they are
given one by one, and the preferred split otherwise. -/
inductive Denotes (declared : List Symbol) : GivenBody → Body → Prop
  | empty {alt : GivenBody} (h : alt.IsEmptyForm) : Denotes declared alt []
  | separated {written : String} (blank : ∃ c ∈ strip written.toList, isBlank c = true) :
      Denotes declared (.text written) ((words (strip written.toList)).map String.ofList)
  | sequence {body : Body} (h : ¬ (GivenBody.symbols body).IsEmptyForm) :
      Denotes declared (.symbols body) body
  | joined {written : String} {body : Body} (h : ¬ (GivenBody.text written).IsEmptyForm)
      (visible : ∀ c ∈ strip written.toList, isBlank c = false)
      (split : Preferred declared (strip written.toList) body) : Denotes declared (.text written) body

/-- An empty form, or made of declared symbols: words or symbols that are each declared, or text without a
blank that declared symbols make when they are put together. -/
inductive Acceptable (declared : List Symbol) : GivenBody → Prop
  | empty {alt : GivenBody} (h : alt.IsEmptyForm) : Acceptable declared alt
  | separated {written : String} (blank : ∃ c ∈ strip written.toList, isBlank c = true)
      (known : ∀ w ∈ words (strip written.toList), String.ofList w ∈ declared) :
      Acceptable declared (.text written)
  | sequence {body : Body} (known : ∀ s ∈ body, s ∈ declared) : Acceptable declared (.symbols body)
  | joined {written : String} (visible : ∀ c ∈ strip written.toList, isBlank c = false)
      (splits : ∃ body, SplitsAs declared (strip written.toList) body) :
      Acceptable declared (.text written)

/-- No spelling of ε holds a blank. -/
theorem not_isEmptyForm_of_blank (blank : ∃ c ∈ strip text.toList, isBlank c = true) :
    ¬ (GivenBody.text text).IsEmptyForm := by
  have hspellings : ∀ s ∈ emptySpellings, s.toList.all (!isBlank ·) = true := by decide
  obtain ⟨c, hc, hblank⟩ := blank
  rintro (hnil | hspelling)
  · rw [hnil] at hc
    cases hc
  · have hvisible := List.all_eq_true.mp (hspellings _ hspelling) c (by rwa [String.toList_ofList])
    rw [hblank] at hvisible
    cases hvisible

theorem toBody_of_isEmptyForm (h : alt.IsEmptyForm) : alt.toBody declared = .ok [] := by
  cases alt with
  | text written => exact if_pos h
  | symbols body =>
    obtain rfl | ⟨s, hs, rfl⟩ := h
    · rfl
    · exact congrArg Except.ok (if_pos hs)

theorem toBody_symbols (h : ¬ (GivenBody.symbols b).IsEmptyForm) :
    (GivenBody.symbols b).toBody declared = .ok b := by
  match b with
  | [] => rfl
  | [s] => exact congrArg Except.ok (if_neg fun hs => h (.inr ⟨s, hs, rfl⟩))
  | _ :: _ :: _ => rfl

theorem toBody_separated (blank : ∃ c ∈ strip text.toList, isBlank c = true) :
    (GivenBody.text text).toBody declared = .ok ((words (strip text.toList)).map String.ofList) := by
  have hblank : (strip text.toList).any isBlank = true := List.any_eq_true.mpr blank
  rw [toBody]
  exact (if_neg (not_isEmptyForm_of_blank blank)).trans (if_pos hblank)

theorem toBody_joined (h : ¬ (GivenBody.text text).IsEmptyForm)
    (visible : ∀ c ∈ strip text.toList, isBlank c = false) :
    (GivenBody.text text).toBody declared = splitBody declared false (.ofList (strip text.toList)) := by
  have hvisible : ¬ (strip text.toList).any isBlank = true := by simpa using visible
  rw [toBody]
  exact (if_neg h).trans (if_neg hvisible)

/-- Every body by hand has one of four forms. -/
theorem form_cases (alt : GivenBody) : alt.IsEmptyForm ∨
    (∃ b, alt = .symbols b ∧ ¬ (GivenBody.symbols b).IsEmptyForm) ∨
    (∃ text, alt = .text text ∧ ∃ c ∈ strip text.toList, isBlank c = true) ∨
    ∃ text, alt = .text text ∧ ¬ (GivenBody.text text).IsEmptyForm ∧
      ∀ c ∈ strip text.toList, isBlank c = false := by
  by_cases hempty : alt.IsEmptyForm
  · exact .inl hempty
  · cases alt with
    | symbols b => exact .inr (.inl ⟨b, rfl, hempty⟩)
    | text text =>
      by_cases hblank : ∃ c ∈ strip text.toList, isBlank c = true
      · exact .inr (.inr (.inl ⟨text, rfl, hblank⟩))
      · exact .inr (.inr (.inr ⟨text, rfl, hempty, by simpa using hblank⟩))

theorem toBody_eq_ok_iff : alt.toBody declared = .ok b ↔ alt.Denotes declared b := by
  constructor
  · intro h
    obtain hempty | ⟨c, rfl, hsymbols⟩ | ⟨text, rfl, hblank⟩ | ⟨text, rfl, hjoined, hvisible⟩ :=
      alt.form_cases
    · rw [toBody_of_isEmptyForm hempty] at h
      cases h
      exact .empty hempty
    · rw [toBody_symbols hsymbols] at h
      cases h
      exact .sequence hsymbols
    · rw [toBody_separated hblank] at h
      cases h
      exact .separated hblank
    · rw [toBody_joined hjoined hvisible, splitBody_eq_ok_iff, String.toList_ofList,
        split?_eq_some_iff] at h
      exact .joined hjoined hvisible h
  · intro h
    cases h with
    | empty hempty => exact toBody_of_isEmptyForm hempty
    | separated hblank => exact toBody_separated hblank
    | sequence hsymbols => exact toBody_symbols hsymbols
    | joined hjoined hvisible hsplit =>
      rwa [toBody_joined hjoined hvisible, splitBody_eq_ok_iff, String.toList_ofList,
        split?_eq_some_iff]

theorem toBody_eq_error (h : alt.toBody declared = .error e) : ∃ cause, e = .malformed cause := by
  obtain hempty | ⟨c, rfl, hsymbols⟩ | ⟨text, rfl, hblank⟩ | ⟨text, rfl, hjoined, hvisible⟩ :=
    alt.form_cases
  · rw [toBody_of_isEmptyForm hempty] at h
    cases h
  · rw [toBody_symbols hsymbols] at h
    cases h
  · rw [toBody_separated hblank] at h
    cases h
  · rw [toBody_joined hjoined hvisible, splitBody_eq_error_iff] at h
    exact ⟨_, h.1⟩

theorem Denotes.unique {c : Body} (hb : alt.Denotes declared b) (hc : alt.Denotes declared c) :
    b = c := by
  rw [← toBody_eq_ok_iff] at hb hc
  exact Except.ok.inj (hb.symm.trans hc)

theorem Denotes.congr (h : ∀ s, s ∈ declared ↔ s ∈ declared') :
    alt.Denotes declared b ↔ alt.Denotes declared' b := by
  have himp {d d' : List Symbol} (h : ∀ s, s ∈ d ↔ s ∈ d') (hb : alt.Denotes d b) :
      alt.Denotes d' b := by
    cases hb with
    | empty hempty => exact .empty hempty
    | separated hblank => exact .separated hblank
    | sequence hsymbols => exact .sequence hsymbols
    | joined hjoined hvisible hsplit => exact .joined hjoined hvisible ((Preferred.congr h).mp hsplit)
  exact ⟨himp h, himp fun s => (h s).symm⟩

/-- What is acceptable stands for a body of declared symbols, and nothing else does. -/
theorem acceptable_iff :
    alt.Acceptable declared ↔ ∃ b, alt.Denotes declared b ∧ ∀ s ∈ b, s ∈ declared := by
  constructor
  · intro h
    by_cases hempty : alt.IsEmptyForm
    · exact ⟨[], .empty hempty, by simp⟩
    · cases h with
      | empty h => exact absurd h hempty
      | separated hblank known => exact ⟨_, .separated hblank, by simpa using known⟩
      | sequence known => exact ⟨_, .sequence hempty, known⟩
      | joined hvisible splits =>
        obtain ⟨b, hb⟩ := exists_preferred splits
        exact ⟨b, .joined hempty hvisible hb, fun s hs => ((splitsAs_iff.mp hb.splits).2 s hs).1⟩
  · rintro ⟨b, hb, known⟩
    cases hb with
    | empty hempty => exact .empty hempty
    | separated hblank => exact .separated hblank (by simpa using known)
    | sequence => exact .sequence known
    | joined _ hvisible hsplit => exact .joined hvisible ⟨b, hsplit.splits⟩

end GivenBody

/-! ## Left sides -/

/-- A terminal, or more than one symbol: several words, or one word that declared symbols make. -/
inductive NotSingle (nonterminals terminals : List Symbol) (A : Symbol) : Prop
  | terminal (declared : A ∈ terminals)
  | words (several : 1 < (words A.toList).length)
  | symbols (word : (words A.toList).length = 1) (body : Body) (several : 2 ≤ body.length)
      (splits : SplitsAs (nonterminals ++ terminals) A.toList body)

theorem leftSideError_cases (nts ts : List Symbol) (A : Symbol) :
    (∃ cause, leftSideError nts ts A = .malformed cause) ∨
      ∃ cause, leftSideError nts ts A = .leftSide cause := by
  unfold leftSideError
  split
  · exact .inr ⟨_, rfl⟩
  · split
    · exact .inl ⟨_, rfl⟩
    · exact .inr ⟨_, rfl⟩
    · exact .inl ⟨_, rfl⟩
    · exact .inr ⟨_, rfl⟩

theorem leftSideError_eq_leftSide_iff (hA : A ∉ nts) :
    (∃ cause, leftSideError nts ts A = .leftSide cause) ↔ NotSingle nts ts A := by
  by_cases hts : A ∈ ts
  · exact iff_of_true ⟨_, if_pos hts⟩ (.terminal hts)
  have hundeclared : A ∉ nts ++ ts := by simp [hA, hts]
  rw [leftSideError, if_neg hts]
  split
  case h_1 hwords =>
    refine iff_of_false (by simp) ?_
    rintro (hterminal | hwords' | ⟨hword, -⟩)
    · exact hts hterminal
    · omega
    · omega
  case h_2 s t rest hword hsplit =>
    refine iff_of_true ⟨_, rfl⟩ (.symbols hword (s :: t :: rest) (by simp) ?_)
    exact (split?_eq_some_iff.mp hsplit).splits
  case h_3 hword hsplit =>
    refine iff_of_false (by simp) ?_
    rintro (hterminal | hwords | ⟨-, body, -, hsplits⟩)
    · exact hts hterminal
    · omega
    · obtain ⟨b, hb⟩ := exists_preferred ⟨body, hsplits⟩
      have hne : A ≠ "" := by
        rintro rfl
        cases hword
      have htwo := hb.splits.two_le_length hne hundeclared
      match b, htwo with
      | s :: t :: rest, _ => exact hsplit s t rest (split?_eq_some_iff.mpr hb)
  case h_4 hzero hone _ =>
    exact iff_of_true ⟨_, rfl⟩ (.words (Nat.lt_of_le_of_ne (Nat.pos_of_ne_zero hzero) (Ne.symm hone)))

theorem NotSingle.congr {nts' ts' : List Symbol} (hnts : ∀ s, s ∈ nts ↔ s ∈ nts')
    (hts : ∀ s, s ∈ ts ↔ s ∈ ts') : NotSingle nts ts A ↔ NotSingle nts' ts' A := by
  have himp {n n' t t' : List Symbol} (hn : ∀ s, s ∈ n ↔ s ∈ n') (ht : ∀ s, s ∈ t ↔ s ∈ t')
      (h : NotSingle n t A) : NotSingle n' t' A := by
    have hdeclared : ∀ s, s ∈ n ++ t ↔ s ∈ n' ++ t' := by simp [hn, ht]
    cases h with
    | terminal declared => exact .terminal ((ht A).mp declared)
    | words several => exact .words several
    | symbols word body several splits =>
      exact .symbols word body several ((SplitsAs.congr hdeclared).mp splits)
  exact ⟨himp hnts hts, himp (fun s => (hnts s).symm) fun s => (hts s).symm⟩

/-! ## Creation -/

theorem exists_of_foldlM_eq_error {α β ε : Type} {f : β → α → Except ε β} {as : List α} {s : β} {e : ε}
    (h : as.foldlM f s = .error e) : ∃ a ∈ as, ∃ t, f t a = .error e := by
  induction as generalizing s with
  | nil => cases h
  | cons a as ih =>
    rw [List.foldlM_cons] at h
    cases hstep : f s a with
    | error e' =>
      rw [hstep] at h
      cases h
      exact ⟨a, List.mem_cons_self, s, hstep⟩
    | ok t =>
      rw [hstep] at h
      obtain ⟨a', ha', later⟩ := ih h
      exact ⟨a', List.mem_cons_of_mem a ha', later⟩

theorem addAlternatives_of_undeclared (hA : A ∉ nts) :
    addAlternatives nts ts r A alts = .error (leftSideError nts ts A) := by
  simp [addAlternatives, hA, bind, Except.bind, throw, throwThe, MonadExceptOf.throw]

theorem addAlternatives_eq_error (h : addAlternatives nts ts r A alts = .error e) :
    (∃ cause, e = .malformed cause) ∨ ∃ cause, e = .leftSide cause := by
  by_cases hA : A ∈ nts
  · cases hread : alts.mapM (·.toBody (nts ++ ts)) with
    | error e' =>
      simp only [addAlternatives, hA, not_true_eq_false, if_false, hread, bind, Except.bind] at h
      cases h
      obtain ⟨alt, -, halt⟩ := exists_of_mapM_eq_error hread
      exact .inl (GivenBody.toBody_eq_error halt)
    | ok bodies =>
      simp [addAlternatives, hA, hread, bind, Except.bind, pure, Except.pure] at h
  · rw [addAlternatives_of_undeclared hA] at h
    cases h
    exact leftSideError_cases nts ts A

namespace Grammar

theorem create_eq_error (h : create nts ts given start = .error e) :
    (∃ cause, e = .malformed cause) ∨ ∃ cause, e = .leftSide cause := by
  unfold create at h
  cases hrules : given.foldlM (fun r e => addAlternatives (distinct nts) (distinct ts) r e.1 e.2)
      Rules.empty with
  | error e' =>
    simp only [hrules, bind, Except.bind, Except.error.injEq] at h
    obtain ⟨entry, -, r, hstep⟩ := exists_of_foldlM_eq_error hrules
    exact h ▸ addAlternatives_eq_error hstep
  | ok r =>
    simp only [hrules, bind, Except.bind] at h
    split at h
    · rename_i hvalid
      cases h
      exact .inl (validate_eq_error hvalid)
    · cases h

/-- Symbols, start and left sides are declared as they should be, and each body is acceptable. -/
structure WellGiven (nts ts : List Symbol) (given : List (Symbol × List GivenBody)) (start : Symbol) :
    Prop where
  disjoint : ∀ s ∈ nts, s ∉ ts
  start_mem : start ∈ nts
  leftSides : ∀ entry ∈ given, entry.1 ∈ nts
  bodies : ∀ entry ∈ given, ∀ alt ∈ entry.2, alt.Acceptable (nts ++ ts)

/-- The given symbols, each where it occurs first, and under each given left side the bodies that its
alternatives denote, wherever they are given. -/
structure Holds (nts ts : List Symbol) (given : List (Symbol × List GivenBody)) (start : Symbol)
    (g : Grammar) : Prop where
  nonterminals : g.nonterminals = distinct nts
  terminals : g.terminals = distinct ts
  start : g.start = start
  keys : ∀ A, A ∈ g.rules.keys ↔ A ∈ given.map Prod.fst
  bodies : ∀ A b, b ∈ g.alternatives A ↔ ∃ alt, Offers given A alt ∧ alt.Denotes (nts ++ ts) b

theorem toBody_distinct_iff :
    alt.toBody (distinct nts ++ distinct ts) = .ok b ↔ alt.Denotes (nts ++ ts) b :=
  GivenBody.toBody_eq_ok_iff.trans (GivenBody.Denotes.congr (by simp))

theorem holds_of_createdFrom (h : CreatedFrom nts ts given start g) : Holds nts ts given start g where
  nonterminals := h.nonterminals
  terminals := h.terminals
  start := h.start
  keys := h.rules.keys
  bodies A b := by
    simp only [← toBody_distinct_iff]
    exact h.rules.bodies A b

theorem wellGiven_of_createdFrom (h : CreatedFrom nts ts given start g) :
    WellGiven nts ts given start where
  disjoint s hs hts := by
    apply h.valid.disjoint s
    · rwa [h.nonterminals, mem_distinct]
    · rwa [h.terminals, mem_distinct]
  start_mem := by
    have hstart := h.valid.start_mem
    rwa [h.start, h.nonterminals, mem_distinct] at hstart
  leftSides entry hentry := by
    have hA := h.valid.lhs_mem _ ((h.rules.keys _).mpr (List.mem_map_of_mem hentry))
    rwa [h.nonterminals, mem_distinct] at hA
  bodies entry hentry alt halt := by
    have hoffer : Offers given entry.1 alt := ⟨entry, hentry, rfl, halt⟩
    obtain ⟨b, hb⟩ := h.rules.readable entry.1 alt hoffer
    have hmem : b ∈ g.alternatives entry.1 := (h.rules.bodies _ b).mpr ⟨alt, hoffer, hb⟩
    refine GivenBody.acceptable_iff.mpr ⟨b, toBody_distinct_iff.mp hb, fun s hs => ?_⟩
    have hdeclared := h.valid.body_mem entry.1 b hmem s hs
    rwa [h.nonterminals, h.terminals, mem_distinct, mem_distinct, ← List.mem_append] at hdeclared

/-- Pairs with a declared left side whose alternatives denote bodies are collected one after another. -/
theorem exists_rules (hlhs : ∀ entry ∈ given, entry.1 ∈ nts)
    (hread : ∀ entry ∈ given, ∀ alt ∈ entry.2, ∃ b, alt.Denotes (nts ++ ts) b) :
    ∃ r, given.foldlM (fun r e => addAlternatives (distinct nts) (distinct ts) r e.1 e.2) Rules.empty =
      .ok r := by
  apply exists_addAll
  · intro A hA
    obtain ⟨entry, hentry, rfl⟩ := List.mem_map.mp hA
    exact mem_distinct.mpr (hlhs entry hentry)
  · rintro A alt ⟨entry, hentry, rfl, halt⟩
    obtain ⟨b, hb⟩ := hread entry hentry alt halt
    exact ⟨b, toBody_distinct_iff.mpr hb⟩

theorem exists_createdFrom (h : WellGiven nts ts given start) :
    ∃ g, CreatedFrom nts ts given start g := by
  have hdenotes : ∀ entry ∈ given, ∀ alt ∈ entry.2,
      ∃ b, alt.Denotes (nts ++ ts) b ∧ ∀ s ∈ b, s ∈ nts ++ ts := fun entry hentry alt halt =>
    GivenBody.acceptable_iff.mp (h.bodies entry hentry alt halt)
  obtain ⟨r, hr⟩ := exists_rules h.leftSides fun entry hentry alt halt =>
    (hdenotes entry hentry alt halt).imp fun _ hb => hb.1
  have hcollects : Collects (distinct nts ++ distinct ts) given r := Collects.empty.addAll hr
  refine ⟨⟨distinct nts, distinct ts, r, start⟩, rfl, rfl, rfl, hcollects, ?_⟩
  constructor
  · intro s hs hts
    exact h.disjoint s (mem_distinct.mp hs) (mem_distinct.mp hts)
  · exact mem_distinct.mpr h.start_mem
  · intro A hA
    obtain ⟨entry, hentry, rfl⟩ := List.mem_map.mp ((hcollects.keys A).mp hA)
    exact mem_distinct.mpr (h.leftSides entry hentry)
  · intro A b hb s hs
    obtain ⟨alt, ⟨entry, hentry, rfl, halt⟩, hbody⟩ := (hcollects.bodies A b).mp hb
    obtain ⟨b', hb', known⟩ := hdenotes entry hentry alt halt
    obtain rfl := hb'.unique (toBody_distinct_iff.mp hbody)
    simpa using known s hs

theorem exists_create_iff :
    (∃ g, create nts ts given start = .ok g) ↔ WellGiven nts ts given start := by
  constructor
  · rintro ⟨g, hg⟩
    exact wellGiven_of_createdFrom (createdFrom_of_create hg)
  · intro h
    obtain ⟨g, hg⟩ := exists_createdFrom h
    obtain ⟨g', hg', -⟩ := create_of_createdFrom hg
    exact ⟨g', hg'⟩

/-- The first left side that is not declared is what is wrong, if nothing is wrong before it. -/
theorem create_of_undeclared (hlhs : ∀ entry ∈ before, entry.1 ∈ nts)
    (hread : ∀ entry ∈ before, ∀ alt ∈ entry.2, ∃ b, alt.Denotes (nts ++ ts) b) (hA : A ∉ nts) :
    create nts ts (before ++ (A, alts) :: after) start =
      .error (leftSideError (distinct nts) (distinct ts) A) := by
  obtain ⟨r, hr⟩ := exists_rules hlhs hread
  have hadd : addAlternatives (distinct nts) (distinct ts) r A alts =
      .error (leftSideError (distinct nts) (distinct ts) A) :=
    addAlternatives_of_undeclared (by simpa using hA)
  simp only [create, List.foldlM_append, List.foldlM_cons, hr, bind, Except.bind, hadd]

/-- **What is accepted, and what is made of it.** Creation succeeds exactly if what is given is in order, and
the grammar holds what is given. Otherwise the definition is malformed or a left side is unsupported; where a
left side that is not declared comes first, the latter exactly if it is no single symbol. -/
theorem create_exact (nts ts : List Symbol) (given : List (Symbol × List GivenBody)) (start : Symbol) :
    ((∃ g, create nts ts given start = .ok g) ↔ WellGiven nts ts given start) ∧
    (∀ g, create nts ts given start = .ok g → Holds nts ts given start g) ∧
    (∀ e, create nts ts given start = .error e →
      (∃ cause, e = .malformed cause) ∨ ∃ cause, e = .leftSide cause) ∧
    ∀ before A alts after, given = before ++ (A, alts) :: after →
      (∀ entry ∈ before, entry.1 ∈ nts) →
      (∀ entry ∈ before, ∀ alt ∈ entry.2, ∃ b, alt.Denotes (nts ++ ts) b) → A ∉ nts →
      ∃ e, create nts ts given start = .error e ∧ ((∃ cause, e = .leftSide cause) ↔ NotSingle nts ts A) := by
  refine ⟨exists_create_iff, fun g hg => ?holds, fun e => create_eq_error, ?refused⟩
  case holds => exact holds_of_createdFrom (createdFrom_of_create hg)
  case refused =>
    rintro before A alts after rfl hlhs hread hA
    refine ⟨_, create_of_undeclared hlhs hread hA, ?_⟩
    rw [leftSideError_eq_leftSide_iff (by simpa using hA)]
    exact NotSingle.congr (by simp) (by simp)

/-- `S → NP N | ε`, with the first body written without a blank inside. -/
def gluedGiven : List (Symbol × List GivenBody) := [("S", [.text " NPN ", .symbols ["ε"]])]

/-- A left side that is made of two declared symbols stands behind what is accepted. -/
theorem create_exact_glued :
    (∃ g, create ["S", "NP"] ["N"] gluedGiven "S" = .ok g ∧ ["NP", "N"] ∈ g.alternatives "S") ∧
    ∃ e cause, create ["S", "NP"] ["N"] (gluedGiven ++ ("SN", []) :: []) "S" = .error e ∧
      e = .leftSide cause := by
  have hstrip : strip " NPN ".toList = "NPN".toList := by cbv
  have hvisible : "NPN".toList.all (!isBlank ·) = true := by decide
  have hsplit : split? ["S", "NP", "N"] false "NPN".toList = some ["NP", "N"] := by cbv
  have hfirst : (GivenBody.text " NPN ").Denotes ["S", "NP", "N"] ["NP", "N"] := by
    refine .joined ?_ ?_ ?_
    · rw [GivenBody.IsEmptyForm, hstrip]
      decide
    · rw [hstrip]
      simpa using hvisible
    · rw [hstrip]
      exact split?_eq_some_iff.mp hsplit
  have hsecond : (GivenBody.symbols ["ε"]).Denotes ["S", "NP", "N"] [] :=
    .empty (.inr ⟨"ε", by decide, rfl⟩)
  have hread : ∀ entry ∈ gluedGiven, ∀ alt ∈ entry.2, ∃ b, alt.Denotes ["S", "NP", "N"] b := by
    simp only [gluedGiven, List.mem_singleton, forall_eq, List.mem_pair]
    rintro alt (rfl | rfl)
    · exact ⟨_, hfirst⟩
    · exact ⟨_, hsecond⟩
  have hsplits : SplitsAs (["S", "NP"] ++ ["N"]) "SN".toList ["S", "N"] :=
    splitsAs_iff.mpr ⟨by decide, by decide⟩
  have hgiven : WellGiven ["S", "NP"] ["N"] gluedGiven "S" := by
    refine ⟨by decide, by decide, by decide, ?_⟩
    simp only [gluedGiven, List.mem_singleton, forall_eq, List.mem_pair]
    rintro alt (rfl | rfl)
    · exact GivenBody.acceptable_iff.mpr ⟨_, hfirst, by decide⟩
    · exact GivenBody.acceptable_iff.mpr ⟨_, hsecond, by decide⟩
  obtain ⟨haccepted, hholds, -, -⟩ := create_exact ["S", "NP"] ["N"] gluedGiven "S"
  obtain ⟨-, -, -, hrefused⟩ := create_exact ["S", "NP"] ["N"] (gluedGiven ++ ("SN", []) :: []) "S"
  obtain ⟨g, hg⟩ := haccepted.mpr hgiven
  have hbody : ["NP", "N"] ∈ g.alternatives "S" := by
    apply ((hholds g hg).bodies _ _).mpr
    exact ⟨_, ⟨_, List.mem_singleton_self _, rfl, List.mem_cons_self⟩, hfirst⟩
  obtain ⟨e, he, hkind⟩ := hrefused gluedGiven "SN" [] [] rfl (by decide) hread (by decide)
  obtain ⟨cause, hcause⟩ := hkind.mpr (.symbols (by cbv) ["S", "N"] (by decide) hsplits)
  exact ⟨⟨g, hg, hbody⟩, e, cause, he, hcause⟩

end Grammar

end ContextFree
