import Mathlib
import ContextFree.Analysis.Linear
import ContextFree.Proofs.Reading

/-!
Linear grammars are regular. Where non-terminals stand at the ends of bodies only, a word is read from left to
right and what is left to be read is always the rest of one body. These rests are the states of a finite
automaton (`automaton`), which reads a terminal in front and replaces a single non-terminal by a body without
reading anything. Where non-terminals stand at the beginnings of bodies only, the same automaton reads words
backwards, and languages that are regular backwards are regular.
-/
namespace ContextFree

variable {g h : Grammar} {A X : Symbol} {b c : Body} {w : Word}

/-- Bodies that are turned around yield words that are turned around. -/
theorem Yields.reverse (hy : Yields g b w) (hterminals : ∀ a ∈ g.terminals, a ∈ h.terminals)
    (hnonterminals : ∀ A ∈ g.nonterminals, A ∈ h.nonterminals)
    (hbodies : ∀ A, ∀ b ∈ g.alternatives A, b.reverse ∈ h.alternatives A) :
    Yields h b.reverse w.reverse := by
  induction hy with
  | nil => exact .nil
  | terminal ha _ ih =>
    rw [List.reverse_cons, List.reverse_cons]
    exact ih.append (generates_terminal (hterminals _ ha))
  | production hA hb _ _ ih₁ ih₂ =>
    rw [List.reverse_cons, List.reverse_append]
    exact ih₂.append (generates_of_body (hnonterminals _ hA) (hbodies _ _ hb) ih₁)

namespace Grammar

/-! ## The two shapes -/

/-- Each body is a word of terminals, or such a word and a non-terminal behind it. -/
def RightLinear (g : Grammar) : Prop := ∀ A, ∀ b ∈ g.alternatives A,
  ∃ u : Word, (∀ a ∈ u, a ∈ g.terminals) ∧ (b = u ∨ ∃ B ∈ g.nonterminals, b = u ++ [B])

/-- Each body is a word of terminals, or such a word and a non-terminal in front of it. -/
def LeftLinear (g : Grammar) : Prop := ∀ A, ∀ b ∈ g.alternatives A,
  ∃ u : Word, (∀ a ∈ u, a ∈ g.terminals) ∧ (b = u ∨ ∃ B ∈ g.nonterminals, b = B :: u)

theorem type_eq_regular_iff :
    g.type = .regular ↔ g.isRightLinear = true ∨ g.isLeftLinear = true := by
  unfold type
  rw [← Bool.or_eq_true]
  split <;> simp_all

theorem isRightLinear_iff_dropLast (hg : g.Valid) : g.isRightLinear = true ↔
    ∀ A, ∀ b ∈ g.alternatives A, ∀ X ∈ b.dropLast, X ∉ g.nonterminals := by
  rw [isRightLinear, hg.all_productions_iff]
  simp [isNonterminal]

theorem isLeftLinear_iff_tail (hg : g.Valid) : g.isLeftLinear = true ↔
    ∀ A, ∀ b ∈ g.alternatives A, ∀ X ∈ b.tail, X ∉ g.nonterminals := by
  rw [isLeftLinear, hg.all_productions_iff]
  simp [isNonterminal]

/-- Symbols of a body that are no non-terminals are terminals, so only its last symbol is in question. -/
theorem isRightLinear_iff (hg : g.Valid) : g.isRightLinear = true ↔ g.RightLinear := by
  rw [isRightLinear_iff_dropLast hg]
  constructor
  · intro hall A b hb
    have hfront : ∀ X ∈ b.dropLast, X ∈ g.terminals := fun X hX =>
      (hg.body_mem A b hb X (List.mem_of_mem_dropLast hX)).resolve_left (hall A b hb X hX)
    obtain rfl | ⟨front, B, rfl⟩ := b.eq_nil_or_concat
    · exact ⟨[], by simp, .inl rfl⟩
    · rw [List.concat_eq_append, List.dropLast_concat] at hfront
      obtain hB | hB := hg.body_mem A _ hb B (by simp)
      · exact ⟨front, hfront, .inr ⟨B, hB, List.concat_eq_append⟩⟩
      · refine ⟨front ++ [B], ?_, .inl List.concat_eq_append⟩
        simpa [or_imp, forall_and] using ⟨hfront, hB⟩
  · intro hlinear A b hb X hX declared
    obtain ⟨u, hu, rfl | ⟨B, -, rfl⟩⟩ := hlinear A b hb
    · exact hg.disjoint X declared (hu X (List.mem_of_mem_dropLast hX))
    · rw [List.dropLast_concat] at hX
      exact hg.disjoint X declared (hu X hX)

/-! ## Reading backwards -/

/-- The grammar with its bodies turned around. -/
def mirror (g : Grammar) : Grammar :=
  { g with rules := g.rules.mapAlternatives fun alts => .ofList (alts.toList.map List.reverse) }

theorem mem_alternatives_mirror : b ∈ g.mirror.alternatives A ↔ b.reverse ∈ g.alternatives A := by
  refine Rules.mem_alternatives_mapAlternatives.trans ?_
  rw [Alternatives.mem_ofList, List.mem_map]
  constructor
  · rintro ⟨-, c, hc, rfl⟩
    rwa [List.reverse_reverse]
  · intro hb
    exact ⟨Rules.mem_keys_of_mem_alternatives hb, b.reverse, hb, List.reverse_reverse b⟩

theorem forall_mirror_iff {P : Body → Prop} : (∀ A, ∀ b ∈ g.mirror.alternatives A, P b) ↔
    ∀ A, ∀ b ∈ g.alternatives A, P b.reverse := by
  constructor
  · intro hall A b hb
    apply hall A
    rwa [mem_alternatives_mirror, List.reverse_reverse]
  · intro hall A b hb
    have hback := hall A b.reverse (mem_alternatives_mirror.mp hb)
    rwa [List.reverse_reverse] at hback

theorem Valid.mirror (hg : g.Valid) : g.mirror.Valid where
  disjoint := hg.disjoint
  start_mem := hg.start_mem
  lhs_mem A hA := hg.lhs_mem A (Rules.mem_keys_mapAlternatives.mp hA)
  body_mem A b hb X hX :=
    hg.body_mem A b.reverse (mem_alternatives_mirror.mp hb) X (List.mem_reverse.mpr hX)

theorem yields_mirror_iff : Yields g.mirror b w ↔ Yields g b.reverse w.reverse := by
  constructor
  · intro hy
    exact hy.reverse (fun _ ha => ha) (fun _ hA => hA)
      fun _ _ hb => mem_alternatives_mirror.mp hb
  · intro hy
    have hbodies : ∀ A, ∀ b ∈ g.alternatives A, b.reverse ∈ g.mirror.alternatives A := by
      intro A b hb
      rwa [mem_alternatives_mirror, List.reverse_reverse]
    have hback : Yields g.mirror b.reverse.reverse w.reverse.reverse :=
      hy.reverse (fun _ ha => ha) (fun _ hA => hA) hbodies
    rwa [List.reverse_reverse, List.reverse_reverse] at hback

theorem isRightLinear_mirror_iff (hg : g.Valid) :
    g.mirror.isRightLinear = true ↔ g.isLeftLinear = true := by
  rw [isRightLinear_iff_dropLast hg.mirror, forall_mirror_iff, isLeftLinear_iff_tail hg]
  simp only [List.dropLast_reverse, List.mem_reverse]
  rfl

theorem rightLinear_mirror_iff : g.mirror.RightLinear ↔ g.LeftLinear := by
  have hshape (b : Body) :
      (∃ u : Word, (∀ a ∈ u, a ∈ g.terminals) ∧
        (b.reverse = u ∨ ∃ B ∈ g.nonterminals, b.reverse = u ++ [B])) ↔
      ∃ u : Word, (∀ a ∈ u, a ∈ g.terminals) ∧ (b = u ∨ ∃ B ∈ g.nonterminals, b = B :: u) := by
    rw [List.reverse_surjective.exists]
    simp [List.reverse_eq_iff]
  unfold RightLinear LeftLinear
  rw [forall_mirror_iff]
  exact forall₃_congr fun _ b _ => hshape b

theorem isLeftLinear_iff (hg : g.Valid) : g.isLeftLinear = true ↔ g.LeftLinear := by
  rw [← isRightLinear_mirror_iff hg, isRightLinear_iff hg.mirror, rightLinear_mirror_iff]

/-! ## The automaton -/

/-- What can be left to read: the ends of bodies, and the start. -/
def remainders (g : Grammar) : List Body :=
  ([g.start] :: g.productions.map Prod.snd).flatMap List.tails

theorem mem_remainders : b ∈ g.remainders ↔
    b <:+ [g.start] ∨ ∃ A ∈ g.nonterminals, ∃ c ∈ g.alternatives A, b <:+ c := by
  simp only [remainders, List.flatMap_cons, List.mem_append, List.mem_tails, List.mem_flatMap,
    List.mem_map, Prod.exists, mem_productions]
  apply or_congr_right
  constructor
  · rintro ⟨_, ⟨A, c, ⟨hA, hc⟩, rfl⟩, hb⟩
    exact ⟨A, hA, c, hc, hb⟩
  · rintro ⟨A, hA, c, hc, hb⟩
    exact ⟨c, ⟨A, c, ⟨hA, hc⟩, rfl⟩, hb⟩

theorem start_mem_remainders : [g.start] ∈ g.remainders :=
  mem_remainders.mpr (.inl List.suffix_rfl)

theorem body_mem_remainders (hA : A ∈ g.nonterminals) (hb : b ∈ g.alternatives A) :
    b ∈ g.remainders := mem_remainders.mpr (.inr ⟨A, hA, b, hb, List.suffix_rfl⟩)

theorem mem_remainders_of_cons (hb : X :: b ∈ g.remainders) : b ∈ g.remainders := by
  have htail : b <:+ X :: b := List.suffix_cons X b
  rw [mem_remainders] at hb ⊢
  refine hb.imp htail.trans ?_
  rintro ⟨A, hA, c, hc, hsuffix⟩
  exact ⟨A, hA, c, hc, htail.trans hsuffix⟩

/-- A non-terminal is the last of what is left to read. -/
theorem eq_nil_of_cons_mem_remainders (hg : g.Valid) (hlinear : g.isRightLinear = true)
    (hA : A ∈ g.nonterminals) (hb : A :: b ∈ g.remainders) : b = [] := by
  rw [isRightLinear_iff_dropLast hg] at hlinear
  by_contra hne
  obtain ⟨front, heq⟩ | ⟨B, -, c, hc, front, rfl⟩ := mem_remainders.mp hb
  · have hlen := congrArg List.length heq
    have hpos := List.length_pos_of_ne_nil hne
    simp only [List.length_append, List.length_cons, List.length_nil] at hlen
    omega
  · apply hlinear B _ hc A _ hA
    rw [List.dropLast_append_of_ne_nil (List.cons_ne_nil A b), List.dropLast_cons_of_ne_nil hne]
    simp

/-- A terminal is read where it stands in front. A single non-terminal becomes one of its bodies, and nothing
is read. -/
def automaton (g : Grammar) : εNFA {a // a ∈ g.terminals} {b // b ∈ g.remainders} where
  step b
    | some a => {c | b.1 = a.1 :: c.1}
    | none => {c | ∃ A ∈ g.nonterminals, b.1 = [A] ∧ c.1 ∈ g.alternatives A}
  start := {b | b.1 = [g.start]}
  accept := {b | b.1 = []}

/-- What is read on a path to the end is yielded by what was left to read. -/
theorem yields_of_isPath {b c : {b // b ∈ g.remainders}}
    {path : List (Option {a // a ∈ g.terminals})} (hpath : g.automaton.IsPath b c path)
    (hc : c.1 = []) : Yields g b.1 (path.reduceOption.map Subtype.val) := by
  induction hpath with
  | nil b =>
    rw [hc]
    exact .nil
  | cons c b d letter path hstep _ ih =>
    have hrest := ih hc
    cases letter with
    | some a =>
      have hb : b.1 = a.1 :: c.1 := hstep
      rw [hb]
      exact .terminal a.2 hrest
    | none =>
      obtain ⟨A, hA, hb, hc⟩ := hstep
      rw [hb]
      exact generates_of_body hA hc hrest

/-- What is left to read leads to the end on a path along each word that it yields. -/
theorem exists_isPath (hg : g.Valid) (hlinear : g.isRightLinear = true) (hy : Yields g b w)
    (hb : b ∈ g.remainders) : ∃ c path, c.1 = [] ∧
      g.automaton.IsPath ⟨b, hb⟩ c path ∧ path.reduceOption.map Subtype.val = w := by
  induction hy with
  | nil => exact ⟨⟨[], hb⟩, [], rfl, .nil _, rfl⟩
  | @terminal a rest w ha _ ih =>
    obtain ⟨c, path, hc, hpath, rfl⟩ := ih (mem_remainders_of_cons hb)
    exact ⟨c, some ⟨a, ha⟩ :: path, hc, .cons ⟨rest, _⟩ _ _ _ _ rfl hpath, rfl⟩
  | @production A b rest u v hA hbody _ tail ih _ =>
    obtain rfl : rest = [] := eq_nil_of_cons_mem_remainders hg hlinear hA hb
    cases tail
    obtain ⟨c, path, hc, hpath, rfl⟩ := ih (body_mem_remainders hA hbody)
    have hstep : ⟨b, body_mem_remainders hA hbody⟩ ∈ g.automaton.step ⟨[A], hb⟩ none :=
      ⟨A, hA, rfl, hbody⟩
    exact ⟨c, none :: path, hc, .cons _ _ _ _ _ hstep hpath, (List.append_nil _).symm⟩

/-- The language, its words being words over the terminals. -/
def wordsOver (g : Grammar) : Language {a // a ∈ g.terminals} :=
  {u | g.Accepts (u.map Subtype.val)}

theorem accepts_automaton (hg : g.Valid) (hlinear : g.isRightLinear = true) :
    g.automaton.accepts = g.wordsOver := by
  ext u
  rw [εNFA.mem_accepts_iff_exists_path]
  constructor
  · rintro ⟨b, c, path, hb, hc, rfl, hpath⟩
    have hyields := yields_of_isPath hpath hc
    rwa [hb] at hyields
  · intro hu
    obtain ⟨c, path, hc, hpath, heq⟩ := exists_isPath hg hlinear hu start_mem_remainders
    exact ⟨_, c, path, rfl, hc, List.map_injective_iff.mpr Subtype.val_injective heq, hpath⟩

theorem isRegular_of_isRightLinear (hg : g.Valid) (hlinear : g.isRightLinear = true) :
    g.wordsOver.IsRegular := by
  refine ⟨Set {b // b ∈ g.remainders}, inferInstance, g.automaton.toNFA.toDFA, ?_⟩
  rw [NFA.toDFA_correct, εNFA.toNFA_correct, accepts_automaton hg hlinear]

theorem wordsOver_mirror : g.mirror.wordsOver = g.wordsOver.reverse := by
  ext u
  change Yields g.mirror [g.start] (u.map Subtype.val) ↔
    Yields g [g.start] (u.reverse.map Subtype.val)
  rw [yields_mirror_iff, List.map_reverse]
  rfl

theorem isRegular_of_isLeftLinear (hg : g.Valid) (hlinear : g.isLeftLinear = true) :
    g.wordsOver.IsRegular := by
  have hmirror := isRegular_of_isRightLinear hg.mirror ((isRightLinear_mirror_iff hg).mpr hlinear)
  rw [wordsOver_mirror] at hmirror
  exact hmirror.of_reverse

/-- **The verdict on the type is right.** A grammar is called regular exactly if all its bodies have one of
the two shapes, and the same one. Then a finite automaton over its terminals accepts its words and no
others. -/
theorem type_regular_sound (hg : g.validate = .ok ()) :
    (g.type = .regular ↔ g.RightLinear ∨ g.LeftLinear) ∧
    (g.type = .regular → ∃ (σ : Type) (_ : Fintype σ) (M : DFA {a // a ∈ g.terminals} σ),
      ∀ w, w ∈ g.language ↔ ∃ u ∈ M.accepts, u.map Subtype.val = w) := by
  have hvalid : g.Valid := validate_eq_ok_iff.mp hg
  constructor
  · rw [type_eq_regular_iff, isRightLinear_iff hvalid, isLeftLinear_iff hvalid]
  · intro htype
    have hregular : g.wordsOver.IsRegular := (type_eq_regular_iff.mp htype).elim
      (isRegular_of_isRightLinear hvalid) (isRegular_of_isLeftLinear hvalid)
    obtain ⟨σ, hfinite, M, hM⟩ := hregular
    refine ⟨σ, hfinite, M, fun w => ?_⟩
    rw [hM]
    constructor
    · intro hw
      lift w to List {a // a ∈ g.terminals} using hw.2
      exact ⟨w, mem_language_iff.mp hw, rfl⟩
    · rintro ⟨u, hu, rfl⟩
      exact mem_language_iff.mpr hu

/-- `S → Sab | T` and `T → c | ε`. -/
def appending : Grammar where
  nonterminals := ["S", "T"]
  terminals := ["a", "b", "c"]
  rules := .ofList [("S", .ofList [["S", "a", "b"], ["T"]]), ("T", .ofList [["c"], []])]
  start := "S"

theorem type_regular_sound_appending :
    appending.validate = .ok () ∧ appending.type = .regular ∧
    (appending.RightLinear ∨ appending.LeftLinear) ∧
    ∃ (σ : Type) (_ : Fintype σ) (M : DFA {a // a ∈ ["a", "b", "c"]} σ),
      ∀ w, w ∈ appending.language ↔ ∃ u ∈ M.accepts, u.map Subtype.val = w := by
  have hvalid : appending.validate = .ok () := by cbv
  have htype : appending.type = .regular := by cbv
  obtain ⟨hshape, hregular⟩ := type_regular_sound hvalid
  exact ⟨hvalid, htype, hshape.mp htype, hregular htype⟩

/-- In `S → aT` and `T → Sb | ε` each body has one of the two shapes, but they do not all have the same. -/
example : Grammar.type {
    nonterminals := ["S", "T"]
    terminals := ["a", "b"]
    rules := .ofList [("S", .ofList [["a", "T"]]), ("T", .ofList [["S", "b"], []])]
    start := "S" } = .contextFree := by cbv

end Grammar

end ContextFree
