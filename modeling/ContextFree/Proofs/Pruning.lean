import Mathlib
import ContextFree.Proofs.Exactness

/-!
Pruning by itself, on a grammar of any shape. Dropping what is unproductive takes exactly the bodies away
through which no word is derived (`removeUnproductive_exact`), dropping what is unreachable takes exactly the
non-terminals away that stand in nothing the start can be rewritten into (`removeUnreachable_exact`), and
neither changes the words of what is kept. In this order one pass of each is enough (`pruned_once`): what the
second one drops is needed by nothing that it keeps.
-/
namespace ContextFree

variable {g h : Grammar} {A X : Symbol} {c : Body} {factor factor' : Int} {productive : List Symbol}

namespace Grammar

/-- `out` has, in the order of declaration, the non-terminals of `g` that satisfy `keep`, and of their bodies
those that satisfy `stays`. All else is as in `g`. -/
structure PrunesTo (g : Grammar) (keep : Symbol → Prop) [DecidablePred keep] (stays : Body → Prop)
    (out : Grammar) : Prop where
  validate : out.validate = .ok ()
  terminals : out.terminals = g.terminals
  start : out.start = g.start
  nonterminals : out.nonterminals = (distinct g.nonterminals).filter keep
  keys : ∀ A, A ∈ out.rules.keys ↔ keep A ∧ A ∈ g.rules.keys
  bodies : ∀ A b, b ∈ out.alternatives A ↔ keep A ∧ b ∈ g.alternatives A ∧ stays b

/-- Declared twice, a symbol is kept where it is declared first. -/
theorem nonterminals_keepNonterminals (g : Grammar) (keep : Symbol → Bool) (rules : Rules) :
    (g.keepNonterminals keep rules).nonterminals = (distinct g.nonterminals).filter keep :=
  distinct_filter keep g.nonterminals

/-! ## Productivity -/

/-- Terminals and productive non-terminals are the symbols that derive some word. -/
theorem languageOf_nonempty_iff (hg : g.Valid) (hp : g.productive factor = .ok productive) :
    (g.languageOf X).Nonempty ↔ X ∈ g.terminals ∨ X ∈ productive := by
  constructor
  · rintro ⟨w, hw⟩
    exact productive_of_yields hp (mem_languageOf_iff.mp hw) X List.mem_cons_self
  · rintro (hterminal | hproductive)
    · exact ⟨[X], mem_languageOf_iff.mpr (generates_terminal hterminal)⟩
    · obtain ⟨-, w, hw⟩ := (mem_productive_iff hg hp).mp hproductive
      exact ⟨w, mem_languageOf_iff.mpr hw⟩

theorem languageOf_withoutUnproductive (hg : g.Valid) (hp : g.productive factor = .ok productive)
    (A : Symbol) : (g.withoutUnproductive productive).languageOf A = g.languageOf A := by
  ext w
  simp only [mem_languageOf_iff]
  exact yields_withoutUnproductive_iff hg hp

/-- A body goes for a symbol in it that derives no word, and for nothing else. -/
theorem prunesTo_withoutUnproductive (hg : g.Valid) (hp : g.productive factor = .ok productive) :
    g.PrunesTo (fun A => A ∈ productive ∨ A = g.start) (fun b => ∀ X ∈ b, (g.languageOf X).Nonempty)
      (g.withoutUnproductive productive) where
  validate := validate_eq_ok_iff.mpr (hg.withoutUnproductive hp)
  terminals := rfl
  start := rfl
  nonterminals := by
    refine (nonterminals_keepNonterminals g _ _).trans (List.filter_congr fun A _ => ?_)
    rw [Bool.eq_iff_iff, staysProductive_iff, decide_eq_true_iff]
  keys A := by
    refine Rules.mem_keys_mapAlternatives.trans (Rules.mem_keys_restrict.trans ?_)
    rw [staysProductive_iff]
  bodies A b := by
    simp only [languageOf_nonempty_iff hg hp]
    exact mem_alternatives_withoutUnproductive

/-- **Dropping what is unproductive is exact.** The analysis finds the non-terminals that derive some word.
They stay, with the start, and lose exactly the bodies with a symbol that derives none. No symbol loses a
word, and a start that derives none is left without a body. -/
theorem removeUnproductive_exact (hg : g.validate = .ok ()) (hf : 1 ≤ factor) :
    ∃ productive out, g.productive factor = .ok productive ∧ g.removeUnproductive factor = .ok out ∧
      (∀ A, A ∈ productive ↔ A ∈ g.nonterminals ∧ (g.languageOf A).Nonempty) ∧
      g.PrunesTo (fun A => A ∈ productive ∨ A = g.start)
        (fun b => ∀ X ∈ b, (g.languageOf X).Nonempty) out ∧
      (∀ A, out.languageOf A = g.languageOf A) ∧
      (g.start ∉ productive → out.language = ∅ ∧ ∀ b, b ∉ out.alternatives g.start) := by
  have hvalid : g.Valid := validate_eq_ok_iff.mp hg
  obtain ⟨productive, hp⟩ := g.productive_isOk hf
  have hwords := languageOf_withoutUnproductive hvalid hp
  have hfound (A : Symbol) : A ∈ productive ↔ A ∈ g.nonterminals ∧ (g.languageOf A).Nonempty := by
    rw [mem_productive_iff hvalid hp]
    exact and_congr_right fun _ => exists_congr fun w => mem_languageOf_iff.symm
  refine ⟨productive, g.withoutUnproductive productive, hp, removeUnproductive_eq_ok hp, hfound,
    prunesTo_withoutUnproductive hvalid hp, hwords, fun hstart => ⟨?empty, ?bare⟩⟩
  case empty =>
    apply Set.not_nonempty_iff_eq_empty.mp
    intro hsome
    have hold : (g.languageOf g.start).Nonempty := hwords g.start ▸ hsome
    exact hstart ((hfound g.start).mpr ⟨hvalid.start_mem, hold⟩)
  case bare => exact fun b => notMem_alternatives_withoutUnproductive hvalid hp hstart

/-- `S → AB | a`, `A → a` and `B → bB`: no word comes from `B`, and nothing but the body `AB` leads to
`A`. -/
def orphaning : Grammar where
  nonterminals := ["S", "A", "B"]
  terminals := ["a", "b"]
  rules := .ofList
    [("S", .ofList [["A", "B"], ["a"]]), ("A", .ofList [["a"]]), ("B", .ofList [["b", "B"]])]
  start := "S"

theorem orphaning_validate : orphaning.validate = .ok () := by cbv

theorem removeUnproductive_exact_orphaning : ∃ out,
    orphaning.productive 1 = .ok ["A", "S"] ∧ orphaning.removeUnproductive 1 = .ok out ∧
    ¬ (orphaning.languageOf "B").Nonempty ∧
    out.nonterminals = ["S", "A"] ∧
    ["a"] ∈ out.alternatives "S" ∧ ["A", "B"] ∉ out.alternatives "S" ∧
    ∀ A, out.languageOf A = orphaning.languageOf A := by
  have hrun : orphaning.productive 1 = .ok ["A", "S"] := by cbv
  obtain ⟨productive, out, hp, hout, hfound, hpruned, hwords, -⟩ :=
    removeUnproductive_exact orphaning_validate (Int.le_refl 1)
  obtain rfl : productive = ["A", "S"] := Except.ok.inj (hp.symm.trans hrun)
  have hB : ¬ (orphaning.languageOf "B").Nonempty := by
    intro hsome
    have hmem := (hfound "B").mpr ⟨by decide, hsome⟩
    exact absurd hmem (by decide)
  have hbody : ["a"] ∈ orphaning.alternatives "S" := of_decide_eq_true (by cbv)
  have ha : ∀ X ∈ ["a"], (orphaning.languageOf X).Nonempty := by
    intro X hX
    rw [List.mem_singleton.mp hX]
    exact ⟨["a"], .refl, by decide⟩
  refine ⟨out, hrun, hout, hB, hpruned.nonterminals, ?_, ?_, hwords⟩
  · exact (hpruned.bodies "S" ["a"]).mpr ⟨by decide, hbody, ha⟩
  · intro hmem
    exact hB (((hpruned.bodies "S" _).mp hmem).2.2 "B" (by decide))

/-! ## Reachability -/

/-- Rewriting brings in nothing that is not reached. -/
theorem reaches_of_derives (hd : Derives g [g.start] c) :
    ∀ X ∈ c, X ∈ g.nonterminals → g.Reaches X := by
  induction hd with
  | refl =>
    intro X hX _
    exact List.mem_singleton.mp hX ▸ .start
  | tail _ step ih =>
    cases step with
    | @mk before after A b hA hb =>
      have hreached : g.Reaches A := ih A (by simp) hA
      intro X hX declared
      simp only [List.mem_append] at hX
      obtain (hbefore | hbody) | hafter := hX
      · exact ih X (List.mem_append_left _ hbefore) declared
      · exact hreached.body hb hbody declared
      · exact ih X (by simp [hafter]) declared

/-- What is reached stands in something that the start can be rewritten into, and nothing else does. -/
theorem reaches_iff_derives (hg : g.Valid) :
    g.Reaches A ↔ A ∈ g.nonterminals ∧ ∃ u v, Derives g [g.start] (u ++ A :: v) := by
  constructor
  · intro hA
    refine ⟨hA.mem_nonterminals hg, ?_⟩
    induction hA with
    | start => exact ⟨[], [], .refl⟩
    | body hA hb hB _ ih =>
      obtain ⟨u, v, hd⟩ := ih
      obtain ⟨before, after, rfl⟩ := List.append_of_mem hB
      have hstep := RewriteStep.mk u v (hA.mem_nonterminals hg) hb
      refine ⟨u ++ before, after ++ v, ?_⟩
      simpa using hd.tail hstep
  · rintro ⟨hA, u, v, hd⟩
    exact reaches_of_derives hd A (by simp) hA

theorem languageOf_removeUnreachable (hg : g.Valid) (hA : g.Reaches A) :
    g.removeUnreachable.languageOf A = g.languageOf A := by
  ext w
  simp only [mem_languageOf_iff]
  exact yields_removeUnreachable_iff (by simpa using .inr hA) hg

theorem prunesTo_removeUnreachable (hg : g.Valid) :
    g.PrunesTo (· ∈ g.reachable) (fun _ => True) g.removeUnreachable where
  validate := validate_eq_ok_iff.mpr hg.removeUnreachable
  terminals := rfl
  start := rfl
  nonterminals := by
    refine (nonterminals_keepNonterminals g _ _).trans (List.filter_congr fun A _ => ?_)
    rw [Bool.eq_iff_iff, List.contains_iff_mem, decide_eq_true_iff]
  keys A := by
    refine Rules.mem_keys_restrict.trans ?_
    rw [List.contains_iff_mem]
  bodies A b := by
    rw [mem_alternatives_removeUnreachable, mem_reachable_iff, and_true]

/-- **Dropping what is unreachable is exact.** The search follows each non-terminal at most once and so comes
to an end, in whatever order it takes the bodies; then it has found the non-terminals that stand in something
the start can be rewritten into. They stay with all their bodies and all their words. -/
theorem removeUnreachable_exact (hg : g.validate = .ok ()) :
    g.Search g.reachable [] ∧
    (∀ followed queue, g.Search followed queue →
      (followed ++ queue).Nodup ∧ (followed ++ queue).length ≤ g.nonterminals.length ∧
      (queue = [] → ∀ A, A ∈ followed ↔ A ∈ g.reachable)) ∧
    (∀ A, A ∈ g.reachable ↔ A ∈ g.nonterminals ∧ ∃ u v, Derives g [g.start] (u ++ A :: v)) ∧
    g.PrunesTo (· ∈ g.reachable) (fun _ => True) g.removeUnreachable ∧
    (∀ A ∈ g.removeUnreachable.nonterminals, g.removeUnreachable.languageOf A = g.languageOf A) ∧
    g.removeUnreachable.language = g.language := by
  have hvalid : g.Valid := validate_eq_ok_iff.mp hg
  refine ⟨g.search_reachable, fun followed queue hs => ⟨hs.nodup, hs.length_le hvalid, ?ended⟩,
    ?found, prunesTo_removeUnreachable hvalid, ?words, languageOf_removeUnreachable hvalid .start⟩
  case ended =>
    rintro rfl A
    rw [hs.mem_iff_reaches, mem_reachable_iff]
  case found =>
    intro A
    rw [mem_reachable_iff, reaches_iff_derives hvalid]
  case words =>
    intro A hA
    exact languageOf_removeUnreachable hvalid (mem_nonterminals_removeUnreachable.mp hA).2

theorem removeUnreachable_exact_looped :
    looped.Search ["S", "T"] [] ∧
    (∃ u v, Derives looped ["S"] (u ++ "T" :: v)) ∧
    looped.removeUnreachable.nonterminals = ["S", "T"] ∧
    looped.removeUnreachable.languageOf "T" = looped.languageOf "T" ∧
    looped.removeUnreachable.language = looped.language := by
  have hrun : looped.reachable = ["S", "T"] := by cbv
  obtain ⟨hsearch, -, hfound, hpruned, hwords, hlanguage⟩ := removeUnreachable_exact looped_validate
  have hkept : looped.removeUnreachable.nonterminals = ["S", "T"] := by
    rw [hpruned.nonterminals, hrun]
    rfl
  have hT : "T" ∈ looped.reachable := hrun ▸ by decide
  exact ⟨hrun ▸ hsearch, ((hfound "T").mp hT).2, hkept, hwords "T" (hkept ▸ by decide), hlanguage⟩

/-! ## One pass of each -/

/-- Where nothing is useless, a further pass finds everything productive, but for a start that is bare. -/
theorem Reduced.withoutUnproductive_same (hr : h.Reduced) (hh : h.Valid) (hn : h.nonterminals.Nodup)
    (hp : h.productive factor = .ok productive) : (h.withoutUnproductive productive).Same h := by
  by_cases hsome : ∃ w, h.Accepts w
  · have hall : ∀ A ∈ h.nonterminals, A ∈ productive :=
      fun A hA => (mem_productive_iff hh hp).mpr ⟨hA, hr.generates hsome A hA⟩
    apply Grammar.withoutUnproductive_same hh hn
    · exact fun A hA => .inl (hall A hA)
    · exact fun A b hb X hX => (hh.body_mem A b hb X hX).symm.imp_right (hall X)
  · obtain ⟨honly, hbare⟩ := hr.bare hsome
    apply Grammar.withoutUnproductive_same hh hn
    · exact fun A hA => .inr (List.mem_singleton.mp (honly ▸ hA))
    · exact fun A b hb => absurd hb (hbare A b)

/-- Where nothing is useless, neither pass finds anything to drop. -/
theorem Reduced.pruned (hr : h.Reduced) (hh : h.Valid) (hn : h.nonterminals.Nodup) (hf : 1 ≤ factor) :
    (∃ again, h.removeUnproductive factor = .ok again ∧ again.sameAs h = true) ∧
      h.removeUnreachable.sameAs h = true := by
  obtain ⟨productive, hp⟩ := h.productive_isOk hf
  have hsame := hr.withoutUnproductive_same hh hn hp
  exact ⟨⟨_, removeUnproductive_eq_ok hp, sameAs_iff_same.mpr hsame⟩,
    sameAs_iff_same.mpr (removeUnreachable_same hh hn hr.reaches)⟩

/-- **First the unproductive, then the unreachable: one pass of each is enough.** Neither finds anything more
to drop. Every non-terminal that is left stands in something the start can be rewritten into, and derives a
word if there is any; if there is none, the start is all that is left. -/
theorem pruned_once (hg : g.validate = .ok ()) (hf : 1 ≤ factor) (hf' : 1 ≤ factor') :
    ∃ h again, (g.removeUnproductive factor).map removeUnreachable = .ok h ∧
      h.removeUnproductive factor' = .ok again ∧ again.sameAs h = true ∧
      h.removeUnreachable.sameAs h = true ∧
      h.start = g.start ∧ h.language = g.language ∧
      (∀ A ∈ h.nonterminals, ∃ u v, Derives h [h.start] (u ++ A :: v)) ∧
      (g.language.Nonempty → ∀ A ∈ h.nonterminals, (h.languageOf A).Nonempty) ∧
      (g.language = ∅ → h.nonterminals = [h.start] ∧ h.productionCount = 0) := by
  have hvalid : g.Valid := validate_eq_ok_iff.mp hg
  obtain ⟨productive, hp⟩ := g.productive_isOk hf
  have hfruitful : (g.withoutUnproductive productive).Valid := hvalid.withoutUnproductive hp
  have hreduced := reduced_pruned hvalid hp
  obtain ⟨⟨again, hagain, hsame⟩, hfixed⟩ :=
    hreduced.pruned hfruitful.removeUnreachable (nodup_keepNonterminals _ _) hf'
  have hlanguage : (g.withoutUnproductive productive).removeUnreachable.language = g.language :=
    (languageOf_removeUnreachable hfruitful .start).trans
      (languageOf_withoutUnproductive hvalid hp g.start)
  have hrun : (g.removeUnproductive factor).map removeUnreachable =
      .ok (g.withoutUnproductive productive).removeUnreachable := by
    rw [removeUnproductive_eq_ok hp]
    rfl
  refine ⟨_, again, hrun, hagain, hsame, hfixed, rfl, hlanguage, ?reached, ?fruitful, ?bare⟩
  case reached =>
    intro A hA
    exact ((reaches_iff_derives hfruitful.removeUnreachable).mp (hreduced.reaches A hA)).2
  case fruitful =>
    rintro ⟨w, hw⟩ A hA
    obtain ⟨u, hu⟩ := hreduced.generates ⟨w, mem_language_iff.mp (hlanguage ▸ hw)⟩ A hA
    exact ⟨u, mem_languageOf_iff.mpr hu⟩
  case bare =>
    intro hempty
    have hnone : ¬ ∃ w, (g.withoutUnproductive productive).removeUnreachable.Accepts w := by
      rintro ⟨w, hw⟩
      exact Set.eq_empty_iff_forall_notMem.mp (hlanguage.trans hempty) w (mem_language_iff.mpr hw)
    obtain ⟨honly, hbare⟩ := hreduced.bare hnone
    exact ⟨honly, productionCount_eq_zero hbare⟩

theorem pruned_once_orphaning : ∃ h again,
    (orphaning.removeUnproductive 1).map removeUnreachable = .ok h ∧
    h.removeUnproductive 2 = .ok again ∧ again.sameAs h = true ∧
    h.removeUnreachable.sameAs h = true ∧
    h.start = "S" ∧ h.language = orphaning.language ∧
    (∀ A ∈ h.nonterminals, ∃ u v, Derives h [h.start] (u ++ A :: v)) ∧
    (∀ A ∈ h.nonterminals, (h.languageOf A).Nonempty) ∧ h.nonterminals = ["S"] := by
  have hruns : ((orphaning.removeUnproductive 1).map removeUnreachable).map (·.nonterminals) =
      .ok ["S"] := by cbv
  have hword : orphaning.language.Nonempty := by
    have hbody : ["a"] ∈ orphaning.alternatives "S" := of_decide_eq_true (by cbv)
    exact ⟨["a"], .single (.mk [] [] (by decide) hbody), by decide⟩
  obtain ⟨h, again, hrun, hagain, hsame, hfixed, hstart, hlanguage, hreached, hfruitful, -⟩ :=
    pruned_once orphaning_validate (Int.le_refl 1) (by decide : (1 : Int) ≤ 2)
  rw [hrun] at hruns
  exact ⟨h, again, hrun, hagain, hsame, hfixed, hstart, hlanguage, hreached, hfruitful hword,
    Except.ok.inj hruns⟩

/-- In the other order `A` is left behind, where nothing leads to it any more. -/
example : (orphaning.removeUnreachable.removeUnproductive 1).map
    (fun h => (h.nonterminals, h.reachable)) = .ok (["S", "A"], ["S"]) := by cbv

end Grammar

end ContextFree
