import Mathlib
import ContextFree.Proofs.Sharing

/-!
The helpers of a reshaped grammar. Unfolding tells helpers apart, and bodies with them, so there is one
helper for each meaning that calls for one, and an old non-terminal keeps as many bodies as it had. What a
helper stands for can be read off the grammar that results: it is what is left once helpers have been
replaced by their bodies for as long as there are any (`replacedBy_iff`).
-/
namespace ContextFree

/-! ## Replacing names -/

namespace Grammar

/-- One occurrence of a name is replaced by a body of it. -/
inductive ReplaceStep (g : Grammar) (names : List Symbol) : Body → Body → Prop
  | replace (before after : Body) {X : Symbol} {b : Body} (hX : X ∈ names)
      (hb : b ∈ g.alternatives X) : ReplaceStep g names (before ++ X :: after) (before ++ b ++ after)

/-- Step by step `b` becomes `c`, and no name is left in it. -/
def ReplacedBy (g : Grammar) (names : List Symbol) (b c : Body) : Prop :=
  Relation.ReflTransGen (g.ReplaceStep names) b c ∧ ∀ s ∈ c, s ∉ names

end Grammar

theorem Rules.count_eq_sum (r : Rules) :
    r.count = (r.keys.map fun A => (r.alternatives A).size).sum := by
  have hsize : ∀ e ∈ r.entries, (r.alternatives e.1).size = e.2.size := by
    intro e he
    rw [Rules.alternatives, Rules.get?_eq_some_iff.mpr he]
    rfl
  calc r.count = (r.entries.map fun e => e.2.size).sum := by
        rw [Rules.count, List.sum, List.foldr_map]
    _ = (r.entries.map fun e => (r.alternatives e.1).size).sum :=
        congrArg List.sum (List.map_congr_left fun e he => (hsize e he).symm)
    _ = (r.keys.map fun A => (r.alternatives A).size).sum := by
        rw [Rules.keys, List.map_map]
        rfl

namespace Reshaping

variable {g : Grammar} {r : Reshaping} {supply : NameSupply} {A B X Y a s : Symbol}
  {b c d p key key' : Body}

/-- A reshaping that has come to its end. -/
structure Finished (g : Grammar) (supply : NameSupply) (r : Reshaping) : Prop
    extends Faithful g g.productions r, Shared g supply r where
  lifted : ∀ A, r.Lifted g A

theorem finished_reshaping (hg : g.Valid) (hs : supply.Covers g) :
    Finished g supply (g.reshaping supply) :=
  { (reshaping_spec hg hs).1, shared_reshaping hg hs with lifted := (reshaping_spec hg hs).2 }

/-! ## Telling helpers apart -/

theorem mem_names_of_length (h : (r.unfold s).length ≠ 1) : s ∈ r.names := by
  refine Decidable.byContradiction fun hs => h ?_
  rw [unfold_of_notMem hs]
  rfl

/-- Pairs that stand for the same end in the same symbol of the grammar, and begin with symbols that stand
for the same. -/
theorem MadeFor.eq_of_unfoldBody_eq (hn : Named g r) (h : MadeFor g r key) (h' : MadeFor g r key')
    (heq : r.unfoldBody key = r.unfoldBody key')
    (ih : ∀ X ∈ r.names, ∀ Y ∈ r.names, (r.unfold X).length < (r.unfoldBody key).length →
      r.unfold X = r.unfold Y → X = Y) : key = key' := by
  have hlength := congrArg List.length heq
  cases h with
  | terminal ha =>
    cases h' with
    | terminal ha' =>
      simpa [unfoldBody, hn.unfold_terminal ha.1, hn.unfold_terminal ha'.1] using heq
    | @beginning x y =>
      have hlong := hn.two_le_length_unfoldBody (b := [x, y]) rfl
      rw [← hlength, unfoldBody, List.flatMap_singleton, hn.unfold_terminal ha.1] at hlong
      exact absurd hlong (by simp)
  | @beginning x y hx hy =>
    cases h' with
    | terminal ha' =>
      have hlong := hn.two_le_length_unfoldBody (b := [x, y]) rfl
      rw [hlength, unfoldBody, List.flatMap_singleton, hn.unfold_terminal ha'.1] at hlong
      exact absurd hlong (by simp)
    | @beginning x' y' hx' hy' =>
      simp only [unfoldBody_pair, hn.unfold_own hy, hn.unfold_own hy'] at heq ih
      obtain ⟨hfront, hlast⟩ := List.append_inj' heq rfl
      have hsame : x = x' := by
        obtain hx | hx := hx
        · have hown : r.unfold x' = [x'] := hx'.resolve_right (by rw [← hfront, hx]; simp)
          rw [hx, hown] at hfront
          exact List.singleton_inj.mp hfront
        · have hxn : x ∈ r.names := mem_names_of_length (by omega)
          have hxn' : x' ∈ r.names := mem_names_of_length (by rw [← hfront]; omega)
          exact ih x hxn x' hxn' (by simp) hfront
      rw [hsame, List.singleton_inj.mp hlast]

namespace Finished

theorem eq_of_unfold_eq (h : Finished g supply r) (hX : X ∈ r.names) (hY : Y ∈ r.names)
    (heq : r.unfold X = r.unfold Y) : X = Y := by
  induction hn : (r.unfold X).length using Nat.strongRecOn generalizing X Y with
  | ind n ih =>
    obtain ⟨e, he, rfl⟩ := List.mem_map.mp hX
    obtain ⟨e', he', rfl⟩ := List.mem_map.mp hY
    have hmeaning := h.meaning e he
    have hkeys : e.1 = e'.1 := by
      apply (h.made e he).eq_of_unfoldBody_eq h.toNamed (h.made e' he')
      · rw [← hmeaning, ← h.meaning e' he', heq]
      · intro Z hZ W hW hlt hsame
        rw [← hmeaning, hn] at hlt
        exact ih _ hlt hZ hW hsame rfl
    rw [List.inj_on_of_nodup_map h.once he he' hkeys]

/-- A helper stands for two symbols at least or for a terminal, so for no non-terminal of the grammar. -/
theorem unfold_ne_nonterminal (h : Finished g supply r) (hg : g.Valid) (hX : X ∈ r.names)
    (hA : A ∈ g.nonterminals) : r.unfold X ≠ [A] := by
  intro heq
  obtain ⟨-, -, -, -, hlong, -⟩ | ⟨a, ha, hsingle⟩ := h.unfold_mem h.toNamed hX
  · rw [heq] at hlong
    exact absurd hlong (by simp)
  · obtain rfl : A = a := List.singleton_inj.mp (heq.symm.trans hsingle)
    exact hg.disjoint A hA ha.1

theorem unfold_injOn (h : Finished g supply r) (hg : g.Valid) :
    Set.InjOn r.unfold {s | s ∈ r.nonterminals} := by
  intro s hs t ht heq
  obtain hs | hs := h.mem_nonterminals.mp hs <;> obtain ht | ht := h.mem_nonterminals.mp ht
  · rw [h.unfold_nonterminal hs, h.unfold_nonterminal ht] at heq
    exact List.singleton_inj.mp heq
  · exact absurd (heq.symm.trans (h.unfold_nonterminal hs)) (h.unfold_ne_nonterminal hg ht hs)
  · exact absurd (heq.trans (h.unfold_nonterminal ht)) (h.unfold_ne_nonterminal hg hs ht)
  · exact h.eq_of_unfold_eq hs ht heq

/-! ## Bodies -/

/-- What stands for two symbols or more is a pair of non-terminals. The second one stands for the last
symbol, the first one for all that is before it. -/
theorem exists_pair (h : Finished g supply r) (hc : c ∈ r.rules.alternatives A)
    (hlong : 2 ≤ (r.unfoldBody c).length) :
    ∃ x y, c = [x, y] ∧ x ∈ r.nonterminals ∧ y ∈ r.nonterminals ∧ (r.unfold y).length = 1 := by
  obtain htwo | ⟨hshort, heq⟩ := h.settled A c hc
  · match c, htwo with
    | [x, y], _ =>
      have hdeclared : ∀ s ∈ [x, y], s ∈ r.nonterminals := fun s hs =>
        (h.bodies A _ hc s hs).resolve_right (h.lifted A _ hc rfl s hs)
      exact ⟨x, y, rfl, hdeclared x (by simp), hdeclared y (by simp), h.single A x y hc⟩
  · rw [heq] at hlong
    omega

theorem unfoldBody_eq_self_of_short (h : Finished g supply r) (hc : c ∈ r.rules.alternatives A)
    (hshort : ¬ 2 ≤ (r.unfoldBody c).length) : r.unfoldBody c = c := by
  obtain htwo | ⟨-, heq⟩ := h.settled A c hc
  · exact absurd (h.two_le_length_unfoldBody htwo) hshort
  · exact heq

theorem unfoldBody_injective (h : Finished g supply r) (hg : g.Valid)
    (hc : c ∈ r.rules.alternatives A) (hd : d ∈ r.rules.alternatives B)
    (heq : r.unfoldBody c = r.unfoldBody d) : c = d := by
  by_cases hlong : 2 ≤ (r.unfoldBody c).length
  · obtain ⟨x, y, rfl, hx, hy, hlast⟩ := h.exists_pair hc hlong
    obtain ⟨x', y', rfl, hx', hy', hlast'⟩ := h.exists_pair hd (heq ▸ hlong)
    rw [unfoldBody_pair, unfoldBody_pair] at heq
    obtain ⟨hfront, hend⟩ := List.append_inj' heq (hlast.trans hlast'.symm)
    rw [h.unfold_injOn hg hx hx' hfront, h.unfold_injOn hg hy hy' hend]
  · rw [← h.unfoldBody_eq_self_of_short hc hlong, heq,
      h.unfoldBody_eq_self_of_short hd (heq ▸ hlong)]

theorem unfoldBody_helper (h : Finished g supply r) (hX : X ∈ r.names)
    (hc : c ∈ r.rules.alternatives X) : r.unfoldBody c = r.unfold X := by
  obtain hdone | ⟨-, heq⟩ := h.sound X c hc
  · exact absurd (h.taken _ hdone) (h.fresh X hX).1
  · exact heq

theorem exists_body (h : Finished g supply r) (hX : X ∈ r.names) :
    ∃ c ∈ r.rules.alternatives X, r.unfoldBody c = r.unfold X :=
  h.complete X _ (.inr ⟨hX, rfl⟩)

/-- A helper has one body. -/
theorem existsUnique_body (h : Finished g supply r) (hg : g.Valid) (hX : X ∈ r.names) :
    ∃! c, c ∈ r.rules.alternatives X := by
  obtain ⟨c, hc, hcX⟩ := h.exists_body hX
  refine ⟨c, hc, fun d hd => h.unfoldBody_injective hg hd hc ?_⟩
  rw [hcX, h.unfoldBody_helper hX hd]

theorem unfoldBody_mem_iff (h : Finished g supply r) (hA : A ∈ g.nonterminals) :
    (∃ c ∈ r.rules.alternatives A, r.unfoldBody c = b) ↔ b ∈ g.alternatives A := by
  have hdue : Due g.productions r A b ↔ b ∈ g.alternatives A := by
    rw [Due, Grammar.mem_productions]
    exact ⟨fun hd => hd.elim And.right fun hX => absurd hA (h.fresh A hX.1).1, fun hb => .inl ⟨hA, hb⟩⟩
  rw [← hdue]
  constructor
  · rintro ⟨c, hc, rfl⟩
    exact h.sound A c hc
  · exact h.complete A b

/-! ## Sizes -/

theorem size_of_nonterminal (h : Finished g supply r) (hg : g.Valid) (hA : A ∈ g.nonterminals) :
    (r.rules.alternatives A).size = (g.alternatives A).size := by
  have hnodup : ((r.rules.alternatives A).toList.map r.unfoldBody).Nodup :=
    (r.rules.alternatives A).nodup.map_on fun c hc d hd => h.unfoldBody_injective hg hc hd
  have hperm : ((r.rules.alternatives A).toList.map r.unfoldBody).Perm (g.alternatives A).toList := by
    refine (List.perm_ext_iff_of_nodup hnodup (g.alternatives A).nodup).mpr fun b => ?_
    rw [List.mem_map]
    exact h.unfoldBody_mem_iff hA
  simpa [Alternatives.size] using hperm.length_eq

theorem size_of_helper (h : Finished g supply r) (hg : g.Valid) (hX : X ∈ r.names) :
    (r.rules.alternatives X).size = 1 := by
  obtain ⟨c, hc, hunique⟩ := h.existsUnique_body hg hX
  have hperm : (r.rules.alternatives X).toList.Perm [c] := by
    refine (List.perm_ext_iff_of_nodup (r.rules.alternatives X).nodup (by simp)).mpr fun d => ?_
    rw [List.mem_singleton]
    exact ⟨hunique d, fun e => e ▸ hc⟩
  exact hperm.length_eq

theorem count_rules (h : Finished g supply r) (hg : g.Valid) :
    r.rules.count = g.productionCount + r.names.length := by
  have hnodup : (g.rules.keys ++ r.names).Nodup := by
    refine List.nodup_append.mpr ⟨g.rules.nodup_keys, h.nodup, fun A hA X hX heq => ?_⟩
    exact (h.fresh X hX).1 (heq ▸ hg.lhs_mem A hA)
  have hkeys : r.rules.keys.Perm (g.rules.keys ++ r.names) := by
    refine (List.perm_ext_iff_of_nodup r.rules.nodup_keys hnodup).mpr fun A => ?_
    exact (h.keys A).trans List.mem_append.symm
  have hold : ∀ A ∈ g.rules.keys, (r.rules.alternatives A).size = (g.rules.alternatives A).size :=
    fun A hA => h.size_of_nonterminal hg (hg.lhs_mem A hA)
  have hnew : ∀ X ∈ r.names, (r.rules.alternatives X).size = 1 :=
    fun X hX => h.size_of_helper hg hX
  rw [Rules.count_eq_sum, (hkeys.map _).sum_eq, List.map_append, List.sum_append,
    List.map_congr_left hold, List.map_congr_left hnew, Grammar.productionCount, Rules.count_eq_sum]
  simp

/-! ## What calls for a helper has one -/

/-- A beginning of two symbols at least lies within the first symbol of the pair. -/
theorem exists_name_of_prefix (h : Finished g supply r) (hc : c ∈ r.rules.alternatives A)
    (hp : p <+: r.unfoldBody c) (htwo : 2 ≤ p.length) (hlt : p.length < (r.unfoldBody c).length) :
    ∃ X ∈ r.names, r.unfold X = p := by
  induction hn : (r.unfoldBody c).length using Nat.strongRecOn generalizing A c with
  | ind n ih =>
    obtain ⟨x, y, rfl, hx, -, hlast⟩ := h.exists_pair hc (by omega)
    have hlength : (r.unfold x).length + 1 = n := by
      rw [← hn, unfoldBody_pair, List.length_append, hlast]
    have hle : p.length ≤ (r.unfold x).length := by omega
    have hfront : p <+: r.unfold x := by
      rw [unfoldBody_pair] at hp
      exact List.prefix_of_prefix_length_le hp (List.prefix_append _ _) hle
    have hX : x ∈ r.names := mem_names_of_length (by omega)
    obtain hwhole | hpart := hle.eq_or_lt
    · exact ⟨x, hX, (hfront.eq_of_length hwhole).symm⟩
    · obtain ⟨d, hd, hdx⟩ := h.exists_body hX
      exact ih (r.unfold x).length (by omega) hd (hdx ▸ hfront) (hdx ▸ hpart) (by rw [hdx])

theorem mem_names_of_unfold_eq (h : Finished g supply r) (hg : g.Valid) (hs : s ∈ r.nonterminals)
    (ha : a ∈ g.terminals) (heq : r.unfold s = [a]) : s ∈ r.names := by
  obtain hown | hX := h.mem_nonterminals.mp hs
  · rw [h.unfold_nonterminal hown] at heq
    exact absurd ha (List.singleton_inj.mp heq ▸ hg.disjoint s hown)
  · exact hX

/-- A pair is made of non-terminals, so a terminal that it stands for comes out of a helper. -/
theorem exists_name_of_mem (h : Finished g supply r) (hg : g.Valid)
    (hc : c ∈ r.rules.alternatives A) (ha : a ∈ g.terminals) (hmem : a ∈ r.unfoldBody c)
    (hlong : 2 ≤ (r.unfoldBody c).length) : ∃ X ∈ r.names, r.unfold X = [a] := by
  induction hn : (r.unfoldBody c).length using Nat.strongRecOn generalizing A c with
  | ind n ih =>
    obtain ⟨x, y, rfl, hx, hy, hlast⟩ := h.exists_pair hc hlong
    have hlength : (r.unfold x).length + 1 = n := by
      rw [← hn, unfoldBody_pair, List.length_append, hlast]
    -- A symbol that stands for one symbol, the terminal, is its helper.
    have hsingle {s : Symbol} (hs : s ∈ r.nonterminals) (hone : (r.unfold s).length = 1)
        (hmem : a ∈ r.unfold s) : ∃ X ∈ r.names, r.unfold X = [a] := by
      obtain ⟨t, ht⟩ := List.length_eq_one_iff.mp hone
      have heq : r.unfold s = [a] := by
        rw [ht, List.mem_singleton] at hmem
        rw [ht, hmem]
      exact ⟨s, h.mem_names_of_unfold_eq hg hs ha heq, heq⟩
    rw [unfoldBody_pair, List.mem_append] at hmem
    obtain hmem | hmem := hmem
    · by_cases hone : (r.unfold x).length = 1
      · exact hsingle hx hone hmem
      · have hX : x ∈ r.names := mem_names_of_length hone
        obtain ⟨d, hd, hdx⟩ := h.exists_body hX
        have hlong : 2 ≤ (r.unfold x).length := by
          have := List.length_pos_of_mem hmem
          omega
        exact ih (r.unfold x).length (by omega) hd (hdx ▸ hmem) (hdx ▸ hlong) (by rw [hdx])
    · exact hsingle hy hlast hmem

theorem unfold_bijOn (h : Finished g supply r) (hg : g.Valid) :
    Set.BijOn r.unfold {X | X ∈ r.names} g.helperMeanings := by
  refine ⟨fun X hX => h.unfold_mem h.toNamed hX, fun X hX Y hY => h.eq_of_unfold_eq hX hY, ?_⟩
  have hbody {A : Symbol} {b : Body} (hb : b ∈ g.alternatives A) :
      ∃ c ∈ r.rules.alternatives A, r.unfoldBody c = b :=
    (h.unfoldBody_mem_iff (hg.lhs_mem A (Rules.mem_keys_of_mem_alternatives hb))).mpr hb
  rintro p (⟨A, b, hb, hp, htwo, hlt⟩ | ⟨a, ⟨ha, A, b, hb, hlong, hmem⟩, rfl⟩)
  · obtain ⟨c, hc, rfl⟩ := hbody hb
    exact h.exists_name_of_prefix hc hp htwo hlt
  · obtain ⟨c, hc, rfl⟩ := hbody hb
    exact h.exists_name_of_mem hg hc ha hmem hlong

end Finished

/-! ## Replacing helpers -/

/-- How many steps a symbol takes at most. A helper takes one itself and leaves two symbols. -/
def steps (r : Reshaping) (s : Symbol) : Nat :=
  if s ∈ r.names then 2 * (r.unfold s).length - 1 else 0

theorem steps_le (r : Reshaping) (s : Symbol) : r.steps s ≤ 2 * (r.unfold s).length - 1 := by
  unfold steps
  split <;> omega

namespace Finished

theorem unfoldBody_replaceStep (h : Finished g supply r)
    (hstep : (g.reshapedBy r).ReplaceStep r.names b c) : r.unfoldBody c = r.unfoldBody b := by
  cases hstep with
  | @replace before after X d hX hd =>
    have hsame := h.unfoldBody_helper hX hd
    simp only [unfoldBody, List.flatMap_append, List.flatMap_cons, List.append_assoc] at hsame ⊢
    rw [hsame]

theorem unfoldBody_replaceSteps (h : Finished g supply r)
    (hsteps : Relation.ReflTransGen ((g.reshapedBy r).ReplaceStep r.names) b c) :
    r.unfoldBody c = r.unfoldBody b := by
  induction hsteps with
  | refl => rfl
  | tail _ hstep ih => exact (h.unfoldBody_replaceStep hstep).trans ih

theorem steps_body_lt (h : Finished g supply r) (hX : X ∈ r.names)
    (hc : c ∈ r.rules.alternatives X) : (c.map r.steps).sum < r.steps X := by
  have hsame := h.unfoldBody_helper hX hc
  have hhelper : r.steps X = 2 * (r.unfoldBody c).length - 1 := by rw [steps, if_pos hX, hsame]
  rw [hhelper]
  by_cases hlong : 2 ≤ (r.unfoldBody c).length
  · obtain ⟨x, y, rfl, -, -, hlast⟩ := h.exists_pair hc hlong
    have hx := r.steps_le x
    have hy := r.steps_le y
    have hpos := List.length_pos_of_ne_nil (h.unfold_ne_nil x)
    rw [hlast] at hy
    rw [unfoldBody_pair, List.length_append, hlast]
    simp only [List.map_cons, List.map_nil, List.sum_cons, List.sum_nil]
    omega
  · -- The body of a terminal's helper is the terminal.
    obtain ⟨-, -, -, -, htwo, -⟩ | ⟨a, ha, hsingle⟩ := h.unfold_mem h.toNamed hX
    · exact absurd (hsame ▸ htwo) hlong
    · have hterminal : r.steps a = 0 := if_neg fun ha' => (h.fresh a ha').2 ha.1
      have hbody : c = [a] :=
        (h.unfoldBody_eq_self_of_short hc hlong).symm.trans (hsame.trans hsingle)
      rw [hsame, hsingle, hbody]
      simp [hterminal]

theorem replacing_ends (h : Finished g supply r) :
    WellFounded fun c b => (g.reshapedBy r).ReplaceStep r.names b c := by
  have hlt {c b : Body} (hstep : (g.reshapedBy r).ReplaceStep r.names b c) :
      (c.map r.steps).sum < (b.map r.steps).sum := by
    cases hstep with
    | @replace before after X d hX hd =>
      have hbody := h.steps_body_lt hX hd
      simp only [List.map_append, List.map_cons, List.sum_append, List.sum_cons]
      omega
  exact Subrelation.wf hlt (measure fun b : Body => (b.map r.steps).sum).wf

theorem replacedBy_unfoldBody (h : Finished g supply r) (b : Body) :
    (g.reshapedBy r).ReplacedBy r.names b (r.unfoldBody b) := by
  induction b using h.replacing_ends.induction with
  | _ b ih =>
    by_cases hnone : ∀ s ∈ b, s ∉ r.names
    · rw [unfoldBody_of_notMem hnone]
      exact ⟨.refl, hnone⟩
    · push Not at hnone
      obtain ⟨X, hmem, hX⟩ := hnone
      obtain ⟨before, after, rfl⟩ := List.append_of_mem hmem
      obtain ⟨c, hc, -⟩ := h.exists_body hX
      have hstep : (g.reshapedBy r).ReplaceStep r.names (before ++ X :: after) (before ++ c ++ after) :=
        .replace before after hX hc
      obtain ⟨hrest, hfree⟩ := ih _ hstep
      rw [h.unfoldBody_replaceStep hstep] at hrest hfree
      exact ⟨.head hstep hrest, hfree⟩

/-- In whichever order helpers are replaced, what is left in the end is what the body stands for. -/
theorem replacedBy_iff (h : Finished g supply r) :
    (g.reshapedBy r).ReplacedBy r.names b c ↔ c = r.unfoldBody b := by
  constructor
  · rintro ⟨hsteps, hfree⟩
    rw [← h.unfoldBody_replaceSteps hsteps, unfoldBody_of_notMem hfree]
  · rintro rfl
    exact h.replacedBy_unfoldBody b

end Finished

end Reshaping

namespace Grammar

/-- `names` are the helpers of `out`, and `meaning` says what each was made for. -/
structure SharesHelpers (g out : Grammar) (names : List Symbol) (meaning : Symbol → Body) : Prop where
  one_for_each : Set.BijOn meaning {X | X ∈ names} g.helperMeanings
  one_body : ∀ X ∈ names, ∃! b, b ∈ out.alternatives X
  own_body : ∀ X ∈ names, ∀ Y ∈ names, ∀ b, b ∈ out.alternatives X → b ∈ out.alternatives Y → X = Y
  ends : WellFounded fun c b => out.ReplaceStep names b c
  replaced : ∀ X ∈ names, ∀ c, out.ReplacedBy names [X] c ↔ c = meaning X

variable {g : Grammar} {supply : NameSupply}

theorem nonterminals_reshapedBy {r : Reshaping} (h : Reshaping.Named g r) :
    (g.reshapedBy r).nonterminals = distinct g.nonterminals ++ r.names := by
  have hnew : distinct r.names = r.names := distinct_eq_self h.nodup
  change distinct r.nonterminals = _
  rw [h.nonterminals, distinct_append, hnew, List.filter_eq_self.mpr]
  intro X hX
  simpa using (h.fresh X hX).1

/-- **Helpers are shared exactly.** There is one for every beginning of a body and for every terminal beside
another symbol, and no other. Old non-terminals keep the number of their bodies, so the productions grow by
the number of helpers, and the helpers follow the old non-terminals in the order of their names. -/
theorem reshape_shares (hg : g.validate = .ok ()) (hs : supply.Covers g) :
    ∃ out later names meaning, g.reshape supply = (out, later) ∧
      later.allocated = supply.allocated ++ names ∧
      out.nonterminals = distinct g.nonterminals ++ names ∧ out.nonterminals.Nodup ∧
      g.SharesHelpers out names meaning ∧
      (∀ A ∈ g.nonterminals, (out.alternatives A).size = (g.alternatives A).size) ∧
      out.productionCount = g.productionCount + names.length := by
  have hvalid : g.Valid := validate_eq_ok_iff.mp hg
  have h := Reshaping.finished_reshaping hvalid hs
  refine ⟨_, _, (g.reshaping supply).names, (g.reshaping supply).unfold, rfl, h.allocated,
    nonterminals_reshapedBy h.toNamed, nodup_distinct _, ?_, fun A hA => h.size_of_nonterminal hvalid hA,
    h.count_rules hvalid⟩
  constructor
  case one_for_each => exact h.unfold_bijOn hvalid
  case one_body => exact fun X hX => h.existsUnique_body hvalid hX
  case own_body =>
    intro X hX Y hY b hbX hbY
    apply h.eq_of_unfold_eq hX hY
    rw [← h.unfoldBody_helper hX hbX, ← h.unfoldBody_helper hY hbY]
  case ends => exact h.replacing_ends
  case replaced =>
    intro X hX c
    have hunfold : (g.reshaping supply).unfoldBody [X] = (g.reshaping supply).unfold X :=
      List.flatMap_singleton ..
    rw [h.replacedBy_iff, hunfold]

/-- `S → aSa | aSb`, two bodies with one beginning. -/
def alike : Grammar where
  nonterminals := ["S"]
  terminals := ["a", "b"]
  rules := .ofList [("S", .ofList [["a", "S", "a"], ["a", "S", "b"]])]
  start := "S"

/-- Three helpers are enough: `Z` for `aS`, the others for `a` and `b`. -/
theorem reshape_shares_alike : ∃ out later meaning,
    alike.reshape (.forGrammarWith alike ["S", "Z"] "a") = (out, later) ∧
    later.allocated = ["Z", "a0", "a1"] ∧
    out.nonterminals = ["S", "Z", "a0", "a1"] ∧ out.nonterminals.Nodup ∧
    alike.SharesHelpers out ["Z", "a0", "a1"] meaning ∧
    (out.alternatives "S").size = 2 ∧
    out.productionCount = 5 := by
  have hvalid : alike.validate = .ok () := by cbv
  have hsize : (alike.alternatives "S").size = 2 := by cbv
  have hcount : alike.productionCount = 2 := by cbv
  have hnames : (alike.reshape (.forGrammarWith alike ["S", "Z"] "a")).1.nonterminals =
      ["S", "Z", "a0", "a1"] := by cbv
  obtain ⟨out, later, names, meaning, heq, hallocated, hnonterminals, hnodup, hshared, hkept, hgrown⟩ :=
    reshape_shares hvalid (NameSupply.forGrammarWith_covers alike ["S", "Z"] "a")
  rw [heq, hnonterminals] at hnames
  obtain rfl : names = ["Z", "a0", "a1"] := (List.cons_eq_cons.mp hnames).2
  refine ⟨out, later, meaning, heq, hallocated, hnonterminals, hnodup, hshared, ?_, ?_⟩
  · rw [hkept "S" List.mem_cons_self, hsize]
  · rw [hgrown, hcount]
    rfl

end Grammar

end ContextFree
