import Mathlib
import ContextFree.Proofs.NormalForm

/-!
How many productions a word takes. In normal form a production turns a non-terminal into a terminal or into
two non-terminals. Either adds one to a body in which terminals count twice (`weight`), so the steps from a
non-terminal to a word are one less than twice its length. An empty body would break the count. It is excused
at a start that stands in no body, so where it is used at all it is the whole derivation (`Lasting`).
-/
namespace ContextFree

variable {g : Grammar} {A : Symbol} {b c d : Body} {w : Word} {n : Nat}

/-- `c` comes from `b` in `n` steps of rewriting. -/
inductive DerivesIn (g : Grammar) : Nat → Body → Body → Prop
  | refl (b : Body) : DerivesIn g 0 b b
  | head {n : Nat} {b c d : Body} (step : RewriteStep g b c) (later : DerivesIn g n c d) :
      DerivesIn g (n + 1) b d

theorem derives_iff_exists_derivesIn : Derives g b c ↔ ∃ n, DerivesIn g n b c := by
  constructor
  · intro hd
    induction hd using Relation.ReflTransGen.head_induction_on with
    | refl => exact ⟨0, .refl c⟩
    | head step _ ih =>
      obtain ⟨n, later⟩ := ih
      exact ⟨n + 1, .head step later⟩
  · rintro ⟨n, hd⟩
    induction hd with
    | refl => exact .refl
    | head step _ ih => exact ih.head step

/-- A single symbol is rewritten into one of its bodies. -/
theorem RewriteStep.of_symbol (step : RewriteStep g [A] b) : b ∈ g.alternatives A := by
  generalize hA : [A] = source at step
  cases step with
  | mk before after _ hb =>
    cases before with
    | nil =>
      cases hA
      simpa using hb
    | cons s before => simp at hA

/-- Nothing comes from the empty body. -/
theorem DerivesIn.of_nil (hd : DerivesIn g n [] b) : b = [] := by
  generalize hnil : ([] : Body) = source at hd
  cases hd with
  | refl => rfl
  | head step =>
    cases step with
    | mk before after => simp at hnil

namespace Grammar

/-- The length of a body in which terminals count twice. -/
def weight (g : Grammar) (b : Body) : Nat := b.length + b.countP g.isTerminal

@[simp] theorem weight_append (b c : Body) : g.weight (b ++ c) = g.weight b + g.weight c := by
  simp only [weight, List.length_append, List.countP_append]
  omega

theorem weight_terminal (ha : A ∈ g.terminals) : g.weight [A] = 2 := by
  simp [weight, isTerminal_iff.mpr ha]

theorem weight_nonterminal (hg : g.Valid) (hA : A ∈ g.nonterminals) : g.weight [A] = 1 := by
  have hnot : ¬ g.isTerminal A = true := fun ha => hg.disjoint A hA (isTerminal_iff.mp ha)
  simp [weight, hnot]

theorem weight_word (hw : ∀ s ∈ w, s ∈ g.terminals) : g.weight w = 2 * w.length := by
  have hall : w.countP g.isTerminal = w.length :=
    List.countP_eq_length.mpr fun s hs => isTerminal_iff.mpr (hw s hs)
  rw [weight, hall, Nat.two_mul]

theorem NormalBody.weight (hg : g.Valid) (hb : g.NormalBody b) : g.weight b = 2 := by
  cases hb with
  | terminal ha => exact weight_terminal ha
  | @pair B C hB hC =>
    have hsplit : g.weight [B, C] = g.weight [B] + g.weight [C] := weight_append [B] [C]
    rw [hsplit, weight_nonterminal hg hB, weight_nonterminal hg hC]

/-- No symbol of `b` has the empty body. -/
def Lasting (g : Grammar) (b : Body) : Prop := ∀ s ∈ b, [] ∉ g.alternatives s

section NormalForm

variable (hg : g.Valid) (hn : g.isNormalForm true = true)

include hg hn

theorem normalBody_of_ne_nil (hb : b ∈ g.alternatives A) (hne : b ≠ []) : g.NormalBody b := by
  obtain hnormal | ⟨hnil, -⟩ := (isNormalForm_iff hg).mp hn A b hb
  · exact hnormal
  · exact absurd hnil hne

/-- The empty body is the start's, and then the start is in no body. -/
theorem start_of_nil_mem (hA : [] ∈ g.alternatives A) :
    A = g.start ∧ ∀ B, ∀ c ∈ g.alternatives B, A ∉ c := by
  obtain hnormal | ⟨-, -, rfl, hoccurs⟩ := (isNormalForm_iff hg).mp hn A [] hA
  · exact absurd rfl hnormal.ne_nil
  · exact ⟨rfl, hoccurs⟩

theorem lasting_of_mem (hb : b ∈ g.alternatives A) : g.Lasting b :=
  fun _ hs hnil => (start_of_nil_mem hg hn hnil).2 A b hb hs

/-- A step adds one, and no symbol with an empty body comes in. -/
theorem Lasting.step (hb : g.Lasting b) (step : RewriteStep g b c) :
    g.Lasting c ∧ g.weight c = g.weight b + 1 := by
  cases step with
  | @mk before after A d hA hd =>
    have hne : d ≠ [] := by
      rintro rfl
      exact hb A (by simp) hd
    have hweight : g.weight d = 2 := (normalBody_of_ne_nil hg hn hd hne).weight hg
    have hone : g.weight (A :: after) = 1 + g.weight after := by
      rw [← weight_nonterminal hg hA, ← weight_append, List.singleton_append]
    constructor
    · intro s hs
      obtain hs | hs := List.mem_append.mp hs
      · obtain hs | hs := List.mem_append.mp hs
        · exact hb s (List.mem_append_left _ hs)
        · exact lasting_of_mem hg hn hd s hs
      · exact hb s (List.mem_append_right _ (List.mem_cons_of_mem A hs))
    · simp only [weight_append, hweight, hone]
      omega

theorem Lasting.weight_of_derivesIn (hb : g.Lasting b) (hd : DerivesIn g n b c) :
    g.weight c = g.weight b + n := by
  induction hd with
  | refl => rfl
  | head step _ ih =>
    obtain ⟨hlasting, hweight⟩ := hb.step hg hn step
    have hlater := ih hlasting
    omega

/-- A non-terminal has the empty word in one step, or not at all, and a longer word in one step less than
twice its length. -/
theorem derivesIn_word (hA : A ∈ g.nonterminals) (hw : ∀ s ∈ w, s ∈ g.terminals)
    (hd : DerivesIn g n [A] w) : w = [] ∧ [] ∈ g.alternatives A ∨ w ≠ [] ∧ n + 1 = 2 * w.length := by
  cases hd with
  | refl => exact absurd (hw A List.mem_cons_self) (hg.disjoint A hA)
  | @head n _ b _ step later =>
    have hb : b ∈ g.alternatives A := step.of_symbol
    by_cases hnil : b = []
    · rw [hnil] at hb later
      exact .inl ⟨later.of_nil, hb⟩
    · have hfirst : g.weight b = 2 := (normalBody_of_ne_nil hg hn hb hnil).weight hg
      have hall : g.weight w = g.weight b + n :=
        (lasting_of_mem hg hn hb).weight_of_derivesIn hg hn later
      rw [hfirst, weight_word hw] at hall
      refine .inr ⟨?_, by omega⟩
      rintro rfl
      rw [List.length_nil] at hall
      omega

theorem nil_mem_languageOf_iff (hA : A ∈ g.nonterminals) :
    [] ∈ g.languageOf A ↔ [] ∈ g.alternatives A := by
  constructor
  · rintro ⟨hd, hw⟩
    obtain ⟨n, hd⟩ := derives_iff_exists_derivesIn.mp hd
    obtain ⟨-, hbody⟩ | ⟨hne, -⟩ := derivesIn_word hg hn hA hw hd
    · exact hbody
    · exact absurd rfl hne
  · intro hbody
    exact mem_languageOf_iff.mpr (generates_of_body hA hbody .nil)

theorem derivesIn_iff_of_mem_languageOf (hA : A ∈ g.nonterminals) (hw : w ∈ g.languageOf A)
    (hne : w ≠ []) : DerivesIn g n [A] w ↔ n = 2 * w.length - 1 := by
  have hlength {m : Nat} (hd : DerivesIn g m [A] w) : m + 1 = 2 * w.length := by
    obtain ⟨hnil, -⟩ | ⟨-, hlength⟩ := derivesIn_word hg hn hA hw.2 hd
    · exact absurd hnil hne
    · exact hlength
  constructor
  · intro hd
    have := hlength hd
    omega
  · rintro rfl
    obtain ⟨m, hm⟩ := derives_iff_exists_derivesIn.mp hw.1
    obtain rfl : m = 2 * w.length - 1 := by
      have := hlength hm
      omega
    exact hm

end NormalForm

/-- **What normal form is for.** The empty word is accepted exactly if the start has the empty body, and no
other non-terminal has it. Whatever is derived from a non-terminal, if it is not empty, takes one production
less than twice its length, in whichever order productions are applied. -/
theorem isNormalForm_delivers (hg : g.validate = .ok ()) (hn : g.isNormalForm true = true) :
    ([] ∈ g.language ↔ [] ∈ g.alternatives g.start) ∧
    (∀ A ∈ g.nonterminals, A ≠ g.start → [] ∉ g.languageOf A) ∧
    ∀ A ∈ g.nonterminals, ∀ w ∈ g.languageOf A, w ≠ [] →
      ∀ n, DerivesIn g n [A] w ↔ n = 2 * w.length - 1 := by
  have hvalid : g.Valid := validate_eq_ok_iff.mp hg
  refine ⟨?start, ?others, fun A hA w hw hne n => ?count⟩
  case start => exact nil_mem_languageOf_iff hvalid hn hvalid.start_mem
  case others =>
    intro A hA hother hmem
    have hbody := (nil_mem_languageOf_iff hvalid hn hA).mp hmem
    exact hother (start_of_nil_mem hvalid hn hbody).1
  case count => exact derivesIn_iff_of_mem_languageOf hvalid hn hA hw hne

/-- `S → AT | AB | ε`, `T → CB`, `C → AT | AB`, `A → a` and `B → b`. -/
def paired : Grammar where
  nonterminals := ["S", "T", "C", "A", "B"]
  terminals := ["a", "b"]
  rules := .ofList
    [("S", .ofList [["A", "T"], ["A", "B"], []]), ("T", .ofList [["C", "B"]]),
      ("C", .ofList [["A", "T"], ["A", "B"]]), ("A", .ofList [["a"]]), ("B", .ofList [["b"]])]
  start := "S"

/-- Four letters take seven productions. -/
theorem isNormalForm_delivers_paired :
    paired.validate = .ok () ∧ paired.isNormalForm true = true ∧ [] ∈ paired.language ∧
    [] ∉ paired.languageOf "C" ∧
    ∀ n, DerivesIn paired n ["S"] ["a", "a", "b", "b"] ↔ n = 7 := by
  have hvalid : paired.validate = .ok () := by cbv
  have hnormal : paired.isNormalForm true = true := by cbv
  have hbody {A : Symbol} {b : Body} (h : (paired.alternatives A).toList.contains b = true) :
      b ∈ paired.alternatives A := List.contains_iff_mem.mp h
  have ha : paired.Generates "A" ["a"] :=
    generates_of_body (by decide) (hbody (by cbv)) (generates_terminal (by decide))
  have hb : paired.Generates "B" ["b"] :=
    generates_of_body (by decide) (hbody (by cbv)) (generates_terminal (by decide))
  have hC : paired.Generates "C" ["a", "b"] :=
    generates_of_body (by decide) (b := ["A", "B"]) (hbody (by cbv)) (ha.append hb)
  have hT : paired.Generates "T" ["a", "b", "b"] :=
    generates_of_body (by decide) (b := ["C", "B"]) (hbody (by cbv)) (hC.append hb)
  have hS : paired.Generates "S" ["a", "a", "b", "b"] :=
    generates_of_body (by decide) (b := ["A", "T"]) (hbody (by cbv)) (ha.append hT)
  obtain ⟨hstart, hothers, hcount⟩ := isNormalForm_delivers hvalid hnormal
  exact ⟨hvalid, hnormal, hstart.mpr (hbody (by cbv)), hothers "C" (by decide) (by decide),
    hcount "S" (by decide) _ (mem_languageOf_iff.mpr hS) (by decide)⟩

end Grammar

end ContextFree
