import Mathlib.Data.List.Basic
import ContextFree.Proofs.NameSupply
import ContextFree.NormalForm.Reshape

/-!
Reshaping seen through its helpers. `unfold` replaces helpers by what they were made for until none is
left, and `Faithful` says that a state holds, up to unfolding, exactly the productions that have been
taken in, beside one body for each helper. Making a helper and shortening a body keep this; terminals are
lifted in `ContextFree.Proofs.Reshape`.
-/
namespace ContextFree

/-- What a symbol stands for, given the helpers, the latest one first: a helper was made for symbols and
earlier helpers. -/
def unfoldSymbol : List (Body × Symbol) → Symbol → Body
  | [], s => [s]
  | (body, name) :: earlier, s =>
    if s = name then body.flatMap (unfoldSymbol earlier) else unfoldSymbol earlier s

theorem unfoldSymbol_of_notMem {helpers : List (Body × Symbol)} {s : Symbol}
    (h : s ∉ helpers.map Prod.snd) : unfoldSymbol helpers s = [s] := by
  induction helpers with
  | nil => rfl
  | cons p helpers ih =>
    simp only [List.map_cons, List.mem_cons, not_or] at h
    rw [unfoldSymbol, if_neg h.1, ih h.2]

theorem unfoldSymbol_ne_nil {helpers : List (Body × Symbol)} (h : ∀ p ∈ helpers, p.1 ≠ [])
    (s : Symbol) : unfoldSymbol helpers s ≠ [] := by
  induction helpers generalizing s with
  | nil => exact List.cons_ne_nil s []
  | cons p helpers ih =>
    obtain ⟨hp, hrest⟩ := List.forall_mem_cons.mp h
    rw [unfoldSymbol]
    split
    · obtain ⟨t, ht⟩ := List.exists_mem_of_ne_nil p.1 hp
      exact fun e => ih hrest t (List.flatMap_eq_nil_iff.mp e t ht)
    · exact ih hrest s

namespace Reshaping

variable {g : Grammar} {r r' r'' : Reshaping} {done : List (Symbol × Body)} {A X s : Symbol}
  {b body c : Body}

def names (r : Reshaping) : List Symbol := r.helpers.map Prod.snd

def unfold (r : Reshaping) (s : Symbol) : Body := unfoldSymbol r.helpers.reverse s

def unfoldBody (r : Reshaping) (b : Body) : Body := b.flatMap r.unfold

/-- A symbol that bodies may be made of. -/
def Declared (g : Grammar) (r : Reshaping) (s : Symbol) : Prop :=
  s ∈ r.nonterminals ∨ s ∈ g.terminals

theorem unfold_of_notMem (h : s ∉ r.names) : r.unfold s = [s] :=
  unfoldSymbol_of_notMem (by simpa [names] using h)

theorem unfoldBody_of_notMem (h : ∀ s ∈ b, s ∉ r.names) : r.unfoldBody b = b := by
  induction b with
  | nil => rfl
  | cons s b ih =>
    obtain ⟨hs, hb⟩ := List.forall_mem_cons.mp h
    have hrest : b.flatMap r.unfold = b := ih hb
    rw [unfoldBody, List.flatMap_cons, unfold_of_notMem hs, hrest, List.singleton_append]

theorem unfoldBody_pair (r : Reshaping) (s t : Symbol) :
    r.unfoldBody [s, t] = r.unfold s ++ r.unfold t := by
  simp [unfoldBody]

/-! ## Names -/

/-- Helpers have names of their own, each stands for the body it was made for, and that is a terminal or
a pair of symbols that were there before. -/
structure Named (g : Grammar) (r : Reshaping) : Prop where
  nonterminals : r.nonterminals = g.nonterminals ++ r.names
  fresh : ∀ X ∈ r.names, X ∉ g.nonterminals ∧ X ∉ g.terminals
  nodup : r.names.Nodup
  registered : ∀ s, r.Declared g s → s ∈ r.supply.registered
  shape : ∀ p ∈ r.helpers, p.1.length = 2 ∨ ∃ a ∈ g.terminals, p.1 = [a]
  meaning : ∀ p ∈ r.helpers, r.unfold p.2 = r.unfoldBody p.1
  declared : ∀ p ∈ r.helpers, ∀ s ∈ p.1, r.Declared g s

/-- `r'` comes after `r`: what was there stands for the same and has the same bodies. -/
structure Extends (g : Grammar) (r r' : Reshaping) : Prop where
  nonterminals : ∀ s ∈ r.nonterminals, s ∈ r'.nonterminals
  unfold : ∀ s, r.Declared g s → r'.unfold s = r.unfold s
  rules : ∀ A ∈ r.nonterminals, r'.rules.get? A = r.rules.get? A

theorem Extends.refl (g : Grammar) (r : Reshaping) : Extends g r r :=
  ⟨fun _ hs => hs, fun _ _ => rfl, fun _ _ => rfl⟩

theorem Extends.declared (h : Extends g r r') (hs : r.Declared g s) : r'.Declared g s :=
  hs.imp_left (h.nonterminals s)

theorem Extends.trans (h : Extends g r r') (h' : Extends g r' r'') : Extends g r r'' where
  nonterminals s hs := h'.nonterminals s (h.nonterminals s hs)
  unfold s hs := (h'.unfold s (h.declared hs)).trans (h.unfold s hs)
  rules A hA := (h'.rules A (h.nonterminals A hA)).trans (h.rules A hA)

theorem Extends.unfoldBody (h : Extends g r r') (hb : ∀ s ∈ b, r.Declared g s) :
    r'.unfoldBody b = r.unfoldBody b :=
  List.flatMap_congr fun s hs => h.unfold s (hb s hs)

theorem Named.mem_nonterminals (h : Named g r) :
    s ∈ r.nonterminals ↔ s ∈ g.nonterminals ∨ s ∈ r.names := by
  rw [h.nonterminals, List.mem_append]

theorem Named.unfold_terminal (h : Named g r) (hs : s ∈ g.terminals) : r.unfold s = [s] :=
  unfold_of_notMem fun hX => (h.fresh s hX).2 hs

theorem Named.unfold_nonterminal (h : Named g r) (hA : A ∈ g.nonterminals) : r.unfold A = [A] :=
  unfold_of_notMem fun hX => (h.fresh A hX).1 hA

/-- A body of the grammar itself holds no helper. -/
theorem Named.unfoldBody_eq_self (h : Named g r)
    (hb : ∀ s ∈ b, s ∈ g.nonterminals ∨ s ∈ g.terminals) : r.unfoldBody b = b := by
  refine unfoldBody_of_notMem fun s hs hX => ?_
  exact (hb s hs).elim (h.fresh s hX).1 (h.fresh s hX).2

theorem Named.unfold_ne_nil (h : Named g r) (s : Symbol) : r.unfold s ≠ [] := by
  refine unfoldSymbol_ne_nil (fun p hp => ?_) s
  obtain hlen | ⟨a, -, hb⟩ := h.shape p (List.mem_reverse.mp hp)
  · exact List.ne_nil_of_length_pos (by omega)
  · rw [hb]; exact List.cons_ne_nil a []

theorem Named.two_le_length_unfoldBody (h : Named g r) (hb : b.length = 2) :
    2 ≤ (r.unfoldBody b).length := by
  match b, hb with
  | [s, t], _ =>
    have hs := List.length_pos_of_ne_nil (h.unfold_ne_nil s)
    have ht := List.length_pos_of_ne_nil (h.unfold_ne_nil t)
    rw [unfoldBody_pair, List.length_append]
    omega

/-! ## Making a helper -/

/-- The state once a fresh name stands for `body`. -/
def withHelper (r : Reshaping) (body : Body) : Reshaping where
  supply := r.supply.allocate.2
  nonterminals := r.nonterminals ++ [r.supply.allocate.1]
  rules := r.rules.insert r.supply.allocate.1 (.ofList [body])
  helpers := r.helpers ++ [(body, r.supply.allocate.1)]

theorem helper_cases (r : Reshaping) (body : Body) :
    (∃ name, (body, name) ∈ r.helpers ∧ r.helper body = (name, r)) ∨
      body ∉ r.helpers.map Prod.fst ∧
        r.helper body = (r.supply.allocate.1, r.withHelper body) := by
  unfold helper
  split
  · rename_i name hlookup
    obtain ⟨before, after, heq, -⟩ := List.lookup_eq_some_iff.mp hlookup
    exact .inl ⟨name, by rw [heq]; simp, rfl⟩
  · rename_i hlookup
    refine .inr ⟨fun hmem => ?_, rfl⟩
    obtain ⟨p, hp, rfl⟩ := List.mem_map.mp hmem
    simpa using List.lookup_eq_none_iff.mp hlookup p hp

theorem names_withHelper (r : Reshaping) (body : Body) :
    (r.withHelper body).names = r.names ++ [r.supply.allocate.1] := by
  simp [names, withHelper]

theorem unfold_withHelper (r : Reshaping) (body : Body) (s : Symbol) :
    (r.withHelper body).unfold s =
      if s = r.supply.allocate.1 then r.unfoldBody body else r.unfold s := by
  rw [unfold, withHelper, List.reverse_append, List.reverse_singleton, List.singleton_append,
    unfoldSymbol]
  rfl

theorem Named.fresh_not_declared (h : Named g r) : ¬ r.Declared g r.supply.allocate.1 :=
  fun hs => NameSupply.allocate_notMem r.supply (h.registered _ hs)

theorem Named.extends_withHelper (h : Named g r) (body : Body) :
    Extends g r (r.withHelper body) where
  nonterminals s hs := List.mem_append_left _ hs
  unfold s hs := by
    rw [unfold_withHelper, if_neg]
    rintro rfl
    exact h.fresh_not_declared hs
  rules A hA := by
    rw [withHelper, Rules.get?_insert, if_neg]
    rintro rfl
    exact h.fresh_not_declared (.inl hA)

/-- What may become a helper: a terminal or a pair. -/
structure Pairable (g : Grammar) (r : Reshaping) (body : Body) : Prop where
  shape : body.length = 2 ∨ ∃ a ∈ g.terminals, body = [a]
  declared : ∀ s ∈ body, r.Declared g s

theorem Named.withHelper (h : Named g r) (hb : Pairable g r body) :
    Named g (r.withHelper body) := by
  have hnew := h.fresh_not_declared
  have hext := h.extends_withHelper body
  have hmem : ∀ p ∈ (r.withHelper body).helpers,
      p ∈ r.helpers ∨ p = (body, r.supply.allocate.1) := by
    intro p hp
    simpa [Reshaping.withHelper] using hp
  constructor
  case nonterminals =>
    rw [names_withHelper, ← List.append_assoc, ← h.nonterminals]
    rfl
  case fresh =>
    intro X hX
    rw [names_withHelper, List.mem_append, List.mem_singleton] at hX
    obtain hX | rfl := hX
    · exact h.fresh X hX
    · exact ⟨fun hs => hnew (.inl (h.mem_nonterminals.mpr (.inl hs))), fun hs => hnew (.inr hs)⟩
  case nodup =>
    have hname : r.supply.allocate.1 ∉ r.names :=
      fun hX => hnew (.inl (h.mem_nonterminals.mpr (.inr hX)))
    rw [names_withHelper, List.nodup_append]
    exact ⟨h.nodup, by simp, fun X hX Y hY e => hname (List.mem_singleton.mp hY ▸ e ▸ hX)⟩
  case registered =>
    intro s hs
    rw [Reshaping.withHelper, NameSupply.registered_allocate, List.mem_append]
    obtain hs | hs := hs
    · exact (List.mem_append.mp hs).imp_left fun hs => h.registered s (.inl hs)
    · exact .inl (h.registered s (.inr hs))
  case shape =>
    intro p hp
    obtain hp | rfl := hmem p hp
    · exact h.shape p hp
    · exact hb.shape
  case meaning =>
    intro p hp
    obtain hp | rfl := hmem p hp
    · have hX : r.Declared g p.2 := .inl (h.mem_nonterminals.mpr (.inr (List.mem_map_of_mem hp)))
      rw [hext.unfold _ hX, hext.unfoldBody (h.declared p hp), h.meaning p hp]
    · rw [hext.unfoldBody hb.declared, unfold_withHelper, if_pos rfl]
  case declared =>
    intro p hp s hs
    obtain hp | rfl := hmem p hp
    · exact hext.declared (h.declared p hp s hs)
    · exact hext.declared (hb.declared s hs)

/-! ## Productions -/

/-- The body `b` is due under `A`: as a production that has been taken in, or as what the helper `A` was
made for. -/
def Due (done : List (Symbol × Body)) (r : Reshaping) (A : Symbol) (b : Body) : Prop :=
  (A, b) ∈ done ∨ A ∈ r.names ∧ b = r.unfold A

/-- A body that has its final length: two symbols, or less and none of them a helper. -/
def Settled (r : Reshaping) (c : Body) : Prop :=
  c.length = 2 ∨ c.length < 2 ∧ r.unfoldBody c = c

/-- Up to unfolding, the bodies are those that are due. -/
structure Faithful (g : Grammar) (done : List (Symbol × Body)) (r : Reshaping) : Prop
    extends Named g r where
  taken : ∀ p ∈ done, p.1 ∈ g.nonterminals
  keys : ∀ A, A ∈ r.rules.keys ↔ A ∈ g.rules.keys ∨ A ∈ r.names
  sound : ∀ A, ∀ c ∈ r.rules.alternatives A, Due done r A (r.unfoldBody c)
  complete : ∀ A b, Due done r A b → ∃ c ∈ r.rules.alternatives A, r.unfoldBody c = b
  settled : ∀ A, ∀ c ∈ r.rules.alternatives A, r.Settled c
  bodies : ∀ A, ∀ c ∈ r.rules.alternatives A, ∀ s ∈ c, r.Declared g s

theorem Extends.settled (h : Extends g r r') (hc : r.Settled c) (hd : ∀ s ∈ c, r.Declared g s) :
    r'.Settled c := by
  rw [Settled, h.unfoldBody hd]
  exact hc

theorem Extends.alternatives (h : Extends g r r') (hA : A ∈ r.nonterminals) :
    r'.rules.alternatives A = r.rules.alternatives A := by
  rw [Rules.alternatives, Rules.alternatives, h.rules A hA]

theorem Named.settled_helper (h : Named g r) (hb : Pairable g r body) : r.Settled body := by
  obtain hlen | ⟨a, ha, rfl⟩ := hb.shape
  · exact .inl hlen
  · have hown : ∀ s ∈ [a], s ∈ g.nonterminals ∨ s ∈ g.terminals := by simpa using .inr ha
    exact .inr ⟨Nat.lt_succ_self 1, h.unfoldBody_eq_self hown⟩

/-- Only declared left sides have bodies. -/
theorem Faithful.mem_nonterminals_of_mem (hg : g.Valid) (h : Faithful g done r)
    (hc : c ∈ r.rules.alternatives A) : A ∈ r.nonterminals := by
  have hkey := (h.keys A).mp (Rules.mem_keys_of_mem_alternatives hc)
  exact h.mem_nonterminals.mpr (hkey.imp_left (hg.lhs_mem A))

theorem Faithful.mem_nonterminals_of_due (h : Faithful g done r) (hdue : Due done r A b) :
    A ∈ r.nonterminals := by
  apply h.mem_nonterminals.mpr
  cases hdue with
  | inl hdone => exact .inl (h.taken _ hdone)
  | inr hhelper => exact .inr hhelper.1

/-- A new helper makes its own body due, and no other. -/
theorem Faithful.due_withHelper (h : Faithful g done r) : Due done (r.withHelper body) A b ↔
    (A = r.supply.allocate.1 ∧ b = r.unfoldBody body) ∨ Due done r A b := by
  have hnew := h.toNamed.fresh_not_declared
  have hnames : A ∈ (r.withHelper body).names ↔ A ∈ r.names ∨ A = r.supply.allocate.1 := by
    rw [names_withHelper, List.mem_append, List.mem_singleton]
  unfold Due
  rw [hnames, unfold_withHelper]
  by_cases hA : A = r.supply.allocate.1
  · have hdone : (A, b) ∉ done := by
      rintro hdone
      exact hnew (.inl (hA ▸ h.mem_nonterminals_of_due (.inl hdone)))
    have hname : A ∉ r.names := fun hX => hnew (.inl (hA ▸ h.mem_nonterminals.mpr (.inr hX)))
    simp [hA ▸ hdone, hA ▸ hname, hA]
  · simp [hA]

theorem Faithful.withHelper (h : Faithful g done r) (hb : Pairable g r body) :
    Faithful g done (r.withHelper body) := by
  have hext := h.toNamed.extends_withHelper body
  have hbody : (r.withHelper body).unfoldBody body = r.unfoldBody body :=
    hext.unfoldBody hb.declared
  have halts (A : Symbol) : (r.withHelper body).rules.alternatives A =
      if A = r.supply.allocate.1 then .ofList [body] else r.rules.alternatives A :=
    Rules.alternatives_insert ..
  -- A body is the new helper's or was there before, and then nothing about it has changed.
  have hcases {A : Symbol} {c : Body} (hc : c ∈ (r.withHelper body).rules.alternatives A) :
      (A = r.supply.allocate.1 ∧ c = body) ∨ c ∈ r.rules.alternatives A := by
    rw [halts] at hc
    split at hc
    · rename_i hA
      exact .inl ⟨hA, by simpa using hc⟩
    · exact .inr hc
  constructor
  case toNamed => exact h.toNamed.withHelper hb
  case taken => exact h.taken
  case keys =>
    intro A
    rw [names_withHelper, List.mem_append, List.mem_singleton, ← or_assoc, ← h.keys]
    exact Rules.mem_keys_insert.trans or_comm
  case sound =>
    intro A c hc
    apply h.due_withHelper.mpr
    obtain ⟨rfl, rfl⟩ | hc := hcases hc
    · exact .inl ⟨rfl, hbody⟩
    · rw [hext.unfoldBody (h.bodies A c hc)]
      exact .inr (h.sound A c hc)
  case complete =>
    intro A b hdue
    obtain ⟨rfl, rfl⟩ | hold := h.due_withHelper.mp hdue
    · have hmem : body ∈ (r.withHelper body).rules.alternatives r.supply.allocate.1 := by
        rw [halts, if_pos rfl]
        simp
      exact ⟨body, hmem, hbody⟩
    · obtain ⟨c, hc, hcb⟩ := h.complete A b hold
      have hsame := hext.unfoldBody (h.bodies A c hc)
      rw [← hext.alternatives (h.mem_nonterminals_of_due hold)] at hc
      exact ⟨c, hc, hsame.trans hcb⟩
  case settled =>
    intro A c hc
    obtain ⟨-, rfl⟩ | hc := hcases hc
    · exact hext.settled (h.toNamed.settled_helper hb) hb.declared
    · exact hext.settled (h.settled A c hc) (h.bodies A c hc)
  case bodies =>
    intro A c hc s hs
    obtain ⟨-, rfl⟩ | hc := hcases hc
    · exact hext.declared (hb.declared s hs)
    · exact hext.declared (h.bodies A c hc s hs)

/-- The helper of a body is a declared name that stands for what the body stands for. -/
theorem Faithful.helper (h : Faithful g done r) (hb : Pairable g r body) :
    Faithful g done (r.helper body).2 ∧ Extends g r (r.helper body).2 ∧
      (r.helper body).1 ∈ (r.helper body).2.names ∧
      (r.helper body).2.unfold (r.helper body).1 = r.unfoldBody body := by
  obtain ⟨name, hmem, heq⟩ | ⟨-, heq⟩ := r.helper_cases body
  · rw [heq]
    exact ⟨h, .refl g r, List.mem_map_of_mem hmem, h.meaning _ hmem⟩
  · have hname : r.supply.allocate.1 ∈ (r.withHelper body).names := by simp [names_withHelper]
    have hunfold : (r.withHelper body).unfold r.supply.allocate.1 = r.unfoldBody body := by
      rw [unfold_withHelper, if_pos rfl]
    rw [heq]
    exact ⟨h.withHelper hb, h.toNamed.extends_withHelper body, hname, hunfold⟩

/-- New bodies for one left side, as long as they are those that are due. -/
theorem Faithful.setRules {done' : List (Symbol × Body)} {alts : Alternatives}
    (h : Faithful g done r) (hkey : A ∈ g.rules.keys ∨ A ∈ r.names)
    (htaken : ∀ p ∈ done', p.1 ∈ g.nonterminals)
    (hothers : ∀ B b, B ≠ A → ((B, b) ∈ done' ↔ (B, b) ∈ done))
    (hsound : ∀ c ∈ alts, Due done' r A (r.unfoldBody c))
    (hcomplete : ∀ b, Due done' r A b → ∃ c ∈ alts, r.unfoldBody c = b)
    (hsettled : ∀ c ∈ alts, r.Settled c) (hbodies : ∀ c ∈ alts, ∀ s ∈ c, r.Declared g s) :
    Faithful g done' { r with rules := r.rules.insert A alts } := by
  have halts (B : Symbol) : (r.rules.insert A alts).alternatives B =
      if B = A then alts else r.rules.alternatives B := Rules.alternatives_insert ..
  constructor
  case toNamed =>
    exact ⟨h.nonterminals, h.fresh, h.nodup, h.registered, h.shape, h.meaning, h.declared⟩
  case taken => exact htaken
  case keys =>
    intro B
    have hinsert : B ∈ (r.rules.insert A alts).keys ↔ B = A ∨ B ∈ r.rules.keys :=
      Rules.mem_keys_insert
    rw [h.keys] at hinsert
    exact hinsert.trans ⟨fun hB => hB.elim (fun e => e ▸ hkey) id, .inr⟩
  case sound =>
    intro B c hc
    rw [halts] at hc
    split at hc
    · rename_i hB
      subst hB
      exact hsound c hc
    · rename_i hB
      exact (h.sound B c hc).imp_left (hothers B _ hB).mpr
  case complete =>
    intro B b hdue
    change ∃ c ∈ (r.rules.insert A alts).alternatives B, r.unfoldBody c = b
    rw [halts]
    split
    · rename_i hB
      subst hB
      exact hcomplete b hdue
    · rename_i hB
      exact h.complete B b (hdue.imp_left (hothers B b hB).mp)
  case settled =>
    intro B c hc
    rw [halts] at hc
    split at hc
    · exact hsettled c hc
    · exact h.settled B c hc
  case bodies =>
    intro B c hc
    rw [halts] at hc
    split at hc
    · exact hbodies c hc
    · exact h.bodies B c hc

/-! ## Shortening -/

/-- A body of two symbols at most that stands for the same. -/
structure Shortened (g : Grammar) (r : Reshaping) (b : Body) (r' : Reshaping) (c : Body) :
    Prop where
  extends_ : Extends g r r'
  same : r'.unfoldBody c = r.unfoldBody b
  settled : c.length = 2 ∨ c.length < 2 ∧ c = b
  declared : ∀ s ∈ c, r'.Declared g s

theorem Faithful.binarize (h : Faithful g done r)
    (hb : ∀ s ∈ b, r.Declared g s) :
    Faithful g done (binarize b r).2 ∧ Shortened g r b (binarize b r).2 (binarize b r).1 := by
  fun_induction Reshaping.binarize b r with
  | case1 r s t u rest name r' heq ih =>
    simp only [List.forall_mem_cons] at hb
    obtain ⟨hs, ht, hrest⟩ := hb
    have hpair : Pairable g r [s, t] := ⟨.inl rfl, by simpa using ⟨hs, ht⟩⟩
    obtain ⟨hf, hext, hname, hunfold⟩ := h.helper hpair
    rw [heq] at hf hext hname hunfold
    have hdeclared : ∀ x ∈ u :: rest, r.Declared g x := List.forall_mem_cons.mpr hrest
    have hhelper : r'.Declared g name := .inl (hf.mem_nonterminals.mpr (.inr hname))
    have hnext : ∀ x ∈ name :: u :: rest, r'.Declared g x :=
      List.forall_mem_cons.mpr ⟨hhelper, fun x hx => hext.declared (hdeclared x hx)⟩
    obtain ⟨hf', hshort⟩ := ih hf hnext
    have hsame : r'.unfoldBody (name :: u :: rest) = r.unfoldBody (s :: t :: u :: rest) := by
      change r'.unfold name ++ r'.unfoldBody (u :: rest) = _
      rw [hunfold, hext.unfoldBody hdeclared, unfoldBody_pair]
      simp [unfoldBody]
    -- Two symbols at least are left, the helper among them.
    have htwo : (Reshaping.binarize (name :: u :: rest) r').1.length = 2 := by
      obtain htwo | ⟨hlen, heq⟩ := hshort.settled
      · exact htwo
      · rw [heq] at hlen
        simp only [List.length_cons] at hlen
        omega
    exact ⟨hf', hext.trans hshort.extends_, hshort.same.trans hsame, .inl htwo, hshort.declared⟩
  | case2 r b hshort =>
    have hsettled : b.length = 2 ∨ b.length < 2 ∧ b = b := by
      match b, hshort with
      | [], _ => exact .inr ⟨by simp, rfl⟩
      | [s], _ => exact .inr ⟨by simp, rfl⟩
      | [s, t], _ => exact .inl rfl
      | s :: t :: u :: rest, hshort => exact absurd rfl (hshort s t u rest)
    exact ⟨h, .refl g r, rfl, hsettled, hb⟩

theorem Faithful.addProduction (hg : g.Valid) (h : Faithful g done r) (hA : A ∈ g.nonterminals)
    (hb : b ∈ g.alternatives A) : Faithful g (done ++ [(A, b)]) (r.addProduction A b) := by
  have horigin : ∀ s ∈ b, r.Declared g s := by
    intro s hs
    exact (hg.body_mem A b hb s hs).imp_left fun hs => h.mem_nonterminals.mpr (.inl hs)
  obtain ⟨hf, hshort⟩ := h.binarize horigin
  have hsame := hshort.same.trans (h.toNamed.unfoldBody_eq_self (hg.body_mem A b hb))
  have hkey : A ∈ g.rules.keys := Rules.mem_keys_of_mem_alternatives hb
  have hdue (c : Body) : Due (done ++ [(A, b)]) (Reshaping.binarize b r).2 A c ↔
      c = b ∨ Due done (Reshaping.binarize b r).2 A c := by
    simp only [Due, List.mem_append, List.mem_singleton, Prod.mk.injEq, true_and]
    exact (or_congr_left or_comm).trans or_assoc
  apply hf.setRules (.inl hkey)
  case htaken =>
    intro p hp
    cases List.mem_append.mp hp with
    | inl hold => exact hf.taken p hold
    | inr hlast =>
      rw [List.mem_singleton.mp hlast]
      exact hA
  case hothers =>
    intro B c hB
    simp [hB]
  case hsound =>
    intro c hc
    obtain rfl | hold := Alternatives.mem_insert.mp hc
    · exact (hdue _).mpr (.inl hsame)
    · exact (hdue _).mpr (.inr (hf.sound A c hold))
  case hcomplete =>
    intro c hc
    obtain rfl | hold := (hdue c).mp hc
    · exact ⟨_, Alternatives.mem_insert.mpr (.inl rfl), hsame⟩
    · obtain ⟨d, hd, hdc⟩ := hf.complete A c hold
      exact ⟨d, Alternatives.mem_insert.mpr (.inr hd), hdc⟩
  case hsettled =>
    intro c hc
    obtain rfl | hold := Alternatives.mem_insert.mp hc
    · exact hshort.settled.imp_right fun ⟨hlen, heq⟩ => ⟨hlen, hsame.trans heq.symm⟩
    · exact hf.settled A c hold
  case hbodies =>
    intro c hc
    obtain rfl | hold := Alternatives.mem_insert.mp hc
    · exact hshort.declared
    · exact hf.bodies A c hold

end Reshaping

end ContextFree
