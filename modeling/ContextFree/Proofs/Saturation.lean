import ContextFree.Proofs.Reading
import ContextFree.Analysis.Saturation

/-!
Analyses that run to a fixpoint. A round only adds in front of what is known (`known <:+ round known`), so
the set at which it stops is one that no round changes. `saturate_isSome` bounds the rounds; from it every
analysis settles for any positive factor. `Grammar.supported_spec` says which set is found: the least one
that takes in each non-terminal with a body made of the base and of the set. The nullable and the
productive non-terminals are the two instances.
-/
namespace ContextFree

section Growing
variable {α β : Type} {step : List α → β → List α} {round : List α → List α}

theorem suffix_foldl (hs : ∀ known b, known <:+ step known b) (bs : List β) (known : List α) :
    known <:+ bs.foldl step known := by
  induction bs generalizing known with
  | nil => exact List.suffix_rfl
  | cons b bs ih => exact (hs known b).trans (ih (step known b))

/-- A run of steps that adds nothing consists of steps that add nothing. -/
theorem foldl_eq_self_iff (hs : ∀ known b, known <:+ step known b) {bs : List β}
    {known : List α} : bs.foldl step known = known ↔ ∀ b ∈ bs, step known b = known := by
  induction bs with
  | nil => simp
  | cons b bs ih =>
    rw [List.foldl_cons, List.forall_mem_cons]
    constructor
    · intro h
      have hle := (suffix_foldl hs bs (step known b)).length_le
      rw [h] at hle
      have hb : step known b = known := ((hs known b).eq_of_length_le hle).symm
      rw [hb] at h
      exact ⟨hb, ih.mp h⟩
    · rintro ⟨hb, hbs⟩
      rw [hb]
      exact ih.mpr hbs

theorem foldl_invariant {I : List α → Prop} {bs : List β}
    (hstep : ∀ known, ∀ b ∈ bs, I known → I (step known b)) {known : List α}
    (h : I known) : I (bs.foldl step known) := by
  induction bs generalizing known with
  | nil => exact h
  | cons b bs ih =>
    have hrest : ∀ known, ∀ c ∈ bs, I known → I (step known c) :=
      fun known c hc => hstep known c (List.mem_cons_of_mem _ hc)
    have hfirst : I (step known b) := hstep known b List.mem_cons_self h
    exact ih hrest hfirst

theorem round_eq_of_length (hs : ∀ known, known <:+ round known) {known : List α}
    (h : (round known).length = known.length) : round known = known :=
  ((hs known).eq_of_length h.symm).symm

/-- What is found is unchanged by a round, holds what was known, and keeps every invariant of rounds. -/
theorem saturate_spec (hs : ∀ known, known <:+ round known) {I : List α → Prop}
    (hround : ∀ known, I known → I (round known)) {n : Nat} {known settled : List α}
    (h : saturate round n known = some settled) (hknown : I known) :
    I settled ∧ known <:+ settled ∧ round settled = settled := by
  induction n generalizing known with
  | zero => cases h
  | succ n ih =>
    rw [saturate] at h
    split at h
    · rename_i hlen
      cases h
      exact ⟨hknown, List.suffix_rfl, round_eq_of_length hs hlen⟩
    · obtain ⟨hinv, hsuffix, hfixed⟩ := ih h (hround known hknown)
      exact ⟨hinv, (hs known).trans hsuffix, hfixed⟩

/-- `After k` is kept by rounds that add, counts them, and leaves room for less than `bound` of them. -/
theorem saturate_isSome {After : Nat → List α → Prop} {bound : Nat}
    (hround : ∀ k known, After k known → round known ≠ known →
      k < bound ∧ After (k + 1) (round known))
    {n k : Nat} {known : List α} (hknown : After k known) (hpos : 0 < n) (hn : bound < n + k) :
    ∃ settled, saturate round n known = some settled := by
  induction n generalizing k known with
  | zero => omega
  | succ n ih =>
    rw [saturate]
    split
    · exact ⟨known, rfl⟩
    · rename_i hlen
      have hne : round known ≠ known := fun e => hlen (congrArg List.length e)
      obtain ⟨hk, hnext⟩ := hround k known hknown hne
      exact ih hnext (by omega) (by omega)

end Growing

namespace Grammar

variable {g : Grammar} {base : Symbol → Bool} {factor : Int} {known : List Symbol} {A : Symbol}

theorem length_lt_roundLimit (g : Grammar) (h : 1 ≤ factor) :
    g.nonterminals.length < (g.roundLimit factor).toNat := by
  have hsize : (1 : Int) * (g.nonterminals.length + g.terminals.length + g.productionCount + 1 : Nat)
      ≤ g.roundLimit factor := Int.mul_le_mul_of_nonneg_right h (Int.natCast_nonneg _)
  omega

/-- A factor that is not positive allows no round. -/
theorem settle_eq_error {α : Type} {stage : String} {round : List α → List α} {known : List α}
    (hf : ¬ 1 ≤ factor) :
    g.settle stage factor round known = .error (.unsettled stage (g.roundLimit factor)) := by
  have hlimit : g.roundLimit factor ≤ 0 := by
    unfold roundLimit
    exact Int.mul_nonpos_of_nonpos_of_nonneg (by omega) (Int.natCast_nonneg _)
  simp only [settle, rounds, Int.toNat_of_nonpos hlimit, saturate]

theorem settle_eq_ok_iff {α : Type} {stage : String} {round : List α → List α}
    {known settled : List α} :
    g.settle stage factor round known = .ok settled ↔
      saturate round (g.roundLimit factor).toNat known = some settled := by
  simp only [settle, rounds]
  cases saturate round (g.roundLimit factor).toNat known with
  | some found => simp
  | none => simp

/-- Every positive factor allows more rounds than there are declared non-terminals. -/
theorem settle_isOk {α : Type} {stage : String} {round : List α → List α} {known : List α}
    (hf : 1 ≤ factor)
    (hsome : ∀ n, g.nonterminals.length < n → ∃ settled, saturate round n known = some settled) :
    ∃ settled, g.settle stage factor round known = .ok settled := by
  obtain ⟨settled, hs⟩ := hsome _ (g.length_lt_roundLimit hf)
  exact ⟨settled, settle_eq_ok_iff.mpr hs⟩

/-- One non-terminal taken in if it has a supported body. -/
def supportStep (g : Grammar) (base : Symbol → Bool) (known : List Symbol) (A : Symbol) :
    List Symbol :=
  if known.contains A then known
  else if g.isSupported base known A then A :: known else known

theorem supportRound_eq : g.supportRound base known =
    g.nonterminals.foldl (g.supportStep base) known := rfl

theorem suffix_supportStep (known : List Symbol) (A : Symbol) :
    known <:+ g.supportStep base known A := by
  unfold supportStep
  split
  · exact List.suffix_rfl
  · split
    · exact List.suffix_cons A known
    · exact List.suffix_rfl

theorem suffix_supportRound (known : List Symbol) : known <:+ g.supportRound base known :=
  suffix_foldl suffix_supportStep g.nonterminals known

theorem supportStep_eq_self_iff : g.supportStep base known A = known ↔
    (g.isSupported base known A = true → A ∈ known) := by
  unfold supportStep
  by_cases hmem : A ∈ known
  · simp [hmem]
  · by_cases hs : g.isSupported base known A = true <;> simp [hmem, hs]

theorem isSupported_iff : g.isSupported base known A = true ↔
    ∃ b ∈ g.alternatives A, ∀ s ∈ b, base s = true ∨ s ∈ known := by
  simp [isSupported, Alternatives.mem_def]

/-- Non-terminals, each once, that satisfy every predicate which holds of a non-terminal as soon as it
holds of what stands in one of its bodies. -/
structure Supported (g : Grammar) (base : Symbol → Bool) (known : List Symbol) : Prop where
  nodup : known.Nodup
  declared : ∀ A ∈ known, A ∈ g.nonterminals
  least : ∀ P : Symbol → Prop,
    (∀ A ∈ g.nonterminals, ∀ b ∈ g.alternatives A, (∀ s ∈ b, base s = true ∨ P s) → P A) →
    ∀ A ∈ known, P A

theorem Supported.step (hk : g.Supported base known) (hA : A ∈ g.nonterminals) :
    g.Supported base (g.supportStep base known A) := by
  unfold supportStep
  split
  · exact hk
  · rename_i hnew
    split
    · rename_i hs
      obtain ⟨b, hb, hbody⟩ := isSupported_iff.mp hs
      constructor
      · exact List.nodup_cons.mpr ⟨by simpa using hnew, hk.nodup⟩
      · exact List.forall_mem_cons.mpr ⟨hA, hk.declared⟩
      · intro P hP
        have hold : ∀ B ∈ known, P B := hk.least P hP
        have hfirst : P A := by
          apply hP A hA b hb
          intro s hs
          exact (hbody s hs).imp_right (hold s)
        exact List.forall_mem_cons.mpr ⟨hfirst, hold⟩
    · exact hk

theorem Supported.round (hk : g.Supported base known) :
    g.Supported base (g.supportRound base known) := by
  rw [supportRound_eq]
  exact foldl_invariant (fun _ _ hA h => h.step hA) hk

theorem supported_nil : g.Supported base [] := ⟨List.Pairwise.nil, by simp, by simp⟩

/-- Each round but the last takes in a further non-terminal, so they run out in time. -/
theorem saturate_supportRound_isSome (g : Grammar) (base : Symbol → Bool) (n : Nat)
    (hn : g.nonterminals.length < n) :
    ∃ settled, saturate (g.supportRound base) n [] = some settled := by
  have hround : ∀ k known, (g.Supported base known ∧ k ≤ known.length) →
      g.supportRound base known ≠ known → k < g.nonterminals.length ∧
        (g.Supported base (g.supportRound base known) ∧
          k + 1 ≤ (g.supportRound base known).length) := by
    rintro k known ⟨hk, hlen⟩ hne
    have hnext := hk.round
    have hle : (g.supportRound base known).length ≤ g.nonterminals.length :=
      hnext.nodup.length_le_of_subset hnext.declared
    have hlt : known.length < (g.supportRound base known).length := by
      apply Nat.lt_of_le_of_ne (suffix_supportRound known).length_le
      intro e
      exact hne (round_eq_of_length suffix_supportRound e.symm)
    exact ⟨by omega, hnext, by omega⟩
  exact saturate_isSome hround ⟨supported_nil, Nat.le_refl 0⟩ (by omega) (by omega)

theorem supported_isOk (g : Grammar) (stage : String) (base : Symbol → Bool) (h : 1 ≤ factor) :
    ∃ settled, g.supported stage base factor = .ok settled :=
  settle_isOk h (g.saturate_supportRound_isSome base)

/-- The set that is found is the least one that is closed under supported bodies. -/
theorem supported_spec {stage : String} {settled : List Symbol}
    (h : g.supported stage base factor = .ok settled) :
    g.Supported base settled ∧ ∀ A ∈ g.nonterminals, ∀ b ∈ g.alternatives A,
      (∀ s ∈ b, base s = true ∨ s ∈ settled) → A ∈ settled := by
  obtain ⟨hinv, -, hfixed⟩ := saturate_spec suffix_supportRound
    (fun _ hk => Supported.round hk) (settle_eq_ok_iff.mp h) supported_nil
  constructor
  · exact hinv
  · intro A hA b hb hbody
    have hstep := (foldl_eq_self_iff suffix_supportStep).mp (supportRound_eq ▸ hfixed) A hA
    exact supportStep_eq_self_iff.mp hstep (isSupported_iff.mpr ⟨b, hb, hbody⟩)

theorem nullable_isOk (g : Grammar) (h : 1 ≤ factor) : ∃ nulls, g.nullable factor = .ok nulls :=
  g.supported_isOk _ _ h

theorem productive_isOk (g : Grammar) (h : 1 ≤ factor) :
    ∃ productive, g.productive factor = .ok productive :=
  g.supported_isOk _ _ h

theorem yields_nil {b : Body} (h : ∀ s ∈ b, g.Generates s []) : Yields g b [] := by
  induction b with
  | nil => exact .nil
  | cons s b ih =>
    obtain ⟨hs, hb⟩ := List.forall_mem_cons.mp h
    exact Yields.append hs (ih hb)

/-- A body that reads the empty word has only symbols that do. -/
theorem forall_mem_of_reads_nil {P : Symbol → Prop} {b : Body} {w : Word}
    (hr : Reads (fun s u => u = [] → P s) b w) (hw : w = []) : ∀ s ∈ b, P s := by
  induction hr with
  | nil => simp
  | cons head _ ih =>
    obtain ⟨hu, hv⟩ := List.append_eq_nil_iff.mp hw
    exact List.forall_mem_cons.mpr ⟨head hu, ih hv⟩

/-- The nullable non-terminals are those that derive the empty word. -/
theorem mem_nullable_iff {nulls : List Symbol} (h : g.nullable factor = .ok nulls) :
    A ∈ nulls ↔ g.Generates A [] := by
  obtain ⟨hleast, hclosed⟩ := supported_spec h
  constructor
  · intro hA
    apply hleast.least (fun A => g.Generates A []) _ A hA
    intro B hB b hb hbody
    have hempty : ∀ s ∈ b, g.Generates s [] := by simpa using hbody
    exact generates_of_body hB hb (yields_nil hempty)
  · intro hy
    have hr : Reads (fun s u => u = [] → s ∈ nulls) [A] [] := by
      apply Yields.interpret (by simp) _ hy
      intro B hB b hb w _ hr hw
      have hnull := forall_mem_of_reads_nil hr hw
      exact hclosed B hB b hb fun s hs => .inr (hnull s hs)
    exact forall_mem_of_reads_nil hr rfl A List.mem_cons_self

/-- A word is read only through terminals and productive non-terminals. -/
theorem productive_of_yields {productive : List Symbol} (h : g.productive factor = .ok productive)
    {b : Body} {w : Word} (hy : Yields g b w) : ∀ s ∈ b, s ∈ g.terminals ∨ s ∈ productive := by
  obtain ⟨-, hclosed⟩ := supported_spec h
  have hr : Reads (fun s _ => s ∈ g.terminals ∨ s ∈ productive) b w := by
    apply hy.interpret (fun _ ha => .inl ha)
    intro B hB c hc w _ hr
    have hbody : ∀ s ∈ c, g.isTerminal s = true ∨ s ∈ productive := by
      intro s hs
      obtain ⟨_, hs⟩ := hr.forall_exists s hs
      exact hs.imp_left isTerminal_iff.mpr
    exact .inr (hclosed B hB c hc hbody)
  intro s hs
  obtain ⟨_, hs⟩ := hr.forall_exists s hs
  exact hs

theorem exists_yields {b : Body} (h : ∀ s ∈ b, ∃ w, g.Generates s w) : ∃ w, Yields g b w := by
  induction b with
  | nil => exact ⟨[], .nil⟩
  | cons s b ih =>
    obtain ⟨u, hu⟩ := h s List.mem_cons_self
    obtain ⟨v, hv⟩ := ih fun t ht => h t (List.mem_cons_of_mem _ ht)
    exact ⟨u ++ v, Yields.append hu hv⟩

/-- The productive non-terminals are those that derive some word. -/
theorem mem_productive_iff (hg : g.Valid) {productive : List Symbol}
    (h : g.productive factor = .ok productive) :
    A ∈ productive ↔ A ∈ g.nonterminals ∧ ∃ w, g.Generates A w := by
  obtain ⟨hleast, -⟩ := supported_spec h
  constructor
  · intro hA
    have hsome : ∃ w, g.Generates A w := by
      apply hleast.least (fun A => ∃ w, g.Generates A w) _ A hA
      intro B hB b hb hbody
      have hwords : ∀ s ∈ b, ∃ w, g.Generates s w := by
        intro s hs
        cases hbody s hs with
        | inl hterminal => exact ⟨[s], generates_terminal (isTerminal_iff.mp hterminal)⟩
        | inr hword => exact hword
      obtain ⟨w, hw⟩ := exists_yields hwords
      exact ⟨w, generates_of_body hB hb hw⟩
    exact ⟨hleast.declared A hA, hsome⟩
  · rintro ⟨hA, w, hy⟩
    exact (productive_of_yields h hy A List.mem_cons_self).resolve_left (hg.disjoint A hA)

end Grammar

end ContextFree
