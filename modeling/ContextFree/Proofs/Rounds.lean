import ContextFree.Proofs.Unit

/-!
How long the analyses run. A search of rounds ends by a round that adds nothing or for want of rounds, and
`saturate_eq_some_iff` tells the two apart. On any grammar, valid or not, every analysis ends in the first
way if its factor is positive, and at once in the second if it is not (`analyses_endInTime`): no more rounds
add something than there are declared non-terminals, and a positive factor allows more rounds than that.
-/
namespace ContextFree

section Settling
variable {α : Type} {round : List α → List α} {n limit : Nat} {known settled : List α}

/-- `n` rounds that add something lead from `known` to `settled`, and the next one adds nothing. -/
inductive Settles (round : List α → List α) : Nat → List α → List α → Prop
  | still {known : List α} (h : round known = known) : Settles round 0 known known
  | grown {n : Nat} {known settled : List α} (h : round known ≠ known)
      (later : Settles round n (round known) settled) : Settles round (n + 1) known settled

/-- The round that adds nothing counts as well, so it has to be within the limit. -/
theorem saturate_eq_some_iff (hs : ∀ known, known <:+ round known) :
    saturate round limit known = some settled ↔ ∃ n < limit, Settles round n known settled := by
  induction limit generalizing known with
  | zero => simp [saturate]
  | succ limit ih =>
    rw [saturate]
    split
    · rename_i hlen
      have hstill : round known = known := round_eq_of_length hs hlen
      constructor
      · intro h
        cases h
        exact ⟨0, Nat.succ_pos limit, .still hstill⟩
      · rintro ⟨_, -, hsettles⟩
        cases hsettles with
        | still => rfl
        | grown hgrown => exact absurd hstill hgrown
    · rename_i hlen
      have hgrown : round known ≠ known := fun e => hlen (congrArg List.length e)
      rw [ih]
      constructor
      · rintro ⟨n, hn, hsettles⟩
        exact ⟨n + 1, Nat.succ_lt_succ hn, .grown hgrown hsettles⟩
      · rintro ⟨_, hn, hsettles⟩
        cases hsettles with
        | still hstill => exact absurd hstill hgrown
        | grown _ later => exact ⟨_, Nat.lt_of_succ_lt_succ hn, later⟩

end Settling

namespace Grammar

variable {g : Grammar} {factor : Int} {α : Type} {stage : String} {round : List α → List α}
  {start : List α}

/-- How an analysis that starts at `start` ends. A factor that is not positive is refused, with the number of
rounds that it allows. With any other one a round within that number adds nothing; the rounds before it are
no more than the declared non-terminals, whatever the factor. -/
structure EndsInTime (g : Grammar) (factor : Int) (stage : String) (round : List α → List α)
    (start : List α) (result : Except GrammarError (List α)) : Prop where
  refused_iff : (∃ name limit, result = .error (.unsettled name limit)) ↔ factor ≤ 0
  limit : ∀ e, result = .error e → e = .unsettled stage
    (factor * (g.nonterminals.length + g.terminals.length + g.productionCount + 1 : Nat))
  settles : 1 ≤ factor → ∃ settled, ∃ n : Nat, result = .ok settled ∧
    Settles round n start settled ∧ n ≤ g.nonterminals.length ∧
    (n : Int) < factor * (g.nonterminals.length + g.terminals.length + g.productionCount + 1 : Nat)

/-- An analysis ends in time if more rounds than there are declared non-terminals are enough for it. -/
theorem endsInTime_settle (hs : ∀ known, known <:+ round known)
    (hsome : ∀ n, g.nonterminals.length < n → ∃ settled, saturate round n start = some settled) :
    g.EndsInTime factor stage round start (g.settle stage factor round start) := by
  by_cases hf : 1 ≤ factor
  · obtain ⟨settled, hsettled⟩ := hsome _ (Nat.lt_succ_self g.nonterminals.length)
    obtain ⟨n, hn, hsettles⟩ := (saturate_eq_some_iff hs).mp hsettled
    have hroom : g.nonterminals.length < (g.roundLimit factor).toNat := g.length_lt_roundLimit hf
    have hsaturate : saturate round (g.roundLimit factor).toNat start = some settled :=
      (saturate_eq_some_iff hs).mpr ⟨n, by omega, hsettles⟩
    have hok : g.settle stage factor round start = .ok settled :=
      settle_eq_ok_iff.mpr hsaturate
    rw [hok]
    constructor
    case refused_iff =>
      constructor
      · rintro ⟨_, _, h⟩
        cases h
      · omega
    case limit =>
      intro _ h
      cases h
    case settles =>
      intro _
      have hlimit : (n : Int) < g.roundLimit factor := by omega
      exact ⟨settled, n, rfl, hsettles, Nat.le_of_lt_succ hn, hlimit⟩
  · rw [settle_eq_error hf]
    constructor
    case refused_iff => exact ⟨fun _ => by omega, fun _ => ⟨stage, g.roundLimit factor, rfl⟩⟩
    case limit =>
      rintro _ ⟨⟩
      rfl
    case settles => exact fun h => absurd h hf

/-- **Analyses end by themselves.** Whatever the grammar, each of the three is refused exactly for a factor
that is not positive, and with any other one stops at a round that adds nothing, before its rounds are used
up. -/
theorem analyses_endInTime (g : Grammar) (factor : Int) :
    g.EndsInTime factor "nullable" (g.supportRound fun _ => false) [] (g.nullable factor) ∧
    g.EndsInTime factor "unit closure" g.unitRound g.unitDiagonal (g.unitClosure factor) ∧
    g.EndsInTime factor "productive" (g.supportRound g.isTerminal) [] (g.productive factor) :=
  ⟨endsInTime_settle suffix_supportRound (g.saturate_supportRound_isSome _),
    endsInTime_settle suffix_unitRound g.saturate_unitRound_isSome,
    endsInTime_settle suffix_supportRound (g.saturate_supportRound_isSome _)⟩

end Grammar

end ContextFree
