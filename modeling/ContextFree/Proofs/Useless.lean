import ContextFree.Proofs.Saturation
import ContextFree.NormalForm.Useless

/-!
Pruning. A search outward from the start follows each non-terminal at most once, in whatever order it goes
by, and has found what `Reaches` describes once nothing is left to follow (`Search.mem_iff_reaches`). Whatever
is kept keeps its words: a body of reachable symbols when the unreachable ones go
(`yields_removeUnreachable_iff`), and any body when the unproductive ones go, since no word is derived
through them (`yields_withoutUnproductive_iff`).
-/
namespace ContextFree

variable {g : Grammar} {A s : Symbol} {b : Body} {w : Word} {factor : Int}
  {productive : List Symbol}

namespace Grammar

theorem mem_nonterminals_keepNonterminals {keep : Symbol → Bool} {rules : Rules} :
    A ∈ (g.keepNonterminals keep rules).nonterminals ↔
      A ∈ g.nonterminals ∧ keep A = true := by
  simp [keepNonterminals, replace]

/-! ## Reachability -/

/-- The start, and every non-terminal in a body of what is reached. -/
inductive Reaches (g : Grammar) : Symbol → Prop
  | start : Reaches g g.start
  | body {A : Symbol} {b : Body} {B : Symbol} (hA : Reaches g A) (hb : b ∈ g.alternatives A)
      (hB : B ∈ b) (declared : B ∈ g.nonterminals) : Reaches g B

theorem Reaches.mem_nonterminals (hg : g.Valid) (hA : g.Reaches A) : A ∈ g.nonterminals := by
  cases hA with
  | start => exact hg.start_mem
  | body _ _ _ declared => exact declared

theorem occursUnder_iff : g.occursUnder A s = true ↔ ∃ b ∈ g.alternatives A, s ∈ b := by
  simp [occursUnder, Alternatives.mem_def]

/-- A search outward from the start: what has been followed, and the queue of what is still to be. A turn
follows the head of the queue and queues the non-terminals of its bodies that are new, each once, in any
order. -/
inductive Search (g : Grammar) : List Symbol → List Symbol → Prop
  | start : Search g [] [g.start]
  | follow {followed rest found : List Symbol} {A : Symbol}
      (earlier : Search g followed (A :: rest)) (nodup : found.Nodup)
      (found_iff : ∀ s, s ∈ found ↔
        s ∈ g.nonterminals ∧ s ∉ followed ++ A :: rest ∧ ∃ b ∈ g.alternatives A, s ∈ b) :
      Search g (followed ++ [A]) (rest ++ found)

namespace Search

variable {followed queue : List Symbol}

theorem follow_seen (followed rest found : List Symbol) (A : Symbol) :
    followed ++ [A] ++ (rest ++ found) = (followed ++ A :: rest) ++ found := by simp

/-- Nothing is queued twice. -/
theorem nodup (hs : g.Search followed queue) : (followed ++ queue).Nodup := by
  induction hs with
  | start => simp
  | follow _ nodup found_iff ih =>
    rw [follow_seen, List.nodup_append]
    refine ⟨ih, nodup, ?_⟩
    rintro s hs _ hnew rfl
    exact ((found_iff s).mp hnew).2.1 hs

theorem start_mem (hs : g.Search followed queue) : g.start ∈ followed ++ queue := by
  induction hs with
  | start => simp
  | follow _ _ _ ih =>
    rw [follow_seen]
    exact List.mem_append_left _ ih

theorem reaches (hs : g.Search followed queue) : ∀ s ∈ followed ++ queue, g.Reaches s := by
  induction hs with
  | start => simpa using Reaches.start
  | @follow followed rest found A _ _ found_iff ih =>
    rw [follow_seen]
    intro s hs
    cases List.mem_append.mp hs with
    | inl hseen => exact ih s hseen
    | inr hnew =>
      obtain ⟨declared, -, b, hb, hsb⟩ := (found_iff s).mp hnew
      have hA : g.Reaches A := ih A (List.mem_append_right _ List.mem_cons_self)
      exact hA.body hb hsb declared

/-- What has been followed leads nowhere that has not been seen. -/
theorem closed (hs : g.Search followed queue) : ∀ A ∈ followed, ∀ b ∈ g.alternatives A, ∀ s ∈ b,
    s ∈ g.nonterminals → s ∈ followed ++ queue := by
  induction hs with
  | start => simp
  | @follow followed rest found B _ _ found_iff ih =>
    rw [follow_seen]
    intro A hA b hb s hs declared
    cases List.mem_append.mp hA with
    | inl hearlier => exact List.mem_append_left _ (ih A hearlier b hb s hs declared)
    | inr hlast =>
      rw [List.mem_singleton.mp hlast] at hb
      by_cases hseen : s ∈ followed ++ B :: rest
      · exact List.mem_append_left _ hseen
      · exact List.mem_append_right _ ((found_iff s).mpr ⟨declared, hseen, b, hb, hs⟩)

/-- Once the queue is empty, everything that is reached has been followed, and nothing else. -/
theorem mem_iff_reaches (hs : g.Search followed []) : A ∈ followed ↔ g.Reaches A := by
  have hreaches := hs.reaches
  have hstart := hs.start_mem
  have hclosed := hs.closed
  rw [List.append_nil] at hreaches hstart hclosed
  constructor
  · exact hreaches A
  · intro hA
    induction hA with
    | start => exact hstart
    | body _ hb hB declared ih => exact hclosed _ ih _ hb _ hB declared

/-- Each turn follows another non-terminal, so there are no more turns than non-terminals. -/
theorem length_le (hg : g.Valid) (hs : g.Search followed queue) :
    (followed ++ queue).length ≤ g.nonterminals.length :=
  hs.nodup.length_le_of_subset fun s hmem => (hs.reaches s hmem).mem_nonterminals hg

/-- Following the queue with a list of what has not been seen completes the search. -/
theorem reachFrom {unseen : List Symbol} (hs : g.Search followed queue) (hn : unseen.Nodup)
    (hunseen : ∀ s, s ∈ unseen ↔ s ∈ g.nonterminals ∧ s ∉ followed ++ queue) :
    g.Search (followed ++ g.reachFrom unseen queue) [] := by
  fun_induction Grammar.reachFrom g unseen queue generalizing followed with
  | case1 => rwa [List.append_nil]
  | case2 unseen A rest ih =>
    simp only [List.unattach_filter, List.unattach_attach] at ih
    have hnext : g.Search (followed ++ [A]) (rest ++ unseen.filter (g.occursUnder A)) := by
      apply hs.follow (hn.filter _)
      intro s
      rw [List.mem_filter, hunseen, and_assoc, occursUnder_iff]
    rw [List.append_cons]
    apply ih hnext (hn.filter _)
    intro s
    rw [follow_seen, List.mem_append, not_or, ← and_assoc, ← hunseen, List.mem_filter,
      List.mem_filter]
    by_cases hmem : s ∈ unseen <;> simp [hmem]

end Search

/-- Everything reachable, in the order in which it is followed. -/
theorem search_reachable (g : Grammar) : g.Search g.reachable [] := by
  apply Search.start.reachFrom ((nodup_distinct _).filter _)
  simp

theorem mem_reachable_iff : A ∈ g.reachable ↔ g.Reaches A := g.search_reachable.mem_iff_reaches

theorem mem_nonterminals_removeUnreachable :
    A ∈ g.removeUnreachable.nonterminals ↔ A ∈ g.nonterminals ∧ g.Reaches A := by
  simp only [removeUnreachable, mem_nonterminals_keepNonterminals, List.contains_iff_mem,
    mem_reachable_iff]

theorem mem_alternatives_removeUnreachable :
    b ∈ g.removeUnreachable.alternatives A ↔ g.Reaches A ∧ b ∈ g.alternatives A := by
  change b ∈ (g.rules.restrict g.reachable.contains).alternatives A ↔ _
  rw [Rules.mem_alternatives_restrict, List.contains_iff_mem, mem_reachable_iff]
  rfl

theorem Valid.removeUnreachable (hg : g.Valid) : g.removeUnreachable.Valid where
  disjoint A hA := hg.disjoint A (mem_nonterminals_removeUnreachable.mp hA).1
  start_mem := mem_nonterminals_removeUnreachable.mpr ⟨hg.start_mem, .start⟩
  lhs_mem A hA := by
    obtain ⟨hr, hkey⟩ := Rules.mem_keys_restrict.mp hA
    rw [List.contains_iff_mem, mem_reachable_iff] at hr
    exact mem_nonterminals_removeUnreachable.mpr ⟨hg.lhs_mem A hkey, hr⟩
  body_mem A b hb s hs := by
    obtain ⟨hA, hb⟩ := mem_alternatives_removeUnreachable.mp hb
    have hold := hg.body_mem A b hb s hs
    exact hold.imp_left fun hs' =>
      mem_nonterminals_removeUnreachable.mpr ⟨hs', hA.body hb hs hs'⟩

/-- A body of what is reached keeps its words when what is not reached goes. -/
theorem yields_removeUnreachable_iff (hb : ∀ s ∈ b, s ∈ g.terminals ∨ g.Reaches s)
    (hg : g.Valid) : Yields g.removeUnreachable b w ↔ Yields g b w := by
  constructor
  · intro hy
    apply hy.mono
    · exact fun _ ha => ha
    · intro A hA c hc w hy
      obtain ⟨-, hc⟩ := mem_alternatives_removeUnreachable.mp hc
      exact generates_of_body (mem_nonterminals_removeUnreachable.mp hA).1 hc hy
  · intro hy
    apply hy.transfer fun s => s ∈ g.terminals ∨ g.Reaches s
    · exact fun _ ha _ => ha
    · intro A hA hkeep c hc w _
      have hr : g.Reaches A := hkeep.resolve_left (hg.disjoint A hA)
      have hA' := mem_nonterminals_removeUnreachable.mpr ⟨hA, hr⟩
      have hc' := mem_alternatives_removeUnreachable.mpr ⟨hr, hc⟩
      constructor
      · intro s hs
        exact (hg.body_mem A c hc s hs).elim (fun hs' => .inr (hr.body hc hs hs')) .inl
      · exact generates_of_body hA' hc'
    · exact hb

/-! ## Productivity -/

theorem removeUnproductive_eq_ok (h : g.productive factor = .ok productive) :
    g.removeUnproductive factor = .ok (g.withoutUnproductive productive) := by
  rw [removeUnproductive, h]
  rfl

theorem staysProductive_iff : g.staysProductive productive A = true ↔
    A ∈ productive ∨ A = g.start := by simp [staysProductive]

theorem isProductiveBody_iff : g.isProductiveBody productive b = true ↔
    ∀ s ∈ b, s ∈ g.terminals ∨ s ∈ productive := by simp [isProductiveBody]

theorem mem_nonterminals_withoutUnproductive :
    A ∈ (g.withoutUnproductive productive).nonterminals ↔
      A ∈ g.nonterminals ∧ (A ∈ productive ∨ A = g.start) := by
  rw [withoutUnproductive, mem_nonterminals_keepNonterminals, staysProductive_iff]

theorem mem_alternatives_withoutUnproductive :
    b ∈ (g.withoutUnproductive productive).alternatives A ↔
      (A ∈ productive ∨ A = g.start) ∧ b ∈ g.alternatives A ∧
        ∀ s ∈ b, s ∈ g.terminals ∨ s ∈ productive := by
  change b ∈ ((g.rules.restrict (g.staysProductive productive)).mapAlternatives _).alternatives A ↔ _
  rw [Rules.mem_alternatives_mapAlternatives, Rules.mem_keys_restrict, Alternatives.mem_filter,
    Rules.mem_alternatives_restrict, staysProductive_iff, isProductiveBody_iff]
  constructor
  · rintro ⟨-, ⟨hA, hb⟩, hbody⟩
    exact ⟨hA, hb, hbody⟩
  · rintro ⟨hA, hb, hbody⟩
    exact ⟨⟨hA, Rules.mem_keys_of_mem_alternatives hb⟩, ⟨hA, hb⟩, hbody⟩

theorem Valid.withoutUnproductive (hg : g.Valid) (h : g.productive factor = .ok productive) :
    (g.withoutUnproductive productive).Valid where
  disjoint A hA := hg.disjoint A (mem_nonterminals_withoutUnproductive.mp hA).1
  start_mem := mem_nonterminals_withoutUnproductive.mpr ⟨hg.start_mem, .inr rfl⟩
  lhs_mem A hA := by
    obtain ⟨hstays, hkey⟩ := Rules.mem_keys_restrict.mp (Rules.mem_keys_mapAlternatives.mp hA)
    rw [staysProductive_iff] at hstays
    exact mem_nonterminals_withoutUnproductive.mpr ⟨hg.lhs_mem A hkey, hstays⟩
  body_mem A b hb s hs := by
    obtain ⟨-, -, hbody⟩ := mem_alternatives_withoutUnproductive.mp hb
    cases hbody s hs with
    | inl hterminal => exact .inr hterminal
    | inr hproductive =>
      have hdeclared := ((mem_productive_iff hg h).mp hproductive).1
      exact .inl (mem_nonterminals_withoutUnproductive.mpr ⟨hdeclared, .inl hproductive⟩)

/-- No word is lost with the unproductive symbols. -/
theorem yields_withoutUnproductive_iff (hg : g.Valid)
    (h : g.productive factor = .ok productive) :
    Yields (g.withoutUnproductive productive) b w ↔ Yields g b w := by
  constructor
  · intro hy
    apply hy.mono
    · exact fun _ ha => ha
    · intro A hA c hc w hy
      obtain ⟨-, hc, -⟩ := mem_alternatives_withoutUnproductive.mp hc
      exact generates_of_body (mem_nonterminals_withoutUnproductive.mp hA).1 hc hy
  · intro hy
    apply hy.transfer fun _ => True
    · exact fun _ ha _ => ha
    · intro A hA _ c hc w hyc
      have hprod : A ∈ productive :=
        (mem_productive_iff hg h).mpr ⟨hA, w, generates_of_body hA hc hyc⟩
      have hA' := mem_nonterminals_withoutUnproductive.mpr ⟨hA, .inl hprod⟩
      have hc' := mem_alternatives_withoutUnproductive.mpr
        ⟨.inl hprod, hc, productive_of_yields h hyc⟩
      exact ⟨fun _ _ => trivial, generates_of_body hA' hc'⟩
    · exact fun _ _ => trivial

end Grammar

end ContextFree
