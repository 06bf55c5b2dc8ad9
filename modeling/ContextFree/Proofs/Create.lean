import Mathlib.Data.Set.List
import ContextFree.Proofs.Same

/-!
Grammars made from given rules. What is made holds what is given and nothing else: the given left sides,
each with the bodies that the alternatives given under it read as (`createdFrom_of_create`). Where there is
such a grammar, creation succeeds and makes it, up to the order in which rules are listed
(`create_of_createdFrom`). So what is given may stand in any order, and more than once
(`CreatedFrom.rearranged`).
-/
namespace ContextFree

variable {nts ts declared : List Symbol} {given given' done : List (Symbol × List GivenBody)}
  {A B start : Symbol} {alt : GivenBody} {alts : List GivenBody} {r r' : Rules} {g h : Grammar}

/-- All calls succeed, each with its part of the result. -/
theorem mapM_eq_ok_iff {α β ε : Type} {f : α → Except ε β} {as : List α} {bs : List β} :
    as.mapM f = .ok bs ↔ as.map f = bs.map .ok := by
  induction as generalizing bs with
  | nil => simp [pure, Except.pure, eq_comm]
  | cons a as ih =>
    rw [List.mapM_cons, List.map_cons]
    cases hhead : f a with
    | error e => cases bs <;> simp [bind, Except.bind]
    | ok b =>
      cases hrest : as.mapM f with
      | error e => cases bs <;> simp [bind, Except.bind, ← ih, hrest]
      | ok bs₀ => cases bs <;> simp [bind, Except.bind, pure, Except.pure, ← ih, hrest]

/-- A failure of the calls is the failure of one of them. -/
theorem exists_of_mapM_eq_error {α β ε : Type} {f : α → Except ε β} {as : List α} {e : ε}
    (h : as.mapM f = .error e) : ∃ a ∈ as, f a = .error e := by
  induction as with
  | nil => cases h
  | cons a as ih =>
    rw [List.mapM_cons] at h
    cases hhead : f a with
    | error e' =>
      rw [hhead] at h
      cases h
      exact ⟨a, List.mem_cons_self, hhead⟩
    | ok b =>
      rw [hhead] at h
      cases hrest : as.mapM f with
      | error e' =>
        rw [hrest] at h
        cases h
        obtain ⟨a', ha', he⟩ := ih hrest
        exact ⟨a', List.mem_cons_of_mem a ha', he⟩
      | ok bs =>
        rw [hrest] at h
        cases h

theorem mapM_eq_ok_map {α β ε : Type} {f : α → Except ε β} {g : α → β} {as : List α}
    (h : ∀ a ∈ as, f a = .ok (g a)) : as.mapM f = .ok (as.map g) := by
  rw [mapM_eq_ok_iff, List.map_map]
  exact List.map_congr_left h

/-- One failure is enough, and what holds of each failure holds of the one that shows. -/
theorem exists_mapM_eq_error {α β ε : Type} {f : α → Except ε β} {P : ε → Prop} {as : List α}
    (h : ∃ a ∈ as, ∃ e, f a = .error e) (hP : ∀ a ∈ as, ∀ e, f a = .error e → P e) :
    ∃ e, as.mapM f = .error e ∧ P e := by
  cases hall : as.mapM f with
  | ok bs =>
    obtain ⟨a, ha, e, he⟩ := h
    have hmem : f a ∈ bs.map Except.ok := mapM_eq_ok_iff.mp hall ▸ List.mem_map_of_mem ha
    obtain ⟨b, -, hb⟩ := List.mem_map.mp hmem
    rw [he] at hb
    cases hb
  | error e =>
    obtain ⟨a, ha, he⟩ := exists_of_mapM_eq_error hall
    exact ⟨e, rfl, hP a ha e he⟩

/-- Lists that agree under `p` and `q` agree under what `p` and `q` determine. -/
theorem map_eq_of_map_eq {α β γ δ : Type} {p : α → γ} {q : β → γ} {f : α → δ} {k : β → δ} {as : List α}
    {bs : List β} (h : as.map p = bs.map q) (hfk : ∀ a, ∀ b ∈ bs, p a = q b → f a = k b) :
    as.map f = bs.map k := by
  induction as generalizing bs with
  | nil =>
    cases bs with
    | nil => rfl
    | cons b bs => cases h
  | cons a as ih =>
    cases bs with
    | nil => cases h
    | cons b bs =>
      obtain ⟨hhead, htail⟩ := List.cons.inj h
      rw [List.map_cons, List.map_cons, hfk a b List.mem_cons_self hhead,
        ih htail fun a b hb => hfk a b (List.mem_cons_of_mem _ hb)]

/-- `alt` is one of the alternatives given under `A`. -/
def Offers (given : List (Symbol × List GivenBody)) (A : Symbol) (alt : GivenBody) : Prop :=
  ∃ e ∈ given, e.1 = A ∧ alt ∈ e.2

theorem offers_append : Offers (given ++ given') A alt ↔ Offers given A alt ∨ Offers given' A alt := by
  simp only [Offers, List.mem_append, or_and_right, exists_or]

theorem offers_singleton : Offers [(A, alts)] B alt ↔ B = A ∧ alt ∈ alts := by
  simp only [Offers, List.mem_singleton, exists_eq_left, eq_comm]

theorem addAlternatives_eq_ok_iff :
    addAlternatives nts ts r A alts = .ok r' ↔ A ∈ nts ∧ ∃ bodies,
      alts.map (·.toBody (nts ++ ts)) = bodies.map .ok ∧
        r' = r.insert A ((r.alternatives A).union (.ofList bodies)) := by
  simp only [← mapM_eq_ok_iff]
  by_cases hA : A ∈ nts
  · cases hread : alts.mapM (·.toBody (nts ++ ts)) with
    | error e => simp [addAlternatives, hA, hread, bind, Except.bind]
    | ok bodies => simp [addAlternatives, hA, hread, bind, Except.bind, pure, Except.pure, eq_comm]
  · simp [addAlternatives, hA, bind, Except.bind, throw, throwThe, MonadExceptOf.throw]

/-- `r` has the given left sides, each with the bodies that its alternatives read as. -/
structure Collects (declared : List Symbol) (given : List (Symbol × List GivenBody)) (r : Rules) :
    Prop where
  keys : ∀ A, A ∈ r.keys ↔ A ∈ given.map Prod.fst
  readable : ∀ A alt, Offers given A alt → ∃ b, alt.toBody declared = .ok b
  bodies : ∀ A b, b ∈ r.alternatives A ↔ ∃ alt, Offers given A alt ∧ alt.toBody declared = .ok b

namespace Collects

theorem empty : Collects declared [] .empty where
  keys := by simp [Rules.keys, Rules.empty]
  readable := by simp [Offers]
  bodies := by simp [Offers, Rules.mem_alternatives_iff]

theorem unique (hr : Collects declared given r) (hr' : Collects declared given r') : r.Same r' where
  keys A := (hr.keys A).trans (hr'.keys A).symm
  bodies A b := (hr.bodies A b).trans (hr'.bodies A b).symm

/-- Bodies that are given symbol by symbol, each read as it stands. -/
theorem of_symbols (hkeys : ∀ A, A ∈ r.keys ↔ A ∈ given.map Prod.fst)
    (hoffers : ∀ A alt, Offers given A alt ↔ ∃ b ∈ r.alternatives A, alt = .symbols b)
    (hread : ∀ A, ∀ b ∈ r.alternatives A, (GivenBody.symbols b).toBody declared = .ok b) :
    Collects declared given r where
  keys := hkeys
  readable A alt hoffer := by
    obtain ⟨b, hb, rfl⟩ := (hoffers A alt).mp hoffer
    exact ⟨b, hread A b hb⟩
  bodies A b := by
    simp only [hoffers]
    constructor
    · exact fun hb => ⟨.symbols b, ⟨b, hb, rfl⟩, hread A b hb⟩
    · rintro ⟨_, ⟨c, hc, rfl⟩, hbody⟩
      rw [hread A c hc] at hbody
      cases hbody
      exact hc

/-- What has been collected, with one more left side and its alternatives. -/
theorem add (hc : Collects (nts ++ ts) done r) (hadd : addAlternatives nts ts r A alts = .ok r') :
    Collects (nts ++ ts) (done ++ [(A, alts)]) r' := by
  obtain ⟨-, bodies, hread, rfl⟩ := addAlternatives_eq_ok_iff.mp hadd
  constructor
  · intro B
    rw [Rules.mem_keys_insert, hc.keys, List.map_append, List.mem_append, or_comm]
    exact or_congr_right List.mem_singleton.symm
  · intro B alt hoffer
    obtain hdone | hnew := offers_append.mp hoffer
    · exact hc.readable B alt hdone
    · have hmem := List.mem_map_of_mem (f := (·.toBody (nts ++ ts))) (offers_singleton.mp hnew).2
      rw [hread] at hmem
      obtain ⟨b, -, hb⟩ := List.mem_map.mp hmem
      exact ⟨b, hb.symm⟩
  · intro B b
    have hbodies : b ∈ bodies ↔ ∃ alt ∈ alts, alt.toBody (nts ++ ts) = .ok b := by
      rw [← List.mem_map, hread]
      simp
    simp only [offers_append, offers_singleton, or_and_right, exists_or, ← hc.bodies]
    rw [Rules.alternatives_insert]
    by_cases hB : B = A
    · simp [hB, hbodies]
    · simp [hB]

theorem addAll (hc : Collects (nts ++ ts) done r)
    (hadd : given.foldlM (fun r e => addAlternatives nts ts r e.1 e.2) r = .ok r') :
    Collects (nts ++ ts) (done ++ given) r' := by
  induction given generalizing done r with
  | nil =>
    cases hadd
    rwa [List.append_nil]
  | cons e rest ih =>
    rw [List.foldlM_cons] at hadd
    cases hstep : addAlternatives nts ts r e.1 e.2 with
    | error _ => simp [hstep, bind, Except.bind] at hadd
    | ok r₁ =>
      rw [hstep] at hadd
      rw [List.append_cons]
      exact ih (hc.add hstep) hadd

end Collects

/-- Declared left sides with readable alternatives can be collected. -/
theorem exists_addAll (hlhs : ∀ A ∈ given.map Prod.fst, A ∈ nts)
    (hread : ∀ A alt, Offers given A alt → ∃ b, alt.toBody (nts ++ ts) = .ok b) (r : Rules) :
    ∃ r', given.foldlM (fun r e => addAlternatives nts ts r e.1 e.2) r = .ok r' := by
  induction given generalizing r with
  | nil => exact ⟨r, rfl⟩
  | cons e rest ih =>
    obtain ⟨hA, hrest⟩ := List.forall_mem_cons.mp hlhs
    have hbodies : e.2.map (·.toBody (nts ++ ts)) ∈ Set.range (List.map Except.ok) := by
      rw [Set.range_list_map]
      intro result hresult
      obtain ⟨alt, halt, rfl⟩ := List.mem_map.mp hresult
      obtain ⟨b, hb⟩ := hread e.1 alt ⟨e, List.mem_cons_self, rfl, halt⟩
      exact ⟨b, hb.symm⟩
    obtain ⟨bodies, hbodies⟩ := hbodies
    obtain ⟨r₁, hstep⟩ : ∃ r₁, addAlternatives nts ts r e.1 e.2 = .ok r₁ :=
      ⟨_, addAlternatives_eq_ok_iff.mpr ⟨hA, bodies, hbodies.symm, rfl⟩⟩
    rw [List.foldlM_cons, hstep]
    refine ih hrest (fun A alt hoffer => hread A alt ?_) r₁
    obtain ⟨e', he', h⟩ := hoffer
    exact ⟨e', List.mem_cons_of_mem _ he', h⟩

/-- `g` is a grammar without fault that holds the declared symbols, each once, and the given rules. -/
structure CreatedFrom (nts ts : List Symbol) (given : List (Symbol × List GivenBody)) (start : Symbol)
    (g : Grammar) : Prop where
  nonterminals : g.nonterminals = distinct nts
  terminals : g.terminals = distinct ts
  start : g.start = start
  rules : Collects (distinct nts ++ distinct ts) given g.rules
  valid : g.Valid

namespace Grammar

theorem createdFrom_of_create (hg : create nts ts given start = .ok g) :
    CreatedFrom nts ts given start g := by
  unfold create at hg
  cases hrules : given.foldlM (fun r e => addAlternatives (distinct nts) (distinct ts) r e.1 e.2)
      Rules.empty with
  | error e => simp [hrules, bind, Except.bind] at hg
  | ok r =>
    cases hvalid : (⟨distinct nts, distinct ts, r, start⟩ : Grammar).validate with
    | error e => simp [hrules, hvalid, bind, Except.bind] at hg
    | ok =>
      simp only [hrules, hvalid, bind, Except.bind, pure, Except.pure, Except.ok.injEq] at hg
      subst hg
      exact ⟨rfl, rfl, rfl, Collects.empty.addAll hrules, validate_eq_ok_iff.mp hvalid⟩

theorem create_of_createdFrom (hh : CreatedFrom nts ts given start h) :
    ∃ g, create nts ts given start = .ok g ∧ g.Same h := by
  have hlhs : ∀ A ∈ given.map Prod.fst, A ∈ distinct nts := by
    intro A hA
    rw [← hh.nonterminals]
    exact hh.valid.lhs_mem A ((hh.rules.keys A).mpr hA)
  obtain ⟨r, hr⟩ := exists_addAll hlhs hh.rules.readable Rules.empty
  have hsame : (⟨distinct nts, distinct ts, r, start⟩ : Grammar).Same h :=
    ⟨hh.nonterminals.symm, hh.terminals.symm, hh.start.symm,
      (Collects.empty.addAll hr).unique hh.rules⟩
  have hvalid := validate_eq_ok_iff.mpr (hsame.symm.valid hh.valid)
  refine ⟨_, ?_, hsame⟩
  simp only [create, hr, hvalid, bind, Except.bind]
  rfl

/-- The rule of `nested` as it may be given. -/
def nestedGiven : List (Symbol × List GivenBody) :=
  [("S", [.symbols ["a", "S", "b"], .symbols []])]

theorem offers_nestedGiven {A : Symbol} {alt : GivenBody} : Offers nestedGiven A alt ↔
    A = "S" ∧ (alt = .symbols ["a", "S", "b"] ∨ alt = .symbols []) := by
  rw [nestedGiven, offers_singleton, List.mem_pair]

theorem createdFrom_nestedGiven : CreatedFrom ["S"] ["a", "b"] nestedGiven "S" nested where
  nonterminals := rfl
  terminals := rfl
  start := rfl
  valid := validate_eq_ok_iff.mp nested_validate
  rules := by
    apply Collects.of_symbols
    · intro A
      change A ∈ (Rules.empty.insert "S" _).keys ↔ _
      rw [Rules.mem_keys_insert]
      simp [nestedGiven, Rules.keys, Rules.empty]
    · intro A alt
      change _ ↔ ∃ b ∈ nested.alternatives A, alt = .symbols b
      simp only [mem_alternatives_nested, offers_nestedGiven, and_assoc, exists_and_left, or_and_right,
        exists_or, exists_eq_left]
    · intro A b hb
      obtain ⟨-, rfl | rfl⟩ := mem_alternatives_nested.mp hb <;> rfl

end Grammar

/-- The same left sides are given, each with the same alternatives. -/
structure Rearranged (given given' : List (Symbol × List GivenBody)) : Prop where
  lhs : ∀ A, A ∈ given.map Prod.fst ↔ A ∈ given'.map Prod.fst
  alternatives : ∀ A alt, Offers given A alt ↔ Offers given' A alt

theorem CreatedFrom.rearranged (hg : CreatedFrom nts ts given start g) (hr : Rearranged given given') :
    CreatedFrom nts ts given' start g where
  nonterminals := hg.nonterminals
  terminals := hg.terminals
  start := hg.start
  rules := by
    constructor
    · exact fun A => (hg.rules.keys A).trans (hr.lhs A)
    · exact fun A alt hoffer => hg.rules.readable A alt ((hr.alternatives A alt).mpr hoffer)
    · simp only [← hr.alternatives]
      exact hg.rules.bodies
  valid := hg.valid

end ContextFree
