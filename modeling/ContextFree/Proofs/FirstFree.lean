import Mathlib.Data.List.TakeWhile
import ContextFree.Proofs.NameSupply

/-!
Names are handed out in turn: the letters, then the stem with its indices. A turn is over for good once a
name behind it has been handed out, but by then the name of that turn is registered, and it stays so
(`Running`). Whatever is asked of a supply, the name it hands out next is therefore the first of all turns
that is not registered (`Running.firstFree`). Which one that is depends on what is registered, not on the
order in which it was (`FirstFree.unique`).
-/
namespace ContextFree

theorem distinct_distinct_append {α : Type} [DecidableEq α] (as bs : List α) :
    distinct (distinct as ++ bs) = distinct (as ++ bs) := by
  rw [distinct_append, distinct_append, distinct_eq_self (nodup_distinct as)]
  simp

namespace NameSupply

variable {supply supply' : NameSupply} {letters taken taken' passed names : List Symbol} {stem : String}
  {name s t : Symbol} {m n : Nat}

/-- The name whose turn is the `n`-th. -/
def turn (letters : List Symbol) (stem : String) (n : Nat) : Symbol :=
  letters[n]?.getD (indexed stem (n - letters.length))

/-- The first name in turn that is not taken. -/
def FirstFree (letters : List Symbol) (stem : String) (taken : List Symbol) (name : Symbol) : Prop :=
  ∃ n, turn letters stem n = name ∧ name ∉ taken ∧ ∀ m < n, turn letters stem m ∈ taken

theorem turn_of_le (h : letters.length ≤ n) :
    turn letters stem n = indexed stem (n - letters.length) := by
  simp [turn, h]

/-- Only membership counts for what is free. -/
theorem FirstFree.unique (h : FirstFree letters stem taken s) (h' : FirstFree letters stem taken' t)
    (same : ∀ x, x ∈ taken ↔ x ∈ taken') : s = t := by
  obtain ⟨m, rfl, hfree, hbefore⟩ := h
  obtain ⟨n, rfl, hfree', hbefore'⟩ := h'
  obtain hlt | rfl | hgt := Nat.lt_trichotomy m n
  · exact absurd ((same _).mpr (hbefore' m hlt)) hfree
  · rfl
  · exact absurd ((same _).mp (hbefore n hgt)) hfree'

/-- The search passes over taken names alone. -/
theorem indexed_mem_of_lt_freeIndex (hn : n ≤ m) (hm : m < freeIndex stem taken n) :
    indexed stem m ∈ taken := by
  fun_induction freeIndex stem taken n with
  | case1 taken n h ih =>
    obtain rfl | hlt := Nat.eq_or_lt_of_le hn
    · exact h
    · exact List.mem_of_mem_erase (ih hlt hm)
  | case2 taken n h => omega

/-! ## Turns -/

/-- The turns that are still to come start with the `n`-th. -/
structure AtTurn (letters : List Symbol) (stem : String) (n : Nat) (supply : NameSupply) : Prop where
  stem_eq : supply.stem = stem
  left : supply.letters = letters.drop n
  index : supply.index = n - letters.length

theorem turn_of_drop {later : List Symbol} (h : letters.drop n = passed ++ name :: later) :
    turn letters stem (n + passed.length) = name := by
  have hget : (letters.drop n)[passed.length]? = some name := by simp [h]
  rw [List.getElem?_drop] at hget
  rw [turn, hget, Option.getD_some]

theorem turn_mem_of_drop {rest : List Symbol} (h : letters.drop n = passed ++ rest) (hm : n ≤ m)
    (hlt : m < n + passed.length) : turn letters stem m ∈ passed := by
  have hpos : m - n < passed.length := by omega
  have hget : (letters.drop n)[m - n]? = some passed[m - n] := by
    rw [h, List.getElem?_append_left hpos, List.getElem?_eq_getElem hpos]
  rw [List.getElem?_drop, Nat.add_sub_cancel' hm] at hget
  rw [turn, hget, Option.getD_some]
  exact List.getElem_mem hpos

/-- A supply goes on to the first turn whose name is free. -/
theorem AtTurn.allocate (h : AtTurn letters stem n supply) :
    ∃ n', turn letters stem n' = supply.allocate.1 ∧
      AtTurn letters stem (n' + 1) supply.allocate.2 ∧
      ∀ m, n ≤ m → m < n' → turn letters stem m ∈ supply.registered := by
  have hsplit := (List.takeWhile_append_dropWhile (p := supply.isRegistered)
    (l := letters.drop n)).symm
  have hpassed : ∀ s ∈ (letters.drop n).takeWhile supply.isRegistered, s ∈ supply.registered := by
    intro s hs
    simpa [isRegistered] using List.mem_takeWhile_imp hs
  unfold NameSupply.allocate
  rw [h.left]
  generalize (letters.drop n).takeWhile supply.isRegistered = passed at hsplit hpassed
  split
  · rename_i name later heq
    rw [heq] at hsplit
    have hlen : letters.length - n = passed.length + (later.length + 1) := by
      simpa using congrArg List.length hsplit
    refine ⟨n + passed.length, turn_of_drop hsplit, ⟨h.stem_eq, ?_, ?_⟩, fun m hm hlt => ?_⟩
    · rw [Nat.add_assoc, ← List.drop_drop, hsplit]
      simp
    · have hindex := h.index
      dsimp only
      omega
    · exact hpassed _ (turn_mem_of_drop hsplit hm hlt)
  · -- All letters are over, so the turn that comes is that of an index.
    rename_i heq
    rw [heq] at hsplit
    have hlen : letters.length - n = passed.length := by
      simpa using congrArg List.length hsplit
    have hturn (free : Nat) : turn letters stem (letters.length + free) = indexed stem free := by
      rw [turn_of_le (Nat.le_add_right _ free), Nat.add_sub_cancel_left]
    rw [h.stem_eq, h.index]
    refine ⟨_, hturn _, ⟨rfl, ?_, ?_⟩, fun m hm hlt => ?_⟩
    · rw [List.drop_eq_nil_of_le (by omega)]
    · dsimp only
      omega
    · by_cases hletter : m < letters.length
      · exact hpassed _ (turn_mem_of_drop hsplit hm (by omega))
      · rw [turn_of_le (by omega)]
        exact indexed_mem_of_lt_freeIndex (n := n - letters.length) (by omega) (by omega)

/-! ## Requests -/

/-- What may be asked of a supply. -/
inductive Request where
  | allocate
  | register (name : Symbol)
  deriving DecidableEq

/-- The name that a request registers, and the supply after it. -/
def serve (supply : NameSupply) : Request → Symbol × NameSupply
  | .allocate => supply.allocate
  | .register name => (name, supply.register name)

/-- The names that requests register, one for each, and the supply after all of them. -/
def serveAll (supply : NameSupply) : List Request → List Symbol × NameSupply
  | [] => ([], supply)
  | request :: rest =>
    let (name, supply) := supply.serve request
    let (names, supply) := supply.serveAll rest
    (name :: names, supply)

/-- Of the names that requests register, those that the supply has chosen. -/
def handedOut (requests : List Request) (names : List Symbol) : List Symbol :=
  (requests.zip names).filterMap fun (request, name) =>
    if request = .allocate then some name else none

variable {request : Request} {requests : List Request}

theorem handedOut_cons : handedOut (request :: requests) (name :: names) =
    handedOut [request] [name] ++ handedOut requests names := by
  cases request <;> rfl

theorem registered_register (h : supply.registered.Nodup) (name : Symbol) :
    (supply.register name).registered = distinct (supply.registered ++ [name]) := by
  rw [distinct_append, distinct_eq_self h]
  unfold register
  by_cases hmem : name ∈ supply.registered <;> simp [isRegistered, hmem, distinct]

/-- What is registered comes last, unless it has been registered before. -/
theorem registered_serve (h : supply.registered.Nodup) (request : Request) :
    (supply.serve request).2.registered =
      distinct (supply.registered ++ [(supply.serve request).1]) := by
  cases request with
  | register name => exact registered_register h name
  | allocate =>
    have hfree := supply.allocate_notMem
    change supply.allocate.2.registered = distinct (supply.registered ++ [supply.allocate.1])
    rw [registered_allocate, distinct_append, distinct_eq_self h]
    simp [distinct, hfree]

theorem mem_registered_serve (h : supply.registered.Nodup) :
    s ∈ (supply.serve request).2.registered ↔
      s ∈ supply.registered ∨ s = (supply.serve request).1 := by
  rw [registered_serve h, mem_distinct, List.mem_append, List.mem_singleton]

theorem allocated_allocate (supply : NameSupply) :
    supply.allocate.2.allocated = supply.allocated ++ [supply.allocate.1] := by
  unfold allocate
  split <;> rfl

theorem allocated_serve (supply : NameSupply) (request : Request) :
    (supply.serve request).2.allocated =
      supply.allocated ++ handedOut [request] [(supply.serve request).1] := by
  cases request with
  | allocate => exact supply.allocated_allocate
  | register name =>
    change (supply.register name).allocated = supply.allocated ++ []
    unfold register
    split <;> simp

/-- What holds of a supply at any time. -/
structure Running (letters : List Symbol) (stem : String) (supply : NameSupply) : Prop where
  turns : ∃ n, AtTurn letters stem n supply ∧ ∀ m < n, turn letters stem m ∈ supply.registered
  nodup : supply.registered.Nodup
  allocated_nodup : supply.allocated.Nodup
  allocated_registered : ∀ s ∈ supply.allocated, s ∈ supply.registered

theorem running_create (taken letters : List Symbol) (stem : String) :
    Running letters stem (create taken letters stem) where
  turns := ⟨0, ⟨rfl, rfl, (Nat.zero_sub _).symm⟩, by simp⟩
  nodup := nodup_distinct taken
  allocated_nodup := List.nodup_nil
  allocated_registered := by simp [create]

namespace Running

/-- **The next name is the first free one.** -/
theorem firstFree (h : Running letters stem supply) :
    FirstFree letters stem supply.registered supply.allocate.1 := by
  obtain ⟨n, hn, hover⟩ := h.turns
  obtain ⟨n', hname, -, hpassed⟩ := hn.allocate
  refine ⟨n', hname, supply.allocate_notMem, fun m hm => ?_⟩
  by_cases hlt : m < n
  · exact hover m hlt
  · exact hpassed m (by omega) hm

theorem allocate_turns (h : Running letters stem supply) :
    ∃ n, AtTurn letters stem n supply.allocate.2 ∧
      ∀ m < n, turn letters stem m ∈ supply.allocate.2.registered := by
  obtain ⟨n, hn, hover⟩ := h.turns
  obtain ⟨n', hname, hn', hpassed⟩ := hn.allocate
  refine ⟨n' + 1, hn', fun m hm => ?_⟩
  rw [registered_allocate, List.mem_append, List.mem_singleton]
  obtain rfl | hlt := Nat.eq_or_lt_of_le (Nat.le_of_lt_succ hm)
  · exact .inr hname
  · by_cases hold : m < n
    · exact .inl (hover m hold)
    · exact .inl (hpassed m (by omega) hlt)

theorem serve (h : Running letters stem supply) (request : Request) :
    Running letters stem (supply.serve request).2 := by
  have hmem (s : Symbol) : s ∈ (supply.serve request).2.registered ↔
      s ∈ supply.registered ∨ s = (supply.serve request).1 := mem_registered_serve h.nodup
  constructor
  case turns =>
    cases request with
    | allocate => exact h.allocate_turns
    | register name =>
      obtain ⟨n, hn, hover⟩ := h.turns
      refine ⟨n, ?_, fun m hm => (hmem _).mpr (.inl (hover m hm))⟩
      change AtTurn letters stem n (supply.register name)
      unfold register
      split
      · exact hn
      · exact ⟨hn.stem_eq, hn.left, hn.index⟩
  case nodup =>
    rw [registered_serve h.nodup]
    exact nodup_distinct _
  case allocated_nodup =>
    rw [allocated_serve]
    cases request with
    | allocate =>
      have hfree : supply.allocate.1 ∉ supply.allocated :=
        fun hs => supply.allocate_notMem (h.allocated_registered _ hs)
      exact List.perm_append_comm.nodup_iff.mpr (List.nodup_cons.mpr ⟨hfree, h.allocated_nodup⟩)
    | register name => exact (List.append_nil supply.allocated).symm ▸ h.allocated_nodup
  case allocated_registered =>
    intro s hs
    rw [allocated_serve, List.mem_append] at hs
    apply (hmem s).mpr
    refine hs.imp (h.allocated_registered s) fun hs => ?_
    cases request with
    | allocate => exact List.mem_singleton.mp hs
    | register name => cases hs

/-- Requests keep all that, and leave a record of themselves. -/
theorem serveAll (h : Running letters stem supply) (requests : List Request) :
    Running letters stem (supply.serveAll requests).2 ∧
      (supply.serveAll requests).2.registered =
        distinct (supply.registered ++ (supply.serveAll requests).1) ∧
      (supply.serveAll requests).2.allocated =
        supply.allocated ++ handedOut requests (supply.serveAll requests).1 := by
  induction requests generalizing supply with
  | nil => exact ⟨h, by simp [NameSupply.serveAll, distinct_eq_self h.nodup], by
      simp [NameSupply.serveAll, handedOut]⟩
  | cons request rest ih =>
    obtain ⟨hrunning, hregistered, hallocated⟩ := ih (h.serve request)
    refine ⟨hrunning, ?_, ?_⟩
    · rw [registered_serve h.nodup, distinct_distinct_append, List.append_assoc] at hregistered
      exact hregistered
    · rw [allocated_serve, List.append_assoc, ← handedOut_cons] at hallocated
      exact hallocated

/-- Two supplies hand out the same names as long as the same names are registered. -/
theorem serveAll_congr (h : Running letters stem supply) (h' : Running letters stem supply')
    (same : ∀ s, s ∈ supply.registered ↔ s ∈ supply'.registered) (requests : List Request) :
    (supply.serveAll requests).1 = (supply'.serveAll requests).1 := by
  induction requests generalizing supply supply' with
  | nil => rfl
  | cons request rest ih =>
    have hname : (supply.serve request).1 = (supply'.serve request).1 := by
      cases request with
      | allocate => exact h.firstFree.unique h'.firstFree same
      | register name => rfl
    have hrest := ih (h.serve request) (h'.serve request) fun s => by
      rw [mem_registered_serve h.nodup, mem_registered_serve h'.nodup, hname, same]
    exact congrArg₂ List.cons hname hrest

end Running

/-- **A supply hands out the first free name.** Whatever has been asked of it before, the next name is the
first in turn that is not registered, so it has never been taken, registered or handed out. The registered
names are those that were taken and those of the requests, in the order in which they came in, and the
names do not depend on the order in which the taken ones were listed, or how often. -/
theorem serveAll_first_free (taken letters : List Symbol) (stem : String) (requests : List Request) :
    ∃ names supply, (create taken letters stem).serveAll requests = (names, supply) ∧
      FirstFree letters stem supply.registered supply.allocate.1 ∧
      supply.allocate.1 ∉ taken ++ names ∧
      supply.registered = distinct (taken ++ names) ∧
      supply.allocated = handedOut requests names ∧
      supply.allocated.Nodup ∧
      (∀ s ∈ supply.allocated, s ∈ supply.registered) ∧
      ∀ taken', (∀ s, s ∈ taken' ↔ s ∈ taken) →
        ((create taken' letters stem).serveAll requests).1 = names := by
  have hstart := running_create taken letters stem
  obtain ⟨hrunning, hregistered, hallocated⟩ := hstart.serveAll requests
  have hall : ((create taken letters stem).serveAll requests).2.registered =
      distinct (taken ++ ((create taken letters stem).serveAll requests).1) := by
    rw [hregistered]
    exact distinct_distinct_append taken _
  refine ⟨_, _, rfl, hrunning.firstFree, fun hmem => ?_, hall, hallocated,
    hrunning.allocated_nodup, hrunning.allocated_registered, fun taken' same => ?_⟩
  · apply NameSupply.allocate_notMem
    rw [hall]
    exact mem_distinct.mpr hmem
  · apply (running_create taken' letters stem).serveAll_congr hstart
    simpa [create] using same

example : ((create ["B"] ["A", "B", "A"] "N").serveAll
    [.allocate, .register "N0", .allocate, .allocate]).1 = ["A", "N0", "N1", "N2"] := by cbv

end NameSupply

end ContextFree
