import Mathlib.Data.List.Forall2
import ContextFree.Grammar.TextFormat
import ContextFree.Proofs.Pieces

/-!
What a text says. A line that is in order is blank, a comment, a directive, or a rule with one word on its
left and alternatives that are not empty (`Line.Says`); these are the lines that are read
(`Line.read_eq_ok_iff`). A text of such lines says one thing after another (`TextSays`), and its listing has
the rules with the numbers of their lines and the last directive of each name (`read_eq_ok_iff`).
-/
namespace ContextFree

open Text

variable {c : Char} {cs lhs line rest : List Char} {text : String} {A : Symbol} {d : Directive}
  {number : Nat} {l : Listing} {lines : List (List Char)} {said said' : List Line} {read : Line}

namespace Text

theorem words_ne_nil (h : ∃ c ∈ cs, isBlank c = false) : words cs ≠ [] := by
  induction cs with
  | nil => simp at h
  | cons c cs ih =>
    rw [words]
    split
    · rename_i hc
      obtain ⟨x, hx, hvisible⟩ := h
      apply ih
      obtain rfl | hx := List.mem_cons.mp hx
      · rw [hc] at hvisible
        cases hvisible
      · exact ⟨x, hx, hvisible⟩
    · split
      · exact List.cons_ne_nil _ _
      · split <;> exact List.cons_ne_nil _ _

/-- The first blank of a text that begins with a visible character ends a word. -/
theorem exists_word_before_blank (hhead : isBlank c = false) (h : ∃ d ∈ c :: cs, isBlank d = true) :
    ∃ w d rest, c :: cs = w ++ d :: rest ∧ IsWord w ∧ isBlank d = true := by
  obtain ⟨d, hd⟩ : ∃ d, (c :: cs).find? isBlank = some d :=
    Option.isSome_iff_exists.mp (List.find?_isSome.mpr h)
  obtain ⟨hblank, w, rest, hsplit, hw⟩ := List.find?_eq_some_iff_append.mp hd
  refine ⟨w, d, rest, hsplit, ⟨?_, by simpa using hw⟩, hblank⟩
  rintro rfl
  cases hsplit
  rw [hblank] at hhead
  cases hhead

/-- A text with visible ends is one word, or has two words at least. -/
theorem Trimmed.isWord_iff (h : Trimmed cs) : IsWord cs ↔ ¬ 1 < (words cs).length := by
  constructor
  · intro hword
    simp [words_eq_singleton hword]
  · intro hfew
    refine ⟨h.ne_nil, ?_⟩
    by_contra hall
    have hblank : ∃ d ∈ cs, isBlank d = true := by simpa using hall
    obtain ⟨c, front, rfl, hc⟩ := h.head
    obtain ⟨last, back, hback, hlast⟩ := h.last
    obtain ⟨w, d, rest, hsplit, hw, hd⟩ := exists_word_before_blank hc hblank
    have hend : (d :: rest).getLast? = some last := by
      have hsame := congrArg List.getLast? (hsplit.symm.trans hback)
      rwa [List.getLast?_append_of_ne_nil _ (List.cons_ne_nil d rest), List.getLast?_concat] at hsame
    have hlater : last ∈ rest := by
      obtain rfl | hmem := List.mem_cons.mp (List.mem_of_getLast? hend)
      · rw [hd] at hlast
        cases hlast
      · exact hmem
    have hmore := List.length_pos_of_ne_nil (words_ne_nil ⟨last, hlater, hlast⟩)
    apply hfew
    rw [hsplit, words_append hw (by simp [hd]), words_blank_cons hd, List.length_cons]
    omega

end Text

/-! ## Cutting a rule line -/

theorem visible_of_skipBlanks (h : skipBlanks line = c :: cs) : isBlank c = false := by
  have hne : line.dropWhile isBlank ≠ [] := by
    intro hnil
    rw [skipBlanks, hnil] at h
    cases h
  have hhead := List.head_dropWhile_not isBlank hne
  have hsame : line.dropWhile isBlank = c :: cs := h
  simpa [hsame] using hhead

theorem last_of_cutAtArrow? (h : cutAtArrow? cs = some (lhs, rest)) :
    ∃ c front, lhs = front ++ [c] ∧ isBlank c = false := by
  induction cs generalizing lhs with
  | nil => cases h
  | cons c cs ih =>
    rw [cutAtArrow?] at h
    split at h
    · rename_i hc
      cases h
      exact ⟨c, [], rfl, hc⟩
    · obtain ⟨⟨later, rest'⟩, hcut, heq⟩ := Option.map_eq_some_iff.mp h
      cases heq
      obtain ⟨d, front, rfl, hd⟩ := ih hcut
      exact ⟨d, c :: front, rfl, hd⟩

/-- A left side has no blank at its ends. -/
theorem trimmed_of_cutRule? (h : cutRule? line = some (lhs, rest)) : Trimmed lhs := by
  unfold cutRule? at h
  split at h
  · cases h
  · rename_i c cs hskip
    have hc := visible_of_skipBlanks hskip
    split at h
    · rename_i front rest' hcut
      cases h
      obtain ⟨d, front, rfl, hd⟩ := last_of_cutAtArrow? hcut
      exact ⟨⟨c, front ++ [d], rfl, hc⟩, ⟨d, c :: front, rfl, hd⟩⟩
    · obtain ⟨rest', -, heq⟩ := Option.map_eq_some_iff.mp h
      cases heq
      exact ⟨⟨c, [], rfl, hc⟩, ⟨c, [], rfl, hc⟩⟩

/-! ## Lines -/

/-- What a line that is in order says. -/
inductive Line.Says : List Char → Line → Prop
  | blank {line : List Char} (blank : skipBlanks line = []) : Says line .skipped
  | comment {line : List Char} (comment : (skipBlanks line).head? = some '#') : Says line .skipped
  | directive {line : List Char} {d : Directive} {arguments : List Symbol}
      (shape : directive? line = some (d, arguments)) : Says line (.directive d arguments)
  | rule {line lhs rest : List Char} (noComment : (skipBlanks line).head? ≠ some '#')
      (noDirective : directive? line = none) (shape : cutRule? line = some (lhs, rest))
      (word : IsWord lhs) (full : ∀ p ∈ pieces '|' rest, strip p ≠ []) :
      Says line (.rule (String.ofList lhs) ((pieces '|' rest).map fun p => String.ofList (strip p)))

theorem not_skipped_of_directive? {arguments : List Symbol} (h : directive? line = some (d, arguments)) :
    ¬ (skipBlanks line = [] ∨ (skipBlanks line).head? = some '#') := by
  unfold directive? at h
  split at h
  · rename_i hskip
    simp [hskip]
  · cases h

theorem Line.says_of_read (h : Line.read number line = .ok read) : Line.Says line read := by
  unfold Line.read at h
  split at h
  · rename_i hskipped
    cases h
    exact hskipped.elim .blank .comment
  · rename_i hshown
    split at h
    · rename_i hdirective
      cases h
      exact .directive hdirective
    · cases h
    · rename_i lhs rest hdirective hcut
      dsimp only at h
      split at h
      · cases h
      · rename_i hfew
        split at h
        · cases h
        · rename_i hfull
          cases h
          rw [List.map_map]
          refine .rule (fun hcomment => hshown (.inr hcomment)) hdirective hcut
            ((trimmed_of_cutRule? hcut).isWord_iff.mpr hfew) fun p hp hnil => hfull ?_
          rw [List.contains_iff_mem]
          exact List.mem_map.mpr ⟨p, hp, hnil⟩

theorem Line.read_of_says (h : Line.Says line read) : Line.read number line = .ok read := by
  cases h with
  | blank hblank => exact if_pos (.inl hblank)
  | comment hcomment => exact if_pos (.inr hcomment)
  | directive shape =>
    rw [Line.read, if_neg (not_skipped_of_directive? shape), shape]
  | @rule lhs rest hcomment hdirective shape word full =>
    have hshown : ¬ (skipBlanks line = [] ∨ (skipBlanks line).head? = some '#') := by
      rintro (hnil | h)
      · simp [cutRule?, hnil] at shape
      · exact hcomment h
    have hfew := (trimmed_of_cutRule? shape).isWord_iff.mp word
    have hfull : ¬ ((pieces '|' rest).map strip).contains [] = true := by
      rw [List.contains_iff_mem, List.mem_map]
      rintro ⟨p, hp, hnil⟩
      exact full p hp hnil
    rw [Line.read, if_neg hshown, hdirective, shape]
    dsimp only
    rw [if_neg hfew, if_neg hfull, List.map_map]
    rfl

/-- The lines that are read are those that are in order, and the number of a line is of no matter. -/
theorem Line.read_eq_ok_iff : Line.read number line = .ok read ↔ Line.Says line read :=
  ⟨Line.says_of_read, Line.read_of_says⟩

/-! ## Texts -/

/-- Each line of the text says what stands in its place. -/
def TextSays (text : String) (said : List Line) : Prop :=
  List.Forall₂ Line.Says (Text.lines text.toList) said

theorem textSays_iff : TextSays text said ↔
    (Text.lines text.toList).map (Line.read 1) = said.map .ok := by
  rw [← List.forall₂_eq_eq_eq, List.forall₂_map_left_iff, List.forall₂_map_right_iff]
  simp only [Line.read_eq_ok_iff]
  rfl

namespace Line

def leftSide? : Line → Option Symbol
  | .rule lhs _ => some lhs
  | _ => none

def alternativesOf (A : Symbol) : Line → List String
  | .rule lhs alternatives => if lhs = A then alternatives else []
  | _ => []

def argumentsOf? (d : Directive) : Line → Option (List Symbol)
  | .directive d' arguments => if d' = d then some arguments else none
  | _ => none

/-- The left sides of rules, line by line. -/
def leftSides (said : List Line) : List Symbol := said.filterMap leftSide?

/-- The alternatives of one left side, those of all its lines together. -/
def alternatives (said : List Line) (A : Symbol) : List String := said.flatMap (alternativesOf A)

/-- The arguments of the last directive of a name. -/
def lastOf? (said : List Line) (d : Directive) : Option (List Symbol) :=
  (said.filterMap (argumentsOf? d)).getLast?

@[simp] theorem leftSides_append (said said' : List Line) :
    leftSides (said ++ said') = leftSides said ++ leftSides said' := List.filterMap_append

@[simp] theorem leftSides_skipped (said : List Line) : leftSides (.skipped :: said) = leftSides said := rfl

@[simp] theorem leftSides_directive (d : Directive) (arguments : List Symbol) (said : List Line) :
    leftSides (.directive d arguments :: said) = leftSides said := rfl

@[simp] theorem leftSides_rule (A : Symbol) (alts : List String) (said : List Line) :
    leftSides (.rule A alts :: said) = A :: leftSides said := rfl

@[simp] theorem alternatives_append (said said' : List Line) (A : Symbol) :
    alternatives (said ++ said') A = alternatives said A ++ alternatives said' A := List.flatMap_append

@[simp] theorem alternatives_cons (read : Line) (said : List Line) (A : Symbol) :
    alternatives (read :: said) A = read.alternativesOf A ++ alternatives said A := rfl

@[simp] theorem lastOf?_append (said said' : List Line) (d : Directive) :
    lastOf? (said ++ said') d = (lastOf? said' d).or (lastOf? said d) := by
  rw [lastOf?, List.filterMap_append, List.getLast?_append, ← lastOf?, ← lastOf?]

@[simp] theorem lastOf?_cons (read : Line) (said : List Line) (d : Directive) :
    lastOf? (read :: said) d = (lastOf? said d).or (argumentsOf? d read) := by
  rw [← List.singleton_append, lastOf?_append]
  congr 1
  rw [lastOf?, List.filterMap_cons]
  cases argumentsOf? d read <;> rfl

/-- The rules with the numbers of their lines, the first line having the given number. -/
def ruleLines (number : Nat) : List Line → List RuleLine
  | [] => []
  | .rule lhs alternatives :: said => ⟨number, lhs, alternatives⟩ :: ruleLines (number + 1) said
  | _ :: said => ruleLines (number + 1) said

theorem lhs_ruleLines (number : Nat) (said : List Line) :
    (ruleLines number said).map (·.lhs) = leftSides said := by
  induction said generalizing number with
  | nil => rfl
  | cons read said ih => cases read <;> simp [ruleLines, ih]

theorem alternatives_ruleLines (number : Nat) (said : List Line) (A : Symbol) :
    ((ruleLines number said).filter (·.lhs = A)).flatMap (·.alternatives) = alternatives said A := by
  induction said generalizing number with
  | nil => rfl
  | cons read said ih =>
    cases read with
    | rule lhs alts => by_cases hA : lhs = A <;> simp [ruleLines, alternativesOf, hA, ih]
    | _ => simp [ruleLines, alternativesOf, ih]

end Line

namespace Listing

open Line

/-- The arguments of a directive. -/
def given (l : Listing) : Directive → Option (List Symbol)
  | .start => l.start
  | .nonterminals => l.nonterminals
  | .terminals => l.terminals

/-- The listing with what lines say, the first one having the given number. -/
def addAll (l : Listing) (number : Nat) : List Line → Listing
  | [] => l
  | read :: said => (l.add number read).addAll (number + 1) said

/-- The listing has the rules and the last directives of the lines. -/
structure Records (l : Listing) (said : List Line) : Prop where
  rules : l.rules = ruleLines 1 said
  given : ∀ d, l.given d = lastOf? said d

theorem given_add (l : Listing) (number : Nat) (read : Line) (d : Directive) :
    (l.add number read).given d = (argumentsOf? d read).or (l.given d) := by
  cases read with
  | directive d' arguments => cases d' <;> cases d <;> rfl
  | _ => cases d <;> rfl

theorem given_addAll (l : Listing) (number : Nat) (said : List Line) (d : Directive) :
    (l.addAll number said).given d = (lastOf? said d).or (l.given d) := by
  induction said generalizing l number with
  | nil => rfl
  | cons read said ih => rw [addAll, ih, given_add, lastOf?_cons, Option.or_assoc]

theorem rules_addAll (l : Listing) (number : Nat) (said : List Line) :
    (l.addAll number said).rules = l.rules ++ ruleLines number said := by
  induction said generalizing l number with
  | nil => simp [addAll, ruleLines]
  | cons read said ih =>
    rw [addAll, ih]
    cases read with
    | directive d arguments => cases d <;> rfl
    | skipped => rfl
    | rule lhs alternatives => simp [add, ruleLines]

theorem records_addAll (said : List Line) : (empty.addAll 1 said).Records said where
  rules := by rw [rules_addAll]; rfl
  given d := by
    rw [given_addAll]
    cases d <;> exact Option.or_none

/-- Reading succeeds exactly if every line is in order, and adds what the lines say. -/
theorem readFrom_eq_ok_iff {l' : Listing} : l.readFrom number lines = .ok l' ↔
    ∃ said, List.Forall₂ Line.Says lines said ∧ l' = l.addAll number said := by
  induction lines generalizing l number with
  | nil => simp [readFrom, addAll, eq_comm]
  | cons line lines ih =>
    rw [readFrom]
    constructor
    · intro h
      split at h
      · rename_i read hread
        obtain ⟨said, hsaid, rfl⟩ := ih.mp h
        exact ⟨read :: said, .cons (Line.read_eq_ok_iff.mp hread) hsaid, rfl⟩
      · cases h
    · rintro ⟨said, hsaid, rfl⟩
      cases hsaid with
      | cons hread hsaid =>
        rw [Line.read_eq_ok_iff.mpr hread]
        exact ih.mpr ⟨_, hsaid, rfl⟩

theorem read_eq_ok_iff : Listing.read text = .ok l ↔
    ∃ said, TextSays text said ∧ l = empty.addAll 1 said := readFrom_eq_ok_iff

theorem read_of_textSays (h : TextSays text said) :
    ∃ l, Listing.read text = .ok l ∧ l.Records said :=
  ⟨_, read_eq_ok_iff.mpr ⟨said, h, rfl⟩, records_addAll said⟩

theorem Records.leftSides (h : l.Records said) : l.leftSides = Line.leftSides said := by
  rw [Listing.leftSides, h.rules, lhs_ruleLines]

end Listing

end ContextFree
