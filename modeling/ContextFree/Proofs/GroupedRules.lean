import Mathlib.Logic.Relation
import ContextFree.Proofs.Create
import ContextFree.Proofs.TextLines

/-!
What the order of lines is good for. A grammar is made from the left sides in the order in which they come
up, from the alternatives of each, and from the last directive of each name (`SameGroups`). Where these are
the same, two texts describe the same grammar or are refused for the same kind of error. So lines that say
nothing can be put anywhere, a directive can be moved past the lines that do not repeat it, and lines with
one left side can be put together or taken apart (`Rearranges`).
-/
namespace ContextFree

open Text

variable {A : Symbol} {l l' : Listing} {said said' : List Line} {start : Option Symbol} {text text' : String}

/-- What has come up before does not count again. -/
theorem distinct_append_cons {α : Type} [DecidableEq α] {a : α} {as : List α} (h : a ∈ as)
    (bs : List α) : distinct (as ++ a :: bs) = distinct (as ++ bs) := by
  rw [distinct_append, distinct_append, distinct, List.filter_cons_of_neg (by simpa using h),
    List.filter_filter]
  congr 1
  apply List.filter_congr
  intro b _
  by_cases hb : b ∈ as
  · simp [hb]
  · have hne : b ≠ a := by
      rintro rfl
      exact hb h
    simp [hne]

theorem Grammar.create_congr {nts nts' : List Symbol} (h : distinct nts = distinct nts') (ts : List Symbol)
    (given : List (Symbol × List GivenBody)) (start : Symbol) :
    create nts ts given start = create nts' ts given start := by
  unfold create
  rw [h]

namespace Listing

/-- The alternatives of one left side, those of all its lines together. -/
def alternativesOf (l : Listing) (A : Symbol) : List String :=
  (l.rules.filter (·.lhs = A)).flatMap (·.alternatives)

/-- The same left sides in the same order, each with the same alternatives, and the same directives. -/
structure Alike (l l' : Listing) : Prop where
  leftSides : distinct l.leftSides = distinct l'.leftSides
  alternatives : ∀ A, l.alternativesOf A = l'.alternativesOf A
  given : ∀ d, l.given d = l'.given d

theorem mem_alternativesOf {b : String} :
    b ∈ l.alternativesOf A ↔ ∃ r ∈ l.rules, r.lhs = A ∧ b ∈ r.alternatives := by
  simp only [alternativesOf, List.mem_flatMap, List.mem_filter, decide_eq_true_eq, and_assoc]

theorem forall_rules_iff {P : String → Prop} : (∀ r ∈ l.rules, ∀ b ∈ r.alternatives, P b) ↔
    ∀ A, ∀ b ∈ l.alternativesOf A, P b := by
  simp only [mem_alternativesOf]
  constructor
  · rintro h A b ⟨r, hr, -, hb⟩
    exact h r hr b hb
  · exact fun h r hr b hb => h r.lhs b ⟨r, hr, rfl, hb⟩

/-! ## Refusal before bodies are read -/

/-- The other left sides and the declared terminals. -/
def otherSymbols (l : Listing) (A : Symbol) : List Symbol :=
  (distinct l.leftSides).filter (· ≠ A) ++ l.terminals.getD []

/-- Two symbols or more into which a left side splits. -/
def parts? (l : Listing) (A : Symbol) : Option Body :=
  (split? (l.otherSymbols A) false A.toList).filter fun parts => 2 ≤ parts.length

theorem compound?_eq (r : RuleLine) : l.compound? r =
    (l.parts? r.lhs).map fun parts => .leftSide (.compound r.line r.lhs parts) := by
  unfold compound? parts? otherSymbols
  dsimp only
  generalize split? ((distinct l.leftSides).filter (· ≠ r.lhs) ++ l.terminals.getD []) false
    r.lhs.toList = found
  match found with
  | none | some [] | some [_] | some (_ :: _ :: _) => rfl

/-- What is wrong with the left sides. -/
def refusal? (l : Listing) : Option GrammarError :=
  if l.nonterminals.isNone && l.isCompact then l.rules.findSome? l.compound? else none

theorem kind_of_refusal? {e : GrammarError} (h : l.refusal? = some e) : e.kind = "UnsupportedShape" := by
  unfold refusal? at h
  split at h
  · obtain ⟨r, -, hr⟩ := List.exists_of_findSome?_eq_some h
    rw [compound?_eq] at hr
    obtain ⟨parts, -, rfl⟩ := Option.map_eq_some_iff.mp hr
    rfl
  · cases h

theorem isSome_refusal?_iff : l.refusal?.isSome = true ↔ l.nonterminals = none ∧ l.isCompact = true ∧
    ∃ A ∈ l.leftSides, (l.parts? A).isSome = true := by
  unfold refusal? leftSides
  split
  · rename_i h
    obtain ⟨hnone, hcompact⟩ := Bool.and_eq_true_iff.mp h
    simp [Option.isNone_iff_eq_none.mp hnone, hcompact, List.findSome?_isSome_iff, compound?_eq]
  · rename_i h
    rw [Bool.and_eq_true_iff, Option.isNone_iff_eq_none] at h
    simp only [Option.isSome_none, Bool.false_eq_true, false_iff]
    exact fun hall => h ⟨hall.1, hall.2.1⟩

/-! ## Bodies -/

/-- The body that an alternative is read as. -/
def bodyOf? (l : Listing) (written : String) : Option Body :=
  if written ∈ emptySpellings then some []
  else if written.contains ' ' || written.contains '\t' then
    some ((words written.toList).map String.ofList)
  else split? l.knownSymbols l.terminals.isNone written.toList

theorem readBody_of_bodyOf? {written : String} {b : Body} (h : l.bodyOf? written = some b) (line : Nat) :
    l.readBody line written = .ok b := by
  unfold bodyOf? at h
  unfold readBody
  split at h
  · cases h
    exact if_pos ‹_›
  · rw [if_neg ‹_›]
    split at h
    · cases h
      exact if_pos ‹_›
    · rw [if_neg ‹_›, h]

theorem readBody_of_bodyOf?_eq_none {written : String} (h : l.bodyOf? written = none) (line : Nat) :
    l.readBody line written = .error (.malformed (.unsplittableOnLine line written)) := by
  unfold bodyOf? at h
  unfold readBody
  split at h
  · cases h
  · rw [if_neg ‹_›]
    split at h
    · cases h
    · rw [if_neg ‹_›, h]

/-- The body that an alternative is read as, if it can be read. -/
def bodyOf (l : Listing) (written : String) : Body := (l.bodyOf? written).getD []

/-- Every alternative can be read. -/
def Readable (l : Listing) : Prop := ∀ A, ∀ b ∈ l.alternativesOf A, l.bodyOf? b ≠ none

theorem mapM_readBody {alts : List String} (h : ∀ b ∈ alts, l.bodyOf? b ≠ none) (line : Nat) :
    alts.mapM (l.readBody line) = .ok (alts.map l.bodyOf) := by
  apply mapM_eq_ok_map
  intro b hb
  obtain ⟨body, hbody⟩ := Option.ne_none_iff_exists'.mp (h b hb)
  rw [readBody_of_bodyOf? hbody, bodyOf, hbody, Option.getD_some]

theorem mapM_readBody_eq_error {alts : List String} (h : ¬ ∀ b ∈ alts, l.bodyOf? b ≠ none) (line : Nat) :
    ∃ e, alts.mapM (l.readBody line) = .error e ∧ ∃ cause, e = .malformed cause := by
  obtain ⟨b, hb, hnone⟩ : ∃ b ∈ alts, l.bodyOf? b = none := by simpa using h
  refine exists_mapM_eq_error ⟨b, hb, _, readBody_of_bodyOf?_eq_none hnone line⟩ fun b _ e he => ?_
  cases hbody : l.bodyOf? b with
  | some body =>
    rw [readBody_of_bodyOf? hbody] at he
    cases he
  | none =>
    rw [readBody_of_bodyOf?_eq_none hbody] at he
    cases he
    exact ⟨_, rfl⟩

theorem readBodies_of_readable (h : l.Readable) :
    l.readBodies = .ok (l.rules.map fun r => (r.lhs, r.alternatives.map l.bodyOf)) := by
  apply mapM_eq_ok_map
  intro r hr
  rw [mapM_readBody (forall_rules_iff.mpr h r hr)]
  rfl

theorem readBodies_of_not_readable (h : ¬ l.Readable) :
    ∃ e, l.readBodies = .error e ∧ ∃ cause, e = .malformed cause := by
  have hrule (r : RuleLine) (hr : ¬ ∀ b ∈ r.alternatives, l.bodyOf? b ≠ none) :
      ∃ e, (do return (r.lhs, ← r.alternatives.mapM (l.readBody r.line)) : Except GrammarError _) =
        .error e ∧ ∃ cause, e = .malformed cause := by
    obtain ⟨e, he, hcause⟩ := mapM_readBody_eq_error hr r.line
    exact ⟨e, by rw [he]; rfl, hcause⟩
  rw [Readable, ← forall_rules_iff] at h
  obtain ⟨r, hr, hbad⟩ : ∃ r ∈ l.rules, ¬ ∀ b ∈ r.alternatives, l.bodyOf? b ≠ none := by simpa using h
  obtain ⟨e, he, -⟩ := hrule r hbad
  refine exists_mapM_eq_error ⟨r, hr, e, he⟩ fun r _ e he => ?_
  by_cases hgood : ∀ b ∈ r.alternatives, l.bodyOf? b ≠ none
  · rw [mapM_readBody hgood] at he
    cases he
  · obtain ⟨e', he', hcause⟩ := hrule r hgood
    rw [he] at he'
    cases he'
    exact hcause

theorem grouped_rules (l : Listing) (f : String → Body) :
    grouped (l.rules.map fun r => (r.lhs, r.alternatives.map f)) =
      (distinct l.leftSides).map fun A => (A, (l.alternativesOf A).map f) := by
  unfold grouped leftSides alternativesOf
  rw [List.map_map]
  apply List.map_congr_left
  intro A _
  rw [List.filter_map, List.flatMap_map, List.map_flatMap]
  rfl

/-- The grammar with the given bodies. -/
def createFrom (l : Listing) (rules : List (Symbol × List Body)) (start : Option Symbol) :
    Except GrammarError Grammar :=
  Grammar.create l.declaredNonterminals (l.terminals.getD (l.inferredTerminals rules))
    (rules.map fun r => (r.1, r.2.map .symbols)) (start.getD l.startSymbol)

/-- Rules there have to be, then left sides are looked at, then bodies. -/
theorem toGrammar_eq (l : Listing) (start : Option Symbol) : l.toGrammar start =
    if l.rules = [] then .error (.malformed .noProductions)
    else match l.refusal? with
      | some e => .error e
      | none => l.readBodies >>= fun bodies => l.createFrom (grouped bodies) start := by
  unfold toGrammar refusal? createFrom
  cases hrules : l.rules with
  | nil => rfl
  | cons r rules =>
    rw [if_neg (List.cons_ne_nil r rules)]
    split
    · cases (r :: rules).findSome? l.compound? <;> rfl
    · rfl

/-! ## What grouping keeps -/

namespace Alike

variable (h : l.Alike l')

include h

theorem rules_eq_nil_iff : l.rules = [] ↔ l'.rules = [] := by
  have hnil (l : Listing) : l.rules = [] ↔ distinct l.leftSides = [] := by
    rw [Listing.leftSides]
    cases l.rules <;> simp [distinct]
  rw [hnil l, hnil l', h.leftSides]

theorem mem_leftSides : A ∈ l.leftSides ↔ A ∈ l'.leftSides := by
  rw [← mem_distinct, h.leftSides, mem_distinct]

theorem isCompact : l.isCompact = l'.isCompact := by
  have hcompact (l : Listing) : l.isCompact = true ↔ ∀ A, ∀ b ∈ l.alternativesOf A,
      (!b.contains ' ' && !b.contains '\t') = true := by
    rw [← forall_rules_iff]
    simp only [Listing.isCompact, List.all_eq_true]
  rw [Bool.eq_iff_iff, hcompact l, hcompact l']
  simp only [h.alternatives]

theorem nonterminals : l.nonterminals = l'.nonterminals := h.given .nonterminals

theorem terminals : l.terminals = l'.terminals := h.given .terminals

theorem parts? (A : Symbol) : l.parts? A = l'.parts? A := by
  rw [Listing.parts?, Listing.parts?, otherSymbols, otherSymbols, h.leftSides, h.terminals]

theorem isSome_refusal? : l.refusal?.isSome = l'.refusal?.isSome := by
  rw [Bool.eq_iff_iff, isSome_refusal?_iff, isSome_refusal?_iff, h.nonterminals, h.isCompact]
  simp only [h.mem_leftSides, h.parts?]

theorem declaredNonterminals :
    distinct l.declaredNonterminals = distinct l'.declaredNonterminals := by
  rw [Listing.declaredNonterminals, Listing.declaredNonterminals, h.nonterminals]
  cases l'.nonterminals with
  | none => exact h.leftSides
  | some nts => rfl

theorem bodyOf? : l.bodyOf? = l'.bodyOf? := by
  funext written
  unfold Listing.bodyOf? knownSymbols
  rw [h.declaredNonterminals, h.terminals]

theorem readable : l.Readable ↔ l'.Readable := by
  unfold Readable
  rw [h.bodyOf?]
  simp only [h.alternatives]

theorem startSymbol : l.startSymbol = l'.startSymbol := by
  have hstart : l.start = l'.start := h.given .start
  unfold Listing.startSymbol
  rw [hstart, List.head?_append, List.head?_append, ← head?_distinct l.leftSides, h.leftSides,
    head?_distinct]

theorem createFrom (rules : List (Symbol × List Body)) (start : Option Symbol) :
    l.createFrom rules start = l'.createFrom rules start := by
  have hinferred : l.inferredTerminals rules = l'.inferredTerminals rules := by
    apply List.filter_congr
    intro s _
    have hmem : s ∈ l.declaredNonterminals ↔ s ∈ l'.declaredNonterminals := by
      rw [← mem_distinct, h.declaredNonterminals, mem_distinct]
    simp [hmem]
  unfold Listing.createFrom
  rw [h.startSymbol, h.terminals, hinferred]
  exact Grammar.create_congr h.declaredNonterminals _ _ _

/-- The bodies are grouped alike, or neither can be read. -/
theorem bind_readBodies (start : Option Symbol) :
    (l.readBodies >>= fun bodies => l.createFrom (grouped bodies) start).mapError GrammarError.kind =
    (l'.readBodies >>= fun bodies => l'.createFrom (grouped bodies) start).mapError
      GrammarError.kind := by
  by_cases hread : l.Readable
  · have hbodyOf : l.bodyOf = l'.bodyOf := by
      funext b
      rw [bodyOf, bodyOf, h.bodyOf?]
    rw [readBodies_of_readable hread, readBodies_of_readable (h.readable.mp hread)]
    simp only [bind, Except.bind, grouped_rules, h.leftSides, h.alternatives, hbodyOf, h.createFrom]
  · obtain ⟨_, he, cause, rfl⟩ := readBodies_of_not_readable hread
    obtain ⟨_, he', cause', rfl⟩ := readBodies_of_not_readable (h.readable.not.mp hread)
    rw [he, he']
    rfl

theorem toGrammar (start : Option Symbol) :
    (l.toGrammar start).mapError GrammarError.kind = (l'.toGrammar start).mapError GrammarError.kind := by
  rw [toGrammar_eq, toGrammar_eq]
  by_cases hrules : l.rules = []
  · rw [if_pos hrules, if_pos (h.rules_eq_nil_iff.mp hrules)]
  · rw [if_neg hrules, if_neg (h.rules_eq_nil_iff.not.mp hrules)]
    have hrefusal := h.isSome_refusal?
    cases hl : l.refusal? with
    | none =>
      have hl' : l'.refusal? = none := by
        rw [← Option.not_isSome_iff_eq_none, ← hrefusal, hl]
        exact Bool.false_ne_true
      rw [hl']
      exact h.bind_readBodies start
    | some e =>
      rw [hl] at hrefusal
      obtain ⟨e', hl'⟩ := Option.isSome_iff_exists.mp hrefusal.symm
      rw [hl']
      exact congrArg Except.error ((kind_of_refusal? hl).trans (kind_of_refusal? hl').symm)

end Alike

end Listing

/-! ## Texts -/

/-- The same left sides in the order in which they come up, each with the same alternatives, and the same
last directives. -/
structure SameGroups (said said' : List Line) : Prop where
  leftSides : distinct (Line.leftSides said) = distinct (Line.leftSides said')
  alternatives : ∀ A, Line.alternatives said A = Line.alternatives said' A
  directives : ∀ d, Line.lastOf? said d = Line.lastOf? said' d

/-- A line that says nothing comes in, a directive moves down past lines that do not repeat it, or the next
line of a left side is joined to the one before. -/
inductive Rearranges : List Line → List Line → Prop
  | skip (before after : List Line) : Rearranges (before ++ after) (before ++ .skipped :: after)
  | move (before between after : List Line) (d : Directive) (arguments : List Symbol)
      (h : ∀ read ∈ between, read.argumentsOf? d = none) :
      Rearranges (before ++ .directive d arguments :: (between ++ after))
        (before ++ (between ++ .directive d arguments :: after))
  | join (before between after : List Line) (A : Symbol) (first second : List String)
      (h : ∀ read ∈ between, read.leftSide? ≠ some A) :
      Rearranges (before ++ .rule A first :: (between ++ .rule A second :: after))
        (before ++ .rule A (first ++ second) :: (between ++ after))

namespace SameGroups

theorem refl (said : List Line) : SameGroups said said := ⟨rfl, fun _ => rfl, fun _ => rfl⟩

theorem symm (h : SameGroups said said') : SameGroups said' said :=
  ⟨h.leftSides.symm, fun A => (h.alternatives A).symm, fun d => (h.directives d).symm⟩

theorem trans {said'' : List Line} (h : SameGroups said said') (h' : SameGroups said' said'') :
    SameGroups said said'' where
  leftSides := h.leftSides.trans h'.leftSides
  alternatives A := (h.alternatives A).trans (h'.alternatives A)
  directives d := (h.directives d).trans (h'.directives d)

theorem of_move {before between after : List Line} {d : Directive} {arguments : List Symbol}
    (h : ∀ read ∈ between, read.argumentsOf? d = none) :
    SameGroups (before ++ .directive d arguments :: (between ++ after))
      (before ++ (between ++ .directive d arguments :: after)) where
  leftSides := by simp
  alternatives A := by simp [Line.alternativesOf]
  directives d' := by
    by_cases hd : d = d'
    · have hnone : Line.lastOf? between d' = none := by
        rw [Line.lastOf?, List.filterMap_eq_nil_iff.mpr (hd ▸ h), List.getLast?_nil]
      simp [hnone]
    · simp [Line.argumentsOf?, hd]

theorem of_join {before between after : List Line} {A : Symbol} {first second : List String}
    (h : ∀ read ∈ between, read.leftSide? ≠ some A) :
    SameGroups (before ++ .rule A first :: (between ++ .rule A second :: after))
      (before ++ .rule A (first ++ second) :: (between ++ after)) where
  leftSides := by
    have hearlier : A ∈ Line.leftSides before ++ A :: Line.leftSides between := by simp
    simpa using distinct_append_cons hearlier (Line.leftSides after)
  alternatives B := by
    by_cases hB : A = B
    · have hnone : Line.alternatives between B = [] := by
        apply List.flatMap_eq_nil_iff.mpr
        intro read hread
        have hother := h read hread
        cases read with
        | rule lhs alts => exact if_neg fun hlhs => hother (by rw [Line.leftSide?, hlhs, hB])
        | _ => rfl
      simp [hB, hnone, Line.alternativesOf]
    · simp [hB, Line.alternativesOf]
  directives d := by simp [Line.argumentsOf?]

end SameGroups

theorem Rearranges.sameGroups (h : Rearranges said said') : SameGroups said said' := by
  cases h with
  | skip before after =>
    constructor
    · simp
    · simp [Line.alternativesOf]
    · simp [Line.argumentsOf?]
  | move before between after d arguments h => exact .of_move h
  | join before between after A first second h => exact .of_join h

theorem sameGroups_of_eqvGen (h : Relation.EqvGen Rearranges said said') : SameGroups said said' := by
  induction h with
  | rel _ _ h => exact h.sameGroups
  | refl said => exact .refl said
  | symm _ _ _ ih => exact ih.symm
  | trans _ _ _ _ _ ih ih' => exact ih.trans ih'

namespace Listing

theorem Records.alternativesOf (h : l.Records said) (A : Symbol) :
    l.alternativesOf A = Line.alternatives said A := by
  rw [Listing.alternativesOf, h.rules, Line.alternatives_ruleLines]

theorem Records.alike (h : l.Records said) (h' : l'.Records said') (hsame : SameGroups said said') :
    l.Alike l' where
  leftSides := by rw [h.leftSides, h'.leftSides, hsame.leftSides]
  alternatives A := by rw [h.alternativesOf, h'.alternativesOf, hsame.alternatives]
  given d := by rw [h.given, h'.given, hsame.directives]

end Listing

namespace Grammar

theorem parse_of_read (h : Listing.read text = .ok l) : parse text start = l.toGrammar start := by
  rw [parse, h]
  rfl

theorem parse_of_sameGroups (htext : TextSays text said) (htext' : TextSays text' said')
    (h : SameGroups said said') (start : Option Symbol) :
    (parse text start).mapError GrammarError.kind = (parse text' start).mapError GrammarError.kind := by
  obtain ⟨l, hl, hrecords⟩ := Listing.read_of_textSays htext
  obtain ⟨l', hl', hrecords'⟩ := Listing.read_of_textSays htext'
  rw [parse_of_read hl, parse_of_read hl']
  exact (hrecords.alike hrecords' h).toGrammar start

/-- **A text counts by its groups.** Two texts of lines that are in order describe the same grammar, or are
refused for the same kind of error, if they have the same groups, and so if one is a rearrangement of the
other. -/
theorem parse_grouped (htext : TextSays text said) (htext' : TextSays text' said')
    (start : Option Symbol) :
    (SameGroups said said' → (parse text start).mapError GrammarError.kind =
      (parse text' start).mapError GrammarError.kind) ∧
    (Relation.EqvGen Rearranges said said' → (parse text start).mapError GrammarError.kind =
      (parse text' start).mapError GrammarError.kind) :=
  ⟨fun h => parse_of_sameGroups htext htext' h start,
    fun h => parse_of_sameGroups htext htext' (sameGroups_of_eqvGen h) start⟩

def scatteredText : String := "S -> A\nA -> b\nS -> c A\n%start S"

def scattered : List Line :=
  [.rule "S" ["A"], .rule "A" ["b"], .rule "S" ["c A"], .directive .start ["S"]]

def gatheredText : String := "%start S\n# sums\nS -> A | c A\nA -> b"

def gathered : List Line :=
  [.directive .start ["S"], .skipped, .rule "S" ["A", "c A"], .rule "A" ["b"]]

/-- The directive moves to the top, the two lines of `S` are joined, and a comment comes in. -/
theorem eqvGen_scattered : Relation.EqvGen Rearranges scattered gathered := by
  have hmove : Rearranges (.directive .start ["S"] :: scattered.take 3) scattered :=
    .move [] (scattered.take 3) [] .start ["S"] (by decide)
  have hjoin : Rearranges (.directive .start ["S"] :: scattered.take 3)
      [.directive .start ["S"], .rule "S" ["A", "c A"], .rule "A" ["b"]] :=
    .join [.directive .start ["S"]] [.rule "A" ["b"]] [] "S" ["A"] ["c A"] (by decide)
  have hskip : Rearranges [.directive .start ["S"], .rule "S" ["A", "c A"], .rule "A" ["b"]] gathered :=
    .skip [.directive .start ["S"]] _
  exact .trans _ _ _ (.symm _ _ (.rel _ _ hmove)) (.trans _ _ _ (.rel _ _ hjoin) (.rel _ _ hskip))

theorem parse_grouped_scattered :
    TextSays scatteredText scattered ∧ TextSays gatheredText gathered ∧
    SameGroups scattered gathered ∧ Relation.EqvGen Rearranges scattered gathered ∧
    (parse scatteredText none).mapError GrammarError.kind =
      (parse gatheredText none).mapError GrammarError.kind := by
  have hscattered : TextSays scatteredText scattered := textSays_iff.mpr rfl
  have hgathered : TextSays gatheredText gathered := textSays_iff.mpr rfl
  have hsame : SameGroups scattered gathered := sameGroups_of_eqvGen eqvGen_scattered
  exact ⟨hscattered, hgathered, hsame, eqvGen_scattered, (parse_grouped hscattered hgathered none).1 hsame⟩

end Grammar

end ContextFree
