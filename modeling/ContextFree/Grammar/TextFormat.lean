import ContextFree.Grammar.Create
import ContextFree.Text.WordCharacter

/-!
The text format of grammars: one rule per line, alternatives between bars.

    S -> a B | A B
    A -> d | ε

A line that is blank or starts with `#` is skipped, and a line that starts with `%start`, `%nonterminals`
or `%terminals` is a directive, the last of each name being the one that counts. The left sides are the
non-terminals and the first of them is the start, unless directives say otherwise. A body with a space or
a tab is split at blanks, any other body into the longest known symbols; unless the terminals are
declared, a character that fits no known symbol is a terminal, and so is every body symbol that is no
left side. Where no body of the text is separated, a left side that splits into other left sides and
declared terminals is refused.
-/
namespace ContextFree

open Text

inductive Directive where
  | start
  | nonterminals
  | terminals
  deriving DecidableEq

def Directive.name : Directive → String
  | .start => "start"
  | .nonterminals => "nonterminals"
  | .terminals => "terminals"

/-- A rule line: where it stands, its left side, and its alternatives as they are written. -/
structure RuleLine where
  line : Nat
  lhs : Symbol
  alternatives : List String
  deriving DecidableEq

inductive Line where
  | skipped
  | directive (directive : Directive) (arguments : List Symbol)
  | rule (lhs : Symbol) (alternatives : List String)
  deriving DecidableEq

/-- What follows the arrow that `cs` starts with, blanks before it aside. -/
def afterArrow? (cs : List Char) : Option (List Char) :=
  match skipBlanks cs with
  | '-' :: '>' :: rest => some rest
  | '→' :: rest => some rest
  | _ => none

/-- The least beginning of `cs` that ends in a character that is not blank and is followed by an arrow,
and what follows the arrow. -/
def cutAtArrow? : List Char → Option (List Char × List Char)
  | [] => none
  | c :: cs =>
    match afterArrow? cs, isBlank c with
    | some rest, false => some ([c], rest)
    | _, _ => (cutAtArrow? cs).map fun (lhs, rest) => (c :: lhs, rest)

/-- A rule line cut into its left side and its body. Left sides of two and more characters are tried
first, from the shortest on, so the cut is at the first arrow unless the left side is a single character
and a further arrow follows. -/
def cutRule? (line : List Char) : Option (List Char × List Char) :=
  match skipBlanks line with
  | [] => none
  | c :: cs =>
    match cutAtArrow? cs with
    | some (lhs, rest) => some (c :: lhs, rest)
    | none => (afterArrow? cs).map ([c], ·)

/-- The rest of `cs` after `name`, if `name` ends there as a word. -/
def afterWord? (name : String) (cs : List Char) : Option (List Char) :=
  if name.toList.isPrefixOf cs then
    let rest := cs.drop name.length
    if rest.head?.any isWordCharacter then none else some rest
  else none

def directive? (line : List Char) : Option (Directive × List Symbol) :=
  match skipBlanks line with
  | '%' :: cs =>
    [Directive.start, .nonterminals, .terminals].findSome? fun d =>
      (afterWord? d.name cs).map fun rest => (d, (words rest).map String.ofList)
  | _ => none

/-- The line with number `number`. -/
def Line.read (number : Nat) (line : List Char) : Except GrammarError Line :=
  if skipBlanks line = [] ∨ (skipBlanks line).head? = some '#' then .ok .skipped
  else match directive? line, cutRule? line with
    | some (d, arguments), _ => .ok (.directive d arguments)
    | none, none => .error (.malformed (.notARule number (String.ofList line)))
    | none, some (lhs, rest) =>
      let alternatives := (pieces '|' rest).map strip
      if 1 < (words lhs).length then .error (.leftSide (.severalWords number (String.ofList lhs)))
      else if alternatives.contains [] then .error (.malformed (.emptyAlternative number))
      else .ok (.rule (String.ofList lhs) (alternatives.map String.ofList))

/-- What the lines of a text say, taken together. -/
structure Listing where
  rules : List RuleLine
  start : Option (List Symbol)
  nonterminals : Option (List Symbol)
  terminals : Option (List Symbol)
  deriving DecidableEq

namespace Listing

def empty : Listing := ⟨[], none, none, none⟩

def add (l : Listing) (number : Nat) : Line → Listing
  | .skipped => l
  | .directive .start arguments => { l with start := some arguments }
  | .directive .nonterminals arguments => { l with nonterminals := some arguments }
  | .directive .terminals arguments => { l with terminals := some arguments }
  | .rule lhs alternatives => { l with rules := l.rules ++ [⟨number, lhs, alternatives⟩] }

def readFrom (l : Listing) (number : Nat) : List (List Char) → Except GrammarError Listing
  | [] => .ok l
  | line :: rest =>
    match Line.read number line with
    | .ok read => readFrom (l.add number read) (number + 1) rest
    | .error e => .error e

def read (text : String) : Except GrammarError Listing := readFrom empty 1 (lines text.toList)

def leftSides (l : Listing) : List Symbol := l.rules.map (·.lhs)

/-- Whether no body separates its symbols. -/
def isCompact (l : Listing) : Bool :=
  l.rules.all fun r => r.alternatives.all fun b => !b.contains ' ' && !b.contains '\t'

/-- The left side `r` as several of the other left sides and the declared terminals. -/
def compound? (l : Listing) (r : RuleLine) : Option GrammarError :=
  let others := (distinct l.leftSides).filter (· ≠ r.lhs) ++ l.terminals.getD []
  match split? others false r.lhs.toList with
  | some (s :: t :: rest) => some (.leftSide (.compound r.line r.lhs (s :: t :: rest)))
  | _ => none

def declaredNonterminals (l : Listing) : List Symbol := l.nonterminals.getD l.leftSides

/-- The symbols that a body without separators may hold. -/
def knownSymbols (l : Listing) : List Symbol :=
  distinct l.declaredNonterminals ++ l.terminals.getD []

def readBody (l : Listing) (line : Nat) (written : String) : Except GrammarError Body :=
  if written ∈ emptySpellings then .ok []
  else if written.contains ' ' || written.contains '\t' then
    .ok ((words written.toList).map String.ofList)
  else match split? l.knownSymbols l.terminals.isNone written.toList with
    | some body => .ok body
    | none => .error (.malformed (.unsplittableOnLine line written))

/-- The bodies of each rule line. -/
def readBodies (l : Listing) : Except GrammarError (List (Symbol × List Body)) :=
  l.rules.mapM fun r => do return (r.lhs, ← r.alternatives.mapM (l.readBody r.line))

/-- The bodies of each left side, left sides in the order of their first rule line. -/
def grouped (bodies : List (Symbol × List Body)) : List (Symbol × List Body) :=
  (distinct (bodies.map Prod.fst)).map fun A => (A, (bodies.filter (·.1 = A)).flatMap Prod.snd)

/-- Every body symbol that is no non-terminal. -/
def inferredTerminals (l : Listing) (rules : List (Symbol × List Body)) : List Symbol :=
  (rules.flatMap fun r => r.2.flatten).filter (· ∉ l.declaredNonterminals)

def startSymbol (l : Listing) : Symbol :=
  (((l.start.getD []) ++ l.leftSides).head?).getD ""

def toGrammar (l : Listing) (start : Option Symbol) : Except GrammarError Grammar := do
  if l.rules.isEmpty then throw (.malformed .noProductions)
  if l.nonterminals.isNone && l.isCompact then
    match l.rules.findSome? l.compound? with
    | some e => throw e
    | none => pure ()
  let rules := grouped (← l.readBodies)
  Grammar.create l.declaredNonterminals (l.terminals.getD (l.inferredTerminals rules))
    (rules.map fun r => (r.1, r.2.map .symbols)) (start.getD l.startSymbol)

end Listing

/-- The grammar that a text describes. A given start takes the place of the text's own. -/
def Grammar.parse (text : String) (start : Option Symbol) : Except GrammarError Grammar := do
  (← Listing.read text).toGrammar start

end ContextFree
