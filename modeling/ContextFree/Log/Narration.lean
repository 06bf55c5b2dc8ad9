import ContextFree.Log.Record
import ContextFree.NormalForm.Conversion
import ContextFree.Grammar.Render
import ContextFree.Words

/-!
What is put on record about a grammar that is read, converted or enumerated. The records of a conversion
are told from its stages, in the order in which these were computed.
-/
namespace ContextFree

open Log Text

namespace Log

def parserLogger : String := "cnf_normalizer.parser"

def simplifyLogger : String := "cnf_normalizer.simplify"

def conversionLogger : String := "cnf_normalizer.cnf"

def supplyLogger : String := "cnf_normalizer.allocator"

def analysisLogger : String := "cnf_normalizer.analysis"

/-- The record of a grammar that has been read. -/
def ofParsed (g : Grammar) : Record :=
  ⟨parserLogger, info, "Parsed grammar with " ++ toString g.nonterminals.length
    ++ " non-terminals and " ++ toString g.productionCount ++ " productions"⟩

def ofWords (words : List Word) (bound : Int) : Record :=
  ⟨analysisLogger, debug, toString words.length ++ " strings of length <= " ++ toString bound⟩

def ofAllocation (name : Symbol) : Record :=
  ⟨supplyLogger, debug, "Allocated non-terminal " ++ name⟩

/-- How a stage changed the number of productions. -/
def ofCounts (stage : String) (before after : Grammar) : Record :=
  ⟨simplifyLogger, info, stage ++ ": " ++ toString before.productionCount ++ " -> "
    ++ toString after.productionCount ++ " productions"⟩

/-- The record of dropped non-terminals, if there are any. -/
def ofDropped (quality : String) (dropped : List Symbol) : List Record :=
  if dropped = [] then []
  else [⟨simplifyLogger, info, "Removing " ++ quality ++ " non-terminals: " ++ quotedList dropped⟩]

def ofEpsilon (nullable : List Symbol) (before after : Grammar) : List Record :=
  [⟨simplifyLogger, debug, "Nullable symbols: " ++ quotedList (sortedSymbols nullable)⟩,
    ofCounts "ε-elimination" before after]

def ofUnits (pairs : UnitPairs) (before after : Grammar) : List Record :=
  let closures := (before.nonterminals.filter (before.rules.keys.contains ·)).filterMap fun A =>
    let reached := pairs.reachedFrom A
    if 1 < reached.length then
      some ⟨simplifyLogger, debug,
        "Unit closure(" ++ A ++ ") = " ++ quotedList (sortedSymbols reached)⟩
    else none
  closures ++ [ofCounts "Unit elimination" before after]

def ofUnreachable (g : Grammar) : List Record :=
  ofDropped "unreachable" (g.dropped g.reachable.contains)

def ofUnproductive (g : Grammar) (productive : List Symbol) : List Record :=
  let emptied :=
    if productive.contains g.start then []
    else [⟨simplifyLogger, warning,
      "Start symbol " ++ g.start ++ " is not productive; the language is empty"⟩]
  emptied ++ ofDropped "unproductive" (g.dropped (g.staysProductive productive))

def ofReshaping (r : Reshaping) : List Record :=
  let made := r.helpers.flatMap fun (body, name) =>
    [ofAllocation name,
      ⟨conversionLogger, debug, "Helper " ++ name ++ " -> " ++ spaced body⟩]
  let pairs := (r.helpers.filter fun h => h.1.length = 2).length
  made ++ [⟨conversionLogger, info, "Reshape: " ++ toString pairs ++ " pair helpers, "
    ++ toString (r.helpers.length - pairs) ++ " terminal helpers"⟩]

def ofStep (step : String × Grammar) : Record :=
  ⟨conversionLogger, debug, step.1 ++ ":\n" ++ step.2.render⟩

def ofPruned (shaped : Grammar) (p : Pruned) : List Record :=
  ofUnreachable shaped ++ ofUnproductive p.reached p.productive ++ ofUnreachable p.fruitful

/-- What became of the empty word. -/
def ofStartEpsilon (s : Stages) (keep : Bool) (result : Grammar) : List Record :=
  let start := s.pruned.result.start
  if !s.startIsNullable then []
  else if !keep then
    [⟨conversionLogger, info,
      "Start symbol " ++ s.source.start ++ " is nullable; the empty string is dropped"⟩]
  else if s.pruned.result.startOccurs then
    [ofAllocation result.start,
      ⟨conversionLogger, info,
        "Start symbol " ++ start ++ " occurs in a body; new start " ++ result.start⟩]
  else []

/-- The records of a conversion. -/
def ofConversion (policy : Policy) (c : Conversion) : List Record :=
  match c, c.steps.map ofStep with
  | .staged s result, [step1, step2, step3, step4, step5] =>
    ofEpsilon s.nullable s.source s.epsilonFree ++ [step1]
      ++ ofUnits s.unitPairs s.epsilonFree s.unitFree ++ [step2]
      ++ ofUnreachable s.unitFree ++ [step3]
      ++ ofUnproductive s.reached s.productive ++ [step4]
      ++ ofReshaping s.reshaping ++ [step5]
      ++ ofPruned s.shaped s.pruned
      ++ ofStartEpsilon s policy.keepStartEpsilon result
      ++ [⟨conversionLogger, info, "CNF grammar: " ++ toString result.nonterminals.length
        ++ " non-terminals, " ++ toString result.productionCount ++ " productions"⟩]
  | _, _ => [⟨conversionLogger, info, "Grammar already in CNF"⟩]

end Log

end ContextFree
