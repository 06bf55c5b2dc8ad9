import ContextFree.Symbol.Basic
import ContextFree.Text.Quoted

/-!
What can be wrong with a grammar, and the message for each cause. Line numbers count from one.
-/
namespace ContextFree

/-- A definition that breaks a rule of grammars. -/
inductive Malformed where
  | unsplittable (text : String)
  | unsplittableOnLine (line : Nat) (text : String)
  | sharedSymbols (symbols : List Symbol)
  | undeclaredStart (start : Symbol)
  | undeclaredLeftSide (lhs : Symbol)
  | undeclaredSymbol (lhs : Symbol) (body : Body) (symbol : Symbol)
  | notARule (line : Nat) (text : String)
  | emptyAlternative (line : Nat)
  | noProductions
  deriving DecidableEq

/-- A left side that is not a single non-terminal. -/
inductive BadLeftSide where
  | terminal (lhs : Symbol)
  | severalSymbols (lhs : Symbol)
  | severalWords (line : Nat) (lhs : Symbol)
  | compound (line : Nat) (lhs : Symbol) (parts : Body)
  deriving DecidableEq

inductive GrammarError where
  | malformed (cause : Malformed)
  | leftSide (cause : BadLeftSide)
  /-- The rounds allowed to an analysis are used up before it has settled. -/
  | unsettled (stage : String) (limit : Int)
  /-- The end of a conversion is not in normal form. -/
  | notInNormalForm
  deriving DecidableEq

open Text

def onLine (line : Nat) (message : String) : String := "line " ++ toString line ++ ": " ++ message

def spaced (body : Body) : String := " ".intercalate body

def cannotSplit (text : String) : String :=
  "cannot split body " ++ quoted text ++ " into declared symbols"

def notSingle (lhs : Symbol) : String :=
  "left side " ++ quoted lhs ++ " is not a single non-terminal"

def Malformed.message : Malformed → String
  | unsplittable text => cannotSplit text
  | unsplittableOnLine line text => onLine line (cannotSplit text)
  | sharedSymbols symbols => "symbols declared both terminal and non-terminal: " ++ quotedList symbols
  | undeclaredStart start => "start symbol " ++ quoted start ++ " is not a non-terminal"
  | undeclaredLeftSide lhs => "rule for undeclared non-terminal " ++ quoted lhs
  | undeclaredSymbol lhs body symbol =>
    lhs ++ " -> " ++ spaced body ++ ": undeclared symbol " ++ quoted symbol
  | notARule line text => onLine line ("invalid rule " ++ quoted text)
  | emptyAlternative line =>
    onLine line "empty alternative (write 'ε' for the empty production)"
  | noProductions => "no productions found"

def BadLeftSide.message : BadLeftSide → String
  | terminal lhs => "left side " ++ quoted lhs ++ " is a terminal"
  | severalSymbols lhs => notSingle lhs
  | severalWords line lhs => onLine line (notSingle lhs)
  | compound line lhs parts => onLine line (notSingle lhs ++ " (" ++ spaced parts ++ ")")

def GrammarError.message : GrammarError → String
  | malformed cause => cause.message
  | leftSide cause => cause.message
  | unsettled stage limit => stage ++ ": no fixpoint after " ++ toString limit ++ " rounds"
  | notInNormalForm => "internal error: conversion result is not in CNF"

/-- The name of the kind of error, as it is shown beside the message. -/
def GrammarError.kind : GrammarError → String
  | malformed _ => "MalformedGrammar"
  | leftSide _ => "UnsupportedShape"
  | unsettled _ _ => "NonTerminationError"
  | notInNormalForm => "GrammarError"

end ContextFree
