import ContextFree.Symbol.Basic

/-!
Bodies written without separators. At each place the longest symbol that leaves a splittable rest is
taken, and among symbols of one length, which cannot both match, none is preferred. `splits` works from
the end of the text, so that every rest is split once.
-/
namespace ContextFree

/-- The longer symbol comes first; symbols of one length are in increasing order. -/
def longerFirst (a b : Symbol) : Bool :=
  if a.length = b.length then decide (a ≤ b) else decide (b.length < a.length)

/-- The symbols that a split may use, in the order in which they are tried. -/
def candidates (symbols : List Symbol) : List Symbol :=
  ((distinct symbols).filter (· ≠ "")).mergeSort longerFirst

/-- The first candidate that starts `text` and leaves a rest with a split; `later` holds the splits of
the rests of `text` after one character, after two, and so on. -/
def takeSymbol (text : List Char) (later : List (Option Body)) : List Symbol → Option Body
  | [] => none
  | s :: rest =>
    match s.toList.isPrefixOf text, (later[s.length - 1]?).join with
    | true, some body => some (s :: body)
    | _, _ => takeSymbol text later rest

/-- The splits of a text and of each of its rests, from the whole text to the empty one. With
`anyCharacter` a character where no candidate fits is a symbol of its own. -/
def splits (tried : List Symbol) (anyCharacter : Bool) : List Char → List (Option Body)
  | [] => [some []]
  | c :: cs =>
    let later := splits tried anyCharacter cs
    let found := takeSymbol (c :: cs) later tried
    let single := if anyCharacter then (later.head?.join).map (String.singleton c :: ·) else none
    found.orElse (fun _ => single) :: later

/-- The preferred split of `text` into `symbols`. -/
def split? (symbols : List Symbol) (anyCharacter : Bool) (text : List Char) : Option Body :=
  ((splits (candidates symbols) anyCharacter text).head?).join

/-- `text` is the concatenation of `body`, whose members are non-empty and drawn from `symbols`. -/
inductive SplitsAs (symbols : List Symbol) : List Char → Body → Prop
  | nil : SplitsAs symbols [] []
  | cons {s : Symbol} {text : List Char} {body : Body} (declared : s ∈ symbols) (visible : s ≠ "")
      (rest : SplitsAs symbols text body) : SplitsAs symbols (s.toList ++ text) (s :: body)

end ContextFree
