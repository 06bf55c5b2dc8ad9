/-!
How loggers stand above each other. A logger is below the one whose name ends at a dot of its own name, and
of several such loggers right below the one with the longest name that is in use. A dot right before a
dot that counts does not count itself, and neither does a dot at the head of a name.
-/
namespace ContextFree.Log

def root : String := "cnf_normalizer"

/-- The names above a name, the longest first; each of them, like the name itself, is given from its end. -/
def namesAbove : List Char → List (List Char)
  | [] => []
  | '.' :: c :: rest => (c :: rest) :: namesAbove rest
  | _ :: rest => namesAbove rest

theorem length_lt_of_mem_namesAbove {above name : List Char} (h : above ∈ namesAbove name) :
    above.length < name.length := by
  fun_induction namesAbove name with
  | case1 => simp at h
  | case2 c rest ih =>
    rcases List.mem_cons.mp h with rfl | h
    · simp
    · have := ih h
      simp only [List.length_cons]
      omega
  | case3 _ rest _ ih =>
    have := ih h
    simp only [List.length_cons]
    omega

/-- Whether a logger is the root or below it, following the loggers in use upwards. Names are given from
their end. -/
def isBelowRoot (inUse : List (List Char)) (name : List Char) : Bool :=
  name == root.toList.reverse ||
    match _found : (namesAbove name).find? fun above => above == root.toList.reverse || inUse.contains above with
    | some above => isBelowRoot inUse above
    | none => false
termination_by name.length
decreasing_by exact length_lt_of_mem_namesAbove (List.mem_of_find?_eq_some _found)

/-- Whether a logger is the one of this library or below it. -/
def isOurs (inUse : List String) (logger : String) : Bool :=
  isBelowRoot (inUse.map (·.toList.reverse)) logger.toList.reverse

end ContextFree.Log
