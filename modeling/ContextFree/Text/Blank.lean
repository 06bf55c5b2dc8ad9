/-!
Blank characters and line ends, and how text is taken apart at them. Stripping removes blanks at both
ends, `words` are the longest runs without a blank, and `lines` end at a line end or at the end of the
text, a carriage return and the line feed after it counting as one.
-/
namespace ContextFree.Text

/-- The spaces, the control characters that move to another place, and the separators. -/
def isBlank (c : Char) : Bool :=
  (0x09 ≤ c.toNat && c.toNat ≤ 0x0D) || (0x1C ≤ c.toNat && c.toNat ≤ 0x20) || c.toNat == 0x85
    || c.toNat == 0xA0 || c.toNat == 0x1680 || (0x2000 ≤ c.toNat && c.toNat ≤ 0x200A)
    || c.toNat == 0x2028 || c.toNat == 0x2029 || c.toNat == 0x202F || c.toNat == 0x205F
    || c.toNat == 0x3000

def isLineEnd (c : Char) : Bool :=
  (0x0A ≤ c.toNat && c.toNat ≤ 0x0D) || (0x1C ≤ c.toNat && c.toNat ≤ 0x1E) || c.toNat == 0x85
    || c.toNat == 0x2028 || c.toNat == 0x2029

def skipBlanks (cs : List Char) : List Char := cs.dropWhile isBlank

def strip (cs : List Char) : List Char := (skipBlanks (skipBlanks cs).reverse).reverse

/-- The longest runs of characters that are not blank, in order. -/
def words : List Char → List (List Char)
  | [] => []
  | c :: cs =>
    if isBlank c then words cs
    else if cs.head?.all isBlank then [c] :: words cs
    else match words cs with
      | [] => [[c]]
      | w :: ws => (c :: w) :: ws

/-- The lines of a text without their ends. An end at the close of the text opens no further line. -/
def lines : List Char → List (List Char)
  | [] => []
  | '\r' :: '\n' :: cs => [] :: lines cs
  | c :: cs =>
    if isLineEnd c then [] :: lines cs
    else match lines cs with
      | [] => [[c]]
      | l :: ls => (c :: l) :: ls

/-- The pieces between the occurrences of `sep`; there is one more piece than there are occurrences. -/
def pieces (sep : Char) : List Char → List (List Char)
  | [] => [[]]
  | c :: cs =>
    if c = sep then [] :: pieces sep cs
    else match pieces sep cs with
      | [] => [[c]]
      | p :: ps => (c :: p) :: ps

theorem isBlank_of_isLineEnd {c : Char} (h : isLineEnd c = true) : isBlank c = true := by
  simp only [isLineEnd, isBlank, Bool.or_eq_true, Bool.and_eq_true, decide_eq_true_eq,
    beq_iff_eq] at h ⊢
  omega

theorem isBlank_of_isWhitespace {c : Char} (h : c.isWhitespace = true) : isBlank c = true := by
  simp only [Char.isWhitespace, Bool.or_eq_true, decide_eq_true_eq] at h
  rcases h with ((rfl | rfl) | rfl) | rfl <;> decide

theorem not_isBlank_of_mem_words {w cs : List Char} (hw : w ∈ words cs) :
    ∀ c ∈ w, isBlank c = false := by
  induction cs generalizing w with
  | nil => simp [words] at hw
  | cons c cs ih =>
    rw [words] at hw
    split at hw
    · exact ih hw
    · rename_i hc
      have hone : ∀ x ∈ [c], isBlank x = false := by simpa using hc
      split at hw
      · rcases List.mem_cons.mp hw with rfl | hw
        · exact hone
        · exact ih hw
      · split at hw
        · rw [List.mem_singleton.mp hw]; exact hone
        · rename_i v vs hv
          rw [hv] at ih
          rcases List.mem_cons.mp hw with rfl | hw
          · intro x hx
            rcases List.mem_cons.mp hx with rfl | hx
            · simpa using hc
            · exact ih List.mem_cons_self x hx
          · exact ih (List.mem_cons_of_mem _ hw)

end ContextFree.Text
