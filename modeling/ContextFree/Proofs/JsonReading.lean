import ContextFree.Json.Reader

/-!
What reading gives, step by step. `Gives read a rest` says that reading succeeds with `a` and leaves `rest`.
There is one lemma for each way in which a value can go on: a character of a string, a word, a number, an item
and what follows it, a member and what follows it. A number ends where no digit, point or exponent follows
(`EndsNumber`), and no value starts with a blank or with what closes an array (`head_ne_of_gives`).
-/
namespace ContextFree.Json

variable {cs rest after next word : List Char} {opened n : Nat} {c e : Char} {es : List Char}
  {s name : String} {v item value : Json} {items : List Json} {before members : List (String × Json)}

/-- Reading succeeds with `a` and leaves `rest`. -/
def Gives {α : Type} (read : Except Fault (Progress α cs)) (a : α) (rest : List Char) : Prop :=
  ∃ shorter, read = .ok (a, ⟨rest, shorter⟩)

theorem Gives.ne_nil {α : Type} {read : Except Fault (Progress α cs)} {a : α} (h : Gives read a rest) :
    cs ≠ [] := by
  obtain ⟨shorter, -⟩ := h
  rintro rfl
  exact Nat.not_lt_zero _ shorter

/-! ## Strings -/

theorem gives_closingQuote : Gives (readChars opened ('"' :: rest)) [] rest := by
  refine ⟨by simp, ?_⟩
  rw [readChars, if_pos rfl]

theorem gives_plainChar (hquote : c ≠ '"') (hbackslash : c ≠ '\\') (hcontrol : 0x1F < c.toNat)
    (h : Gives (readChars opened cs) es rest) : Gives (readChars opened (c :: cs)) (c :: es) rest := by
  obtain ⟨shorter, h⟩ := h
  refine ⟨Nat.lt_succ_of_lt shorter, ?_⟩
  rw [readChars, if_neg hquote, if_neg hbackslash, if_neg (by omega), h]

theorem gives_escape (hescape : Gives (readEscape opened cs) e after)
    (h : Gives (readChars opened after) es rest) : Gives (readChars opened ('\\' :: cs)) (e :: es) rest := by
  obtain ⟨shorter, hescape⟩ := hescape
  obtain ⟨last, h⟩ := h
  refine ⟨Nat.lt_succ_of_lt (Nat.lt_trans last shorter), ?_⟩
  rw [readChars, if_neg (by decide), if_pos rfl, hescape]
  dsimp only
  rw [h]

theorem gives_letter (hu : c ≠ 'u') (h : escapedChar? c = some e) :
    Gives (readEscape opened (c :: rest)) e rest := by
  refine ⟨by simp, ?_⟩
  rw [readEscape]
  · rw [h]
  · rintro rfl
    exact hu rfl

theorem gives_string (h : ∀ opened, Gives (readChars opened cs) es rest) :
    Gives (readString cs) (String.ofList es) rest := by
  obtain ⟨shorter, h⟩ := h (cs.length + 1)
  refine ⟨shorter, ?_⟩
  rw [readString, h]

/-! ## Numbers -/

/-- A character with which a number would go on. -/
def goesOn (c : Char) : Bool := isDigit c || c == '.' || c == 'e' || c == 'E'

/-- A number can end before `rest`. -/
def EndsNumber (rest : List Char) : Prop := rest.head?.any goesOn = false

theorem EndsNumber.notDigit (h : EndsNumber rest) : rest.head?.any isDigit = false := by
  cases rest with
  | nil => rfl
  | cons c rest =>
    simp only [EndsNumber, List.head?_cons, Option.any_some, goesOn, Bool.or_eq_false_iff] at h ⊢
    exact h.1.1.1

theorem EndsNumber.fractionDigits (h : EndsNumber rest) : fractionDigits rest = [] := by
  unfold Json.fractionDigits
  split
  · simp [EndsNumber, goesOn] at h
  · rfl

theorem EndsNumber.exponent? (h : EndsNumber rest) : exponent? rest = none := by
  cases rest with
  | nil => rfl
  | cons c rest =>
    simp only [EndsNumber, List.head?_cons, Option.any_some, goesOn, Bool.or_eq_false_iff,
      beq_eq_false_iff_ne] at h
    rw [Json.exponent?, if_neg (by simp [h.1.2, h.2])]

theorem isDigit_eq (c : Char) : isDigit c = c.isDigit := by
  simp only [isDigit, Char.isDigit, Char.le_def]

theorem isDigit_of_mem_toDigits (h : c ∈ Nat.toDigits 10 n) : isDigit c = true :=
  (isDigit_eq c).trans (Nat.isDigit_of_mem_toDigits (by decide) (by decide) h)

theorem head_toDigits_ne (hn : n ≠ 0) : (Nat.toDigits 10 n).head? ≠ some '0' := by
  induction n using Nat.strongRecOn with
  | ind n ih =>
    by_cases hlt : n < 10
    · have hdigit : ∀ m < 10, m ≠ 0 → [m.digitChar].head? ≠ some '0' := by decide
      rw [Nat.toDigits_of_lt_base hlt]
      exact hdigit n hlt hn
    · have hne : Nat.toDigits 10 (n / 10) ≠ [] := Nat.toDigits_ne_nil
      rw [Nat.toDigits_of_base_le (by decide) (by omega), List.head?_append, List.head?_eq_some_head hne]
      have := ih (n / 10) (by omega) (by omega)
      rwa [List.head?_eq_some_head hne] at this

theorem digitsValue_toDigits (n : Nat) : digitsValue (Nat.toDigits 10 n) = n := by
  have := Nat.ofDigitChars_toDigits (b := 10) (n := n) (by decide) (by decide)
  rwa [Nat.ofDigitChars_eq_foldl] at this

theorem takeWhile_toDigits (n : Nat) (h : rest.head?.any isDigit = false) :
    (Nat.toDigits 10 n ++ rest).takeWhile isDigit = Nat.toDigits 10 n := by
  rw [List.takeWhile_append_of_pos fun c hc => isDigit_of_mem_toDigits hc]
  cases rest with
  | nil => simp
  | cons c rest =>
    have hc : isDigit c = false := by simpa using h
    simp [hc]

theorem wholeDigits_toDigits (n : Nat) (h : rest.head?.any isDigit = false) :
    wholeDigits (Nat.toDigits 10 n ++ rest) = Nat.toDigits 10 n := by
  by_cases hn : n = 0
  · subst hn
    rfl
  · have hne : Nat.toDigits 10 n ≠ [] := Nat.toDigits_ne_nil
    unfold wholeDigits
    split
    · rename_i heq
      have hhead := congrArg List.head? heq
      rw [List.head?_append, List.head?_eq_some_head hne, Option.some_or, ← List.head?_eq_some_head hne] at hhead
      exact absurd hhead (head_toDigits_ne hn)
    · exact takeWhile_toDigits n h

theorem gives_number (negative : Bool) (left n : Nat) (hshort : (Nat.toDigits 10 n).length ≤ maxDigits)
    (hrest : EndsNumber rest) :
    Gives (readNumber negative left (Nat.toDigits 10 n ++ rest)) (.int (if negative then -n else n)) rest := by
  have hne : Nat.toDigits 10 n ≠ [] := Nat.toDigits_ne_nil
  have hpos := List.length_pos_iff.mpr hne
  have hwhole : wholeDigits (Nat.toDigits 10 n ++ rest) = Nat.toDigits 10 n :=
    wholeDigits_toDigits n hrest.notDigit
  refine ⟨by simp; omega, ?_⟩
  unfold readNumber
  simp only [hwhole, List.drop_left, hrest.fractionDigits, if_true, Nat.add_zero, hrest.exponent?]
  rw [dif_neg (by simp [hne])]
  simp [digitsValue_toDigits, Nat.not_lt.mpr hshort]

/-! ## Words and numbers as values -/

theorem gives_literal (hword : word ≠ [])
    (hfind : literals.find? (fun l => l.1.isPrefixOf (word ++ rest)) = some (word, v)) :
    Gives (readScalar (word ++ rest)) v rest := by
  have hpos := List.length_pos_iff.mpr hword
  have shorter : rest.length < (word ++ rest).length := by simp; omega
  have hread : readLiteral (word ++ rest) = some (v, ⟨rest, shorter⟩) := by
    simp only [readLiteral, hfind, List.drop_left]
    rw [dif_pos shorter]
  refine ⟨shorter, ?_⟩
  simp only [readScalar, hread]

theorem readLiteral_digit (h : isDigit c = true) : readLiteral (c :: cs) = none := by
  have hfind : literals.find? (fun l => l.1.isPrefixOf (c :: cs)) = none := by
    have hne : 'n' ≠ c ∧ 't' ≠ c ∧ 'f' ≠ c ∧ 'N' ≠ c ∧ 'I' ≠ c ∧ '-' ≠ c := by
      refine ⟨?_, ?_, ?_, ?_, ?_, ?_⟩ <;> rintro rfl <;> exact absurd h (by decide)
    simp [literals, List.isPrefixOf, hne]
  rw [readLiteral, hfind]

theorem readLiteral_minus (h : isDigit c = true) : readLiteral ('-' :: c :: cs) = none := by
  have hfind : literals.find? (fun l => l.1.isPrefixOf ('-' :: c :: cs)) = none := by
    have hne : 'I' ≠ c := by
      rintro rfl
      exact absurd h (by decide)
    simp [literals, hne]
  rw [readLiteral, hfind]

theorem gives_negative (h : isDigit c = true)
    (hread : Gives (readNumber true ((c :: cs).length + 1) (c :: cs)) v rest) :
    Gives (readScalar ('-' :: c :: cs)) v rest := by
  obtain ⟨shorter, hread⟩ := hread
  refine ⟨Nat.lt_succ_of_lt shorter, ?_⟩
  simp only [readScalar, readLiteral_minus h, hread]

theorem gives_unsigned (h : isDigit c = true)
    (hread : Gives (readNumber false (c :: cs).length (c :: cs)) v rest) :
    Gives (readScalar (c :: cs)) v rest := by
  obtain ⟨shorter, hread⟩ := hread
  refine ⟨shorter, ?_⟩
  rw [readScalar, readLiteral_digit h, hread]
  rintro tail heq
  rw [(List.cons.inj heq).1] at h
  exact absurd h (by decide)

theorem gives_scalar (hquote : cs.head? ≠ some '"') (hbracket : cs.head? ≠ some '[')
    (hbrace : cs.head? ≠ some '\x7b') (h : Gives (readScalar cs) v rest) : Gives (readValue cs) v rest := by
  obtain ⟨shorter, h⟩ := h
  refine ⟨shorter, ?_⟩
  rw [readValue, h] <;> rintro tail rfl
  · exact hquote rfl
  · exact hbracket rfl
  · exact hbrace rfl

/-! ## Values -/

theorem gives_stringValue (h : Gives (readString cs) s rest) :
    Gives (readValue ('"' :: cs)) (.string s) rest := by
  obtain ⟨shorter, h⟩ := h
  refine ⟨by simp; omega, ?_⟩
  rw [readValue, h]

theorem gives_emptyArray (h : skipJsonBlanks cs = ']' :: rest) :
    Gives (readValue ('[' :: cs)) (.array []) rest := by
  have hle := length_skipJsonBlanks_le cs
  rw [h] at hle
  refine ⟨by simp at hle ⊢; omega, ?_⟩
  rw [readValue]
  split
  · rename_i heq
    cases h.symm.trans heq
    rfl
  · rename_i hno
    exact (hno rest h).elim

theorem gives_array (hopen : ∀ after, skipJsonBlanks cs ≠ ']' :: after)
    (h : Gives (readItems (skipJsonBlanks cs)) items rest) :
    Gives (readValue ('[' :: cs)) (.array items) rest := by
  obtain ⟨shorter, h⟩ := h
  have hle := length_skipJsonBlanks_le cs
  refine ⟨by simp; omega, ?_⟩
  rw [readValue]
  split
  · rename_i heq
    exact absurd heq (hopen _)
  · rw [h]

theorem gives_emptyObject (h : skipJsonBlanks cs = '\x7d' :: rest) :
    Gives (readValue ('\x7b' :: cs)) (.object []) rest := by
  have hle := length_skipJsonBlanks_le cs
  rw [h] at hle
  refine ⟨by simp at hle ⊢; omega, ?_⟩
  rw [readValue]
  split
  · rename_i heq
    cases h.symm.trans heq
    rfl
  · rename_i hno
    exact (hno rest h).elim

theorem gives_object (hopen : ∀ after, skipJsonBlanks cs ≠ '\x7d' :: after)
    (h : Gives (readMembers [] (skipJsonBlanks cs)) members rest) :
    Gives (readValue ('\x7b' :: cs)) (.object members) rest := by
  obtain ⟨shorter, h⟩ := h
  have hle := length_skipJsonBlanks_le cs
  refine ⟨by simp; omega, ?_⟩
  rw [readValue]
  split
  · rename_i heq
    exact absurd heq (hopen _)
  · rw [h]

theorem readValue_eq_error (hc : c ∈ [' ', '\t', '\n', '\r', ']', '\uFEFF']) :
    readValue (c :: cs) = .error (.unexpected .value (cs.length + 1)) := by
  simp only [List.mem_cons, List.not_mem_nil, or_false] at hc
  obtain rfl | rfl | rfl | rfl | rfl | rfl := hc <;>
    simp [readValue, readScalar, readLiteral, literals, List.isPrefixOf, readNumber, wholeDigits, isDigit]

/-- No value starts with a blank, a closing bracket or a byte order mark. -/
theorem head_ne_of_gives (h : Gives (readValue cs) v rest)
    (hc : c ∈ [' ', '\t', '\n', '\r', ']', '\uFEFF']) : cs.head? ≠ some c := by
  obtain ⟨shorter, h⟩ := h
  intro hhead
  obtain ⟨tail, rfl⟩ := List.head?_eq_some_iff.mp hhead
  rw [readValue_eq_error hc] at h
  cases h

theorem skipJsonBlanks_of_gives (h : Gives (readValue cs) v rest) : skipJsonBlanks cs = cs := by
  cases cs with
  | nil => rfl
  | cons c cs =>
    have hspace := head_ne_of_gives h (c := ' ') (by simp)
    have htab := head_ne_of_gives h (c := '\t') (by simp)
    have hfeed := head_ne_of_gives h (c := '\n') (by simp)
    have hreturn := head_ne_of_gives h (c := '\r') (by simp)
    have hblank : isJsonBlank c = false := by simp_all [isJsonBlank]
    simp [skipJsonBlanks, hblank]

/-! ## Items and members -/

theorem gives_lastItem (hitem : Gives (readValue cs) item rest)
    (hclose : skipJsonBlanks rest = ']' :: after) : Gives (readItems cs) [item] after := by
  obtain ⟨shorter, hitem⟩ := hitem
  have hrest := length_skipJsonBlanks_le rest
  rw [hclose] at hrest
  refine ⟨by simp at hrest; omega, ?_⟩
  rw [readItems, hitem]
  dsimp only
  split
  · rename_i heq
    cases hclose.symm.trans heq
    rfl
  · rename_i heq
    cases hclose.symm.trans heq
  · rename_i hno _
    exact (hno after hclose).elim

theorem gives_item (hitem : Gives (readValue cs) item rest)
    (hcomma : skipJsonBlanks rest = ',' :: next)
    (hitems : Gives (readItems (skipJsonBlanks next)) items after) :
    Gives (readItems cs) (item :: items) after := by
  obtain ⟨shorter, hitem⟩ := hitem
  obtain ⟨last, hitems⟩ := hitems
  have hrest := length_skipJsonBlanks_le rest
  have hnext := length_skipJsonBlanks_le next
  rw [hcomma] at hrest
  refine ⟨by simp at hrest; omega, ?_⟩
  rw [readItems, hitem]
  dsimp only
  split
  · rename_i heq
    cases hcomma.symm.trans heq
  · rename_i heq
    cases hcomma.symm.trans heq
    rw [hitems]
  · rename_i hno
    exact (hno next hcomma).elim

section

variable (hname : Gives (readString cs) name rest) (hcolon : skipJsonBlanks rest = ':' :: next)
  (hvalue : Gives (readValue (skipJsonBlanks next)) value after)

include hname hcolon hvalue

theorem gives_lastMember {final : List Char} (hclose : skipJsonBlanks after = '\x7d' :: final) :
    Gives (readMembers before ('"' :: cs)) (setMember name value before) final := by
  obtain ⟨shorter, hname⟩ := hname
  obtain ⟨shorter', hvalue⟩ := hvalue
  have hrest := length_skipJsonBlanks_le rest
  have hnext := length_skipJsonBlanks_le next
  have hafter := length_skipJsonBlanks_le after
  rw [hcolon] at hrest
  rw [hclose] at hafter
  refine ⟨by simp at hrest hafter ⊢; omega, ?_⟩
  rw [readMembers, hname]
  dsimp only
  split
  · rename_i heq
    cases hcolon.symm.trans heq
    rw [hvalue]
    dsimp only
    split
    · rename_i heq
      cases hclose.symm.trans heq
      rfl
    · rename_i heq
      cases hclose.symm.trans heq
    · rename_i hno _
      exact (hno final hclose).elim
  · rename_i hno
    exact (hno next hcolon).elim

theorem gives_member {later final : List Char} (hcomma : skipJsonBlanks after = ',' :: later)
    (hmembers : Gives (readMembers (setMember name value before) (skipJsonBlanks later)) members final) :
    Gives (readMembers before ('"' :: cs)) members final := by
  obtain ⟨shorter, hname⟩ := hname
  obtain ⟨shorter', hvalue⟩ := hvalue
  obtain ⟨last, hmembers⟩ := hmembers
  have hrest := length_skipJsonBlanks_le rest
  have hnext := length_skipJsonBlanks_le next
  have hafter := length_skipJsonBlanks_le after
  have hlater := length_skipJsonBlanks_le later
  rw [hcolon] at hrest
  rw [hcomma] at hafter
  refine ⟨by simp at hrest hafter ⊢; omega, ?_⟩
  rw [readMembers, hname]
  dsimp only
  split
  · rename_i heq
    cases hcolon.symm.trans heq
    rw [hvalue]
    dsimp only
    split
    · rename_i heq
      cases hcomma.symm.trans heq
    · rename_i heq
      cases hcomma.symm.trans heq
      rw [hmembers]
    · rename_i hno
      exact (hno later hcomma).elim
  · rename_i hno
    exact (hno next hcolon).elim

end

/-! ## A whole text -/

theorem readAll_of_gives (hbom : cs.head? ≠ some '\uFEFF') (h : Gives (readValue (skipJsonBlanks cs)) v rest)
    (hend : skipJsonBlanks rest = []) : readAll cs = .ok v := by
  obtain ⟨shorter, h⟩ := h
  rw [readAll, if_neg hbom, h]
  simp only [hend]

end ContextFree.Json
