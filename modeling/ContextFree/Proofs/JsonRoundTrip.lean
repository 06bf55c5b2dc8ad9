import ContextFree.Json.Writer
import ContextFree.Proofs.JsonReading

/-!
What is written is read back. A character is read back from its letter or its units, a string from its
characters, an integer from its digits. A value that is written at some depth is read back whatever follows it,
as long as a number can end there (`ReadBack`); for arrays and objects this comes from their items and members.
-/
namespace ContextFree.Json

open Text

variable {cs rest after word : List Char} {opened n depth : Nat} {c : Char} {es : List Char} {name : String}
  {v item value : Json} {items : List Json} {before members : List (String × Json)}

/-! ## Characters and strings -/

theorem hexValue?_hexDigit (n : Nat) : hexValue? (hexDigit n) = some (n % 16) := by
  have hdigits : ∀ d < 16, hexValue? d.digitChar = some d := by decide
  exact hdigits (n % 16) (Nat.mod_lt n (by decide))

theorem drop_hexadecimal (n : Nat) (rest : List Char) : (hexadecimal 4 n ++ rest).drop 4 = rest :=
  List.drop_left' (length_hexadecimal 4 n)

theorem hexFour?_hexadecimal (hn : n < 0x10000) (hrest : rest ≠ []) :
    hexFour? (hexadecimal 4 n ++ rest) = some n := by
  have hdrop := drop_hexadecimal n rest
  have htake : (hexadecimal 4 n ++ rest).take 4 = hexadecimal 4 n := List.take_left' (length_hexadecimal 4 n)
  rw [hexFour?, hdrop, htake, if_neg (by simpa using hrest)]
  simp [hexadecimal, hexValue?_hexDigit]
  omega

theorem gives_unit (hc : c.toNat < 0x10000) (hrest : rest ≠ []) :
    Gives (readEscape opened ('u' :: (hexadecimal 4 c.toNat ++ rest))) c rest := by
  have hvalid : c.toNat < 0xD800 ∨ 0xDFFF < c.toNat ∧ c.toNat < 0x110000 := c.valid
  refine ⟨by simp only [List.length_cons, List.length_append]; omega, ?_⟩
  simp only [readEscape, hexFour?_hexadecimal hc hrest, drop_hexadecimal]
  rw [if_neg (by omega), if_neg (by omega), Char.ofNat_toNat]

theorem secondUnit?_unitEscape (hn : n < 0x10000) (hrest : rest ≠ []) :
    secondUnit? (unitEscape n ++ rest) = some (.ok n) := by
  simp only [secondUnit?, unitEscape, List.cons_append, drop_hexadecimal, hexFour?_hexadecimal hn hrest]
  rw [if_neg (by simpa using hrest)]

theorem gives_pair {low : Nat} (hn : 0xD800 ≤ n ∧ n < 0xDC00) (hlow : 0xDC00 ≤ low ∧ low < 0xE000)
    (hc : 0x10000 + (n - 0xD800) * 0x400 + (low - 0xDC00) = c.toNat) (hrest : rest ≠ []) :
    Gives (readEscape opened ('u' :: (hexadecimal 4 n ++ (unitEscape low ++ rest)))) c rest := by
  have hdrop : (hexadecimal 4 n ++ (unitEscape low ++ rest)).drop 10 = rest := by
    rw [← List.append_assoc]
    exact List.drop_left' (by simp [unitEscape, length_hexadecimal])
  have hafter : unitEscape low ++ rest ≠ [] := List.append_ne_nil_of_right_ne_nil _ hrest
  refine ⟨by simp; omega, ?_⟩
  simp only [readEscape, hexFour?_hexadecimal (show n < 0x10000 by omega) hafter, drop_hexadecimal,
    secondUnit?_unitEscape (show low < 0x10000 by omega) hrest, hdrop, hc, Char.ofNat_toNat]
  rw [if_pos hn, if_pos hlow]

theorem gives_units (h : Gives (readChars opened cs) es rest) :
    Gives (readChars opened (escapeUnits c ++ cs)) (c :: es) rest := by
  -- no character is half of a pair, and none is beyond the second half of the last pair
  have hvalid : c.toNat < 0xD800 ∨ 0xDFFF < c.toNat ∧ c.toNat < 0x110000 := c.valid
  by_cases hfirst : c.toNat < 0x10000
  · rw [escapeUnits, if_pos hfirst]
    exact gives_escape (gives_unit hfirst h.ne_nil) h
  · rw [escapeUnits, if_neg hfirst, List.append_assoc]
    exact gives_escape (gives_pair (by omega) (by omega) (by omega) h.ne_nil) h

/-- A character is escaped by its letter, or not at all, or by its units. -/
theorem escapeChar_cases (c : Char) :
    (∃ letter, letter ≠ 'u' ∧ escapedChar? letter = some c ∧ escapeChar c = ['\\', letter]) ∨
      (c ≠ '"' ∧ c ≠ '\\' ∧ 0x20 ≤ c.toNat ∧ c.toNat ≤ 0x7E ∧ escapeChar c = [c]) ∨
      escapeChar c = escapeUnits c := by
  unfold escapeChar
  split
  · rename_i hc
    obtain rfl | rfl := hc
    · exact .inl ⟨'"', by decide, rfl, rfl⟩
    · exact .inl ⟨'\\', by decide, rfl, rfl⟩
  · rename_i hc
    split
    · rename_i hrange
      exact .inr (.inl ⟨fun h => hc (.inl h), fun h => hc (.inr h), hrange.1, hrange.2, rfl⟩)
    · split <;> rename_i hletter
      · exact .inl ⟨'n', by decide, hletter ▸ rfl, rfl⟩
      split <;> rename_i hletter
      · exact .inl ⟨'r', by decide, hletter ▸ rfl, rfl⟩
      split <;> rename_i hletter
      · exact .inl ⟨'t', by decide, hletter ▸ rfl, rfl⟩
      split <;> rename_i hletter
      · exact .inl ⟨'f', by decide, hletter ▸ rfl, rfl⟩
      split <;> rename_i hletter
      · exact .inl ⟨'b', by decide, hletter ▸ rfl, rfl⟩
      · exact .inr (.inr rfl)

theorem gives_escaped (c : Char) (h : Gives (readChars opened cs) es rest) :
    Gives (readChars opened (escapeChar c ++ cs)) (c :: es) rest := by
  obtain ⟨letter, hu, hletter, heq⟩ | ⟨hquote, hbackslash, hlow, -, heq⟩ | heq := escapeChar_cases c
  · rw [heq]
    exact gives_escape (gives_letter hu hletter) h
  · rw [heq]
    exact gives_plainChar hquote hbackslash (by omega) h
  · rw [heq]
    exact gives_units h

theorem gives_chars (opened : Nat) (cs rest : List Char) :
    Gives (readChars opened (cs.flatMap escapeChar ++ '"' :: rest)) cs rest := by
  induction cs with
  | nil => exact gives_closingQuote
  | cons c cs ih =>
    rw [List.flatMap_cons, List.append_assoc]
    exact gives_escaped c ih

theorem gives_written (s : String) (rest : List Char) :
    Gives (readString (s.toList.flatMap escapeChar ++ '"' :: rest)) s rest := by
  have := gives_string fun opened => gives_chars opened s.toList rest
  rwa [String.ofList_toList] at this

/-! ## Words and integers -/

theorem gives_word (hword : (word, v) ∈
    [("null".toList, Json.null), ("true".toList, .bool true), ("false".toList, .bool false)]) :
    Gives (readValue (word ++ rest)) v rest := by
  simp only [List.mem_cons, List.not_mem_nil, or_false, Prod.mk.injEq] at hword
  obtain ⟨rfl, rfl⟩ | ⟨rfl, rfl⟩ | ⟨rfl, rfl⟩ := hword <;>
    exact gives_scalar (by simp) (by simp) (by simp) (gives_literal (by simp) (by simp [literals]))

theorem exists_head_toDigits (n : Nat) : ∃ c ds, Nat.toDigits 10 n = c :: ds ∧ isDigit c = true := by
  obtain ⟨c, ds, hds⟩ := List.exists_cons_of_ne_nil (Nat.toDigits_ne_nil (n := n) (b := 10))
  exact ⟨c, ds, hds, isDigit_of_mem_toDigits (hds ▸ List.mem_cons_self)⟩

theorem writeScalar_ofNat (n : Nat) : writeScalar (.int (.ofNat n)) = Nat.toDigits 10 n := by
  have htext : toString (Int.ofNat n) = String.ofList (Nat.toDigits 10 n) := rfl
  rw [writeScalar, htext, String.toList_ofList]

theorem writeScalar_negSucc (n : Nat) : writeScalar (.int (.negSucc n)) = '-' :: Nat.toDigits 10 (n + 1) := by
  have htext : toString (Int.negSucc n) = "-" ++ String.ofList (Nat.toDigits 10 (n + 1)) := rfl
  simp [writeScalar, htext]

theorem gives_int (value : Int) (hshort : (Nat.toDigits 10 value.natAbs).length ≤ maxDigits)
    (hrest : EndsNumber rest) : Gives (readValue (writeScalar (.int value) ++ rest)) (.int value) rest := by
  cases value with
  | ofNat n =>
    obtain ⟨c, ds, hds, hc⟩ := exists_head_toDigits n
    have hnumber := gives_number false (Nat.toDigits 10 n ++ rest).length n hshort hrest
    rw [hds] at hnumber
    rw [writeScalar_ofNat, hds]
    refine gives_scalar ?_ ?_ ?_ (gives_unsigned hc hnumber) <;> rintro ⟨⟩ <;> exact absurd hc (by decide)
  | negSucc n =>
    obtain ⟨c, ds, hds, hc⟩ := exists_head_toDigits (n + 1)
    have hnumber := gives_number true ((Nat.toDigits 10 (n + 1) ++ rest).length + 1) (n + 1) hshort hrest
    rw [hds] at hnumber
    rw [writeScalar_negSucc, hds]
    exact gives_scalar (by simp) (by simp) (by simp) (gives_negative hc hnumber)

/-! ## Layout -/

theorem skipJsonBlanks_lineAt (depth : Nat) (cs : List Char) :
    skipJsonBlanks (lineAt depth ++ cs) = skipJsonBlanks cs := by
  have hblanks : ∀ c ∈ lineAt depth, isJsonBlank c = true := by
    simp [lineAt, isJsonBlank]
  exact List.dropWhile_append_of_pos hblanks

theorem endsNumber_lineAt (depth : Nat) (cs : List Char) : EndsNumber (lineAt depth ++ cs) := rfl

/-- Written at `depth`, a value is read back. -/
def ReadBack (depth : Nat) (v : Json) : Prop :=
  ∀ rest, EndsNumber rest → Gives (readValue (indentedAt depth v ++ rest)) v rest

theorem ReadBack.skip (h : ReadBack depth v) (hrest : EndsNumber rest) :
    skipJsonBlanks (lineAt depth ++ (indentedAt depth v ++ rest)) = indentedAt depth v ++ rest :=
  (skipJsonBlanks_lineAt depth _).trans (skipJsonBlanks_of_gives (h rest hrest))

theorem endsNumber_indentedItems (depth : Nat) (items : List Json) (hrest : EndsNumber rest) :
    EndsNumber (indentedItems depth items ++ rest) := by
  cases items with
  | nil => exact hrest
  | cons item items => rfl

theorem gives_items (h : ∀ i ∈ item :: items, ReadBack depth i)
    (hrest : EndsNumber rest) (hclose : skipJsonBlanks rest = ']' :: after) :
    Gives (readItems (indentedAt depth item ++ (indentedItems depth items ++ rest))) (item :: items) after := by
  induction items generalizing item with
  | nil => exact gives_lastItem (h item List.mem_cons_self rest hrest) hclose
  | cons next items ih =>
    have hitem := h item List.mem_cons_self _ (endsNumber_indentedItems depth (next :: items) hrest)
    have hitems := ih fun i hi => h i (List.mem_cons_of_mem _ hi)
    have hskip := (h next (by simp)).skip (endsNumber_indentedItems depth items hrest)
    have hcomma : skipJsonBlanks (indentedItems depth (next :: items) ++ rest) =
        ',' :: (lineAt depth ++ (indentedAt depth next ++ (indentedItems depth items ++ rest))) := by
      simp [indentedItems, skipJsonBlanks, isJsonBlank]
    exact gives_item hitem hcomma (hskip.symm ▸ hitems)

theorem setMember_new (h : name ∉ before.map Prod.fst) (value : Json) :
    setMember name value before = before ++ [(name, value)] := by
  induction before with
  | nil => rfl
  | cons first before ih =>
    simp only [List.map_cons, List.mem_cons, not_or] at h
    rw [setMember, if_neg h.1, ih h.2, List.cons_append]

theorem endsNumber_indentedMembers (depth : Nat) (members : List (String × Json)) (hrest : EndsNumber rest) :
    EndsNumber (indentedMembers depth members ++ rest) := by
  cases members with
  | nil => exact hrest
  | cons member members => rfl

/-- A member is written as its name, a colon with a blank, and its value. -/
def memberText (name : String) (valueText : List Char) : List Char :=
  writeString name ++ (": ".toList ++ valueText)

theorem memberText_eq (name : String) (text : List Char) :
    memberText name text = '"' :: (name.toList.flatMap escapeChar ++ '"' :: ':' :: ' ' :: text) := by
  simp [memberText, writeString]

section

variable {text final later : List Char} (hvalue : Gives (readValue text) value after)

include hvalue

theorem gives_lastWritten (hclose : skipJsonBlanks after = '\x7d' :: final) :
    Gives (readMembers before (memberText name text)) (setMember name value before) final := by
  have hskip := skipJsonBlanks_of_gives hvalue
  rw [memberText_eq]
  exact gives_lastMember (gives_written name (':' :: ' ' :: text)) rfl (hskip.symm ▸ hvalue) hclose

theorem gives_nextWritten (hcomma : skipJsonBlanks after = ',' :: later)
    (hmembers : Gives (readMembers (setMember name value before) (skipJsonBlanks later)) members final) :
    Gives (readMembers before (memberText name text)) members final := by
  have hskip := skipJsonBlanks_of_gives hvalue
  rw [memberText_eq]
  exact gives_member (gives_written name (':' :: ' ' :: text)) rfl (hskip.symm ▸ hvalue) hcomma hmembers

end

theorem skipJsonBlanks_memberText (depth : Nat) (name : String) (text : List Char) :
    skipJsonBlanks (lineAt depth ++ memberText name text) = memberText name text :=
  skipJsonBlanks_lineAt depth _

theorem new_of_nodup (h : ((before ++ (name, value) :: members).map Prod.fst).Nodup) :
    name ∉ before.map Prod.fst := by
  rw [List.map_append, List.nodup_append] at h
  exact fun hmem => h.2.2 name hmem name (by simp) rfl

theorem gives_members (before : List (String × Json)) (h : ∀ m ∈ (name, value) :: members, ReadBack depth m.2)
    (hnames : ((before ++ (name, value) :: members).map Prod.fst).Nodup)
    (hrest : EndsNumber rest) (hclose : skipJsonBlanks rest = '\x7d' :: after) :
    Gives (readMembers before (memberText name (indentedAt depth value ++
        (indentedMembers depth members ++ rest))))
      (before ++ (name, value) :: members) after := by
  induction members generalizing before name value with
  | nil =>
    rw [← setMember_new (new_of_nodup hnames)]
    exact gives_lastWritten (h (name, value) List.mem_cons_self rest hrest) hclose
  | cons next members ih =>
    obtain ⟨nextName, nextValue⟩ := next
    have hvalue := h (name, value) List.mem_cons_self _
      (endsNumber_indentedMembers depth ((nextName, nextValue) :: members) hrest)
    have hcomma : skipJsonBlanks (indentedMembers depth ((nextName, nextValue) :: members) ++ rest) =
        ',' :: (lineAt depth ++ memberText nextName (indentedAt depth nextValue ++
          (indentedMembers depth members ++ rest))) := by
      simp [indentedMembers, memberText, skipJsonBlanks, isJsonBlank]
    refine gives_nextWritten hvalue hcomma ?_
    -- the name is new, so that its member is put behind those before
    rw [skipJsonBlanks_memberText, setMember_new (new_of_nodup hnames)]
    have hmembers := ih (before ++ [(name, value)]) (fun m hm => h m (List.mem_cons_of_mem _ hm))
      (by simpa using hnames)
    simpa using hmembers

theorem readBack_array (h : ∀ i ∈ item :: items, ReadBack (depth + 1) i) :
    ReadBack depth (.array (item :: items)) := by
  intro rest _
  have hend := endsNumber_lineAt depth (']' :: rest)
  have hitems := gives_items h hend (skipJsonBlanks_lineAt depth (']' :: rest))
  have hitem := h item List.mem_cons_self _ (endsNumber_indentedItems (depth + 1) items hend)
  have hskip := (h item List.mem_cons_self).skip (endsNumber_indentedItems (depth + 1) items hend)
  have htext : indentedAt depth (.array (item :: items)) ++ rest =
      '[' :: (lineAt (depth + 1) ++ (indentedAt (depth + 1) item ++
        (indentedItems (depth + 1) items ++ (lineAt depth ++ ']' :: rest)))) := by
    simp [indentedAt]
  rw [htext]
  refine gives_array (fun after hopen => ?_) (hskip.symm ▸ hitems)
  rw [hskip] at hopen
  exact head_ne_of_gives hitem (c := ']') (by simp) (by rw [hopen]; rfl)

theorem readBack_object (hnames : (((name, value) :: members).map Prod.fst).Nodup)
    (h : ∀ m ∈ (name, value) :: members, ReadBack (depth + 1) m.2) :
    ReadBack depth (.object ((name, value) :: members)) := by
  intro rest _
  have hmembers := gives_members [] h hnames (endsNumber_lineAt depth ('\x7d' :: rest))
    (skipJsonBlanks_lineAt depth ('\x7d' :: rest))
  have hskip := skipJsonBlanks_memberText (depth + 1) name (indentedAt (depth + 1) value ++
    (indentedMembers (depth + 1) members ++ (lineAt depth ++ '\x7d' :: rest)))
  have htext : indentedAt depth (.object ((name, value) :: members)) ++ rest =
      '\x7b' :: (lineAt (depth + 1) ++ memberText name (indentedAt (depth + 1) value ++
        (indentedMembers (depth + 1) members ++ (lineAt depth ++ '\x7d' :: rest)))) := by
    simp [indentedAt, memberText]
  rw [htext]
  refine gives_object (fun after => ?_) (hskip.symm ▸ hmembers)
  rw [hskip, memberText_eq]
  simp

/-! ## Values -/

/-- What reading can give back: no numbers but integers that are not too long, and no member name twice. -/
inductive Plain : Json → Prop where
  | null : Plain .null
  | bool (value : Bool) : Plain (.bool value)
  | int {value : Int} (short : (Nat.toDigits 10 value.natAbs).length ≤ maxDigits) : Plain (.int value)
  | string (value : String) : Plain (.string value)
  | array {items : List Json} (plain : ∀ item ∈ items, Plain item) : Plain (.array items)
  | object {members : List (String × Json)} (once : (members.map Prod.fst).Nodup)
    (plain : ∀ member ∈ members, Plain member.2) : Plain (.object members)

@[simp] theorem plain_int_iff {i : Int} : (Json.int i).Plain ↔ (Nat.toDigits 10 i.natAbs).length ≤ maxDigits :=
  ⟨fun | .int short => short, .int⟩

@[simp] theorem plain_array_iff : (Json.array items).Plain ↔ ∀ i ∈ items, i.Plain :=
  ⟨fun | .array plain => plain, .array⟩

@[simp] theorem plain_object_iff :
    (Json.object members).Plain ↔ (members.map Prod.fst).Nodup ∧ ∀ m ∈ members, m.2.Plain :=
  ⟨fun | .object once plain => ⟨once, plain⟩, fun h => .object h.1 h.2⟩

attribute [simp] Plain.null Plain.bool Plain.string

/-- Items and members are written one step deeper, so the depth is left open in the induction. -/
theorem Plain.readBack (h : Plain v) (depth : Nat) : ReadBack depth v := by
  induction h generalizing depth with
  | null => exact fun rest _ => gives_word (by simp [indentedAt, writeScalar])
  | bool value => cases value <;> exact fun rest _ => gives_word (by simp [indentedAt, writeScalar])
  | int short => exact fun rest hrest => gives_int _ short hrest
  | string value =>
    intro rest _
    have htext : indentedAt depth (.string value) ++ rest =
        '"' :: (value.toList.flatMap escapeChar ++ '"' :: rest) := by
      simp [indentedAt, writeScalar, writeString]
    rw [htext]
    exact gives_stringValue (gives_written value rest)
  | @array items _ ih =>
    cases items with
    | nil => exact fun rest _ => gives_emptyArray rfl
    | cons item items => exact readBack_array fun i hi => ih i hi (depth + 1)
  | @object members once _ ih =>
    cases members with
    | nil => exact fun rest _ => gives_emptyObject rfl
    | cons member members => exact readBack_object once fun m hm => ih m hm (depth + 1)

/-- A whole text gives the value back that it was written for. -/
theorem read_indented (h : Plain v) : read v.indented = .ok v := by
  have hgives := h.readBack 0 [] rfl
  rw [List.append_nil] at hgives
  have hall : readAll (indentedAt 0 v) = .ok v :=
    readAll_of_gives (head_ne_of_gives hgives (by simp)) ((skipJsonBlanks_of_gives hgives).symm ▸ hgives) rfl
  rw [read, indented, String.toList_ofList, hall]
  rfl

end ContextFree.Json
