import Mathlib
import ContextFree.Proofs.JsonRoundTrip
import ContextFree.Settings

/-!
Settings that are saved are loaded back. The saved text is read as JSON again (`Json.read_indented`), its
members are the keys of settings, and the factor is positive as it was. In a file the text stays what it is: it
is ASCII without carriage returns (`Json.Plain.ascii`), so that each byte is a character and the line ends are
plain.
-/
namespace ContextFree

namespace Text

/-! ## ASCII text in a file -/

variable {cs : List Char} {c : Char}

/-- A printable ASCII character, or a line feed. -/
def isPlainAscii (c : Char) : Bool := c == '\n' || (0x20 ≤ c.toNat && c.toNat ≤ 0x7E)

theorem lt_of_isPlainAscii (h : isPlainAscii c = true) : c.toNat < 0x80 := by
  simp only [isPlainAscii, Bool.or_eq_true, Bool.and_eq_true, decide_eq_true_eq, beq_iff_eq] at h
  obtain rfl | h := h
  · decide
  · omega

theorem decodeFrom_cons {lead : UInt8} {bytes after : List UInt8} {owed value position : Nat}
    (hlead : leadByte? lead.toNat = some (owed, value))
    (htail : readTail lead.toNat 1 value owed bytes = .ok (c, after)) :
    decodeFrom position (lead :: bytes) = (decodeFrom (position + 1 + owed) after).map (c :: ·) := by
  rw [decodeFrom]
  simp only [hlead]
  split
  · rename_i heq
    cases htail.symm.trans heq
  · rename_i heq
    cases htail.symm.trans heq
    rfl

theorem utf8EncodeChar_ascii (h : c.toNat < 0x80) :
    String.utf8EncodeChar c = [c.val.toUInt8] := by
  refine String.utf8EncodeChar_eq_singleton (Char.utf8Size_eq_one_iff.mpr ?_)
  rw [UInt32.le_iff_toNat_le]
  exact Nat.le_of_lt_succ h

theorem decodeFrom_ascii (h : ∀ c ∈ cs, c.toNat < 0x80) (position : Nat) :
    decodeFrom position (cs.flatMap String.utf8EncodeChar) = .ok cs := by
  induction cs generalizing position with
  | nil => rw [List.flatMap_nil, decodeFrom]
  | cons c cs ih =>
    have hc : c.toNat < 0x80 := h c List.mem_cons_self
    have hbyte : c.val.toUInt8.toNat = c.toNat := by
      rw [UInt32.toNat_toUInt8]
      exact Nat.mod_eq_of_lt (Nat.lt_trans hc (by decide))
    have hlead : leadByte? c.val.toUInt8.toNat = some (0, c.toNat) := by
      rw [hbyte, leadByte?, if_pos hc]
    rw [List.flatMap_cons, utf8EncodeChar_ascii hc, List.singleton_append, decodeFrom_cons hlead rfl,
      ih fun d hd => h d (List.mem_cons_of_mem _ hd), Char.ofNat_toNat]
    rfl

theorem plainLineEnds_eq_self (h : '\r' ∉ cs) : plainLineEnds cs = cs := by
  induction cs with
  | nil => rfl
  | cons c cs ih =>
    rw [List.mem_cons, not_or] at h
    rw [plainLineEnds, if_neg (Ne.symm h.1), ih h.2]
    rintro tail rfl -
    exact h.1 rfl

theorem toUTF8_eq_flatMap (s : String) : s.toUTF8.data.toList = s.toList.flatMap String.utf8EncodeChar := by
  have hbytes := String.toByteArray_ofList (l := s.toList)
  rw [String.ofList_toList] at hbytes
  rw [String.toUTF8_eq_toByteArray, hbytes]
  exact List.toList_data_toByteArray

end Text

open Text

namespace Json

/-! ## What is written is ASCII -/

variable {v : Json} {items : List Json} {members : List (String × Json)} {depth : Nat} {c : Char}

theorem isPlainAscii_of_isDigit (h : isDigit c = true) : isPlainAscii c = true := by
  simp only [isDigit, Char.le_def, UInt32.le_iff_toNat_le, Bool.and_eq_true, decide_eq_true_eq] at h
  simp only [isPlainAscii, Bool.or_eq_true, Bool.and_eq_true, decide_eq_true_eq]
  have hlow : 0x30 ≤ c.toNat := h.1
  have hhigh : c.toNat ≤ 0x39 := h.2
  omega

theorem ascii_hexDigit (n : Nat) : isPlainAscii (hexDigit n) = true := by
  have hdigits : ∀ d < 16, isPlainAscii d.digitChar = true := by decide
  exact hdigits (n % 16) (Nat.mod_lt n (by decide))

theorem ascii_unitEscape (n : Nat) : (unitEscape n).all isPlainAscii = true := by
  have hopen : isPlainAscii '\\' = true ∧ isPlainAscii 'u' = true := by decide
  simp [unitEscape, hexadecimal, ascii_hexDigit, hopen]

theorem ascii_escapeChar (c : Char) : (escapeChar c).all isPlainAscii = true := by
  obtain ⟨letter, -, hletter, heq⟩ | ⟨-, -, hlow, hhigh, heq⟩ | heq := escapeChar_cases c
  · rw [heq]
    unfold escapedChar? at hletter
    split at hletter <;> first | rfl | cases hletter
  · rw [heq]
    simp [isPlainAscii, hlow, hhigh]
  · rw [heq, escapeUnits]
    split
    · exact ascii_unitEscape _
    · simp [ascii_unitEscape]

theorem ascii_writeString (s : String) : (writeString s).all isPlainAscii = true := by
  have hchars : (s.toList.flatMap escapeChar).all isPlainAscii = true := by
    rw [List.all_flatMap]
    exact List.all_eq_true.mpr fun c _ => ascii_escapeChar c
  simp [writeString, hchars, isPlainAscii]

theorem ascii_lineAt (depth : Nat) : (lineAt depth).all isPlainAscii = true := by
  simp [lineAt, isPlainAscii]

theorem ascii_items (h : ∀ i ∈ items, (indentedAt depth i).all isPlainAscii = true) :
    (indentedItems depth items).all isPlainAscii = true := by
  induction items with
  | nil => rfl
  | cons item items ih =>
    have hitem := h item List.mem_cons_self
    have hitems := ih fun i hi => h i (List.mem_cons_of_mem _ hi)
    simp only [indentedItems, List.all_cons, List.all_append, ascii_lineAt, hitem, hitems]
    rfl

theorem ascii_members (h : ∀ m ∈ members, (indentedAt depth m.2).all isPlainAscii = true) :
    (indentedMembers depth members).all isPlainAscii = true := by
  induction members with
  | nil => rfl
  | cons member members ih =>
    have hvalue := h member List.mem_cons_self
    have hmembers := ih fun m hm => h m (List.mem_cons_of_mem _ hm)
    simp only [indentedMembers, List.all_cons, List.all_append, ascii_lineAt, ascii_writeString, hvalue, hmembers]
    decide

theorem ascii_toDigits (n : Nat) : (Nat.toDigits 10 n).all isPlainAscii = true :=
  List.all_eq_true.mpr fun _ hc => isPlainAscii_of_isDigit (isDigit_of_mem_toDigits hc)

theorem Plain.ascii (h : Plain v) (depth : Nat) : (indentedAt depth v).all isPlainAscii = true := by
  induction h generalizing depth with
  | null => rfl
  | bool value => cases value <;> rfl
  | @int value _ =>
    cases value with
    | ofNat n =>
      rw [show indentedAt depth (.int (.ofNat n)) = _ from writeScalar_ofNat n]
      exact ascii_toDigits n
    | negSucc n =>
      rw [show indentedAt depth (.int (.negSucc n)) = _ from writeScalar_negSucc n]
      exact ascii_toDigits (n + 1)
  | string value => exact ascii_writeString value
  | @array items _ ih =>
    cases items with
    | nil => rfl
    | cons item items =>
      have hitem := ih item List.mem_cons_self (depth + 1)
      have hitems := ascii_items fun i hi => ih i (List.mem_cons_of_mem _ hi) (depth + 1)
      simp only [indentedAt, List.all_cons, List.all_append, ascii_lineAt, hitem, hitems]
      decide
  | @object members _ _ ih =>
    cases members with
    | nil => rfl
    | cons member members =>
      have hvalue := ih member List.mem_cons_self (depth + 1)
      have hmembers := ascii_members fun m hm => ih m (List.mem_cons_of_mem _ hm) (depth + 1)
      simp only [indentedAt, List.all_cons, List.all_append, ascii_lineAt, ascii_writeString, hvalue, hmembers]
      decide

end Json

theorem FileTree.text_of_plainAscii {tree : FileTree} {path : FilePath} {s : String}
    (h : s.toList.all isPlainAscii = true) (hbytes : tree.bytes path = .ok s.toUTF8.data.toList) :
    tree.text path = .ok s := by
  have hascii := List.all_eq_true.mp h
  have hdecode : decode (s.toList.flatMap String.utf8EncodeChar) = .ok s.toList :=
    decodeFrom_ascii (fun c hc => lt_of_isPlainAscii (hascii c hc)) 0
  have hreturn : '\r' ∉ s.toList := fun hmem => absurd (hascii _ hmem) (by decide)
  rw [FileTree.text, hbytes, toUTF8_eq_flatMap]
  simp only [bind, Except.bind, hdecode, plainLineEnds_eq_self hreturn, String.ofList_toList]
  rfl

namespace Settings

/-! ## Settings -/

/-- What saving keeps: settings without numbers other than integers, none of which is too long. -/
structure Plain (s : Settings) : Prop where
  keepStartEpsilon : s.keepStartEpsilon.Plain
  factor : s.factor.Plain
  verbose : s.verbose.Plain
  logLevel : s.logLevel.Plain

variable {s : Settings}

theorem Plain.toJson (h : s.Plain) : s.toJson.Plain := by
  simp [Settings.toJson, h.keepStartEpsilon, h.factor, h.verbose, h.logLevel]

theorem ofMembers_toJson (s : Settings) :
    ofMembers [("keep_start_epsilon", s.keepStartEpsilon), ("iteration_factor", s.factor),
      ("verbose", s.verbose), ("log_level", s.logLevel)] = .ok s := by
  simp [ofMembers, keys, List.lookup, s.factor_positive]

theorem ofText_save (h : s.Plain) (path : FilePath) : ofText path s.save = .ok s := by
  rw [ofText, save, Json.read_indented h.toJson]
  exact ofMembers_toJson s

theorem ascii_save (h : s.Plain) : s.save.toList.all isPlainAscii = true := by
  rw [save, Json.indented, String.toList_ofList]
  exact h.toJson.ascii 0

/-- **Saving and loading settings.** Settings without numbers other than integers, none of which is too long,
are the same again when the saved text is read, and when a file that holds it is loaded. -/
theorem load_save (h : s.Plain) (path : FilePath) :
    ofText path s.save = .ok s ∧
    ∀ tree place, FileTree.atHome tree path = .ok place →
      tree.bytes place = .ok s.save.toUTF8.data.toList → load tree path = .ok s := by
  refine ⟨ofText_save h path, fun tree place hhome hbytes => ?_⟩
  have htext := FileTree.text_of_plainAscii (ascii_save h) hbytes
  rw [load, hhome]
  simp only [htext]
  exact ofText_save h place

/-- Lists and objects within each other, empty ones among them, a quote and a control character in names, and a
character of two units. -/
def nested : Settings where
  keepStartEpsilon := .array [.object [("a\"", .null), ("\x01", .array [])], .int (-120), .object []]
  factor := .bool true
  verbose := .object [("", .array [.array [.int 0], .bool false])]
  logLevel := .string "\\😀\n"
  factor_positive := rfl

/-- A directory with one file in it. -/
def kept (bytes : List UInt8) : FileTree := ⟨[(["c.json"], bytes)], [], []⟩

theorem load_save_nested : nested.Plain ∧ ofText ⟨"", ["c.json"]⟩ nested.save = .ok nested ∧
    load (kept nested.save.toUTF8.data.toList) ⟨"", ["c.json"]⟩ = .ok nested := by
  have hplain : nested.Plain :=
    ⟨by simp [nested]; decide, by simp [nested], by simp [nested]; decide, by simp [nested]⟩
  obtain ⟨htext, hload⟩ := load_save hplain ⟨"", ["c.json"]⟩
  refine ⟨hplain, htext, hload _ ⟨"", ["c.json"]⟩ rfl ?_⟩
  generalize nested.save.toUTF8.data.toList = bytes
  cbv

end Settings

end ContextFree
