import LineMonitor.Proofs.Listing.Tiling
import LineMonitor.Proofs.Listing.Typed
import LineMonitor.Proofs.Text.Digits
import LineMonitor.Proofs.Text.Pieces
import Mathlib.Data.Bool.AllAny

/-!
# Listings as text

A line of a listing has a margin of sixteen characters, with the address in the first four and the
bytes in the eight from the sixth on; the instruction stands behind it, and a comment from column 30
on (`Row.OfCode.line_of_no_comment`, `Row.OfCode.line_of_comment`).  There are no line feeds within
lines (`Row.OfCode.newline_notMem`), so the lines of the text are those of the rows, and what a
reader finds in the columns of each are the bytes of its row (`Row.OfCode.bytes_read`).
`listingText_readsBack` puts this together.
-/

namespace LineMonitor

/-- So many characters of a line, from a column on. -/
def columns (first count : Nat) (line : List Char) : List Char :=
  (line.drop first).take count

/-- What stands behind `first` characters fills its columns. -/
theorem columns_eq {first count : Nat} {line middle : List Char} (front back : List Char)
    (hline : line = front ++ (middle ++ back)) (hfirst : front.length = first)
    (hcount : middle.length = count) : columns first count line = middle := by
  rw [columns, hline, ← hfirst, List.drop_left, ← hcount, List.take_left]

/-- A character that stands once in a line. -/
theorem getElem?_eq_some_iff_of_notMem {front back : List Char} {c : Char} (hfront : c ∉ front)
    (hback : c ∉ back) (i : Nat) : (front ++ c :: back)[i]? = some c ↔ i = front.length := by
  constructor
  · intro h
    rcases Nat.lt_trichotomy i front.length with hlt | heq | hgt
    · rw [List.getElem?_append_left hlt] at h
      exact absurd (List.mem_of_getElem? h) hfront
    · exact heq
    · obtain ⟨j, hj⟩ := Nat.exists_eq_add_of_lt hgt
      rw [List.getElem?_append_right hgt.le, hj, Nat.add_assoc, Nat.add_sub_cancel_left,
        List.getElem?_cons_succ] at h
      exact absurd (List.mem_of_getElem? h) hback
  · rintro rfl
    rw [List.getElem?_append_right (Nat.le_refl _), Nat.sub_self, List.getElem?_cons_zero]

/-- Written things are read back together if each of them is. -/
theorem mapM_map_eq_some {α β γ : Type} {read : β → Option γ} {written : α → β} {value : α → γ}
    {things : List α} (h : ∀ x ∈ things, read (written x) = some (value x)) :
    (things.map written).mapM read = some (things.map value) := by
  induction things with
  | nil => rfl
  | cons x others ih =>
    obtain ⟨hx, hothers⟩ := List.forall_mem_cons.mp h
    rw [List.map_cons, List.mapM_cons, hx, ih hothers]
    rfl

namespace Hex

/-- The byte of two digits. -/
def byte? : List Char → Option (BitVec 8)
  | [high, low] => (value? [high, low]).map (BitVec.ofNat 8)
  | _ => none

/-- The bytes of pairs of digits with blanks between and behind them. -/
def bytes? (text : List Char) : Option (List (BitVec 8)) :=
  ((Text.pieces ' ' text).filter (· ≠ [])).mapM byte?

/-- A byte is written with two digits. -/
theorem ofByte_eq_write (b : BitVec 8) :
    ∃ ds, ds.length = 2 ∧ (ofByte b).toList = write ds ∧ number ds = b.toNat := by
  obtain ⟨ds, hds, hlength, hnumber⟩ :=
    padded_eq_write (show b.toNat < 16 ^ 2 from b.isLt) (by decide)
  exact ⟨ds, hlength, by rw [ofByte, String.toList_ofList, hds], hnumber⟩

theorem length_ofByte (b : BitVec 8) : (ofByte b).toList.length = 2 := by
  obtain ⟨ds, hlength, hds, -⟩ := ofByte_eq_write b
  rw [hds, length_write, hlength]

/-- A byte is read back from its two digits. -/
theorem byte?_ofByte (b : BitVec 8) : byte? (ofByte b).toList = some b := by
  have hvalue : value? (ofByte b).toList = some b.toNat := by
    rw [ofByte, String.toList_ofList, value?_padded]
  have hlength := length_ofByte b
  match htext : (ofByte b).toList, hlength with
  | [high, low], _ =>
    rw [byte?, ← htext, hvalue, Option.map_some, BitVec.ofNat_toNat, BitVec.setWidth_eq]

/-- The digits of a byte are something, and no blanks. -/
theorem ofByte_ne_nil (b : BitVec 8) : (ofByte b).toList ≠ [] ∧ ' ' ∉ (ofByte b).toList := by
  obtain ⟨ds, hlength, hds, -⟩ := ofByte_eq_write b
  have hall : ∀ d : Fin 16, digit d ≠ ' ' := by decide
  rw [hds]
  refine ⟨fun hnil => ?_, fun hmem => ?_⟩
  · rw [← length_write, hnil] at hlength
    cases hlength
  · obtain ⟨d, -, hd⟩ := List.mem_map.mp hmem
    exact hall d hd

/-- A digit is typed as it is. -/
theorem isPlain_of_mem_write {ds : List (Fin 16)} {c : Char} (h : c ∈ write ds) :
    Row.IsPlain c := by
  have hall : ∀ d : Fin 16, Row.IsPlain (digit d) := by decide
  obtain ⟨d, -, rfl⟩ := List.mem_map.mp h
  exact hall d

theorem toList_ofBytes (data : List (BitVec 8)) :
    (ofBytes data).toList = [' '].intercalate (data.map fun b => (ofByte b).toList) := by
  rw [ofBytes, String.toList_intercalate, List.map_map]
  rfl

/-- Bytes are written with digits and blanks. -/
theorem isPlain_of_mem_ofBytes {data : List (BitVec 8)} {c : Char}
    (h : c ∈ (ofBytes data).toList) : Row.IsPlain c := by
  rw [toList_ofBytes] at h
  induction data with
  | nil => cases h
  | cons b rest ih =>
    have hfirst : ∀ c ∈ (ofByte b).toList, Row.IsPlain c := by
      obtain ⟨ds, -, hds, -⟩ := ofByte_eq_write b
      intro c hc
      rw [hds] at hc
      exact isPlain_of_mem_write hc
    cases rest with
    | nil => exact hfirst c (by simpa using h)
    | cons next others =>
      rw [List.map_cons, List.map_cons, List.intercalate_cons_cons, List.mem_append,
        List.mem_append] at h
      rcases h with (h | h) | h
      · exact hfirst c h
      · rw [List.mem_singleton.mp h]
        decide
      · exact ih h

/-- So many bytes fill eight columns at most. -/
theorem length_ofBytes_le {data : List (BitVec 8)} (h : data.length ≤ 3) :
    (ofBytes data).length ≤ 8 := by
  rw [← String.length_toList, toList_ofBytes]
  match data, h with
  | [], _ => simp
  | [b], _ => simp [length_ofByte]
  | [b, c], _ => simp [List.intercalate_cons_cons, length_ofByte]
  | [b, c, d], _ => simp [List.intercalate_cons_cons, length_ofByte]

/-- Bytes are read back from the columns that they fill. -/
theorem bytes?_padEnd {data : List (BitVec 8)} (hne : data ≠ []) (width : Nat) :
    bytes? (Row.padEnd width (ofBytes data)).toList = some data := by
  have hblank : ∀ text ∈ data.map fun b => (ofByte b).toList, ' ' ∉ text := by
    intro text htext
    obtain ⟨b, -, rfl⟩ := List.mem_map.mp htext
    exact (ofByte_ne_nil b).2
  have hkept : (data.map fun b => (ofByte b).toList).filter (· ≠ []) =
      data.map fun b => (ofByte b).toList := by
    rw [List.filter_eq_self]
    intro text htext
    obtain ⟨b, -, rfl⟩ := List.mem_map.mp htext
    exact decide_eq_true (ofByte_ne_nil b).1
  have hdropped : ∀ count, (List.replicate count ([] : List Char)).filter (· ≠ []) = [] := by
    intro count
    rw [List.filter_replicate, if_neg (by decide)]
  have hread : (data.map fun b => (ofByte b).toList).mapM byte? = some (data.map fun b => b) :=
    mapM_map_eq_some fun b _ => byte?_ofByte b
  rw [bytes?, Row.padEnd, String.toList_append, String.toList_ofList,
    Text.pieces_append_replicate, toList_ofBytes, Text.pieces_intercalate ' ' (by simpa) hblank,
    List.filter_append, hkept, hdropped, List.append_nil, hread, List.map_id']

end Hex

/-- The address in the first four columns of a line. -/
def lineAddress? (line : List Char) : Option Nat :=
  Hex.value? (columns 0 4 line)

/-- The bytes in the eight columns of a line from the sixth on. -/
def lineBytes? (line : List Char) : Option (List Byte) :=
  Hex.bytes? (columns 6 8 line)

namespace Row

/-! ## The parts of a line -/

theorem toList_padEnd (width : Nat) (text : String) :
    (padEnd width text).toList =
      text.toList ++ List.replicate (width - text.toList.length) ' ' := by
  rw [padEnd, String.toList_append, String.toList_ofList, String.length_toList]

theorem length_padEnd {width : Nat} {text : String} (h : text.length ≤ width) :
    (padEnd width text).toList.length = width := by
  rw [toList_padEnd, List.length_append, List.length_replicate, String.length_toList]
  omega

theorem isPlain_of_mem_padEnd {width : Nat} {text : String} (h : ∀ c ∈ text.toList, IsPlain c) :
    ∀ c ∈ (padEnd width text).toList, IsPlain c := by
  intro c hc
  rw [toList_padEnd, List.mem_append] at hc
  rcases hc with hc | hc
  · exact h c hc
  · rw [(List.mem_replicate.mp hc).2]
    decide

/-- What stands in a line in front of the instruction. -/
def margin (r : Row) : List Char :=
  (Hex.ofInt 4 r.address).toList ++ ([' ', ' '] ++ ((padEnd 8 (Hex.ofBytes r.raw)).toList ++
    [' ', ' ']))

/-- The row is that of code at an address. -/
def OfCode (r : Row) : Prop :=
  ∃ (a : Address) (opcode : Byte) (rest : List Byte), r = ofCode a.toNat opcode rest

namespace OfCode

variable {r : Row}

/-- A row shows a whole instruction, or has the mnemonic alone and a comment on it. -/
theorem cases (h : r.OfCode) :
    (∃ e ∈ Encoding.all, ∃ (a : Address) (operand : List Byte),
      operand.length = e.mode.operandLength ∧ r = e.row a.toNat operand) ∨
    (r.text.length = 3 ∧ (∀ c ∈ r.text.toList, IsPlain c) ∧
      (r.comment = "unknown opcode" ∨ r.comment = "incomplete instruction")) := by
  obtain ⟨a, opcode, rest, rfl⟩ := h
  by_cases hcomment : (ofCode a.toNat opcode rest).comment = ""
  · obtain ⟨e, he, operand, behind, rfl, rfl, hlen⟩ := exists_encoding_of_comment hcomment
    exact Or.inl ⟨e, he, a, operand, hlen, ofCode_of_complete he _ hlen behind⟩
  · refine Or.inr ?_
    unfold ofCode decode at hcomment ⊢
    cases hfound : Encoding.ofOpcode? opcode with
    | none =>
      show "???".length = 3 ∧ (∀ c ∈ "???".toList, IsPlain c) ∧ _
      exact ⟨rfl, List.all_iff_forall_prop.mp (by decide), Or.inl rfl⟩
    | some e =>
      simp only [hfound] at hcomment ⊢
      split at hcomment
      · rename_i hshort
        rw [if_pos hshort]
        refine ⟨?_, ?_, Or.inr rfl⟩
        · rw [← String.length_toList]
          exact e.mnemonic.length_name
        · exact fun c hc => isPlain_of_isLetter (e.mnemonic.isLetter_of_mem_name c hc)
      · exact absurd rfl hcomment

/-- The address of a row has four digits, from which it is read back. -/
theorem exists_address (h : r.OfCode) : ∃ ds : List (Fin 16), ds.length = 4 ∧
    (Hex.ofInt 4 r.address).toList = Hex.write ds ∧ r.address = Hex.number ds := by
  obtain ⟨a, opcode, rest, rfl⟩ := h
  obtain ⟨ds, hlength, hds, hnumber⟩ := Hex.ofAddress_eq_write a
  rw [address_ofCode]
  exact ⟨ds, hlength, hds, congrArg Nat.cast hnumber.symm⟩

theorem length_address (h : r.OfCode) : (Hex.ofInt 4 r.address).toList.length = 4 := by
  obtain ⟨ds, hlength, hds, -⟩ := h.exists_address
  rw [hds, Hex.length_write, hlength]

theorem size_bounds (h : r.OfCode) : 1 ≤ r.size ∧ r.size ≤ 3 := by
  obtain ⟨a, opcode, rest, rfl⟩ := h
  exact size_bounds_ofCode a.toNat opcode rest

/-- The bytes of a row have eight columns. -/
theorem length_bytes (h : r.OfCode) : (padEnd 8 (Hex.ofBytes r.raw)).toList.length = 8 :=
  length_padEnd (Hex.length_ofBytes_le h.size_bounds.2)

/-- The margin has sixteen columns. -/
theorem length_margin (h : r.OfCode) : r.margin.length = 16 := by
  rw [margin, List.length_append, List.length_append, List.length_append, h.length_address,
    h.length_bytes]
  rfl

/-- What stands in front of a comment is typed as it is. -/
theorem isPlain (h : r.OfCode) :
    (∀ c ∈ r.margin, IsPlain c) ∧ ∀ c ∈ r.text.toList, IsPlain c := by
  have hblank : ∀ c ∈ [' ', ' '], IsPlain c := List.all_iff_forall_prop.mp (by decide)
  constructor
  · intro c hc
    obtain ⟨ds, -, hds, -⟩ := h.exists_address
    rw [margin, hds, List.mem_append, List.mem_append, List.mem_append] at hc
    rcases hc with hc | hc | hc | hc
    · exact Hex.isPlain_of_mem_write hc
    · exact hblank c hc
    · exact isPlain_of_mem_padEnd (fun _ => Hex.isPlain_of_mem_ofBytes) c hc
    · exact hblank c hc
  · rcases h.cases with ⟨e, -, a, operand, hlen, rfl⟩ | ⟨-, hplain, -⟩
    · exact e.isPlain_of_mem_row a.toNat hlen
    · exact hplain

/-- A line without comment ends with the text. -/
theorem line_of_no_comment (h : r.OfCode) (hcomment : r.comment = "") :
    r.line.toList = r.margin ++ r.text.toList := by
  rcases h.cases with ⟨e, he, a, operand, hlen, rfl⟩ | ⟨-, -, hother⟩
  · rw [e.line_row a.toNat hlen]
    simp [margin, Encoding.row]
  · rw [hcomment] at hother
    exact absurd hother (by decide)

/-- A comment stands behind a short text and ends with a word, and there is no semicolon and no line
feed in it. -/
theorem exists_words (h : r.OfCode) (hcomment : r.comment ≠ "") : r.text.length ≤ 14 ∧
    ∃ front back, r.comment.toList = front ++ back ∧ back ≠ [] ∧
      (∀ c ∈ back, Text.isBlank c = false) ∧ ∀ c ∈ front ++ back, c ≠ ';' ∧ c ≠ '\n' := by
  rcases h.cases with ⟨e, -, a, operand, -, rfl⟩ | ⟨htext, -, hword | hword⟩
  · exact absurd rfl hcomment
  · refine ⟨by omega, "unknown ".toList, "opcode".toList, by rw [hword]; decide, by decide, ?_⟩
    exact ⟨List.all_iff_forall_prop.mp (by decide), List.all_iff_forall_prop.mp (by decide)⟩
  · refine ⟨by omega, "incomplete ".toList, "instruction".toList, by rw [hword]; decide,
      by decide, ?_⟩
    exact ⟨List.all_iff_forall_prop.mp (by decide), List.all_iff_forall_prop.mp (by decide)⟩

/-- A line with a comment has fourteen columns for the text. -/
theorem line_of_comment (h : r.OfCode) (hcomment : r.comment ≠ "") :
    r.line.toList =
      r.margin ++ (padEnd 14 r.text).toList ++ ';' :: ' ' :: r.comment.toList := by
  -- the last word of the comment keeps the line from being stripped
  obtain ⟨-, front, back, hends, hback, hblank, -⟩ := h.exists_words hcomment
  have hcolumns : (Hex.ofInt 4 r.address ++ "  " ++ padEnd 8 (Hex.ofBytes r.raw) ++ "  " ++
      r.text).toList = r.margin ++ r.text.toList := by
    simp [margin]
  have hpadded : (padEnd commentColumn (Hex.ofInt 4 r.address ++ "  " ++
      padEnd 8 (Hex.ofBytes r.raw) ++ "  " ++ r.text)).toList =
        r.margin ++ (padEnd 14 r.text).toList := by
    have hwidth : 30 - (16 + r.text.toList.length) = 14 - r.text.toList.length := by omega
    rw [toList_padEnd, hcolumns, List.length_append, h.length_margin, commentColumn, hwidth,
      List.append_assoc, ← toList_padEnd]
  have hline : r.margin ++ (padEnd 14 r.text).toList ++ ';' :: ' ' :: r.comment.toList =
      (r.margin ++ (padEnd 14 r.text).toList ++ ';' :: ' ' :: front) ++ back := by
    rw [hends, List.append_assoc (r.margin ++ _)]
    rfl
  have hempty : r.comment.isEmpty = false := by
    rw [Bool.eq_false_iff]
    exact fun hempty => hcomment (String.isEmpty_iff.mp hempty)
  rw [line, hempty, if_neg (by decide), String.toList_ofList, String.toList_append,
    String.toList_append, hpadded, hline, ← Text.stripEnd_append hback hblank, ← hline,
    List.append_assoc (r.margin ++ _)]
  rfl

/-- Every line begins with the margin and the text. -/
theorem exists_line (h : r.OfCode) :
    ∃ behind, r.line.toList = r.margin ++ (r.text.toList ++ behind) := by
  by_cases hcomment : r.comment = ""
  · exact ⟨[], by rw [h.line_of_no_comment hcomment, List.append_nil]⟩
  · refine ⟨List.replicate (14 - r.text.toList.length) ' ' ++
      ';' :: ' ' :: r.comment.toList, ?_⟩
    rw [h.line_of_comment hcomment, toList_padEnd, List.append_assoc, List.append_assoc]

/-- A line is one line. -/
theorem newline_notMem (h : r.OfCode) : '\n' ∉ r.line.toList := by
  obtain ⟨hmargin, htext⟩ := h.isPlain
  have hfeed : ∀ text : List Char, (∀ c ∈ text, IsPlain c) → '\n' ∉ text := fun text =>
    notMem_of_isPlain (by decide)
  by_cases hcomment : r.comment = ""
  · rw [h.line_of_no_comment hcomment, List.mem_append, not_or]
    exact ⟨hfeed _ hmargin, hfeed _ htext⟩
  · obtain ⟨-, front, back, hends, -, -, hwords⟩ := h.exists_words hcomment
    rw [h.line_of_comment hcomment, hends, List.mem_append, List.mem_append, List.mem_cons,
      List.mem_cons]
    rintro ((hmem | hmem) | hmem | hmem | hmem)
    · exact hfeed _ hmargin hmem
    · exact hfeed _ (isPlain_of_mem_padEnd htext) hmem
    · exact absurd hmem (by decide)
    · exact absurd hmem (by decide)
    · exact (hwords _ hmem).2 rfl

end OfCode

/-! ## Columns -/

/-- What stands in which columns of the line of a row. -/
structure InColumns (r : Row) : Prop where
  /-- The first four characters are the address, -/
  address_eq : columns 0 4 r.line.toList = (Hex.ofInt 4 r.address).toList
  /-- from which it is read back. -/
  address_read : ∃ n : Nat, r.address = n ∧ lineAddress? r.line.toList = some n
  /-- The eight characters from the sixth column on are the bytes, with blanks behind them, -/
  bytes_eq : columns 6 8 r.line.toList = (padEnd 8 (Hex.ofBytes r.raw)).toList
  /-- from which they are read back. -/
  bytes_read : lineBytes? r.line.toList = some r.raw
  /-- The text begins in column 16. -/
  text_prefix : r.text.toList <+: r.line.toList.drop 16
  /-- Nothing stands behind the text of a row without comment. -/
  uncommented : r.comment = "" → r.line.toList.drop 16 = r.text.toList
  /-- Blanks stand between the text and a comment, which begins in column 30. -/
  commented : r.comment ≠ "" → columns 16 14 r.line.toList = (padEnd 14 r.text).toList ∧
    r.line.toList.drop 30 = ("; " ++ r.comment).toList
  /-- There is a semicolon in front of a comment and nowhere else. -/
  semicolon_iff : ∀ i : Nat, r.line.toList[i]? = some ';' ↔ i = 30 ∧ r.comment ≠ ""

section Columns

variable {r : Row}

theorem OfCode.address_eq (h : r.OfCode) :
    columns 0 4 r.line.toList = (Hex.ofInt 4 r.address).toList := by
  obtain ⟨behind, hline⟩ := h.exists_line
  rw [hline, margin, List.append_assoc]
  exact columns_eq [] _ rfl rfl h.length_address

theorem OfCode.address_read (h : r.OfCode) :
    ∃ n : Nat, r.address = n ∧ lineAddress? r.line.toList = some n := by
  obtain ⟨ds, hlength, hds, hnumber⟩ := h.exists_address
  refine ⟨_, hnumber, ?_⟩
  rw [lineAddress?, h.address_eq, hds, Hex.value?_eq_some_iff]
  refine ⟨ds, ?_, rfl, rfl⟩
  rintro rfl
  cases hlength

theorem OfCode.bytes_eq (h : r.OfCode) :
    columns 6 8 r.line.toList = (padEnd 8 (Hex.ofBytes r.raw)).toList := by
  obtain ⟨behind, hline⟩ := h.exists_line
  refine columns_eq ((Hex.ofInt 4 r.address).toList ++ [' ', ' '])
    ([' ', ' '] ++ (r.text.toList ++ behind)) ?_ ?_ h.length_bytes
  · rw [hline, margin]
    simp only [List.append_assoc]
  · rw [List.length_append, h.length_address]
    rfl

theorem OfCode.bytes_read (h : r.OfCode) : lineBytes? r.line.toList = some r.raw := by
  have hne : r.raw ≠ [] := List.length_pos_iff.mp h.size_bounds.1
  rw [lineBytes?, h.bytes_eq, Hex.bytes?_padEnd hne]

theorem OfCode.semicolon_iff (h : r.OfCode) (i : Nat) :
    r.line.toList[i]? = some ';' ↔ i = 30 ∧ r.comment ≠ "" := by
  obtain ⟨hmargin, htext⟩ := h.isPlain
  have hnone : ∀ text : List Char, (∀ c ∈ text, IsPlain c) → ';' ∉ text := fun text hplain hmem =>
    (hplain _ hmem).2.2 rfl
  by_cases hcomment : r.comment = ""
  · rw [h.line_of_no_comment hcomment]
    refine iff_of_false (fun hi => ?_) fun hi => hi.2 hcomment
    rcases List.mem_append.mp (List.mem_of_getElem? hi) with hmem | hmem
    · exact hnone _ hmargin hmem
    · exact hnone _ htext hmem
  · obtain ⟨hwidth, front, back, hends, -, -, hwords⟩ := h.exists_words hcomment
    rw [h.line_of_comment hcomment, hends, getElem?_eq_some_iff_of_notMem, List.length_append,
      h.length_margin, length_padEnd hwidth, and_iff_left hcomment]
    · rw [List.mem_append, not_or]
      exact ⟨hnone _ hmargin, hnone _ (isPlain_of_mem_padEnd htext)⟩
    · rw [List.mem_cons, not_or]
      exact ⟨by decide, fun hmem => (hwords _ hmem).1 rfl⟩

/-- The rows of code are in columns. -/
theorem OfCode.inColumns (h : r.OfCode) : r.InColumns := by
  refine {
    address_eq := h.address_eq
    address_read := h.address_read
    bytes_eq := h.bytes_eq
    bytes_read := h.bytes_read
    text_prefix := ?_
    uncommented := fun hcomment => ?_
    commented := fun hcomment => ?_
    semicolon_iff := h.semicolon_iff }
  · obtain ⟨behind, hline⟩ := h.exists_line
    rw [hline, List.drop_left' h.length_margin]
    exact List.prefix_append _ _
  · rw [h.line_of_no_comment hcomment, List.drop_left' h.length_margin]
  · have hline := h.line_of_comment hcomment
    have hpadded := length_padEnd (h.exists_words hcomment).1
    have hfront : (r.margin ++ (padEnd 14 r.text).toList).length = 30 := by
      rw [List.length_append, h.length_margin, hpadded]
    refine ⟨columns_eq _ _ (hline.trans (List.append_assoc _ _ _)) h.length_margin hpadded, ?_⟩
    rw [hline, List.drop_left' hfront, String.toList_append]
    rfl

end Columns

end Row

/-! ## Reading a listing -/

/-- The address in front of the first line of a text. -/
def readStart? (text : List Char) : Option Nat :=
  (Text.pieces '\n' text).head?.bind lineAddress?

/-- The bytes in the columns of the lines of a text, one line after the other. -/
def readCode? (text : List Char) : Option (List Byte) :=
  ((Text.pieces '\n' text).mapM lineBytes?).map List.flatten

/-- How the text of a listing shows the code that begins at an address. -/
structure ReadsBack (a : Address) (code : List Byte) : Prop where
  /-- The lines of the text are those of the rows. -/
  lines_eq : Text.pieces '\n' (listingText a.toNat code).toList =
    (listing a.toNat code).map fun r => r.line.toList
  /-- Each line is in columns. -/
  inColumns : ∀ r ∈ listing a.toNat code, r.InColumns
  /-- The first line begins with the address of the code. -/
  start_read : readStart? (listingText a.toNat code).toList = some a.toNat
  /-- The bytes in the columns of all lines are the code. -/
  code_read : readCode? (listingText a.toNat code).toList = some code
  /-- No other code and no other address have the same text. -/
  injective : ∀ (b : Address) (other : List Byte), other ≠ [] →
    listingText b.toNat other = listingText a.toNat code → b = a ∧ other = code

theorem ofCode_of_mem_listing {a : Address} {code : List Byte} {r : Row}
    (hr : r ∈ listing a.toNat code) : r.OfCode := by
  obtain ⟨front, back, h⟩ := List.append_of_mem hr
  obtain ⟨opcode, rest, -, hrow, -⟩ := exists_ofCode_of_listing_eq_append h
  exact ⟨_, opcode, rest, hrow⟩

section Code

variable (a : Address) {code : List Byte}

/-- The lines of a listing are those of its rows, as there is a row. -/
theorem pieces_listingText (h : code ≠ []) :
    Text.pieces '\n' (listingText a.toNat code).toList =
      (listing a.toNat code).map fun r => r.line.toList := by
  rw [listingText, String.toList_intercalate, List.map_map]
  refine Text.pieces_intercalate '\n' ?_ fun text htext => ?_
  · obtain ⟨opcode, rest, rfl⟩ := List.exists_cons_of_ne_nil h
    rw [listing_cons]
    exact List.cons_ne_nil _ _
  · obtain ⟨r, hr, rfl⟩ := List.mem_map.mp htext
    exact (ofCode_of_mem_listing hr).newline_notMem

theorem readStart?_listingText (h : code ≠ []) :
    readStart? (listingText a.toNat code).toList = some a.toNat := by
  rw [readStart?, pieces_listingText a h]
  obtain ⟨opcode, rest, rfl⟩ := List.exists_cons_of_ne_nil h
  obtain ⟨n, hn, hread⟩ := Row.OfCode.address_read ⟨a, opcode, rest, rfl⟩
  rw [Row.address_ofCode, Int.natCast_inj] at hn
  rw [listing_cons, List.map_cons, List.head?_cons, Option.bind_some, hread, hn]

theorem readCode?_listingText (h : code ≠ []) :
    readCode? (listingText a.toNat code).toList = some code := by
  rw [readCode?, pieces_listingText a h,
    mapM_map_eq_some fun r hr => (ofCode_of_mem_listing hr).bytes_read, Option.map_some,
    ← List.flatMap_def]
  exact congrArg some (code_listing a code)

/-- The text of a listing gives back the code and its address, wherever the code begins and whatever
it is. -/
theorem listingText_readsBack (h : code ≠ []) : ReadsBack a code := by
  refine {
    lines_eq := pieces_listingText a h
    inColumns := fun r hr => (ofCode_of_mem_listing hr).inColumns
    start_read := readStart?_listingText a h
    code_read := readCode?_listingText a h
    injective := fun b other hother htext => ⟨?_, ?_⟩ }
  · have hstart := readStart?_listingText b hother
    rw [htext, readStart?_listingText a h] at hstart
    exact BitVec.eq_of_toNat_eq (Option.some.inj hstart).symm
  · have hcode := readCode?_listingText b hother
    rw [htext, readCode?_listingText a h] at hcode
    exact (Option.some.inj hcode).symm

end Code

theorem listingText_readsBack_wrapping :
    ([0xEA, 0x02, 0xA2] : List Byte) ≠ [] ∧ ReadsBack 0xFFFF [0xEA, 0x02, 0xA2] :=
  ⟨by decide, listingText_readsBack 0xFFFF (by decide)⟩

example : listingText 0xFFFF [0xEA, 0x02, 0xA2] =
    "FFFF  EA        NOP\n" ++
    "0000  02        ???           ; unknown opcode\n" ++
    "0001  A2        LDX           ; incomplete instruction" := by
  decide +kernel

end LineMonitor
