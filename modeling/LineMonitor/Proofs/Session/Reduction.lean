import LineMonitor.Proofs.Listing.Columns
import LineMonitor.Proofs.Memory.History
import LineMonitor.Proofs.Session.Listing

/-!
# Addresses that are not reduced

A session can be asked to assemble or to list from any integer, which stands for an address modulo
65536.  Assembling takes the integer modulo 65536 at once.  A listing takes the bytes from the
reduced address, comes to the same address in the end, and shows the same rows, except that the
first of them keeps the integer itself as its address (`Session.list_eq_relabel`).  So the lines
that are printed are those of the reduced address, with four digits in front of each, exactly if the
integer was reduced to begin with or nothing is listed: `Session.address_reduction`.
-/

namespace LineMonitor

/-! ## Numbers in four digits -/

namespace Hex

/-- What an integer is written as has a value exactly if the integer is not negative. -/
theorem value?_ofInt (width : Nat) (n : Int) :
    value? (ofInt width n).toList = if 0 ≤ n then some n.toNat else none := by
  cases n with
  | ofNat n =>
    rw [ofInt, String.toList_ofList, value?_padded, Int.ofNat_eq_natCast,
      if_pos (Int.natCast_nonneg n), Int.toNat_natCast]
  | negSucc n =>
    have hsign : digitValue? '-' = none := by decide
    rw [ofInt, String.toList_ofList, if_neg (by omega), value?, valueAfter?_cons, hsign]
    · rfl
    · exact List.cons_ne_nil _ _

/-- Only the number itself is written as a number is. -/
theorem ofInt_eq_natCast_iff {width : Nat} {n : Int} {k : Nat} :
    ofInt width n = ofInt width k ↔ n = k := by
  refine ⟨fun h => ?_, fun h => by rw [h]⟩
  have hvalue := congrArg (fun text => value? text.toList) h
  rw [value?_ofInt, value?_ofInt, if_pos (Int.natCast_nonneg k)] at hvalue
  split at hvalue
  · have := Option.some.inj hvalue
    omega
  · cases hvalue

/-- Four digits are written for the integers below 65536 that are not negative. -/
theorem ofInt_four_digits_iff {n : Int} :
    (∃ ds : List (Fin 16), ds.length = 4 ∧ (ofInt 4 n).toList = write ds) ↔
      0 ≤ n ∧ n < 65536 := by
  constructor
  · rintro ⟨ds, hlength, hds⟩
    have hne : ds ≠ [] := by
      rintro rfl
      cases hlength
    have hvalue := value?_eq_some_iff.mpr ⟨ds, hne, hds, rfl⟩
    have hbound := number_lt ds
    rw [hlength] at hbound
    rw [value?_ofInt] at hvalue
    split at hvalue
    · have := Option.some.inj hvalue
      omega
    · cases hvalue
  · rintro ⟨hpos, hlt⟩
    obtain ⟨n, rfl⟩ := Int.eq_ofNat_of_zero_le hpos
    have hbound : n < 16 ^ 4 := by omega
    obtain ⟨ds, hds, hlength, -⟩ := padded_eq_write hbound (by decide)
    exact ⟨ds, hlength, hds ▸ String.toList_ofList⟩

/-- A number is written without white space. -/
theorem not_isBlank_of_mem_ofInt {width : Nat} {n : Int} :
    ∀ c ∈ (ofInt width n).toList, Text.isBlank c = false := by
  have hdigit : ∀ d : Fin 16, Text.isBlank (digit d) = false := by decide
  have hpadded : ∀ width n, ∀ c ∈ padded width n, Text.isBlank c = false := by
    intro width n c hc
    obtain ⟨ds, -, hds, -⟩ := value?_eq_some_iff.mp (value?_padded width n)
    rw [hds] at hc
    obtain ⟨d, -, rfl⟩ := List.mem_map.mp hc
    exact hdigit d
  cases n with
  | ofNat n => rw [ofInt, String.toList_ofList]; exact hpadded width n
  | negSucc n =>
    rw [ofInt, String.toList_ofList]
    exact List.forall_mem_cons.mpr ⟨by decide, hpadded _ _⟩

end Hex

/-! ## The address in front of a line -/

/-- What stands in front of the first blank of a line. -/
def addressText (line : List Char) : List Char :=
  line.takeWhile (· != ' ')

namespace Text

/-- White space is stripped off behind a text without any. -/
theorem stripEnd_append_left {front : List Char} (h : ∀ c ∈ front, isBlank c = false)
    (back : List Char) : stripEnd (front ++ back) = front ++ stripEnd back := by
  induction back using List.reverseRecOn with
  | nil =>
    rw [stripEnd_nil]
    by_cases hfront : front = []
    · rw [hfront]
      rfl
    · have hwhole := @stripEnd_append [] front hfront h
      rw [List.nil_append] at hwhole
      rw [List.append_nil, hwhole]
  | append_singleton back c ih =>
    rw [← List.append_assoc]
    by_cases hc : isBlank c = true
    · have hleft : stripEnd (front ++ back ++ [c]) = stripEnd (front ++ back) :=
        List.rdropWhile_concat_pos isBlank _ _ hc
      have hright : stripEnd (back ++ [c]) = stripEnd back :=
        List.rdropWhile_concat_pos isBlank _ _ hc
      rw [hleft, hright, ih]
    · have hleft : stripEnd (front ++ back ++ [c]) = front ++ back ++ [c] :=
        List.rdropWhile_concat_neg isBlank _ _ hc
      have hright : stripEnd (back ++ [c]) = back ++ [c] :=
        List.rdropWhile_concat_neg isBlank _ _ hc
      rw [hleft, hright, List.append_assoc]

end Text

namespace Row

/-- A line begins with the address of its row. -/
theorem addressText_line (r : Row) :
    addressText r.line.toList = (Hex.ofInt 4 r.address).toList := by
  have hclear : ∀ c ∈ (Hex.ofInt 4 r.address).toList, Text.isBlank c = false :=
    Hex.not_isBlank_of_mem_ofInt
  have hblank : ' ' ∉ (Hex.ofInt 4 r.address).toList := by
    intro hmem
    have hspace := hclear ' ' hmem
    revert hspace
    decide
  obtain ⟨behind, hline⟩ : ∃ behind, r.line.toList =
      Text.stripEnd ((Hex.ofInt 4 r.address).toList ++ ' ' :: behind) := by
    unfold line
    split
    · exact ⟨_, by simp; rfl⟩
    · exact ⟨_, by simp [padEnd]; rfl⟩
  have hrest : (Text.stripEnd (' ' :: behind)).takeWhile (· != ' ') = [] := by
    obtain ⟨others, hprefix⟩ : Text.stripEnd (' ' :: behind) <+: ' ' :: behind :=
      List.rdropWhile_prefix _ _
    cases hstripped : Text.stripEnd (' ' :: behind) with
    | nil => rfl
    | cons c more =>
      rw [hstripped] at hprefix
      rw [(List.cons.inj hprefix).1]
      rfl
  have hfront : ∀ c ∈ (Hex.ofInt 4 r.address).toList, (c != ' ') = true := fun c hc =>
    bne_iff_ne.mpr fun heq => hblank (heq ▸ hc)
  rw [hline, Text.stripEnd_append_left hclear, addressText,
    List.takeWhile_append_of_pos hfront, hrest, List.append_nil]

/-! ## Rows from an address that is not reduced -/

/-- The row with an integer in the place of its address. -/
def relabel (address : Int) (r : Row) : Row :=
  { r with address }

/-- Operands are shown alike wherever the address is reduced. -/
theorem formatOperand_emod (mode : Mode) (data : List Byte) (address : Int) :
    formatOperand mode data (address % 65536) = formatOperand mode data address := by
  have htarget : (address % 65536 + 2 + signedLittleEndian data) % 65536 =
      (address + 2 + signedLittleEndian data) % 65536 := by omega
  unfold formatOperand
  rw [htarget]

theorem relabel_decode (address : Int) (opcode : Byte) (fetch : Nat → List Byte) :
    relabel address (decode (address % 65536) opcode fetch) = decode address opcode fetch := by
  unfold decode
  cases Encoding.ofOpcode? opcode with
  | none => rfl
  | some e =>
    simp only [formatOperand_emod]
    split <;> rfl

/-- The text of the first row. -/
theorem relabel_ofCode (address : Int) (opcode : Byte) (rest : List Byte) :
    relabel address (ofCode (address % 65536) opcode rest) = ofCode address opcode rest :=
  relabel_decode ..

end Row

/-- The rows of code at an integer are those at the address that it stands for, with the integer as
the address of the first. -/
theorem listing_eq_relabel (address : Int) (code : List Byte) (limit : Option Int) :
    listing address code limit =
      (listing (address % 65536) code limit).modifyHead (Row.relabel address) := by
  rw [listing, listing]
  cases (limit.map Int.toNat).getD code.length with
  | zero => rfl
  | succ limit =>
    cases code with
    | nil => rfl
    | cons opcode rest =>
      have hrow := Row.relabel_ofCode address opcode rest
      have hsize : (Row.ofCode (address % 65536) opcode rest).size =
          (Row.ofCode address opcode rest).size := by
        rw [← hrow]
        rfl
      simp only [rows, List.modifyHead_cons, hrow, hsize, Int.emod_add_emod]

namespace Session

/-! ## Listing -/

/-- The rows that are listed from an address on, as many as are asked for. -/
def rowsAt (s : Session) (a : Address) (count : Option Int) : List Row :=
  (List.range (count.getD s.listCount).toNat).map fun k => s.memory.row (s.memory.following^[k] a)

/-- The entry that prints a row. -/
def entryOf (r : Row) : Entry :=
  .printed (r.line ++ "\n")

theorem head?_rowsAt (s : Session) (a : Address) (count : Option Int) :
    ∀ r ∈ (s.rowsAt a count).head?, r.address = a.toNat := by
  intro r hr
  rw [rowsAt, List.head?_map, List.head?_range] at hr
  split at hr
  · cases hr
  · cases hr
    exact s.memory.address_row a

/-- It makes no difference to the address behind rows how that of the first is written. -/
theorem behind_relabel {rows : List Row} {address : Int}
    (h : ∀ r ∈ rows.head?, r.address = (Address.ofInt address).toNat) :
    behind (.ofInt address) (rows.modifyHead (Row.relabel address)) =
      behind (.ofInt address) rows := by
  match rows, h with
  | [], _ => rfl
  | [r], h =>
    have hfirst : Address.ofInt (address + r.size) = Address.ofInt (r.address + r.size) := by
      rw [Address.ofInt_add, h r rfl, Address.ofInt_toNat_add]
    exact hfirst
  | first :: next :: others, _ =>
    rw [behind, List.modifyHead_cons, List.getLast?_cons_cons, behind, List.getLast?_cons_cons]

/-- A listing from an integer has the rows at the address that it stands for, and comes to the
address behind them; the first row has the integer as its address. -/
theorem list_eq_relabel (s : Session) (address : Int) (count : Option Int) :
    s.list address count =
      (((s.rowsAt (.ofInt address) count).modifyHead (Row.relabel address)).map entryOf,
        behind (.ofInt address) (s.rowsAt (.ofInt address) count)) := by
  have hrows : listing (address % 65536)
      (s.memory.bytes (.ofInt address) (count.getD s.listCount * longestInstruction).toNat)
      (some (count.getD s.listCount)) = s.rowsAt (.ofInt address) count := by
    rw [rowsAt, ← listing_window, Address.natCast_toNat_ofInt]
  simp only [list, listing_eq_relabel address, hrows]
  rw [← behind_relabel (s.head?_rowsAt _ count)]
  refine Prod.ext rfl ?_
  rw [behind]
  split <;> simp [*]

/-- Where the address is reduced, the listing has its rows as they are. -/
theorem list_eq_rowsAt (s : Session) (a : Address) (count : Option Int) :
    s.list a.toNat count = ((s.rowsAt a count).map entryOf, behind a (s.rowsAt a count)) := by
  have hself : (s.rowsAt a count).modifyHead (Row.relabel a.toNat) = s.rowsAt a count := by
    have hfirst := s.head?_rowsAt a count
    cases hrows : s.rowsAt a count with
    | nil => rfl
    | cons r others =>
      rw [hrows] at hfirst
      rw [List.modifyHead_cons, Row.relabel, ← hfirst r rfl]
  rw [list_eq_relabel, Address.ofInt_toNat, hself]

/-! ## Printed addresses -/

/-- The entry prints a line with an address of four digits in front. -/
def HasAddress (entry : Entry) : Prop :=
  ∃ (line : String) (ds : List (Fin 16)), entry = .printed (line ++ "\n") ∧ ds.length = 4 ∧
    addressText line.toList = Hex.write ds

/-- What is printed of a row determines its line. -/
theorem line_eq_of_entryOf {r : Row} {line : String} (h : entryOf r = .printed (line ++ "\n")) :
    r.line = line := by
  have htext := congrArg String.toList (Entry.printed.inj h)
  rw [String.toList_append, String.toList_append] at htext
  exact String.toList_inj.mp (List.append_cancel_right htext)

theorem hasAddress_entryOf_iff {r : Row} :
    HasAddress (entryOf r) ↔ 0 ≤ r.address ∧ r.address < 65536 := by
  rw [← Hex.ofInt_four_digits_iff]
  constructor
  · rintro ⟨line, ds, hentry, hlength, hds⟩
    rw [← line_eq_of_entryOf hentry, Row.addressText_line] at hds
    exact ⟨ds, hlength, hds⟩
  · rintro ⟨ds, hlength, hds⟩
    exact ⟨r.line, ds, rfl, hlength, by rw [Row.addressText_line, hds]⟩

/-- A row with another number as its address is printed differently. -/
theorem entryOf_relabel_iff {r : Row} {k : Nat} (h : r.address = k) (address : Int) :
    entryOf (r.relabel address) = entryOf r ↔ address = k := by
  constructor
  · intro hentry
    have hline := line_eq_of_entryOf (r := r.relabel address) hentry
    have htext := congrArg (fun line => addressText line.toList) hline
    simp only [Row.addressText_line, String.toList_inj, Row.relabel, h] at htext
    exact Hex.ofInt_eq_natCast_iff.mp htext
  · rintro rfl
    rw [Row.relabel, ← h]

/-- The rows that are listed have the addresses of memory. -/
theorem hasAddress_of_mem_rowsAt {s : Session} {a : Address} {count : Option Int} {r : Row}
    (h : r ∈ s.rowsAt a count) : HasAddress (entryOf r) := by
  obtain ⟨k, -, rfl⟩ := List.mem_map.mp h
  have hlt := (s.memory.following^[k] a).isLt
  rw [hasAddress_entryOf_iff, Memory.address_row]
  omega

theorem rowsAt_eq_nil_iff {s : Session} {a : Address} {count : Option Int} :
    s.rowsAt a count = [] ↔ count.getD s.listCount ≤ 0 := by
  rw [rowsAt, List.map_eq_nil_iff, List.range_eq_nil, Int.toNat_eq_zero]

/-! ## Reduction -/

/-- How a session takes an integer for an address. -/
structure Reduces (s : Session) (address : Int) (count : Option Int) : Prop where
  /-- To assemble from the integer is to assemble from the address that it stands for. -/
  assemble_eq : s.assemble address = s.assemble (address % 65536)
  /-- A listing from either comes to the same address. -/
  after_eq : (s.list address count).2 = (s.list (address % 65536) count).2
  /-- The rows are the same, up to the address of the first. -/
  rows_eq : ∃ rows : List Row, (s.list (address % 65536) count).1 = rows.map entryOf ∧
    (s.list address count).1 = (rows.modifyHead (Row.relabel address)).map entryOf
  /-- All addresses in a listing from the reduced address have four digits. -/
  digits : ∀ entry ∈ (s.list (address % 65536) count).1, HasAddress entry
  /-- In a listing from the integer they do if it was reduced or nothing is listed, -/
  digits_iff : (∀ entry ∈ (s.list address count).1, HasAddress entry) ↔
    (0 ≤ address ∧ address < 65536) ∨ count.getD s.listCount ≤ 0
  /-- and exactly then the same is printed. -/
  printed_iff : (s.list address count).1 = (s.list (address % 65536) count).1 ↔
    (0 ≤ address ∧ address < 65536) ∨ count.getD s.listCount ≤ 0

/-- An integer stands for an address, and shows only in the first line of a listing. -/
theorem address_reduction (s : Session) (address : Int) (count : Option Int) :
    s.Reduces address count := by
  have hself := Address.natCast_toNat_ofInt address
  have hlist := s.list_eq_relabel address count
  have hreduced := s.list_eq_rowsAt (.ofInt address) count
  have hfirst := s.head?_rowsAt (.ofInt address) count
  have hdigits : ∀ r ∈ s.rowsAt (.ofInt address) count, HasAddress (entryOf r) :=
    fun r => hasAddress_of_mem_rowsAt
  have hempty : s.rowsAt (.ofInt address) count = [] ↔ count.getD s.listCount ≤ 0 :=
    rowsAt_eq_nil_iff
  have hrange : address = (Address.ofInt address).toNat ↔ 0 ≤ address ∧ address < 65536 := by
    omega
  rw [hself] at hreduced
  generalize s.rowsAt (.ofInt address) count = rows at hlist hreduced hfirst hdigits hempty
  refine {
    assemble_eq := ?_
    after_eq := by rw [hlist, hreduced]
    rows_eq := ⟨rows, congrArg Prod.fst hreduced, congrArg Prod.fst hlist⟩
    digits := by rw [hreduced]; simpa using hdigits
    digits_iff := ?_
    printed_iff := ?_ }
  · have hsame : Address.ofInt (address % 65536) = Address.ofInt address :=
      Address.ofInt_congr (Int.mod_modEq address 65536)
    simp only [assemble, hsame]
  · rw [hlist, ← hempty]
    cases rows with
    | nil => simp
    | cons r others =>
      obtain ⟨-, hothers⟩ := List.forall_mem_cons.mp hdigits
      rw [List.modifyHead_cons, List.map_cons, List.forall_mem_cons, hasAddress_entryOf_iff,
        or_iff_left (List.cons_ne_nil r others)]
      exact and_iff_left (by simpa using hothers)
  · rw [hlist, hreduced, ← hempty]
    cases rows with
    | nil => simp
    | cons r others =>
      rw [List.modifyHead_cons, List.map_cons, List.map_cons, List.cons_eq_cons, and_iff_left rfl,
        entryOf_relabel_iff (hfirst r rfl), hrange, or_iff_left (List.cons_ne_nil r others)]

/-- An integer above all addresses is printed as it is. -/
theorem list_above_memory :
    let s : Session := ⟨.filled [] [] 0, .ofText [] "\x1b", 0, 20, []⟩
    (s.list 65536 (some 1)).1.output true = "10000  00        BRK\n" ∧
      (s.list (65536 % 65536) (some 1)).1.output true = "0000  00        BRK\n" := by
  decide +kernel

end Session

end LineMonitor
