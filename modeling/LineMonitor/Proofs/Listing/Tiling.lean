import LineMonitor.Proofs.Listing.Rows

/-!
# Listings divide code

A listing cuts code into the bytes of its rows, one behind the other (`code_of_listing_eq_append`),
and each row is that of the bytes at its place: a byte that is no opcode, a whole instruction, or,
at the end only, the beginning of one (`Row.Shows`).  What a listing shows behind a row depends on
the bytes behind it and their address alone, so it can be cut short or taken up again at every row.
`listing_tiles` puts this together.
-/

namespace LineMonitor

namespace Row

/-! ## What a row shows -/

/-- What a row is the row of: a byte that is no opcode, a whole instruction, or the beginning of one
that the code is too short for. -/
inductive Shows (r : Row) : Prop where
  | unknown {opcode : Byte} (hraw : r.raw = [opcode])
      (habsent : ∀ e ∈ Encoding.all, e.opcode ≠ opcode) (hmnemonic : r.mnemonic = "???")
      (hmode : r.mode = none) (hcomment : r.comment = "unknown opcode")
  | whole {e : Encoding} (he : e ∈ Encoding.all) (hopcode : r.raw.head? = some e.opcode)
      (hsize : r.size = e.length) (hmnemonic : r.mnemonic = e.mnemonic.name)
      (hmode : r.mode = some e.mode) (hcomment : r.comment = "")
  | cutOff {e : Encoding} (he : e ∈ Encoding.all) (hopcode : r.raw.head? = some e.opcode)
      (hsize : r.size < e.length) (hmnemonic : r.mnemonic = e.mnemonic.name)
      (hmode : r.mode = some e.mode) (hcomment : r.comment = "incomplete instruction")

/-- The bytes that rows show, one row after the other. -/
def code (shown : List Row) : List Byte :=
  shown.flatMap (·.raw)

@[simp] theorem code_nil : code [] = [] := rfl

@[simp] theorem code_cons (r : Row) (shown : List Row) : code (r :: shown) = r.raw ++ code shown :=
  List.flatMap_cons

section First

variable (address : Int) (opcode : Byte) (rest : List Byte)

@[simp] theorem address_ofCode : (ofCode address opcode rest).address = address := by
  unfold ofCode decode
  cases Encoding.ofOpcode? opcode with
  | none => rfl
  | some e =>
    dsimp only
    split <;> rfl

/-- The first row of code shows the bytes that the code begins with. -/
theorem take_size_ofCode :
    (opcode :: rest).take (ofCode address opcode rest).size = (ofCode address opcode rest).raw := by
  unfold size ofCode decode
  cases Encoding.ofOpcode? opcode with
  | none => rfl
  | some e =>
    have hraw : ∀ n, (opcode :: rest).take ((opcode :: rest).take n).length =
        (opcode :: rest).take n := by
      intro n
      rw [List.length_take, List.take_eq_take_iff]
      omega
    dsimp only
    split <;> exact hraw e.length

/-- The first row of code shows what stands there, and all of the code if it is cut off. -/
theorem shows_ofCode : (ofCode address opcode rest).Shows ∧
    ((ofCode address opcode rest).comment = "incomplete instruction" →
      (ofCode address opcode rest).raw = opcode :: rest) := by
  unfold ofCode decode
  cases hfound : Encoding.ofOpcode? opcode with
  | none =>
    refine ⟨.unknown rfl (fun e he hopcode => ?_) rfl rfl rfl, fun hcomment => ?_⟩
    · rw [← hopcode, Encoding.ofOpcode?_opcode he] at hfound
      cases hfound
    · have hother : ¬ "unknown opcode" = "incomplete instruction" := by decide
      exact absurd hcomment hother
  | some e =>
    have he : e ∈ Encoding.all := Encoding.mem_of_ofOpcode? hfound
    have hhead : ((opcode :: rest).take e.length).head? = some e.opcode := by
      rw [Encoding.opcode_of_ofOpcode? hfound, Encoding.length, Nat.add_comm, List.take_succ_cons]
      rfl
    dsimp only
    split
    · rename_i hshort
      refine ⟨.cutOff he hhead hshort rfl rfl rfl, fun _ => ?_⟩
      rw [List.length_take] at hshort
      exact List.take_of_length_le (by omega)
    · rename_i hlong
      have hsize : ((opcode :: rest).take e.length).length = e.length :=
        Nat.le_antisymm (List.length_take_le _ _) (Nat.le_of_not_lt hlong)
      have hother : ¬ "" = "incomplete instruction" := by decide
      exact ⟨.whole he hhead hsize rfl rfl rfl, fun hcomment => absurd hcomment hother⟩

end First

/-- A row shows from one to three bytes. -/
theorem Shows.size_bounds {r : Row} (h : r.Shows) : 1 ≤ r.size ∧ r.size ≤ 3 := by
  have hpos : ∀ e : Encoding, r.raw.head? = some e.opcode → 1 ≤ r.size := by
    intro e hopcode
    rw [size, Nat.succ_le_iff, List.length_pos_iff]
    rintro hnil
    rw [hnil] at hopcode
    cases hopcode
  cases h with
  | unknown hraw => simp [size, hraw]
  | @whole e he hopcode hsize =>
    exact ⟨hpos e hopcode, hsize ▸ e.length_le_three⟩
  | @cutOff e he hopcode hsize =>
    exact ⟨hpos e hopcode, hsize.le.trans e.length_le_three⟩

theorem size_bounds_ofCode (address : Int) (opcode : Byte) (rest : List Byte) :
    1 ≤ (ofCode address opcode rest).size ∧ (ofCode address opcode rest).size ≤ 3 :=
  (shows_ofCode address opcode rest).1.size_bounds

end Row

/-! ## A listing row by row -/

/-- A listing of fewer rows is the beginning of one of more. -/
theorem take_rows {n k : Nat} (h : n ≤ k) (address : Int) (code : List Byte) :
    (rows k address code).take n = rows n address code := by
  induction n generalizing k address code with
  | zero => rw [List.take_zero, rows]
  | succ n ih =>
    obtain ⟨k, rfl⟩ := Nat.exists_eq_add_of_lt (Nat.lt_of_succ_le h)
    cases code with
    | nil => rfl
    | cons opcode rest =>
      rw [rows, rows, List.take_succ_cons, ih (by omega)]

/-- There are no more rows than bytes. -/
theorem length_rows_le (n : Nat) (address : Int) (code : List Byte) :
    (rows n address code).length ≤ code.length := by
  induction n generalizing address code with
  | zero => exact Nat.zero_le _
  | succ n ih =>
    cases code with
    | nil => exact Nat.le_refl 0
    | cons opcode rest =>
      have hlater := ih ((address + (Row.ofCode address opcode rest).size) % 65536)
        (rest.drop ((Row.ofCode address opcode rest).size - 1))
      rw [List.length_drop] at hlater
      rw [rows, List.length_cons, List.length_cons]
      omega

/-- As many rows as there are bytes are enough to list code to its end. -/
theorem rows_eq_listing {n : Nat} (address : Int) {code : List Byte} (h : code.length ≤ n) :
    rows n address code = listing address code := by
  have hall : (rows n address code).take code.length = rows n address code :=
    List.take_of_length_le (length_rows_le n address code)
  rw [← hall, take_rows h]
  rfl

/-- A listing with a limit is the beginning of the one without. -/
theorem listing_some (address : Int) (code : List Byte) (n : Int) :
    listing address code (some n) = (listing address code).take n.toNat := by
  have hlimited : listing address code (some n) = rows n.toNat address code := rfl
  rw [hlimited]
  rcases Nat.le_total n.toNat code.length with hle | hle
  · exact (take_rows hle address code).symm
  · rw [rows_eq_listing address hle, List.take_of_length_le]
    exact (length_rows_le code.length address code).trans hle

@[simp] theorem listing_nil (address : Int) : listing address [] = [] := rfl

/-- A listing is its first row and the listing of the bytes behind it. -/
theorem listing_cons (address : Int) (opcode : Byte) (rest : List Byte) :
    listing address (opcode :: rest) = Row.ofCode address opcode rest ::
      listing ((address + (Row.ofCode address opcode rest).size) % 65536)
        ((opcode :: rest).drop (Row.ofCode address opcode rest).size) := by
  obtain ⟨n, hn⟩ := Nat.exists_eq_add_of_le' (Row.size_bounds_ofCode address opcode rest).1
  have hlisting : listing address (opcode :: rest) =
      rows (rest.length + 1) address (opcode :: rest) := rfl
  rw [hlisting, rows, hn, Nat.add_sub_cancel, List.drop_succ_cons, rows_eq_listing]
  rw [List.length_drop]
  exact Nat.sub_le _ _

/-- The rows at the front of a listing show the bytes at the front of the code, and the other rows
are the listing of the bytes behind them. -/
theorem code_of_listing_eq_append {a : Address} {code : List Byte} {front back : List Row}
    (h : listing a.toNat code = front ++ back) :
    ∃ rest, code = Row.code front ++ rest ∧
      listing (a.after (Row.code front).length).toNat rest = back := by
  induction front generalizing a code with
  | nil => exact ⟨code, rfl, by rwa [Row.code_nil, List.length_nil, Address.after_zero]⟩
  | cons r front ih =>
    cases code with
    | nil => cases h
    | cons opcode behind =>
      rw [listing_cons, List.cons_append, List.cons.injEq, Address.toNat_add_emod] at h
      obtain ⟨rfl, hlater⟩ := h
      obtain ⟨rest, hrest, hback⟩ := ih hlater
      have hraw := Row.take_size_ofCode a.toNat opcode behind
      refine ⟨rest, ?_, ?_⟩
      · rw [Row.code_cons, List.append_assoc, ← hrest, ← hraw, List.take_append_drop]
      · rwa [Row.code_cons, List.length_append, ← Address.after_after]

/-- A row of a listing is the first row of the bytes at its place. -/
theorem exists_ofCode_of_listing_eq_append {a : Address} {code : List Byte} {front back : List Row}
    {r : Row} (h : listing a.toNat code = front ++ r :: back) :
    ∃ opcode rest, code = Row.code front ++ opcode :: rest ∧
      r = Row.ofCode (a.after (Row.code front).length).toNat opcode rest ∧
      listing (a.after (Row.code front).length).toNat (opcode :: rest) = r :: back := by
  obtain ⟨behind, hcode, hback⟩ := code_of_listing_eq_append h
  cases behind with
  | nil => cases hback
  | cons opcode rest =>
    refine ⟨opcode, rest, hcode, ?_, hback⟩
    rw [listing_cons] at hback
    exact (List.cons.inj hback).1.symm

/-- The rows of a listing show all of the code. -/
theorem code_listing (a : Address) (code : List Byte) : Row.code (listing a.toNat code) = code := by
  obtain ⟨rest, hcode, hrest⟩ := code_of_listing_eq_append (List.append_nil _).symm
  cases rest with
  | nil => rw [← List.append_nil (Row.code _), ← hcode]
  | cons opcode rest =>
    rw [listing_cons] at hrest
    cases hrest

theorem shows_of_mem_listing {a : Address} {code : List Byte} {r : Row}
    (hr : r ∈ listing a.toNat code) : r.Shows := by
  obtain ⟨front, back, h⟩ := List.append_of_mem hr
  obtain ⟨opcode, rest, -, rfl, -⟩ := exists_ofCode_of_listing_eq_append h
  exact (Row.shows_ofCode _ opcode rest).1

/-- A row that is cut off is the last one. -/
theorem eq_nil_of_cutOff {a : Address} {code : List Byte} {front back : List Row} {r : Row}
    (h : listing a.toNat code = front ++ r :: back)
    (hcomment : r.comment = "incomplete instruction") : back = [] := by
  obtain ⟨opcode, rest, -, rfl, hback⟩ := exists_ofCode_of_listing_eq_append h
  -- the row takes all bytes that are left
  have hall := (Row.shows_ofCode _ opcode rest).2 hcomment
  rw [listing_cons, ← hall, Row.size, List.drop_length, listing_nil] at hback
  exact (List.cons.inj hback).2.symm

/-! ## Places inside code -/

/-- The row at an offset is the first row of the bytes from there on. -/
theorem rowAt_length (front : List Byte) (opcode : Byte) (rest : List Byte) (address : Int) :
    rowAt (front ++ opcode :: rest) address front.length =
      .ok (Row.ofCode address opcode rest) := by
  have hlength : (front ++ opcode :: rest).length = front.length + (rest.length + 1) := by
    rw [List.length_append, List.length_cons]
  have hplace : ∀ n : Nat, place (front ++ opcode :: rest).length n =
      min n (front ++ opcode :: rest).length := by
    intro n
    rw [place, if_neg (by omega), Int.toNat_natCast]
  have hstart : place (front ++ opcode :: rest).length front.length = front.length := by
    rw [hplace]
    omega
  have hfetch : (fun length : Nat => ((front ++ opcode :: rest).take
      (place (front ++ opcode :: rest).length (front.length + length))).drop front.length) =
        fun length => (opcode :: rest).take length := by
    funext length
    rw [← Int.natCast_add, hplace, List.drop_take, List.drop_left, List.take_eq_take_iff,
      List.length_cons]
    omega
  have hinside : ¬ ((front ++ opcode :: rest).length : Int) ≤ front.length := by omega
  have hnumbered : ¬ (front.length : Int) < leastPlace := by
    rw [leastPlace]
    omega
  have hbehind : ¬ (front.length : Int) < -(front ++ opcode :: rest).length := by omega
  have hopcode : (front ++ opcode :: rest)[front.length]? = some opcode := by
    rw [List.getElem?_append_right (Nat.le_refl _), Nat.sub_self]
    rfl
  simp only [rowAt, if_neg hinside, if_neg hnumbered, if_neg hbehind, hstart, hopcode, hfetch]
  rfl

/-! ## The whole listing -/

/-- How a listing divides the code that begins at an address. -/
structure Tiles (a : Address) (code : List Byte) : Prop where
  /-- The bytes of the rows are the code: none is lost and none is shown twice. -/
  code_eq : Row.code (listing a.toNat code) = code
  /-- Every row shows from one to three bytes. -/
  size_bounds : ∀ r ∈ listing a.toNat code, 1 ≤ r.size ∧ r.size ≤ 3
  /-- Every row is that of a byte that is no opcode, of a whole instruction, or of one that is cut
  off. -/
  shows : ∀ r ∈ listing a.toNat code, r.Shows
  /-- Only the last row is marked as cut off. -/
  last_of_cutOff : ∀ front r back, listing a.toNat code = front ++ r :: back →
    r.comment = "incomplete instruction" → back = []
  /-- The address of a row is that of its first byte, counted from zero past the top of memory. -/
  address_eq : ∀ front r back, listing a.toNat code = front ++ r :: back →
    r.address = ((a.toNat : Int) + (Row.code front).length) % 65536
  /-- A row is that of the instruction at its place in the code. -/
  rowAt_eq : ∀ front r back, listing a.toNat code = front ++ r :: back →
    rowAt code r.address (Row.code front).length = .ok r
  /-- The bytes from a row on, listed from its address, give this row and those behind it. -/
  resumes : ∀ front r back, listing a.toNat code = front ++ r :: back →
    listing r.address (code.drop (Row.code front).length) = r :: back
  /-- A listing with a limit is the beginning of the whole. -/
  limited : ∀ n : Nat, listing a.toNat code (some n) = (listing a.toNat code).take n
  /-- With a limit below zero there are no rows. -/
  limited_of_neg : ∀ n < (0 : Int), listing a.toNat code (some n) = []

/-- Every listing divides its code, wherever the code begins and whatever it is. -/
theorem listing_tiles (a : Address) (code : List Byte) : Tiles a code := by
  refine {
    code_eq := code_listing a code
    size_bounds := fun r hr => (shows_of_mem_listing hr).size_bounds
    shows := fun r hr => shows_of_mem_listing hr
    last_of_cutOff := fun front r back h => eq_nil_of_cutOff h
    address_eq := ?_
    rowAt_eq := ?_
    resumes := ?_
    limited := fun n => listing_some a.toNat code n
    limited_of_neg := ?_ }
  · intro front r back h
    obtain ⟨opcode, rest, -, rfl, -⟩ := exists_ofCode_of_listing_eq_append h
    rw [Row.address_ofCode, Address.toNat_add_emod]
  · intro front r back h
    obtain ⟨opcode, rest, rfl, rfl, -⟩ := exists_ofCode_of_listing_eq_append h
    rw [Row.address_ofCode, rowAt_length]
  · intro front r back h
    obtain ⟨opcode, rest, rfl, rfl, hback⟩ := exists_ofCode_of_listing_eq_append h
    rw [Row.address_ofCode, List.drop_left]
    exact hback
  · intro n hn
    rw [listing_some, Int.toNat_of_nonpos hn.le, List.take_zero]

example :
    let listed := listing 0xFFFF [0xEA, 0x02, 0xA2, 0x0A, 0x20, 0xEF]
    listed.map (·.address) = [0xFFFF, 0, 1, 3] ∧
      listed.map (·.comment) = ["", "unknown opcode", "", "incomplete instruction"] := by
  decide +kernel

end LineMonitor
