import LineMonitor.Command
import LineMonitor.Proofs.Text.Blank

/-!
# What a command means

`Command.Means` lists the commands by the text that is left of them without the white space at
their ends, with what they ask for or why they are rejected, and `Command.means_read` says that they
are read in this way.  `Command.start?` is the address from which a text asks to assemble.
-/

namespace LineMonitor

/-- White space around an address does not count. -/
theorem readAddress_strip (text : List Char) :
    readAddress (Text.strip text) = readAddress text := by
  rw [readAddress, readAddress, Text.strip_strip]

/-- An address is rejected as it stands in upper case. -/
theorem eq_of_readAddress_eq_error {text : List Char} {e : Rejection}
    (h : readAddress text = .error e) :
    e = ⟨String.ofList (Text.upper (Text.strip text)), "Invalid address"⟩ := by
  unfold readAddress at h
  dsimp only at h
  split at h
  · exact (Except.error.inj h).symm
  · split at h
    · cases h
    · exact (Except.error.inj h).symm

/-- An address is rejected for the same reason whatever it is wanted for. -/
theorem map_readAddress_eq_error_iff {text : List Char} {wanted : Address → Command}
    {e : Rejection} : (readAddress text).map wanted = .error e ↔ readAddress text = .error e := by
  cases readAddress text <;> simp [Except.map]

namespace Command

/-- What a command without white space at its ends asks for, or why it is rejected. -/
inductive Means : List Char → Except Rejection Command → Prop where
  | nothing : Means [] (.ok .nothing)
  | quit : Means ['Q'] (.ok .quit)
  | assemble (rest : List Char) :
      Means ('A' :: rest) ((readAddress (Text.strip rest)).map .assemble)
  | list (rest : List Char) : Means ('L' :: rest) ((readAddress (Text.strip rest)).map .list)
  | unknown {stripped : List Char} (hne : stripped ≠ []) (hquit : stripped ≠ ['Q'])
      (hassemble : ∀ rest, stripped ≠ 'A' :: rest) (hlist : ∀ rest, stripped ≠ 'L' :: rest) :
      Means stripped (.error ⟨String.ofList stripped, "Invalid command"⟩)

/-- Commands are read in this way. -/
theorem means_read (text : String) : Means (Text.strip text.toList) (read text) := by
  unfold read
  cases hstripped : Text.strip text.toList with
  | nil => exact .nothing
  | cons verb rest =>
    simp only
    split
    · rename_i hquit
      obtain ⟨rfl, hrest⟩ := hquit
      -- the text has no white space at its end, so there is nothing behind the letter
      have hnil : rest = [] := by
        by_contra hne
        have hsome : Text.strip text.toList ≠ [] := by simp [hstripped]
        have hlast := Text.not_isBlank_getLast_strip hsome
        simp only [hstripped, List.getLast_cons hne] at hlast
        rw [Text.strip_eq_nil_iff.mp hrest _ (List.getLast_mem hne)] at hlast
        cases hlast
      rw [hnil]
      exact .quit
    · rename_i hquit
      split
      · rename_i hverb
        rw [hverb]
        exact .assemble rest
      · rename_i hassemble
        split
        · rename_i hverb
          rw [hverb]
          exact .list rest
        · rename_i hlist
          refine .unknown (List.cons_ne_nil verb rest) (fun h => hquit ?_)
            (fun rest' h => hassemble (List.cons.inj h).1)
            (fun rest' h => hlist (List.cons.inj h).1)
          obtain ⟨hverb, hrest⟩ := List.cons.inj h
          exact ⟨hverb, by rw [hrest, Text.strip_nil]⟩

/-- The address from which a text asks to assemble: it is an `A`, up to white space, with a
well-formed address behind it. -/
def start? (text : String) : Option Address :=
  match Text.strip text.toList with
  | 'A' :: rest => (readAddress (Text.strip rest)).toOption
  | _ => none

theorem start?_eq_some_iff {text : String} {a : Address} :
    start? text = some a ↔
      ∃ rest, Text.strip text.toList = 'A' :: rest ∧ readAddress (Text.strip rest) = .ok a := by
  unfold start?
  split
  · rename_i rest hstripped
    cases haddress : readAddress (Text.strip rest) <;> simp [Except.toOption, hstripped, haddress]
  · rename_i hother
    simpa using fun rest hstripped => absurd hstripped (hother rest)

/-- It is the address of the command that the text is read as. -/
theorem start?_eq_of_read (text : String) :
    start? text = match read text with
      | .ok (.assemble a) => some a
      | _ => none := by
  have hmeans := means_read text
  unfold start?
  generalize Text.strip text.toList = stripped at hmeans ⊢
  generalize read text = answer at hmeans ⊢
  cases hmeans with
  | nothing => rfl
  | quit => rfl
  | assemble rest =>
    simp only
    cases readAddress (Text.strip rest) <;> rfl
  | list rest => cases readAddress (Text.strip rest) <;> rfl
  | unknown hne hquit hassemble hlist =>
    split
    · rename_i rest
      exact absurd rfl (hassemble rest)
    · rfl

/-- A text asks to stop if it is a `Q`, up to white space. -/
theorem read_eq_quit_iff {text : String} :
    read text = .ok .quit ↔ Text.strip text.toList = ['Q'] := by
  have hmeans := means_read text
  generalize Text.strip text.toList = stripped at hmeans ⊢
  generalize read text = answer at hmeans ⊢
  cases hmeans with
  | nothing => simp
  | quit => simp
  | assemble rest => cases readAddress (Text.strip rest) <;> simp [Except.map]
  | list rest => cases readAddress (Text.strip rest) <;> simp [Except.map]
  | unknown hne hquit hassemble hlist => simp [hquit]

/-- A text with a letter in front that wants an address is read as the address is. -/
theorem read_of_verb {text : String} {verb : Char} {rest : List Char} {wanted : Address → Command}
    (hstripped : Text.strip text.toList = verb :: rest)
    (hverb : verb = 'A' ∧ wanted = .assemble ∨ verb = 'L' ∧ wanted = .list) :
    read text = (readAddress rest).map wanted := by
  rcases hverb with ⟨rfl, rfl⟩ | ⟨rfl, rfl⟩
  · simp [read, hstripped, readAddress_strip]
  · simp [read, hstripped, readAddress_strip]

/-- A text is rejected unless there is nothing in it, or it is a `Q`, or an `A` or `L` with a
well-formed address behind it. -/
theorem exists_read_eq_error_iff {text : String} :
    (∃ e, read text = .error e) ↔
      Text.strip text.toList ≠ [] ∧ Text.strip text.toList ≠ ['Q'] ∧
        ¬ ∃ verb rest a, Text.strip text.toList = verb :: rest ∧ (verb = 'A' ∨ verb = 'L') ∧
          readAddress rest = .ok a := by
  have hmeans := means_read text
  generalize Text.strip text.toList = stripped at hmeans ⊢
  generalize read text = answer at hmeans ⊢
  cases hmeans with
  | nothing => simp
  | quit => simp
  | assemble rest =>
    simp only [map_readAddress_eq_error_iff, readAddress_strip]
    cases haddress : readAddress rest <;> simp [haddress]
  | list rest =>
    simp only [map_readAddress_eq_error_iff, readAddress_strip]
    cases haddress : readAddress rest <;> simp [haddress]
  | unknown hne hquit hassemble hlist =>
    refine iff_of_true ⟨_, rfl⟩ ⟨hne, hquit, ?_⟩
    rintro ⟨verb, rest, a, rfl, rfl | rfl, -⟩
    · exact hassemble rest rfl
    · exact hlist rest rfl

/-- A text is rejected for its address if it begins with an `A` or `L`, and else as it stands. -/
theorem eq_of_read_eq_error {text : String} {e : Rejection} (h : read text = .error e) :
    (∃ verb rest, Text.strip text.toList = verb :: rest ∧ (verb = 'A' ∨ verb = 'L') ∧
        e = ⟨String.ofList (Text.upper (Text.strip rest)), "Invalid address"⟩) ∨
      (∀ rest, Text.strip text.toList ≠ 'A' :: rest ∧ Text.strip text.toList ≠ 'L' :: rest) ∧
        e = ⟨String.ofList (Text.strip text.toList), "Invalid command"⟩ := by
  have hmeans := means_read text
  rw [h] at hmeans
  generalize Text.strip text.toList = stripped at hmeans ⊢
  generalize hanswer : Except.error e = answer at hmeans
  cases hmeans with
  | nothing => cases hanswer
  | quit => cases hanswer
  | assemble rest =>
    have hread := map_readAddress_eq_error_iff.mp hanswer.symm
    rw [readAddress_strip] at hread
    exact Or.inl ⟨'A', rest, rfl, Or.inl rfl, eq_of_readAddress_eq_error hread⟩
  | list rest =>
    have hread := map_readAddress_eq_error_iff.mp hanswer.symm
    rw [readAddress_strip] at hread
    exact Or.inl ⟨'L', rest, rfl, Or.inr rfl, eq_of_readAddress_eq_error hread⟩
  | unknown hne hquit hassemble hlist =>
    exact Or.inr ⟨fun rest => ⟨hassemble rest, hlist rest⟩, Except.error.inj hanswer⟩

end Command

end LineMonitor
