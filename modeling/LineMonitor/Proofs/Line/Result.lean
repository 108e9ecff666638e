import LineMonitor.Proofs.Line.Step

/-!
# The result of a line

How a line ends decides its outcome, and whether there is a message (`Ending.isSome_message?`).  A
line begins at the address of its prompt and leaves off behind the bytes it wrote
(`Touching.address_next`).
-/

namespace LineMonitor

/-! ## How a line ends -/

/-- A line that is refused has the outcome of an error. -/
theorem Cause.outcome_ne {cause : Cause} {o : Outcome} (h : o.isError = false) :
    cause.outcome ≠ o := by
  rintro rfl
  rw [cause.isError_outcome] at h
  cases h

namespace Ending

variable {ending : Ending}

/-- Only the end of a session has the outcome of that name. -/
theorem outcome_eq_sessionEnded_iff : ending.outcome = .sessionEnded ↔ ending = .ended := by
  cases ending with
  | refused fault => exact iff_of_false (Cause.outcome_ne rfl) Ending.noConfusion
  | assembled placement => simp [outcome]
  | dropped => simp [outcome]
  | ended => simp [outcome]

/-- Only a line that is dropped has the outcome of an abort. -/
theorem outcome_eq_lineAborted_iff : ending.outcome = .lineAborted ↔ ending = .dropped := by
  cases ending with
  | refused fault => exact iff_of_false (Cause.outcome_ne rfl) Ending.noConfusion
  | assembled placement => simp [outcome]
  | dropped => simp [outcome]
  | ended => simp [outcome]

/-- There is a message exactly if the line is refused. -/
theorem isSome_message? : ending.message?.isSome = ending.outcome.isError := by
  cases ending with
  | refused fault => exact fault.cause.isError_outcome.symm
  | assembled placement => rfl
  | dropped => rfl
  | ended => rfl

/-- An error is a fault of the line. -/
theorem exists_refused_of_isError (h : ending.outcome.isError = true) :
    ∃ fault, ending = .refused fault := by
  cases ending with
  | refused fault => exact ⟨fault, rfl⟩
  | assembled placement => cases h
  | dropped => cases h
  | ended => cases h

end Ending

/-! ## Addresses and bytes -/

/-- A line begins at the address of its prompt and leaves off behind the bytes it emitted, which
are none unless it succeeded. -/
theorem Touching.address_next {m m' : Memory} {a : Address} {r : Line} (h : Touching m a m' r) :
    r.address = a ∧ r.next = r.address.after r.data.length ∧
      (r.outcome ≠ .success → r.data = []) := by
  cases h with
  | nothing haddress hnext hdata hsuccess hfailed =>
    refine ⟨haddress, ?_, fun _ => hdata⟩
    rw [hnext, haddress, hdata, List.length_nil, Address.after_zero]
  | failed haddress hnext hdata houtcome hcode hlost =>
    refine ⟨haddress, ?_, fun _ => hdata⟩
    rw [hnext, haddress, hdata, List.length_nil, Address.after_zero]
  | assembled haddress hnext houtcome hcode hkept =>
    refine ⟨haddress, ?_, fun hfailed => absurd houtcome hfailed⟩
    rw [hnext, haddress]

end LineMonitor
