import LineMonitor.Proofs.Session.Step
import LineMonitor.Proofs.Session.Listing

/-!
# Carrying out a command

A command may turn out to be wrong when part of it is done already, and what is done is not taken
back.  `Work` is a program of this kind: it works on a session and on what was told so far, and both
outlast a rejection.  `Work.obey` carries out a command in this form, line by line and row by row.
It does what `Session.execute` says at once, and has done nothing when the command is rejected
(`Work.outcome_obey`).  `Session.execute_accounted` gives the whole account of a command: when it is
rejected, and what it changes when it is not.
-/

namespace LineMonitor

/-! ## Programs that work on a session -/

/-- A program that works on a session and on what was told so far, both of which stay as they are
when a command is rejected. -/
abbrev Work := ExceptT Rejection (StateM (Session × Transcript))

namespace Work

/-- What comes of a program: its answer or the rejection, and the state that it leaves. -/
def outcome {α : Type} (work : Work α) (state : Session × Transcript) :
    Except Rejection α × (Session × Transcript) :=
  work state

/-- Tells something. -/
def tell (entries : Transcript) : Work Unit :=
  modify fun state => (state.1, state.2 ++ entries)

/-- Changes the session. -/
def change (f : Session → Session) : Work Unit :=
  modify fun state => (f state.1, state.2)

/-- The session as it is. -/
def session : Work Session := do
  return (← get).1

/-- Reads the address behind a command. -/
def address (text : List Char) : Work Address :=
  ExceptT.mk (pure (readAddress text))

variable (s : Session) (told : Transcript)

@[simp] theorem outcome_pure {α : Type} (answer : α) (state : Session × Transcript) :
    (pure answer : Work α).outcome state = (.ok answer, state) := rfl

@[simp] theorem outcome_tell (entries : Transcript) :
    (tell entries).outcome (s, told) = (.ok (), s, told ++ entries) := rfl

@[simp] theorem outcome_change (f : Session → Session) :
    (change f).outcome (s, told) = (.ok (), f s, told) := rfl

@[simp] theorem outcome_session : session.outcome (s, told) = (.ok s, s, told) := rfl

@[simp] theorem outcome_address (text : List Char) (state : Session × Transcript) :
    (address text).outcome state = (readAddress text, state) := rfl

/-- A program goes on from the state that its first part leaves, unless that part ends in a
rejection. -/
@[simp] theorem outcome_bind {α β : Type} (work : Work α) (next : α → Work β)
    (state : Session × Transcript) :
    (work >>= next).outcome state =
      match work.outcome state with
      | (.ok answer, after) => (next answer).outcome after
      | (.error e, after) => (.error e, after) := by
  change ExceptT.bindCont next (work.outcome state).1 (work.outcome state).2 = _
  rcases work.outcome state with ⟨answer | e, after⟩
  · rfl
  · rfl

/-! ## Listing and assembling -/

/-- Prints the rows of a listing, one after the other. -/
def printRows : List Row → Work Unit
  | [] => pure ()
  | row :: rows => do
    tell [.printed (row.line ++ "\n")]
    printRows rows

theorem outcome_printRows (rows : List Row) :
    (printRows rows).outcome (s, told) =
      (.ok (), s, told ++ rows.map fun row => .printed (row.line ++ "\n")) := by
  induction rows generalizing told with
  | nil => simp [printRows]
  | cons row rows ih => simp [printRows, ih]

/-- Lists instructions from an address on, and goes to the address behind them. -/
def list (a : Address) : Work Unit := do
  let s ← session
  let code := s.memory.bytes a (s.listCount * Session.longestInstruction).toNat
  let rows := listing a.toNat code (some s.listCount)
  printRows rows
  change fun s => { s with address := (Session.behind a rows).toNat }

theorem outcome_list (a : Address) :
    (list a).outcome (s, told) =
      (.ok (), { s with address := (s.list a.toNat).2.toNat }, told ++ (s.list a.toNat).1) := by
  simp only [list, outcome_bind, outcome_session, outcome_printRows, outcome_change,
    s.listing_window, s.list_shown, Session.shown]

/-- Enters a line at the current address. -/
def enterOne : Work Line := do
  let s ← session
  let step := enterLine s.memory s.console (Address.ofInt s.address)
  change fun s => { s with memory := step.memory, console := step.console }
  tell step.transcript
  return step.result

theorem outcome_enterOne {a : Address} (haddress : s.address = a.toNat) :
    enterOne.outcome (s, told) =
      let step := enterLine s.memory s.console a
      (.ok step.result, { s with memory := step.memory, console := step.console },
        told ++ step.transcript) := by
  simp only [enterOne, outcome_bind, outcome_session, outcome_change, outcome_tell, outcome_pure,
    haddress, Address.ofInt_toNat]

/-- Enters lines one behind the other until Escape or the end of the input takes the place of one;
`fuel` is the most that are entered. -/
def enter : Nat → Work (List Line)
  | 0 => pure []
  | fuel + 1 => do
    let line ← enterOne
    if line.ending = .ended then
      return []
    change fun s => { s with address := line.next.toNat }
    let later ← enter fuel
    return line :: later

/-- A line for each one of the input, and one for its end, are enough. -/
theorem outcome_enter {fuel : Nat} {a : Address} (haddress : s.address = a.toNat)
    (hfuel : s.console.unread.length < fuel) :
    (enter fuel).outcome (s, told) =
      let run := enterLines s.memory s.console a
      (.ok run.results,
        { s with memory := run.memory, console := run.console, address := run.finish.toNat },
        told ++ run.transcript) := by
  -- a line that does not end assembling uses up one of the input, so there is enough for the rest
  induction fuel generalizing s told a with
  | zero => omega
  | succ fuel ih =>
    rw [enter, outcome_bind, outcome_enterOne s told haddress, enterLines]
    by_cases hended : (enterLine s.memory s.console a).result.ending = .ended
    · simp [hended, haddress]
    · have hused := length_enterLine_lt s.memory s.console a hended
      simp only [hended, if_false, dite_false]
      rw [outcome_bind, outcome_change]
      dsimp only
      rw [outcome_bind, ih _ _ rfl (by dsimp only; omega)]
      simp

/-- Assembles from an address on, and records what was assembled. -/
def assemble (a : Address) : Work Unit := do
  change fun s => { s with address := a.toNat }
  tell [.logged (.assembling a)]
  let s ← session
  let results ← enter (s.console.unread.length + 1)
  let s ← session
  let assembly : Assembly := ⟨a, Address.ofInt s.address, results⟩
  change fun s => { s with assemblies := s.assemblies ++ [assembly] }
  tell [.logged (.assembled assembly.finish assembly.lines assembly.errors)]

theorem outcome_assemble (a : Address) :
    (assemble a).outcome (s, told) =
      (.ok (), (s.assemble a.toNat).1, told ++ (s.assemble a.toNat).2.1) := by
  have hlines := outcome_enter { s with address := a.toNat } (told ++ [.logged (.assembling a)])
    rfl (Nat.lt_succ_self _)
  simp [assemble, Session.assemble, Address.ofInt_toNat, hlines]

/-! ## Carrying out a command -/

/-- Carries out a command; the answer says whether the monitor goes on. -/
def obey (command : String) : Work Bool := do
  let stripped := Text.strip command.toList
  match stripped with
  | [] => return true
  | verb :: rest =>
    let argument := Text.strip rest
    if verb = 'Q' ∧ argument = [] then
      return false
    if verb = 'A' then
      assemble (← address argument)
      return true
    if verb = 'L' then
      list (← address argument)
      return true
    throw ⟨String.ofList stripped, "Invalid command"⟩

/-- What is executed at once, as it would come of a program. -/
def executed (result : Except Rejection (Session × Transcript × Bool)) :
    Except Rejection Bool × (Session × Transcript) :=
  match result with
  | .ok (after, more, goesOn) => (.ok goesOn, after, told ++ more)
  | .error e => (.error e, s, told)

/-- An address is read before anything is done with it. -/
theorem outcome_address_bind {wanted : Address → Command} {next : Address → Work Bool}
    (hnext : ∀ a, (next a).outcome (s, told) = executed s told (.ok (s.perform (wanted a))))
    (text : List Char) :
    (address text >>= next).outcome (s, told) =
      executed s told (((readAddress text).map wanted).map s.perform) := by
  rw [outcome_bind, outcome_address]
  cases readAddress text with
  | error e => rfl
  | ok a => exact hnext a

/-- A command does what is executed at once, and nothing when it is rejected. -/
theorem outcome_obey (command : String) :
    (obey command).outcome (s, told) = executed s told (s.execute command) := by
  unfold obey Session.execute Command.read
  dsimp only
  cases Text.strip command.toList with
  | nil => simp [executed, Except.map, Session.perform]
  | cons verb rest =>
    dsimp only
    by_cases hquit : verb = 'Q' ∧ Text.strip rest = []
    · rw [if_pos hquit, if_pos hquit]
      simp [executed, Except.map, Session.perform]
    · rw [if_neg hquit, if_neg hquit]
      by_cases hassemble : verb = 'A'
      · rw [if_pos hassemble, if_pos hassemble]
        refine outcome_address_bind s told (fun a => ?_) _
        rw [outcome_bind, outcome_assemble]
        rfl
      · rw [if_neg hassemble, if_neg hassemble]
        by_cases hlist : verb = 'L'
        · rw [if_pos hlist, if_pos hlist]
          refine outcome_address_bind s told (fun a => ?_) _
          rw [outcome_bind, outcome_list]
          rfl
        · rw [if_neg hlist, if_neg hlist]
          rfl

end Work

/-! ## What a command does -/

namespace Session

/-- What comes of a command, as it depends on the text that is left of it without the white space at
its ends. -/
structure Executes (s : Session) (command : String) (stripped : List Char) : Prop where
  /-- It is rejected unless there is nothing in it, or it is a `Q`, or an `A` or `L` with an address
  behind it. -/
  rejected_iff : (∃ e, s.execute command = .error e) ↔
    stripped ≠ [] ∧ stripped ≠ ['Q'] ∧
      ¬ ∃ verb rest a, stripped = verb :: rest ∧ (verb = 'A' ∨ verb = 'L') ∧
        readAddress rest = .ok a
  /-- It is rejected for its address if it begins with an `A` or `L`, and else as it stands. -/
  reason : ∀ e, s.execute command = .error e →
    (∃ verb rest, stripped = verb :: rest ∧ (verb = 'A' ∨ verb = 'L') ∧
        e = ⟨String.ofList (Text.upper (Text.strip rest)), "Invalid address"⟩) ∨
      (∀ rest, stripped ≠ 'A' :: rest ∧ stripped ≠ 'L' :: rest) ∧
        e = ⟨String.ofList stripped, "Invalid command"⟩
  /-- When it is carried out and rejected on the way, the session is what it was, and nothing more
  is told. -/
  unchanged : ∀ e told, s.execute command = .error e →
    (Work.obey command).outcome (s, told) = (.error e, s, told)
  /-- When it is carried out and not rejected, it does what is executed at once. -/
  carried : ∀ after more goesOn told, s.execute command = .ok (after, more, goesOn) →
    (Work.obey command).outcome (s, told) = (.ok goesOn, after, told ++ more)
  /-- Without a command, and with the one to stop, the session is what it was. -/
  idle : (stripped = [] → s.execute command = .ok (s, [], true)) ∧
    (stripped = ['Q'] → s.execute command = .ok (s, [], false))
  /-- A listing changes nothing but the current address, which is then behind the last row. -/
  listed : ∀ rest a, stripped = 'L' :: rest → readAddress rest = .ok a →
    s.execute command = .ok ({ s with address := (behind a (s.shown a)).toNat },
      (s.shown a).map (fun row => .printed (row.line ++ "\n")), true)
  /-- What is assembled is recorded behind the rest, and the current address is then at its end. -/
  assembled : ∀ rest a, stripped = 'A' :: rest → readAddress rest = .ok a →
    ∃ after told S, s.assemble a.toNat = (after, told, S) ∧
      s.execute command = .ok (after, told, true) ∧ after.assemblies = s.assemblies ++ [S] ∧
      S.start = a ∧ after.address = S.finish.toNat ∧ after.listCount = s.listCount

variable (s : Session) {command : String} {wanted : Command}

theorem execute_of_read (hread : Command.read command = .ok wanted) :
    s.execute command = .ok (s.perform wanted) := by
  rw [execute, hread]
  rfl

/-- A command is rejected when it is read. -/
theorem execute_eq_error_iff {e : Rejection} :
    s.execute command = .error e ↔ Command.read command = .error e := by
  rw [execute]
  cases Command.read command <;> simp [Except.map]

/-- A command is rejected before it has done anything, and what it does otherwise is all that is
listed. -/
theorem execute_accounted (s : Session) (command : String) :
    s.Executes command (Text.strip command.toList) where
  rejected_iff := by
    simp only [execute_eq_error_iff]
    exact Command.exists_read_eq_error_iff
  reason e he := Command.eq_of_read_eq_error (s.execute_eq_error_iff.mp he)
  unchanged e told he := by rw [Work.outcome_obey, he, Work.executed]
  carried after more goesOn told he := by rw [Work.outcome_obey, he, Work.executed]
  idle := by
    constructor
    · intro hstripped
      exact s.execute_of_read (by rw [Command.read, hstripped])
    · intro hstripped
      exact s.execute_of_read (Command.read_eq_quit_iff.mpr hstripped)
  listed rest a hstripped hread := by
    have hlist := Command.read_of_verb hstripped (Or.inr ⟨rfl, rfl⟩)
    rw [hread] at hlist
    rw [s.execute_of_read hlist, perform, s.list_shown]
  assembled rest a hstripped hread := by
    have hassemble := Command.read_of_verb hstripped (Or.inl ⟨rfl, rfl⟩)
    rw [hread] at hassemble
    exact ⟨_, _, _, rfl, s.execute_of_read hassemble, rfl, Address.ofInt_toNat a, rfl, rfl⟩

end Session

end LineMonitor
