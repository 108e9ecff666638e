import LineMonitor.Line.Machine
import LineMonitor.Proofs.Line.Result

/-!
# The ways out of a line

A line is left at its mnemonic, when the session is over; in its operand, when it is dropped; at
any of five places where a fault is raised; or when its instruction is in memory.  `Refusal` lists
the faults with what gave rise to them.  `Machine.Leaving` says for each way out of a line that has
a mnemonic which result is returned or which fault is raised, and in what state the assembler is
then; there is one lemma for each way (`Machine.leaving_unknown` to `Machine.leaving_placed`), and
`Machine.leaving_assemble` puts them together.

At the end of the line a fault becomes a result too (`Machine.outcome_assembleLine`).  So every line
has a result, it is in step with the state in which the assembler is left
(`Machine.assembleLine_inStep`), and it is the result of `enterLine`
(`Machine.assembleLine_matches`).
-/

namespace LineMonitor

/-! ## Programs of the assembler -/

namespace Machine.Act

variable {α β : Type} (s : Machine)

@[simp] theorem outcome_pure (answer : α) : (pure answer : Act α).outcome s = (.ok answer, s) := rfl

@[simp] theorem outcome_throw (raised : Raised) :
    (throw raised : Act α).outcome s = (.error raised, s) := rfl

/-- A program goes on from the state that its first part leaves, unless that part raises
something. -/
@[simp] theorem outcome_bind (act : Act α) (next : α → Act β) :
    (act >>= next).outcome s =
      match act.outcome s with
      | (.ok answer, after) => (next answer).outcome after
      | (.error raised, after) => (.error raised, after) := by
  change ExceptT.bindCont next (act.outcome s).1 (act.outcome s).2 = _
  rcases act.outcome s with ⟨answer | raised, after⟩
  · rfl
  · rfl

/-- What is raised is handled in the state in which it was raised. -/
theorem outcome_tryCatch (act : Act α) (handler : Raised → Act α) :
    (tryCatch act handler).outcome s =
      match act.outcome s with
      | (.ok answer, after) => (.ok answer, after)
      | (.error raised, after) => (handler raised).outcome after := by
  unfold outcome
  simp only [tryCatch, tryCatchThe, MonadExceptOf.tryCatch, ExceptT.tryCatch, ExceptT.mk, bind,
    StateT.bind]
  rcases act s with ⟨answer | raised, after⟩
  · rfl
  · rfl

end Machine.Act

namespace Machine

variable (s : Machine)

@[simp] theorem outcome_enter (stage : Stage) :
    (enter stage).outcome s = (.ok (), { s with stage }) := rfl

@[simp] theorem outcome_tell (entries : Transcript) :
    (tell entries).outcome s = (.ok (), { s with told := s.told ++ entries }) := rfl

@[simp] theorem outcome_begin (parsed : Option Statement) :
    (begin parsed).outcome s = (.ok (), { s with parsed }) := rfl

@[simp] theorem outcome_note (recognised : Statement → Statement) :
    (note recognised).outcome s = (.ok (), { s with parsed := s.parsed.map recognised }) := rfl

@[simp] theorem outcome_parsedSoFar : parsedSoFar.outcome s = (.ok s.parsed, s) := rfl

@[simp] theorem outcome_fail {α : Type} (fault : Fault) :
    (fail fault : Act α).outcome s = (.error (.fault fault), s) := rfl

@[simp] theorem outcome_ask (question : Console → Reading) :
    (ask question).outcome s =
      (.ok (question s.console).answer,
        { s with
          console := (question s.console).console
          told := s.told ++ (question s.console).transcript }) := rfl

/-- Of a write that fails, memory and the log keep what was done. -/
@[simp] theorem outcome_emit (a : Address) (opcode : Byte) (operand : List Byte) :
    (emit a opcode operand).outcome s =
      let attempt := s.memory.put a opcode operand
      (attempt.result.mapError fun mismatch => .fault mismatch.fault,
        { s with
          memory := attempt.memory
          told := s.told ++ attempt.events.map .logged }) := by
  have hget : (get : Act Machine).outcome s = (.ok s, s) := rfl
  have hmodify : ∀ f, (modify f : Act PUnit).outcome s = (.ok (), f s) := fun _ => rfl
  simp only [emit, Act.outcome_bind, hget, hmodify, outcome_tell]
  cases (s.memory.put a opcode operand).result <;> rfl

end Machine

/-! ## Why a line is refused -/

/-- The faults for which a statement at an address is refused, and what gave rise to each. -/
inductive Refusal (m' : Memory) (a : Address) (parsed : Statement) : Fault → Prop where
  /-- The mnemonic is no name of an instruction. -/
  | mnemonic (hname : Mnemonic.ofName? parsed.mnemonic = none) :
      Refusal m' a parsed ⟨.unknownMnemonic parsed.mnemonic, some a.toNat⟩
  /-- The operand is not read. -/
  | operand {i : Mnemonic} {text : String} {cause : Cause}
      (hinstruction : parsed.instruction = some i) (htext : parsed.operandText = some text)
      (hread : Operand.read i.modes text = .error cause) : Refusal m' a parsed ⟨cause, none⟩
  /-- The instruction has no encoding for the mode. -/
  | mode {i : Mnemonic} {o : Operand} {fault : Fault}
      (hinstruction : parsed.instruction = some i) (hoperand : parsed.operand = some o)
      (hfind : Encoding.find? i o.mode = none) (houtcome : fault.cause.outcome = .invalidMode) :
      Refusal m' a parsed fault
  /-- The operand is not encoded. -/
  | reach {i : Mnemonic} {o : Operand} {e : Encoding} {fault : Fault}
      (hinstruction : parsed.instruction = some i) (hoperand : parsed.operand = some o)
      (hfind : Encoding.find? i o.mode = some e)
      (hencode : o.encode a.toNat e.length = .error fault) : Refusal m' a parsed fault
  /-- A byte does not read back. -/
  | memory {i : Mnemonic} {o : Operand} {e : Encoding} {operand : List Byte} {x : Mismatch}
      (hinstruction : parsed.instruction = some i) (hoperand : parsed.operand = some o)
      (hfind : Encoding.find? i o.mode = some e)
      (hencode : o.encode a.toNat e.length = .ok operand)
      (hlost : m'.mismatch? a (e.opcode :: operand) = some x) : Refusal m' a parsed x.fault

/-! ## The result and the state of the assembler -/

/-- The parts of a line's result agree with one another, with the address the line was asked at,
which may be any integer, and with the state in which the assembler is left. -/
structure LineResult.InStep (r : LineResult) (address : Int) (after : Machine) : Prop where
  /-- The address is the given one modulo 65536. -/
  address_eq : (r.address.toNat : Int) = address % 65536
  /-- The line is a success exactly if the assembler has emitted an instruction. -/
  emitted_iff : r.outcome = .success ↔ after.stage = .emitted
  /-- It is one exactly if there is an emission. -/
  emission_iff : r.outcome = .success ↔ r.emission.isSome = true
  /-- Then there are one to three bytes, and the next line is behind them. -/
  of_success : r.outcome = .success →
    1 ≤ r.data.length ∧ r.data.length ≤ 3 ∧
      (r.next.toNat : Int) = (address + r.data.length) % 65536
  /-- Otherwise the assembler has given the line up, there are no bytes, and the next line is where
  this one was. -/
  of_not_success : r.outcome ≠ .success →
    after.stage = .aborted ∧ r.data = [] ∧ r.next = r.address
  /-- There is a message exactly if the outcome is an error. -/
  message_iff : r.message.isSome = true ↔ r.outcome.isError = true
  /-- An error has the message of its fault and the outcome of the kind of the fault, which comes
  from one of the five places where a line is refused. -/
  of_isError : r.outcome.isError = true →
    ∃ fault parsed, r.message = some fault.cause.message ∧
      fault.cause.kind.outcome? = some r.outcome ∧ r.parsed = some parsed ∧
      Refusal after.memory r.address parsed fault
  /-- Nothing was read of the line exactly if the session is at its end. -/
  parsed_iff : r.parsed = none ↔ r.outcome = .sessionEnded

section Ends

variable {address : Int} {after : Machine} {parsed : Statement}

/-- The result at the end of the session. -/
theorem LineResult.inStep_ended (hstage : after.stage = .aborted) :
    let a := Address.ofInt address
    LineResult.InStep { outcome := .sessionEnded, address := a, next := a } address after where
  address_eq := Address.natCast_toNat_ofInt address
  emitted_iff := by simp [hstage]
  emission_iff := by simp
  of_success := nofun
  of_not_success _ := ⟨hstage, rfl, rfl⟩
  message_iff := by simp [Outcome.isError]
  of_isError := nofun
  parsed_iff := by simp

/-- The result of a line that is dropped. -/
theorem LineResult.inStep_dropped (hstage : after.stage = .aborted) :
    let a := Address.ofInt address
    LineResult.InStep
      { outcome := .lineAborted, address := a, next := a, parsed := some parsed }
      address after where
  address_eq := Address.natCast_toNat_ofInt address
  emitted_iff := by simp [hstage]
  emission_iff := by simp
  of_success := nofun
  of_not_success _ := ⟨hstage, rfl, rfl⟩
  message_iff := by simp [Outcome.isError]
  of_isError := nofun
  parsed_iff := by simp

/-- The result of a line that is given up for a fault. -/
theorem LineResult.inStep_refused {fault : Fault} (hstage : after.stage = .aborted)
    (hrefusal : Refusal after.memory (Address.ofInt address) parsed fault) :
    let a := Address.ofInt address
    LineResult.InStep
      { outcome := fault.cause.outcome
        address := a
        next := a
        parsed := some parsed
        message := some fault.cause.message } address after := by
  have hsuccess : fault.cause.outcome ≠ .success := Cause.outcome_ne rfl
  have hended : fault.cause.outcome ≠ .sessionEnded := Cause.outcome_ne rfl
  exact
    { address_eq := Address.natCast_toNat_ofInt address
      emitted_iff := by simp [hstage, hsuccess]
      emission_iff := by simp [hsuccess]
      of_success := fun h => absurd h hsuccess
      of_not_success := fun _ => ⟨hstage, rfl, rfl⟩
      message_iff := by simp
      of_isError := fun _ => ⟨fault, parsed, rfl, fault.cause.outcome?_kind, rfl, hrefusal⟩
      parsed_iff := by simp [hended] }

/-- The result of a line whose instruction is in memory. -/
theorem LineResult.inStep_assembled {data : List Byte} (hstage : after.stage = .emitted)
    (hlow : 1 ≤ data.length) (hhigh : data.length ≤ 3) :
    let a := Address.ofInt address
    LineResult.InStep
      { outcome := .success
        address := a
        next := a.after data.length
        parsed := some parsed
        emission := some ⟨a, data⟩ } address after where
  address_eq := Address.natCast_toNat_ofInt address
  emitted_iff := by simp [hstage]
  emission_iff := by simp
  of_success _ := by
    refine ⟨hlow, hhigh, ?_⟩
    change _ = (address + (data.length : Int)) % 65536
    rw [← Address.toNat_add_emod, Address.natCast_toNat_ofInt]
    omega
  of_not_success hother := absurd rfl hother
  message_iff := by simp [Outcome.isError]
  of_isError := nofun
  parsed_iff := by simp

end Ends

namespace Machine

/-! ## The ways out of a line -/

/-- How an instruction with its operand is placed: what becomes of memory and what is told is the
same as for `Memory.assemble`. -/
inductive Placing (s : Machine) (a : Address) (i : Mnemonic) (o : Operand) :
    Except Raised Placement × Machine → Prop where
  /-- A fault is raised. -/
  | refused {m : Memory} {events : List Event} {told : Transcript} {fault : Fault} {stage : Stage}
      (htold : told = s.told ++ events.map .logged)
      (hassemble : s.memory.assemble a i o = (m, events, .refused fault)) :
      Placing s a i o (.error (.fault fault), { s with memory := m, told, stage })
  /-- The instruction is in memory. -/
  | assembled {m : Memory} {events : List Event} {told : Transcript} {data : List Byte}
      (htold : told = s.told ++ events.map .logged)
      (hassemble : s.memory.assemble a i o = (m, events, .assembled ⟨a, data⟩)) :
      Placing s a i o (.ok ⟨a, data⟩, { s with memory := m, told, stage := .emitted })

theorem placing (s : Machine) (a : Address) (i : Mnemonic) (o : Operand) :
    Placing s a i o ((place a i o).outcome s) := by
  have hnothing : s.told = s.told ++ ([] : List Event).map .logged := (List.append_nil _).symm
  cases hfind : Encoding.find? i o.mode with
  | none =>
    simp only [place, hfind, outcome_fail]
    exact .refused hnothing (by simp only [Memory.assemble, hfind])
  | some e =>
    cases hencode : o.encode a.toNat e.length with
    | error fault =>
      simp only [place, hfind, hencode, Act.outcome_bind, outcome_enter, outcome_fail]
      exact .refused hnothing (by simp only [Memory.assemble, hfind, hencode])
    | ok operand =>
      rcases s.memory.put_cases a e.opcode operand with ⟨hresult, -⟩ | ⟨x, hresult, -⟩
      · simp only [place, hfind, hencode, Act.outcome_bind, outcome_enter, outcome_emit, hresult,
          Except.mapError, Act.outcome_pure]
        exact .assembled rfl (by simp only [Memory.assemble, hfind, hencode, hresult])
      · simp only [place, hfind, hencode, Act.outcome_bind, outcome_enter, outcome_emit, hresult,
          Except.mapError]
        exact .refused rfl (by simp only [Memory.assemble, hfind, hencode, hresult])

/-- The ways out of a line that has a mnemonic: the step of the line, and what comes of the program
with the state in which it leaves the assembler. -/
inductive Leaving (s : Machine) (a : Address) :
    LineStep → Except Raised LineResult × Machine → Prop where
  /-- A fault is raised. -/
  | refused {parsed : Statement} {m : Memory} {c : Console} {told told' : Transcript}
      {fault : Fault} {stage : Stage} (htold : told' = s.told ++ told)
      (hrefusal : Refusal m a parsed fault) :
      Leaving s a (parsed.stop m c a told (.refused fault))
        (.error (.fault fault), ⟨m, c, told', stage, some parsed⟩)
  /-- The line is dropped. -/
  | dropped {parsed : Statement} {m : Memory} {c : Console} {told told' : Transcript}
      (htold : told' = s.told ++ told ++ [.logged (.dropped a)]) :
      Leaving s a (parsed.stop m c a told .dropped)
        (.ok { outcome := .lineAborted, address := a, next := a, parsed := some parsed },
          ⟨m, c, told', .aborted, some parsed⟩)
  /-- The instruction is in memory. -/
  | assembled {parsed : Statement} {m : Memory} {c : Console} {told told' : Transcript}
      {data : List Byte} (htold : told' = s.told ++ told) (hlow : 1 ≤ data.length)
      (hhigh : data.length ≤ 3) :
      Leaving s a (parsed.stop m c a told (.assembled ⟨a, data⟩))
        (.ok
          { outcome := .success
            address := a
            next := a.after data.length
            parsed := some parsed
            emission := some ⟨a, data⟩ },
          ⟨m, c, told', .emitted, some parsed⟩)

section Ways

variable {s : Machine} {a : Address} {mnemonic : String}

/-- Nothing is known of a line whose mnemonic is no name of an instruction. -/
theorem leaving_unknown (hparsed : s.parsed = some { mnemonic })
    (hname : Mnemonic.ofName? mnemonic = none) :
    Leaving s a (enterMnemonic s.memory s.console a mnemonic)
      ((assemble a mnemonic).outcome s) := by
  obtain ⟨m, c, told, stage, parsed⟩ := s
  subst hparsed
  simp only [assemble, resolve, hname, Act.outcome_bind, outcome_fail, enterMnemonic]
  exact .refused (List.append_nil _).symm (.mnemonic hname)

/-- Once instruction and operand are known, the line is refused or assembled. -/
theorem leaving_placed {m : Memory} {c : Console} {told told' : Transcript} {stage : Stage}
    {parsed : Statement} {i : Mnemonic} {o : Operand} (htold : told' = s.told ++ told)
    (hinstruction : parsed.instruction = some i) :
    Leaving s a (parsed.complete m c a told i o)
      ((finish a i o).outcome ⟨m, c, told', stage, some { parsed with operand := some o }⟩) := by
  generalize hs' : (⟨m, c, told', stage, some { parsed with operand := some o }⟩ : Machine) = s'
  have hplacing := s'.placing a i o
  have hways := m.assembling a i o
  rw [finish, Act.outcome_bind]
  generalize (place a i o).outcome s' = came at hplacing ⊢
  subst hs'
  cases hplacing with
  | @refused m' events after fault stage hafter hassemble =>
    rw [show m.assemble a i o = _ from hassemble] at hways
    have hrefusal : Refusal m' a { parsed with operand := some o } fault := by
      cases hways with
      | unsupported hfind houtcome => exact .mode hinstruction rfl hfind houtcome
      | outOfReach hfind hencode => exact .reach hinstruction rfl hfind hencode
      | lost hfind hencode hlost => exact .memory hinstruction rfl hfind hencode hlost
    have hstep : parsed.complete m c a told i o =
        Statement.stop { parsed with operand := some o } m' c a (told ++ events.map .logged)
          (.refused fault) := by
      rw [Statement.complete, hassemble, Statement.stop]
    rw [hstep]
    exact .refused (by rw [hafter, htold, List.append_assoc]) hrefusal
  | @assembled m' events after data hafter hassemble =>
    rw [show m.assemble a i o = _ from hassemble] at hways
    obtain ⟨hlow, hhigh⟩ := hways.length_bounds
    have hstep : parsed.complete m c a told i o =
        Statement.stop { parsed with operand := some o } m' c a (told ++ events.map .logged)
          (.assembled ⟨a, data⟩) := by
      rw [Statement.complete, hassemble, Statement.stop]
    rw [hstep]
    exact .assembled (by rw [hafter, htold, List.append_assoc]) hlow hhigh

/-- Escape in the operand drops the line. -/
theorem leaving_dropped (hparsed : s.parsed = some { mnemonic }) {i : Mnemonic}
    (hname : Mnemonic.ofName? mnemonic = some i) (htakes : i.takesNoOperand = false)
    (hanswer : s.console.takeOperand.answer = none) :
    Leaving s a (enterMnemonic s.memory s.console a mnemonic)
      ((assemble a mnemonic).outcome s) := by
  simp only [assemble, resolve, operand, drop, hname, htakes, hanswer, hparsed, enterMnemonic,
    enterOperand, Act.outcome_bind, Act.outcome_pure, outcome_note, outcome_enter, outcome_ask,
    outcome_tell, outcome_parsedSoFar, Option.map_some, Bool.false_eq_true, if_false]
  exact .dropped rfl

/-- An operand that is not read is at fault. -/
theorem leaving_unread (hparsed : s.parsed = some { mnemonic }) {i : Mnemonic}
    (hname : Mnemonic.ofName? mnemonic = some i) (htakes : i.takesNoOperand = false)
    {text : String} (hanswer : s.console.takeOperand.answer = some text) {cause : Cause}
    (hread : Operand.read i.modes text = .error cause) :
    Leaving s a (enterMnemonic s.memory s.console a mnemonic)
      ((assemble a mnemonic).outcome s) := by
  simp only [assemble, resolve, operand, hname, htakes, hanswer, hread, hparsed, enterMnemonic,
    enterOperand, Act.outcome_bind, Act.outcome_pure, outcome_note, outcome_enter, outcome_ask,
    outcome_fail, Option.map_some, Bool.false_eq_true, if_false]
  exact .refused rfl (.operand rfl rfl hread)

/-- Every line that has a mnemonic is left in one of these ways. -/
theorem leaving_assemble (hparsed : s.parsed = some { mnemonic }) :
    Leaving s a (enterMnemonic s.memory s.console a mnemonic)
      ((assemble a mnemonic).outcome s) := by
  cases hname : Mnemonic.ofName? mnemonic with
  | none => exact leaving_unknown hparsed hname
  | some i =>
    cases htakes : i.takesNoOperand with
    | true =>
      simp only [assemble, resolve, operand, hname, htakes, hparsed, enterMnemonic,
        Act.outcome_bind, Act.outcome_pure, outcome_note, outcome_enter, Option.map_some, if_true]
      exact leaving_placed (List.append_nil _).symm rfl
    | false =>
      cases hanswer : s.console.takeOperand.answer with
      | none => exact leaving_dropped hparsed hname htakes hanswer
      | some text =>
        cases hread : Operand.read i.modes text with
        | error cause => exact leaving_unread hparsed hname htakes hanswer hread
        | ok o =>
          simp only [assemble, resolve, operand, hname, htakes, hanswer, hread, hparsed,
            enterMnemonic, enterOperand, Act.outcome_bind, Act.outcome_pure, outcome_note,
            outcome_enter, outcome_ask, outcome_tell, Option.map_some, Bool.false_eq_true,
            if_false]
          exact leaving_placed (List.append_assoc _ _ _) rfl

end Ways

/-! ## A whole line -/

/-- A fault that ends a line becomes its result. -/
theorem outcome_giveUp (s : Machine) (a : Address) (fault : Fault) :
    (giveUp a (.fault fault)).outcome s =
      (.ok
        { outcome := fault.cause.outcome
          address := a
          next := a
          parsed := s.parsed
          message := some fault.cause.message },
        { s with
          stage := .aborted
          told := s.told ++ (Ending.refused fault).transcript a }) := by
  simp only [giveUp, Cause.outcome?_kind, Act.outcome_bind, Act.outcome_pure, outcome_enter,
    outcome_tell, outcome_parsedSoFar, Ending.transcript]

end Machine

/-- A line with all the parts of its result. -/
def Line.inFull (r : Line) : LineResult where
  outcome := r.outcome
  address := r.address
  next := r.next
  parsed := r.parsed
  emission := r.ending.placement?
  message := r.ending.message?

namespace Machine

/-- A line comes to the result of a step of `enterLine`, and leaves the assembler in step with
it. -/
structure Settled (s : Machine) (address : Int) (step : LineStep) (r : LineResult)
    (after : Machine) : Prop where
  inStep : r.InStep address after
  result_eq : r = step.result.inFull
  memory_eq : after.memory = step.memory
  console_eq : after.console = step.console
  told_eq : after.told = s.told ++ step.transcript
  parsed_eq : after.parsed = step.result.parsed

/-- A way out of a line that has a mnemonic settles the line, once a fault is handled. -/
theorem Leaving.settled {s : Machine} {act : Act LineResult} {address : Int} {step : LineStep}
    (h : Leaving s (Address.ofInt address) step (act.outcome s)) :
    ∃ r after,
      (tryCatch act (giveUp (Address.ofInt address))).outcome s = (.ok r, after) ∧
        Settled s address step r after := by
  rw [Act.outcome_tryCatch]
  generalize act.outcome s = came at h ⊢
  cases h with
  | @refused parsed m c told told' fault stage htold hrefusal =>
    refine ⟨_, _, outcome_giveUp _ _ _, ?_⟩
    exact
      { inStep := LineResult.inStep_refused rfl hrefusal
        result_eq := rfl
        memory_eq := rfl
        console_eq := rfl
        told_eq := by simp [Statement.stop, htold]
        parsed_eq := rfl }
  | @dropped parsed m c told told' htold =>
    refine ⟨_, _, rfl, ?_⟩
    exact
      { inStep := LineResult.inStep_dropped rfl
        result_eq := rfl
        memory_eq := rfl
        console_eq := rfl
        told_eq := by simp [Statement.stop, Ending.transcript, htold]
        parsed_eq := rfl }
  | @assembled parsed m c told told' data htold hlow hhigh =>
    refine ⟨_, _, rfl, ?_⟩
    exact
      { inStep := LineResult.inStep_assembled rfl hlow hhigh
        result_eq := rfl
        memory_eq := rfl
        console_eq := rfl
        told_eq := by simp [Statement.stop, Ending.transcript, htold]
        parsed_eq := rfl }

theorem settled_assembleLine (address : Int) (s : Machine) :
    ∃ r after, (assembleLine address).outcome s = (.ok r, after) ∧
      Settled s address (enterLine s.memory s.console (Address.ofInt address)) r after := by
  simp only [assembleLine, enterLine, Act.outcome_bind, outcome_begin, outcome_enter,
    outcome_tell, outcome_ask]
  cases hanswer : s.console.takeMnemonic.answer with
  | none =>
    refine ⟨_, _, rfl, ?_⟩
    exact
      { inStep := LineResult.inStep_ended rfl
        result_eq := rfl
        memory_eq := rfl
        console_eq := rfl
        told_eq := by simp [Ending.transcript]
        parsed_eq := rfl }
  | some mnemonic =>
    simp only [Act.outcome_bind, outcome_begin]
    generalize hbegun : (⟨s.memory, s.console.takeMnemonic.console, _, _, some { mnemonic }⟩ :
      Machine) = begun
    have hparsed : begun.parsed = some { mnemonic } := by rw [← hbegun]
    obtain ⟨r, after, hcame, hsettled⟩ := Leaving.settled (leaving_assemble hparsed)
    subst hbegun
    exact ⟨r, after, hcame, { hsettled with told_eq := hsettled.told_eq.trans (by simp) }⟩

/-- Whatever is typed at whatever address, and in whatever state the assembler is, the line has a
result, and this is in step with the state in which the assembler is left. -/
theorem assembleLine_inStep (address : Int) (s : Machine) :
    ∃ r after, (assembleLine address).outcome s = (.ok r, after) ∧ r.InStep address after := by
  obtain ⟨r, after, hcame, hsettled⟩ := settled_assembleLine address s
  exact ⟨r, after, hcame, hsettled.inStep⟩

/-- The line is the one that `enterLine` enters. -/
theorem assembleLine_matches (address : Int) (s : Machine) :
    ∃ stage, (assembleLine address).outcome s =
      let step := enterLine s.memory s.console (Address.ofInt address)
      (.ok step.result.inFull,
        ⟨step.memory, step.console, s.told ++ step.transcript, stage, step.result.parsed⟩) := by
  obtain ⟨r, ⟨m, c, told, stage, parsed⟩, hcame, hsettled⟩ := settled_assembleLine address s
  obtain ⟨-, rfl, rfl, rfl, rfl, rfl⟩ := hsettled
  exact ⟨stage, hcame⟩

end Machine

end LineMonitor
