import LineMonitor.Text.Blank
import Mathlib.Data.List.DropRight

/-!
# What is left when white space is removed

A text from whose ends white space was removed neither begins nor ends with it, so that removing it
once more changes nothing (`Text.strip_strip`).  All else is kept (`Text.mem_strip`).
-/

namespace LineMonitor.Text

theorem strip_eq_nil_iff {text : List Char} : strip text = [] ↔ ∀ c ∈ text, isBlank c = true := by
  constructor
  · intro h
    have hfront : ∀ c ∈ stripFront text, isBlank c = true := List.rdropWhile_eq_nil_iff.mp h
    intro c hc
    rw [← List.takeWhile_append_dropWhile (p := isBlank) (l := text), List.mem_append] at hc
    rcases hc with hblank | hbehind
    · exact List.mem_takeWhile_imp hblank
    · exact hfront c hbehind
  · intro h
    have hfront : stripFront text = [] := List.dropWhile_eq_nil_iff.mpr h
    rw [strip, hfront, stripEnd_nil]

/-- What is left does not end with white space. -/
theorem not_isBlank_getLast_strip {text : List Char} (hne : strip text ≠ []) :
    isBlank ((strip text).getLast hne) = false := by
  have hlast := List.rdropWhile_last_not isBlank (stripFront text) hne
  exact Bool.eq_false_iff.mpr hlast

/-- What is left does not begin with white space. -/
theorem stripFront_strip (text : List Char) : stripFront (strip text) = strip text := by
  rw [stripFront, List.dropWhile_eq_self_iff]
  intro hne
  have hstart : strip text <+: text.dropWhile isBlank := List.rdropWhile_prefix isBlank _
  rw [hstart.getElem hne]
  exact List.dropWhile_get_zero_not isBlank text _

theorem not_isBlank_of_strip_eq_cons {c : Char} {text rest : List Char}
    (h : strip text = c :: rest) : isBlank c = false := by
  rw [Bool.eq_false_iff]
  intro hc
  have hself := stripFront_strip text
  rw [h, stripFront, List.dropWhile_cons_of_pos hc] at hself
  have hle := (List.dropWhile_suffix isBlank (l := rest)).length_le
  rw [hself, List.length_cons] at hle
  omega

@[simp] theorem strip_strip (text : List Char) : strip (strip text) = strip text := by
  have hend : stripEnd (strip text) = strip text := List.rdropWhile_idempotent isBlank _
  rw [strip, stripFront_strip, hend]

theorem mem_of_mem_strip {c : Char} {text : List Char} (h : c ∈ strip text) : c ∈ text :=
  (List.dropWhile_suffix _).subset ((List.rdropWhile_prefix isBlank _).subset h)

/-- Only white space is removed. -/
theorem mem_strip {c : Char} (hc : isBlank c = false) {text : List Char} (h : c ∈ text) :
    c ∈ strip text := by
  rw [← List.takeWhile_append_dropWhile (p := isBlank) (l := text), List.mem_append] at h
  rcases h with hblank | hfront
  · rw [List.mem_takeWhile_imp hblank] at hc
    cases hc
  · rw [← List.rdropWhile_append_rtakeWhile (p := isBlank) (l := text.dropWhile isBlank),
      List.mem_append] at hfront
    rcases hfront with hkept | hblank
    · exact hkept
    · rw [List.mem_rtakeWhile_imp hblank] at hc
      cases hc

end LineMonitor.Text
