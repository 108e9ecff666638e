import LineMonitor.Proofs.Memory.History

/-!
# Regions by their ends

A memory may be set up from the ends of its regions, as `Memory.ofBounds` does; each pair of numbers
is checked there.  The pairs that pass are the ends of regions (`Region.ofBounds_eq_ok_iff`), so a
memory is set up from them exactly if all of them are (`Memory.ofBounds_eq_ok_iff`), and its ROM is
what lies between them (`Memory.hasRom_of_rom_eq`).
-/

namespace LineMonitor

/-! ## Checks that pass -/

section Checks

variable {ε ε' α β : Type} {x : Except ε α}

/-- One check after another passes if both do. -/
theorem bind_eq_ok_iff {next : α → Except ε β} {b : β} :
    x >>= next = .ok b ↔ ∃ a, x = .ok a ∧ next a = .ok b := by
  cases x <;> simp [bind, Except.bind]

theorem map_eq_ok_iff {f : α → β} {b : β} : x.map f = .ok b ↔ ∃ a, x = .ok a ∧ f a = b := by
  cases x <;> simp [Except.map]

theorem mapError_eq_ok_iff {f : ε → ε'} {a : α} : x.mapError f = .ok a ↔ x = .ok a := by
  cases x <;> simp [Except.mapError]

theorem toOption_eq_some_iff {a : α} : x.toOption = some a ↔ x = .ok a := by
  cases x <;> simp [Except.toOption]

end Checks

/-! ## Ends of regions -/

namespace Region

/-- The ends of a region are addresses in order. -/
theorem bounds_range (r : Region) :
    0 ≤ r.bounds.1 ∧ r.bounds.1 ≤ r.bounds.2 ∧ r.bounds.2 ≤ 0xFFFF := by
  have hle := r.first_le_last
  have hlt := r.last.isLt
  rw [BitVec.le_def] at hle
  simp only [bounds]
  omega

/-- Regions with the same ends are the same. -/
theorem bounds_inj {r r' : Region} : r.bounds = r'.bounds ↔ r = r' := by
  cases r
  cases r'
  simp [bounds, BitVec.toNat_inj]

/-- Two numbers pass as the ends of a region if they are. -/
theorem ofBounds?_eq_some_iff {first last : Int} {r : Region} :
    ofBounds? first last = some r ↔ (first, last) = r.bounds := by
  unfold ofBounds?
  split
  · rename_i h
    have hfirst : ((Address.ofInt first).toNat : Int) = first := by
      rw [Address.natCast_toNat_ofInt]
      omega
    have hlast : ((Address.ofInt last).toNat : Int) = last := by
      rw [Address.natCast_toNat_ofInt]
      omega
    rw [Option.some.injEq, ← bounds_inj, bounds, hfirst, hlast]
  · rename_i h
    refine iff_of_false (Option.some_ne_none r).symm fun heq => h ?_
    have hrange := r.bounds_range
    rw [← heq] at hrange
    exact hrange

theorem ofBounds?_eq_none_iff {first last : Int} :
    ofBounds? first last = none ↔ ¬ (0 ≤ first ∧ first ≤ last ∧ last ≤ 0xFFFF) := by
  unfold ofBounds?
  split <;> simp [*]

theorem ofBounds_eq_ok_iff {first last : Int} {r : Region} :
    ofBounds first last = .ok r ↔ (first, last) = r.bounds := by
  rw [← ofBounds?_eq_some_iff, ofBounds]
  cases ofBounds? first last <;> simp

end Region

/-! ## Memory -/

namespace Memory

/-- Pairs of numbers pass one by one. -/
theorem mapM_ofBounds_eq_ok_iff {ends : List (Int × Int)} {regions : List Region} :
    (ends.mapM fun pair => Region.ofBounds pair.1 pair.2) = .ok regions ↔
      ends = regions.map Region.bounds := by
  induction ends generalizing regions with
  | nil => cases regions <;> simp [pure, Except.pure]
  | cons pair rest ih =>
    simp only [List.mapM_cons, bind_eq_ok_iff, Region.ofBounds_eq_ok_iff, ih]
    constructor
    · rintro ⟨r, hpair, others, rfl, hregions⟩
      rw [← Except.ok.inj hregions, List.map_cons, ← hpair]
    · intro h
      obtain ⟨r, others, rfl, hpair, hrest⟩ := List.map_eq_cons_iff.mp h.symm
      exact ⟨r, hpair.symm, others, hrest.symm, rfl⟩

/-- A memory is set up from the ends of regions, and from nothing else. -/
theorem ofBounds_eq_ok_iff {rom unmapped : List (Int × Int)} {fill : Int} {m : Memory} :
    ofBounds rom unmapped fill = .ok m ↔
      ∃ readOnly absent : List Region, rom = readOnly.map Region.bounds ∧
        unmapped = absent.map Region.bounds ∧ m = filled readOnly absent (Byte.ofInt fill) := by
  simp only [ofBounds, bind_eq_ok_iff, mapM_ofBounds_eq_ok_iff]
  constructor
  · rintro ⟨readOnly, hrom, absent, hunmapped, hm⟩
    exact ⟨readOnly, absent, hrom, hunmapped, (Except.ok.inj hm).symm⟩
  · rintro ⟨readOnly, absent, hrom, hunmapped, rfl⟩
    exact ⟨readOnly, hrom, absent, hunmapped, rfl⟩

/-- Ends of regions are accepted. -/
theorem ofBounds_map_bounds (rom : List Region) (fill : Int) :
    ofBounds (rom.map Region.bounds) [] fill = .ok (filled rom [] (Byte.ofInt fill)) :=
  ofBounds_eq_ok_iff.mpr ⟨rom, [], rfl, rfl, rfl⟩

/-- The ROM of a memory is what lies between these ends, and nothing else. -/
def HasRom (m : Memory) (ends : List (Int × Int)) : Prop :=
  ∀ n : Int, m.inRom (Address.ofInt n) = true ↔
    ∃ pair ∈ ends, pair.1 ≤ n % 65536 ∧ n % 65536 ≤ pair.2

theorem hasRom_of_rom_eq {m : Memory} {regions : List Region} (h : m.rom = regions) :
    m.HasRom (regions.map Region.bounds) := by
  intro n
  rw [inRom, any_contains_iff, Address.natCast_toNat_ofInt, InRegions, h]
  simp only [List.mem_map, exists_exists_and_eq_and]
  rfl

end Memory

end LineMonitor
