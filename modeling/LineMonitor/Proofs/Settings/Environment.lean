import LineMonitor.Proofs.Settings.Region
import LineMonitor.Proofs.Text.Pieces
import LineMonitor.Proofs.Tool.Job

/-!
# Settings that the environment gives

Each setting depends on its own variable, and what is malformed there counts as absent
(`Environment.settings_eq`).  A list of regions is read item by item, so lists that are joined by a
comma give their regions one behind the other (`Environment.regions_append`).  Regions that are
read, from the environment or an option, are accepted when memory is set up, and the ROM of the
assembler is all that lies in one of them (`Environment.settings_robust`).
-/

namespace LineMonitor

namespace Environment

/-! ## One variable -/

/-- The region that an item of a list gives, if it is well formed. -/
def region? (item : List Char) : Option Region :=
  (Settings.readRegion (String.ofList (Text.strip item))).toOption

/-- The regions of a list with commas between its items, without those that are malformed. -/
def regions (text : String) : List Region :=
  (Text.pieces ',' text.toList).filterMap region?

theorem map_bounds_region? (item : List Char) :
    (region? item).map Region.bounds =
      (Settings.readBounds (String.ofList (Text.strip item))).toOption := by
  rw [Settings.readBounds_eq, region?]
  cases Settings.readRegion (String.ofList (Text.strip item)) with
  | ok r => rfl
  | error e => rfl

theorem startSetting_eq (text : String) :
    (startSetting text).1 = (Settings.readAddress text).toOption := by
  unfold startSetting
  split
  · rename_i hempty
    rw [String.isEmpty_iff.mp hempty]
    rfl
  · cases Settings.readAddress text with
    | ok address => rfl
    | error e => rfl

theorem regionItem_eq (item : List Char) : (regionItem item).1 = (region? item).toList := by
  unfold regionItem region?
  cases Settings.readRegion (String.ofList (Text.strip item)) with
  | ok region => rfl
  | error e => rfl

theorem romSetting_eq (text : String) : (romSetting text).1 = regions text := by
  unfold romSetting regions
  split
  · rename_i hempty
    rw [String.isEmpty_iff.mp hempty]
    rfl
  · simp only [List.flatMap_map, regionItem_eq, List.filterMap_eq_flatMap_toList]

theorem listCountSetting_eq (text : String) (default : Int) :
    (listCountSetting text default).1 = (Text.Numeral.decimal? text.toList).getD default := by
  unfold listCountSetting
  split
  · rename_i hempty
    rw [String.isEmpty_iff.mp hempty]
    rfl
  · cases Text.Numeral.decimal? text.toList with
    | some count => rfl
    | none => rfl

/-- Each setting depends on its own variable. -/
theorem settings_eq (env : Environment) :
    env.settings.1 = {
      start := (Settings.readAddress env.start).toOption
      rom := regions env.rom
      listCount := (Text.Numeral.decimal? env.listCount.toList).getD 20 } := by
  simp only [settings, startSetting_eq, romSetting_eq, listCountSetting_eq]

/-! ## Lists of regions -/

/-- Lists that are joined by a comma give their regions one behind the other. -/
theorem regions_append (x y : String) : regions (x ++ "," ++ y) = regions x ++ regions y := by
  have hpieces : Text.pieces ',' (x ++ "," ++ y).toList =
      Text.pieces ',' x.toList ++ Text.pieces ',' y.toList := by
    rw [← Text.pieces_append_cons, String.toList_append, String.toList_append, List.append_assoc]
    rfl
  rw [regions, hpieces, List.filterMap_append, regions, regions]

/-- An item alone gives its region, and none if it is malformed. -/
theorem regions_item {item : String} (h : ',' ∉ item.toList) :
    regions item = (region? item.toList).toList := by
  rw [regions, Text.pieces_of_notMem ',' h, List.filterMap_eq_flatMap_toList,
    List.flatMap_singleton]

end Environment

/-! ## Memory with the regions in ROM -/

namespace Tool.Assembler

/-- Options give their regions in order. -/
theorem mapM_readRegion_of_romOptions {texts : List String} {regions : List Region}
    (h : romOptions texts = .ok regions) : texts.mapM Settings.readRegion = .ok regions := by
  induction texts generalizing regions with
  | nil =>
    obtain rfl := Except.ok.inj h
    rfl
  | cons text rest ih =>
    rw [romOptions] at h
    split at h
    · rename_i r hr
      obtain ⟨others, hothers, rfl⟩ := map_eq_ok_iff.mp h
      rw [List.mapM_cons, hr, ih hothers]
      rfl
    · cases h

/-- The regions of the options are added to those of the settings. -/
theorem rom_of_configure {request : Request} {base settings : Settings}
    (h : configure request base = .ok settings) :
    ∃ regions, romOptions request.rom = .ok regions ∧ settings.rom = base.rom ++ regions := by
  unfold configure at h
  dsimp only at h
  split at h
  · cases h
  · obtain ⟨regions, hregions, rfl⟩ := map_eq_ok_iff.mp h
    exact ⟨regions, hregions, rfl⟩

/-- Memory is prepared with the regions of the settings in ROM. -/
theorem rom_of_prepareMemory {request : Request} {host : Host} {settings : Settings}
    {m : Memory} {reported : String}
    (h : prepareMemory request host settings = .ok (m, reported)) : m.rom = settings.rom := by
  unfold prepareMemory at h
  rw [Memory.ofBounds_map_bounds] at h
  dsimp only at h
  split at h
  · obtain ⟨rfl, -⟩ := Prod.mk.inj (Except.ok.inj h)
    rfl
  · split at h
    · cases h
    · split at h
      · cases h
      · obtain ⟨rfl, -⟩ := Prod.mk.inj (Except.ok.inj h)
        exact (Memory.regions_load _ _ _).1

/-- The memory of a job has the regions of the environment in ROM, and those of the options. -/
theorem rom_of_job {request : Request} {env : Environment} {host : Host} {j : Job}
    (h : request.job? env host = some j) :
    ∃ regions, request.rom.mapM Settings.readRegion = .ok regions ∧
      j.memory.rom = env.settings.1.rom ++ regions := by
  unfold Request.job? at h
  split at h
  · cases h
  · rename_i settings hconfigure
    split at h
    · cases h
    · rename_i m reported hmemory
      split at h
      · cases h
      · obtain rfl := Option.some.inj h
        obtain ⟨regions, hregions, hrom⟩ := rom_of_configure hconfigure
        refine ⟨regions, mapM_readRegion_of_romOptions hregions, ?_⟩
        rw [← hrom]
        exact rom_of_prepareMemory hmemory

end Tool.Assembler

namespace Environment

/-- The environment with another list of regions. -/
def withRom (env : Environment) (text : String) : Environment :=
  { env with rom := text }

@[simp] theorem settings_withRom (env : Environment) (text : String) :
    (env.withRom text).settings.1 = { env.settings.1 with rom := regions text } := by
  rw [settings_eq, settings_eq, withRom]

/-- The ends of the regions that the environment gives. -/
def romEnds (env : Environment) : List (Int × Int) :=
  env.settings.1.rom.map Region.bounds

/-- What settings come of an environment, and of the regions in it. -/
structure Robust (env : Environment) : Prop where
  /-- Each setting depends on its own variable, and is as without it if the variable is
  malformed. -/
  settings_eq : env.settings.1 = {
    start := (Settings.readAddress env.start).toOption
    rom := regions env.rom
    listCount := (Text.Numeral.decimal? env.listCount.toList).getD 20 }
  /-- The start is an address. -/
  start_range : ∀ a, env.settings.1.start = some a → 0 ≤ a ∧ a ≤ 0xFFFF
  /-- Lists that are joined by a comma give their regions one behind the other. -/
  joined : ∀ x y, (env.withRom (x ++ "," ++ y)).settings.1 =
    { env.settings.1 with
      rom := (env.withRom x).settings.1.rom ++ (env.withRom y).settings.1.rom }
  /-- An item gives its region. -/
  kept : ∀ item ends, ',' ∉ item.toList →
    Settings.readBounds (String.ofList (Text.strip item.toList)) = .ok ends →
    (env.withRom item).romEnds = [ends]
  /-- An item that is malformed makes no difference. -/
  dropped : ∀ x item y e, ',' ∉ item.toList →
    Settings.readBounds (String.ofList (Text.strip item.toList)) = .error e →
    (env.withRom (x ++ "," ++ item ++ "," ++ y)).settings.1 =
      (env.withRom (x ++ "," ++ y)).settings.1
  /-- Regions begin and end at addresses, in order. -/
  range : ∀ (options : List String) ends, options.mapM Settings.readBounds = .ok ends →
    ∀ pair ∈ env.romEnds ++ ends, 0 ≤ pair.1 ∧ pair.1 ≤ pair.2 ∧ pair.2 ≤ 0xFFFF
  /-- They are accepted when memory is set up, and what lies in them is ROM. -/
  accepted : ∀ (options : List String) ends, options.mapM Settings.readBounds = .ok ends →
    ∀ fill, ∃ m, Memory.ofBounds (env.romEnds ++ ends) [] fill = .ok m ∧
      m.HasRom (env.romEnds ++ ends)
  /-- The assembler works on such a memory. -/
  assembled : ∀ (request : Tool.Assembler.Request) host j, request.job? env host = some j →
    ∃ ends, request.rom.mapM Settings.readBounds = .ok ends ∧
      j.memory.HasRom (env.romEnds ++ ends)

/-- The ends of the regions that the environment and options give are those of regions in ROM. -/
theorem exists_romEnds_append_eq (env : Environment) {options : List String}
    {ends : List (Int × Int)} (h : options.mapM Settings.readBounds = .ok ends) :
    ∃ rom : List Region, env.romEnds ++ ends = rom.map Region.bounds := by
  obtain ⟨others, -, rfl⟩ := Settings.mapM_readBounds_eq_ok_iff.mp h
  exact ⟨env.settings.1.rom ++ others, List.map_append.symm⟩

/-- Every environment gives settings, and regions with which memory can be set up. -/
theorem settings_robust (env : Environment) : env.Robust where
  settings_eq := env.settings_eq
  start_range a h := by
    rw [settings_eq] at h
    dsimp only at h
    rw [toOption_eq_some_iff] at h
    exact (Settings.readNumber_eq_ok_iff.mp h).2
  joined x y := by
    simp only [settings_withRom, regions_append]
  kept item ends hcomma hread := by
    have hregion := map_bounds_region? item.toList
    rw [hread, Except.toOption] at hregion
    rw [romEnds, settings_withRom, regions_item hcomma, ← Option.toList_map, hregion]
    rfl
  dropped x item y e hcomma hread := by
    have hregion := map_bounds_region? item.toList
    rw [hread, Except.toOption, Option.map_eq_none_iff] at hregion
    simp only [settings_withRom, regions_append, regions_item hcomma, hregion, Option.toList_none,
      List.append_nil]
  range options ends hends pair hpair := by
    obtain ⟨rom, hrom⟩ := env.exists_romEnds_append_eq hends
    rw [hrom] at hpair
    obtain ⟨r, -, rfl⟩ := List.mem_map.mp hpair
    exact r.bounds_range
  accepted options ends hends fill := by
    obtain ⟨rom, hrom⟩ := env.exists_romEnds_append_eq hends
    rw [hrom]
    exact ⟨_, Memory.ofBounds_map_bounds rom fill, Memory.hasRom_of_rom_eq rfl⟩
  assembled request host j hjob := by
    obtain ⟨others, hothers, hrom⟩ := Tool.Assembler.rom_of_job hjob
    refine ⟨_, Settings.mapM_readBounds_eq_ok_iff.mpr ⟨others, hothers, rfl⟩, ?_⟩
    rw [romEnds, ← List.map_append]
    exact Memory.hasRom_of_rom_eq hrom

example : ({ start := "0x10000", rom := "E000-EFFF,FFFF, $10 - 0x1f" } : Environment).romEnds =
    [(0xE000, 0xEFFF), (0x10, 0x1F)] := by
  decide +kernel

end Environment

end LineMonitor
