import FomeFw.Injection.AccelEnrichment
import FomeFw.Lib.Bilinear
import Mathlib.Data.Fin.VecNotation

/-! The axes of the table for the moving throttle. The map is set up with the rows first, and
read with the columns first. -/
namespace FomeFw.Injection

/-- The library interpolates rows by the row axis and columns by the column axis. -/
def Interpolation.Bilinear (lib : Interpolation) : Prop :=
  ∀ {rows columns : Nat} (table : Fin (rows + 1) → Fin (columns + 1) → ℚ)
    (rowBins : Fin (rows + 1) → ℚ) (row : ℚ) (columnBins : Fin (columns + 1) → ℚ) (column : ℚ),
    StrictMono rowBins → StrictMono columnBins →
      lib.interpolate3d table rowBins row columnBins column =
        bilinear table (locate rowBins row) (locate columnBins column)

/-- A library of this kind. -/
def Interpolation.linear : Interpolation where
  interpolate2d := fun {n} value bins values =>
    match n, bins, values with
    | 0, _, _ => 0
    | _ + 1, bins, values => lerp values (locate bins value)
  interpolate3d := fun {rows columns} table rowBins row columnBins column =>
    match rows, columns, table, rowBins, columnBins with
    | _ + 1, _ + 1, table, rowBins, columnBins =>
      bilinear table (locate rowBins row) (locate columnBins column)
    | _, _, _, _, _ => 0

theorem Interpolation.linear_bilinear : linear.Bilinear := fun _ _ _ _ _ _ _ => rfl

namespace AccelTune

variable {lib : Interpolation} {tune : AccelTune} {tpsFrom tpsTo : ℚ}

/-- The value that the firmware takes for a step. -/
def tableValue (tune : AccelTune) (lib : Interpolation) (tpsFrom tpsTo : ℚ) : ℚ :=
  (initAccelEnrichment tune).getValue lib tpsFrom tpsTo

/-- A step above the threshold takes its fuel there. -/
theorem findExtraFuel_extraFuel {ae : TpsAccelEnrichment} (above : ae.isAboveAccelThreshold = true) :
    (ae.findExtraFuel lib tune (initAccelEnrichment tune)).extraFuel =
      tune.tableValue lib ae.tpsFrom ae.tpsTo := by
  simp [TpsAccelEnrichment.findExtraFuel, above, tableValue]

/-- Where the two positions are on their own axes. -/
def placeFrom (tune : AccelTune) (tpsFrom : ℚ) : ℚ := locate tune.tpsTpsAccelFromRpmBins tpsFrom

def placeTo (tune : AccelTune) (tpsTo : ℚ) : ℚ := locate tune.tpsTpsAccelToRpmBins tpsTo

/-- The table is read on its own axes: as the tune shows it, with a column for the throttle that
a step starts from. -/
def OwnAxes (tune : AccelTune) (lib : Interpolation) (tpsFrom tpsTo : ℚ) : Prop :=
  tune.tableValue lib tpsFrom tpsTo =
    bilinear tune.tpsTpsAccelTable (tune.placeTo tpsTo) (tune.placeFrom tpsFrom)

/-- The same where a row belongs to the throttle that a step starts from, as in the call of
`init`. -/
def OwnAxesByRows (tune : AccelTune) (lib : Interpolation) (tpsFrom tpsTo : ℚ) : Prop :=
  tune.tableValue lib tpsFrom tpsTo =
    bilinear tune.tpsTpsAccelTable (tune.placeFrom tpsFrom) (tune.placeTo tpsTo)

/-- The tune with another table. -/
def withTable (tune : AccelTune)
    (table : Fin tpsTpsAccelTableSize → Fin tpsTpsAccelTableSize → ℚ) : AccelTune :=
  { tune with tpsTpsAccelTable := table }

@[simp] theorem withTable_table (table) : (tune.withTable table).tpsTpsAccelTable = table := rfl
@[simp] theorem withTable_placeFrom (table) (tpsFrom : ℚ) :
    (tune.withTable table).placeFrom tpsFrom = tune.placeFrom tpsFrom := rfl
@[simp] theorem withTable_placeTo (table) (tpsTo : ℚ) :
    (tune.withTable table).placeTo tpsTo = tune.placeTo tpsTo := rfl

/-- Strictly increasing axes, as the tune is checked for. -/
structure Increasing (tune : AccelTune) : Prop where
  fromBins : StrictMono tune.tpsTpsAccelFromRpmBins
  toBins : StrictMono tune.tpsTpsAccelToRpmBins

/-- The rows are found on the 'From' axis and the columns on the 'To' axis, each with the
position that is not its own. -/
theorem tableValue_eq (bilinear : lib.Bilinear) (increasing : tune.Increasing) :
    tune.tableValue lib tpsFrom tpsTo =
      FomeFw.bilinear tune.tpsTpsAccelTable (tune.placeFrom tpsTo) (tune.placeTo tpsFrom) := by
  have read := bilinear tune.tpsTpsAccelTable tune.tpsTpsAccelFromRpmBins tpsTo
    tune.tpsTpsAccelToRpmBins tpsFrom increasing.fromBins increasing.toBins
  simp only [tableValue, initAccelEnrichment, Map3D.init, Map3D.getValue, mul_one, div_one]
  exact read

/-- Every table is read on its own axes when each position is at the same place on both axes,
and only then; read by rows, when both positions are at the same place on each axis. -/
theorem ownAxes_iff (bilinear : lib.Bilinear) (increasing : tune.Increasing) (tpsFrom tpsTo : ℚ) :
    ((∀ table, (tune.withTable table).OwnAxes lib tpsFrom tpsTo) ↔
      tune.placeFrom tpsTo = tune.placeTo tpsTo ∧ tune.placeTo tpsFrom = tune.placeFrom tpsFrom) ∧
    ((∀ table, (tune.withTable table).OwnAxesByRows lib tpsFrom tpsTo) ↔
      tune.placeFrom tpsTo = tune.placeFrom tpsFrom ∧ tune.placeTo tpsFrom = tune.placeTo tpsTo) := by
  have value : ∀ table, (tune.withTable table).tableValue lib tpsFrom tpsTo =
      FomeFw.bilinear table (tune.placeFrom tpsTo) (tune.placeTo tpsFrom) := by
    intro table
    have increasing' : (tune.withTable table).Increasing := ⟨increasing.fromBins, increasing.toBins⟩
    exact tableValue_eq bilinear increasing'
  have within : ∀ (bins : Fin (7 + 1) → ℚ) (x : ℚ), 0 ≤ locate bins x ∧ locate bins x ≤ (7 : Nat) :=
    fun bins x => ⟨locate_nonneg, locate_le⟩
  constructor
  · simp only [OwnAxes, value, withTable_table, withTable_placeFrom, withTable_placeTo]
    exact bilinear_eq_iff (within _ _) (within _ _) (within _ _) (within _ _)
  · simp only [OwnAxesByRows, value, withTable_table, withTable_placeFrom, withTable_placeTo]
    exact bilinear_eq_iff (within _ _) (within _ _) (within _ _) (within _ _)

end AccelTune

/-- The axes go to 70 and to 140, and the table counts its rows. -/
def unequalAxes : AccelTune where
  tpsAccelLookback := 3 / 10
  tpsAccelEnrichmentThreshold := 12
  tpsDecelEnleanmentThreshold := 12
  tpsDecelEnleanmentMultiplier := 0
  tpsAccelFractionPeriod := 0
  tpsAccelFractionDivisor := 0
  tpsTpsAccelTable := fun row _ => row.val
  tpsTpsAccelFromRpmBins := fun i => 10 * i.val
  tpsTpsAccelToRpmBins := fun i => 20 * i.val
  tpsTspCorrValuesBins := fun i => 1000 * i.val
  tpsTspCorrValues := fun _ => 1

theorem unequalAxes_increasing : unequalAxes.Increasing where
  fromBins i j before := by
    have less : (i.val : ℚ) < j.val := by exact_mod_cast before
    simp only [unequalAxes]
    linarith
  toBins i j before := by
    have less : (i.val : ℚ) < j.val := by exact_mod_cast before
    simp only [unequalAxes]
    linarith

theorem ownAxes_iff_unequal :
    ((∀ table, (unequalAxes.withTable table).OwnAxes .linear 10 40) ↔
      unequalAxes.placeFrom 40 = unequalAxes.placeTo 40 ∧
        unequalAxes.placeTo 10 = unequalAxes.placeFrom 10) ∧
    ((∀ table, (unequalAxes.withTable table).OwnAxesByRows .linear 10 40) ↔
      unequalAxes.placeFrom 40 = unequalAxes.placeFrom 10 ∧
        unequalAxes.placeTo 10 = unequalAxes.placeTo 40) :=
  AccelTune.ownAxes_iff Interpolation.linear_bilinear unequalAxes_increasing 10 40

/-- For the step from 10 to 40 the value of the fifth row is taken, where 40 is the third place on
its own axis, and 10 is the second on its own. -/
theorem unequalAxes_swapped :
    unequalAxes.tableValue .linear 10 40 = 4 ∧
      ¬ unequalAxes.OwnAxes .linear 10 40 ∧ ¬ unequalAxes.OwnAxesByRows .linear 10 40 := by
  simp only [AccelTune.OwnAxes, AccelTune.OwnAxesByRows]
  decide +kernel

end FomeFw.Injection
