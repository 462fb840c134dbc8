import FomeFw.Containers.FifoBuffer
import Mathlib.Algebra.Field.Rat
import Mathlib.Data.Rat.Floor

/-! Fuel for the moving throttle, `accel_enrichment.cpp`: the largest step among the last
positions, and the table that is read with it, `table_helper.h`. What both take from the library
of the firmware, interpolation and the smaller of two integers, is not part of the sources. -/
namespace FomeFw.Injection
open Containers

/-- `interpolate2d` and `interpolate3d`. -/
structure Interpolation where
  interpolate2d : {n : Nat} → ℚ → (Fin n → ℚ) → (Fin n → ℚ) → ℚ
  interpolate3d : {rows columns : Nat} → (Fin rows → Fin columns → ℚ) →
    (Fin rows → ℚ) → ℚ → (Fin columns → ℚ) → ℚ → ℚ

/-! ## Tables -/

/-- An array of `scaled_channel<T, TMult, TDiv>`, with the ratio of its scale; that of plain
numbers is 1. -/
structure Scaled (α : Type) where
  raw : α
  ratio : ℚ := 1

/-- `Map3D`. -/
structure Map3D (columns rows : Nat) where
  values : Option (Fin rows → Fin columns → ℚ) := none
  rowBins : Fin rows → ℚ := fun _ => 0
  columnBins : Fin columns → ℚ := fun _ => 0
  rowMult : ℚ := 1
  colMult : ℚ := 1
  valueMult : ℚ := 1

namespace Map3D

variable {columns rows : Nat}

def init (table : Scaled (Fin rows → Fin columns → ℚ)) (rowBins : Scaled (Fin rows → ℚ))
    (columnBins : Scaled (Fin columns → ℚ)) : Map3D columns rows where
  values := some table.raw
  valueMult := 1 / table.ratio
  rowBins := rowBins.raw
  rowMult := rowBins.ratio
  columnBins := columnBins.raw
  colMult := columnBins.ratio

def getValue (map : Map3D columns rows) (lib : Interpolation) (xColumn yRow : ℚ) : ℚ :=
  match map.values with
  -- not initialized, return 0
  | none => 0
  | some values =>
    lib.interpolate3d values map.rowBins (yRow * map.rowMult) map.columnBins (xColumn * map.colMult) *
      map.valueMult

end Map3D

/-- `TPS_TPS_ACCEL_TABLE`. -/
abbrev tpsTpsAccelTableSize : Nat := 8

/-- `TPS_TPS_ACCEL_CLT_CORR_TABLE`. -/
abbrev tpsTspCorrSize : Nat := 4

/-- What the tune has for it. -/
structure AccelTune where
  tpsAccelLookback : ℚ
  tpsAccelEnrichmentThreshold : ℚ
  tpsDecelEnleanmentThreshold : ℚ
  tpsDecelEnleanmentMultiplier : ℚ
  tpsAccelFractionPeriod : Int
  tpsAccelFractionDivisor : ℚ
  tpsTpsAccelTable : Fin tpsTpsAccelTableSize → Fin tpsTpsAccelTableSize → ℚ
  tpsTpsAccelFromRpmBins : Fin tpsTpsAccelTableSize → ℚ
  tpsTpsAccelToRpmBins : Fin tpsTpsAccelTableSize → ℚ
  tpsTspCorrValuesBins : Fin tpsTspCorrSize → ℚ
  tpsTspCorrValues : Fin tpsTspCorrSize → ℚ

/-- `initAccelEnrichment`: the map of the static variable `tpsTpsMap`. -/
def initAccelEnrichment (tune : AccelTune) : Map3D tpsTpsAccelTableSize tpsTpsAccelTableSize :=
  .init ⟨tune.tpsTpsAccelTable, 1⟩ ⟨tune.tpsTpsAccelFromRpmBins, 1⟩ ⟨tune.tpsTpsAccelToRpmBins, 1⟩

/-! ## The last positions -/

/-- `CB_MAX_SIZE`. -/
abbrev cbMaxSize : Nat := 128

structure TpsAccelEnrichment where
  cb : CyclicBuffer ℚ cbMaxSize
  tooShort : Bool := false
  tpsFrom : ℚ := 0
  tpsTo : ℚ := 0
  deltaTps : ℚ := 0
  isAboveAccelThreshold : Bool := false
  isBelowDecelThreshold : Bool := false
  isFractionalEnrichment : Bool := false
  valueFromTable : ℚ := 0
  extraFuel : ℚ := 0
  fractionalInjFuel : ℚ := 0
  accumulatedValue : ℚ := 0
  maxExtraPerCycle : ℚ := 0
  maxExtraPerPeriod : ℚ := 0
  maxInjectedPerPeriod : ℚ := 0
  cycleCnt : Int := 0

namespace TpsAccelEnrichment

def resetFractionValues (ae : TpsAccelEnrichment) : TpsAccelEnrichment :=
  { ae with
    accumulatedValue := 0
    maxExtraPerCycle := 0
    maxExtraPerPeriod := 0
    maxInjectedPerPeriod := 0
    cycleCnt := 0 }

def resetAE (ae : TpsAccelEnrichment) : TpsAccelEnrichment :=
  resetFractionValues { ae with cb := ae.cb.clear }

/-- The length becomes a `size_t`. -/
def setLength (ae : TpsAccelEnrichment) (length : Int) : TpsAccelEnrichment :=
  { ae with cb := ae.cb.setSize (length % 2 ^ 32).toNat }

/-- The constructor, on zeroed memory. -/
def new : TpsAccelEnrichment :=
  setLength (resetAE { cb := ⟨fun _ => 0, 0, 0, 0⟩ }) 4

/-- The loop of `getMaxDeltaIndex`, with the rounds that are left. -/
def searchMaxDelta (cb : CyclicBuffer ℚ cbMaxSize) (ci : Int) :
    Nat → Int → ℚ → Int → Option Int
  | 0, _, _, resultIndex => some resultIndex
  | rounds + 1, i, maxValue, resultIndex => do
    let v := (← cb.get (ci - i)) - (← cb.get (ci - i - 1))
    if v > maxValue then searchMaxDelta cb ci rounds (i + 1) v (ci - i)
    else searchMaxDelta cb ci rounds (i + 1) maxValue resultIndex

/-- The index, and whether the history is too short. -/
def getMaxDeltaIndex (cb : CyclicBuffer ℚ cbMaxSize) : Option (Int × Bool) :=
  let len := min (cb.mSize : Int) cb.getCountInt
  if len < 2 then some (0, true)
  else do
    let ci := (cb.currentIndex : Int) - 1
    let maxValue := (← cb.get ci) - (← cb.get (ci - 1))
    let resultIndex ← searchMaxDelta cb ci (len - 2).toNat 1 maxValue ci
    some (resultIndex, false)

def onNewValue (ae : TpsAccelEnrichment) (tune : AccelTune) (currentValue : ℚ) :
    Option TpsAccelEnrichment := do
  -- Push new value in to the history buffer
  let cb := ae.cb.add currentValue
  -- Update deltas
  let (maxDeltaIndex, tooShort) ← getMaxDeltaIndex cb
  let tpsFrom ← cb.get (maxDeltaIndex - 1)
  let tpsTo ← cb.get maxDeltaIndex
  let deltaTps := tpsTo - tpsFrom
  some { ae with
    cb := cb
    tooShort := tooShort
    tpsFrom := tpsFrom
    tpsTo := tpsTo
    deltaTps := deltaTps
    -- Update threshold detection
    isAboveAccelThreshold := deltaTps > tune.tpsAccelEnrichmentThreshold
    isBelowDecelThreshold := deltaTps < -tune.tpsDecelEnleanmentThreshold }

/-- The look-back in slow callbacks, which come every 50 ms. -/
def onConfigurationChange (ae : TpsAccelEnrichment) (tune : AccelTune) : TpsAccelEnrichment :=
  let length := ⌊tune.tpsAccelLookback / (50 / 1000)⌋
  ae.setLength (if length < 1 then 1 else length)

/-! ## The fuel -/

/-- The fraction of the extra fuel, where it is split between engine cycles. -/
def takeFraction (ae : TpsAccelEnrichment) (tune : AccelTune) : TpsAccelEnrichment :=
  let isFractionalEnrichment :=
    tune.tpsAccelFractionPeriod > 1 ∨ tune.tpsAccelFractionDivisor > 1
  if isFractionalEnrichment then
    -- make sure both values are non-zero
    let periodF : ℚ := max tune.tpsAccelFractionPeriod 1
    let divisor := max tune.tpsAccelFractionDivisor 1
    let fractionalInjFuel := max ae.extraFuel ae.accumulatedValue / divisor
    { ae with
      isFractionalEnrichment := true
      fractionalInjFuel := fractionalInjFuel
      maxExtraPerCycle := max ae.extraFuel ae.maxExtraPerCycle
      maxInjectedPerPeriod := max fractionalInjFuel ae.maxInjectedPerPeriod
      extraFuel := fractionalInjFuel / periodF }
  else resetFractionValues { ae with isFractionalEnrichment := false }

/-- The fuel before it is split. -/
def findExtraFuel (ae : TpsAccelEnrichment) (lib : Interpolation) (tune : AccelTune)
    (tpsTpsMap : Map3D tpsTpsAccelTableSize tpsTpsAccelTableSize) : TpsAccelEnrichment :=
  if ae.isAboveAccelThreshold then
    let valueFromTable := tpsTpsMap.getValue lib ae.tpsFrom ae.tpsTo
    { ae with valueFromTable := valueFromTable, extraFuel := valueFromTable }
  else if ae.isBelowDecelThreshold then
    { ae with extraFuel := ae.deltaTps * tune.tpsDecelEnleanmentMultiplier }
  else { ae with extraFuel := 0 }

def getTpsEnrichment (ae : TpsAccelEnrichment) (lib : Interpolation) (tune : AccelTune)
    (tpsTpsMap : Map3D tpsTpsAccelTableSize tpsTpsAccelTableSize) (rpm : ℚ) :
    ℚ × TpsAccelEnrichment :=
  if tune.tpsAccelLookback = 0 ∨ rpm = 0 then (0, ae)
  else
    let ae := (ae.findExtraFuel lib tune tpsTpsMap).takeFraction tune
    let mult := lib.interpolate2d rpm tune.tpsTspCorrValuesBins tune.tpsTspCorrValues
    let mult := if mult ≠ 0 ∧ (mult < 1 / 100 ∨ mult > 100) then 1 else mult
    (ae.extraFuel * mult, ae)

end TpsAccelEnrichment

end FomeFw.Injection
