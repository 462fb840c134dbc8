import FomeFw.Engine.LimpCauses

/-! `lambda_monitor.cpp`, and how it plays together with the limp manager: in each fast callback the
monitor looks at the last cut, and then the limp manager looks at the monitor. -/
namespace FomeFw.Engine
open Timer Trigger History

structure LambdaSettings where
  lambdaProtectionEnable : Bool := true
  lambdaProtectionMinRpm : ℚ := 0
  lambdaProtectionMinLoad : ℚ := 0
  lambdaProtectionMinTps : ℚ := 0
  lambdaProtectionTimeout : ℚ := 1
  lambdaProtectionRestoreRpm : ℚ := 0
  lambdaProtectionRestoreLoad : ℚ := 0
  lambdaProtectionRestoreTps : ℚ := 0
  noFuelTrimAfterDfcoTime : ℚ := 0

/-- What `update` reads. The clock is read when the last cut is looked at, when the timer is reset
for a good mixture, when it is asked, and when it is reset for an end of the cut. -/
structure LambdaReadings where
  settings : LambdaSettings := {}
  rpm : ℚ
  load : ℚ
  tps1 : ℚ
  timeSinceDfco : ℚ := 1000
  lambda1 : Option ℚ
  /-- `getMaxAllowedLambda`. -/
  maxAllowedLambda : ℚ := 1
  cutNt : Tick
  goodNt : Tick := cutNt
  askNt : Tick := goodNt
  restoreNt : Tick := askNt

structure LambdaMonitor where
  lambdaCurrentlyGood : Bool := false
  lambdaMonitorCut : Bool := false
  lambdaTimeSinceGood : ℚ := 0
  timeSinceGoodLambda : Tick := timerInit

namespace LambdaMonitor

def isCut (m : LambdaMonitor) : Bool := m.lambdaMonitorCut

end LambdaMonitor

namespace LambdaReadings

def isCurrentlyGood (l : LambdaReadings) (timeSinceFuelCut : ℚ) : Bool :=
  if !l.settings.lambdaProtectionEnable then true
  else if l.rpm < l.settings.lambdaProtectionMinRpm then true
  else if l.load < l.settings.lambdaProtectionMinLoad then true
  else if l.tps1 ≤ l.settings.lambdaProtectionMinTps then true
  else if l.timeSinceDfco < l.settings.noFuelTrimAfterDfcoTime then true
  else if timeSinceFuelCut < 2 then true
  else
    match l.lambda1 with
    | some value => value < l.maxAllowedLambda
    | none => true

def restoreConditionsMet (l : LambdaReadings) : Bool :=
  if l.rpm > l.settings.lambdaProtectionRestoreRpm then false
  else if l.load > l.settings.lambdaProtectionRestoreLoad then false
  else if l.tps1 > l.settings.lambdaProtectionRestoreTps then false
  else true

end LambdaReadings

def LambdaMonitor.update (m : LambdaMonitor) (l : LambdaReadings) (timeSinceFuelCut : ℚ) :
    LambdaMonitor :=
  let isGood := l.isCurrentlyGood timeSinceFuelCut
  let m := { m with lambdaCurrentlyGood := isGood }
  let m := if isGood then { m with timeSinceGoodLambda := l.goodNt } else m
  let m := { m with lambdaTimeSinceGood := getElapsedSeconds m.timeSinceGoodLambda l.askNt }
  let m :=
    if hasElapsedSec m.timeSinceGoodLambda l.askNt l.settings.lambdaProtectionTimeout then
      { m with lambdaMonitorCut := true }
    else m
  if m.lambdaMonitorCut && l.restoreConditionsMet then
    { m with lambdaMonitorCut := false, timeSinceGoodLambda := l.restoreNt }
  else m

/-- The timer when it is asked. -/
def LambdaMonitor.askedTimer (m : LambdaMonitor) (l : LambdaReadings) (timeSinceFuelCut : ℚ) : Tick :=
  if l.isCurrentlyGood timeSinceFuelCut then l.goodNt else m.timeSinceGoodLambda

/-- A cut is on, or has to begin. -/
def LambdaMonitor.cutDue (m : LambdaMonitor) (l : LambdaReadings) (timeSinceFuelCut : ℚ) : Bool :=
  m.isCut ||
    hasElapsedSec (m.askedTimer l timeSinceFuelCut) l.askNt l.settings.lambdaProtectionTimeout

structure Protections where
  lambda : LambdaMonitor := {}
  limp : LimpManager := {}

inductive ProtectionEvent where
  | fastCallback (l : LambdaReadings) (r : LimpReadings)
  | report (e : LimpEvent) (noUpdate : ∀ r, e ≠ .updateState r)

namespace Protections

/-- `periodicFastCallback`, as far as it is about the two. -/
def fastCallback (p : Protections) (l : LambdaReadings) (r : LimpReadings) : Protections :=
  let lambda := p.lambda.update l (p.limp.getTimeSinceAnyCut l.cutNt)
  { lambda, limp := p.limp.updateState { r with isLambdaCut := lambda.isCut } }

def step (p : Protections) : ProtectionEvent → Protections
  | .fastCallback l r => p.fastCallback l r
  | .report e _ => { p with limp := p.limp.step e }

end Protections

/-! ## When a cut begins -/

def protectionsAfter (h : List ProtectionEvent) : Protections := after {} Protections.step h

/-- What an event reads of the clock, the latest first. -/
def clockReadings : ProtectionEvent → List Tick
  | .fastCallback l r => [r.nowNt, l.restoreNt, l.askNt, l.goodNt, l.cutNt]
  | .report _ _ => []

def ClockInOrder (h : List ProtectionEvent) : Prop :=
  (h.flatMap clockReadings).Pairwise (· ≥ ·) ∧ ∀ t ∈ h.flatMap clockReadings, 0 ≤ t

/-- Fuel or sparks were cut in the callback. -/
def CutAt : Formula ProtectionEvent
  | .fastCallback l r :: past =>
    (((protectionsAfter past).fastCallback l r).limp.transientAllowInjection.value &&
      ((protectionsAfter past).fastCallback l r).limp.transientAllowIgnition.value) = false
  | _ => False

/-- The mixture was too lean, everything was looked at, and there was no cut in the two seconds
before. -/
def LeanAt : Formula ProtectionEvent
  | .fastCallback l _ :: past =>
    l.settings.lambdaProtectionEnable = true ∧ l.settings.lambdaProtectionMinRpm ≤ l.rpm ∧
      l.settings.lambdaProtectionMinLoad ≤ l.load ∧ l.settings.lambdaProtectionMinTps < l.tps1 ∧
      l.settings.noFuelTrimAfterDfcoTime ≤ l.timeSinceDfco ∧
      (∃ value ∈ l.lambda1, l.maxAllowedLambda ≤ value) ∧
      ∀ l' r' before, .fastCallback l' r' :: before <:+ past → CutAt (.fastCallback l' r' :: before) →
        2 ≤ getElapsedSeconds r'.nowNt l.cutNt
  | _ => False

/-- A cut that was on, or was about to begin, ended in the callback. -/
def RestoredAt : Formula ProtectionEvent
  | .fastCallback l _ :: past =>
    l.restoreConditionsMet = true ∧ (protectionsAfter past).lambda.cutDue l
      ((protectionsAfter past).limp.getTimeSinceAnyCut l.cutNt) = true
  | _ => False

section Begins

variable {h past : List ProtectionEvent} {l : LambdaReadings} {r : LimpReadings} {a b now : Int}
  {seconds : ℚ}

theorem hasElapsedSec_mono (earlier : a ≤ b) (before : b ≤ now)
    (elapsed : hasElapsedSec b now seconds = true) : hasElapsedSec a now seconds = true := by
  simp only [hasElapsedSec] at elapsed ⊢
  split
  · rfl
  next short =>
    have short : now - a < 4294967294 := not_le.mp short
    have whole : now - b < 4294967294 := by omega
    have small : ¬ now - b ≥ clock32max := not_le.mpr whole
    rw [if_neg small, decide_eq_true_iff] at elapsed
    rw [decide_eq_true_iff]
    have order : (now - b) % 2 ^ 32 ≤ (now - a) % 2 ^ 32 := by omega
    refine elapsed.trans_le ?_
    exact_mod_cast order

theorem getElapsedSeconds_anti (earlier : a ≤ b) :
    getElapsedSeconds b now ≤ getElapsedSeconds a now := by
  have ticks : (0 : Int) ≤ usToNt := by decide
  simp only [getElapsedSeconds]
  split
  · split
    · exact le_rfl
    · have nonneg : 0 ≤ min (now - a) (2 ^ 32 - 2) / usToNt := Int.ediv_nonneg (by omega) ticks
      positivity
  · have order : min (now - b) (2 ^ 32 - 2) / usToNt ≤ min (now - a) (2 ^ 32 - 2) / usToNt :=
      Int.ediv_le_ediv (by decide) (by omega)
    rw [if_neg (by omega)]
    gcongr

theorem update_eq (m : LambdaMonitor) (l : LambdaReadings) (timeSinceFuelCut : ℚ) :
    ∃ lambdaCurrentlyGood lambdaTimeSinceGood, m.update l timeSinceFuelCut =
      { lambdaCurrentlyGood, lambdaTimeSinceGood
        lambdaMonitorCut := m.cutDue l timeSinceFuelCut && !l.restoreConditionsMet
        timeSinceGoodLambda :=
          if m.cutDue l timeSinceFuelCut && l.restoreConditionsMet then l.restoreNt
          else m.askedTimer l timeSinceFuelCut } := by
  obtain ⟨_, cut, _, timer⟩ := m
  simp only [LambdaMonitor.update, LambdaMonitor.cutDue, LambdaMonitor.askedTimer, LambdaMonitor.isCut]
  cases l.isCurrentlyGood timeSinceFuelCut <;> cases cut <;> cases l.restoreConditionsMet <;>
    simp <;> split <;> simp_all

/-- The readings of one callback, and those of an earlier one. -/
theorem ClockInOrder.callback (ordered : ClockInOrder (.fastCallback l r :: past)) :
    l.cutNt ≤ l.goodNt ∧ l.goodNt ≤ l.askNt ∧ l.askNt ≤ l.restoreNt ∧ l.restoreNt ≤ r.nowNt ∧
      0 ≤ l.cutNt ∧ ∀ l' r' before, .fastCallback l' r' :: before <:+ past →
        r'.nowNt ≤ l.cutNt ∧ l'.goodNt ≤ l'.restoreNt ∧ l'.restoreNt ≤ r'.nowNt := by
  obtain ⟨pairwise, nonneg⟩ := ordered
  rw [List.pairwise_flatMap] at pairwise
  obtain ⟨own, others⟩ := pairwise
  have here := own _ List.mem_cons_self
  simp only [clockReadings, List.pairwise_cons, List.mem_cons, List.not_mem_nil, or_false,
    forall_eq_or_imp, forall_eq] at here
  obtain ⟨⟨latest, -⟩, ⟨restored, -⟩, ⟨asked, -⟩, cut, -⟩ := here
  refine ⟨cut, asked, restored, latest, nonneg l.cutNt (by simp [clockReadings]), ?_⟩
  intro l' r' before suffix
  have member := suffix.subset List.mem_cons_self
  have there := own _ (List.mem_cons_of_mem _ member)
  simp only [clockReadings, List.pairwise_cons, List.mem_cons, List.not_mem_nil, or_false,
    forall_eq_or_imp, forall_eq] at there
  have between := List.rel_of_pairwise_cons others member l.cutNt (by simp [clockReadings]) r'.nowNt
    (by simp [clockReadings])
  obtain ⟨⟨latest, -⟩, ⟨-, good, -⟩, -⟩ := there
  exact ⟨between, good, latest⟩

def GoodAt : Formula ProtectionEvent
  | .fastCallback l _ :: past =>
    l.isCurrentlyGood ((protectionsAfter past).limp.getTimeSinceAnyCut l.cutNt) = true
  | _ => False

/-- When the limp manager was asked last. -/
def limpTime : List ProtectionEvent → Tick
  | .fastCallback _ r :: _ => r.nowNt
  | _ => 0

theorem lastCutTime_iff (P : Tick → Prop) : P (protectionsAfter h).limp.lastCutTime ↔
    Latest (fun h => P (limpTime h)) CutAt (P timerInit) h := by
  refine @clock_iff _ _ _ _ _ _ _ (fun p : Protections => p.limp.lastCutTime) limpTime P ?_ ?_
  · intro e past cut
    cases e with
    | fastCallback l r =>
      obtain ⟨_, _, _, same⟩ := @updateState_eq (protectionsAfter past).limp
        { r with isLambdaCut := ((protectionsAfter past).lambda.update l
          ((protectionsAfter past).limp.getTimeSinceAnyCut l.cutNt)).isCut }
      simp only [CutAt, Protections.fastCallback, same] at cut
      change ((protectionsAfter past).fastCallback l r).limp.lastCutTime = r.nowNt
      simp only [Protections.fastCallback, same]
      rw [if_pos]
      simpa [imp_iff_not_or] using cut
    | report e noUpdate => exact cut.elim
  · intro e past calm
    cases e with
    | fastCallback l r =>
      obtain ⟨_, _, _, same⟩ := @updateState_eq (protectionsAfter past).limp
        { r with isLambdaCut := ((protectionsAfter past).lambda.update l
          ((protectionsAfter past).limp.getTimeSinceAnyCut l.cutNt)).isCut }
      simp only [CutAt, Protections.fastCallback, same] at calm
      change ((protectionsAfter past).fastCallback l r).limp.lastCutTime = _
      simp only [Protections.fastCallback, same]
      rw [if_neg]
      · rfl
      · simpa [imp_iff_not_or] using calm
    | report e noUpdate =>
      exact @framed _ LimpManager.lastCutTime (fun _ _ _ _ _ _ _ _ => rfl)
        (protectionsAfter past).limp e noUpdate

theorem ClockInOrder.earlier {later before : List ProtectionEvent} (ordered : ClockInOrder later)
    (suffix : before <:+ later) : ClockInOrder before := by
  have sub := suffix.sublist.flatMap clockReadings
  exact ⟨ordered.1.sublist sub, fun t member => ordered.2 t (sub.subset member)⟩

/-- Two seconds after the last cut it is two seconds after every cut. -/
theorem timeSinceAnyCut_iff (ordered : ClockInOrder (.fastCallback l r :: past)) :
    2 ≤ (protectionsAfter past).limp.getTimeSinceAnyCut l.cutNt ↔
      ∀ l' r' before, .fastCallback l' r' :: before <:+ past → CutAt (.fastCallback l' r' :: before) →
        2 ≤ getElapsedSeconds r'.nowNt l.cutNt := by
  obtain ⟨-, -, -, -, started, -⟩ := ordered.callback
  have inOrder : ∀ s t, s <:+ t → t <:+ past → s ≠ [] → CutAt s → CutAt t →
      2 ≤ getElapsedSeconds (limpTime t) l.cutNt → 2 ≤ getElapsedSeconds (limpTime s) l.cutNt := by
    intro s t first second some cut cut' holds
    refine holds.trans (getElapsedSeconds_anti ?_)
    obtain ⟨e, before, rfl⟩ := List.exists_cons_of_ne_nil some
    have other : t ≠ [] := fun none => some (List.suffix_nil.mp (none ▸ first))
    obtain ⟨e', before', rfl⟩ := List.exists_cons_of_ne_nil other
    cases e with
    | report e noUpdate => exact cut.elim
    | fastCallback l₁ r₁ =>
      cases e' with
      | report e' noUpdate => exact cut'.elim
      | fastCallback l₂ r₂ =>
        obtain ⟨good, asked, restored, latest, -, earlier⟩ :=
          (ordered.earlier (second.trans (List.suffix_cons _ _))).callback
        rcases List.suffix_cons_iff.mp first with same | strict
        · obtain ⟨event, -⟩ := List.cons.inj same
          obtain ⟨-, rfl⟩ := ProtectionEvent.fastCallback.inj event
          exact le_rfl
        · obtain ⟨order, -⟩ := earlier l₁ r₁ before strict
          exact order.trans (good.trans (asked.trans (restored.trans latest)))
  have begins : 2 ≤ getElapsedSeconds timerInit l.cutNt := by
    refine le_trans ?_ (getElapsedSeconds_anti (b := l.cutNt - 8000000) ?_)
    · norm_num [getElapsedSeconds]
    · exact le_trans (by decide : timerInit ≤ -8000000) (sub_le_sub_right started 8000000)
  have latest := (@lastCutTime_iff past fun t => 2 ≤ getElapsedSeconds t l.cutNt).trans
    (latest_iff inOrder begins)
  rw [LimpManager.getTimeSinceAnyCut, latest]
  constructor
  · intro all l' r' before suffix cut
    simpa only [limpTime] using all _ suffix (List.cons_ne_nil _ _) cut
  · intro all s suffix some cut
    obtain ⟨e, before, rfl⟩ := List.exists_cons_of_ne_nil some
    cases e with
    | fastCallback l' r' => simpa only [limpTime] using all l' r' before suffix cut
    | report e noUpdate => exact cut.elim

theorem goodAt_iff (ordered : ClockInOrder (.fastCallback l r :: past)) :
    GoodAt (.fastCallback l r :: past) ↔ ¬ LeanAt (.fastCallback l r :: past) := by
  simp only [GoodAt, LeanAt, ← timeSinceAnyCut_iff ordered, LambdaReadings.isCurrentlyGood]
  cases l.settings.lambdaProtectionEnable with
  | false => simp
  | true =>
    cases l.lambda1 with
    | none => simp
    | some value =>
      simp
      grind

/-- The last thing that set the timer in a callback. -/
def setTime : List ProtectionEvent → Tick
  | .fastCallback l _ :: past =>
    if (protectionsAfter past).lambda.cutDue l
        ((protectionsAfter past).limp.getTimeSinceAnyCut l.cutNt) && l.restoreConditionsMet then
      l.restoreNt
    else l.goodNt
  | _ => 0

theorem timer_iff (P : Tick → Prop) : P (protectionsAfter h).lambda.timeSinceGoodLambda ↔
    Latest (fun h => P (setTime h)) (fun h => GoodAt h ∨ RestoredAt h) (P timerInit) h := by
  refine @clock_iff _ _ _ _ _ _ _ (fun p : Protections => p.lambda.timeSinceGoodLambda) setTime P ?_ ?_
  · intro e past set
    cases e with
    | fastCallback l r =>
      obtain ⟨_, _, same⟩ := update_eq (protectionsAfter past).lambda l
        ((protectionsAfter past).limp.getTimeSinceAnyCut l.cutNt)
      refine (congrArg LambdaMonitor.timeSinceGoodLambda same).trans ?_
      rw [setTime]
      split
      · rfl
      · next kept =>
        rcases set with good | ⟨restores, due⟩
        · exact if_pos good
        · exact absurd (by simp [due, restores]) kept
    | report e noUpdate => exact (set.elim id id).elim
  · intro e past unset
    cases e with
    | fastCallback l r =>
      obtain ⟨_, _, same⟩ := update_eq (protectionsAfter past).lambda l
        ((protectionsAfter past).limp.getTimeSinceAnyCut l.cutNt)
      refine (congrArg LambdaMonitor.timeSinceGoodLambda same).trans ?_
      rw [if_neg]
      · exact if_neg fun good => unset (.inl good)
      · rw [Bool.and_eq_true]
        exact fun both => unset (.inr ⟨both.2, both.1⟩)
    | report e noUpdate => rfl

theorem ClockInOrder.setTime (ordered : ClockInOrder (.fastCallback l r :: past)) :
    l.goodNt ≤ setTime (.fastCallback l r :: past) ∧ setTime (.fastCallback l r :: past) ≤ r.nowNt := by
  obtain ⟨-, asked, restored, latest, -⟩ := ordered.callback
  rw [Engine.setTime]
  split
  · exact ⟨asked.trans restored, latest⟩
  · exact ⟨le_rfl, asked.trans (restored.trans latest)⟩

theorem setTime_of_restored (restored : RestoredAt (.fastCallback l r :: past)) :
    setTime (.fastCallback l r :: past) = l.restoreNt :=
  if_pos (by rw [restored.1, restored.2, Bool.true_and])

theorem setTime_of_not_restored (kept : ¬ RestoredAt (.fastCallback l r :: past)) :
    setTime (.fastCallback l r :: past) = l.goodNt :=
  if_neg fun both => kept (by rwa [RestoredAt, and_comm, ← Bool.and_eq_true])

/-- A cut begins in a callback just when there is no reason to end it at once, and whatever spoke
against it is longer ago than the time-out: a callback with a mixture that was not too lean, or with
a cut of any kind in the two seconds before it, and the end of a cut. -/
theorem lambdaCut_begins_iff (ordered : ClockInOrder (.fastCallback l r :: past))
    (off : (protectionsAfter past).lambda.isCut = false) :
    (protectionsAfter (.fastCallback l r :: past)).lambda.isCut = true ↔
      l.restoreConditionsMet = false ∧
        ∀ l' r' before, .fastCallback l' r' :: before <:+ .fastCallback l r :: past →
          (LeanAt (.fastCallback l' r' :: before) ∨
            hasElapsedSec l'.goodNt l.askNt l.settings.lambdaProtectionTimeout = true) ∧
          (RestoredAt (.fastCallback l' r' :: before) →
            hasElapsedSec l'.restoreNt l.askNt l.settings.lambdaProtectionTimeout = true) := by
  obtain ⟨_, _, same⟩ := update_eq (protectionsAfter past).lambda l
    ((protectionsAfter past).limp.getTimeSinceAnyCut l.cutNt)
  have cut : (protectionsAfter (.fastCallback l r :: past)).lambda.isCut =
      ((protectionsAfter past).lambda.cutDue l
        ((protectionsAfter past).limp.getTimeSinceAnyCut l.cutNt) && !l.restoreConditionsMet) :=
    congrArg LambdaMonitor.lambdaMonitorCut same
  rw [cut, Bool.and_eq_true, Bool.not_eq_true', and_comm]
  refine and_congr_right fun keeps => ?_
  have timer := @timer_iff (.fastCallback l r :: past) fun t =>
    hasElapsedSec t l.askNt l.settings.lambdaProtectionTimeout = true
  have asked : (protectionsAfter (.fastCallback l r :: past)).lambda.timeSinceGoodLambda =
      (protectionsAfter past).lambda.askedTimer l
        ((protectionsAfter past).limp.getTimeSinceAnyCut l.cutNt) := by
    refine (congrArg LambdaMonitor.timeSinceGoodLambda same).trans (if_neg ?_)
    simp [keeps]
  obtain ⟨cutFirst, good, -, -, started, earlier⟩ := ordered.callback
  have begun : 0 ≤ l.askNt := started.trans (cutFirst.trans good)
  have bounded {l' r' before} (suffix : .fastCallback l' r' :: before <:+ .fastCallback l r :: past) :
      setTime (.fastCallback l' r' :: before) ≤ l.askNt := by
    rcases List.suffix_cons_iff.mp suffix with same | strict
    · rw [same, setTime_of_not_restored fun restored => Bool.false_ne_true (keeps.symm.trans restored.1)]
      exact good
    · exact ((ordered.earlier suffix).setTime.2.trans (earlier l' r' before strict).1).trans
        (cutFirst.trans good)
  rw [LambdaMonitor.cutDue, off, Bool.false_or, ← asked, timer, latest_iff]
  · constructor
    · intro all l' r' before suffix
      have counts := all _ suffix (List.cons_ne_nil _ _)
      refine ⟨?_, fun restored => ?_⟩
      · by_cases lean : LeanAt (.fastCallback l' r' :: before)
        · exact .inl lean
        · have good := (goodAt_iff (ordered.earlier suffix)).mpr lean
          exact .inr (hasElapsedSec_mono (ordered.earlier suffix).setTime.1 (bounded suffix)
            (counts (.inl good)))
      · rw [← setTime_of_restored restored]
        exact counts (.inr restored)
    · intro all s suffix some counts
      obtain ⟨e, before, rfl⟩ := List.exists_cons_of_ne_nil some
      cases e with
      | report e noUpdate => exact (counts.elim id id).elim
      | fastCallback l' r' =>
        obtain ⟨lean, restores⟩ := all l' r' before suffix
        by_cases restored : RestoredAt (.fastCallback l' r' :: before)
        · rw [setTime_of_restored restored]
          exact restores restored
        · rw [setTime_of_not_restored restored]
          have good := counts.resolve_right restored
          exact lean.resolve_left ((goodAt_iff (ordered.earlier suffix)).mp good)
  · intro s t first second some counts counts' holds
    obtain ⟨e, before, rfl⟩ := List.exists_cons_of_ne_nil some
    have other : t ≠ [] := fun none => some (List.suffix_nil.mp (none ▸ first))
    obtain ⟨e', before', rfl⟩ := List.exists_cons_of_ne_nil other
    cases e with
    | report e noUpdate => exact (counts.elim id id).elim
    | fastCallback l₁ r₁ =>
      cases e' with
      | report e' noUpdate => exact (counts'.elim id id).elim
      | fastCallback l₂ r₂ =>
        refine hasElapsedSec_mono ?_ (bounded second) holds
        rcases List.suffix_cons_iff.mp first with same | strict
        · rw [same]
        · have inOrder := ordered.earlier second
          obtain ⟨cutFirst, -, -, -, -, earlier⟩ := inOrder.callback
          exact ((inOrder.earlier first).setTime.2.trans (earlier l₁ r₁ before strict).1).trans
            (cutFirst.trans inOrder.setTime.1)
  · have long : clock32max ≤ l.askNt - timerInit :=
      le_trans (by decide : clock32max ≤ 0 - timerInit) (sub_le_sub_right begun _)
    exact if_pos long

/-- Under load, with the mixture measured at a time. -/
def cruise (t : Tick) (lambda1 : ℚ) : LambdaReadings :=
  { rpm := 4000, load := 100, tps1 := 80, lambda1 := some lambda1, cutNt := t }

/-- Two seconds after the mixture was good, the cut begins. -/
theorem lambdaCut_begins_lean :
    (cruise 16000000 (11 / 10)).restoreConditionsMet = false ∧
      ∀ l' r' before, .fastCallback l' r' :: before <:+
          [.fastCallback (cruise 16000000 (11 / 10)) { nowNt := 16000000 },
            .fastCallback (cruise 8000000 (9 / 10)) { nowNt := 8000000 }] →
        (LeanAt (.fastCallback l' r' :: before) ∨ hasElapsedSec l'.goodNt 16000000 1 = true) ∧
        (RestoredAt (.fastCallback l' r' :: before) → hasElapsedSec l'.restoreNt 16000000 1 = true) :=
  (lambdaCut_begins_iff ⟨by decide, by decide⟩ (by decide +kernel)).mp (by decide +kernel)

end Begins

end FomeFw.Engine
