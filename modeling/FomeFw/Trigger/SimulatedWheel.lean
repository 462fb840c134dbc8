import FomeFw.Trigger.WheelTable

/-! Initialization turns a wheel too. For a wave form whose levels change at every event
the simulator shows its decoder one edge after the other, at the simulated times; the sync
point it finds is an edge that can be one. -/
namespace FomeFw.Trigger

namespace TriggerWaveform
variable {shape : TriggerWaveform} {config : TriggerConfiguration} {rpm : ℚ} {i : Nat}
  {state : TriggerDecoder Unit}

/-- The wheel as the simulator turns it. -/
def simulatedWheel (shape : TriggerWaveform) (config : TriggerConfiguration) (rpm : ℚ) :
    WheelSetup Unit :=
  ⟨TriggerDecoderBase.kind, shape, config, ⟨shape.getSimulatedEventTime, fun _ => rpm⟩⟩

open TriggerStimulatorHelper

theorem feedChannel_other (channel : TriggerWheel) (edges : shape.EdgesOnly)
    (inside : i % shape.getSize < shape.getSize)
    (other : shape.channelIndex (i % shape.getSize) ≠ channel) :
    feedChannel shape config rpm i state channel = state := by
  have quiet : shape.needEvent (i % shape.getSize) channel = false := by
    simpa using mt (edges _ inside channel).mp other
  simp [feedChannel, quiet]

theorem feedChannel_own (edges : shape.EdgesOnly)
    (inside : i % shape.getSize < shape.getSize) :
    feedChannel shape config rpm i state (shape.channelIndex (i % shape.getSize)) =
      ((shape.simulatedWheel config rpm).decode state i).1 := by
  have needed := (edges _ inside _).mpr rfl
  have signal : TriggerEvent.ofEdge (shape.getChannelState (shape.channelIndex (i % shape.getSize))
      (i % shape.getSize)) (shape.channelIndex (i % shape.getSize)) = shape.signalAt i := by
    rw [getChannelState_event]
    rfl
  have chosen : shape.isUsefulSignal (shape.signalAt i) = true ↔ shape.Useful i := Iff.rfl
  simp only [feedChannel, needed, if_true, signal, chosen, WheelSetup.decode]
  by_cases useful : shape.Useful i
  · have shown : (shape.simulatedWheel config rpm).shape.Useful i := useful
    rw [if_pos useful, if_pos shown]
    rfl
  · have unseen : ¬ (shape.simulatedWheel config rpm).shape.Useful i := useful
    rw [if_neg useful, if_neg unseen]

/-- One simulated event is one edge of the turning wheel. -/
theorem feedSimulatedEvent_eq (edges : shape.EdgesOnly) (some : 0 < shape.getSize) :
    feedSimulatedEvent shape config rpm state i =
      ((shape.simulatedWheel config rpm).decode state i).1 := by
  have inside := Nat.mod_lt i some
  have own := @feedChannel_own shape config rpm i state edges inside
  simp only [feedSimulatedEvent, some.ne', if_false, List.foldl_cons, List.foldl_nil]
  cases channel : shape.channelIndex (i % shape.getSize) <;> rw [channel] at own
  · rw [own, feedChannel_other .secondary edges inside (by rw [channel]; decide)]
  · rw [feedChannel_other .primary edges inside (by rw [channel]; decide), own]

/-- The edge at which a decoder becomes synchronized is a candidate. -/
theorem candidate_of_synchronizes {σ : Type} {s : WheelSetup σ} {w : WheelRun σ}
    (before : w.decoder.base.shaftIsSynchronized = false)
    (after : (s.turn w).decoder.base.shaftIsSynchronized = true) : s.shape.Candidate w.position := by
  cases s.turned w with
  | unseen useless same => rw [same, before] at after; cases after
  | loses useful lost => rw [lost] at after; cases after
  | starts some candidate => exact candidate
  | closes candidate => exact candidate
  | continues useful shaft =>
    have was := (WheelSetup.noted_of_synchronized shaft).1
    rw [before] at was
    cases was

/-- The sync point is where a decoder that was not synchronized becomes so. -/
theorem findTriggerSyncPoint_found (rounds : Nat) (before : state.base.shaftIsSynchronized = false)
    (found : findTriggerSyncPoint shape config rpm rounds i state = .some (syncIndex, after)) :
    ∃ start : TriggerDecoder Unit, start.base.shaftIsSynchronized = false ∧
      (feedSimulatedEvent shape config rpm start syncIndex).base.shaftIsSynchronized = true := by
  induction rounds generalizing i state with
  | zero => cases found
  | succ rounds ih =>
    rw [findTriggerSyncPoint] at found
    cases synchronized : (feedSimulatedEvent shape config rpm state i).base.shaftIsSynchronized
    · rw [synchronized] at found
      exact ih synchronized found
    · simp only [synchronized, if_true, Option.some.injEq, Prod.mk.injEq] at found
      exact ⟨state, before, found.1 ▸ synchronized⟩

theorem findTriggerSyncPoint_empty (empty : shape.getSize = 0) (rounds : Nat)
    (before : state.base.shaftIsSynchronized = false) :
    findTriggerSyncPoint shape config rpm rounds i state = none := by
  induction rounds generalizing i with
  | zero => rfl
  | succ rounds ih =>
    simp only [findTriggerSyncPoint, feedSimulatedEvent, empty, if_true, before, Bool.false_eq_true,
      if_false]
    exact ih

/-- What initialization finds is an edge at which a decoder was seen to become synchronized. -/
theorem synchPoint_found
    (found : (shape.calculateTriggerSynchPoint config rpm initState).triggerShapeSynchPointIndex =
      .some synch) : synch < shape.getSize ∧ ∃ syncIndex, ∃ start : TriggerDecoder Unit,
        synch = syncIndex % shape.getSize ∧ start.base.shaftIsSynchronized = false ∧
        (feedSimulatedEvent shape config rpm start syncIndex).base.shaftIsSynchronized = true := by
  have index : (TriggerDecoderBase.findTriggerZeroEventIndex shape config rpm initState
      ).triggerShapeSynchPointIndex = .some synch := by
    unfold calculateTriggerSynchPoint at found
    split at found <;> exact found
  simp only [TriggerDecoderBase.findTriggerZeroEventIndex] at index
  split at index
  · cases index
  · next syncIndex after searched =>
    have some : 0 < shape.getSize := by
      refine Nat.pos_of_ne_zero fun empty => ?_
      rw [findTriggerSyncPoint_empty empty _ rfl] at searched
      cases searched
    obtain ⟨start, before, synchronized⟩ := findTriggerSyncPoint_found _ rfl searched
    split at index
    · obtain rfl := Option.some.inj index
      exact ⟨Nat.mod_lt _ some, syncIndex, start, rfl, before, synchronized⟩
    · cases index

/-- The sync point that initialization finds. -/
theorem synchPoint_candidate (edges : shape.EdgesOnly)
    (found : (shape.calculateTriggerSynchPoint config rpm initState).triggerShapeSynchPointIndex =
      .some synch) : synch < shape.getSize ∧ shape.Candidate synch := by
  obtain ⟨inside, syncIndex, start, rfl, before, synchronized⟩ := synchPoint_found found
  refine ⟨inside, ?_⟩
  rw [feedSimulatedEvent_eq edges (Nat.zero_lt_of_lt inside)] at synchronized
  have turned : ((shape.simulatedWheel config rpm).turn
      ⟨start, syncIndex, syncIndex⟩).decoder.base.shaftIsSynchronized = true := synchronized
  rw [← shape.candidate_turns _ (syncIndex / shape.getSize), Nat.mul_comm, Nat.mod_add_div]
  exact candidate_of_synchronizes before turned

end TriggerWaveform
end FomeFw.Trigger
