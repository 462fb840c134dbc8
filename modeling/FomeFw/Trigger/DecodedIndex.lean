import FomeFw.Lib.Machine
import FomeFw.Trigger.CountedCycles
import FomeFw.Trigger.PhaseWindows

/-! What a decoder returns for an edge is a place in the wave form, and with the turn it is in
a place in the engine cycle, however noisy the edges are. -/
namespace FomeFw.Trigger
open Machine

variable {σ : Type} {kind : DecoderKind σ} {shape : TriggerWaveform} {config : TriggerConfiguration}

theorem TriggerDecoder.decoded_lt {d : TriggerDecoder σ} {input : EdgeInput}
    (decoded : (d.decodeTriggerEvent kind shape config input).2 = some i) : i < shape.getSize := by
  rw [decodeTriggerEvent_eq, finishEdge] at decoded
  split at decoded
  · cases decoded
  · next enough =>
    simp only [Option.ite_none_right_eq_some, Option.some.injEq] at decoded
    obtain ⟨synchronized, rfl⟩ := decoded
    simp only [synchronized, Bool.true_and, Bool.not_eq_true', Bool.not_eq_false,
      TriggerDecoderBase.isValidIndex, decide_eq_true_eq] at enough
    exact enough

namespace WatchedDecoder

/-- The indices that come with an edge: the decoder's, and that of `handleShaftSignal`. -/
def IndicesInRange (kind : DecoderKind σ) (shape : TriggerWaveform) (config : TriggerConfiguration)
    (w : WatchedDecoder σ) : DecoderStep σ → Prop
  | .edge input => ∀ currentIndex,
    (w.decoder.decodeTriggerEvent kind shape config input).2 = some currentIndex →
      currentIndex < shape.getSize ∧
      triggerIndexForListeners shape
        (w.decoded kind shape config input).base.crankSynchronizationCounter currentIndex <
          shape.getLength
  | _ => True

theorem indicesInRange (w : WatchedDecoder σ) (e : DecoderStep σ) :
    w.IndicesInRange kind shape config e := by
  cases e with
  | edge input =>
    intro currentIndex decoded
    have inside := TriggerDecoder.decoded_lt decoded
    exact ⟨inside, triggerIndexForListeners_inside _ inside⟩
  | reset => trivial
  | derived change => trivial

/-- Through every run of edges, resets and changes of its own, each result of a decoder is in
range, and so is the index of its tooth in the engine cycle. -/
theorem run_indicesInRange (kind : DecoderKind σ) (shape : TriggerWaveform)
    (config : TriggerConfiguration) (derived : σ) (steps : List (DecoderStep σ)) :
    Guarded (step kind shape config) (IndicesInRange kind shape config) (new derived) steps :=
  guarded_of_all indicesInRange

end WatchedDecoder

end FomeFw.Trigger
