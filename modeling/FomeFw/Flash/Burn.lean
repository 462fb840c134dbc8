import Mathlib.Logic.Function.Basic
import FomeFw.Lib.Machine
import FomeFw.Flash.TwoCopies
import Mathlib.Data.Rat.Floor

/-! Burning while the tune is edited. The writer works on the live configuration: the
checksum, the two copies and the clearing of the request are steps of their own, with
edits and requests of other threads in between. -/
namespace FomeFw.Flash

open Port

/-- The bytes of the configuration page. -/
abbrev Page (size : Nat) := Fin size → UInt8

/-- How far `writeToFlashNow` has come. -/
inductive Writer where
  | idle
  | started
  | crcComputed
  | firstCopyDone
  | secondCopyDone
  deriving DecidableEq, Repr

structure Burner (size : Nat) where
  /-- The live configuration, and the header and checksum set up for the last write. -/
  persistentState : PersistentConfigContainer (Page size)
  firstCopy : PersistentConfigContainer (Page size)
  secondCopy : PersistentConfigContainer (Page size)
  needToWriteConfiguration : Bool := false
  flashWriteSemaphore : Bool := false
  burnWithoutFlash : Bool := false
  writer : Writer := .idle
  /-- The configurations there were since the last burn request, the oldest first. -/
  sinceRequest : Option (List (Page size)) := none

/-- What threads do. A chunk write is one edit after the other. -/
inductive BurnStep (size : Nat) where
  | edit (offset : Fin size) (value : UInt8)
  | setNeedToWriteConfiguration
  /-- The writer thread gets the semaphore. -/
  | flashWriteThread
  | writeToFlashIfPending
  /-- Called directly, from a console action. -/
  | writeToFlashNow
  /-- The next step of a write that was started. -/
  | proceed
  | setBurnWithoutFlash

namespace Burner

variable {size : Nat} (port : Port (Page size)) (allowFlashWhileRunning : Bool)

def live (b : Burner size) : Page size := b.persistentState.persistentConfiguration

/-- `writeToFlashNow` up to the set-up of the container. -/
def start (b : Burner size) : Burner size :=
  if b.burnWithoutFlash then { b with needToWriteConfiguration := false }
  else { b with writer := .started }

def proceed (b : Burner size) : Burner size :=
  match b.writer with
  | .idle => b
  | .started =>
    { b with
      persistentState := port.container b.live
      writer := .crcComputed }
  | .crcComputed => { b with firstCopy := b.persistentState, writer := .firstCopyDone }
  | .firstCopyDone => { b with secondCopy := b.persistentState, writer := .secondCopyDone }
  | .secondCopyDone => { b with needToWriteConfiguration := false, writer := .idle }

def edit (b : Burner size) (offset : Fin size) (value : UInt8) : Burner size :=
  let config := Function.update b.live offset value
  { b with
    persistentState := { b.persistentState with persistentConfiguration := config }
    sinceRequest := b.sinceRequest.map (· ++ [config]) }

/-- A write is only started while none is in progress. -/
def step (b : Burner size) : BurnStep size → Burner size
  | .edit offset value => b.edit offset value
  | .setNeedToWriteConfiguration =>
    { b with
      needToWriteConfiguration := true
      flashWriteSemaphore := b.flashWriteSemaphore || allowFlashWhileRunning
      sinceRequest := some [b.live] }
  | .flashWriteThread =>
    if b.writer = .idle ∧ b.flashWriteSemaphore = true then
      { b with flashWriteSemaphore := false }.start
    else b
  | .writeToFlashIfPending =>
    if b.writer ≠ .idle ∨ allowFlashWhileRunning = true ∨ b.needToWriteConfiguration = false then b
    else b.start
  | .writeToFlashNow => if b.writer = .idle then b.start else b
  | .proceed => b.proceed port
  | .setBurnWithoutFlash => { b with burnWithoutFlash := true }

/-- No write is in progress, and none is asked for. -/
structure Settled (b : Burner size) : Prop where
  writer : b.writer = .idle
  request : b.needToWriteConfiguration = false
  semaphore : b.flashWriteSemaphore = false

/-- The copy passes the checks and is the configuration as it was at some time since the
last burn request. -/
structure Burned (b : Burner size) (copy : PersistentConfigContainer (Page size)) : Prop where
  valid : Valid port copy
  recent : ∀ configs, b.sinceRequest = some configs → copy.persistentConfiguration ∈ configs

def BurnKept (b : Burner size) : Prop :=
  b.Settled → b.Burned port b.firstCopy ∧ b.Burned port b.secondCopy

/-- Nothing changes under the writer: no byte between the checksum and the second copy;
and where no thread will write again, nothing is asked for that the copies just made
do not have. -/
def Undisturbed (b : Burner size) : BurnStep size → Prop
  | .edit offset value =>
    b.writer = .crcComputed ∨ b.writer = .firstCopyDone → b.live offset = value
  | .setNeedToWriteConfiguration =>
    b.writer = .secondCopyDone → allowFlashWhileRunning = true ∨
      b.firstCopy.persistentConfiguration = b.live
  | .flashWriteThread | .writeToFlashIfPending | .writeToFlashNow => b.burnWithoutFlash = false
  | _ => True

/-- What holds at every step of a write. -/
structure Sound (b : Burner size) : Prop where
  /-- The live configuration is one of those since the request. -/
  current : ∀ configs, b.sinceRequest = some configs → b.live ∈ configs
  first : Valid port b.firstCopy
  second : Valid port b.secondCopy
  /-- The checksum that was computed is that of the live configuration. -/
  captured : b.writer = .crcComputed ∨ b.writer = .firstCopyDone → Valid port b.persistentState
  firstNew : b.writer = .firstCopyDone → b.firstCopy = b.persistentState
  bothNew : b.writer = .secondCopyDone → b.secondCopy = b.firstCopy ∧
    (b.flashWriteSemaphore = false → b.Burned port b.firstCopy)
  kept : b.BurnKept port

variable {port allowFlashWhileRunning} {b : Burner size}
  {copy : PersistentConfigContainer (Page size)}

theorem Burned.edit (burned : b.Burned port copy) (offset : Fin size) (value : UInt8) :
    (b.edit offset value).Burned port copy := by
  refine ⟨burned.valid, fun configs since => ?_⟩
  obtain ⟨before, earlier, rfl⟩ := Option.map_eq_some_iff.mp since
  exact List.mem_append_left _ (burned.recent before earlier)

theorem edit_same {offset : Fin size} {value : UInt8} (same : b.live offset = value) :
    (b.edit offset value).persistentState = b.persistentState := by
  subst same
  simp only [Burner.edit, Function.update_eq_self]
  rfl

theorem Sound.edit (sound : b.Sound port) {offset : Fin size} {value : UInt8}
    (undisturbed : b.Undisturbed allowFlashWhileRunning (.edit offset value)) :
    (b.edit offset value).Sound port where
  current := by
    intro configs since
    obtain ⟨before, earlier, rfl⟩ := Option.map_eq_some_iff.mp since
    exact List.mem_append_right _ (List.mem_singleton_self _)
  first := sound.first
  second := sound.second
  captured := by
    intro writing
    rw [edit_same (undisturbed writing)]
    exact sound.captured writing
  firstNew := by
    intro writing
    rw [edit_same (undisturbed (.inr writing))]
    exact sound.firstNew writing
  bothNew := fun writing =>
    ⟨(sound.bothNew writing).1, fun quiet => ((sound.bothNew writing).2 quiet).edit offset value⟩
  kept := by
    rintro ⟨writer, request, semaphore⟩
    obtain ⟨burned, burned'⟩ := sound.kept ⟨writer, request, semaphore⟩
    exact ⟨burned.edit offset value, burned'.edit offset value⟩

theorem Sound.request (sound : b.Sound port)
    (undisturbed : b.Undisturbed allowFlashWhileRunning .setNeedToWriteConfiguration) :
    (b.step port allowFlashWhileRunning .setNeedToWriteConfiguration).Sound port where
  current := by
    rintro configs ⟨⟩
    exact List.mem_singleton_self _
  first := sound.first
  second := sound.second
  captured := sound.captured
  firstNew := sound.firstNew
  bothNew := by
    intro writing
    refine ⟨(sound.bothNew writing).1, fun quiet => ⟨sound.first, ?_⟩⟩
    obtain ⟨-, noThread⟩ := Bool.or_eq_false_iff.mp quiet
    have same := (undisturbed writing).resolve_left (by simp [noThread])
    rintro configs ⟨⟩
    exact List.mem_singleton.mpr same
  kept := by
    rintro ⟨-, request, -⟩
    exact absurd request (by simp [step])

theorem start_sound (current : ∀ configs, b.sinceRequest = some configs → b.live ∈ configs)
    (first : Valid port b.firstCopy) (second : Valid port b.secondCopy)
    (real : b.burnWithoutFlash = false) : b.start.Sound port := by
  have started : b.start = { b with writer := .started } := by simp [Burner.start, real]
  rw [started]
  exact {
    current
    first
    second
    captured := by simp
    firstNew := by simp
    bothNew := by simp
    kept := by rintro ⟨⟨⟩, -, -⟩ }

theorem Sound.proceed (sound : b.Sound port) : (b.proceed port).Sound port := by
  cases writer : b.writer with
  | idle => simpa only [Burner.proceed, writer] using sound
  | started =>
    simp only [Burner.proceed, writer]
    exact {
      current := sound.current
      first := sound.first
      second := sound.second
      captured := fun _ => valid_container
      firstNew := by simp
      bothNew := by simp
      kept := by rintro ⟨⟨⟩, -, -⟩ }
  | crcComputed =>
    simp only [Burner.proceed, writer]
    exact {
      current := sound.current
      first := sound.captured (.inl writer)
      second := sound.second
      captured := fun _ => sound.captured (.inl writer)
      firstNew := fun _ => rfl
      bothNew := by simp
      kept := by rintro ⟨⟨⟩, -, -⟩ }
  | firstCopyDone =>
    simp only [Burner.proceed, writer]
    exact {
      current := sound.current
      first := sound.first
      second := sound.captured (.inr writer)
      captured := by simp
      firstNew := by simp
      bothNew := fun _ => ⟨(sound.firstNew writer).symm, fun _ => ⟨sound.first, by
        rw [sound.firstNew writer]
        exact sound.current⟩⟩
      kept := by rintro ⟨⟨⟩, -, -⟩ }
  | secondCopyDone =>
    simp only [Burner.proceed, writer]
    exact {
      current := sound.current
      first := sound.first
      second := sound.second
      captured := by simp
      firstNew := by simp
      bothNew := by simp
      kept := by
        rintro ⟨-, -, semaphore⟩
        obtain ⟨same, burned⟩ := sound.bothNew writer
        have recent := (burned semaphore).recent
        exact ⟨⟨sound.first, recent⟩, ⟨sound.second, by rw [same]; exact recent⟩⟩ }

theorem Sound.step (sound : b.Sound port) (event : BurnStep size)
    (undisturbed : b.Undisturbed allowFlashWhileRunning event) :
    (b.step port allowFlashWhileRunning event).Sound port := by
  cases event with
  | edit offset value => exact sound.edit undisturbed
  | setNeedToWriteConfiguration => exact sound.request undisturbed
  | flashWriteThread =>
    simp only [Burner.step]
    split
    · exact start_sound (b := { b with flashWriteSemaphore := false }) sound.current sound.first
        sound.second undisturbed
    · exact sound
  | writeToFlashIfPending =>
    simp only [Burner.step]
    split
    · exact sound
    · exact start_sound sound.current sound.first sound.second undisturbed
  | writeToFlashNow =>
    simp only [Burner.step]
    split
    · exact start_sound sound.current sound.first sound.second undisturbed
    · exact sound
  | proceed => exact sound.proceed
  | setBurnWithoutFlash =>
    exact {
      current := sound.current
      first := sound.first
      second := sound.second
      captured := sound.captured
      firstNew := sound.firstNew
      bothNew := fun writing => ⟨(sound.bothNew writing).1, fun quiet =>
        ⟨sound.first, ((sound.bothNew writing).2 quiet).recent⟩⟩
      kept := by
        rintro ⟨writer, request, semaphore⟩
        obtain ⟨burned, burned'⟩ := sound.kept ⟨writer, request, semaphore⟩
        exact ⟨⟨burned.valid, burned.recent⟩, ⟨burned'.valid, burned'.recent⟩⟩ }

/-- Two valid copies, and no burn requested yet. -/
def fresh (persistentState firstCopy secondCopy : PersistentConfigContainer (Page size)) :
    Burner size :=
  { persistentState, firstCopy, secondCopy }

/-- In a run in which nothing changes under the writer no burn is lost or torn. -/
theorem burn_kept {persistentState firstCopy secondCopy : PersistentConfigContainer (Page size)}
    (first : Valid port firstCopy) (second : Valid port secondCopy) (events : List (BurnStep size))
    (undisturbed : Machine.Guarded (step port allowFlashWhileRunning)
      (Undisturbed allowFlashWhileRunning) (fresh persistentState firstCopy secondCopy) events) :
    BurnKept port (events.foldl (step port allowFlashWhileRunning)
      (fresh persistentState firstCopy secondCopy)) := by
  have start : Sound port (fresh persistentState firstCopy secondCopy) := by
    refine ⟨by simp [fresh], first, second, by simp [fresh], by simp [fresh], by simp [fresh],
      fun _ => ⟨⟨first, by simp [fresh]⟩, ⟨second, by simp [fresh]⟩⟩⟩
  have sound := undisturbed.invariant
    (fun b event quiet (sound : Sound port b) => sound.step event quiet) start
  exact sound.kept

section Disturbed

/-- A page of one byte, with a checksum that tells all of them apart. -/
def bytePort : Port (Page 1) where
  singleCrc := fun config => (config 0).toUInt32
  flashDataVersion := 1
  sizeofPersistentState := 1
  getFlashAddrFirstCopy := 1
  getFlashAddrSecondCopy := 2
  erased := ⟨-1, -1, fun _ => 0xFF, 0xFFFFFFFF⟩
  erased_version := by decide
  apart := tinyPort.apart

def zeroPage : Burner 1 :=
  fresh (bytePort.container fun _ => 0) (bytePort.container fun _ => 0)
    (bytePort.container fun _ => 0)

def quietBurn : List (BurnStep 1) :=
  [.edit 0 1, .setNeedToWriteConfiguration, .writeToFlashIfPending, .proceed, .proceed, .proceed,
    .proceed]

theorem burn_kept_quietBurn :
    Valid bytePort (bytePort.container fun _ => 0) ∧
      Machine.Guarded (step bytePort false) (Undisturbed false) zeroPage quietBurn ∧
      BurnKept bytePort (quietBurn.foldl (step bytePort false) zeroPage) := by
  have quiet : Machine.Guarded (step bytePort false) (Undisturbed false) zeroPage quietBurn :=
    ⟨by rintro (⟨⟨⟩⟩ | ⟨⟨⟩⟩), by rintro ⟨⟩, rfl, trivial, trivial, trivial, trivial, trivial⟩
  exact ⟨valid_container, quiet, burn_kept valid_container valid_container quietBurn quiet⟩

/-- The byte is changed after the checksum was computed: both copies are torn. -/
theorem edit_tearsCopies : ¬ BurnKept bytePort
    ([.setNeedToWriteConfiguration, .writeToFlashIfPending, .proceed, .edit 0 1, .proceed, .proceed,
      .proceed].foldl (step bytePort false) zeroPage) := by
  intro kept
  obtain ⟨⟨valid, -⟩, -⟩ := kept ⟨rfl, rfl, rfl⟩
  exact absurd valid.value (by decide +kernel)

end Disturbed

end Burner

end FomeFw.Flash
