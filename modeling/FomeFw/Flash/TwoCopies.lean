import FomeFw.Flash.FlashMain

/-! What two copies are for: whatever happens during one write, a copy that passes the
checks has to be left. The second copy is written also when the first one failed, so
that is so exactly unless both of them fail. -/
namespace FomeFw.Flash

open Port

variable {Config : Type} {port : Port Config} {flash : Flash Config} {config : Config}
  {outcomes : Outcomes Config} {persistentState data : PersistentConfigContainer Config}

/-- The checks of `readOneConfigurationCopy`. -/
structure Valid (port : Port Config) (data : PersistentConfigContainer Config) : Prop where
  value : data.value = port.flashStateCrc data
  version : data.version = port.flashDataVersion
  size : data.size = port.sizeofPersistentState

/-- What may be left at an address that held `old` and was to get `new`: an error leaves
nothing valid, and lost power nothing valid but one of these as a whole. -/
def Outcome.Possible (port : Port Config) (old new : PersistentConfigContainer Config) :
    Outcome Config → Prop
  | .success => True
  | .error left => ¬ Valid port left
  | .powerLoss left => Valid port left → left = old ∨ left = new

structure Outcomes.Possible (port : Port Config) (flash : Flash Config) (config : Config)
    (outcomes : Outcomes Config) : Prop where
  erase1 : outcomes.erase1.Possible port (flash port.getFlashAddrFirstCopy) port.erased
  write1 : outcomes.write1.Possible port port.erased (port.container config)
  erase2 : outcomes.erase2.Possible port (flash port.getFlashAddrSecondCopy) port.erased
  write2 : outcomes.write2.Possible port port.erased (port.container config)

/-- Both copies of the configuration are stored and in order. -/
structure BothValid (port : Port Config) (flash : Flash Config) : Prop where
  first : port.getFlashAddrFirstCopy ≠ 0
  second : port.getFlashAddrSecondCopy ≠ 0
  firstCopy : Valid port (flash port.getFlashAddrFirstCopy)
  secondCopy : Valid port (flash port.getFlashAddrSecondCopy)

/-- After a write the configuration is read, and it is an old one or the new one. -/
def KeepsTune (port : Port Config) (burnWithoutFlash : Bool) (flash : Flash Config)
    (config : Config) (outcomes : Outcomes Config) : Prop :=
  ∀ persistentState, ∃ loaded,
    port.readConfiguration (port.writeToFlashNow burnWithoutFlash flash config outcomes).1
      persistentState = (.ok, loaded) ∧
    (loaded = flash port.getFlashAddrFirstCopy ∨ loaded = flash port.getFlashAddrSecondCopy ∨
      loaded = port.container config)

def Outcome.IsError : Outcome Config → Prop
  | .error _ => True
  | _ => False

/-- The first copy is given up with an error code. -/
def Outcomes.FirstFails (outcomes : Outcomes Config) : Prop :=
  outcomes.erase1.IsError ∨ outcomes.erase1 = .success ∧ outcomes.write1.IsError

/-- The second copy is written whole, or it is whole when the power is lost. -/
def Outcomes.SecondWhole (port : Port Config) (outcomes : Outcomes Config) : Prop :=
  match outcomes.erase2, outcomes.write2 with
  | .success, .success => True
  | .powerLoss left, _ => Valid port left
  | .success, .powerLoss left => Valid port left
  | _, _ => False

/-- What the two operations on one copy leave there, and how they come back. -/
def copyLeft (data : PersistentConfigContainer Config) (erase write : Outcome Config) : PersistentConfigContainer Config × Returned :=
  match erase, write with
  | .powerLoss left, _ => (left, .never)
  | .error left, _ => (left, .error)
  | .success, .powerLoss left => (left, .never)
  | .success, .error left => (left, .error)
  | .success, .success => (data, .success)

section Reading

theorem not_valid_erased : ¬ Valid port port.erased :=
  fun valid => port.erased_version valid.version

theorem valid_container : Valid port (port.container config) := ⟨rfl, rfl, rfl⟩

theorem readOneConfigurationCopy_valid {address : Nat} (stored : address ≠ 0)
    (valid : Valid port (flash address)) :
    port.readOneConfigurationCopy flash address persistentState = (.ok, flash address) := by
  simp [readOneConfigurationCopy, stored, ← valid.value, valid.version, valid.size]

theorem readOneConfigurationCopy_invalid {address : Nat} (invalid : ¬ Valid port (flash address)) :
    (port.readOneConfigurationCopy flash address persistentState).1 ≠ .ok := by
  intro ok
  simp only [readOneConfigurationCopy] at ok
  split at ok
  · simp at ok
  split at ok
  · split at ok <;> simp at ok
  · next sameCrc =>
    split at ok
    · simp at ok
    · next sameLayout =>
      obtain ⟨version, size⟩ := not_or.mp sameLayout
      exact invalid ⟨(Decidable.not_not.mp sameCrc).symm, Decidable.not_not.mp version,
        Decidable.not_not.mp size⟩

theorem readConfiguration_first (stored : port.getFlashAddrFirstCopy ≠ 0)
    (valid : Valid port (flash port.getFlashAddrFirstCopy)) :
    port.readConfiguration flash persistentState = (.ok, flash port.getFlashAddrFirstCopy) := by
  simp only [readConfiguration, readOneConfigurationCopy_valid stored valid]

theorem readConfiguration_second (stored : port.getFlashAddrSecondCopy ≠ 0)
    (invalid : ¬ Valid port (flash port.getFlashAddrFirstCopy)) :
    ∃ persistentState', port.readConfiguration flash persistentState =
      port.readOneConfigurationCopy flash port.getFlashAddrSecondCopy persistentState' := by
  have bad := @readOneConfigurationCopy_invalid _ _ _ persistentState _ invalid
  refine ⟨(port.readOneConfigurationCopy flash port.getFlashAddrFirstCopy persistentState).2, ?_⟩
  cases read : port.readOneConfigurationCopy flash port.getFlashAddrFirstCopy persistentState with
  | mk firstCopy persistentState' =>
    cases firstCopy with
    | ok =>
      rw [read] at bad
      exact absurd rfl bad
    | crcFailed => simp only [readConfiguration, read, stored, if_false]
    | incompatibleVersion => simp only [readConfiguration, read, stored, if_false]
    | blankChip => simp only [readConfiguration, read, stored, if_false]

end Reading

section Writing

theorem store_store (flash : Flash Config) (address : Nat)
    (first second : PersistentConfigContainer Config) :
    (flash.store address first).store address second = flash.store address second := by
  funext a
  by_cases here : a = address <;> simp [Flash.store, here]

theorem store_same (flash : Flash Config) (address : Nat) (data : PersistentConfigContainer Config) :
    (flash.store address data) address = data := if_pos rfl

theorem store_other {address other : Nat} (apart : other ≠ address) :
    (flash.store address data) other = flash other := if_neg apart

theorem eraseAndFlashCopy_eq {address : Nat} (stored : address ≠ 0) (erase write : Outcome Config) :
    port.eraseAndFlashCopy flash address data erase write =
      (flash.store address (copyLeft data erase write).1,
        (copyLeft data erase write).2) := by
  cases erase <;> cases write <;>
    simp [eraseAndFlashCopy, stored, copyLeft, Outcome.left, store_store]

/-- The copy a write leaves is invalid after an error; it is the new one after success. -/
theorem copyLeft_error (erase1 : outcomes.erase1.Possible port old port.erased)
    (write1 : outcomes.write1.Possible port port.erased data) :
    ((copyLeft data outcomes.erase1 outcomes.write1).2 = .error ↔ outcomes.FirstFails) ∧
      (outcomes.FirstFails → ¬ Valid port (copyLeft data outcomes.erase1 outcomes.write1).1) := by
  obtain ⟨erase, write, erase2, write2⟩ := outcomes
  cases erase <;> cases write <;>
    simp_all [copyLeft, Outcomes.FirstFails, Outcome.IsError, Outcome.Possible]

theorem copyLeft_success {erase write : Outcome Config}
    (returns : (copyLeft data erase write).2 ≠ .never)
    (noError : (copyLeft data erase write).2 ≠ .error) : (copyLeft data erase write).1 = data := by
  cases erase <;> cases write <;> simp_all [copyLeft]

theorem copyLeft_whole (erase2 : outcomes.erase2.Possible port old port.erased)
    (write2 : outcomes.write2.Possible port port.erased data) (valid : Valid port data) :
    Valid port (copyLeft data outcomes.erase2 outcomes.write2).1 ↔ outcomes.SecondWhole port := by
  obtain ⟨erase1, write1, erase, write⟩ := outcomes
  cases erase <;> cases write <;>
    simp_all [copyLeft, Outcomes.SecondWhole, Outcome.Possible]

/-- A copy that is valid after the two operations on it is the old or the new one. -/
theorem copyLeft_possible {erase write : Outcome Config} {old : PersistentConfigContainer Config}
    (erases : erase.Possible port old port.erased) (writes : write.Possible port port.erased data)
    (valid : Valid port (copyLeft data erase write).1) :
    (copyLeft data erase write).1 = old ∨ (copyLeft data erase write).1 = data := by
  cases erase with
  | success =>
    cases write with
    | success => exact .inr rfl
    | error left => exact absurd valid writes
    | powerLoss left =>
      rcases writes valid with blank | whole
      · exact absurd (blank ▸ valid) not_valid_erased
      · exact .inr whole
  | error left => exact absurd valid erases
  | powerLoss left =>
    rcases erases valid with whole | blank
    · exact .inl whole
    · exact absurd (blank ▸ valid) not_valid_erased

end Writing

/-- The flash after a write: the second copy is left alone only when the power is lost
before its turn. -/
theorem writeToFlashNow_flash (both : BothValid port flash) :
    (port.writeToFlashNow false flash config outcomes).1 =
      let data := port.container config
      let first := copyLeft data outcomes.erase1 outcomes.write1
      let flash' := flash.store port.getFlashAddrFirstCopy first.1
      if first.2 = .never then flash'
      else flash'.store port.getFlashAddrSecondCopy
        (copyLeft data outcomes.erase2 outcomes.write2).1 := by
  simp only [writeToFlashNow, eraseAndFlashCopy_eq both.first, eraseAndFlashCopy_eq both.second,
    both.second, if_false]
  cases (copyLeft (port.container config) outcomes.erase1 outcomes.write1).2 <;>
    cases (copyLeft (port.container config) outcomes.erase2 outcomes.write2).2 <;> rfl

/-- Some copy has to be valid; which ones there can be, the outcomes say. -/
theorem loads_iff {flash' : Flash Config} {wanted : PersistentConfigContainer Config → Prop}
    (both : BothValid port flash)
    (firstCopy : Valid port (flash' port.getFlashAddrFirstCopy) →
      wanted (flash' port.getFlashAddrFirstCopy))
    (secondCopy : Valid port (flash' port.getFlashAddrSecondCopy) →
      wanted (flash' port.getFlashAddrSecondCopy)) :
    (∀ persistentState, ∃ loaded,
        port.readConfiguration flash' persistentState = (.ok, loaded) ∧ wanted loaded) ↔
      Valid port (flash' port.getFlashAddrFirstCopy) ∨
        Valid port (flash' port.getFlashAddrSecondCopy) := by
  by_cases first : Valid port (flash' port.getFlashAddrFirstCopy)
  · refine iff_of_true (fun persistentState => ?_) (.inl first)
    exact ⟨_, readConfiguration_first both.first first, firstCopy first⟩
  by_cases second : Valid port (flash' port.getFlashAddrSecondCopy)
  · refine iff_of_true (fun persistentState => ?_) (.inr second)
    obtain ⟨read, same⟩ := @readConfiguration_second _ _ _ persistentState
      both.second first
    exact ⟨_, same.trans (readOneConfigurationCopy_valid both.second second), secondCopy second⟩
  · refine iff_of_false (fun loads => ?_) (not_or.mpr ⟨first, second⟩)
    obtain ⟨loaded, read, -⟩ := loads port.erased
    obtain ⟨read', same⟩ := @readConfiguration_second _ _ _ port.erased
      both.second first
    rw [same] at read
    exact readOneConfigurationCopy_invalid second (congrArg Prod.fst read)

/-- The tune survives a write exactly if, once the first copy is given up, the second one
does not fail as well. -/
theorem keepsTune_iff (both : BothValid port flash) (possible : outcomes.Possible port flash config)
    (burnWithoutFlash : Bool) :
    KeepsTune port burnWithoutFlash flash config outcomes ↔
      (burnWithoutFlash = false → outcomes.FirstFails → outcomes.SecondWhole port) := by
  cases burnWithoutFlash with
  | true =>
    refine iff_of_true (fun persistentState => ?_) (fun no => by simp at no)
    exact ⟨_, readConfiguration_first both.first both.firstCopy, .inl rfl⟩
  | false =>
    have apart := port.apart.resolve_right both.first
    have written := @writeToFlashNow_flash _ _ _ config outcomes both
    obtain ⟨error, errorInvalid⟩ := copyLeft_error possible.erase1 possible.write1
    have firstPossible := copyLeft_possible possible.erase1 possible.write1
    have secondPossible := copyLeft_possible possible.erase2 possible.write2
    have whole := copyLeft_whole possible.erase2 possible.write2 valid_container
    let first := (copyLeft (port.container config) outcomes.erase1 outcomes.write1).1
    let second := (copyLeft (port.container config) outcomes.erase2 outcomes.write2).1
    rw [KeepsTune, written]
    by_cases lost : (copyLeft (port.container config) outcomes.erase1 outcomes.write1).2 = .never
    · -- the second copy is untouched
      have noError : ¬ outcomes.FirstFails := fun fails => by simp [error.mpr fails] at lost
      simp only [lost, if_true]
      refine (loads_iff both ?_ ?_).trans (iff_of_true (.inr ?_) fun _ fails => absurd fails noError)
      · rw [store_same]
        exact fun valid => (firstPossible valid).imp_right .inr
      · rw [store_other apart.symm]
        exact fun _ => .inr (.inl rfl)
      · rw [store_other apart.symm]
        exact both.secondCopy
    · simp only [lost, if_false]
      have at_first : ((flash.store port.getFlashAddrFirstCopy first).store
          port.getFlashAddrSecondCopy second) port.getFlashAddrFirstCopy = first := by
        rw [store_other apart, store_same]
      refine (loads_iff both ?_ ?_).trans ?_
      · rw [at_first]
        exact fun valid => (firstPossible valid).imp_right .inr
      · rw [store_same]
        exact fun valid => .inr (secondPossible valid)
      · rw [at_first, store_same]
        constructor
        · rintro (valid | valid) - fails
          · exact absurd valid (errorInvalid fails)
          · exact whole.mp valid
        · intro meets
          by_cases fails : outcomes.FirstFails
          · exact .inr (whole.mpr (meets trivial fails))
          · refine .inl ?_
            rw [show first = port.container config from copyLeft_success lost (mt error.mp fails)]
            exact valid_container

section Failing

/-- A configuration of one byte, with a checksum that tells all of them apart. -/
def tinyPort : Port UInt8 where
  singleCrc := fun config => config.toUInt32
  flashDataVersion := 1
  sizeofPersistentState := 1
  getFlashAddrFirstCopy := 1
  getFlashAddrSecondCopy := 2
  erased := ⟨-1, -1, 0xFF, 0xFFFFFFFF⟩
  erased_version := by decide
  apart := by decide

def tinyFlash : Flash UInt8 := fun _ => tinyPort.container 7

theorem tinyFlash_bothValid : BothValid tinyPort tinyFlash :=
  ⟨by decide, by decide, valid_container, valid_container⟩

/-- Both programs end with an error. -/
def bothFail : Outcomes UInt8 where
  erase1 := .success
  write1 := .error tinyPort.erased
  erase2 := .success
  write2 := .error tinyPort.erased

theorem bothFail_possible : bothFail.Possible tinyPort tinyFlash 8 :=
  ⟨trivial, not_valid_erased, trivial, not_valid_erased⟩

theorem keepsTune_iff_bothFail :
    BothValid tinyPort tinyFlash ∧ bothFail.Possible tinyPort tinyFlash 8 ∧
      (KeepsTune tinyPort false tinyFlash 8 bothFail ↔
        (false = false → bothFail.FirstFails → bothFail.SecondWhole tinyPort)) :=
  ⟨tinyFlash_bothValid, bothFail_possible,
    keepsTune_iff tinyFlash_bothValid bothFail_possible false⟩

/-- The second copy is erased although the first one is already lost. -/
theorem bothFail_losesTune : ¬ KeepsTune tinyPort false tinyFlash 8 bothFail := by
  intro keeps
  obtain ⟨loaded, read, -⟩ := keeps tinyPort.erased
  have failed : (tinyPort.readConfiguration
      (tinyPort.writeToFlashNow false tinyFlash 8 bothFail).1 tinyPort.erased).1 ≠ .ok := by
    decide +kernel
  exact failed (congrArg Prod.fst read)

end Failing

end FomeFw.Flash
