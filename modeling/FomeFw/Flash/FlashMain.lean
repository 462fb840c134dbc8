/-! `flash_main.cpp` for internal flash: the configuration is stored in two copies, each
with its own checksum. A copy is what `intFlashRead` gets at its address; what an
operation of the flash driver leaves there comes with its outcome. -/
namespace FomeFw.Flash

/-- `persistent_config_container_s`. -/
structure PersistentConfigContainer (Config : Type) where
  version : Int
  size : Int
  persistentConfiguration : Config
  value : UInt32

/-- What build and port provide. Address 0 stands for no copy. -/
structure Port (Config : Type) where
  /-- Checksum over the bytes of a configuration. -/
  singleCrc : Config → UInt32
  flashDataVersion : Int
  sizeofPersistentState : Int
  getFlashAddrFirstCopy : Nat
  getFlashAddrSecondCopy : Nat
  /-- Erased flash, read as a container: all bits are set. -/
  erased : PersistentConfigContainer Config
  erased_version : erased.version ≠ flashDataVersion
  /-- The copies are in different sectors. -/
  apart : getFlashAddrFirstCopy ≠ getFlashAddrSecondCopy ∨ getFlashAddrFirstCopy = 0

inductive FlashState where
  | ok
  | crcFailed
  | incompatibleVersion
  /-- All is well, but the chip is fresh with blank memory. -/
  | blankChip
  deriving DecidableEq, Repr

/-- How an erase or a program ends: as it should, with an error code, or not at all
because the power is lost. Then, and on an error, anything may be left behind. -/
inductive Outcome (Config : Type) where
  | success
  | error (left : PersistentConfigContainer Config)
  | powerLoss (left : PersistentConfigContainer Config)

/-- The outcomes of the four operations of one `writeToFlashNow`. -/
structure Outcomes (Config : Type) where
  erase1 : Outcome Config
  write1 : Outcome Config
  erase2 : Outcome Config
  write2 : Outcome Config

/-- How a function that writes to flash comes back. -/
inductive Returned where
  | success
  | error
  | never
  deriving DecidableEq, Repr

variable {Config : Type}

abbrev Flash (Config : Type) := Nat → PersistentConfigContainer Config

def Flash.store (flash : Flash Config) (address : Nat) (data : PersistentConfigContainer Config) :
    Flash Config :=
  fun a => if a = address then data else flash a

/-- What is at the address after an operation that should leave `whole` there. -/
def Outcome.left (outcome : Outcome Config) (whole : PersistentConfigContainer Config) :
    PersistentConfigContainer Config :=
  match outcome with
  | success => whole
  | error left => left
  | powerLoss left => left

namespace Port
variable (port : Port Config)

/-- `flashStateCrc`. -/
def flashStateCrc (state : PersistentConfigContainer Config) : UInt32 :=
  port.singleCrc state.persistentConfiguration

/-- `eraseAndFlashCopy`, with the outcomes of its erase and its program. -/
def eraseAndFlashCopy (flash : Flash Config) (storageAddress : Nat)
    (data : PersistentConfigContainer Config) (erase write : Outcome Config) :
    Flash Config × Returned :=
  if storageAddress = 0 then (flash, .success)
  else
    let flash := flash.store storageAddress (erase.left port.erased)
    match erase with
    | .powerLoss _ => (flash, .never)
    | .error _ => (flash, .error)
    | .success =>
      let flash := flash.store storageAddress (write.left data)
      match write with
      | .powerLoss _ => (flash, .never)
      | .error _ => (flash, .error)
      | .success => (flash, .success)

/-- The container that `writeToFlashNow` sets up around the live configuration. -/
def container (config : Config) : PersistentConfigContainer Config where
  size := port.sizeofPersistentState
  version := port.flashDataVersion
  persistentConfiguration := config
  value := port.singleCrc config

/-- `writeToFlashNow`. Errors of the first copy are only remembered for the message. -/
def writeToFlashNow (burnWithoutFlash : Bool) (flash : Flash Config) (config : Config)
    (outcomes : Outcomes Config) : Flash Config × Returned :=
  let persistentState := port.container config
  if burnWithoutFlash then (flash, .success)
  else match port.eraseAndFlashCopy flash port.getFlashAddrFirstCopy persistentState outcomes.erase1
      outcomes.write1 with
  | (flash, .never) => (flash, .never)
  | (flash, result1) =>
    if port.getFlashAddrSecondCopy = 0 then (flash, result1)
    else
      match port.eraseAndFlashCopy flash port.getFlashAddrSecondCopy persistentState
          outcomes.erase2 outcomes.write2 with
      | (flash, .never) => (flash, .never)
      | (flash, result2) =>
        (flash, if result1 = .success ∧ result2 = .success then .success else .error)

/-- `readOneConfigurationCopy`, with what it leaves in `persistentState`. -/
def readOneConfigurationCopy (flash : Flash Config) (address : Nat)
    (persistentState : PersistentConfigContainer Config) :
    FlashState × PersistentConfigContainer Config :=
  if address = 0 then (.blankChip, persistentState)
  else
    let persistentState := flash address
    let flashCrc := port.flashStateCrc persistentState
    if flashCrc ≠ persistentState.value then
      if persistentState.value = 0xFFFFFFFF then (.blankChip, persistentState)
      else (.crcFailed, persistentState)
    else if persistentState.version ≠ port.flashDataVersion ∨
        persistentState.size ≠ port.sizeofPersistentState then
      (.incompatibleVersion, persistentState)
    else (.ok, persistentState)

/-- `readConfiguration`: the second copy is only looked at if the first is not in order. -/
def readConfiguration (flash : Flash Config) (persistentState : PersistentConfigContainer Config) :
    FlashState × PersistentConfigContainer Config :=
  match port.readOneConfigurationCopy flash port.getFlashAddrFirstCopy persistentState with
  | (.ok, persistentState) => (.ok, persistentState)
  | (firstCopy, persistentState) =>
    if port.getFlashAddrSecondCopy = 0 then (firstCopy, persistentState)
    else port.readOneConfigurationCopy flash port.getFlashAddrSecondCopy persistentState

end Port

end FomeFw.Flash
