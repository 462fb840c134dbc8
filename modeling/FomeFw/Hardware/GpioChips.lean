import FomeFw.Hardware.PinRepository
import FomeFw.Lib.Machine
import Mathlib.Data.List.Pairwise
import Mathlib.Data.List.Perm.Basic
import Mathlib.Data.Rat.Floor

/-! The external GPIO chips, `drivers/gpio/core.cpp`: a table with a fixed number of places, of
chips that take a range of pin numbers each. -/
namespace FomeFw.Hardware
open Machine

/-- `struct gpiochip`; a place is free when its base is unassigned. -/
structure Gpiochip where
  base : Nat := Gpio.Unassigned
  size : Nat := 0
  chip : Option Nat := none
  name : Option String := none
  deriving DecidableEq

/-- `operator+(Gpio, size_t)`, back in the 16 bits of a pin. -/
def Gpio.add (a b : Nat) : Nat := (a + b) % 2 ^ 32 % 2 ^ 16

/-- `operator-(Gpio, size_t)`. -/
def Gpio.sub (a b : Nat) : Nat := (a + 2 ^ 32 - b) % 2 ^ 32 % 2 ^ 16

namespace Gpiochip

/-- The comparison that `gpiochip_find` makes. -/
def covers (c : Gpiochip) (pin : Nat) : Bool :=
  decide (pin ≥ c.base) && decide (pin < Gpio.add c.base c.size)

end Gpiochip

/-- The macro `in_range`. -/
def inRange (a b c : Nat) : Bool := decide (a > b) && decide (a < c)

/-- `gpiochip_find`. -/
def gpiochipFind (chips : List Gpiochip) (pin : Nat) : Option Gpiochip :=
  chips.find? (·.covers pin)

/-- The check for overlap with other chips. -/
def overlaps (chips : List Gpiochip) (base size : Nat) : Bool :=
  chips.any fun c => decide (c.base ≠ Gpio.Unassigned) &&
    (inRange base c.base (Gpio.add c.base c.size) ||
      inRange (Gpio.add base size) c.base (Gpio.add c.base c.size))

/-- The first free place is taken. -/
def storeFirstFree (new : Gpiochip) : List Gpiochip → Option (List Gpiochip)
  | [] => none
  | c :: chips =>
    if c.base = Gpio.Unassigned then some (new :: chips)
    else (storeFirstFree new chips).map (c :: ·)

/-- The result is the base, or -1 with nothing changed. -/
def gpiochipRegister (chips : List Gpiochip) (new : Gpiochip) : Int × List Gpiochip :=
  if new.size = 0 then (-1, chips)
  else if Gpio.sub (Gpio.add new.base new.size) 1 > Gpio.last ∨ new.base ≤ Gpio.onchipLast then
    (-1, chips)
  else if overlaps chips new.base new.size then (-1, chips)
  else
    match storeFirstFree new chips with
    | none => (-1, chips)
    | some chips => (new.base, chips)

/-- The place that is found is cleared. -/
def clearFound (pin : Nat) : List Gpiochip → List Gpiochip
  | [] => []
  | c :: chips => if c.covers pin then {} :: chips else c :: clearFound pin chips

def gpiochipUnregister (chips : List Gpiochip) (base : Nat) : Int × List Gpiochip :=
  match gpiochipFind chips base with
  | none => (-1, chips)
  | some c => if c.base ≠ base then (-1, chips) else (0, clearFound base chips)

/-- One round of the loop in `gpiochips_init`; `init` is what the chip returns. -/
def gpiochipInit (init : Gpiochip → Int) (c : Gpiochip) : Gpiochip :=
  if c.base = Gpio.Unassigned then c
  else if init c < 0 then { c with base := Gpio.Unassigned }
  else c

/-- The result is the number of pins added. -/
def gpiochipsInit (chips : List Gpiochip) (init : Gpiochip → Int) : Int × List Gpiochip :=
  (((chips.filter fun c => decide (c.base ≠ Gpio.Unassigned) && decide (init c ≥ 0)).map
      fun c => (c.size : Int)).sum,
    chips.map (gpiochipInit init))

inductive GpioCall where
  | gpiochipRegister (base : BitVec 16) (name : String) (chip : Nat) (size : BitVec 32)
  | gpiochipUnregister (base : BitVec 16)
  | gpiochipsInit (init : Gpiochip → Int)

def Gpiochip.of (base : BitVec 16) (name : String) (chip : Nat) (size : BitVec 32) : Gpiochip :=
  ⟨base.toNat, size.toNat, some chip, some name⟩

/-- The table, and the chips that were registered and neither unregistered since nor failed. -/
structure GpioHistory where
  chips : List Gpiochip
  registered : List Gpiochip := []

/-- The pin is in the range of the chip. -/
def Gpiochip.Spans (c : Gpiochip) (pin : Nat) : Prop := c.base ≤ pin ∧ pin < c.base + c.size

def Gpiochip.Apart (c d : Gpiochip) : Prop := c.base + c.size ≤ d.base ∨ d.base + d.size ≤ c.base

/-- The checks of `gpiochip_register` that come before the table is written. -/
def Admits (chips : List Gpiochip) (base size : Nat) : Prop :=
  size ≠ 0 ∧ ¬(Gpio.sub (Gpio.add base size) 1 > Gpio.last ∨ base ≤ Gpio.onchipLast) ∧
    overlaps chips base size = false ∧ ∃ c ∈ chips, c.base = Gpio.Unassigned

namespace GpioHistory

/-- Every place is free. -/
def start (places : Nat) : GpioHistory where
  chips := List.replicate places {}

def step (h : GpioHistory) : GpioCall → GpioHistory
  | .gpiochipRegister base name chip size =>
    let (result, chips) := gpiochipRegister h.chips (.of base name chip size)
    { chips
      registered :=
        if result = -1 then h.registered else h.registered ++ [.of base name chip size] }
  | .gpiochipUnregister base =>
    let (result, chips) := gpiochipUnregister h.chips base.toNat
    { chips
      registered :=
        if result = 0 then h.registered.filter (·.base ≠ base.toNat) else h.registered }
  | .gpiochipsInit init =>
    { chips := (gpiochipsInit h.chips init).2
      registered := h.registered.filter fun c => decide (init c ≥ 0) }

/-- The registered chips share no pin; each of their pins leads to its chip, and no other pin,
on the chip or around it, leads to any. -/
structure OwnRanges (h : GpioHistory) : Prop where
  disjoint : h.registered.Pairwise Gpiochip.Apart
  resolves : ∀ pin, Gpio.A0 ≤ pin → pin < 2 ^ 16 → ∀ c ∈ h.registered, c.Spans pin →
    gpiochipFind h.chips pin = some c
  unowned : ∀ pin, Gpio.A0 ≤ pin → pin < 2 ^ 16 → (∀ c ∈ h.registered, ¬c.Spans pin) →
    gpiochipFind h.chips pin = none

/-- A chip that is admitted has no end beyond 16 bits, shares its base with none, and has none
between its base and its end; a chip that fails to initialize has at most as many pins as there
are numbers before the first one. -/
def Sound (h : GpioHistory) : GpioCall → Prop
  | .gpiochipRegister base _ _ size =>
    Admits h.chips base.toNat size.toNat →
      base.toNat + size.toNat < 2 ^ 16 ∧
        ∀ c ∈ h.chips, c.base ≠ Gpio.Unassigned → base.toNat ≠ c.base ∧
          ¬(base.toNat < c.base ∧ c.base + c.size ≤ base.toNat + size.toNat)
  | .gpiochipUnregister _ => True
  | .gpiochipsInit init =>
    ∀ c ∈ h.chips, c.base ≠ Gpio.Unassigned → init c < 0 → c.size ≤ Gpio.A0

/-- The table holds the registered chips, which lie within the external pins, and leftovers that
cover no pin. -/
structure Tabled (h : GpioHistory) : Prop where
  used : (h.chips.filter (·.base ≠ Gpio.Unassigned)).Perm h.registered
  disjoint : h.registered.Pairwise Gpiochip.Apart
  external : ∀ c ∈ h.registered, Gpio.onchipLast < c.base ∧ 0 < c.size ∧
    c.base + c.size ≤ Gpio.last + 1
  leftover : ∀ c ∈ h.chips, c.base = Gpio.Unassigned → c.size ≤ Gpio.A0

end GpioHistory

section Table
variable {c new : Gpiochip} {chips chips' : List Gpiochip} {pin : Nat}

theorem Gpio.add_of_lt {a b : Nat} (small : a + b < 2 ^ 16) : Gpio.add a b = a + b := by
  rw [Gpio.add, Nat.mod_eq_of_lt (show a + b < 2 ^ 32 by omega), Nat.mod_eq_of_lt small]

theorem Gpio.add_lt (a b : Nat) : Gpio.add a b < 2 ^ 16 := Nat.mod_lt _ (by decide)

theorem covers_iff (small : c.base + c.size < 2 ^ 16) : c.covers pin = true ↔ c.Spans pin := by
  simp [Gpiochip.covers, Gpiochip.Spans, Gpio.add_of_lt small]

theorem storeFirstFree_some (stored : storeFirstFree new chips = some chips') :
    ∃ before free after, chips = before ++ free :: after ∧ chips' = before ++ new :: after ∧
      free.base = Gpio.Unassigned := by
  induction chips generalizing chips' with
  | nil => cases stored
  | cons c chips ih =>
    unfold storeFirstFree at stored
    split at stored
    · next free =>
      obtain rfl := Option.some.inj stored
      exact ⟨[], c, chips, rfl, rfl, free⟩
    · obtain ⟨rest, inner, rfl⟩ := Option.map_eq_some_iff.mp stored
      obtain ⟨before, free, after, rfl, rfl, unassigned⟩ := ih inner
      exact ⟨c :: before, free, after, rfl, rfl, unassigned⟩

theorem storeFirstFree_isSome :
    (storeFirstFree new chips).isSome ↔ ∃ c ∈ chips, c.base = Gpio.Unassigned := by
  induction chips with
  | nil => simp [storeFirstFree]
  | cons c chips ih =>
    unfold storeFirstFree
    by_cases free : c.base = Gpio.Unassigned
    · simp [free]
    · simp [free, ih]

theorem clearFound_some (found : gpiochipFind chips pin = some c) :
    ∃ before after, chips = before ++ c :: after ∧ clearFound pin chips = before ++ {} :: after := by
  induction chips with
  | nil => cases found
  | cons d chips ih =>
    unfold clearFound
    by_cases here : d.covers pin = true
    · simp only [gpiochipFind, List.find?_cons, here, Option.some.injEq] at found
      subst found
      exact ⟨[], chips, rfl, if_pos here⟩
    · simp only [gpiochipFind, List.find?_cons, Bool.not_eq_true] at found here
      rw [here] at found
      obtain ⟨before, after, rfl, cleared⟩ := ih found
      exact ⟨d :: before, after, rfl, by simp [here, cleared]⟩

end Table

namespace GpioHistory
namespace Tabled
variable {h : GpioHistory} {c d : Gpiochip} {pin : Nat}

theorem mem_registered (tabled : h.Tabled) :
    c ∈ h.registered ↔ c ∈ h.chips ∧ c.base ≠ Gpio.Unassigned := by
  rw [← tabled.used.mem_iff, List.mem_filter]
  simp

/-- What covers a pin is registered. -/
theorem covers_registered (tabled : h.Tabled) (first : Gpio.A0 ≤ pin) (member : c ∈ h.chips)
    (covers : c.covers pin = true) : c ∈ h.registered ∧ c.Spans pin := by
  have two : Gpio.A0 = 2 := rfl
  have all : Gpio.last = 272 := rfl
  by_cases free : c.base = Gpio.Unassigned
  · have little := tabled.leftover c member free
    have zero : Gpio.Unassigned = 0 := rfl
    have within := ((covers_iff (by omega)).mp covers).2
    omega
  · have registered := tabled.mem_registered.mpr ⟨member, free⟩
    obtain ⟨-, -, inside⟩ := tabled.external c registered
    exact ⟨registered, (covers_iff (by omega)).mp covers⟩

theorem eq_of_spans (tabled : h.Tabled) (one : c ∈ h.registered) (two : d ∈ h.registered)
    (first : c.Spans pin) (second : d.Spans pin) : c = d := by
  by_contra differ
  have symmetric : Std.Symm Gpiochip.Apart := ⟨fun _ _ apart => apart.symm⟩
  have apart : c.Apart d := List.Pairwise.forall tabled.disjoint one two differ
  unfold Gpiochip.Spans Gpiochip.Apart at *
  omega

theorem ownRanges (tabled : h.Tabled) : h.OwnRanges := by
  have all : Gpio.last = 272 := rfl
  refine ⟨tabled.disjoint, ?_, ?_⟩
  · intro pin first small c registered spans
    obtain ⟨-, -, inside⟩ := tabled.external c registered
    have member := (tabled.mem_registered.mp registered).1
    have covers : c.covers pin = true := (covers_iff (by omega)).mpr spans
    cases found : gpiochipFind h.chips pin with
    | none => exact absurd covers (List.find?_eq_none.mp found c member)
    | some d =>
      have here := List.find?_some found
      obtain ⟨other, within⟩ := tabled.covers_registered first (List.mem_of_find?_eq_some found) here
      rw [tabled.eq_of_spans registered other spans within]
  · intro pin first small nobody
    refine List.find?_eq_none.mpr ?_
    intro c member covers
    obtain ⟨registered, spans⟩ := tabled.covers_registered first member covers
    exact nobody c registered spans

/-- What the check misses: equal bases, and chips between the ends of the new one. -/
theorem apart_iff (tabled : h.Tabled) {base size : Nat} (some : 0 < size)
    (small : base + size < 2 ^ 16) (admitted : overlaps h.chips base size = false)
    (registered : c ∈ h.registered) :
    (c.base + c.size ≤ base ∨ base + size ≤ c.base) ↔
      base ≠ c.base ∧ ¬(base < c.base ∧ c.base + c.size ≤ base + size) := by
  have all : Gpio.last = 272 := rfl
  obtain ⟨-, positive, inside⟩ := tabled.external c registered
  obtain ⟨member, used⟩ := tabled.mem_registered.mp registered
  have checked := List.any_eq_false.mp admitted c member
  rw [Gpio.add_of_lt (show c.base + c.size < 2 ^ 16 by omega), Gpio.add_of_lt small] at checked
  simp only [inRange, used, ne_eq, not_false_eq_true, decide_true, Bool.true_and, Bool.or_eq_true,
    Bool.and_eq_true, decide_eq_true_eq, not_or, not_and, Nat.not_lt] at checked
  omega

end Tabled

variable {h : GpioHistory} {base : BitVec 16} {name : String} {chip : Nat} {size : BitVec 32}

theorem gpiochipRegister_admits {chips : List Gpiochip} {new : Gpiochip}
    (admits : Admits chips new.base new.size) :
    ∃ chips', storeFirstFree new chips = some chips' ∧
      gpiochipRegister chips new = ((new.base : Int), chips') := by
  obtain ⟨pins, inside, apart, free⟩ := admits
  obtain ⟨chips', stored⟩ := Option.isSome_iff_exists.mp (storeFirstFree_isSome.mpr free)
  refine ⟨chips', stored, ?_⟩
  rw [gpiochipRegister, if_neg pins, if_neg inside, if_neg (by simp [apart]), stored]

theorem gpiochipRegister_refuses {chips : List Gpiochip} {new : Gpiochip}
    (refuses : ¬Admits chips new.base new.size) : gpiochipRegister chips new = (-1, chips) := by
  unfold gpiochipRegister
  split
  · rfl
  · next pins =>
    split
    · rfl
    · next inside =>
      split
      · rfl
      · next apart =>
        cases stored : storeFirstFree new chips with
        | none => rfl
        | some chips' =>
          have free := storeFirstFree_isSome.mp (Option.isSome_of_eq_some stored)
          exact absurd ⟨pins, inside, by simpa using apart, free⟩ refuses

theorem step_admits (admits : Admits h.chips base.toNat size.toNat) :
    ∃ before free after, h.chips = before ++ free :: after ∧ free.base = Gpio.Unassigned ∧
      h.step (.gpiochipRegister base name chip size) =
        ⟨before ++ .of base name chip size :: after,
          h.registered ++ [.of base name chip size]⟩ := by
  obtain ⟨chips', stored, registers⟩ :=
    @gpiochipRegister_admits h.chips (.of base name chip size) admits
  obtain ⟨before, free, after, shape, rfl, unassigned⟩ := storeFirstFree_some stored
  refine ⟨before, free, after, shape, unassigned, ?_⟩
  have result : ((Gpiochip.of base name chip size).base : Int) ≠ -1 := by omega
  simp only [step, registers, if_neg result]

theorem step_refuses (refuses : ¬Admits h.chips base.toNat size.toNat) :
    h.step (.gpiochipRegister base name chip size) = h := by
  simp only [step, @gpiochipRegister_refuses h.chips (.of base name chip size) refuses, if_true]

theorem Tabled.register (tabled : h.Tabled)
    (sound : h.Sound (.gpiochipRegister base name chip size)) :
    (h.step (.gpiochipRegister base name chip size)).Tabled := by
  by_cases admits : Admits h.chips base.toNat size.toNat
  · obtain ⟨small, separate⟩ := sound admits
    obtain ⟨before, free, after, shape, unassigned, stored⟩ :=
      @step_admits h base name chip size admits
    obtain ⟨pins, inside, apart, -⟩ := admits
    rw [stored]
    have own : Gpio.onchipLast < base.toNat := by
      have high := not_or.mp inside
      omega
    have first : Gpio.onchipLast = 145 := rfl
    have zero : Gpio.Unassigned = 0 := rfl
    have used : (Gpiochip.of base name chip size).base ≠ Gpio.Unassigned := by
      show base.toNat ≠ _
      omega
    refine ⟨?_, ?_, ?_, ?_⟩
    · have old := tabled.used
      rw [shape, List.filter_append, List.filter_cons_of_neg (by simpa using unassigned)] at old
      rw [List.filter_append, List.filter_cons_of_pos (by simpa using used)]
      refine List.perm_middle.trans ?_
      exact (old.cons _).trans (List.perm_append_singleton _ _).symm
    · refine List.pairwise_append.mpr ⟨tabled.disjoint, List.pairwise_singleton _ _, ?_⟩
      intro c registered d new
      obtain rfl := List.mem_singleton.mp new
      have there := tabled.mem_registered.mp registered
      exact (tabled.apart_iff (Nat.pos_of_ne_zero pins) small apart registered).mpr
        (separate c there.1 there.2)
    · intro c member
      rcases List.mem_append.mp member with old | new
      · exact tabled.external c old
      · obtain rfl := List.mem_singleton.mp new
        refine ⟨own, Nat.pos_of_ne_zero pins, ?_⟩
        rw [Gpio.add_of_lt small] at inside
        have end_ : Gpio.sub (base.toNat + size.toNat) 1 = base.toNat + size.toNat - 1 := by
          rw [Gpio.sub]
          omega
        show base.toNat + size.toNat ≤ _
        omega
    · intro c member unassigned'
      rcases List.mem_append.mp member with old | behind
      · exact tabled.leftover c (by rw [shape]; exact List.mem_append_left _ old) unassigned'
      · rcases List.mem_cons.mp behind with rfl | old
        · exact absurd unassigned' used
        · refine tabled.leftover c ?_ unassigned'
          rw [shape]
          exact List.mem_append_right _ (List.mem_cons_of_mem _ old)
  · rw [step_refuses admits]
    exact tabled

/-- The bases of different places differ, where they are assigned. -/
theorem Tabled.base_ne (tabled : h.Tabled) {before after : List Gpiochip} {c d : Gpiochip}
    (shape : h.chips = before ++ c :: after) (other : d ∈ before ++ after)
    (used : d.base ≠ Gpio.Unassigned) : d.base ≠ c.base := by
  intro same
  have order : (h.chips.filter (·.base ≠ Gpio.Unassigned)).Pairwise Gpiochip.Apart :=
    tabled.used.symm.pairwise tabled.disjoint (fun apart => apart.symm)
  have usedC : c.base ≠ Gpio.Unassigned := same ▸ used
  have moved : h.chips.Perm (c :: (before ++ after)) := shape ▸ List.perm_middle
  have order' := (moved.filter (·.base ≠ Gpio.Unassigned)).pairwise order (fun apart => apart.symm)
  rw [List.filter_cons_of_pos (by simpa using usedC)] at order'
  have apart := (List.pairwise_cons.mp order').1 d
    (List.mem_filter.mpr ⟨other, by simpa using used⟩)
  obtain ⟨-, positiveC, -⟩ := tabled.external c (tabled.mem_registered.mpr ⟨by simp [shape], usedC⟩)
  have member : d ∈ h.chips := moved.mem_iff.mpr (List.mem_cons_of_mem _ other)
  obtain ⟨-, positive, -⟩ := tabled.external d (tabled.mem_registered.mpr ⟨member, used⟩)
  unfold Gpiochip.Apart at apart
  omega

theorem step_unregisters {c : Gpiochip} (found : gpiochipFind h.chips base.toNat = some c)
    (own : c.base = base.toNat) :
    h.step (.gpiochipUnregister base) =
      ⟨clearFound base.toNat h.chips, h.registered.filter (·.base ≠ base.toNat)⟩ := by
  have result : gpiochipUnregister h.chips base.toNat = (0, clearFound base.toNat h.chips) := by
    simp [gpiochipUnregister, found, own]
  simp only [step, result, if_true]

theorem step_unregister_none
    (refused : ∀ c, gpiochipFind h.chips base.toNat = some c → c.base ≠ base.toNat) :
    h.step (.gpiochipUnregister base) = h := by
  have result : gpiochipUnregister h.chips base.toNat = (-1, h.chips) := by
    unfold gpiochipUnregister
    cases found : gpiochipFind h.chips base.toNat with
    | none => rfl
    | some c => exact if_pos (refused c found)
  simp [step, result]

theorem Tabled.unregister (tabled : h.Tabled) : (h.step (.gpiochipUnregister base)).Tabled := by
  by_cases refused : ∀ c, gpiochipFind h.chips base.toNat = some c → c.base ≠ base.toNat
  · rw [step_unregister_none refused]
    exact tabled
  simp only [not_forall, not_not] at refused
  obtain ⟨c, found, own⟩ := refused
  obtain ⟨before, after, shape, cleared⟩ := clearFound_some found
  rw [step_unregisters found own, cleared]
  have others : ∀ d ∈ before ++ after, d.base ≠ Gpio.Unassigned → d.base ≠ base.toNat :=
    fun d other used => own ▸ tabled.base_ne shape other used
  have kept : ∀ l : List Gpiochip, (∀ d ∈ l, d ∈ before ++ after) →
      (l.filter (·.base ≠ Gpio.Unassigned)).filter (·.base ≠ base.toNat) =
        l.filter (·.base ≠ Gpio.Unassigned) := by
    intro l inside
    refine List.filter_eq_self.mpr ?_
    intro d member
    obtain ⟨there, used⟩ := List.mem_filter.mp member
    simpa using others d (inside d there) (by simpa using used)
  have left : (before ++ {} :: after).filter (·.base ≠ Gpio.Unassigned) =
      (h.chips.filter (·.base ≠ Gpio.Unassigned)).filter (·.base ≠ base.toNat) := by
    have front := kept before (fun d member => List.mem_append_left _ member)
    have rear := kept after (fun d member => List.mem_append_right _ member)
    rw [shape, List.filter_append, List.filter_append, List.filter_append, front,
      List.filter_cons_of_neg (by simp)]
    by_cases used : c.base ≠ Gpio.Unassigned
    · rw [List.filter_cons_of_pos (by simpa using used), List.filter_cons_of_neg (by simpa using own),
        rear]
    · rw [List.filter_cons_of_neg (by simpa using used), rear]
  refine ⟨?_, tabled.disjoint.sublist List.filter_sublist, ?_, ?_⟩
  · rw [left]
    exact tabled.used.filter _
  · intro d member
    exact tabled.external d (List.mem_of_mem_filter member)
  · intro d member unassigned
    rcases List.mem_append.mp member with old | behind
    · exact tabled.leftover d (by rw [shape]; exact List.mem_append_left _ old) unassigned
    · rcases List.mem_cons.mp behind with rfl | old
      · exact Nat.zero_le _
      · refine tabled.leftover d ?_ unassigned
        rw [shape]
        exact List.mem_append_right _ (List.mem_cons_of_mem _ old)

theorem filter_map_gpiochipInit (init : Gpiochip → Int) (chips : List Gpiochip) :
    (chips.map (gpiochipInit init)).filter (·.base ≠ Gpio.Unassigned) =
      (chips.filter (·.base ≠ Gpio.Unassigned)).filter fun c => decide (init c ≥ 0) := by
  induction chips with
  | nil => rfl
  | cons c chips ih =>
    rw [List.map_cons]
    by_cases free : c.base = Gpio.Unassigned
    · have same : gpiochipInit init c = c := if_pos free
      rw [same, List.filter_cons_of_neg (by simpa using free),
        List.filter_cons_of_neg (by simpa using free), ih]
    · rw [List.filter_cons_of_pos (p := fun d => decide (d.base ≠ Gpio.Unassigned)) (a := c)
        (by simpa using free)]
      by_cases fails : init c < 0
      · have gone : gpiochipInit init c = { c with base := Gpio.Unassigned } := by
          rw [gpiochipInit, if_neg free, if_pos fails]
        rw [gone, List.filter_cons_of_neg (by simp), List.filter_cons_of_neg (by simpa using fails), ih]
      · have same : gpiochipInit init c = c := by rw [gpiochipInit, if_neg free, if_neg fails]
        rw [same, List.filter_cons_of_pos (by simpa using free),
          List.filter_cons_of_pos (by simpa using fails), ih]

theorem Tabled.init (tabled : h.Tabled) {init : Gpiochip → Int}
    (sound : h.Sound (.gpiochipsInit init)) : (h.step (.gpiochipsInit init)).Tabled := by
  refine ⟨?_, tabled.disjoint.sublist List.filter_sublist, ?_, ?_⟩
  · rw [step, gpiochipsInit, filter_map_gpiochipInit]
    exact tabled.used.filter _
  · intro c member
    exact tabled.external c (List.mem_of_mem_filter member)
  · intro d member unassigned
    obtain ⟨c, there, rfl⟩ := List.mem_map.mp member
    by_cases free : c.base = Gpio.Unassigned
    · have same : gpiochipInit init c = c := if_pos free
      rw [same]
      exact tabled.leftover c there free
    · by_cases fails : init c < 0
      · have gone : gpiochipInit init c = { c with base := Gpio.Unassigned } := by
          rw [gpiochipInit, if_neg free, if_pos fails]
        rw [gone]
        exact sound c there free fails
      · have same : gpiochipInit init c = c := by rw [gpiochipInit, if_neg free, if_neg fails]
        exact absurd (same ▸ unassigned) free

theorem Tabled.step {call : GpioCall} (tabled : h.Tabled) (sound : h.Sound call) :
    (h.step call).Tabled := by
  cases call with
  | gpiochipRegister base name chip size => exact tabled.register sound
  | gpiochipUnregister base => exact tabled.unregister
  | gpiochipsInit init => exact tabled.init sound

/-- What one step needs: an unsound call leaves a pin with the wrong chip, or two chips with one
pin. -/
theorem Tabled.needs {call : GpioCall} (tabled : h.Tabled) (after : (h.step call).OwnRanges) :
    h.Sound call := by
  have all : Gpio.last = 272 := rfl
  have chipLast : Gpio.onchipLast = 145 := rfl
  cases call with
  | gpiochipUnregister base => trivial
  | gpiochipRegister base name chip size =>
    intro admits
    obtain ⟨before, free, behind, shape, unassigned, stored⟩ :=
      @step_admits h base name chip size admits
    rw [stored] at after
    have new : Gpiochip.of base name chip size ∈ h.registered ++ [.of base name chip size] := by simp
    have small : base.toNat + size.toNat < 2 ^ 16 := by
      by_contra large
      have resolved := after.resolves (2 ^ 16 - 1) (by decide) (by decide) _ new
        ⟨show base.toNat ≤ 2 ^ 16 - 1 by omega,
          show 2 ^ 16 - 1 < base.toNat + size.toNat by omega⟩
      have covers := List.find?_some resolved
      have limit := Gpio.add_lt base.toNat size.toNat
      have beyond : 2 ^ 16 - 1 < Gpio.add base.toNat size.toNat :=
        of_decide_eq_true (Bool.and_eq_true_iff.mp covers).2
      omega
    refine ⟨small, ?_⟩
    intro c member used
    obtain ⟨pins, -, apart, -⟩ := admits
    have registered := tabled.mem_registered.mpr ⟨member, used⟩
    have separate := (List.pairwise_append.mp after.disjoint).2.2 c registered _
      (List.mem_singleton_self _)
    exact (tabled.apart_iff (Nat.pos_of_ne_zero pins) small apart registered).mp separate
  | gpiochipsInit init =>
    intro c member used fails
    by_contra many
    have none := after.unowned Gpio.A0 (Nat.le_refl _) (by decide) (by
      intro d registered spans
      obtain ⟨external, -, -⟩ := tabled.external d (List.mem_of_mem_filter registered)
      have low : d.base ≤ 2 := spans.1
      omega)
    obtain ⟨-, -, inside⟩ := tabled.external c (tabled.mem_registered.mpr ⟨member, used⟩)
    have gone : gpiochipInit init c = { c with base := Gpio.Unassigned } := by
      rw [gpiochipInit, if_neg used, if_pos fails]
    have left : gpiochipInit init c ∈ h.chips.map (gpiochipInit init) := List.mem_map_of_mem member
    have uncovered := List.find?_eq_none.mp none _ left
    rw [gone, covers_iff (show 0 + c.size < 2 ^ 16 by omega)] at uncovered
    exact uncovered ⟨Nat.zero_le _, show 2 < 0 + c.size by
      have two : Gpio.A0 = 2 := rfl
      omega⟩

/-- For every sequence of calls, with any number of places: the ranges stay disjoint and the pins
lead to their chips just when each call meets the condition. -/
theorem ownRanges_iff (places : Nat) (calls : List GpioCall) :
    Always GpioHistory.step OwnRanges (start places) calls ↔
      Guarded GpioHistory.step Sound (start places) calls := by
  have empty : (start places).Tabled := by
    refine ⟨?_, List.Pairwise.nil, ?_, ?_⟩
    · simp [start]
    · intro c member
      cases member
    · intro c member _
      rw [List.eq_of_mem_replicate member]
      exact Nat.zero_le _
  apply @always_iff_guarded _ _ _ calls GpioHistory.step Sound Tabled OwnRanges _ _ _ empty
  · exact fun _ tabled => tabled.ownRanges
  · exact fun _ _ tabled after => tabled.needs after
  · exact fun _ _ sound tabled => tabled.step sound

/-- Two chips with one base are both registered, and the pins of the first sixteen on the chip
lead to an external chip that failed to initialize. -/
theorem ownRanges_fails :
    ([GpioCall.gpiochipRegister 146 "first" 1 16, .gpiochipRegister 146 "second" 2 16].foldl
        GpioHistory.step (start 3)).registered =
      [.of 146 "first" 1 16, .of 146 "second" 2 16] ∧
    ([GpioCall.gpiochipRegister 146 "failed" 3 16, .gpiochipsInit fun _ => -1].foldl
        GpioHistory.step (start 3)).registered = [] ∧
    gpiochipFind ([GpioCall.gpiochipRegister 146 "failed" 3 16, .gpiochipsInit fun _ => -1].foldl
        GpioHistory.step (start 3)).chips Gpio.A0 = some ⟨0, 16, some 3, some "failed"⟩ := by
  decide

end GpioHistory

end FomeFw.Hardware
