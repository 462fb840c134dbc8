import FomeFw.Lib.FixedArray
import FomeFw.Lib.Machine
import Mathlib.Data.Multiset.AddSub
import Mathlib.Data.Multiset.ZeroCons

/-! The fixed-length stack of `fl_stack.h`: which elements its calls take away. -/
namespace FomeFw.Containers

/-- `FLStack<T, MAXSIZE>`. -/
structure FLStack (T : Type) (n : Nat) where
  currentSize : Int
  values : FixedArray n T

namespace FLStack

variable {T : Type} {n : Nat}

def reset (s : FLStack T n) : FLStack T n := { s with currentSize := 0 }

/-- The constructor; the memory is filled with zeros. -/
def new (zero : T) : FLStack T n := reset ⟨0, FixedArray.fill zero⟩

def size (s : FLStack T n) : Int := s.currentSize

/-- How `firmwareError` goes on: the firmware reports and comes back, the simulator and the unit
tests throw. -/
inductive FirmwareError
  | reports
  | throws
  deriving DecidableEq

inductive Call (T : Type)
  | push (value : T)
  | pop
  | remove (value : T)
  | reset

/-- What a call comes back with. -/
inductive Answer (T : Type)
  | done
  | value (value : T)
  | found (found : Bool)
  | thrown
  deriving DecidableEq

/-- What `push` and `pop` do where they find an error. -/
def firmwareError (build : FirmwareError) (s : FLStack T n)
    (comesBack : Option (FLStack T n × Answer T)) : Option (FLStack T n × Answer T) :=
  match build with
  | .reports => comesBack
  | .throws => some (s, .thrown)

def push (build : FirmwareError) (s : FLStack T n) (value : T) : Option (FLStack T n × Answer T) :=
  if s.currentSize ≥ n then
    s.firmwareError build (some (s, .done))
  else do
    let values ← s.values.storeAt s.currentSize value
    return (⟨s.currentSize + 1, values⟩, .done)

/-- `return values[--currentSize]`. -/
def takeLast (s : FLStack T n) : Option (FLStack T n × Answer T) := do
  let s := { s with currentSize := s.currentSize - 1 }
  return (s, .value (← s.values.loadAt s.currentSize))

def pop (build : FirmwareError) (s : FLStack T n) : Option (FLStack T n × Answer T) :=
  if s.currentSize = 0 then s.firmwareError build s.takeLast else s.takeLast

/-- The loop of `remove` from index `i` on, with the number of rounds left. -/
def removeFrom [DecidableEq T] (s : FLStack T n) (value : T) (i : Nat) :
    Nat → Option (FLStack T n × Answer T)
  | 0 => some (s, .found false)
  | left + 1 => do
    if (← s.values.loadAt i) = value then
      -- the hole is at `i`, but the first element is written over
      let values ← s.values.storeAt 0 (← s.values.loadAt (s.currentSize - 1))
      return (⟨s.currentSize - 1, values⟩, .found true)
    else
      s.removeFrom value (i + 1) left

def remove [DecidableEq T] (s : FLStack T n) (value : T) : Option (FLStack T n × Answer T) :=
  s.removeFrom value 0 s.currentSize.toNat

def call [DecidableEq T] (build : FirmwareError) (s : FLStack T n) :
    Call T → Option (FLStack T n × Answer T)
  | .push value => s.push build value
  | .pop => s.pop build
  | .remove value => s.remove value
  | .reset => some (s.reset, .done)

def step [DecidableEq T] (build : FirmwareError) (s : FLStack T n) (c : Call T) :
    Option (FLStack T n) :=
  (s.call build c).map Prod.fst

/-! ## What is asked of the stack -/

/-- The elements stored, the first one first. -/
def contents (s : FLStack T n) : List T := (s.values.loadList s.currentSize.toNat).getD []

/-- The elements stored, in no order. -/
def bag (s : FLStack T n) : Multiset T := s.contents

/-- What a call may make of the stack. -/
def Does [DecidableEq T] (s : FLStack T n) (c : Call T) (s' : FLStack T n) (answer : Answer T) :
    Prop :=
  match c with
  | .push value => if s.size < n then s'.bag = value ::ₘ s.bag else s' = s
  | .pop => if s.size = 0 then s' = s else ∃ v ∈ s.bag, answer = .value v ∧ s'.bag = s.bag.erase v
  | .remove value => answer = .found (decide (value ∈ s.bag)) ∧ s'.bag = s.bag.erase value
  | .reset => s'.bag = 0

/-- The call has a result, which is one it may have, and the size stays within the capacity. -/
def Served [DecidableEq T] (build : FirmwareError) (s : FLStack T n) (c : Call T) : Prop :=
  ∃ s' answer, s.call build c = some (s', answer) ∧ 0 ≤ s'.size ∧ s'.size ≤ n ∧ s.Does c s' answer

/-- An empty stack is popped only where the error is thrown, and what `remove` finds is the first
element. -/
def Safe [DecidableEq T] (build : FirmwareError) (s : FLStack T n) : Call T → Prop
  | .pop => s.contents = [] → build = .throws
  | .remove value => value ∈ s.contents → s.contents.head? = some value
  | _ => True

/-! ## What the calls make of the elements stored -/

structure Stores (s : FLStack T n) (l : List T) : Prop where
  size : s.currentSize = l.length
  room : l.length ≤ n
  begins : s.values.Begins l

variable {s s' : FLStack T n} {l : List T} {value : T} {build : FirmwareError}

theorem Stores.new (zero : T) : (new zero : FLStack T n).Stores [] where
  size := rfl
  room := Nat.zero_le n
  begins := FixedArray.begins_nil

theorem stores_reset (s : FLStack T n) : s.reset.Stores [] where
  size := rfl
  room := Nat.zero_le n
  begins := FixedArray.begins_nil

theorem Stores.contents (stores : s.Stores l) : s.contents = l := by
  rw [FLStack.contents, stores.size, Int.toNat_natCast, stores.begins.loadList le_rfl, List.take_length]
  rfl

theorem Stores.bag (stores : s.Stores l) : s.bag = l := congrArg _ stores.contents

theorem Stores.push (stores : s.Stores l) (room : l.length < n) :
    ∃ s', s.push build value = some (s', .done) ∧ s'.Stores (l ++ [value]) := by
  obtain ⟨b, stored⟩ := @FixedArray.store_of_lt _ _ _ s.values room value
  refine ⟨⟨l.length + 1, b⟩, ?_, ?_, ?_, stores.begins.store stored⟩
  · have below : ¬ s.currentSize ≥ n := by
      rw [stores.size]
      omega
    rw [FLStack.push, if_neg below, stores.size, FixedArray.storeAt_natCast, stored]
    rfl
  · simp
  · rw [List.length_append]
    exact room

theorem Stores.push_full (stores : s.Stores l) (full : ¬ l.length < n) :
    ∃ answer, s.push build value = some (s, answer) := by
  have above : s.currentSize ≥ n := by
    rw [stores.size]
    omega
  rw [FLStack.push, if_pos above]
  cases build with
  | reports => exact ⟨_, rfl⟩
  | throws => exact ⟨_, rfl⟩

theorem Stores.pop (stores : s.Stores (l ++ [value])) :
    ∃ s', s.pop build = some (s', .value value) ∧ s'.Stores l := by
  have size : s.currentSize = l.length + 1 := by simpa using stores.size
  have last : s.values.loadAt l.length = some value := by
    rw [FixedArray.loadAt_natCast, stores.begins _ (by simp)]
    simp
  refine ⟨{ s with currentSize := l.length }, ?_, rfl, ?_, stores.begins.of_append⟩
  · rw [FLStack.pop, if_neg (by omega), takeLast, size, Int.add_sub_cancel]
    change (do return (_, Answer.value (← s.values.loadAt l.length))) = _
    rw [last]
    rfl
  · have room := stores.room
    rw [List.length_append] at room
    omega

theorem Stores.pop_empty (stores : s.Stores []) :
    s.pop build = if build = .throws then some (s, .thrown) else none := by
  have size : s.currentSize = 0 := stores.size
  rw [FLStack.pop, if_pos size]
  cases build with
  | reports => simp [firmwareError, takeLast, size, FixedArray.loadAt]
  | throws => rfl

/-- What fills the hole that `remove` makes. -/
def fillFirst (s : FLStack T n) : Option (FLStack T n × Answer T) := do
  let values ← s.values.storeAt 0 (← s.values.loadAt (s.currentSize - 1))
  return (⟨s.currentSize - 1, values⟩, .found true)

theorem Stores.removeFrom [DecidableEq T] (stores : s.Stores l) {i left : Nat}
    (rest : i + left = l.length) :
    s.removeFrom value i left =
      if value ∈ l.drop i then s.fillFirst else some (s, .found false) := by
  induction left generalizing i with
  | zero =>
    have none : l.drop i = [] := List.drop_eq_nil_of_le (by omega)
    rw [none, if_neg List.not_mem_nil, FLStack.removeFrom]
  | succ left ih =>
    have inside : i < l.length := by omega
    have later := @ih (i + 1) (by omega)
    rw [FLStack.removeFrom, FixedArray.loadAt_natCast, stores.begins i inside,
      List.drop_eq_getElem_cons inside]
    by_cases here : l[i] = value
    · simp [here, fillFirst]
    · have other : value ≠ l[i] := Ne.symm here
      simp only [here, other, List.mem_cons, Option.bind_eq_bind, Option.bind_some, if_false, false_or]
      exact later

theorem Stores.remove [DecidableEq T] (stores : s.Stores l) :
    s.remove value = if value ∈ l then s.fillFirst else some (s, .found false) := by
  rw [FLStack.remove, stores.removeFrom (by rw [stores.size]; simp), List.drop_zero]

/-- Whatever was looked for, the first element is the one that disappears. -/
theorem Stores.fillFirst (stores : s.Stores (first :: l)) :
    ∃ s' l', s.fillFirst = some (s', .found true) ∧ s'.Stores l' ∧ l'.Perm l := by
  have size : s.currentSize - 1 = l.length := by simp [stores.size]
  have room : l.length + 1 ≤ n := stores.room
  have filled : ∀ last, s.values.load l.length = some last → ∃ b, (FixedArray.Begins b (last :: l)) ∧
      s.fillFirst = some (⟨l.length, b⟩, .found true) := by
    intro last there
    obtain ⟨b, stored⟩ := @FixedArray.store_of_lt _ _ 0 s.values (by omega) last
    refine ⟨b, stores.begins.set stored, ?_⟩
    have put : s.values.storeAt 0 last = some b := stored
    rw [FLStack.fillFirst, size, FixedArray.loadAt_natCast, there]
    simp [put]
  rcases List.eq_nil_or_concat' l with rfl | ⟨middle, last, rfl⟩
  · obtain ⟨b, -, done⟩ := filled first (stores.begins 0 (by simp))
    exact ⟨_, [], done, ⟨rfl, Nat.zero_le n, FixedArray.begins_nil⟩, List.Perm.nil⟩
  · have there : s.values.load (middle ++ [last]).length = some last := by
      rw [stores.begins _ (by simp)]
      simp
    obtain ⟨b, begins, done⟩ := filled last there
    refine ⟨_, last :: middle, done, ⟨by simp, ?_, begins.of_append⟩, ?_⟩
    · simp only [List.length_append, List.length_cons, List.length_nil] at room ⊢
      omega
    · exact (List.perm_append_singleton last middle).symm

/-- What a call makes of a stack that holds these elements; none is an access outside of the
array. -/
inductive Effect (build : FirmwareError) (s : FLStack T n) (l : List T) :
    Call T → Option (FLStack T n × Answer T) → Prop
  | pushed {v : T} {after : FLStack T n} (room : l.length < n) (stores : after.Stores (l ++ [v])) :
      Effect build s l (.push v) (some (after, .done))
  | full {v : T} (full : ¬ l.length < n) : Effect build s l (.push v) (some (s, answer))
  | popped {v : T} {after : FLStack T n} (last : l = l' ++ [v]) (stores : after.Stores l') :
      Effect build s l .pop (some (after, .value v))
  | refused (empty : l = []) (throws : build = .throws) : Effect build s l .pop (some (s, .thrown))
  | outside (empty : l = []) (reports : build ≠ .throws) : Effect build s l .pop none
  | removed {v : T} {after : FLStack T n} (member : v ∈ l) (stores : after.Stores l')
      (same : l'.Perm l.tail) : Effect build s l (.remove v) (some (after, .found true))
  | missed {v : T} (other : v ∉ l) : Effect build s l (.remove v) (some (s, .found false))
  | reset {after : FLStack T n} (stores : after.Stores []) :
      Effect build s l .reset (some (after, .done))

theorem Stores.effect [DecidableEq T] (stores : s.Stores l) (c : Call T) :
    Effect build s l c (s.call build c) := by
  cases c with
  | push value =>
    rcases Nat.lt_or_ge l.length n with room | full
    · obtain ⟨s', done, after⟩ := @Stores.push _ _ _ _ value build stores room
      rw [call, done]
      exact .pushed room after
    · obtain ⟨answer, done⟩ := @Stores.push_full _ _ _ _ value build stores (Nat.not_lt.mpr full)
      rw [call, done]
      exact .full (Nat.not_lt.mpr full)
  | pop =>
    rcases List.eq_nil_or_concat' l with rfl | ⟨lower, last, rfl⟩
    · rw [call, stores.pop_empty]
      split
      · next throws => exact .refused rfl throws
      · next reports => exact .outside rfl reports
    · obtain ⟨s', done, after⟩ := @Stores.pop _ _ _ _ _ build stores
      rw [call, done]
      exact .popped rfl after
  | remove value =>
    rw [call, stores.remove]
    split
    · next member =>
      cases l with
      | nil => cases member
      | cons first rest =>
        obtain ⟨s', l', done, after, same⟩ := stores.fillFirst
        rw [done]
        exact .removed member after same
    · next other => exact .missed other
  | reset => exact .reset (stores_reset s)

theorem Stores.call [DecidableEq T] (stores : s.Stores l) {c : Call T}
    (called : s.call build c = some (s', answer)) : ∃ l', s'.Stores l' := by
  have effect := @Stores.effect _ _ _ _ build _ stores c
  rw [called] at effect
  cases effect with
  | pushed room after => exact ⟨_, after⟩
  | full full => exact ⟨_, stores⟩
  | popped last after => exact ⟨_, after⟩
  | refused empty throws => exact ⟨_, stores⟩
  | removed member after same => exact ⟨_, after⟩
  | missed other => exact ⟨_, stores⟩
  | reset after => exact ⟨_, after⟩

theorem Stores.inRange (stores : s.Stores l) : 0 ≤ s.size ∧ s.size ≤ n := by
  have size : s.size = l.length := stores.size
  have room := stores.room
  omega

/-- Without its first element a list is without the value just when that is the first one. -/
theorem tail_eq_erase_iff [DecidableEq T] {first : T} (member : value ∈ first :: l) :
    (l : Multiset T) = Multiset.erase (first :: l : List T) value ↔ first = value := by
  constructor
  · intro same
    have all := Multiset.cons_erase (Multiset.mem_coe.mpr member)
    rw [← same, ← Multiset.cons_coe] at all
    exact ((Multiset.cons_inj_left _).mp all).symm
  · rintro rfl
    rw [← Multiset.cons_coe, Multiset.erase_cons_head]

theorem Stores.served_iff [DecidableEq T] (stores : s.Stores l) (c : Call T) :
    s.Served build c ↔ s.Safe build c := by
  have effect := @Stores.effect _ _ _ _ build _ stores c
  unfold Served
  generalize s.call build c = outcome at effect ⊢
  have size : s.size = l.length := stores.size
  cases effect with
  | @pushed value after room stores' =>
    refine iff_of_true ⟨after, _, rfl, stores'.inRange.1, stores'.inRange.2, ?_⟩ trivial
    rw [Does, if_pos (by omega), stores'.bag, stores.bag, ← Multiset.coe_add, Multiset.add_comm]
    rfl
  | full full =>
    refine iff_of_true ⟨s, _, rfl, stores.inRange.1, stores.inRange.2, ?_⟩ trivial
    rw [Does, if_neg (by omega)]
  | @popped l' value after last stores' =>
    have some : s.contents ≠ [] := by simp [stores.contents, last]
    refine iff_of_true ⟨after, _, rfl, stores'.inRange.1, stores'.inRange.2, ?_⟩ (absurd · some)
    have size : ¬ s.size = 0 := by
      rw [size, last, List.length_append, List.length_singleton]
      omega
    have bag : s.bag = value ::ₘ (l' : Multiset T) := by
      rw [stores.bag, last, ← Multiset.coe_add, Multiset.add_comm]
      rfl
    rw [Does, if_neg size, stores'.bag, bag]
    exact ⟨value, Multiset.mem_cons_self _ _, rfl, (Multiset.erase_cons_head _ _).symm⟩
  | refused empty throws =>
    subst empty
    refine iff_of_true ⟨s, _, rfl, stores.inRange.1, stores.inRange.2, ?_⟩ fun _ => throws
    have none : s.size = 0 := size
    rw [Does, if_pos none]
  | outside empty reports =>
    refine iff_of_false ?_ fun safe => reports (safe (stores.contents.trans empty))
    rintro ⟨after, answer, ⟨⟩, -⟩
  | @removed l' value after member stores' same =>
    cases l with
    | nil => cases member
    | cons first rest =>
      have removed : s.Does (.remove value) after (.found true) ↔ first = value := by
        rw [Does, stores.bag, stores'.bag, Multiset.coe_eq_coe.mpr same, List.tail_cons,
          tail_eq_erase_iff member]
        simpa using fun _ => List.mem_cons.mp member
      have safe : s.Safe build (.remove value) ↔ first = value := by
        simp only [Safe, stores.contents, member, List.head?_cons, Option.some.injEq, true_imp_iff]
      rw [safe, ← removed]
      constructor
      · rintro ⟨s₁, answer, outcome, -, -, does⟩
        obtain ⟨rfl, rfl⟩ := Prod.mk.inj (Option.some.inj outcome)
        exact does
      · exact fun does => ⟨after, _, rfl, stores'.inRange.1, stores'.inRange.2, does⟩
  | @missed value other =>
    refine iff_of_true ⟨s, _, rfl, stores.inRange.1, stores.inRange.2, ?_⟩ ?_
    · rw [Does, stores.bag, Multiset.erase_of_notMem (Multiset.mem_coe.not.mpr other)]
      simpa using other
    · intro member
      rw [stores.contents] at member
      exact absurd member other
  | @reset after stores' =>
    refine iff_of_true ⟨after, _, rfl, stores'.inRange.1, stores'.inRange.2, ?_⟩ trivial
    rw [Does, stores'.bag, Multiset.coe_nil]

theorem Stores.step [DecidableEq T] (stores : ∃ l, s.Stores l) {c : Call T}
    (taken : s.step build c = some s') : ∃ l, s'.Stores l := by
  obtain ⟨l, stores⟩ := stores
  obtain ⟨⟨after, answer⟩, called, rfl⟩ := Option.map_eq_some_iff.mp taken
  exact stores.call called

/-- Of every capacity, after any calls, a call does what it should just when it is a safe one. -/
theorem served_iff_safe [DecidableEq T] (n : Nat) (build : FirmwareError) (zero : T)
    (calls : List (Call T)) :
    Machine.Supervised (step build) (Served build) (new zero : FLStack T n) calls ↔
      Machine.Supervised (step build) (Safe build) (new zero : FLStack T n) calls := by
  have start : ∃ l, (new zero : FLStack T n).Stores l := ⟨[], Stores.new zero⟩
  constructor
  · refine Machine.Supervised.imp ?_ (fun s c s' _ stores => Stores.step stores) start
    rintro s c served ⟨l, stores⟩
    exact (stores.served_iff c).mp served
  · refine Machine.Supervised.imp ?_ (fun s c s' _ stores => Stores.step stores) start
    rintro s c safe ⟨l, stores⟩
    exact (stores.served_iff c).mpr safe

/-- With 1 and 2 on the stack, looking for 2 takes away 1. -/
theorem remove_takes_first :
    ¬ Machine.Supervised (step .reports) (Served .reports) (new 0 : FLStack Nat 4)
      [.push 1, .push 2, .remove 2] := by
  intro served
  obtain ⟨s', answer, called, -, -, -, gone⟩ := ((served.2 _ rfl).2 _ rfl).1
  have left := congrArg (Option.map fun r => r.1.bag) called
  rw [Option.map_some, gone] at left
  revert left
  decide

end FLStack

end FomeFw.Containers
