import Mathlib.Algebra.BigOperators.Group.Finset.Basic
import Mathlib.Algebra.Order.BigOperators.Group.Finset
import Mathlib.Data.Finset.Lattice.Fold
import Mathlib.Logic.Function.Basic
import Mathlib.Order.Lattice.Nat

/-! Memory heaps of the operating system, which gives blocks out of one buffer. The library is
not part of the firmware's sources; what is known of it is what its documentation says. -/
namespace FomeFw.Containers
open Finset

/-- `memory_heap_t`, with the content of its buffer: the blocks that were given out, by their
addresses, and what they contain. -/
structure MemoryHeapApi (size : Nat) where
  MemoryHeap : Type
  live : MemoryHeap → Finset Nat
  bytes : MemoryHeap → Nat → List UInt8
  /-- `chHeapObjectInit`. -/
  objectInit : MemoryHeap
  /-- `chHeapAlloc`. -/
  alloc : MemoryHeap → Nat → Option Nat × MemoryHeap
  /-- `chHeapFree`. -/
  free : MemoryHeap → Nat → MemoryHeap
  /-- `chHeapGetSize`. -/
  getSize : MemoryHeap → Nat → Nat
  /-- Bytes written from the start of a block on. -/
  store : MemoryHeap → Nat → List UInt8 → MemoryHeap
  live_objectInit : live objectInit = ∅
  bounded : ∀ h, ∑ p ∈ live h, (bytes h p).length ≤ size
  alloc_none : ∀ h n, (alloc h n).1 = none →
    live (alloc h n).2 = live h ∧ ∀ p ∈ live h, bytes (alloc h n).2 p = bytes h p
  alloc_some : ∀ h n p, (alloc h n).1 = some p →
    p ∉ live h ∧ live (alloc h n).2 = insert p (live h) ∧ n ≤ (bytes (alloc h n).2 p).length ∧
      ∀ q ∈ live h, bytes (alloc h n).2 q = bytes h q
  free_live : ∀ h, ∀ p ∈ live h,
    live (free h p) = (live h).erase p ∧ ∀ q ∈ (live h).erase p, bytes (free h p) q = bytes h q
  getSize_eq : ∀ h, ∀ p ∈ live h, getSize h p = (bytes h p).length
  store_live : ∀ h, ∀ p ∈ live h, ∀ content, content.length ≤ (bytes h p).length →
    live (store h p content) = live h ∧
      bytes (store h p content) p = content ++ (bytes h p).drop content.length ∧
      ∀ q ∈ live h, q ≠ p → bytes (store h p content) q = bytes h q

namespace MemoryHeapApi

variable {size : Nat} (api : MemoryHeapApi size)

/-- `memcpy` from one block to another. -/
def memcpy (h : api.MemoryHeap) (destination source count : Nat) : api.MemoryHeap :=
  api.store h destination ((api.bytes h source).take count)

variable {h : api.MemoryHeap} {p new n count : Nat} {sizes : Nat → Nat}

/-- Blocks that hold at least some sizes hold no more than the buffer together. -/
theorem sum_le_size (holds : ∀ p ∈ api.live h, sizes p ≤ (api.bytes h p).length) :
    ∑ p ∈ api.live h, sizes p ≤ size :=
  (Finset.sum_le_sum holds).trans (api.bounded h)

theorem getSize_alloc (given : (api.alloc h n).1 = some new) (member : p ∈ api.live h) :
    api.getSize (api.alloc h n).2 p = (api.bytes h p).length := by
  obtain ⟨-, live, -, same⟩ := api.alloc_some h n new given
  rw [api.getSize_eq _ p (live ▸ mem_insert_of_mem member), same p member]

/-- A block that is copied to a new one, and then given back. -/
theorem move_block (given : (api.alloc h n).1 = some new) (member : p ∈ api.live h)
    (short : count ≤ n) (inside : count ≤ (api.bytes h p).length) :
    let moved := api.free (api.memcpy (api.alloc h n).2 new p count) p
    new ∉ api.live h ∧ api.live moved = insert new ((api.live h).erase p) ∧
      n ≤ (api.bytes moved new).length ∧
      (api.bytes moved new).take count = (api.bytes h p).take count ∧
      ∀ q ∈ (api.live h).erase p, api.bytes moved q = api.bytes h q := by
  intro moved
  obtain ⟨fresh, live, long, same⟩ := api.alloc_some h n new given
  have other : p ≠ new := by
    rintro rfl
    exact fresh member
  have memberNew : new ∈ api.live (api.alloc h n).2 := live ▸ mem_insert_self new _
  have fits : ((api.bytes (api.alloc h n).2 p).take count).length ≤
      (api.bytes (api.alloc h n).2 new).length :=
    (List.length_take_le _ _).trans (short.trans long)
  obtain ⟨liveCopied, copied, sameCopied⟩ := api.store_live (api.alloc h n).2 new memberNew _ fits
  have memberOld : p ∈ api.live (api.memcpy (api.alloc h n).2 new p count) := by
    rw [memcpy, liveCopied, live]
    exact mem_insert_of_mem member
  obtain ⟨liveMoved, sameMoved⟩ := api.free_live _ p memberOld
  have liveAll : api.live moved = insert new ((api.live h).erase p) := by
    rw [liveMoved, memcpy, liveCopied, live, Finset.erase_insert_of_ne other.symm]
  have unmoved : ∀ q ∈ api.live moved,
      api.bytes moved q = api.bytes (api.memcpy (api.alloc h n).2 new p count) q := by
    intro q member
    exact sameMoved q (liveMoved ▸ member)
  have bytesNew := unmoved new (liveAll ▸ mem_insert_self new _)
  rw [memcpy, copied, same p member] at bytesNew
  refine ⟨fresh, liveAll, ?_, ?_, ?_⟩
  · rw [bytesNew, List.length_append, List.length_drop]
    rw [same p member] at fits
    omega
  · rw [bytesNew, List.take_append_of_le_length (by rw [List.length_take]; omega), List.take_take,
      Nat.min_self]
  · intro q memberQ
    have memberAll : q ∈ api.live h := mem_of_mem_erase memberQ
    have notNew : q ≠ new := by
      rintro rfl
      exact fresh memberAll
    rw [unmoved q (liveAll ▸ mem_insert_of_mem memberQ), memcpy,
      sameCopied q (live ▸ mem_insert_of_mem memberAll) notNew, same q memberAll]

end MemoryHeapApi

/-! ## A heap that counts -/

/-- The header of a block, and the unit in which blocks are given out. -/
abbrev heapUnit : Nat := 8

/-- Blocks of whole units, each with its header, as long as they fit into the buffer together. -/
structure CountingHeap (size : Nat) where
  live : Finset Nat
  bytes : Nat → List UInt8
  bounded : ∑ p ∈ live, ((bytes p).length + heapUnit) ≤ size

namespace CountingHeap

variable {size : Nat} (h : CountingHeap size)

def roundUp (n : Nat) : Nat := (n + heapUnit - 1) / heapUnit * heapUnit

theorem le_roundUp (n : Nat) : n ≤ roundUp n := by
  simp only [roundUp, heapUnit]
  omega

def used : Nat := ∑ p ∈ h.live, ((h.bytes p).length + heapUnit)

def fresh : Nat := h.live.sup id + 1

theorem fresh_notMem : h.fresh ∉ h.live := by
  intro member
  have below : id h.fresh ≤ h.live.sup id := Finset.le_sup member
  simp only [id, fresh] at below
  omega

theorem ne_fresh {q : Nat} (member : q ∈ h.live) : q ≠ h.fresh := by
  rintro rfl
  exact h.fresh_notMem member

def alloc (n : Nat) : Option Nat × CountingHeap size :=
  if room : h.used + (roundUp n + heapUnit) ≤ size then
    (some h.fresh,
      { live := insert h.fresh h.live
        bytes := Function.update h.bytes h.fresh (List.replicate (roundUp n) 0)
        bounded := by
          have others : ∑ p ∈ h.live,
              ((Function.update h.bytes h.fresh (List.replicate (roundUp n) 0) p).length + heapUnit) =
              h.used := by
            refine Finset.sum_congr rfl ?_
            intro q member
            rw [Function.update_of_ne (h.ne_fresh member)]
          rw [Finset.sum_insert h.fresh_notMem, others, Function.update_self, List.length_replicate]
          omega })
  else (none, h)

def free (p : Nat) : CountingHeap size where
  live := h.live.erase p
  bytes := h.bytes
  bounded := (Finset.sum_le_sum_of_subset (Finset.erase_subset p h.live)).trans h.bounded

def stored (p : Nat) (content : List UInt8) : List UInt8 :=
  (content ++ (h.bytes p).drop content.length).take (h.bytes p).length

def store (p : Nat) (content : List UInt8) : CountingHeap size where
  live := h.live
  bytes := Function.update h.bytes p (h.stored p content)
  bounded := by
    refine (Finset.sum_le_sum ?_).trans h.bounded
    intro q _
    by_cases same : q = p
    · subst same
      rw [Function.update_self, stored, List.length_take]
      omega
    · rw [Function.update_of_ne same]

end CountingHeap

def countingHeap (size : Nat) : MemoryHeapApi size where
  MemoryHeap := CountingHeap size
  live := CountingHeap.live
  bytes := CountingHeap.bytes
  objectInit := { live := ∅, bytes := fun _ => [], bounded := by simp }
  alloc := CountingHeap.alloc
  free := CountingHeap.free
  getSize h p := (h.bytes p).length
  store := CountingHeap.store
  live_objectInit := rfl
  bounded h := (Finset.sum_le_sum fun _ _ => Nat.le_add_right _ _).trans h.bounded
  alloc_none := by
    intro h n refused
    simp only [CountingHeap.alloc] at refused ⊢
    split at refused
    · cases refused
    · next full => simp [full]
  alloc_some := by
    intro h n p given
    simp only [CountingHeap.alloc] at given ⊢
    split at given
    · next room =>
      obtain rfl := Option.some.inj given
      refine ⟨h.fresh_notMem, by simp [room], by simp [room, CountingHeap.le_roundUp], ?_⟩
      intro q member
      simp [room, Function.update_of_ne (h.ne_fresh member)]
    · cases given
  free_live h p _ := ⟨rfl, fun _ _ => rfl⟩
  getSize_eq _ _ _ := rfl
  store_live := by
    intro h p _ content fits
    refine ⟨rfl, ?_, fun q _ other => Function.update_of_ne other _ _⟩
    simp only [CountingHeap.store, CountingHeap.stored, Function.update_self]
    apply List.take_of_length_le
    simp only [List.length_append, List.length_drop]
    omega

end FomeFw.Containers
