import FomeFw.Containers.MemoryHeap
import FomeFw.Lib.Machine
import Mathlib.Algebra.BigOperators.Group.Finset.Piecewise

/-! The memory of the user's script, `lua.cpp`: the heap of the operating system has no
`realloc`, and the interpreter asks for nothing else. -/
namespace FomeFw.Lua
open Containers Finset Machine

variable {size : Nat} {api : MemoryHeapApi size}

/-- `Heap`. Its counter is a `size_t` of 32 bits. -/
structure Heap (api : MemoryHeapApi size) where
  heap : api.MemoryHeap := api.objectInit
  memoryUsed : Nat := 0

namespace Heap

def addUsed (h : Heap api) (n : Nat) : Heap api :=
  { h with memoryUsed := (h.memoryUsed + n) % 2 ^ 32 }

def subUsed (h : Heap api) (n : Nat) : Heap api :=
  { h with memoryUsed := (h.memoryUsed + 2 ^ 32 - n) % 2 ^ 32 }

/-- A null pointer is none. -/
def realloc (h : Heap api) (ptr : Option Nat) (osize nsize : Nat) : Option Nat × Heap api :=
  if nsize = 0 then
    -- requested size is zero, free if necessary and return nullptr
    match ptr with
    | some p => (none, subUsed { h with heap := api.free h.heap p } osize)
    | none => (none, h)
  else
    let (newMem, heap) := api.alloc h.heap nsize
    let h := { h with heap := heap }
    -- Don't count the memory use if not allocated
    let h := if newMem.isSome then h.addUsed nsize else h
    match ptr, newMem with
    | some p, some new =>
      -- An old pointer was passed in, copy the old data in, then free
      let count := if api.getSize h.heap p > nsize then nsize else api.getSize h.heap p
      let h := { h with heap := api.memcpy h.heap new p count }
      let h := { h with heap := api.free h.heap p }
      (some new, h.subUsed osize)
    | _, newMem => (newMem, h)

end Heap

/-- The heap, and the sizes with which the interpreter got the blocks it has. -/
structure LuaMemory (api : MemoryHeapApi size) where
  userHeap : Heap api := {}
  sizes : Nat → Nat := fun _ => 0

namespace LuaMemory

def live (m : LuaMemory api) : Finset Nat := api.live m.userHeap.heap

def bytes (m : LuaMemory api) : Nat → List UInt8 := api.bytes m.userHeap.heap

end LuaMemory

/-- What the interpreter does: it calls `myAlloc`, or it writes to one of its blocks. -/
inductive LuaMemoryUse where
  | myAlloc (ptr : Option Nat) (osize nsize : Nat)
  | write (ptr : Nat) (content : List UInt8)

namespace LuaMemory

/-- The interpreter passes its own blocks with their sizes; of a null pointer the old size
means something else. -/
def Owned (m : LuaMemory api) : LuaMemoryUse → Prop
  | .myAlloc none _ _ => True
  | .myAlloc (some p) osize _ => p ∈ m.live ∧ osize = m.sizes p
  | .write p content => p ∈ m.live ∧ content.length ≤ m.sizes p

def use (m : LuaMemory api) : LuaMemoryUse → LuaMemory api
  | .myAlloc ptr osize nsize =>
    let (result, userHeap) := m.userHeap.realloc ptr osize nsize
    match result with
    | some p => { userHeap := userHeap, sizes := Function.update m.sizes p nsize }
    | none => { m with userHeap := userHeap }
  | .write p content => { m with userHeap.heap := api.store m.userHeap.heap p content }

/-- Some blocks are what they were. -/
def Kept (m : LuaMemory api) (heap : Heap api) (others : Finset Nat) : Prop :=
  ∀ q ∈ others, api.bytes heap.heap q = m.bytes q

/-- What `lua_Alloc` asks of one call, and when the call is refused: when there is no room for
another block of the new size, whatever the size of the old one is. -/
structure Honours (m : LuaMemory api) (ptr : Option Nat) (osize nsize : Nat)
    (result : Option Nat) (heap : Heap api) : Prop where
  freed : nsize = 0 → result = none ∧ api.live heap.heap = m.live \ ptr.toFinset ∧
    m.Kept heap (m.live \ ptr.toFinset)
  refused : nsize ≠ 0 → result = none → api.live heap.heap = m.live ∧ m.Kept heap m.live ∧
    heap.memoryUsed = m.userHeap.memoryUsed
  given : ∀ p, result = some p → p ∉ m.live ∧
    api.live heap.heap = insert p (m.live \ ptr.toFinset) ∧ m.Kept heap (m.live \ ptr.toFinset) ∧
    nsize ≤ (api.bytes heap.heap p).length ∧
    ∀ q, ptr = some q → (api.bytes heap.heap p).take (min osize nsize) = (m.bytes q).take (min osize nsize)
  refusal : nsize ≠ 0 → (result = none ↔ (api.alloc m.userHeap.heap nsize).1 = none)

/-- The blocks have the sizes they were asked with. -/
def Held (m : LuaMemory api) : Prop := ∀ p ∈ m.live, m.sizes p ≤ (m.bytes p).length

/-- `m_memoryUsed` counts the blocks. -/
def Counted (m : LuaMemory api) : Prop := m.userHeap.memoryUsed = ∑ p ∈ m.live, m.sizes p

/-- What holds of the heap between two calls, and of whatever call comes next. -/
structure Sound (m : LuaMemory api) : Prop where
  counted : m.Counted
  held : m.Held
  noUnderflow : ∀ p ∈ m.live, m.sizes p ≤ m.userHeap.memoryUsed
  honours : ∀ ptr osize nsize, m.Owned (.myAlloc ptr osize nsize) →
    m.Honours ptr osize nsize (m.userHeap.realloc ptr osize nsize).1
      (m.userHeap.realloc ptr osize nsize).2

end LuaMemory

/-- How a call goes. -/
inductive Heap.Reallocs (h : Heap api) (osize nsize : Nat) : Option Nat → Option Nat → Heap api → Prop
  | nothing : nsize = 0 → Reallocs h osize nsize none none h
  | frees (p : Nat) : nsize = 0 →
    Reallocs h osize nsize (some p) none (subUsed { h with heap := api.free h.heap p } osize)
  | refuses (ptr : Option Nat) : nsize ≠ 0 → (api.alloc h.heap nsize).1 = none →
    Reallocs h osize nsize ptr none { h with heap := (api.alloc h.heap nsize).2 }
  | gives (new : Nat) : nsize ≠ 0 → (api.alloc h.heap nsize).1 = some new →
    Reallocs h osize nsize none (some new) (addUsed { h with heap := (api.alloc h.heap nsize).2 } nsize)
  | moves (p new : Nat) : nsize ≠ 0 → (api.alloc h.heap nsize).1 = some new →
    Reallocs h osize nsize (some p) (some new)
      (subUsed (addUsed
        { h with heap := api.free (api.memcpy (api.alloc h.heap nsize).2 new p
            (min (api.getSize (api.alloc h.heap nsize).2 p) nsize)) p } nsize) osize)

theorem Heap.realloc_reallocs (h : Heap api) (ptr : Option Nat) (osize nsize : Nat) :
    h.Reallocs osize nsize ptr (h.realloc ptr osize nsize).1 (h.realloc ptr osize nsize).2 := by
  by_cases zero : nsize = 0
  · cases ptr with
    | none =>
      simp only [Heap.realloc, if_pos zero]
      exact .nothing zero
    | some p =>
      simp only [Heap.realloc, if_pos zero]
      exact .frees p zero
  · cases taken : (api.alloc h.heap nsize).1 with
    | none =>
      simp only [Heap.realloc, if_neg zero, taken]
      cases ptr <;> exact .refuses _ zero taken
    | some new =>
      cases ptr with
      | none =>
        simp only [Heap.realloc, if_neg zero, taken]
        exact .gives new zero taken
      | some p =>
        simp only [Heap.realloc, if_neg zero, taken]
        have count : (if api.getSize (api.alloc h.heap nsize).2 p > nsize then nsize
            else api.getSize (api.alloc h.heap nsize).2 p) =
            min (api.getSize (api.alloc h.heap nsize).2 p) nsize := by
          split <;> omega
        have moved := @Reallocs.moves _ _ h osize nsize p new zero taken
        rw [← count] at moved
        exact moved

namespace LuaMemory

variable {m : LuaMemory api} {ptr : Option Nat} {osize nsize : Nat} {result : Option Nat} {heap : Heap api}

theorem sdiff_none (s : Finset Nat) : s \ (none : Option Nat).toFinset = s := by simp

theorem sdiff_some (s : Finset Nat) (p : Nat) : s \ (some p).toFinset = s.erase p := by
  rw [Option.toFinset_some, Finset.sdiff_singleton_eq_erase]

theorem take_of_take {a b : List UInt8} {count n : Nat} (same : a.take count = b.take count)
    (less : n ≤ count) : a.take n = b.take n := by
  have shorter := congrArg (List.take n) same
  rwa [List.take_take, List.take_take, Nat.min_eq_left less] at shorter

theorem Held.honours (held : m.Held) (owned : m.Owned (.myAlloc ptr osize nsize))
    (reallocs : m.userHeap.Reallocs osize nsize ptr result heap) :
    m.Honours ptr osize nsize result heap := by
  cases reallocs with
  | nothing zero =>
    refine ⟨fun _ => ⟨rfl, (sdiff_none _).symm, fun _ _ => rfl⟩, fun positive => absurd zero positive,
      fun p none => (nomatch none), fun positive => absurd zero positive⟩
  | frees p zero =>
    obtain ⟨live, same⟩ := api.free_live m.userHeap.heap p owned.1
    refine ⟨fun _ => ⟨rfl, ?_, ?_⟩, fun positive => absurd zero positive,
      fun p none => (nomatch none), fun positive => absurd zero positive⟩
    · rw [sdiff_some]
      exact live
    · rw [sdiff_some]
      exact same
  | refuses _ positive full =>
    obtain ⟨live, same⟩ := api.alloc_none _ _ full
    exact ⟨fun zero => absurd zero positive, fun _ _ => ⟨live, same, rfl⟩, fun p none => (nomatch none),
      fun _ => iff_of_true rfl full⟩
  | gives new positive given =>
    obtain ⟨fresh, live, long, same⟩ := api.alloc_some _ _ _ given
    refine ⟨fun zero => absurd zero positive, fun _ none => (nomatch none), ?_,
      fun _ => iff_of_false (Option.some_ne_none _) (by simp [given])⟩
    intro p result
    obtain rfl := Option.some.inj result
    refine ⟨fresh, ?_, ?_, long, fun q none => (nomatch none)⟩
    · rw [sdiff_none]
      exact live
    · rw [sdiff_none]
      exact same
  | moves old new positive given =>
    have size := api.getSize_alloc given owned.1
    have enough : min osize nsize ≤ min (api.getSize (api.alloc m.userHeap.heap nsize).2 old) nsize := by
      have holds := held old owned.1
      rw [owned.2, size]
      exact min_le_min_right nsize holds
    obtain ⟨fresh, live, long, copied, same⟩ := api.move_block given owned.1
      (Nat.min_le_right (api.getSize (api.alloc m.userHeap.heap nsize).2 old) nsize)
      ((Nat.min_le_left _ _).trans size.le)
    refine ⟨fun zero => absurd zero positive, fun _ none => (nomatch none), ?_,
      fun _ => iff_of_false (Option.some_ne_none _) (by simp [given])⟩
    intro p result
    obtain rfl := Option.some.inj result
    refine ⟨fresh, ?_, ?_, long, ?_⟩
    · rw [sdiff_some]
      exact live
    · rw [sdiff_some]
      exact same
    · intro q passed
      obtain rfl := Option.some.inj passed
      exact take_of_take copied enough

theorem Held.sum_le (held : m.Held) : ∑ p ∈ m.live, m.sizes p ≤ size := api.sum_le_size held

theorem sum_update {s : Finset Nat} {new : Nat} (fresh : new ∉ s) (sizes : Nat → Nat) (n : Nat) :
    ∑ p ∈ insert new s, Function.update sizes new n p = ∑ p ∈ s, sizes p + n := by
  rw [Finset.sum_insert fresh, Function.update_self, Finset.sum_update_of_notMem fresh, Nat.add_comm]

/-- A new block beside blocks that stay. -/
theorem Held.update {others : Finset Nat} {new : Nat} (held : m.Held) (inside : others ⊆ m.live)
    (fresh : new ∉ m.live) (live : api.live heap.heap = insert new others) (kept : m.Kept heap others)
    (long : nsize ≤ (api.bytes heap.heap new).length) :
    Held { userHeap := heap, sizes := Function.update m.sizes new nsize } := by
  intro p member
  rw [LuaMemory.live, live, mem_insert] at member
  rcases member with rfl | member
  · show Function.update m.sizes p nsize p ≤ _
    rwa [Function.update_self]
  · have other : p ≠ new := by
      rintro rfl
      exact fresh (inside member)
    show Function.update m.sizes new nsize p ≤ (api.bytes heap.heap p).length
    rw [Function.update_of_ne other, kept p member]
    exact held p (inside member)

/-- While an old block is still there, the new one fits beside it. -/
theorem Held.room {new : Nat} (held : m.Held) (given : (api.alloc m.userHeap.heap nsize).1 = some new) :
    ∑ p ∈ m.live, m.sizes p + nsize ≤ size := by
  obtain ⟨fresh, live, long, same⟩ := api.alloc_some _ _ _ given
  have together := @Held.update _ _ m nsize { heap := (api.alloc m.userHeap.heap nsize).2 } m.live new
    held (Finset.Subset.refl _) fresh live same long
  have sum := together.sum_le
  rw [LuaMemory.live, live] at sum
  exact (sum_update fresh m.sizes nsize).ge.trans sum

/-- The invariant of the heap between two calls. -/
structure Accounted (m : LuaMemory api) : Prop where
  counted : m.Counted
  held : m.Held

theorem Held.shrink (held : m.Held) (inside : api.live heap.heap ⊆ m.live)
    (kept : m.Kept heap (api.live heap.heap)) : Held { m with userHeap := heap } := by
  intro p member
  show m.sizes p ≤ (api.bytes heap.heap p).length
  rw [kept p member]
  exact held p (inside member)

theorem Accounted.myAlloc (fits : size < 2 ^ 32) (accounted : m.Accounted)
    (owned : m.Owned (.myAlloc ptr osize nsize)) :
    (m.use (.myAlloc ptr osize nsize)).Accounted := by
  obtain ⟨counted, held⟩ := accounted
  have reallocs := m.userHeap.realloc_reallocs ptr osize nsize
  have honours := held.honours owned reallocs
  have sum := held.sum_le
  rw [Counted] at counted
  rw [use]
  revert reallocs honours
  generalize m.userHeap.realloc ptr osize nsize = done
  obtain ⟨result, heap⟩ := done
  intro reallocs honours
  cases reallocs with
  | nothing zero => exact ⟨counted, held⟩
  | frees p zero =>
    obtain ⟨-, live, kept⟩ := honours.freed zero
    rw [sdiff_some] at live kept
    refine ⟨?_, held.shrink (live ▸ Finset.erase_subset p _) (live ▸ kept)⟩
    have split := Finset.add_sum_erase m.live m.sizes owned.1
    show (m.userHeap.memoryUsed + 2 ^ 32 - osize) % 2 ^ 32 = ∑ p ∈ _, m.sizes p
    rw [LuaMemory.live, live, owned.2]
    omega
  | refuses _ positive full =>
    obtain ⟨live, kept, -⟩ := honours.refused positive rfl
    refine ⟨?_, held.shrink live.subset (live ▸ kept)⟩
    show m.userHeap.memoryUsed = ∑ p ∈ _, m.sizes p
    rw [LuaMemory.live, live, counted]
  | gives new positive given =>
    obtain ⟨fresh, live, kept, long, -⟩ := honours.given new rfl
    rw [sdiff_none] at live kept
    refine ⟨?_, held.update (Finset.Subset.refl _) fresh live kept long⟩
    have room := held.room given
    show (m.userHeap.memoryUsed + nsize) % 2 ^ 32 = ∑ p ∈ _, Function.update m.sizes new nsize p
    rw [LuaMemory.live, live, sum_update fresh, ← counted, Nat.mod_eq_of_lt (by omega)]
  | moves old new positive given =>
    obtain ⟨fresh, live, kept, long, -⟩ := honours.given new rfl
    rw [sdiff_some] at live kept
    refine ⟨?_, held.update (Finset.erase_subset old _) fresh live kept long⟩
    -- the sum of both blocks is below the size of the heap, so nothing wraps around
    have room := held.room given
    have split := Finset.add_sum_erase m.live m.sizes owned.1
    have gone : new ∉ m.live.erase old := fun member => fresh (mem_of_mem_erase member)
    show ((m.userHeap.memoryUsed + nsize) % 2 ^ 32 + 2 ^ 32 - osize) % 2 ^ 32 =
      ∑ p ∈ _, Function.update m.sizes new nsize p
    rw [LuaMemory.live, live, sum_update gone, owned.2, Nat.mod_eq_of_lt (by omega : _ + nsize < _)]
    omega

theorem Accounted.write {p : Nat} {content : List UInt8} (accounted : m.Accounted)
    (owned : m.Owned (.write p content)) : (m.use (.write p content)).Accounted := by
  obtain ⟨counted, held⟩ := accounted
  have short := owned.2.trans (held p owned.1)
  obtain ⟨live, written, same⟩ := api.store_live m.userHeap.heap p owned.1 content short
  constructor
  · show m.userHeap.memoryUsed = ∑ q ∈ _, m.sizes q
    rw [LuaMemory.live, use, live, counted]
    rfl
  · intro q member
    have before : q ∈ m.live := live.subset member
    show m.sizes q ≤ (api.bytes (api.store m.userHeap.heap p content) q).length
    by_cases same' : q = p
    · subst same'
      rw [written, List.length_append, List.length_drop]
      have holds := held q before
      simp only [LuaMemory.bytes] at holds short
      omega
    · rw [same q before same']
      exact held q before

theorem Accounted.use (fits : size < 2 ^ 32) (accounted : m.Accounted) (u : LuaMemoryUse)
    (owned : m.Owned u) : (m.use u).Accounted := by
  cases u with
  | myAlloc ptr osize nsize => exact accounted.myAlloc fits owned
  | write p content => exact accounted.write owned

theorem Accounted.sound (accounted : m.Accounted) : m.Sound where
  counted := accounted.counted
  held := accounted.held
  noUnderflow := by
    intro p member
    rw [accounted.counted]
    exact Finset.single_le_sum (fun _ _ => Nat.zero_le _) member
  honours ptr osize nsize owned :=
    accounted.held.honours owned (m.userHeap.realloc_reallocs ptr osize nsize)

/-- Whatever the interpreter does with its own blocks, what it uses is counted and every call
does what it has to. -/
theorem always_sound (api : MemoryHeapApi size) (fits : size < 2 ^ 32) (uses : List LuaMemoryUse)
    (owned : Guarded LuaMemory.use LuaMemory.Owned ({} : LuaMemory api) uses) :
    Always LuaMemory.use LuaMemory.Sound ({} : LuaMemory api) uses := by
  have start : Accounted ({} : LuaMemory api) := by
    constructor
    · show 0 = ∑ p ∈ api.live api.objectInit, _
      rw [api.live_objectInit, Finset.sum_empty]
    · intro p member
      rw [LuaMemory.live, api.live_objectInit] at member
      cases member
  exact (owned.always (fun _ u owned accounted => accounted.use fits u owned) start).mono
    fun _ accounted => accounted.sound

/-- A block that fills the heap cannot be made smaller, and is given back. -/
theorem always_sound_full :
    24 < 2 ^ 32 ∧ Always LuaMemory.use LuaMemory.Sound ({} : LuaMemory (countingHeap 24))
      [.myAlloc none 0 16, .myAlloc (some 1) 16 8, .myAlloc (some 1) 16 0] :=
  ⟨by decide, always_sound (countingHeap 24) (by decide) _
    ⟨trivial, ⟨by decide, by decide⟩, ⟨by decide, by decide⟩, trivial⟩⟩

/-- No block is refused to become smaller, or to stay as it is. -/
def GrantsShrinking (m : LuaMemory api) : Prop :=
  ∀ p ∈ m.live, ∀ nsize ≤ m.sizes p, nsize ≠ 0 → (m.userHeap.realloc (some p) (m.sizes p) nsize).1 ≠ none

/-- A block that fills the heap is refused to become smaller. -/
theorem refusesShrinking_full :
    ¬ ∀ uses, Guarded LuaMemory.use LuaMemory.Owned ({} : LuaMemory (countingHeap 24)) uses →
      Always LuaMemory.use GrantsShrinking ({} : LuaMemory (countingHeap 24)) uses := by
  intro always
  have grants := (always [.myAlloc none 0 16] ⟨trivial, trivial⟩).final
  exact grants 1 (by decide) 8 (by decide) (by decide) (by decide)

end LuaMemory

end FomeFw.Lua
