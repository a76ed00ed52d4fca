import LuxonServer.Wasm.Words

/-! The guest with its `malloc` and `free`, which the host calls: what of the memory is in use, and
what a host function may rely on when it allocates. -/

namespace LuxonServer

namespace Wasm

/-- The guest: its memory, the ranges that are not its allocator's (its data and its stack) and the
blocks that are allocated.  `exhausted` is that `malloc` has returned 0, `misfreed` that something
was freed that is not a block. -/
structure Instance where
  memory : Memory
  static : List ByteRange
  live : List ByteRange
  exhausted : Bool
  misfreed : Bool

/-- What the guest's allocator returns, and leaves in memory. -/
structure Allocator where
  malloc : Instance → UInt32 → UInt32 × Memory
  free : Instance → UInt32 → Memory

namespace Instance

/-- What nobody else may write to. -/
def inUse (inst : Instance) : List ByteRange := inst.static ++ inst.live

variable (allocator : Allocator)

/-- `w2c_luxon__server_malloc`. -/
def malloc (len : UInt32) (inst : Instance) : UInt32 × Instance :=
  let (ptr, memory) := allocator.malloc inst len
  (ptr, if ptr = 0 then { inst with memory, exhausted := true }
    else { inst with memory, live := ⟨ptr.toNat, len.toNat⟩ :: inst.live })

/-- `w2c_luxon__server_free`. -/
def free (ptr : UInt32) (inst : Instance) : Instance :=
  { inst with
    memory := allocator.free inst ptr
    live := inst.live.filter fun r => r.start ≠ ptr.toNat
    misfreed := inst.misfreed || !inst.live.any fun r => r.start = ptr.toNat }

/-- A store of the host. -/
def write (start : Nat) (data : List UInt8) (inst : Instance) : Instance :=
  { inst with memory := inst.memory.write start data }

end Instance

/-- The allocator hands out what is not in use, and keeps to what is not. -/
structure Allocator.Lawful (allocator : Allocator) : Prop where
  fits : ∀ inst len, (allocator.malloc inst len).1 ≠ 0 →
    (allocator.malloc inst len).1.toNat + len.toNat ≤ 2 ^ 32
  fresh : ∀ inst len, (allocator.malloc inst len).1 ≠ 0 →
    ∀ r ∈ inst.inUse, ByteRange.Apart ⟨(allocator.malloc inst len).1.toNat, len.toNat⟩ r
  malloc_keeps : ∀ inst len, ∀ r ∈ inst.inUse, ∀ address, r.Covers address →
    (allocator.malloc inst len).2 address = inst.memory address
  free_keeps : ∀ inst ptr, ∀ r ∈ (inst.free allocator ptr).inUse, ∀ address, r.Covers address →
    allocator.free inst ptr address = inst.memory address

/-- `inst'` is `inst` with more blocks, and what `inst` uses is as it was outside of `hole`. -/
structure Instance.Extends (hole : ByteRange) (inst : Instance) (added : List ByteRange)
    (inst' : Instance) : Prop where
  static : inst'.static = inst.static
  live : inst'.live = added ++ inst.live
  misfreed : inst'.misfreed = inst.misfreed
  keeps : ∀ r ∈ inst.inUse, ∀ address, r.Covers address → ¬hole.Covers address →
    inst'.memory address = inst.memory address
  fresh : ∀ r ∈ added, ∀ r' ∈ inst.inUse, r.Apart r'
  apart : added.Pairwise ByteRange.Apart

/-- A hole of no bytes. -/
def ByteRange.nowhere : ByteRange := ⟨0, 0⟩

theorem ByteRange.not_covers_nowhere (address : Nat) : ¬ByteRange.nowhere.Covers address :=
  fun hcovers => Nat.not_lt_zero _ hcovers.2

namespace Instance.Extends

variable {hole hole' : ByteRange} {inst inst' inst'' : Instance} {added added' : List ByteRange}

theorem refl (hole : ByteRange) (inst : Instance) : Extends hole inst [] inst where
  static := rfl
  live := rfl
  misfreed := rfl
  keeps _ _ _ _ _ := rfl
  fresh _ hr := absurd hr List.not_mem_nil
  apart := List.Pairwise.nil

theorem mem_inUse (hextends : Extends hole inst added inst') {r : ByteRange} :
    r ∈ inst'.inUse ↔ r ∈ added ∨ r ∈ inst.inUse := by
  rw [Instance.inUse, hextends.static, hextends.live, Instance.inUse, List.mem_append,
    List.mem_append, List.mem_append]
  exact or_left_comm

/-- The holes of two extensions count only where they meet what was in use at the start. -/
theorem trans {whole : ByteRange} (hfirst : Extends hole inst added inst')
    (hnext : Extends hole' inst' added' inst'')
    (hhole : ∀ r ∈ inst.inUse, ∀ address, r.Covers address → hole.Covers address →
      whole.Covers address)
    (hhole' : ∀ r ∈ inst.inUse, ∀ address, r.Covers address → hole'.Covers address →
      whole.Covers address) : Extends whole inst (added' ++ added) inst'' where
  static := hnext.static.trans hfirst.static
  live := by rw [hnext.live, hfirst.live, List.append_assoc]
  misfreed := hnext.misfreed.trans hfirst.misfreed
  keeps r hr address hcovers hout := by
    have hnext' := hnext.keeps r (hfirst.mem_inUse.mpr (.inr hr)) address hcovers
      fun hin => hout (hhole' r hr address hcovers hin)
    exact hnext'.trans (hfirst.keeps r hr address hcovers
      fun hin => hout (hhole r hr address hcovers hin))
  fresh r hr r' hr' := by
    rcases List.mem_append.mp hr with hr | hr
    · exact hnext.fresh r hr r' (hfirst.mem_inUse.mpr (.inr hr'))
    · exact hfirst.fresh r hr r' hr'
  apart := List.pairwise_append.mpr ⟨hnext.apart, hfirst.apart,
    fun r hr r' hr' => hnext.fresh r hr r' (hfirst.mem_inUse.mpr (.inl hr'))⟩

/-- A store into a block that was added. -/
theorem write (hextends : Extends hole inst added inst') {start : Nat} {data : List UInt8}
    {r : ByteRange} (hr : r ∈ added) (hinside : ByteRange.Inside ⟨start, data.length⟩ r) :
    Extends hole inst added (inst'.write start data) where
  static := hextends.static
  live := hextends.live
  misfreed := hextends.misfreed
  keeps r' hr' address hcovers hout := by
    refine (Memory.write_of_not_covers (Nat.le_refl _) inst'.memory fun hin => ?_).trans
      (hextends.keeps r' hr' address hcovers hout)
    exact hextends.fresh r hr r' hr' address (hinside.covers hin) hcovers
  fresh := hextends.fresh
  apart := hextends.apart

/-- A store into the hole. -/
theorem writeHole (hextends : Extends ByteRange.nowhere inst added inst') {start : Nat}
    {data : List UInt8} (hhole : hole = ⟨start, data.length⟩) :
    Extends hole inst added (inst'.write start data) where
  static := hextends.static
  live := hextends.live
  misfreed := hextends.misfreed
  keeps r hr address hcovers hout := by
    subst hhole
    exact (Memory.write_of_not_covers (Nat.le_refl _) inst'.memory hout).trans
      (hextends.keeps r hr address hcovers (ByteRange.not_covers_nowhere address))
  fresh := hextends.fresh
  apart := hextends.apart

/-- Bytes in use that the hole leaves alone. -/
theorem holds (hextends : Extends hole inst added inst') {start : Nat} {data : List UInt8}
    {r : ByteRange} (hholds : inst.memory.Holds start data) (hr : r ∈ inst.inUse)
    (hinside : ByteRange.Inside ⟨start, data.length⟩ r)
    (hapart : ByteRange.Apart ⟨start, data.length⟩ hole) : inst'.memory.Holds start data := by
  refine hholds.congr fun k hk => ?_
  have hcovers : ByteRange.Covers ⟨start, data.length⟩ (start + k) :=
    ⟨Nat.le_add_right start k, Nat.add_lt_add_left hk start⟩
  exact (hextends.keeps r hr _ (hinside.covers hcovers) (hapart _ hcovers)).symm

end Instance.Extends

section Lawful

variable {allocator : Allocator} (hlawful : allocator.Lawful) (inst : Instance)

include hlawful

/-- A block from `malloc`, if there is room. -/
theorem Allocator.Lawful.malloc_extends (len : UInt32)
    (hroom : (inst.malloc allocator len).2.exhausted = false) :
    (inst.malloc allocator len).1 ≠ 0 ∧ Instance.Extends ByteRange.nowhere inst
      [⟨(inst.malloc allocator len).1.toNat, len.toNat⟩] (inst.malloc allocator len).2 := by
  have hptr : (allocator.malloc inst len).1 ≠ 0 := by
    intro hzero
    simp [Instance.malloc, hzero] at hroom
  have hafter : (inst.malloc allocator len).2 = { inst with
      memory := (allocator.malloc inst len).2
      live := ⟨(allocator.malloc inst len).1.toNat, len.toNat⟩ :: inst.live } := if_neg hptr
  refine ⟨hptr, ?_⟩
  rw [hafter]
  exact {
    static := rfl
    live := rfl
    misfreed := rfl
    keeps := fun r hr address hcovers _ => hlawful.malloc_keeps inst len r hr address hcovers
    fresh := fun r hr => List.mem_singleton.mp hr ▸ hlawful.fresh inst len hptr
    apart := List.pairwise_singleton _ _ }

end Lawful

theorem Instance.exhausted_of_malloc {allocator : Allocator} {inst : Instance} (len : UInt32)
    (hroom : (inst.malloc allocator len).2.exhausted = false) : inst.exhausted = false := by
  unfold Instance.malloc at hroom
  dsimp only at hroom
  split at hroom
  · cases hroom
  · exact hroom

end Wasm

end LuxonServer
