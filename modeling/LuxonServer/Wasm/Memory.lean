import Mathlib.Data.UInt
import LuxonServer.Lib.Traced

/-! The memory of the WASM guest as the host functions see it: loads and stores at host addresses
`mem + p`, which do not wrap, after a check of guest pointers, whose sum does.  Each of them
records the range of bytes that it is about. -/

namespace LuxonServer

open Traced

namespace Wasm

/-- The bytes from the start of the guest's memory on; those past its size are the host's own. -/
abbrev Memory := Nat → UInt8

/-- `length` bytes from `start` on. -/
structure ByteRange where
  start : Nat
  length : Nat
  deriving DecidableEq, Repr

namespace ByteRange

/-- The range lies in a memory of that size. -/
def Within (memSize : UInt32) (r : ByteRange) : Prop := r.start + r.length ≤ memSize.toNat

instance (memSize : UInt32) : DecidablePred (Within memSize) :=
  fun r => inferInstanceAs (Decidable (r.start + r.length ≤ memSize.toNat))

def Covers (r : ByteRange) (address : Nat) : Prop :=
  r.start ≤ address ∧ address < r.start + r.length

@[simp] theorem within_mk {memSize : UInt32} {start length : Nat} :
    Within memSize ⟨start, length⟩ ↔ start + length ≤ memSize.toNat := Iff.rfl

theorem Within.lt_of_covers {memSize : UInt32} {r : ByteRange} (hr : r.Within memSize)
    (address : Nat) (hcovers : r.Covers address) : address < memSize.toNat :=
  hcovers.2.trans_le hr

end ByteRange

namespace Memory

def bytes (memory : Memory) (start length : Nat) : List UInt8 :=
  (List.range length).map fun k => memory (start + k)

/-- `*(uint16_t*)`. -/
def word16 (memory : Memory) (start : Nat) : UInt16 :=
  (memory start).toUInt16 ||| (memory (start + 1)).toUInt16 <<< 8

/-- `*(uint32_t*)`. -/
def word32 (memory : Memory) (start : Nat) : UInt32 :=
  (memory.word16 start).toUInt32 ||| (memory.word16 (start + 2)).toUInt32 <<< 16

/-- The 16 bytes of an IPv6 address. -/
def block16 (memory : Memory) (start : Nat) : Vector UInt8 16 :=
  Vector.ofFn fun k => memory (start + k)

/-- `data` in place of the bytes from `start` on. -/
def write (start : Nat) (data : List UInt8) (memory : Memory) : Memory := fun address =>
  if start ≤ address then data[address - start]?.getD (memory address) else memory address

theorem write_of_not_covers {start address : Nat} {data : List UInt8} {length : Nat}
    (hlength : data.length ≤ length) (memory : Memory)
    (hout : ¬ByteRange.Covers ⟨start, length⟩ address) :
    memory.write start data address = memory address := by
  unfold write
  split
  · next hstart =>
    have hend : start + length ≤ address := Nat.not_lt.mp fun hlt => hout ⟨hstart, hlt⟩
    rw [List.getElem?_eq_none (by omega)]
    rfl
  · rfl

theorem write_congr {start address : Nat} {data : List UInt8} {memory memory' : Memory}
    (hagree : memory address = memory' address) :
    memory.write start data address = memory'.write start data address := by
  unfold write
  rw [hagree]

/-- The memories have the same bytes in the range. -/
def AgreeOn (start length : Nat) (memory memory' : Memory) : Prop :=
  ∀ k < length, memory (start + k) = memory' (start + k)

section Agree

variable {memory memory' : Memory} {start : Nat}

theorem word16_eq (hagree : AgreeOn start 2 memory memory') :
    memory'.word16 start = memory.word16 start := by
  have hlow : memory start = memory' start := hagree 0 (by decide)
  have hhigh : memory (start + 1) = memory' (start + 1) := hagree 1 (by decide)
  rw [word16, word16, hlow, hhigh]

theorem word32_eq (hagree : AgreeOn start 4 memory memory') :
    memory'.word32 start = memory.word32 start := by
  have hlow : memory'.word16 start = memory.word16 start :=
    word16_eq fun k hk => hagree k (by omega)
  have hhigh : memory'.word16 (start + 2) = memory.word16 (start + 2) := by
    refine word16_eq fun k hk => ?_
    rw [Nat.add_assoc]
    exact hagree (2 + k) (by omega)
  rw [word32, word32, hlow, hhigh]

theorem block16_eq (hagree : AgreeOn start 16 memory memory') :
    memory'.block16 start = memory.block16 start := by
  unfold block16
  congr 1
  funext k
  exact (hagree k k.isLt).symm

theorem bytes_eq {length : Nat} (hagree : AgreeOn start length memory memory') :
    memory'.bytes start length = memory.bytes start length :=
  List.map_congr_left fun k hk => (hagree k (List.mem_range.mp hk)).symm

end Agree

end Memory

def le16 (v : UInt16) : List UInt8 := [v.toUInt8, (v >>> 8).toUInt8]

def le32 (v : UInt32) : List UInt8 := le16 v.toUInt16 ++ le16 (v >>> 16).toUInt16

/-- What a host function does with the guest's memory. -/
abbrev Access := Traced ByteRange Memory

variable {α : Type}

/-- A load of `length` bytes. -/
def load (length : Nat) (read : Memory → Nat → α) (start : Nat) : Access α := do
  record ⟨start, length⟩
  look (read · start)

def load16 : Nat → Access UInt16 := load 2 Memory.word16

def load32 : Nat → Access UInt32 := load 4 Memory.word32

/-- The bytes `[start, start + length)` go to a call of the host, which reads them. -/
def lend (start length : Nat) : Access (List UInt8) :=
  load length (fun memory start => memory.bytes start length) start

/-- The range `[start, start + length)` goes to a call of the host, which leaves `data` in it. -/
def receive (start length : Nat) (data : List UInt8) : Access Unit := do
  record ⟨start, length⟩
  change (Memory.write start (data.take length))

def store (start : Nat) (data : List UInt8) : Access Unit := receive start data.length data

def store32 (start : Nat) (v : UInt32) : Access Unit := store start (le32 v)

/-- The check before an access, `ptr + len > mem_size`; the sum is one of 32 bits. -/
def refuses (memSize ptr len : UInt32) : Bool := ptr + len > memSize

section Rules

variable {P : ByteRange → Prop} {memory : Memory} {start length : Nat} {data : List UInt8}

@[simp] theorem each_load {read : Memory → Nat → α} :
    Each P (load length read start) memory ↔ P ⟨start, length⟩ := by
  simp [load]

@[simp] theorem load_value {read : Memory → Nat → α} :
    ((load length read start).run memory).value = read memory start := rfl

@[simp] theorem load_state {read : Memory → Nat → α} :
    ((load length read start).run memory).state = memory := rfl

@[simp] theorem each_load16 : Each P (load16 start) memory ↔ P ⟨start, 2⟩ := each_load

@[simp] theorem load16_value : ((load16 start).run memory).value = memory.word16 start := rfl

@[simp] theorem load16_state : ((load16 start).run memory).state = memory := rfl

@[simp] theorem each_load32 : Each P (load32 start) memory ↔ P ⟨start, 4⟩ := each_load

@[simp] theorem load32_value : ((load32 start).run memory).value = memory.word32 start := rfl

@[simp] theorem load32_state : ((load32 start).run memory).state = memory := rfl

@[simp] theorem each_lend : Each P (lend start length) memory ↔ P ⟨start, length⟩ := each_load

@[simp] theorem lend_state : ((lend start length).run memory).state = memory := rfl

@[simp] theorem each_receive : Each P (receive start length data) memory ↔ P ⟨start, length⟩ := by
  simp [receive]

@[simp] theorem receive_state :
    ((receive start length data).run memory).state = memory.write start (data.take length) := rfl

@[simp] theorem each_store : Each P (store start data) memory ↔ P ⟨start, data.length⟩ :=
  each_receive

@[simp] theorem each_store32 {v : UInt32} : Each P (store32 start v) memory ↔ P ⟨start, 4⟩ :=
  each_store

theorem confined_load {read : Memory → Nat → α} (hread : ∀ {memory memory' : Memory},
    Memory.AgreeOn start length memory memory' → read memory' start = read memory start) :
    Confined ByteRange.Covers (load length read start) := by
  refine confined_record_look fun memory memory' hagree => hread fun k hk => ?_
  exact hagree (start + k) ⟨Nat.le_add_right start k, Nat.add_lt_add_left hk start⟩

theorem confined_load16 : Confined ByteRange.Covers (load16 start) :=
  confined_load Memory.word16_eq

theorem confined_load32 : Confined ByteRange.Covers (load32 start) :=
  confined_load Memory.word32_eq

theorem confined_block16 : Confined ByteRange.Covers (load 16 Memory.block16 start) :=
  confined_load Memory.block16_eq

theorem confined_lend : Confined ByteRange.Covers (lend start length) :=
  confined_load Memory.bytes_eq

theorem confined_receive : Confined ByteRange.Covers (receive start length data) :=
  confined_record_change
    (fun memory _ hout => Memory.write_of_not_covers (List.length_take_le _ _) memory hout)
    (fun _ _ _ hagree => Memory.write_congr hagree)

end Rules

end Wasm

end LuxonServer
