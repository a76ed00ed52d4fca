import Mathlib.Data.Nat.Bitwise
import LuxonServer.Wasm.Memory

/-! Bytes that a memory holds from an address on, and the words that they are: what a write leaves
to read, and what it leaves alone.  The words of 64 bits are here as well. -/

namespace LuxonServer

open Traced

namespace Wasm

/-- No byte is in both ranges. -/
def ByteRange.Apart (r r' : ByteRange) : Prop := ∀ address, r.Covers address → ¬r'.Covers address

theorem ByteRange.apart_of_le {r r' : ByteRange}
    (hle : r.length = 0 ∨ r'.length = 0 ∨ r.start + r.length ≤ r'.start ∨
      r'.start + r'.length ≤ r.start) : r.Apart r' := by
  rintro address ⟨hlow, hhigh⟩ ⟨hlow', hhigh'⟩
  omega

/-- Every byte of the first range is one of the second. -/
def ByteRange.Inside (r r' : ByteRange) : Prop :=
  r'.start ≤ r.start ∧ r.start + r.length ≤ r'.start + r'.length

theorem ByteRange.Inside.covers {r r' : ByteRange} (hinside : r.Inside r') {address : Nat}
    (hcovers : r.Covers address) : r'.Covers address :=
  ⟨hinside.1.trans hcovers.1, hcovers.2.trans_le hinside.2⟩

namespace Memory

/-- The memory has `data` from `start` on. -/
def Holds (memory : Memory) (start : Nat) (data : List UInt8) : Prop :=
  ∀ k (h : k < data.length), memory (start + k) = data[k]

variable {memory memory' : Memory} {start : Nat} {data more : List UInt8}

theorem holds_write (memory : Memory) (start : Nat) (data : List UInt8) :
    (memory.write start data).Holds start data := by
  intro k hk
  rw [write, if_pos (Nat.le_add_right start k), Nat.add_sub_cancel_left,
    List.getElem?_eq_getElem hk]
  rfl

theorem Holds.congr (hholds : memory.Holds start data)
    (hagree : AgreeOn start data.length memory memory') : memory'.Holds start data :=
  fun k hk => (hagree k hk).symm.trans (hholds k hk)

/-- Nothing but the range has changed. -/
def SameOutside (r : ByteRange) (memory memory' : Memory) : Prop :=
  ∀ address, ¬r.Covers address → memory' address = memory address

theorem sameOutside_write (memory : Memory) (start : Nat) (data : List UInt8) :
    SameOutside ⟨start, data.length⟩ memory (memory.write start data) :=
  fun _ hout => write_of_not_covers (Nat.le_refl _) memory hout

theorem Holds.frame {r : ByteRange} (hholds : memory.Holds start data)
    (hsame : SameOutside r memory memory') (hapart : ByteRange.Apart ⟨start, data.length⟩ r) :
    memory'.Holds start data :=
  hholds.congr fun k hk => (hsame _ (hapart _
    ⟨Nat.le_add_right start k, Nat.add_lt_add_left hk start⟩)).symm

/-- A write elsewhere leaves the bytes. -/
theorem Holds.write (hholds : memory.Holds start data) (other : Nat) (more : List UInt8)
    (hdisjoint : start + data.length ≤ other ∨ other + more.length ≤ start) :
    (memory.write other more).Holds start data :=
  hholds.frame (sameOutside_write memory other more)
    (ByteRange.apart_of_le (.inr (.inr hdisjoint)))

theorem holds_append :
    memory.Holds start (data ++ more) ↔
      memory.Holds start data ∧ memory.Holds (start + data.length) more := by
  constructor
  · intro hholds
    refine ⟨fun k hk => ?_, fun k hk => ?_⟩
    · rw [hholds k (by rw [List.length_append]; omega), List.getElem_append_left hk]
    · rw [Nat.add_assoc, hholds (data.length + k) (by rw [List.length_append]; omega),
        List.getElem_append_right (Nat.le_add_right _ k)]
      congr 1
      omega
  · rintro ⟨hdata, hmore⟩ k hk
    rw [List.length_append] at hk
    by_cases hlow : k < data.length
    · rw [hdata k hlow, List.getElem_append_left hlow]
    · have hhigh := hmore (k - data.length) (by omega)
      rw [List.getElem_append_right (by omega), ← hhigh]
      congr 1
      omega

/-- Writing on where the bytes end. -/
theorem Holds.push (hholds : memory.Holds start data) (other : Nat) (more : List UInt8)
    (hother : other = start + data.length) :
    (memory.write other more).Holds start (data ++ more) := by
  subst hother
  exact holds_append.mpr ⟨hholds.write _ more (.inl (Nat.le_refl _)), holds_write _ _ _⟩

theorem holds_cons {byte : UInt8} :
    memory.Holds start (byte :: data) ↔ memory start = byte ∧ memory.Holds (start + 1) data := by
  rw [← List.singleton_append, holds_append]
  refine and_congr_left fun _ => ⟨fun h => h 0 Nat.one_pos, fun h k hk => ?_⟩
  obtain rfl : k = 0 := Nat.lt_one_iff.mp hk
  exact h

end Memory

/-- `*(uint64_t*)`. -/
def Memory.word64 (memory : Memory) (start : Nat) : UInt64 :=
  (memory.word32 start).toUInt64 ||| (memory.word32 (start + 4)).toUInt64 <<< 32

def le64 (v : UInt64) : List UInt8 := le32 v.toUInt32 ++ le32 (v >>> 32).toUInt32

def load64 : Nat → Access UInt64 := load 8 Memory.word64

def store64 (start : Nat) (v : UInt64) : Access Unit := store start (le64 v)

/-- Two words side by side. -/
theorem or_shiftLeft {low k : Nat} (hlow : low < 2 ^ k) (high : Nat) :
    low ||| high <<< k = low + 2 ^ k * high := by
  rw [Nat.lor_comm, ← Nat.shiftLeft_add_eq_or_of_lt hlow, Nat.shiftLeft_eq, Nat.mul_comm,
    Nat.add_comm]

namespace Memory

variable (memory : Memory) (start : Nat)

theorem word16_toNat :
    (memory.word16 start).toNat = (memory start).toNat + 256 * (memory (start + 1)).toNat := by
  have hlow := (memory start).toNat_lt
  have hhigh := (memory (start + 1)).toNat_lt
  rw [word16, UInt16.toNat_or, UInt16.toNat_shiftLeft, UInt8.toNat_toUInt16, UInt8.toNat_toUInt16,
    Nat.mod_eq_of_lt (b := 2 ^ 16)]
  · exact or_shiftLeft hlow _
  · rw [Nat.shiftLeft_eq]
    show _ * 2 ^ 8 < _
    omega

theorem word32_toNat : (memory.word32 start).toNat =
    (memory.word16 start).toNat + 65536 * (memory.word16 (start + 2)).toNat := by
  have hlow := (memory.word16 start).toNat_lt
  have hhigh := (memory.word16 (start + 2)).toNat_lt
  rw [word32, UInt32.toNat_or, UInt32.toNat_shiftLeft, UInt16.toNat_toUInt32,
    UInt16.toNat_toUInt32, Nat.mod_eq_of_lt (b := 2 ^ 32)]
  · exact or_shiftLeft hlow _
  · rw [Nat.shiftLeft_eq]
    show _ * 2 ^ 16 < _
    omega

theorem word64_toNat : (memory.word64 start).toNat =
    (memory.word32 start).toNat + 4294967296 * (memory.word32 (start + 4)).toNat := by
  have hlow := (memory.word32 start).toNat_lt
  have hhigh := (memory.word32 (start + 4)).toNat_lt
  rw [word64, UInt64.toNat_or, UInt64.toNat_shiftLeft, UInt32.toNat_toUInt64,
    UInt32.toNat_toUInt64, Nat.mod_eq_of_lt (b := 2 ^ 64)]
  · exact or_shiftLeft hlow _
  · rw [Nat.shiftLeft_eq]
    show _ * 2 ^ 32 < _
    omega

variable {memory start}

/-- Reading a word that was stored. -/
theorem Holds.word16 {v : UInt16} (hholds : memory.Holds start (le16 v)) :
    memory.word16 start = v := by
  obtain ⟨hlow, hhigh⟩ := holds_cons.mp hholds
  have hhigh := (holds_cons.mp hhigh).1
  have hv := v.toNat_lt
  rw [← UInt16.toNat_inj, word16_toNat, hlow, hhigh, UInt16.toNat_toUInt8, UInt16.toNat_toUInt8,
    UInt16.toNat_shiftRight, Nat.shiftRight_eq_div_pow]
  show _ % 256 + 256 * (_ / 256 % 256) = _
  omega

/-- Storing a word that was read. -/
theorem holds_word16 : memory.Holds start (le16 (memory.word16 start)) := by
  have hlow := (memory start).toNat_lt
  have hhigh := (memory (start + 1)).toNat_lt
  have hword := memory.word16_toNat start
  refine holds_cons.mpr ⟨?_, holds_cons.mpr ⟨?_, fun _ h => absurd h (Nat.not_lt_zero _)⟩⟩
  · rw [← UInt8.toNat_inj, UInt16.toNat_toUInt8, hword]
    show _ = _ % 256
    omega
  · rw [← UInt8.toNat_inj, UInt16.toNat_toUInt8, UInt16.toNat_shiftRight, hword,
      Nat.shiftRight_eq_div_pow]
    show _ = _ / 256 % 256
    omega

theorem Holds.word32 {v : UInt32} (hholds : memory.Holds start (le32 v)) :
    memory.word32 start = v := by
  obtain ⟨hlow, hhigh⟩ := holds_append.mp hholds
  have hhigh : memory.Holds (start + 2) (le16 (v >>> 16).toUInt16) := hhigh
  have hv := v.toNat_lt
  rw [← UInt32.toNat_inj, word32_toNat, hlow.word16, hhigh.word16, UInt32.toNat_toUInt16,
    UInt32.toNat_toUInt16, UInt32.toNat_shiftRight, Nat.shiftRight_eq_div_pow]
  show _ % 65536 + 65536 * (_ / 65536 % 65536) = _
  omega

theorem holds_word32 : memory.Holds start (le32 (memory.word32 start)) := by
  have hlow := (memory.word16 start).toNat_lt
  have hhigh := (memory.word16 (start + 2)).toNat_lt
  have hword := memory.word32_toNat start
  have hlow' : (memory.word32 start).toUInt16 = memory.word16 start := by
    rw [← UInt16.toNat_inj, UInt32.toNat_toUInt16, hword]
    show _ % 65536 = _
    omega
  have hhigh' : (memory.word32 start >>> 16).toUInt16 = memory.word16 (start + 2) := by
    rw [← UInt16.toNat_inj, UInt32.toNat_toUInt16, UInt32.toNat_shiftRight, hword,
      Nat.shiftRight_eq_div_pow]
    show _ / 65536 % 65536 = _
    omega
  rw [le32, hlow', hhigh']
  exact holds_append.mpr ⟨holds_word16, holds_word16⟩

theorem Holds.word64 {v : UInt64} (hholds : memory.Holds start (le64 v)) :
    memory.word64 start = v := by
  obtain ⟨hlow, hhigh⟩ := holds_append.mp hholds
  have hhigh : memory.Holds (start + 4) (le32 (v >>> 32).toUInt32) := hhigh
  have hv := v.toNat_lt
  rw [← UInt64.toNat_inj, word64_toNat, hlow.word32, hhigh.word32, UInt64.toNat_toUInt32,
    UInt64.toNat_toUInt32, UInt64.toNat_shiftRight, Nat.shiftRight_eq_div_pow]
  show _ % 4294967296 + 4294967296 * (_ / 4294967296 % 4294967296) = _
  omega

theorem word64_eq {memory' : Memory} (hagree : AgreeOn start 8 memory memory') :
    memory'.word64 start = memory.word64 start := by
  have hlow : memory'.word32 start = memory.word32 start :=
    word32_eq fun k hk => hagree k (by omega)
  have hhigh : memory'.word32 (start + 4) = memory.word32 (start + 4) := by
    refine word32_eq fun k hk => ?_
    rw [Nat.add_assoc]
    exact hagree (4 + k) (by omega)
  rw [Memory.word64, Memory.word64, hlow, hhigh]

/-- Reading a block that was stored. -/
theorem Holds.block16 {block : Vector UInt8 16} (hholds : memory.Holds start block.toList) :
    memory.block16 start = block := by
  refine Vector.ext fun k hk => ?_
  rw [Memory.block16, Vector.getElem_ofFn]
  exact (hholds k (by simpa using hk)).trans (by simp)

theorem holds_block16 : memory.Holds start (memory.block16 start).toList := by
  intro k hk
  simp [Memory.block16]

end Memory

section Rules

variable {P : ByteRange → Prop} {memory : Memory} {start : Nat} {data : List UInt8}

@[simp] theorem store_state :
    ((store start data).run memory).state = memory.write start data := by
  rw [store, receive_state, List.take_length]

@[simp] theorem store32_state {v : UInt32} :
    ((store32 start v).run memory).state = memory.write start (le32 v) := store_state

@[simp] theorem store64_state {v : UInt64} :
    ((store64 start v).run memory).state = memory.write start (le64 v) := store_state

@[simp] theorem each_load64 : Each P (load64 start) memory ↔ P ⟨start, 8⟩ := each_load

@[simp] theorem load64_value : ((load64 start).run memory).value = memory.word64 start := rfl

@[simp] theorem load64_state : ((load64 start).run memory).state = memory := rfl

@[simp] theorem each_store64 {v : UInt64} : Each P (store64 start v) memory ↔ P ⟨start, 8⟩ :=
  each_store

theorem confined_load64 : Confined ByteRange.Covers (load64 start) :=
  confined_load Memory.word64_eq

end Rules

end Wasm

end LuxonServer
