import Mathlib.Algebra.Order.Ring.Nat
import Mathlib.Data.List.Infix
import Mathlib.Tactic.Ring

/-! A stream of length-prefixed frames.  A frame is the length of its payload, in big-endian bytes
of a fixed number, and the payload.  The reader has a buffer of what has arrived, which may end
anywhere in a frame. -/

namespace Framing

/-- A number in `width` big-endian bytes. -/
def bigEndian : Nat → Nat → List UInt8
  | 0, _ => []
  | width + 1, n => bigEndian width (n / 256) ++ [UInt8.ofNat n]

/-- The number of some big-endian bytes. -/
def ofBigEndian (bytes : List UInt8) : Nat := bytes.foldl (fun n byte => n * 256 + byte.toNat) 0

def frame (width : Nat) (payload : List UInt8) : List UInt8 :=
  bigEndian width payload.length ++ payload

/-- The payload of the first frame, if it is there as a whole, and what is behind it. -/
def next (width : Nat) (buffer : List UInt8) : Option (List UInt8 × List UInt8) :=
  if buffer.length < width then none
  else
    let size := ofBigEndian (buffer.take width)
    if buffer.length < width + size then none
    else some ((buffer.drop width).take size, buffer.drop (width + size))

section Headers

variable (width n : Nat)

@[simp] theorem length_bigEndian : (bigEndian width n).length = width := by
  induction width generalizing n with
  | zero => rfl
  | succ width ih => simp [bigEndian, ih]

theorem ofBigEndian_append (bytes : List UInt8) (byte : UInt8) :
    ofBigEndian (bytes ++ [byte]) = ofBigEndian bytes * 256 + byte.toNat := by
  simp [ofBigEndian]

variable {width n}

theorem ofBigEndian_bigEndian (hn : n < 256 ^ width) : ofBigEndian (bigEndian width n) = n := by
  induction width generalizing n with
  | zero =>
    have hzero : n = 0 := by simpa using hn
    rw [hzero]
    rfl
  | succ width ih =>
    have hdiv : n / 256 < 256 ^ width := by
      apply (Nat.div_lt_iff_lt_mul (by decide : 0 < 256)).mpr
      rwa [← pow_succ]
    rw [bigEndian, ofBigEndian_append, ih hdiv, UInt8.toNat_ofNat']
    omega

end Headers

section Reading

variable {width : Nat} {payload buffer rest : List UInt8}

@[simp] theorem length_frame : (frame width payload).length = width + payload.length := by
  simp [frame]

theorem next_nil (hwidth : 0 < width) : next width [] = none := if_pos hwidth

theorem next_frame_append (hfit : payload.length < 256 ^ width) :
    next width (frame width payload ++ rest) = some (payload, rest) := by
  have hheader : (frame width payload ++ rest).take width = bigEndian width payload.length := by
    rw [frame, List.append_assoc, List.take_left' (length_bigEndian _ _)]
  have hbody : (frame width payload ++ rest).drop width = payload ++ rest := by
    rw [frame, List.append_assoc, List.drop_left' (length_bigEndian _ _)]
  have hlong : width + payload.length ≤ (frame width payload ++ rest).length := by
    rw [List.length_append, length_frame]
    exact Nat.le_add_right _ _
  unfold next
  rw [if_neg (by omega), hheader, ofBigEndian_bigEndian hfit, if_neg (by omega), hbody,
    List.take_left, ← List.drop_drop, hbody, List.drop_left]

/-- The first frame is not there yet. -/
theorem next_of_incomplete (hfit : payload.length < 256 ^ width)
    (hpre : buffer <+: frame width payload)
    (hshort : buffer.length < (frame width payload).length) : next width buffer = none := by
  unfold next
  split
  · rfl
  · next hheader =>
    obtain ⟨more, hmore⟩ := hpre
    have hheader : buffer.take width = bigEndian width payload.length := by
      calc
        buffer.take width = (buffer ++ more).take width :=
          (List.take_append_of_le_length (Nat.le_of_not_lt hheader)).symm
        _ = bigEndian width payload.length := by
          rw [hmore, frame, List.take_left' (length_bigEndian _ _)]
    rw [hheader, ofBigEndian_bigEndian hfit]
    rw [length_frame] at hshort
    exact if_pos hshort

/-- What a reader finds in its buffer while the frames of some payloads arrive: nothing as long as
the first frame is not there as a whole, and then its payload, with the others to come. -/
theorem next_of_stream {payloads : List (List UInt8)} {more : List UInt8} (hwidth : 0 < width)
    (hfit : ∀ payload ∈ payloads, payload.length < 256 ^ width)
    (hstream : buffer ++ more = payloads.flatMap (frame width)) :
    (next width buffer = none ∧ (more = [] → payloads = [])) ∨
      ∃ payload others rest, payloads = payload :: others ∧
        next width buffer = some (payload, rest) ∧ rest ++ more = others.flatMap (frame width) := by
  cases payloads with
  | nil =>
    obtain ⟨rfl, -⟩ := List.append_eq_nil_iff.mp hstream
    exact Or.inl ⟨next_nil hwidth, fun _ => rfl⟩
  | cons payload others =>
    rw [List.flatMap_cons] at hstream
    have hpayload := hfit payload List.mem_cons_self
    rcases Nat.lt_or_ge buffer.length (frame width payload).length with hshort | hlong
    · have hpre : buffer <+: frame width payload :=
        List.prefix_of_prefix_length_le ⟨more, hstream⟩ (List.prefix_append _ _) hshort.le
      refine Or.inl ⟨next_of_incomplete hpayload hpre hshort, fun hmore => ?_⟩
      have hlength := congrArg List.length hstream
      rw [hmore] at hlength
      simp only [List.length_append, List.length_nil] at hlength
      omega
    · obtain ⟨rest, rfl⟩ : frame width payload <+: buffer :=
        List.prefix_of_prefix_length_le (List.prefix_append _ _) ⟨more, hstream⟩ hlong
      rw [List.append_assoc] at hstream
      exact Or.inr ⟨payload, others, rest, rfl, next_frame_append hpayload,
        List.append_cancel_left hstream⟩

end Reading

end Framing
