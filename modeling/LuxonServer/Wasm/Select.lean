import LuxonServer.Wasm.Words

/-! `select`: the descriptor sets of the guest are arrays of words of 64 bits, which are copied into
sets of the host, and back when the call has come to something. -/

namespace LuxonServer

open Traced

namespace Wasm

/-- An `fd_set` of the host. -/
abbrev FdSet := Nat → Bool

/-- `FD_ZERO`. -/
def fdZero : FdSet := fun _ => false

/-- `FD_SET`. -/
def fdSet (i : Nat) (fds : FdSet) : FdSet := fun j => j == i || fds j

/-- How often `for (int i = 0; i < nfds; i++)` goes round. -/
def fdRounds (nfds : UInt32) : Nat := nfds.toInt32.toInt.toNat

/-- `((nfds + 63) / 64) * 8` as a `size_t`. -/
def fdBytes (nfds : UInt32) : Nat := ((nfds.toInt32.toInt + 63).tdiv 64 * 8 % 2 ^ 64).toNat

/-- `&g_bits[i >> 6]`. -/
def fdWord (guestFds i : Nat) : Nat := guestFds + 8 * (i / 64)

/-- `1ULL << (i & 63)`. -/
def fdMask (i : Nat) : UInt64 := 1 <<< UInt64.ofNat (i % 64)

/-- `fd_set_g2h`, the loop for the descriptors below `n`. -/
def fdSetG2h (guestFds : Nat) : Nat → Access FdSet
  | 0 => pure fdZero
  | n + 1 => do
    let fds ← fdSetG2h guestFds n
    let bits ← load64 (fdWord guestFds n)
    pure (if bits &&& fdMask n ≠ 0 then fdSet n fds else fds)

/-- The loop of `fd_set_h2g`. -/
def fdMark (hostFds : FdSet) (guestFds : Nat) : Nat → Access Unit
  | 0 => pure ()
  | n + 1 => do
    fdMark hostFds guestFds n
    if hostFds n then do
      let bits ← load64 (fdWord guestFds n)
      store64 (fdWord guestFds n) (bits ||| fdMask n)
    else pure ()

/-- `fd_set_h2g`. -/
def fdSetH2g (hostFds : FdSet) (guestFds : Nat) (nfds : UInt32) : Access Unit := do
  store guestFds (List.replicate (fdBytes nfds) 0)
  fdMark hostFds guestFds (fdRounds nfds)

/-- What `select` comes to, and what it left in the sets and the timeout. -/
structure Selected where
  res : Int
  readfds : FdSet
  writefds : FdSet
  exceptfds : FdSet
  timeout : UInt64 × UInt64

/-- `select` of the host. -/
abbrev SelectHost :=
  UInt32 → Option FdSet → Option FdSet → Option FdSet → Option (UInt64 × UInt64) → Selected

/-- A set that the guest may leave out. -/
def guestSet (fdsPtr nfds : UInt32) : Access (Option FdSet) :=
  if fdsPtr ≠ 0 then do
    let fds ← fdSetG2h fdsPtr.toNat (fdRounds nfds)
    pure (some fds)
  else pure none

def guestTimeout (timeoutPtr : UInt32) : Access (Option (UInt64 × UInt64)) :=
  if timeoutPtr ≠ 0 then do
    let sec ← load64 timeoutPtr.toNat
    let usec ← load64 (timeoutPtr.toNat + 8)
    pure (some (sec, usec))
  else pure none

def returnSet (hostFds : FdSet) (fdsPtr nfds : UInt32) : Access Unit :=
  if fdsPtr ≠ 0 then fdSetH2g hostFds fdsPtr.toNat nfds else pure ()

def returnTimeout (timeoutPtr : UInt32) (timeout : UInt64 × UInt64) : Access Unit :=
  if timeoutPtr ≠ 0 then do
    store64 timeoutPtr.toNat timeout.1
    store64 (timeoutPtr.toNat + 8) timeout.2
  else pure ()

/-- A pointer that is given and whose range is refused. -/
def refusesGiven (memSize ptr len : UInt32) : Bool := ptr ≠ 0 && refuses memSize ptr len

/-- `w2c_env_socket_select`. -/
def socketSelect (host : SelectHost) (memSize nfds readfdsPtr writefdsPtr exceptfdsPtr
    timeoutPtr : UInt32) : Access UInt32 :=
  if refusesGiven memSize readfdsPtr 128 || refusesGiven memSize writefdsPtr 128 ||
      refusesGiven memSize exceptfdsPtr 128 then pure (-1) else do
    let readfds ← guestSet readfdsPtr nfds
    let writefds ← guestSet writefdsPtr nfds
    let exceptfds ← guestSet exceptfdsPtr nfds
    if refusesGiven memSize timeoutPtr 16 then pure (-1) else do
      let timeout ← guestTimeout timeoutPtr
      let selected := host nfds readfds writefds exceptfds timeout
      if selected.res ≥ 0 then do
        returnSet selected.readfds readfdsPtr nfds
        returnSet selected.writefds writefdsPtr nfds
        returnSet selected.exceptfds exceptfdsPtr nfds
        returnTimeout timeoutPtr selected.timeout
        pure (UInt32.ofInt selected.res)
      else pure (UInt32.ofInt selected.res)

namespace Memory

/-- The bit of a descriptor in a set of the guest. -/
def fdBit (memory : Memory) (guestFds i : Nat) : Bool :=
  (memory.word64 (fdWord guestFds i)).toNat.testBit (i % 64)

end Memory

theorem fdMask_toNat (i : Nat) : (fdMask i).toNat = 2 ^ (i % 64) := by
  have hi : i % 64 < 64 := Nat.mod_lt _ (by decide)
  have hpow : 2 ^ (i % 64) < 2 ^ 64 := Nat.pow_lt_pow_right (by decide) hi
  rw [fdMask, UInt64.toNat_shiftLeft, UInt64.toNat_ofNat',
    Nat.mod_eq_of_lt (hi.trans (by decide)), Nat.mod_eq_of_lt hi,
    show (1 : UInt64).toNat = 1 from rfl, Nat.one_shiftLeft]
  exact Nat.mod_eq_of_lt hpow

/-- The test of a bit. -/
theorem and_fdMask_ne_zero {bits : UInt64} {i : Nat} :
    bits &&& fdMask i ≠ 0 ↔ bits.toNat.testBit (i % 64) = true := by
  have hpow : 0 < 2 ^ (i % 64) := Nat.two_pow_pos _
  rw [ne_eq, ← UInt64.toNat_inj, UInt64.toNat_and, fdMask_toNat, Nat.and_two_pow]
  cases bits.toNat.testBit (i % 64) with
  | true => exact iff_of_true (by simp) rfl
  | false => exact iff_of_false (by simp) Bool.false_ne_true

section Sets

variable {memory : Memory} {guestFds : Nat}

@[simp] theorem fdSetG2h_state (n : Nat) : ((fdSetG2h guestFds n).run memory).state = memory := by
  induction n with
  | zero => rfl
  | succ n ih => simp [fdSetG2h, ih]

/-- What the host sees of a set of the guest. -/
theorem fdSetG2h_value (n : Nat) : ((fdSetG2h guestFds n).run memory).value =
    fun i => decide (i < n) && memory.fdBit guestFds i := by
  induction n with
  | zero =>
    funext i
    simp [fdSetG2h, fdZero]
  | succ n ih =>
    funext i
    have hbit : memory.word64 (fdWord guestFds n) &&& fdMask n ≠ 0 ↔
        memory.fdBit guestFds n = true := and_fdMask_ne_zero
    simp only [fdSetG2h, bind_value, fdSetG2h_state, load64_value, load64_state,
      run_pure, hbit, ih]
    by_cases hin : i = n
    · subst hin
      cases memory.fdBit guestFds i <;> simp [fdSet]
    · have hlt : i < n + 1 ↔ i < n := by omega
      cases memory.fdBit guestFds n <;> simp [fdSet, hin, hlt]

/-- Setting one bit. -/
theorem fdBit_mark (i j : Nat) :
    (memory.write (fdWord guestFds i)
        (le64 (memory.word64 (fdWord guestFds i) ||| fdMask i))).fdBit guestFds j =
      (memory.fdBit guestFds j || j == i) := by
  unfold Memory.fdBit
  by_cases hword : j / 64 = i / 64
  · have hsame : fdWord guestFds j = fdWord guestFds i := by rw [fdWord, fdWord, hword]
    have hbit : (i % 64 = j % 64) ↔ j = i := by omega
    rw [hsame, (Memory.holds_write memory _ _).word64, UInt64.toNat_or, Nat.testBit_or,
      fdMask_toNat, Nat.testBit_two_pow]
    congr 1
    rw [Bool.eq_iff_iff, decide_eq_true_iff, beq_iff_eq]
    exact hbit
  · have hne : j ≠ i := fun heq => hword (by rw [heq])
    have hother : (memory.write (fdWord guestFds i)
        (le64 (memory.word64 (fdWord guestFds i) ||| fdMask i))).word64 (fdWord guestFds j) =
          memory.word64 (fdWord guestFds j) := by
      refine Memory.word64_eq fun k hk => (Memory.write_of_not_covers (Nat.le_refl _) _ ?_).symm
      rintro ⟨hlow, hhigh⟩
      simp only [fdWord] at hlow hhigh
      have hlength : ∀ v, (le64 v).length = 8 := fun _ => rfl
      rw [hlength] at hhigh
      omega
    rw [hother, beq_eq_false_iff_ne.mpr hne, Bool.or_false]

theorem fdMark_fdBit (hostFds : FdSet) (n j : Nat) :
    ((fdMark hostFds guestFds n).run memory).state.fdBit guestFds j =
      (memory.fdBit guestFds j || (decide (j < n) && hostFds j)) := by
  induction n with
  | zero => simp [fdMark]
  | succ n ih =>
    rw [fdMark, bind_state]
    by_cases hset : hostFds n = true
    · rw [if_pos hset]
      simp only [bind_state, load64_value, load64_state, store64_state, fdBit_mark, ih]
      by_cases hj : j = n
      · subst hj
        simp [hset]
      · have hlt : j < n + 1 ↔ j < n := by omega
        simp [hj, hlt]
    · rw [if_neg hset, run_pure, ih]
      by_cases hj : j = n
      · subst hj
        simp [hset]
      · have hlt : j < n + 1 ↔ j < n := by omega
        simp [hlt]

theorem confined_fdMark {hostFds : FdSet} (n : Nat) :
    Confined ByteRange.Covers (fdMark hostFds guestFds n) := by
  induction n with
  | zero => exact confined_pure _
  | succ n ih =>
    exact ih.bind fun _ => Confined.ite
      (confined_load64.bind fun bits => confined_receive) (confined_pure _)

/-- The words that hold the descriptors below `n`. -/
theorem each_fdMark {hostFds : FdSet} {P : ByteRange → Prop} (n : Nat)
    (hwords : ∀ i < n, P ⟨fdWord guestFds i, 8⟩) :
    ∀ memory, Each P (fdMark hostFds guestFds n) memory := by
  induction n with
  | zero => exact fun memory => each_pure _
  | succ n ih =>
    intro memory
    rw [fdMark, each_bind]
    refine ⟨ih (fun i hi => hwords i (by omega)) memory, ?_⟩
    have hword := hwords n (Nat.lt_succ_self n)
    split
    · simp [hword]
    · exact each_pure _

end Sets

section Small

variable {nfds : UInt32}

/-- As many descriptors as a set has room for are not a negative number. -/
theorem toInt_of_le (hnfds : nfds ≤ 1024) : nfds.toInt32.toInt = nfds.toNat := by
  have hle : nfds.toNat ≤ 1024 := UInt32.le_iff_toNat_le.mp hnfds
  show nfds.toBitVec.toInt = nfds.toBitVec.toNat
  refine BitVec.toInt_eq_toNat_of_lt ?_
  show 2 * nfds.toNat < 2 ^ 32
  omega

theorem fdRounds_eq (hnfds : nfds ≤ 1024) : fdRounds nfds = nfds.toNat := by
  rw [fdRounds, toInt_of_le hnfds, Int.toNat_natCast]

theorem fdBytes_eq (hnfds : nfds ≤ 1024) : fdBytes nfds = (nfds.toNat + 63) / 64 * 8 := by
  have hle : nfds.toNat ≤ 1024 := UInt32.le_iff_toNat_le.mp hnfds
  rw [fdBytes, toInt_of_le hnfds, Int.tdiv_eq_ediv_of_nonneg (by omega)]
  omega

end Small

section Copies

variable {memory : Memory} {guestFds : Nat} {nfds : UInt32} {hostFds : FdSet}

/-- A set that `fd_set_h2g` writes has the host's descriptors, and none from `nfds` on. -/
theorem fdSetH2g_fdBit (hnfds : nfds ≤ 1024) {i : Nat} (hi : i < 8 * fdBytes nfds) :
    ((fdSetH2g hostFds guestFds nfds).run memory).state.fdBit guestFds i =
      (decide (i < nfds.toNat) && hostFds i) := by
  have hcleared : (memory.write guestFds (List.replicate (fdBytes nfds) 0)).fdBit guestFds i =
      false := by
    have hword : (memory.write guestFds (List.replicate (fdBytes nfds) 0)).Holds
        (fdWord guestFds i) (le64 0) := by
      intro k hk
      have hk : k < 8 := hk
      have hbytes := fdBytes_eq hnfds
      have hzero := Memory.holds_write memory guestFds (List.replicate (fdBytes nfds) 0)
        (8 * (i / 64) + k) (by rw [List.length_replicate]; omega)
      rw [fdWord, Nat.add_assoc, hzero, List.getElem_replicate]
      rcases k with _ | _ | _ | _ | _ | _ | _ | _ | k
      any_goals rfl
      omega
    rw [Memory.fdBit, hword.word64]
    exact Nat.zero_testBit _
  rw [fdSetH2g, bind_state, store_state, fdMark_fdBit, hcleared, fdRounds_eq hnfds, Bool.false_or]

theorem confined_fdSetH2g : Confined ByteRange.Covers (fdSetH2g hostFds guestFds nfds) :=
  confined_receive.bind fun _ => confined_fdMark _

theorem each_fdSetH2g (hnfds : nfds ≤ 1024) : Each (fun r => guestFds ≤ r.start ∧
    r.start + r.length ≤ guestFds + fdBytes nfds) (fdSetH2g hostFds guestFds nfds) memory := by
  rw [fdSetH2g, each_bind]
  refine ⟨by simp, each_fdMark _ (fun i hi => ?_) _⟩
  have hbytes := fdBytes_eq hnfds
  rw [fdRounds_eq hnfds] at hi
  simp only [fdWord]
  omega

end Copies

/-- The bytes of a set that is given. -/
def setRange (fdsPtr nfds : UInt32) : ByteRange :=
  ⟨fdsPtr.toNat, if fdsPtr ≠ 0 then fdBytes nfds else 0⟩

def timeoutRange (timeoutPtr : UInt32) : ByteRange :=
  ⟨timeoutPtr.toNat, if timeoutPtr ≠ 0 then 16 else 0⟩

namespace Memory

/-- The descriptors of a set that is given. -/
def givenFds (memory : Memory) (fdsPtr nfds : UInt32) : Option FdSet :=
  if fdsPtr ≠ 0 then some fun i => decide (i < nfds.toNat) && memory.fdBit fdsPtr.toNat i else none

def givenTimeout (memory : Memory) (timeoutPtr : UInt32) : Option (UInt64 × UInt64) :=
  if timeoutPtr ≠ 0 then
    some (memory.word64 timeoutPtr.toNat, memory.word64 (timeoutPtr.toNat + 8))
  else none

/-- A set that is given has the descriptors of `fds` below `nfds`, and no others in its words. -/
def Shows (memory : Memory) (fdsPtr nfds : UInt32) (fds : FdSet) : Prop :=
  fdsPtr ≠ 0 → ∀ i < 8 * fdBytes nfds,
    memory.fdBit fdsPtr.toNat i = (decide (i < nfds.toNat) && fds i)

def ShowsTimeout (memory : Memory) (timeoutPtr : UInt32) (timeout : UInt64 × UInt64) : Prop :=
  timeoutPtr ≠ 0 → memory.givenTimeout timeoutPtr = some timeout

variable {memory memory' : Memory} {fdsPtr nfds : UInt32} {fds : FdSet} {r : ByteRange}

theorem Shows.frame (hshows : memory.Shows fdsPtr nfds fds) (hnfds : nfds ≤ 1024)
    (hsame : SameOutside r memory memory') (hapart : (setRange fdsPtr nfds).Apart r) :
    memory'.Shows fdsPtr nfds fds := by
  intro hgiven i hi
  have hbytes := fdBytes_eq hnfds
  rw [← hshows hgiven i hi, fdBit, fdBit]
  congr 2
  refine word64_eq fun k hk => (hsame _ (hapart _ ?_)).symm
  simp only [ByteRange.Covers, setRange, if_pos hgiven, fdWord]
  omega

end Memory

section Returned

variable {memory : Memory} {fdsPtr nfds timeoutPtr : UInt32} {fds : FdSet}
  {timeout : UInt64 × UInt64}

@[simp] theorem guestSet_state : ((guestSet fdsPtr nfds).run memory).state = memory := by
  unfold guestSet
  split <;> simp

theorem guestSet_value (hnfds : nfds ≤ 1024) :
    ((guestSet fdsPtr nfds).run memory).value = memory.givenFds fdsPtr nfds := by
  unfold guestSet Memory.givenFds
  split <;> simp [fdSetG2h_value, fdRounds_eq hnfds]

@[simp] theorem guestTimeout_state : ((guestTimeout timeoutPtr).run memory).state = memory := by
  unfold guestTimeout
  split <;> simp

@[simp] theorem guestTimeout_value :
    ((guestTimeout timeoutPtr).run memory).value = memory.givenTimeout timeoutPtr := by
  unfold guestTimeout Memory.givenTimeout
  split <;> simp

theorem returnSet_shows (hnfds : nfds ≤ 1024) :
    ((returnSet fds fdsPtr nfds).run memory).state.Shows fdsPtr nfds fds := by
  intro hgiven i hi
  rw [returnSet, if_pos hgiven]
  exact fdSetH2g_fdBit hnfds hi

theorem returnSet_same (hnfds : nfds ≤ 1024) :
    Memory.SameOutside (setRange fdsPtr nfds) memory
      ((returnSet fds fdsPtr nfds).run memory).state := by
  intro address hout
  unfold returnSet
  split
  · next hgiven =>
    have hset : setRange fdsPtr nfds = ⟨fdsPtr.toNat, fdBytes nfds⟩ := by
      rw [setRange, if_pos hgiven]
    rw [hset] at hout
    exact confined_fdSetH2g.state_eq (each_fdSetH2g hnfds)
      (fun r hr i hi => ⟨hr.1.trans hi.1, hi.2.trans_le hr.2⟩) hout
  · rfl

theorem returnTimeout_shows :
    ((returnTimeout timeoutPtr timeout).run memory).state.ShowsTimeout timeoutPtr timeout := by
  intro hgiven
  rw [returnTimeout, if_pos hgiven, Memory.givenTimeout, if_pos hgiven, bind_state,
    store64_state, store64_state]
  have hsec := Memory.holds_write memory timeoutPtr.toNat (le64 timeout.1)
  have hboth := hsec.push (timeoutPtr.toNat + 8) (le64 timeout.2) rfl
  obtain ⟨hsec, husec⟩ := Memory.holds_append.mp hboth
  have husec : Memory.Holds _ (timeoutPtr.toNat + 8) (le64 timeout.2) := husec
  rw [hsec.word64, husec.word64]

theorem returnTimeout_same : Memory.SameOutside (timeoutRange timeoutPtr) memory
    ((returnTimeout timeoutPtr timeout).run memory).state := by
  intro address hout
  unfold returnTimeout
  split
  · next hgiven =>
    rw [timeoutRange, if_pos hgiven] at hout
    rw [bind_state, store64_state, store64_state]
    refine (Memory.sameOutside_write _ (timeoutPtr.toNat + 8) (le64 timeout.2) address
      fun hin => hout ?_).trans (Memory.sameOutside_write memory timeoutPtr.toNat (le64 timeout.1)
      address fun hin => hout ?_)
    · exact ⟨(Nat.le_add_right _ 8).trans hin.1, hin.2⟩
    · exact ⟨hin.1, hin.2.trans (Nat.add_lt_add_left (show 8 < 16 by decide) _)⟩
  · rfl

end Returned

section Select

variable (host : SelectHost) {memSize nfds readfdsPtr writefdsPtr exceptfdsPtr timeoutPtr : UInt32}
  (memory : Memory)

/-- The ranges that a call is given. -/
def selectRanges (nfds readfdsPtr writefdsPtr exceptfdsPtr timeoutPtr : UInt32) : List ByteRange :=
  [setRange readfdsPtr nfds, setRange writefdsPtr nfds, setRange exceptfdsPtr nfds,
    timeoutRange timeoutPtr]

/-- What the host's call is given, and comes to. -/
def selected (nfds readfdsPtr writefdsPtr exceptfdsPtr timeoutPtr : UInt32) : Selected :=
  host nfds (memory.givenFds readfdsPtr nfds) (memory.givenFds writefdsPtr nfds)
    (memory.givenFds exceptfdsPtr nfds) (memory.givenTimeout timeoutPtr)

/-- A call that no check refuses. -/
theorem socketSelect_run (hnfds : nfds ≤ 1024)
    (haccepts : ∀ ptr ∈ [readfdsPtr, writefdsPtr, exceptfdsPtr],
      refusesGiven memSize ptr 128 = false)
    (htimeout : refusesGiven memSize timeoutPtr 16 = false) :
    let answer := selected host memory nfds readfdsPtr writefdsPtr exceptfdsPtr timeoutPtr
    let result := (socketSelect host memSize nfds readfdsPtr writefdsPtr exceptfdsPtr
      timeoutPtr).run memory
    result.value = UInt32.ofInt answer.res ∧
      result.state = if answer.res ≥ 0 then
        ((do
          returnSet answer.readfds readfdsPtr nfds
          returnSet answer.writefds writefdsPtr nfds
          returnSet answer.exceptfds exceptfdsPtr nfds
          returnTimeout timeoutPtr answer.timeout : Access Unit).run memory).state
      else memory := by
  intro answer result
  have hread := haccepts readfdsPtr (by simp)
  have hwrite := haccepts writefdsPtr (by simp)
  have hexcept := haccepts exceptfdsPtr (by simp)
  have hanswer : host nfds (memory.givenFds readfdsPtr nfds) (memory.givenFds writefdsPtr nfds)
    (memory.givenFds exceptfdsPtr nfds) (memory.givenTimeout timeoutPtr) = answer := rfl
  dsimp only [result]
  unfold socketSelect
  simp only [hread, hwrite, hexcept, htimeout, Bool.or_self, Bool.false_eq_true, if_false,
    bind_value, bind_state, guestSet_state, guestSet_value hnfds, guestTimeout_state,
    guestTimeout_value, hanswer]
  by_cases hres : answer.res ≥ 0
  · rw [if_pos hres, if_pos hres]
    exact ⟨rfl, rfl⟩
  · rw [if_neg hres, if_neg hres]
    exact ⟨rfl, rfl⟩

/-- The host's `select` is given exactly the descriptors and the timeout of the guest, whose sets
have the host's answer afterwards and nothing else has changed; if the call has failed nothing
has. -/
theorem select_exchanges_sets (hnfds : nfds ≤ 1024)
    (haccepts : ∀ ptr ∈ [readfdsPtr, writefdsPtr, exceptfdsPtr],
      refusesGiven memSize ptr 128 = false)
    (htimeout : refusesGiven memSize timeoutPtr 16 = false)
    (hapart : (selectRanges nfds readfdsPtr writefdsPtr exceptfdsPtr timeoutPtr).Pairwise
      ByteRange.Apart) :
    let answer := selected host memory nfds readfdsPtr writefdsPtr exceptfdsPtr timeoutPtr
    let result := (socketSelect host memSize nfds readfdsPtr writefdsPtr exceptfdsPtr
      timeoutPtr).run memory
    result.value = UInt32.ofInt answer.res ∧
      (answer.res < 0 → result.state = memory) ∧
      (0 ≤ answer.res →
        result.state.Shows readfdsPtr nfds answer.readfds ∧
        result.state.Shows writefdsPtr nfds answer.writefds ∧
        result.state.Shows exceptfdsPtr nfds answer.exceptfds ∧
        result.state.ShowsTimeout timeoutPtr answer.timeout ∧
        ∀ address,
          (∀ r ∈ selectRanges nfds readfdsPtr writefdsPtr exceptfdsPtr timeoutPtr,
            ¬r.Covers address) → result.state address = memory address) := by
  intro answer result
  obtain ⟨hvalue, hstate⟩ := socketSelect_run host memory hnfds haccepts htimeout
  refine ⟨hvalue, fun hfailed => hstate.trans (if_neg (Int.not_le.mpr hfailed)), fun hres => ?_⟩
  have hreturned : result.state = _ := hstate.trans (if_pos hres)
  simp only [bind_state] at hreturned
  simp only [selectRanges, List.pairwise_cons, List.forall_mem_cons] at hapart
  obtain ⟨⟨hreadWrite, hreadExcept, hreadTimeout, -⟩, ⟨hwriteExcept, hwriteTimeout, -⟩,
    ⟨hexceptTimeout, -⟩, -⟩ := hapart
  rw [hreturned]
  refine ⟨?_, ?_, ?_, returnTimeout_shows, fun address hout => ?_⟩
  · exact (((returnSet_shows hnfds).frame hnfds (returnSet_same hnfds) hreadWrite).frame hnfds
      (returnSet_same hnfds) hreadExcept).frame hnfds returnTimeout_same hreadTimeout
  · exact ((returnSet_shows hnfds).frame hnfds (returnSet_same hnfds) hwriteExcept).frame hnfds
      returnTimeout_same hwriteTimeout
  · exact (returnSet_shows hnfds).frame hnfds returnTimeout_same hexceptTimeout
  · simp only [selectRanges, List.forall_mem_cons] at hout
    obtain ⟨houtRead, houtWrite, houtExcept, houtTimeout, -⟩ := hout
    rw [returnTimeout_same _ houtTimeout, returnSet_same hnfds _ houtExcept,
      returnSet_same hnfds _ houtWrite, returnSet_same hnfds _ houtRead]

/-- Descriptor 1 of the first two is ready for reading. -/
def oneReady : SelectHost := fun _ _ _ _ timeout =>
  ⟨1, fun i => i == 1, fdZero, fdZero, timeout.getD (0, 0)⟩

theorem select_exchanges_sets_one_ready :
    ((socketSelect oneReady 0x10000 2 16 0 0 32).run fun address =>
      if address = 16 then 3 else 0).state.fdBit 16 0 = false := by
  have hranges : (selectRanges 2 16 0 0 32).Pairwise ByteRange.Apart := by
    simp only [selectRanges, List.pairwise_cons, List.forall_mem_cons]
    refine ⟨⟨?_, ?_, ?_, ?_⟩, ⟨?_, ?_, ?_⟩, ⟨?_, ?_⟩, ?_, List.Pairwise.nil⟩
    any_goals exact List.forall_mem_nil _
    all_goals exact ByteRange.apart_of_le (by decide)
  have haccepts : ∀ ptr ∈ [16, 0, 0], refusesGiven 0x10000 ptr 128 = false := by
    simp only [List.forall_mem_cons]
    exact ⟨by decide, by decide, by decide, List.forall_mem_nil _⟩
  obtain ⟨-, -, hanswer⟩ := select_exchanges_sets oneReady
    (fun address => if address = 16 then 3 else 0) (by decide) haccepts (by decide) hranges
  exact (hanswer (by decide)).1 (by decide) 0 (by decide)

end Select

end Wasm

end LuxonServer
