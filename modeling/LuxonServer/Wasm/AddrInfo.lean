import LuxonServer.Wasm.Addresses
import LuxonServer.Wasm.Heap

/-! `getaddrinfo` and `freeaddrinfo`: the list that the host's resolver returns becomes one in
blocks of the guest's allocator, and goes back to it. -/

namespace LuxonServer

open Traced

namespace Wasm

/-- The host's own numbers. -/
structure HostNames where
  afUnspec : UInt32
  afInet : UInt32
  afInet6 : UInt32
  sockStream : UInt32
  sockDgram : UInt32
  ipprotoIp : UInt32
  ipprotoTcp : UInt32
  ipprotoUdp : UInt32
  ipprotoIpv6 : UInt32

namespace HostNames

variable (names : HostNames)

def translateDomainG2h (downgradeIpv6 : Bool) (guestDomain : UInt32) : UInt32 :=
  if guestDomain = 0 then names.afUnspec
  else if guestDomain = 2 then names.afInet
  else if guestDomain = 10 then if downgradeIpv6 then names.afInet else names.afInet6
  else -1

def translateDomainH2g (hostDomain : UInt32) : UInt32 :=
  if hostDomain = names.afUnspec then 0
  else if hostDomain = names.afInet then 2
  else if hostDomain = names.afInet6 then 10
  else hostDomain

def translateSocktypeG2h (guestType : UInt32) : UInt32 :=
  if guestType = 1 then names.sockStream else if guestType = 2 then names.sockDgram else -1

def translateSocktypeH2g (hostType : UInt32) : UInt32 :=
  if hostType = names.sockStream then 1 else if hostType = names.sockDgram then 2 else hostType

def translateProtocolG2h (guestProto : UInt32) : UInt32 :=
  if guestProto = 0 then names.ipprotoIp
  else if guestProto = 6 then names.ipprotoTcp
  else if guestProto = 17 then names.ipprotoUdp
  else if guestProto = 41 then names.ipprotoIpv6
  else 0

def translateProtocolH2g (hostProto : UInt32) : UInt32 :=
  if hostProto = names.ipprotoIp then 0
  else if hostProto = names.ipprotoTcp then 6
  else if hostProto = names.ipprotoUdp then 17
  else if hostProto = names.ipprotoIpv6 then 41
  else hostProto

end HostNames

/-- `struct addrinfo`, without the pointer to the next one; the name is without its NUL. -/
structure AddrInfo where
  flags : UInt32
  family : UInt32
  socktype : UInt32
  protocol : UInt32
  addr : Option HostAddr
  canonname : Option (List UInt8)

/-- The fields of the hints that are not 0. -/
structure Hints where
  flags : UInt32
  family : UInt32
  socktype : UInt32
  protocol : UInt32

/-- The host's resolver, which reads the two names from memory itself. -/
structure Resolver where
  names : HostNames
  downgradeIpv6 : Bool
  getaddrinfo : Memory → Option UInt32 → Option UInt32 → Option Hints →
    Except UInt32 (List AddrInfo)

/-- What `sockaddr_h2g` leaves in a buffer of 128 bytes of the host, if it accepts the address. -/
def guestSockaddr (downgradeIpv6 : Bool) (addr : HostAddr) : Option (List UInt8) :=
  let copied := (sockaddrH2g downgradeIpv6 addr 0 128).run fun _ => 0
  copied.value.map fun len => copied.state.bytes 0 len.toNat

section Functions

variable (resolver : Resolver) (allocator : Allocator)

def AddrInfo.guestAddr (info : AddrInfo) : Option (List UInt8) :=
  info.addr.bind (guestSockaddr resolver.downgradeIpv6)

def AddrInfo.guestCanonname (info : AddrInfo) : Option (List UInt8) :=
  info.canonname.map (· ++ [0])

/-- The words of a node but the last one, the pointer to the next. -/
def AddrInfo.words (info : AddrInfo) (wasmAddr wasmCanon : UInt32) : List UInt32 :=
  [info.flags, resolver.names.translateDomainH2g info.family,
    resolver.names.translateSocktypeH2g info.socktype,
    resolver.names.translateProtocolH2g info.protocol,
    UInt32.ofNat ((info.guestAddr resolver).getD []).length, wasmAddr, wasmCanon]

namespace Instance

/-- A block with a copy of the bytes, if there are any. -/
def copyOut (bytes : Option (List UInt8)) (inst : Instance) : UInt32 × Instance :=
  match bytes with
  | none => (0, inst)
  | some bytes =>
    let (ptr, inst) := inst.malloc allocator (UInt32.ofNat bytes.length)
    (ptr, inst.write ptr.toNat bytes)

/-- Stores of words, one after the other. -/
def storeWords : Nat → List UInt32 → Instance → Instance
  | _, [], inst => inst
  | start, word :: words, inst => storeWords (start + 4) words (inst.write start (le32 word))

end Instance

/-- The blocks of a node. -/
def allocInfo (info : AddrInfo) (inst : Instance) : UInt32 × UInt32 × UInt32 × Instance :=
  let (wasmAi, inst) := inst.malloc allocator 32
  let (wasmAddr, inst) := inst.copyOut allocator (info.guestAddr resolver)
  let (wasmCanon, inst) := inst.copyOut allocator info.guestCanonname
  (wasmAi, wasmAddr, wasmCanon, inst)

/-- A round of the loop of `w2c_env_socket_getaddrinfo`; `link` is where the pointer goes. -/
def linkInfo (info : AddrInfo) (link : Nat) (inst : Instance) : UInt32 × Instance :=
  let (wasmAi, wasmAddr, wasmCanon, inst) := allocInfo resolver allocator info inst
  let inst := inst.storeWords wasmAi.toNat (info.words resolver wasmAddr wasmCanon ++ [0])
  (wasmAi, inst.write link (le32 wasmAi))

/-- The loop. -/
def linkInfos (resPtr : UInt32) : List AddrInfo → UInt32 → Instance → Instance
  | [], _, inst => inst
  | info :: infos, prevNextOffset, inst =>
    let link := if prevNextOffset = 0 then resPtr.toNat else prevNextOffset.toNat
    let (wasmAi, inst) := linkInfo resolver allocator info link inst
    linkInfos resPtr infos (wasmAi + 28) inst

/-- What the resolver is asked. -/
def resolve (nodePtr servicePtr hintsPtr : UInt32) (memory : Memory) :
    Except UInt32 (List AddrInfo) :=
  let given := fun ptr : UInt32 => if ptr ≠ 0 then some ptr else none
  let names := resolver.names
  let hints := if hintsPtr ≠ 0 then some (
    { flags := memory.word32 hintsPtr.toNat
      family := names.translateDomainG2h resolver.downgradeIpv6
        (memory.word32 (hintsPtr.toNat + 4))
      socktype := names.translateSocktypeG2h (memory.word32 (hintsPtr.toNat + 8))
      protocol := names.translateProtocolG2h (memory.word32 (hintsPtr.toNat + 12)) } : Hints)
    else none
  resolver.getaddrinfo memory (given nodePtr) (given servicePtr) hints

/-- `w2c_env_socket_getaddrinfo`; no error of the resolver is 0. -/
def socketGetaddrinfo (nodePtr servicePtr hintsPtr resPtr : UInt32) (inst : Instance) :
    UInt32 × Instance :=
  match resolve resolver nodePtr servicePtr hintsPtr inst.memory with
  | .error ret => (ret, inst)
  | .ok infos => (0, linkInfos resolver allocator resPtr infos 0 inst)

def Instance.freeGiven (ptr : UInt32) (inst : Instance) : Instance :=
  if ptr ≠ 0 then inst.free allocator ptr else inst

/-- `w2c_env_socket_freeaddrinfo`, for as many rounds. -/
def socketFreeaddrinfo : Nat → UInt32 → Instance → Option Instance
  | 0, _, _ => none
  | rounds + 1, curr, inst =>
    if curr = 0 then some inst else
      let addrPtr := inst.memory.word32 (curr.toNat + 20)
      let canonPtr := inst.memory.word32 (curr.toNat + 24)
      let nextPtr := inst.memory.word32 (curr.toNat + 28)
      socketFreeaddrinfo rounds nextPtr
        (((inst.freeGiven allocator addrPtr).freeGiven allocator canonPtr).free allocator curr)

end Functions

section Chain

variable (resolver : Resolver) (memory : Memory)

/-- The pointer is to a block with the bytes, or 0 if there are none. -/
def Copied (ptr : UInt32) : Option (List UInt8) → List ByteRange → Prop
  | none, blocks => ptr = 0 ∧ blocks = []
  | some bytes, blocks =>
    ptr ≠ 0 ∧ memory.Holds ptr.toNat bytes ∧ blocks = [⟨ptr.toNat, bytes.length⟩]

/-- A node with what its fields point to but the next one. -/
def IsNode (wasmAi : UInt32) (info : AddrInfo) (blocks : List ByteRange) : Prop :=
  ∃ wasmAddr wasmCanon addrBlocks canonBlocks,
    memory.Holds wasmAi.toNat ((info.words resolver wasmAddr wasmCanon).flatMap le32) ∧
    Copied memory wasmAddr (info.guestAddr resolver) addrBlocks ∧
    Copied memory wasmCanon info.guestCanonname canonBlocks ∧
    blocks = canonBlocks ++ (addrBlocks ++ [⟨wasmAi.toNat, 32⟩])

/-- The list that a pointer of the guest is to, with its blocks. -/
def Chain : UInt32 → List AddrInfo → List ByteRange → Prop
  | head, [], blocks => head = 0 ∧ blocks = []
  | head, info :: infos, blocks =>
    head ≠ 0 ∧ ∃ node rest, IsNode resolver memory head info node ∧ blocks = rest ++ node ∧
      Chain (memory.word32 (head.toNat + 28)) infos rest

end Chain

/-- The bytes that go to the guest are those of the address. -/
theorem guestSockaddr_eq {downgradeIpv6 : Bool} {addr : HostAddr} {bytes : List UInt8}
    (hbytes : guestSockaddr downgradeIpv6 addr = some bytes) :
    bytes = addr.guestBytes ∧ bytes.length ≤ 28 := by
  obtain ⟨len, hlen, hbytes⟩ := Option.map_eq_some_iff.mp hbytes
  have hlength : bytes.length = len.toNat := by rw [← hbytes]; simp [Memory.bytes]
  have hguest : addr.guestBytes.length = len.toNat ∧ len.toNat ≤ 28 := by
    obtain ⟨port, ip, rfl, rfl⟩ | ⟨-, rfl, port, flowinfo, ip, scopeId, rfl⟩ :=
      sockaddrH2g_cases hlen
    · exact ⟨rfl, by decide⟩
    · exact ⟨by simp [HostAddr.guestBytes, le16, le32], by decide⟩
  refine ⟨List.ext_getElem (hlength.trans hguest.1.symm) fun k hk hk' => ?_, by omega⟩
  have hholds := holds_sockaddrH2g hlen k hk'
  rw [Nat.zero_add] at hholds
  subst hbytes
  rw [← hholds]
  simp [Memory.bytes]

namespace Instance

variable {inst : Instance}

theorem storeWords_exhausted (words : List UInt32) :
    ∀ start inst, (storeWords start words inst).exhausted = inst.exhausted := by
  induction words with
  | nil => exact fun _ _ => rfl
  | cons word words ih => exact fun start inst => ih (start + 4) _

theorem length_words (words : List UInt32) : (words.flatMap le32).length = 4 * words.length := by
  induction words with
  | nil => rfl
  | cons word words ih =>
    rw [List.flatMap_cons, List.length_append, ih, List.length_cons]
    show 4 + _ = _
    omega

theorem Extends.storeWords {hole : ByteRange} {added : List ByteRange} {r : ByteRange}
    (hr : r ∈ added) (words : List UInt32) : ∀ (start : Nat) {inst' : Instance},
      Extends hole inst added inst' → ByteRange.Inside ⟨start, 4 * words.length⟩ r →
      Extends hole inst added (inst'.storeWords start words) := by
  induction words with
  | nil => exact fun _ _ hextends _ => hextends
  | cons word words ih =>
    intro start inst' hextends hinside
    obtain ⟨hlow, hhigh⟩ := hinside
    dsimp only at hlow hhigh
    rw [List.length_cons] at hhigh
    refine ih (start + 4) (hextends.write hr ⟨hlow, ?_⟩) ⟨?_, ?_⟩
    · show start + 4 ≤ _
      omega
    · show _ ≤ start + 4
      omega
    · show start + 4 + 4 * words.length ≤ _
      omega

theorem storeWords_same (words : List UInt32) : ∀ {start : Nat} {inst : Instance},
    Memory.SameOutside ⟨start, 4 * words.length⟩ inst.memory
      (storeWords start words inst).memory := by
  induction words with
  | nil => exact fun _ _ => rfl
  | cons word words ih =>
    intro start inst address hout
    refine (ih address fun hin => hout ?_).trans
      (Memory.sameOutside_write _ start (le32 word) address fun hin => hout ?_)
    all_goals
      obtain ⟨hlow, hhigh⟩ := hin
      simp only [ByteRange.Covers, List.length_cons] at hlow hhigh ⊢
    · omega
    · have hlength : (le32 word).length = 4 := rfl
      omega

theorem storeWords_holds (words : List UInt32) : ∀ start inst,
    (storeWords start words inst).memory.Holds start (words.flatMap le32) := by
  induction words with
  | nil => exact fun _ _ _ hk => absurd hk (Nat.not_lt_zero _)
  | cons word words ih =>
    intro start inst
    refine Memory.holds_append.mpr ⟨?_, ih _ _⟩
    exact (Memory.holds_write inst.memory start (le32 word)).frame (storeWords_same words)
      (ByteRange.apart_of_le (.inr (.inr (.inl (Nat.le_refl _)))))

end Instance

theorem Copied.frame {memory memory' : Memory} {ptr : UInt32} {bytes : Option (List UInt8)}
    {blocks : List ByteRange} {r : ByteRange} (hcopied : Copied memory ptr bytes blocks)
    (hsame : Memory.SameOutside r memory memory') (hapart : ∀ block ∈ blocks, block.Apart r) :
    Copied memory' ptr bytes blocks := by
  cases bytes with
  | none => exact hcopied
  | some bytes =>
    obtain ⟨hptr, hholds, rfl⟩ := hcopied
    exact ⟨hptr, hholds.frame hsame (hapart _ (List.mem_singleton_self _)), rfl⟩

namespace Instance

theorem word32_of_holds_words {memory : Memory} (words : List UInt32) : ∀ {start : Nat},
    memory.Holds start (words.flatMap le32) →
    ∀ i (hi : i < words.length), memory.word32 (start + 4 * i) = words[i] := by
  induction words with
  | nil => exact fun _ i hi => absurd hi (Nat.not_lt_zero i)
  | cons word words ih =>
    intro start hholds i hi
    obtain ⟨hword, hrest⟩ := Memory.holds_append.mp hholds
    have hrest : memory.Holds (start + 4) (words.flatMap le32) := hrest
    cases i with
    | zero => exact hword.word32
    | succ i =>
      have := ih hrest i (Nat.lt_of_succ_lt_succ hi)
      rwa [Nat.add_assoc, show 4 + 4 * i = 4 * (i + 1) by omega] at this

/-- A block that is in use keeps its copy. -/
theorem Extends.copied {hole : ByteRange} {inst' : Instance} {added blocks : List ByteRange}
    {ptr : UInt32} {bytes : Option (List UInt8)} (hextends : Extends hole inst added inst')
    (hcopied : Copied inst.memory ptr bytes blocks) (huse : ∀ r ∈ blocks, r ∈ inst.inUse)
    (hapart : ∀ r ∈ blocks, r.Apart hole) : Copied inst'.memory ptr bytes blocks := by
  cases bytes with
  | none => exact hcopied
  | some bytes =>
    obtain ⟨hptr, hholds, rfl⟩ := hcopied
    refine ⟨hptr, hextends.holds hholds (huse _ (List.mem_singleton_self _))
      ⟨Nat.le_refl _, Nat.le_refl _⟩ (hapart _ (List.mem_singleton_self _)), rfl⟩

end Instance

theorem Copied.congr {memory memory' : Memory} {ptr : UInt32} {bytes : Option (List UInt8)}
    {blocks : List ByteRange} (hcopied : Copied memory ptr bytes blocks)
    (hkeeps : ∀ r ∈ blocks, ∀ address, r.Covers address → memory' address = memory address) :
    Copied memory' ptr bytes blocks := by
  cases bytes with
  | none => exact hcopied
  | some bytes =>
    obtain ⟨hptr, hholds, rfl⟩ := hcopied
    refine ⟨hptr, hholds.congr fun k hk => ?_, rfl⟩
    exact (hkeeps _ (List.mem_singleton_self _) _
      ⟨Nat.le_add_right _ k, Nat.add_lt_add_left hk _⟩).symm

theorem IsNode.congr {resolver : Resolver} {memory memory' : Memory} {wasmAi : UInt32}
    {info : AddrInfo} {blocks : List ByteRange} (hnode : IsNode resolver memory wasmAi info blocks)
    (hkeeps : ∀ r ∈ blocks, ∀ address, r.Covers address → memory' address = memory address) :
    IsNode resolver memory' wasmAi info blocks ∧
      memory'.word32 (wasmAi.toNat + 28) = memory.word32 (wasmAi.toNat + 28) := by
  obtain ⟨wasmAddr, wasmCanon, addrBlocks, canonBlocks, hwords, haddr, hcanon, rfl⟩ := hnode
  have hfields : Memory.AgreeOn wasmAi.toNat 32 memory memory' := fun k hk =>
    (hkeeps _ (List.mem_append_right _ (List.mem_append_right _ (List.mem_singleton_self _))) _
      ⟨Nat.le_add_right _ k, Nat.add_lt_add_left hk _⟩).symm
  refine ⟨⟨wasmAddr, wasmCanon, addrBlocks, canonBlocks, ?_, ?_, ?_, rfl⟩, ?_⟩
  · refine hwords.congr fun k hk => hfields k ?_
    rw [Instance.length_words] at hk
    exact hk.trans (by show 4 * 7 < 32; decide)
  · exact haddr.congr fun r hr =>
      hkeeps r (List.mem_append_right _ (List.mem_append_left _ hr))
  · exact hcanon.congr fun r hr => hkeeps r (List.mem_append_left _ hr)
  · refine Memory.word32_eq fun k hk => ?_
    rw [Nat.add_assoc]
    exact hfields (28 + k) (by omega)

theorem Chain.congr {resolver : Resolver} {memory memory' : Memory} (infos : List AddrInfo) :
    ∀ {head : UInt32} {blocks : List ByteRange}, Chain resolver memory head infos blocks →
      (∀ r ∈ blocks, ∀ address, r.Covers address → memory' address = memory address) →
      Chain resolver memory' head infos blocks := by
  induction infos with
  | nil => exact fun hchain _ => hchain
  | cons info infos ih =>
    rintro head _ ⟨hhead, node, rest, hnode, rfl, hrest⟩ hkeeps
    obtain ⟨hnode', hnext⟩ := hnode.congr fun r hr => hkeeps r (List.mem_append_right _ hr)
    refine ⟨hhead, node, rest, hnode', rfl, ?_⟩
    rw [hnext]
    exact ih hrest fun r hr => hkeeps r (List.mem_append_left _ hr)

/-- The rest of the loop leaves the nodes that there are already. -/
theorem IsNode.extends {resolver : Resolver} {inst inst' : Instance} {hole : ByteRange}
    {added blocks : List ByteRange} {wasmAi : UInt32} {info : AddrInfo}
    (hnode : IsNode resolver inst.memory wasmAi info blocks)
    (hextends : Instance.Extends hole inst added inst') (huse : ∀ r ∈ blocks, r ∈ inst.inUse)
    (hhole : hole = ⟨wasmAi.toNat + 28, 4⟩) (hblocks : blocks.Pairwise ByteRange.Apart) :
    IsNode resolver inst'.memory wasmAi info blocks := by
  obtain ⟨wasmAddr, wasmCanon, addrBlocks, canonBlocks, hwords, haddr, hcanon, rfl⟩ := hnode
  obtain ⟨-, hrest, hcanonRest⟩ := List.pairwise_append.mp hblocks
  obtain ⟨-, -, haddrNode⟩ := List.pairwise_append.mp hrest
  have hinside : hole.Inside ⟨wasmAi.toNat, 32⟩ := by
    subst hhole
    exact ⟨Nat.le_add_right _ _, Nat.le_refl _⟩
  have hmem : ByteRange.mk wasmAi.toNat 32 ∈ addrBlocks ++ [⟨wasmAi.toNat, 32⟩] :=
    List.mem_append_right _ (List.mem_singleton_self _)
  refine ⟨wasmAddr, wasmCanon, addrBlocks, canonBlocks, ?_, ?_, ?_, rfl⟩
  · refine hextends.holds hwords (huse _ (List.mem_append_right _ hmem)) ⟨Nat.le_refl _, ?_⟩ ?_
    · rw [Instance.length_words]
      show wasmAi.toNat + 4 * 7 ≤ wasmAi.toNat + 32
      omega
    · subst hhole
      rw [Instance.length_words]
      exact ByteRange.apart_of_le (.inr (.inr (.inl (Nat.le_refl _))))
  · refine hextends.copied haddr
      (fun r hr => huse r (List.mem_append_right _ (List.mem_append_left _ hr)))
      fun r hr address hcovers hin => ?_
    exact haddrNode r hr _ (List.mem_singleton_self _) address hcovers (hinside.covers hin)
  · refine hextends.copied hcanon (fun r hr => huse r (List.mem_append_left _ hr))
      fun r hr address hcovers hin => ?_
    exact hcanonRest r hr _ hmem address hcovers (hinside.covers hin)

end Wasm

end LuxonServer
