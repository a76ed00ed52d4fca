import LuxonServer.Wasm.AddrInfo

/-! What `getaddrinfo` leaves the guest is the list of the host's resolver, and `freeaddrinfo` frees
such a list, each block once. -/

namespace LuxonServer

namespace Wasm

section Lawful

variable {allocator : Allocator} (hlawful : allocator.Lawful) (inst : Instance)

theorem exhausted_of_copyOut {bytes : Option (List UInt8)} {inst : Instance}
    (hroom : (inst.copyOut allocator bytes).2.exhausted = false) : inst.exhausted = false := by
  cases bytes with
  | none => exact hroom
  | some bytes => exact Instance.exhausted_of_malloc (UInt32.ofNat bytes.length) hroom

section Room

variable {resolver : Resolver} {inst : Instance}

theorem exhausted_of_linkInfo {info : AddrInfo} {link : Nat}
    (hroom : (linkInfo resolver allocator info link inst).2.exhausted = false) :
    inst.exhausted = false := by
  have hroom' : (allocInfo resolver allocator info inst).2.2.2.exhausted = false :=
    (Instance.storeWords_exhausted _ _ _).symm.trans hroom
  exact Instance.exhausted_of_malloc 32 (exhausted_of_copyOut (exhausted_of_copyOut hroom'))

theorem exhausted_of_linkInfos {resPtr : UInt32} (infos : List AddrInfo) :
    ∀ {prevNextOffset : UInt32} {inst : Instance},
      (linkInfos resolver allocator resPtr infos prevNextOffset inst).exhausted = false →
      inst.exhausted = false := by
  induction infos with
  | nil => exact fun hroom => hroom
  | cons info infos ih => exact fun hroom => exhausted_of_linkInfo (ih hroom)

end Room

include hlawful

theorem copyOut_extends {bytes : Option (List UInt8)}
    (hbytes : ∀ data ∈ bytes, data.length < 2 ^ 32)
    (hroom : (inst.copyOut allocator bytes).2.exhausted = false) :
    ∃ blocks,
      Instance.Extends ByteRange.nowhere inst blocks (inst.copyOut allocator bytes).2 ∧
      Copied (inst.copyOut allocator bytes).2.memory (inst.copyOut allocator bytes).1 bytes
        blocks := by
  cases bytes with
  | none => exact ⟨[], Instance.Extends.refl _ _, rfl, rfl⟩
  | some bytes =>
    obtain ⟨hptr, hextends⟩ := hlawful.malloc_extends inst (UInt32.ofNat bytes.length) hroom
    have hlength : (UInt32.ofNat bytes.length).toNat = bytes.length :=
      UInt32.toNat_ofNat_of_lt' (hbytes bytes rfl)
    rw [hlength] at hextends
    refine ⟨_, hextends.write (List.mem_singleton_self _) ⟨Nat.le_refl _, Nat.le_refl _⟩, hptr, ?_,
      rfl⟩
    exact Memory.holds_write _ _ _

variable (resolver : Resolver)

theorem allocInfo_spec {info : AddrInfo} {wasmAi wasmAddr wasmCanon : UInt32} {inst' : Instance}
    (hname : ∀ name ∈ info.canonname, name.length + 1 < 2 ^ 32)
    (halloc : allocInfo resolver allocator info inst = (wasmAi, wasmAddr, wasmCanon, inst'))
    (hroom : inst'.exhausted = false) :
    wasmAi ≠ 0 ∧ wasmAi.toNat + 32 ≤ 2 ^ 32 ∧ ∃ addrBlocks canonBlocks,
      Instance.Extends ByteRange.nowhere inst
        (canonBlocks ++ (addrBlocks ++ [⟨wasmAi.toNat, 32⟩])) inst' ∧
      Copied inst'.memory wasmAddr (info.guestAddr resolver) addrBlocks ∧
      Copied inst'.memory wasmCanon info.guestCanonname canonBlocks := by
  have haddrBytes : ∀ data ∈ info.guestAddr resolver, data.length < 2 ^ 32 := by
    intro data hdata
    obtain ⟨addr, -, hdata⟩ := Option.bind_eq_some_iff.mp hdata
    have := (guestSockaddr_eq hdata).2
    omega
  have hcanonBytes : ∀ data ∈ info.guestCanonname, data.length < 2 ^ 32 := by
    intro data hdata
    obtain ⟨name, hmem, rfl⟩ := Option.map_eq_some_iff.mp hdata
    simpa using hname name hmem
  have hnowhere : ∀ r ∈ inst.inUse, ∀ address, r.Covers address →
      ByteRange.nowhere.Covers address → ByteRange.nowhere.Covers address := fun _ _ _ _ h => h
  cases halloc
  have hroom₂ := exhausted_of_copyOut hroom
  have hroom₁ := exhausted_of_copyOut hroom₂
  obtain ⟨hwasmAi, hnode⟩ := hlawful.malloc_extends inst 32 hroom₁
  obtain ⟨addrBlocks, haddr, haddrCopied⟩ := copyOut_extends hlawful _ haddrBytes hroom₂
  obtain ⟨canonBlocks, hcanon, hcanonCopied⟩ := copyOut_extends hlawful _ hcanonBytes hroom
  refine ⟨hwasmAi, hlawful.fits inst 32 hwasmAi, addrBlocks,
    canonBlocks, (hnode.trans haddr hnowhere hnowhere).trans hcanon hnowhere hnowhere, ?_,
    hcanonCopied⟩
  refine hcanon.copied haddrCopied (fun r hr => haddr.mem_inUse.mpr (.inl hr))
    fun r _ address _ => ?_
  exact ByteRange.not_covers_nowhere address

/-- A round of the loop adds a node at the end of the list: `link` points to it, and it to none. -/
theorem linkInfo_spec {info : AddrInfo} {link : Nat} {wasmAi : UInt32} {after : Instance}
    (hname : ∀ name ∈ info.canonname, name.length + 1 < 2 ^ 32)
    (hlink : ∃ r ∈ inst.inUse, ByteRange.Inside ⟨link, 4⟩ r)
    (hround : linkInfo resolver allocator info link inst = (wasmAi, after))
    (hroom : after.exhausted = false) :
    wasmAi ≠ 0 ∧ wasmAi.toNat + 32 ≤ 2 ^ 32 ∧
      after.memory.word32 link = wasmAi ∧ after.memory.word32 (wasmAi.toNat + 28) = 0 ∧
      ∃ blocks, ByteRange.mk wasmAi.toNat 32 ∈ blocks ∧
        Instance.Extends ⟨link, 4⟩ inst blocks after ∧
        IsNode resolver after.memory wasmAi info blocks := by
  obtain ⟨wasmAi', wasmAddr, wasmCanon, inst', halloc⟩ : ∃ wasmAi' wasmAddr wasmCanon inst',
    allocInfo resolver allocator info inst = (wasmAi', wasmAddr, wasmCanon, inst') :=
    ⟨_, _, _, _, rfl⟩
  simp only [linkInfo, halloc, Prod.mk.injEq] at hround
  obtain ⟨rfl, rfl⟩ := hround
  have hroom' : inst'.exhausted = false :=
    (Instance.storeWords_exhausted _ _ inst').symm.trans hroom
  obtain ⟨hwasmAi, hfits, addrBlocks, canonBlocks, hextends, haddr, hcanon⟩ :=
    allocInfo_spec hlawful inst resolver hname halloc hroom'
  have hnode : ByteRange.mk wasmAi'.toNat 32 ∈
      canonBlocks ++ (addrBlocks ++ [⟨wasmAi'.toNat, 32⟩]) :=
    List.mem_append_right _ (List.mem_append_right _ (List.mem_singleton_self _))
  have hstored := hextends.storeWords hnode (info.words resolver wasmAddr wasmCanon ++ [0])
    wasmAi'.toNat ⟨Nat.le_refl _, Nat.le_refl _⟩
  -- Where the pointer goes is in use, so none of the new blocks is there.
  have hapart : ∀ block ∈ canonBlocks ++ (addrBlocks ++ [⟨wasmAi'.toNat, 32⟩]),
      block.Apart ⟨link, 4⟩ := by
    obtain ⟨r, hr, hinside⟩ := hlink
    exact fun block hblock address hcovers hcovers' =>
      hextends.fresh block hblock r hr address hcovers (hinside.covers hcovers')
  have hlinked := Memory.sameOutside_write
    (inst'.storeWords wasmAi'.toNat (info.words resolver wasmAddr wasmCanon ++ [0])).memory link
    (le32 wasmAi')
  have hwords := (Instance.storeWords_holds (info.words resolver wasmAddr wasmCanon ++ [0])
    wasmAi'.toNat inst').frame hlinked (hapart _ hnode)
  rw [List.flatMap_append] at hwords
  obtain ⟨hwords, hnext⟩ := Memory.holds_append.mp hwords
  have hnext' : Memory.Holds _ (wasmAi'.toNat + 28) (le32 0) := hnext
  obtain ⟨-, hrest, hcanonRest⟩ := List.pairwise_append.mp hextends.apart
  obtain ⟨-, -, haddrNode⟩ := List.pairwise_append.mp hrest
  have hfields : Memory.SameOutside ⟨wasmAi'.toNat, 32⟩ inst'.memory
      (inst'.storeWords wasmAi'.toNat (info.words resolver wasmAddr wasmCanon ++ [0])).memory :=
    Instance.storeWords_same (info.words resolver wasmAddr wasmCanon ++ [0])
  refine ⟨hwasmAi, hfits, (Memory.holds_write _ link _).word32, hnext'.word32, _, hnode,
    hstored.writeHole rfl, wasmAddr, wasmCanon, addrBlocks, canonBlocks, hwords, ?_, ?_, rfl⟩
  · refine (haddr.frame hfields fun block hblock => ?_).frame hlinked fun block hblock => ?_
    · exact haddrNode block hblock _ (List.mem_singleton_self _)
    · exact hapart block (List.mem_append_right _ (List.mem_append_left _ hblock))
  · refine (hcanon.frame hfields fun block hblock => ?_).frame hlinked fun block hblock => ?_
    · exact hcanonRest block hblock _ (List.mem_append_right _ (List.mem_singleton_self _))
    · exact hapart block (List.mem_append_left _ hblock)

/-- The loop puts the list where the first pointer goes. -/
theorem linkInfos_spec (resPtr : UInt32) (infos : List AddrInfo)
    (hnames : ∀ info ∈ infos, ∀ name ∈ info.canonname, name.length + 1 < 2 ^ 32) :
    ∀ (prevNextOffset : UInt32) (link : Nat) (inst : Instance),
      link = (if prevNextOffset = 0 then resPtr.toNat else prevNextOffset.toNat) →
      (∃ r ∈ inst.inUse, ByteRange.Inside ⟨link, 4⟩ r) →
      (infos = [] → inst.memory.word32 link = 0) →
      (linkInfos resolver allocator resPtr infos prevNextOffset inst).exhausted = false →
      ∃ blocks, Instance.Extends ⟨link, 4⟩ inst blocks
          (linkInfos resolver allocator resPtr infos prevNextOffset inst) ∧
        Chain resolver (linkInfos resolver allocator resPtr infos prevNextOffset inst).memory
          ((linkInfos resolver allocator resPtr infos prevNextOffset inst).memory.word32 link)
          infos blocks := by
  induction infos with
  | nil =>
    intro prevNextOffset link inst _ _ hnil _
    exact ⟨[], Instance.Extends.refl _ _, hnil rfl, rfl⟩
  | cons info infos ih =>
    intro prevNextOffset link inst hlink huse _ hroom
    obtain ⟨wasmAi, inst', hround⟩ :
      ∃ wasmAi inst', linkInfo resolver allocator info link inst = (wasmAi, inst') := ⟨_, _, rfl⟩
    have hunfold : linkInfos resolver allocator resPtr (info :: infos) prevNextOffset inst =
        linkInfos resolver allocator resPtr infos (wasmAi + 28) inst' := by
      rw [linkInfos, ← hlink, hround]
    rw [hunfold] at hroom ⊢
    obtain ⟨hwasmAi, hfits, hpointer, hlast, blocks, hmem, hextends, hnode⟩ :=
      linkInfo_spec hlawful inst resolver (hnames info List.mem_cons_self) huse hround
        (exhausted_of_linkInfos infos hroom)
    have hnext : (wasmAi + 28).toNat = wasmAi.toNat + 28 := by
      rw [UInt32.toNat_add, show (28 : UInt32).toNat = 28 from rfl]
      omega
    have hnonzero : wasmAi + 28 ≠ 0 := by
      intro hzero
      rw [hzero] at hnext
      exact absurd hnext (by simp)
    have hused : ∀ r ∈ blocks, r ∈ inst'.inUse := fun r hr => hextends.mem_inUse.mpr (.inl hr)
    have hinside : ByteRange.Inside ⟨wasmAi.toNat + 28, 4⟩ ⟨wasmAi.toNat, 32⟩ :=
      ⟨Nat.le_add_right _ _, Nat.le_refl _⟩
    obtain ⟨rest, hrest, hchain⟩ := ih
      (fun info hinfo => hnames info (List.mem_cons_of_mem _ hinfo))
      (wasmAi + 28) (wasmAi.toNat + 28) inst' (by rw [if_neg hnonzero, hnext])
      ⟨_, hused _ hmem, hinside⟩ (fun _ => hlast) hroom
    -- The pointer to the next node is in a new block, so what was in use does not change with it.
    have hfresh : ∀ r ∈ inst.inUse, ∀ address, r.Covers address →
        ¬ByteRange.Covers ⟨wasmAi.toNat + 28, 4⟩ address :=
      fun r hr address hcovers hin =>
        hextends.fresh _ hmem r hr address (hinside.covers hin) hcovers
    refine ⟨rest ++ blocks, hextends.trans hrest (fun _ _ _ _ hin => hin)
      (fun r hr address hcovers hin => absurd hin (hfresh r hr address hcovers)), ?_⟩
    obtain ⟨r, hr, hlinkInside⟩ := huse
    have hbytes : inst'.memory.Holds link (le32 (inst'.memory.word32 link)) := Memory.holds_word32
    have hpointed := hrest.holds hbytes
      (hextends.mem_inUse.mpr (.inr hr)) hlinkInside
      fun address hcovers => hfresh r hr address (hlinkInside.covers hcovers)
    rw [hpointer] at hpointed
    rw [hpointed.word32]
    exact ⟨hwasmAi, blocks, rest, hnode.extends hrest hused rfl hextends.apart, rfl, hchain⟩

/-- `getaddrinfo` leaves the guest the list of the host's resolver, in blocks of its own that
nothing else is in, and changes nothing that is in use but the pointer to it. -/
theorem getaddrinfo_links_results {nodePtr servicePtr hintsPtr resPtr : UInt32}
    {infos : List AddrInfo}
    (hinfos : resolve resolver nodePtr servicePtr hintsPtr inst.memory = .ok infos)
    (hsome : infos ≠ [])
    (hnames : ∀ info ∈ infos, ∀ name ∈ info.canonname, name.length + 1 < 2 ^ 32)
    (hres : ∃ r ∈ inst.inUse, ByteRange.Inside ⟨resPtr.toNat, 4⟩ r)
    (hroom : (socketGetaddrinfo resolver allocator nodePtr servicePtr hintsPtr resPtr
      inst).2.exhausted = false) :
    let result := socketGetaddrinfo resolver allocator nodePtr servicePtr hintsPtr resPtr inst
    result.1 = 0 ∧ ∃ blocks, Instance.Extends ⟨resPtr.toNat, 4⟩ inst blocks result.2 ∧
      Chain resolver result.2.memory (result.2.memory.word32 resPtr.toNat) infos blocks := by
  intro result
  have hresult : result = (0, linkInfos resolver allocator resPtr infos 0 inst) := by
    simp only [result, socketGetaddrinfo, hinfos]
  simp only [socketGetaddrinfo, hinfos] at hroom
  rw [hresult]
  exact ⟨rfl, linkInfos_spec hlawful resolver resPtr infos hnames 0 resPtr.toNat inst
    (if_pos rfl).symm hres (fun hnil => absurd hnil hsome) hroom⟩

end Lawful

/-- An allocator that goes up, and takes nothing back. -/
def bump : Allocator where
  malloc inst len :=
    let ptr := (inst.inUse.map fun r => r.start + r.length).foldr max 16
    (if ptr < 2 ^ 32 ∧ ptr + len.toNat ≤ 2 ^ 32 then UInt32.ofNat ptr else 0, inst.memory)
  free inst _ := inst.memory

theorem le_foldr_max {n m : Nat} {ends : List Nat} (hn : n ∈ ends) : n ≤ ends.foldr max m := by
  induction ends with
  | nil => cases hn
  | cons e ends ih =>
    rcases List.mem_cons.mp hn with rfl | hn
    · exact Nat.le_max_left _ _
    · exact (ih hn).trans (Nat.le_max_right _ _)

theorem bump_malloc {inst : Instance} {len : UInt32} (hptr : (bump.malloc inst len).1 ≠ 0) :
    (bump.malloc inst len).1.toNat = (inst.inUse.map fun r => r.start + r.length).foldr max 16 ∧
      (bump.malloc inst len).1.toNat + len.toNat ≤ 2 ^ 32 := by
  simp only [bump] at hptr ⊢
  split
  · next hfits =>
    rw [UInt32.toNat_ofNat_of_lt' hfits.1]
    exact ⟨rfl, hfits.2⟩
  · next hout => exact absurd (if_neg hout) hptr

theorem lawful_bump : bump.Lawful where
  fits _ _ hptr := (bump_malloc hptr).2
  fresh inst len hptr r hr := by
    refine ByteRange.apart_of_le (.inr (.inr (.inr ?_)))
    exact (le_foldr_max (List.mem_map_of_mem hr)).trans (bump_malloc hptr).1.ge
  malloc_keeps _ _ _ _ _ _ := rfl
  free_keeps _ _ _ _ _ _ := rfl

/-- A resolver that knows one address, which has a name. -/
def loopback : Resolver where
  names := ⟨0, 2, 10, 1, 2, 0, 6, 17, 41⟩
  downgradeIpv6 := false
  getaddrinfo _ _ _ _ := .ok [⟨0, 2, 1, 6, some (.inet 0 0x0100007F), some [104]⟩]

/-- A guest with a stack of 16 bytes. -/
def freshGuest : Instance where
  memory := fun _ => 0
  static := [⟨0, 16⟩]
  live := []
  exhausted := false
  misfreed := false

theorem getaddrinfo_links_results_loopback :
    (socketGetaddrinfo loopback bump 0 0 0 8 freshGuest).1 = 0 :=
  (getaddrinfo_links_results lawful_bump freshGuest loopback rfl (List.cons_ne_nil _ _)
    (by simp) ⟨_, List.mem_cons_self, by decide, by decide⟩ (by decide)).1

/-- `inst'` is `inst` without the blocks, and what is left in use is as it was. -/
structure Instance.Frees (inst : Instance) (blocks : List ByteRange) (inst' : Instance) : Prop where
  static : inst'.static = inst.static
  live : inst'.live = inst.live.filter fun r => r.start ∉ blocks.map ByteRange.start
  misfreed : inst'.misfreed = inst.misfreed
  keeps : ∀ r ∈ inst'.inUse, ∀ address, r.Covers address →
    inst'.memory address = inst.memory address

namespace Instance.Frees

variable {inst inst' inst'' : Instance} {blocks blocks' : List ByteRange}

theorem refl (inst : Instance) : Frees inst [] inst where
  static := rfl
  live := by simp
  misfreed := rfl
  keeps _ _ _ _ := rfl

theorem mem_live (hfrees : Frees inst blocks inst') {r : ByteRange} :
    r ∈ inst'.live ↔ r ∈ inst.live ∧ r.start ∉ blocks.map ByteRange.start := by
  rw [hfrees.live, List.mem_filter, decide_eq_true_iff]

theorem inUse_subset (hfrees : Frees inst blocks inst') {r : ByteRange} (hr : r ∈ inst'.inUse) :
    r ∈ inst.inUse := by
  rcases List.mem_append.mp hr with hr | hr
  · exact List.mem_append_left _ (hfrees.static ▸ hr)
  · exact List.mem_append_right _ (hfrees.mem_live.mp hr).1

theorem trans (hfirst : Frees inst blocks inst') (hnext : Frees inst' blocks' inst'') :
    Frees inst (blocks' ++ blocks) inst'' where
  static := hnext.static.trans hfirst.static
  live := by
    rw [hnext.live, hfirst.live, List.filter_filter]
    refine List.filter_congr fun r _ => ?_
    rw [List.map_append, ← Bool.decide_and, decide_eq_decide, List.mem_append, not_or]
  misfreed := hnext.misfreed.trans hfirst.misfreed
  keeps r hr address hcovers := (hnext.keeps r hr address hcovers).trans
    (hfirst.keeps r (hnext.inUse_subset hr) address hcovers)

theorem perm (hfrees : Frees inst blocks inst') (hperm : blocks.Perm blocks') :
    Frees inst blocks' inst' where
  static := hfrees.static
  live := hfrees.live.trans (List.filter_congr fun _ _ =>
    decide_eq_decide.mpr (not_congr (hperm.map ByteRange.start).mem_iff))
  misfreed := hfrees.misfreed
  keeps := hfrees.keeps

/-- A block that starts elsewhere is still there. -/
theorem mem_of_not_mem (hfrees : Frees inst blocks inst') {r : ByteRange} (hr : r ∈ inst.live)
    (hstart : r.start ∉ blocks.map ByteRange.start) : r ∈ inst'.live :=
  hfrees.mem_live.mpr ⟨hr, hstart⟩

end Instance.Frees

section Free

variable {allocator : Allocator} (hlawful : allocator.Lawful) {inst : Instance}

include hlawful

theorem free_frees {ptr : UInt32} {len : Nat} (hlive : ByteRange.mk ptr.toNat len ∈ inst.live) :
    Instance.Frees inst [⟨ptr.toNat, len⟩] (inst.free allocator ptr) where
  static := rfl
  live := List.filter_congr fun _ _ => by simp
  misfreed := by
    have hany : (inst.live.any fun r => r.start = ptr.toNat) = true :=
      List.any_eq_true.mpr ⟨_, hlive, decide_eq_true rfl⟩
    simp [Instance.free, hany]
  keeps r hr address hcovers := hlawful.free_keeps inst ptr r hr address hcovers

theorem freeGiven_frees {ptr : UInt32} {bytes : Option (List UInt8)} {blocks : List ByteRange}
    {memory : Memory} (hcopied : Copied memory ptr bytes blocks)
    (hlive : ∀ r ∈ blocks, r ∈ inst.live) :
    Instance.Frees inst blocks (inst.freeGiven allocator ptr) := by
  cases bytes with
  | none =>
    obtain ⟨rfl, rfl⟩ := hcopied
    exact Instance.Frees.refl inst
  | some bytes =>
    obtain ⟨hptr, -, rfl⟩ := hcopied
    rw [Instance.freeGiven, if_pos hptr]
    exact free_frees hlawful (hlive _ (List.mem_singleton_self _))

variable {resolver : Resolver}

/-- A round of the loop frees a node and what its fields point to. -/
theorem freeNode_frees {curr : UInt32} {info : AddrInfo} {blocks : List ByteRange}
    (hnode : IsNode resolver inst.memory curr info blocks) (hlive : ∀ r ∈ blocks, r ∈ inst.live)
    (hstarts : (blocks.map ByteRange.start).Nodup) :
    Instance.Frees inst blocks
      (((inst.freeGiven allocator (inst.memory.word32 (curr.toNat + 20))).freeGiven allocator
        (inst.memory.word32 (curr.toNat + 24))).free allocator curr) := by
  obtain ⟨wasmAddr, wasmCanon, addrBlocks, canonBlocks, hwords, haddr, hcanon, rfl⟩ := hnode
  have haddrPtr : inst.memory.word32 (curr.toNat + 20) = wasmAddr :=
    Instance.word32_of_holds_words _ hwords 5 (by show 5 < 7; decide)
  have hcanonPtr : inst.memory.word32 (curr.toNat + 24) = wasmCanon :=
    Instance.word32_of_holds_words _ hwords 6 (by show 6 < 7; decide)
  rw [haddrPtr, hcanonPtr]
  simp only [List.map_append] at hstarts
  obtain ⟨-, hrest, hcanonRest⟩ := List.nodup_append.mp hstarts
  obtain ⟨-, -, haddrNode⟩ := List.nodup_append.mp hrest
  have hfirst := freeGiven_frees hlawful haddr
    fun r hr => hlive r (List.mem_append_right _ (List.mem_append_left _ hr))
  have hsecond := freeGiven_frees hlawful hcanon fun r hr =>
    hfirst.mem_of_not_mem (hlive r (List.mem_append_left _ hr)) fun hstart =>
      hcanonRest _ (List.mem_map_of_mem hr) _ (List.mem_append_left _ hstart) rfl
  have hboth := hfirst.trans hsecond
  have hnode : ByteRange.mk curr.toNat 32 ∈
      ((inst.freeGiven allocator wasmAddr).freeGiven allocator wasmCanon).live := by
    refine hboth.mem_of_not_mem (hlive _ (List.mem_append_right _
      (List.mem_append_right _ (List.mem_singleton_self _)))) fun hstart => ?_
    rw [List.map_append, List.mem_append] at hstart
    rcases hstart with hstart | hstart
    · exact hcanonRest _ hstart _ (List.mem_append_right _ (List.mem_singleton_self _)) rfl
    · exact haddrNode _ hstart _ (List.mem_singleton_self _) rfl
  refine (hboth.trans (free_frees hlawful hnode)).perm ?_
  rw [← List.append_assoc canonBlocks]
  exact List.perm_append_comm

theorem socketFreeaddrinfo_frees (infos : List AddrInfo) :
    ∀ {head : UInt32} {blocks : List ByteRange} {inst : Instance} {rounds : Nat},
      infos.length < rounds → Chain resolver inst.memory head infos blocks →
      (∀ r ∈ blocks, r ∈ inst.live) → (blocks.map ByteRange.start).Nodup →
      ∃ after, socketFreeaddrinfo allocator rounds head inst = some after ∧
        Instance.Frees inst blocks after := by
  induction infos with
  | nil =>
    rintro head blocks inst (_ | rounds) hrounds ⟨rfl, rfl⟩ hlive hstarts
    · exact absurd hrounds (Nat.not_lt_zero _)
    · exact ⟨inst, if_pos rfl, Instance.Frees.refl inst⟩
  | cons info infos ih =>
    rintro head blocks inst (_ | rounds) hrounds ⟨hhead, node, rest, hnode, rfl, hrest⟩
      hlive hstarts
    · exact absurd hrounds (Nat.not_lt_zero _)
    rw [List.map_append] at hstarts
    obtain ⟨hrestStarts, hnodeStarts, hdistinct⟩ := List.nodup_append.mp hstarts
    have hfrees := freeNode_frees hlawful hnode (fun r hr => hlive r (List.mem_append_right _ hr))
      hnodeStarts
    have hleft : ∀ r ∈ rest, r ∈ (((inst.freeGiven allocator
        (inst.memory.word32 (head.toNat + 20))).freeGiven allocator
        (inst.memory.word32 (head.toNat + 24))).free allocator head).live := fun r hr =>
      hfrees.mem_of_not_mem (hlive r (List.mem_append_left _ hr))
        fun hstart => hdistinct _ (List.mem_map_of_mem hr) _ hstart rfl
    obtain ⟨after, hafter, hfrees'⟩ := ih (Nat.lt_of_succ_lt_succ hrounds)
      (hrest.congr infos fun r hr => hfrees.keeps r (List.mem_append_right _ (hleft r hr))) hleft
      hrestStarts
    refine ⟨after, ?_, hfrees.trans hfrees'⟩
    rw [socketFreeaddrinfo, if_neg hhead]
    exact hafter

/-- `freeaddrinfo` comes to an end on a list of the guest, frees every block of it once and no
other, and leaves what is still in use as it was. -/
theorem freeaddrinfo_frees_list {infos : List AddrInfo} {head : UInt32}
    {blocks others : List ByteRange} (hchain : Chain resolver inst.memory head infos blocks)
    (hlive : inst.live.Perm (blocks ++ others))
    (hdistinct : (inst.live.map ByteRange.start).Nodup) {rounds : Nat}
    (hrounds : infos.length < rounds) :
    ∃ after, socketFreeaddrinfo allocator rounds head inst = some after ∧
      after.live.Perm others ∧ after.static = inst.static ∧ after.misfreed = inst.misfreed ∧
      ∀ r ∈ after.inUse, ∀ address, r.Covers address →
        after.memory address = inst.memory address := by
  have hstarts : ((blocks ++ others).map ByteRange.start).Nodup :=
    (hlive.map ByteRange.start).nodup_iff.mp hdistinct
  rw [List.map_append] at hstarts
  obtain ⟨hblocks, -, hothers⟩ := List.nodup_append.mp hstarts
  obtain ⟨after, hafter, hfrees⟩ := socketFreeaddrinfo_frees hlawful infos hrounds hchain
    (fun r hr => hlive.mem_iff.mpr (List.mem_append_left _ hr)) hblocks
  refine ⟨after, hafter, ?_, hfrees.static, hfrees.misfreed, hfrees.keeps⟩
  rw [hfrees.live]
  refine (hlive.filter _).trans ?_
  rw [List.filter_append, List.filter_eq_nil_iff.mpr, List.filter_eq_self.mpr, List.nil_append]
  · intro r hr
    exact decide_eq_true fun hstart => hothers _ hstart _ (List.mem_map_of_mem hr) rfl
  · intro r hr hout
    exact of_decide_eq_true hout (List.mem_map_of_mem hr)

end Free

theorem freeaddrinfo_frees_list_loopback :
    ∃ after, socketFreeaddrinfo bump 2
        ((socketGetaddrinfo loopback bump 0 0 0 8 freshGuest).2.memory.word32 8)
        (socketGetaddrinfo loopback bump 0 0 0 8 freshGuest).2 = some after ∧
      after.live.Perm [] := by
  obtain ⟨blocks, hextends, hchain⟩ := linkInfos_spec lawful_bump loopback 8
    [⟨0, 2, 1, 6, some (.inet 0 0x0100007F), some [104]⟩] (by simp) 0 8 freshGuest rfl
    ⟨_, List.mem_cons_self, by decide, by decide⟩ (by simp) (by decide)
  have hlive : (socketGetaddrinfo loopback bump 0 0 0 8 freshGuest).2.live = blocks ++ [] :=
    hextends.live
  obtain ⟨after, hafter, hleft, -⟩ := freeaddrinfo_frees_list lawful_bump hchain
    (List.Perm.of_eq hlive) (by decide) (Nat.lt_succ_self _)
  exact ⟨after, hafter, hleft⟩

end Wasm

end LuxonServer
