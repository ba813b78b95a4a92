import Mathlib.Data.List.Induction
import Nvr.Lib.Tiling
import Nvr.Update.Pointers

/-!
# A bad upgrade

Every call takes its packet piece by piece from the front (`Advance`), copies inside
`pUpdataBuf`, and hands over the entries that are full with what it has of the
packet (`handed`). Three things break this. A header with a wrong magic makes -1 the
number of bytes that it takes, so the next piece starts in front of the packet.
A sum of lengths may be no `int`. And an entry that is shorter than its header is
taken for one whose length is negative (`Sound`).
-/

namespace Nvr.Update.Pointers

open WordRecord Tiling

/-! ## What a call is to do -/

/-- The stream has a header with its magic. -/
def StartsWithHdr (stream : List UInt8) : Prop :=
  upgradeFileHdrLen ≤ stream.length ∧ wordAt stream 0 = updateFileHdrMagic

/-- The entry starts with a whole header, which is one of a packet of that length. -/
def FlashWrite.Complete (w : FlashWrite) : Prop :=
  updateHdrLen ≤ w.size ∧ w.hdr.magic = ipncUpdatePacketMagic ∧ 0 ≤ w.hdr.dataLen.toInt ∧
    w.hdr.dataLen.toInt + updateHdrLen = w.size

/-- Inside `pUpdataBuf`. -/
def Span.Inside (sp : Span) : Prop :=
  0 ≤ sp.start ∧ 0 ≤ sp.len ∧ sp.start + sp.len ≤ nvrMaxUpdateBuf

/-- A call on a packet, the last one of the stream so far. -/
structure CallLaw (stream : List UInt8) (p : Packet) (c : Call) : Prop where
  once : Tiles Span.start Span.len 0 c.reads
  forward : ∀ sp ∈ c.reads, 0 ≤ sp.len
  inPacket : total Span.len c.reads ≤ p.bytes.length
  inBuf : ∀ sp ∈ c.stores, sp.Inside
  defined : c.overflow = false
  flash : ∀ w ∈ c.flash, StartsWithHdr stream ∧ w.Complete

/-! ## What it has to meet -/

/-- The entries that are full with these bytes: the device of each, what is in `pUpdataBuf`
then, and the size. The next one is looked for only if `nvr_update_write_packet`
succeeds. -/
def handed (io : Nat → DeviceIo) (calls : Nat) (buf : ByteFile) (off : Nat) (info : ByteFile)
    (bytes : List UInt8) : List (DeviceIo × ByteFile × Nat) :=
  if off + bytes.length < fileSizeOf info then []
  else
    let full := buf.write off (bytes.take (fileSizeOf info - off))
    let rest := bytes.drop (fileSizeOf info - off)
    if h : (nvrUpdateWritePacket (io calls) full (fileSizeOf info)).1 = true ∧
        upgradeFileInfoLen ≤ rest.length then
      (io calls, full, fileSizeOf info) ::
        handed io (calls + 1) full 0 (info.write 0 (rest.take upgradeFileInfoLen))
          (rest.drop upgradeFileInfoLen)
    else [(io calls, full, fileSizeOf info)]
  termination_by bytes.length
  decreasing_by
    have hinfo : 0 < upgradeFileInfoLen := by decide
    have hrest := h.2
    simp only [rest, List.length_drop] at hrest ⊢
    omega

/-- An entry that is shorter than an `UpdateHdr`, and looks like a packet whose length is
negative. -/
structure Disguised (e : DeviceIo × ByteFile × Nat) : Prop where
  short : e.2.2 < updateHdrLen
  magic : (hdrOfMem e.2.1).magic = ipncUpdatePacketMagic
  dataLen : (hdrOfMem e.2.1).dataLen.toInt + updateHdrLen = e.2.2
  packetType : (hdrOfMem e.2.1).packetType = ImageType.code .kernel ∨
    (hdrOfMem e.2.1).packetType = ImageType.code .filesys
  opens : e.1.opens = true

/-- What `nvr_update_write_packet` writes for such an entry. -/
def written (e : DeviceIo × ByteFile × Nat) : Option FlashWrite :=
  (nvrUpdateWritePacket e.1 e.2.1 e.2.2).2

variable (s : Statics) (p : Packet)

/-- How much of a packet goes to the header. -/
def hdrPart : Nat :=
  if s.sLastFileHdrOk then 0 else min p.bytes.length (upgradeFileHdrLen - s.sLastFileHdrLen)

/-- How much of it goes to the information record. -/
def infoPart : Nat :=
  if s.sLastFileInfoOk then 0
  else min (p.bytes.length - hdrPart s p) (upgradeFileInfoLen - s.sLastFileInfoLen)

/-- What is left for the entries. -/
def entryPart : List UInt8 := p.bytes.drop (hdrPart s p + infoPart s p)

/-- The information record with its part of the packet, and whether it is complete. -/
def infoWith : ByteFile :=
  if s.sLastFileInfoOk then s.stUpdateFileInfo
  else s.stUpdateFileInfo.write s.sLastFileInfoLen
    ((p.bytes.drop (hdrPart s p)).take (infoPart s p))

def InfoDone : Prop :=
  s.sLastFileInfoOk = true ∨ s.sLastFileInfoLen + infoPart s p = upgradeFileInfoLen

/-- Where the entries are copied to. -/
def entryOff : Nat := if s.sLastFileInfoOk then s.sUpdateOff else 0

instance : Decidable (InfoDone s p) := inferInstanceAs (Decidable (_ ∨ _))

/-- A header that is complete with the packet, and is none. -/
def BadHdr : Prop :=
  s.sLastFileHdrOk = false ∧ upgradeFileHdrLen ≤ s.sLastFileHdrLen + p.bytes.length ∧
    memWord (s.stUpdateFileHdr.write s.sLastFileHdrLen (p.bytes.take (hdrPart s p))) 0 ≠
      updateFileHdrMagic

/-- The entries that are full with a packet which fits in the buffer. -/
def entriesOf (io : Nat → DeviceIo) : List (DeviceIo × ByteFile × Nat) :=
  if InfoDone s p ∧ entryPart s p ≠ [] ∧
      entryOff s + (entryPart s p).length ≤ nvrMaxUpdateBuf then
    handed io s.calls s.pUpdataBuf (entryOff s) (infoWith s p) (entryPart s p)
  else []

/-- A header that is complete with the packet has its magic, the lengths have a sum, and of
the entries that are full with it none is `Disguised`. -/
structure Sound (io : Nat → DeviceIo) : Prop where
  magic : ¬BadHdr s p
  small : s.sLastFileInfoOk = true → s.sUpdateOff + p.bytes.length < 2 ^ 31
  short : ∀ e ∈ entriesOf s p io, ¬Disguised e

variable {s p}

/-! ## Pieces of a packet -/

/-- Inside the packet its bytes are copied. -/
theorem Packet.copy_eq {k n : Nat} (h : k + n ≤ p.bytes.length) :
    p.copy k n = (p.bytes.drop k).take n := by
  refine List.ext_getElem ?_ fun i h1 h2 => ?_
  · rw [Packet.copy, List.length_map, List.length_range, List.length_take, List.length_drop]
    omega
  · have hi : i < n := by simpa [Packet.copy] using h1
    have hk : k + i < p.bytes.length := by omega
    have hbyte : p.byte ((k : Int) + i) = p.bytes[k + i] := by
      rw [Packet.byte, if_pos (by omega)]
      have htoNat : ((k : Int) + i).toNat = k + i := by omega
      rw [htoNat]
      simp [hk]
    simp only [Packet.copy, List.getElem_map, List.getElem_range, List.getElem_take,
      List.getElem_drop]
    exact hbyte

/-- From `c` to `d` the next `n` bytes of the packet behind the first `k` are taken, all is
copied inside the buffer, and `events` are written. -/
structure Advance (c d : Call) (k n : Nat) (events : List FlashWrite) : Prop where
  reads : ∃ rs, d.reads = c.reads ++ rs ∧ Tiles Span.start Span.len (k : Int) rs ∧
    total Span.len rs = n ∧ ∀ sp ∈ rs, 0 ≤ sp.len
  stores : ∃ ss, d.stores = c.stores ++ ss ∧ ∀ sp ∈ ss, sp.Inside
  flash : d.flash = c.flash ++ events
  overflow : d.overflow = c.overflow

variable {c d e : Call} {k n m : Nat} {events events' : List FlashWrite}

theorem Advance.trans (h : Advance c d k n events) (h' : Advance d e (k + n) m events') :
    Advance c e k (n + m) (events ++ events') := by
  obtain ⟨rs, hrs, htiles, htotal, hlen⟩ := h.reads
  obtain ⟨rs', hrs', htiles', htotal', hlen'⟩ := h'.reads
  obtain ⟨ss, hss, hinside⟩ := h.stores
  obtain ⟨ss', hss', hinside'⟩ := h'.stores
  refine ⟨⟨rs ++ rs', ?_, ?_, ?_, ?_⟩, ⟨ss ++ ss', ?_, ?_⟩, ?_, h'.overflow.trans h.overflow⟩
  · rw [hrs', hrs, List.append_assoc]
  · rw [tiles_append, htotal]
    exact ⟨htiles, by exact_mod_cast htiles'⟩
  · rw [total_append, htotal, htotal']
    norm_cast
  · intro sp hsp
    exact (List.mem_append.1 hsp).elim (hlen sp) (hlen' sp)
  · rw [hss', hss, List.append_assoc]
  · intro sp hsp
    exact (List.mem_append.1 hsp).elim (hinside sp) (hinside' sp)
  · rw [h'.flash, h.flash, List.append_assoc]

/-- Only statics change. -/
theorem Advance.refl (h : d.reads = c.reads) (h' : d.stores = c.stores) (h'' : d.flash = c.flash)
    (ho : d.overflow = c.overflow) : Advance c d k 0 [] :=
  ⟨⟨[], by rw [h, List.append_nil], trivial, rfl, nofun⟩,
    ⟨[], by rw [h', List.append_nil], nofun⟩, by rw [h'', List.append_nil], ho⟩

theorem tiles_single (k n : Nat) :
    Tiles Span.start Span.len (k : Int) [⟨k, n⟩] ∧ total Span.len [(⟨k, n⟩ : Span)] = n ∧
      ∀ sp ∈ [(⟨k, n⟩ : Span)], 0 ≤ sp.len := by
  refine ⟨⟨rfl, trivial⟩, ?_, ?_⟩
  · simp [total]
  · simp

theorem advance_toInfo (off : Nat) : Advance c (c.toInfo p k n off) k n [] :=
  ⟨⟨_, rfl, tiles_single k n⟩, ⟨[], by simp [Call.toInfo], nofun⟩, by simp [Call.toInfo], rfl⟩

theorem advance_toHdr (off : Nat) : Advance c (c.toHdr p k n off) k n [] :=
  ⟨⟨_, rfl, tiles_single k n⟩, ⟨[], by simp [Call.toHdr], nofun⟩, by simp [Call.toHdr], rfl⟩

theorem advance_toBuf (h : c.s.sUpdateOff + n ≤ nvrMaxUpdateBuf) :
    Advance c (c.toBuf p k n) k n [] := by
  refine ⟨⟨_, rfl, tiles_single k n⟩, ⟨_, rfl, fun sp hsp => ?_⟩, by simp [Call.toBuf], rfl⟩
  rw [List.mem_singleton.1 hsp]
  refine ⟨?_, ?_, ?_⟩
  · show (0 : Int) ≤ c.s.sUpdateOff
    omega
  · show (0 : Int) ≤ n
    omega
  · show (c.s.sUpdateOff : Int) + n ≤ nvrMaxUpdateBuf
    omega

theorem advance_writePacket (io : Nat → DeviceIo) :
    Advance c (c.writePacket io).2 k 0
      (written (io c.s.calls, c.s.pUpdataBuf, c.s.sUpdateOff)).toList :=
  ⟨⟨[], by simp [Call.writePacket], trivial, rfl, nofun⟩,
    ⟨[], by simp [Call.writePacket], nofun⟩, rfl, rfl⟩

/-! ## What is written -/

theorem mem_written {e : DeviceIo × ByteFile × Nat} {w : FlashWrite} (h : written e = some w) :
    w = ⟨hdrOfMem e.2.1, e.2.2⟩ ∧ e.1.opens = true ∧
      (hdrOfMem e.2.1).magic = ipncUpdatePacketMagic ∧
      (hdrOfMem e.2.1).dataLen.toUInt32 + UInt32.ofNat updateHdrLen = UInt32.ofNat e.2.2 ∧
      ((hdrOfMem e.2.1).packetType = ImageType.code .kernel ∨
        (hdrOfMem e.2.1).packetType = ImageType.code .filesys ∨
          1024 ≤ (hdrOfMem e.2.1).dataLen.toInt) := by
  simp only [written, nvrUpdateWritePacket] at h
  split_ifs at h with hmagic hlen htype hopens hlogo hshort hopens' <;> try contradiction
  · exact ⟨(Option.some.inj h).symm, hopens, not_not.1 hmagic, not_not.1 hlen,
      htype.elim .inl fun h => .inr (.inl h)⟩
  · exact ⟨(Option.some.inj h).symm, hopens', not_not.1 hmagic, not_not.1 hlen,
      .inr (.inr (by omega))⟩

/-- The sum of the length with that of the header, where it is not larger than the buffer. -/
theorem dataLen_eq_iff {x : Int32} {len : Nat} (h : len ≤ nvrMaxUpdateBuf) :
    x.toUInt32 + UInt32.ofNat updateHdrLen = UInt32.ofNat len ↔
      x.toInt + updateHdrLen = len := by
  have hmax : nvrMaxUpdateBuf = 8290304 := rfl
  have hhdr : updateHdrLen = 20 := rfl
  have hx : x.toInt = if 2 * x.toUInt32.toNat < 2 ^ 32 then (x.toUInt32.toNat : Int)
      else (x.toUInt32.toNat : Int) - (2 ^ 32 : Nat) := BitVec.toInt_eq_toNat_cond _
  have hlt := x.toUInt32.toNat_lt
  rw [← UInt32.toNat_inj, UInt32.toNat_add, UInt32.toNat_ofNat', UInt32.toNat_ofNat', hx]
  split_ifs <;> omega

/-- Of the entries in the buffer, just the disguised ones are written with no whole
header. -/
theorem complete_written_iff {e : DeviceIo × ByteFile × Nat} (h : e.2.2 ≤ nvrMaxUpdateBuf) :
    (∀ w ∈ written e, w.Complete) ↔ ¬Disguised e := by
  constructor
  · intro hall hd
    have hsome : written e = some ⟨hdrOfMem e.2.1, e.2.2⟩ := by
      rw [written, nvrUpdateWritePacket, if_neg (not_not.2 hd.magic),
        if_neg (not_not.2 ((dataLen_eq_iff h).2 hd.dataLen)), if_pos hd.packetType,
        if_pos hd.opens]
    have hshort := hd.short
    have hwhole : updateHdrLen ≤ e.2.2 := (hall _ hsome).1
    omega
  · intro hnot w hw
    obtain ⟨rfl, hopens, hmagic, hlen, htype⟩ := mem_written hw
    have hdata := (dataLen_eq_iff h).1 hlen
    have hwhole : updateHdrLen ≤ e.2.2 := by
      by_contra hshort
      obtain hkernel | hfilesys | hlogo := htype
      · exact hnot ⟨by omega, hmagic, hdata, .inl hkernel, hopens⟩
      · exact hnot ⟨by omega, hmagic, hdata, .inr hfilesys, hopens⟩
      · omega
    exact ⟨hwhole, hmagic, by simp only; omega, hdata⟩

/-! ## The entries of a packet -/

/-- The statics between two calls: an entry is collected inside the buffer, and a record
that is not complete is shorter than one. -/
structure Statics.Ready (s : Statics) : Prop where
  entry : s.sLastFileInfoOk = true →
    s.sUpdateOff ≤ fileSizeOf s.stUpdateFileInfo ∧ s.sUpdateOff ≤ nvrMaxUpdateBuf
  info : s.sLastFileInfoOk = false → s.sLastFileInfoLen < upgradeFileInfoLen

/-- The statics of the file header. -/
def Statics.fileHdr (s : Statics) : ByteFile × Bool × Nat :=
  (s.stUpdateFileHdr, s.sLastFileHdrOk, s.sLastFileHdrLen)

/-- Of the `n` bytes behind the first `k` some are taken, the entries are handed over, and
the header stays. -/
structure Takes (p : Packet) (c d : Call) (k n : Nat)
    (entries : List (DeviceIo × ByteFile × Nat)) : Prop where
  advance : ∃ m ≤ n, Advance c d k m (entries.filterMap written)
  ready : d.s.Ready
  fileHdr : d.s.fileHdr = c.s.fileHdr

variable {io : Nat → DeviceIo}

/-- An entry that ends in the packet. -/
def Call.endEntry (io : Nat → DeviceIo) (p : Packet) (c : Call) (k : Nat) : Bool × Call :=
  (c.toBuf p k (fileSizeOf c.s.stUpdateFileInfo - c.s.sUpdateOff)).writePacket io

/-- What it has then in the buffer. -/
def Call.entry (io : Nat → DeviceIo) (p : Packet) (c : Call) (k : Nat) :
    DeviceIo × ByteFile × Nat :=
  (io c.s.calls,
    c.s.pUpdataBuf.write c.s.sUpdateOff
      ((p.bytes.drop k).take (fileSizeOf c.s.stUpdateFileInfo - c.s.sUpdateOff)),
    fileSizeOf c.s.stUpdateFileInfo)

theorem endEntry_advance (hk : k + n = p.bytes.length)
    (hoff : c.s.sUpdateOff ≤ fileSizeOf c.s.stUpdateFileInfo)
    (hends : fileSizeOf c.s.stUpdateFileInfo ≤ c.s.sUpdateOff + n)
    (hroom : c.s.sUpdateOff + n ≤ nvrMaxUpdateBuf) :
    (c.endEntry io p k).1 = (nvrUpdateWritePacket (c.entry io p k).1 (c.entry io p k).2.1
        (c.entry io p k).2.2).1 ∧
      Advance c (c.endEntry io p k).2 k (fileSizeOf c.s.stUpdateFileInfo - c.s.sUpdateOff)
        (written (c.entry io p k)).toList ∧
      (c.endEntry io p k).2.s = { c.s with
        pUpdataBuf := (c.entry io p k).2.1
        sUpdateOff := fileSizeOf c.s.stUpdateFileInfo
        calls := c.s.calls + 1 } := by
  have hsize : c.s.sUpdateOff + (fileSizeOf c.s.stUpdateFileInfo - c.s.sUpdateOff) =
      fileSizeOf c.s.stUpdateFileInfo := by omega
  have hs : (c.toBuf p k (fileSizeOf c.s.stUpdateFileInfo - c.s.sUpdateOff)).s = { c.s with
      pUpdataBuf := (c.entry io p k).2.1
      sUpdateOff := fileSizeOf c.s.stUpdateFileInfo } := by
    simp only [Call.toBuf, Call.entry, hsize]
    rw [Packet.copy_eq (by omega)]
  refine ⟨?_, ?_, ?_⟩
  · simp only [Call.endEntry, Call.writePacket, hs, Call.entry]
  · have hbuf := advance_toBuf (c := c) (p := p) (k := k)
      (n := fileSizeOf c.s.stUpdateFileInfo - c.s.sUpdateOff) (by omega)
    have hwrite := hbuf.trans (advance_writePacket io)
    rw [hs] at hwrite
    exact hwrite
  · simp only [Call.endEntry, Call.writePacket, hs]

theorem handed_nil {calls off : Nat} {buf info : ByteFile} {bytes : List UInt8}
    (h : off + bytes.length < fileSizeOf info) : handed io calls buf off info bytes = [] := by
  rw [handed, if_pos h]

/-- An entry that is full, and those behind it. -/
theorem handed_ends
    (hends : fileSizeOf c.s.stUpdateFileInfo ≤ c.s.sUpdateOff + (p.bytes.length - k)) {left : List UInt8}
    (hleft : left = (p.bytes.drop k).drop (fileSizeOf c.s.stUpdateFileInfo - c.s.sUpdateOff)) :
    handed io c.s.calls c.s.pUpdataBuf c.s.sUpdateOff c.s.stUpdateFileInfo (p.bytes.drop k) =
      c.entry io p k ::
        if (nvrUpdateWritePacket (c.entry io p k).1 (c.entry io p k).2.1
            (c.entry io p k).2.2).1 = true ∧ upgradeFileInfoLen ≤ left.length then
          handed io (c.s.calls + 1) (c.entry io p k).2.1 0
            (c.s.stUpdateFileInfo.write 0 (left.take upgradeFileInfoLen))
            (left.drop upgradeFileInfoLen)
        else [] := by
  rw [handed, if_neg (by rw [List.length_drop]; omega), hleft]
  by_cases hmore : (nvrUpdateWritePacket (c.entry io p k).1 (c.entry io p k).2.1
      (c.entry io p k).2.2).1 = true ∧ upgradeFileInfoLen ≤
        ((p.bytes.drop k).drop (fileSizeOf c.s.stUpdateFileInfo - c.s.sUpdateOff)).length
  · rw [if_pos hmore]
    exact dif_pos hmore
  · rw [if_neg hmore]
    exact dif_neg hmore

/-- The record of the next entry, whole. -/
def Call.nextInfo (p : Packet) (c : Call) (k : Nat) : Call :=
  let c := c.toInfo p k upgradeFileInfoLen 0
  { c with s := { c.s with sLastFileInfoOk := true } }

/-- What the packet has of it. -/
def Call.partInfo (p : Packet) (c : Call) (k n : Nat) : Call :=
  let c := c.toInfo p k n 0
  { c with s := { c.s with sLastFileInfoLen := n, sLastFileInfoOk := false } }

/-- `sUpdateOff = 0`. -/
def Call.restart (c : Call) : Call := { c with s := { c.s with sUpdateOff := 0 } }

theorem advance_nextInfo :
    Advance c (c.nextInfo p k) k upgradeFileInfoLen [] := by
  obtain ⟨hr, hst, hf, ho⟩ := advance_toInfo (c := c) (p := p) (k := k) (n := upgradeFileInfoLen) 0
  exact ⟨hr, hst, hf, ho⟩

theorem advance_partInfo : Advance c (c.partInfo p k n) k n [] := by
  obtain ⟨hr, hst, hf, ho⟩ := advance_toInfo (c := c) (p := p) (k := k) (n := n) 0
  exact ⟨hr, hst, hf, ho⟩

theorem nvrUpdateWriteFile_ends {size : Nat}
    (hsize : size = fileSizeOf c.s.stUpdateFileInfo - c.s.sUpdateOff)
    (hoff : c.s.sUpdateOff ≤ fileSizeOf c.s.stUpdateFileInfo)
    (hends : fileSizeOf c.s.stUpdateFileInfo ≤ c.s.sUpdateOff + n) :
    nvrUpdateWriteFile io p c k n =
      let e := c.endEntry io p k
      if !e.1 then (false, e.2)
      else if upgradeFileInfoLen ≤ n - size then
        let c := e.2.restart.nextInfo p (k + size)
        if fileSizeOf c.s.stUpdateFileInfo ≤ n - size - upgradeFileInfoLen then
          nvrUpdateWriteFile io p c (k + size + upgradeFileInfoLen : Nat)
            (n - size - upgradeFileInfoLen)
        else (true, c.toBuf p (k + size + upgradeFileInfoLen : Nat) (n - size - upgradeFileInfoLen))
      else if 0 < n - size then (true, e.2.restart.partInfo p (k + size) (n - size))
      else (true, { e.2.restart with
        s := { e.2.restart.s with sLastFileInfoLen := 0, sLastFileInfoOk := false } }) := by
  rw [nvrUpdateWriteFile, if_neg (by omega), if_neg (by omega), hsize]
  rfl

theorem filterMap_written_cons (x : DeviceIo × ByteFile × Nat)
    (xs : List (DeviceIo × ByteFile × Nat)) :
    (x :: xs).filterMap written = (written x).toList ++ xs.filterMap written := by
  cases h : written x with
  | none => simp [h]
  | some w => simp [h]

theorem Takes.entry {x : DeviceIo × ByteFile × Nat} {xs : List (DeviceIo × ByteFile × Nat)}
    {e : Call} {n' : Nat} (h : Advance c d k m (written x).toList)
    (hhdr : d.s.fileHdr = c.s.fileHdr) (hle : m + n' ≤ n) (h' : Takes p d e (k + m) n' xs) :
    Takes p c e k n (x :: xs) := by
  obtain ⟨m', hm', hadv⟩ := h'.advance
  refine ⟨⟨m + m', by omega, ?_⟩, h'.ready, h'.fileHdr.trans hhdr⟩
  rw [filterMap_written_cons]
  exact h.trans hadv

theorem Takes.behind {xs : List (DeviceIo × ByteFile × Nat)} {e : Call} {n' : Nat}
    (h : Advance c d k m []) (hhdr : d.s.fileHdr = c.s.fileHdr) (hle : m + n' ≤ n)
    (h' : Takes p d e (k + m) n' xs) : Takes p c e k n xs := by
  obtain ⟨m', hm', hadv⟩ := h'.advance
  exact ⟨⟨m + m', by omega, h.trans hadv⟩, h'.ready, h'.fileHdr.trans hhdr⟩

/-- Bytes are taken that end no entry. -/
theorem Takes.of_advance (h : Advance c d k m []) (hle : m ≤ n) (hready : d.s.Ready)
    (hhdr : d.s.fileHdr = c.s.fileHdr) : Takes p c d k n [] :=
  ⟨⟨m, hle, h⟩, hready, hhdr⟩

theorem Statics.ready_of_info {s : Statics} (h : s.sLastFileInfoOk = false)
    (hlen : s.sLastFileInfoLen < upgradeFileInfoLen) : s.Ready :=
  ⟨fun hok => absurd (h.symm.trans hok) Bool.noConfusion, fun _ => hlen⟩

theorem Statics.ready_of_entry {s : Statics} (h : s.sLastFileInfoOk = true)
    (hoff : s.sUpdateOff ≤ fileSizeOf s.stUpdateFileInfo) (hroom : s.sUpdateOff ≤ nvrMaxUpdateBuf) :
    s.Ready :=
  ⟨fun _ => ⟨hoff, hroom⟩, fun hok => absurd (h.symm.trans hok) Bool.noConfusion⟩

/-- The loop, from an entry whose record is complete. -/
theorem nvrUpdateWriteFile_takes (io : Nat → DeviceIo) : ∀ (n : Nat) {c : Call} {k : Nat},
    k + n = p.bytes.length → c.s.sLastFileInfoOk = true →
    c.s.sUpdateOff ≤ fileSizeOf c.s.stUpdateFileInfo → c.s.sUpdateOff + n ≤ nvrMaxUpdateBuf →
    Takes p c (nvrUpdateWriteFile io p c k n).2 k n
      (handed io c.s.calls c.s.pUpdataBuf c.s.sUpdateOff c.s.stUpdateFileInfo
        (p.bytes.drop k)) := by
  intro n
  induction n using Nat.strong_induction_on with
  | _ n ih =>
  intro c k hk hok hoff hroom
  have hinfoLen : 0 < upgradeFileInfoLen := by decide
  by_cases hends : c.s.sUpdateOff + n < fileSizeOf c.s.stUpdateFileInfo
  · rw [nvrUpdateWriteFile, if_pos hends, handed_nil (by rw [List.length_drop]; omega)]
    exact ⟨⟨0, Nat.zero_le _, Advance.refl rfl rfl rfl rfl⟩,
      Statics.ready_of_entry hok hoff (Nat.le_trans (Nat.le_add_right _ _) hroom), rfl⟩
  obtain ⟨hfst, hadv, hs⟩ := @endEntry_advance _ _ _ _ io hk hoff (by omega) hroom
  rw [nvrUpdateWriteFile_ends rfl hoff (by omega), handed_ends (by omega) rfl]
  generalize c.endEntry io p k = e at hfst hadv hs ⊢
  generalize c.entry io p k = entry at hfst hadv hs ⊢
  generalize hsize : fileSizeOf c.s.stUpdateFileInfo - c.s.sUpdateOff = size at hadv ⊢
  have hstay : e.2.restart.s = { c.s with
      pUpdataBuf := entry.2.1
      sUpdateOff := 0
      calls := c.s.calls + 1 } := by
    simp only [Call.restart, hs]
  have hrestart : Advance c e.2.restart k size (written entry).toList :=
    ⟨hadv.reads, hadv.stores, hadv.flash, hadv.overflow⟩
  dsimp only
  generalize e.2.restart = d at hstay hrestart ⊢
  have hhdr : d.s.fileHdr = c.s.fileHdr := by
    rw [hstay]
    rfl
  rw [← hfst]
  cases hsucceeded : e.1 with
  | false =>
      have hready : e.2.s.Ready := by
        refine Statics.ready_of_entry ?_ ?_ ?_ <;> rw [hs]
        · exact hok
        · show fileSizeOf c.s.stUpdateFileInfo ≤ _
          omega
      have hhdr' : e.2.s.fileHdr = c.s.fileHdr := by
        rw [hs]
        rfl
      have hrest : Takes p e.2 e.2 (k + size) 0 [] :=
        .of_advance (.refl rfl rfl rfl rfl) (Nat.le_refl 0) hready rfl
      exact .entry hadv hhdr' (by omega) hrest
  | true =>
      rw [if_neg (by decide), List.drop_drop, List.length_drop,
        show p.bytes.length - (k + size) = n - size by omega]
      by_cases hwhole : upgradeFileInfoLen ≤ n - size
      · have hboth : true = true ∧ upgradeFileInfoLen ≤ n - size := ⟨rfl, hwhole⟩
        rw [if_pos hwhole, if_pos hboth, List.drop_drop]
        refine @Takes.entry _ _ _ _ _ _ _ _ _ (n - size) hrestart hhdr (by omega) ?_
        have hinfo := advance_nextInfo (c := d) (p := p) (k := k + size)
        have hs' : (d.nextInfo p (k + size)).s = { c.s with
            pUpdataBuf := entry.2.1
            sUpdateOff := 0
            stUpdateFileInfo := c.s.stUpdateFileInfo.write 0
              ((p.bytes.drop (k + size)).take upgradeFileInfoLen)
            sLastFileInfoOk := true
            calls := c.s.calls + 1 } := by
          simp only [Call.nextInfo, Call.toInfo, hstay]
          rw [← Packet.copy_eq (by omega)]
        have hhdr' : (d.nextInfo p (k + size)).s.fileHdr = d.s.fileHdr := rfl
        generalize d.nextInfo p (k + size) = c' at hinfo hs' hhdr' ⊢
        have hok' : c'.s.sLastFileInfoOk = true := by rw [hs']
        have hoff' : c'.s.sUpdateOff = 0 := by rw [hs']
        have hinfo' : c'.s.stUpdateFileInfo = c.s.stUpdateFileInfo.write 0
            ((p.bytes.drop (k + size)).take upgradeFileInfoLen) := by rw [hs']
        rw [← hinfo']
        split
        · rename_i hnext
          have hrest := ih (n - size - upgradeFileInfoLen) (by omega) (c := c')
            (k := k + size + upgradeFileInfoLen) (by omega) hok' (by omega) (by omega)
          rw [hs'] at hrest
          rw [hinfo']
          exact .behind hinfo hhdr' (by omega) hrest
        · rename_i hpart
          rw [handed_nil (by rw [List.length_drop]; omega)]
          have hbuf := advance_toBuf (c := c') (p := p) (k := k + size + upgradeFileInfoLen)
            (n := n - size - upgradeFileInfoLen) (by omega)
          refine .of_advance (hinfo.trans hbuf) (by omega) (Statics.ready_of_entry hok' ?_ ?_)
            hhdr'
          · show c'.s.sUpdateOff + _ ≤ fileSizeOf c'.s.stUpdateFileInfo
            omega
          · show c'.s.sUpdateOff + _ ≤ _
            omega
      · have hnone : ¬(true = true ∧ upgradeFileInfoLen ≤ n - size) := fun h => hwhole h.2
        rw [if_neg hwhole, if_neg hnone]
        refine @Takes.entry _ _ _ _ _ _ _ _ _ (n - size) hrestart hhdr (by omega) ?_
        split
        · exact .of_advance (d := d.partInfo p (k + size) (n - size)) advance_partInfo
            (Nat.le_refl _) (Statics.ready_of_info rfl (Nat.lt_of_not_le hwhole)) rfl
        · exact .of_advance (.refl rfl rfl rfl rfl) (Nat.zero_le _)
            (Statics.ready_of_info rfl hinfoLen) rfl

/-! ## The header and the information record -/

variable {stream : List UInt8}

/-- A call on a packet, before it takes anything. -/
def Call.start (s : Statics) : Call := ⟨s, [], [], [], false⟩

/-- The statics of the file header behind `stream`. -/
structure FedHdr (hdr : ByteFile × Bool × Nat) (stream : List UInt8) : Prop where
  len : hdr.2.2 = min stream.length upgradeFileHdrLen
  bytes : ∀ i < hdr.2.2, hdr.1 i = stream.getD i 0
  ok : hdr.2.1 = true ↔ upgradeFileHdrLen ≤ stream.length
  magic : hdr.2.1 = true → wordAt stream 0 = updateFileHdrMagic

/-- The statics between two calls, behind `stream`. -/
structure Fed (s : Statics) (stream : List UInt8) : Prop where
  hdr : FedHdr s.fileHdr stream
  info : s.sLastFileInfoOk = true → s.sLastFileHdrOk = true
  ready : s.Ready

/-- The statics with the part of the packet that goes to the header. -/
def hdrTaken (s : Statics) (p : Packet) : Statics :=
  { s with
    stUpdateFileHdr := s.stUpdateFileHdr.write s.sLastFileHdrLen (p.bytes.take (hdrPart s p))
    sLastFileHdrLen := s.sLastFileHdrLen + hdrPart s p
    sLastFileHdrOk := s.sLastFileHdrOk || s.sLastFileHdrLen + hdrPart s p = upgradeFileHdrLen }

theorem write_nil (f : ByteFile) (off : Nat) : f.write off [] = f := by
  funext i
  exact ByteFile.write_apply_of_not (by rw [List.length_nil]; omega)

theorem hdrTaken_of_ok (h : s.sLastFileHdrOk = true) : hdrTaken s p = s := by
  have hpart : hdrPart s p = 0 := if_pos h
  rw [hdrTaken, hpart, List.take_zero, write_nil, h, Bool.true_or, ← h]
  rfl

/-- What `nvr_update_write_data` does first. -/
def takeHdr (s : Statics) (p : Packet) : Int × Call :=
  if s.sLastFileHdrOk then (0, .start s) else nvrUpdateFirstPacket p (.start s) 0 p.bytes.length

theorem takeHdr_eq (hlen : s.sLastFileHdrOk = false → s.sLastFileHdrLen < upgradeFileHdrLen) :
    (takeHdr s p).2.s = hdrTaken s p ∧
      Advance (.start s) (takeHdr s p).2 0 (hdrPart s p) [] ∧
      ((takeHdr s p).1 = -1 ∧ BadHdr s p ∧ (takeHdr s p).2.reads = [⟨0, hdrPart s p⟩] ∨
        (takeHdr s p).1 = hdrPart s p ∧ ¬BadHdr s p) := by
  cases hok : s.sLastFileHdrOk with
  | true =>
      have hpart : hdrPart s p = 0 := if_pos hok
      rw [takeHdr, if_pos hok, hpart]
      refine ⟨?_, .refl rfl rfl rfl rfl, .inr ⟨rfl, fun h => ?_⟩⟩
      · rw [hdrTaken_of_ok hok]
        rfl
      · exact absurd (hok.symm.trans h.1) Bool.noConfusion
  | false =>
      have hpart : hdrPart s p = min p.bytes.length (upgradeFileHdrLen - s.sLastFileHdrLen) :=
        if_neg (by rw [hok]; exact Bool.false_ne_true)
      have hlt := hlen hok
      have hcopy : p.copy 0 (hdrPart s p) = p.bytes.take (hdrPart s p) := by
        have h := Packet.copy_eq (p := p) (k := 0) (n := hdrPart s p) (by omega)
        rwa [List.drop_zero] at h
      have hs : ((Call.start s).toHdr p 0 (hdrPart s p) s.sLastFileHdrLen).s = { s with
          stUpdateFileHdr :=
            s.stUpdateFileHdr.write s.sLastFileHdrLen (p.bytes.take (hdrPart s p)) } := by
        rw [← hcopy]
        rfl
      have hadv := advance_toHdr (c := .start s) (p := p) (k := 0) (n := hdrPart s p)
        s.sLastFileHdrLen
      have hreads : ((Call.start s).toHdr p 0 (hdrPart s p) s.sLastFileHdrLen).reads =
          [⟨0, hdrPart s p⟩] := rfl
      rw [takeHdr, if_neg (by rw [hok]; exact Bool.false_ne_true), nvrUpdateFirstPacket]
      dsimp only
      rw [show min p.bytes.length (upgradeFileHdrLen - (Call.start s).s.sLastFileHdrLen) =
          hdrPart s p from hpart.symm,
        show (Call.start s).s.sLastFileHdrLen = s.sLastFileHdrLen from rfl]
      generalize (Call.start s).toHdr p 0 (hdrPart s p) s.sLastFileHdrLen = c at hs hadv hreads ⊢
      rw [hs]
      obtain ⟨hr, hst, hf, ho⟩ := hadv
      by_cases hdone : s.sLastFileHdrLen + hdrPart s p = upgradeFileHdrLen
      · rw [if_neg (not_not.2 hdone)]
        split
        · rename_i hbad
          refine ⟨?_, ⟨hr, hst, hf, ho⟩, .inl ⟨rfl, ⟨hok, by omega, hbad⟩, hreads⟩⟩
          simp only [hdrTaken, hdone, decide_true, Bool.or_true]
        · rename_i hgood
          refine ⟨?_, ⟨hr, hst, hf, ho⟩, .inr ⟨rfl, fun h => hgood h.2.2⟩⟩
          simp only [hdrTaken, hdone, decide_true, Bool.or_true]
      · rw [if_pos hdone]
        refine ⟨?_, ⟨hr, hst, hf, ho⟩, .inr ⟨rfl, fun h => ?_⟩⟩
        · simp only [hdrTaken, hok, hdone, decide_false, Bool.or_self]
        · have := h.2.1
          omega

/-- The statics with the part of the packet that goes to the information record. -/
def infoTaken (s : Statics) (p : Packet) : Statics :=
  if s.sLastFileInfoOk then hdrTaken s p
  else if s.sLastFileInfoLen + infoPart s p = upgradeFileInfoLen then
    { hdrTaken s p with
      stUpdateFileInfo := infoWith s p
      sLastFileInfoOk := true
      sLastFileInfoLen := 0
      sUpdateOff := 0 }
  else
    { hdrTaken s p with
      stUpdateFileInfo := infoWith s p
      sLastFileInfoLen := s.sLastFileInfoLen + infoPart s p }

/-- What `nvr_update_write_data` does second. -/
def takeInfo (p : Packet) (c : Call) (k : Int) (n : Nat) : Nat × Call :=
  if c.s.sLastFileInfoOk then (0, c) else nvrUpdateWriteHdrInfo p c k n

theorem takeInfo_eq (hs : c.s = hdrTaken s p) :
    (takeInfo p c (hdrPart s p) (p.bytes.length - hdrPart s p)).1 = infoPart s p ∧
      (takeInfo p c (hdrPart s p) (p.bytes.length - hdrPart s p)).2.s = infoTaken s p ∧
      Advance c (takeInfo p c (hdrPart s p) (p.bytes.length - hdrPart s p)).2 (hdrPart s p)
        (infoPart s p) [] := by
  have hinfoOk : c.s.sLastFileInfoOk = s.sLastFileInfoOk := by rw [hs]; rfl
  have hinfoLen : c.s.sLastFileInfoLen = s.sLastFileInfoLen := by rw [hs]; rfl
  have hinfo : c.s.stUpdateFileInfo = s.stUpdateFileInfo := by rw [hs]; rfl
  cases hok : s.sLastFileInfoOk with
  | true =>
      have hpart : infoPart s p = 0 := if_pos hok
      rw [takeInfo, if_pos (hinfoOk.trans hok), hpart, infoTaken, if_pos hok]
      exact ⟨rfl, hs, .refl rfl rfl rfl rfl⟩
  | false =>
      have hpart : infoPart s p =
          min (p.bytes.length - hdrPart s p) (upgradeFileInfoLen - s.sLastFileInfoLen) :=
        if_neg (by rw [hok]; exact Bool.false_ne_true)
      have hhdrPart : hdrPart s p ≤ p.bytes.length := by
        rw [hdrPart]
        split <;> omega
      have hcopy : p.copy (hdrPart s p) (infoPart s p) =
          (p.bytes.drop (hdrPart s p)).take (infoPart s p) := Packet.copy_eq (by omega)
      have hwith : infoWith s p = s.stUpdateFileInfo.write s.sLastFileInfoLen
          ((p.bytes.drop (hdrPart s p)).take (infoPart s p)) :=
        if_neg (by rw [hok]; exact Bool.false_ne_true)
      have htaken : (c.toInfo p (hdrPart s p) (infoPart s p) c.s.sLastFileInfoLen).s =
          { hdrTaken s p with stUpdateFileInfo := infoWith s p } := by
        simp only [Call.toInfo, hcopy, hwith, hs]
        rfl
      have hadv := advance_toInfo (c := c) (p := p) (k := hdrPart s p) (n := infoPart s p)
        c.s.sLastFileInfoLen
      rw [takeInfo, if_neg (by rw [hinfoOk, hok]; exact Bool.false_ne_true),
        nvrUpdateWriteHdrInfo]
      dsimp only
      rw [hinfoLen] at hadv htaken ⊢
      rw [← hpart]
      generalize c.toInfo p (hdrPart s p) (infoPart s p) s.sLastFileInfoLen = d at hadv htaken ⊢
      obtain ⟨hr, hst, hf, ho⟩ := hadv
      have hinfoTaken : infoTaken s p =
          if s.sLastFileInfoLen + infoPart s p = upgradeFileInfoLen then
            { hdrTaken s p with
              stUpdateFileInfo := infoWith s p
              sLastFileInfoOk := true
              sLastFileInfoLen := 0
              sUpdateOff := 0 }
          else
            { hdrTaken s p with
              stUpdateFileInfo := infoWith s p
              sLastFileInfoLen := s.sLastFileInfoLen + infoPart s p } :=
        if_neg (by rw [hok]; exact Bool.false_ne_true)
      have hlen : d.s.sLastFileInfoLen = s.sLastFileInfoLen := by rw [htaken]; rfl
      rw [hlen, hinfoTaken]
      by_cases hdone : s.sLastFileInfoLen + infoPart s p = upgradeFileInfoLen
      · rw [if_neg (not_not.2 hdone), if_pos hdone, htaken]
        exact ⟨rfl, rfl, hr, hst, hf, ho⟩
      · rw [if_pos hdone, if_neg hdone, htaken]
        exact ⟨rfl, rfl, hr, hst, hf, ho⟩

theorem FedHdr.startsWithHdr {hdr : ByteFile × Bool × Nat} (h : FedHdr hdr stream)
    (hok : hdr.2.1 = true) : StartsWithHdr stream :=
  ⟨h.ok.1 hok, h.magic hok⟩

theorem getD_append_left {xs ys : List UInt8} {i : Nat} (h : i < xs.length) :
    (xs ++ ys).getD i 0 = xs.getD i 0 := by
  rw [List.getD_eq_getElem?_getD, List.getD_eq_getElem?_getD, List.getElem?_append_left h]

theorem getD_append_right {xs ys : List UInt8} {i : Nat} (h : xs.length ≤ i) :
    (xs ++ ys).getD i 0 = ys.getD (i - xs.length) 0 := by
  rw [List.getD_eq_getElem?_getD, List.getD_eq_getElem?_getD, List.getElem?_append_right h]

/-- A word is read from its four bytes. -/
theorem memWord_eq {mem : ByteFile} {bytes : List UInt8} {off : Nat}
    (h : ∀ i < off + 4, mem i = bytes.getD i 0) : memWord mem off = wordAt bytes off := by
  rw [memWord, wordAt, h off (by omega), h (off + 1) (by omega), h (off + 2) (by omega),
    h (off + 3) (by omega)]

theorem FedHdr.hdrTaken (h : FedHdr s.fileHdr stream) (hgood : ¬BadHdr s p) :
    FedHdr (hdrTaken s p).fileHdr (stream ++ p.bytes) := by
  obtain ⟨hlen, hbytes, hok, hmagic⟩ := h
  simp only [Statics.fileHdr] at hlen hbytes hok hmagic
  have hhdrLen : 4 ≤ upgradeFileHdrLen := by decide
  cases hdone : s.sLastFileHdrOk with
  | true =>
      rw [hdrTaken_of_ok hdone]
      have hle := hok.1 hdone
      have hle' : upgradeFileHdrLen ≤ (stream ++ p.bytes).length := by
        rw [List.length_append]
        omega
      refine ⟨?_, fun i hi => ?_, ⟨fun _ => hle', fun _ => hdone⟩, fun _ => ?_⟩
      · show s.sLastFileHdrLen = _
        omega
      · rw [getD_append_left (by have : i < s.sLastFileHdrLen := hi; omega)]
        exact hbytes i hi
      · rw [← hmagic hdone, wordAt, wordAt, getD_append_left (by omega),
          getD_append_left (by omega), getD_append_left (by omega), getD_append_left (by omega)]
  | false =>
      have hlt : stream.length < upgradeFileHdrLen := by
        by_contra hge
        exact absurd (hdone.symm.trans (hok.2 (by omega))) Bool.noConfusion
      have hpart : hdrPart s p = min p.bytes.length (upgradeFileHdrLen - s.sLastFileHdrLen) :=
        if_neg (by rw [hdone]; exact Bool.false_ne_true)
      have hlen' : s.sLastFileHdrLen = stream.length := by omega
      have hwritten : ∀ i < s.sLastFileHdrLen + hdrPart s p,
          (s.stUpdateFileHdr.write s.sLastFileHdrLen (p.bytes.take (hdrPart s p))) i =
            (stream ++ p.bytes).getD i 0 := by
        intro i hi
        have htake : (p.bytes.take (hdrPart s p)).length = hdrPart s p := by
          rw [List.length_take]
          omega
        by_cases hin : stream.length ≤ i
        · rw [ByteFile.write, if_pos (by omega), getD_append_right hin, hlen',
            List.getD_eq_getElem?_getD, List.getD_eq_getElem?_getD, List.getElem?_take_of_lt]
          omega
        · rw [ByteFile.write_apply_of_not (by omega), getD_append_left (by omega)]
          exact hbytes i (by omega)
      refine ⟨?_, hwritten, ?_, fun hnow => ?_⟩
      · show s.sLastFileHdrLen + hdrPart s p = _
        rw [List.length_append]
        omega
      · show (s.sLastFileHdrOk || decide _) = true ↔ _
        rw [hdone, Bool.false_or, decide_eq_true_iff, List.length_append]
        omega
      · have hfull : s.sLastFileHdrLen + hdrPart s p = upgradeFileHdrLen := by
          have : (s.sLastFileHdrOk || decide (_ = _)) = true := hnow
          rwa [hdone, Bool.false_or, decide_eq_true_iff] at this
        rw [← memWord_eq fun i hi => hwritten i (by omega)]
        by_contra hbad
        exact hgood ⟨hdone, by omega, hbad⟩

/-! ## A packet -/

theorem nvrUpdateWriteData_eq :
    nvrUpdateWriteData io s p =
      writeEntry io p (takeInfo p (takeHdr s p).2 (takeHdr s p).1
          (p.bytes.length - (takeHdr s p).1).toNat).2
        ((takeHdr s p).1 + (takeInfo p (takeHdr s p).2 (takeHdr s p).1
          (p.bytes.length - (takeHdr s p).1).toNat).1)
        ((p.bytes.length - (takeHdr s p).1).toNat - (takeInfo p (takeHdr s p).2 (takeHdr s p).1
          (p.bytes.length - (takeHdr s p).1).toNat).1) := rfl

/-- An entry that is full is not larger than what it is made of. -/
theorem size_of_mem_handed {calls off : Nat} {buf info : ByteFile} {bytes : List UInt8}
    {e : DeviceIo × ByteFile × Nat} (h : e ∈ handed io calls buf off info bytes) :
    e.2.2 ≤ off + bytes.length := by
  induction calls, buf, off, info, bytes using handed.induct io with
  | case1 calls buf off info bytes hshort =>
      rw [handed, if_pos hshort] at h
      exact absurd h List.not_mem_nil
  | case2 calls buf off info bytes hends full rest hmore ih =>
      rw [handed, if_neg hends] at h
      simp only [full, rest] at ih hmore
      rw [dif_pos hmore] at h
      obtain rfl | hlater := List.mem_cons.1 h
      · exact Nat.le_of_not_lt hends
      · have := ih hlater
        rw [List.length_drop, List.length_drop] at this
        omega
  | case3 calls buf off info bytes hends full rest hlast =>
      rw [handed, if_neg hends] at h
      simp only [full, rest] at hlast
      rw [dif_neg hlast, List.mem_singleton] at h
      rw [h]
      exact Nat.le_of_not_lt hends

theorem size_of_mem_entriesOf {e : DeviceIo × ByteFile × Nat} (h : e ∈ entriesOf s p io) :
    InfoDone s p ∧ e.2.2 ≤ nvrMaxUpdateBuf := by
  rw [entriesOf] at h
  split at h
  · rename_i hroom
    exact ⟨hroom.1, Nat.le_trans (size_of_mem_handed h) hroom.2.2⟩
  · exact absurd h List.not_mem_nil

theorem infoTaken_fileHdr : (infoTaken s p).fileHdr = (hdrTaken s p).fileHdr := by
  rw [infoTaken]
  split
  · rfl
  · split <;> rfl

theorem infoTaken_ok : (infoTaken s p).sLastFileInfoOk = true ↔ InfoDone s p := by
  rw [infoTaken, InfoDone]
  split
  · rename_i hok
    exact ⟨fun _ => .inl hok, fun _ => hok⟩
  · rename_i hnot
    split
    · rename_i hdone
      exact ⟨fun _ => .inr hdone, fun _ => rfl⟩
    · rename_i hmore
      exact ⟨fun h => absurd h hnot, fun h => absurd h (not_or.2 ⟨hnot, hmore⟩)⟩

/-- The entry that the record is about. -/
theorem infoTaken_entry (h : InfoDone s p) :
    (infoTaken s p).sUpdateOff = entryOff s ∧ (infoTaken s p).stUpdateFileInfo = infoWith s p ∧
      (infoTaken s p).pUpdataBuf = s.pUpdataBuf ∧ (infoTaken s p).calls = s.calls := by
  rw [infoTaken, entryOff, infoWith]
  split
  · exact ⟨rfl, rfl, rfl, rfl⟩
  · rename_i hnot
    rw [if_pos (h.resolve_left hnot)]
    exact ⟨rfl, rfl, rfl, rfl⟩

theorem infoTaken_ready (hready : s.Ready) : (infoTaken s p).Ready := by
  rw [infoTaken]
  split
  · exact ⟨hready.entry, hready.info⟩
  · rename_i hnot
    have hlt := hready.info (Bool.eq_false_iff.2 hnot)
    have hpart : infoPart s p ≤ upgradeFileInfoLen - s.sLastFileInfoLen := by
      rw [infoPart, if_neg hnot]
      exact Nat.min_le_right _ _
    split
    · exact Statics.ready_of_entry rfl (Nat.zero_le _) (Nat.zero_le _)
    · exact Statics.ready_of_info (Bool.eq_false_iff.2 hnot)
        (show s.sLastFileInfoLen + infoPart s p < upgradeFileInfoLen by omega)

theorem parts_le : hdrPart s p + infoPart s p ≤ p.bytes.length := by
  rw [infoPart, hdrPart]
  split <;> split <;> omega

theorem length_entryPart :
    (entryPart s p).length = p.bytes.length - (hdrPart s p + infoPart s p) := by
  rw [entryPart, List.length_drop]

/-- The rest of a packet. -/
theorem writeEntry_takes (hs : c.s = infoTaken s p) (hready : s.Ready)
    (hsmall : s.sLastFileInfoOk = true → s.sUpdateOff + p.bytes.length < 2 ^ 31) :
    Takes p c (writeEntry io p c (hdrPart s p + infoPart s p : Nat)
        (p.bytes.length - (hdrPart s p + infoPart s p))).2
      (hdrPart s p + infoPart s p) (p.bytes.length - (hdrPart s p + infoPart s p))
      (entriesOf s p io) := by
  have hlen := length_entryPart (s := s) (p := p)
  have hk := parts_le (s := s) (p := p)
  have hready' : c.s.Ready := by
    rw [hs]
    exact infoTaken_ready hready
  have hnone : ¬(InfoDone s p ∧ entryPart s p ≠ [] ∧
      entryOff s + (entryPart s p).length ≤ nvrMaxUpdateBuf) →
      Takes p c c (hdrPart s p + infoPart s p)
        (p.bytes.length - (hdrPart s p + infoPart s p)) (entriesOf s p io) := by
    intro h
    rw [entriesOf, if_neg h]
    exact .of_advance (.refl rfl rfl rfl rfl) (Nat.zero_le _) hready' rfl
  rw [writeEntry]
  split
  · rename_i hzero
    exact hnone fun h => h.2.1 (List.eq_nil_of_length_eq_zero (hlen.trans hzero))
  rename_i hpos
  split
  · rename_i hok
    have hdone := infoTaken_ok.1 (hs ▸ hok)
    obtain ⟨hoff, hinfo, hbuf, hcalls⟩ := infoTaken_entry hdone
    rw [← hs] at hoff hinfo hbuf hcalls
    rw [if_neg]
    · split
      · rename_i hlarge
        exact hnone fun h => by
          have := h.2.2
          omega
      · rename_i hfits
        have hroom : InfoDone s p ∧ entryPart s p ≠ [] ∧
            entryOff s + (entryPart s p).length ≤ nvrMaxUpdateBuf := by
          refine ⟨hdone, fun hnil => ?_, by omega⟩
          rw [hnil] at hlen
          exact hpos hlen.symm
        rw [entriesOf, if_pos hroom, ← hoff, ← hinfo, ← hbuf, ← hcalls, entryPart]
        split
        · exact nvrUpdateWriteFile_takes io _ (by omega) hok (hready'.entry hok).1 (by omega)
        · rename_i hpart
          rw [handed_nil (by rw [List.length_drop]; omega)]
          refine .of_advance (advance_toBuf (by omega)) (Nat.le_refl _)
            (Statics.ready_of_entry hok ?_ ?_) rfl
          · show c.s.sUpdateOff + _ ≤ fileSizeOf c.s.stUpdateFileInfo
            omega
          · show c.s.sUpdateOff + _ ≤ _
            omega
    · have hlt := p.length_lt
      rw [hoff, entryOff]
      split
      · rename_i hsok
        have := hsmall hsok
        omega
      · omega
  · rename_i hnot
    exact hnone fun h => hnot (hs ▸ infoTaken_ok.2 h.1)

/-- A packet that meets no bad header, and whose lengths have a sum. -/
theorem nvrUpdateWriteData_takes (hready : s.Ready)
    (hhdrLen : s.sLastFileHdrOk = false → s.sLastFileHdrLen < upgradeFileHdrLen)
    (hgood : ¬BadHdr s p)
    (hsmall : s.sLastFileInfoOk = true → s.sUpdateOff + p.bytes.length < 2 ^ 31) :
    (∃ m ≤ p.bytes.length, Advance (.start s) (nvrUpdateWriteData io s p).2 0 m
      ((entriesOf s p io).filterMap written)) ∧
      (nvrUpdateWriteData io s p).2.s.Ready ∧
      (nvrUpdateWriteData io s p).2.s.fileHdr = (hdrTaken s p).fileHdr ∧
      (p.bytes.length = hdrPart s p → (nvrUpdateWriteData io s p).2.s = infoTaken s p) := by
  obtain ⟨hs, hhdr, hfirst⟩ := takeHdr_eq (s := s) (p := p) hhdrLen
  obtain ⟨hfirst, -⟩ := hfirst.resolve_left fun h => hgood h.2.1
  obtain ⟨hinfo, hs', hadv⟩ := takeInfo_eq hs
  have hk := parts_le (s := s) (p := p)
  have hrest : ((p.bytes.length : Int) - hdrPart s p).toNat = p.bytes.length - hdrPart s p := by
    omega
  rw [nvrUpdateWriteData_eq, hfirst, hrest, hinfo]
  obtain ⟨⟨m, hm, hentry⟩, hready', hfileHdr⟩ := @writeEntry_takes _ _ _ io hs' hready hsmall
  rw [Nat.sub_sub, ← Int.natCast_add]
  refine ⟨⟨hdrPart s p + infoPart s p + m, by omega, ?_⟩, hready', ?_, fun hall => ?_⟩
  · have hboth := hhdr.trans (by rw [Nat.zero_add]; exact hadv)
    have hthree := hboth.trans (by rw [Nat.zero_add]; exact hentry)
    exact hthree
  · rw [hfileHdr, hs', infoTaken_fileHdr]
  · rw [writeEntry, if_pos (by omega), hs']

/-- What has been read stays read. -/
theorem nvrUpdateWriteFile_reads {rs : List Span} : ∀ (n : Nat) {c : Call} {start : Int},
    rs <+: c.reads → rs <+: (nvrUpdateWriteFile io p c start n).2.reads := by
  intro n
  induction n using Nat.strong_induction_on with
  | _ n ih =>
  intro c start h
  have hinfoLen : 0 < upgradeFileInfoLen := by decide
  have hone := fun sp => h.trans (List.prefix_append c.reads [sp])
  have htwo := fun sp sp' => (hone sp).trans (List.prefix_append (c.reads ++ [sp]) [sp'])
  rw [nvrUpdateWriteFile]
  dsimp only
  split
  · exact h
  split
  · exact hone _
  split
  · exact hone _
  split
  · split
    · exact ih _ (by omega) (htwo _ _)
    · exact (htwo _ _).trans (List.prefix_append _ _)
  split
  · exact htwo _ _
  · exact hone _

theorem writeEntry_reads {start : Int} : c.reads <+: (writeEntry io p c start n).2.reads := by
  rw [writeEntry]
  split
  · exact List.prefix_refl _
  split
  · split
    · exact List.prefix_refl _
    split
    · exact List.prefix_refl _
    split
    · exact nvrUpdateWriteFile_reads _ (List.prefix_refl _)
    · exact List.prefix_append _ _
  · exact List.prefix_refl _

theorem Fed.hdrLen_lt (h : Fed s stream) (hok : s.sLastFileHdrOk = false) :
    s.sLastFileHdrLen < upgradeFileHdrLen := by
  have hlen : s.sLastFileHdrLen = min stream.length upgradeFileHdrLen := h.hdr.len
  have hlt : ¬upgradeFileHdrLen ≤ stream.length := fun hle =>
    absurd (hok.symm.trans (h.hdr.ok.2 hle)) Bool.noConfusion
  omega

/-- Behind a bad header the record is read from in front of the packet. -/
theorem not_once_of_badHdr (hfed : Fed s stream) (hbad : BadHdr s p) :
    ¬Tiles Span.start Span.len 0 (nvrUpdateWriteData io s p).2.reads := by
  obtain ⟨hs, -, hfirst⟩ := takeHdr_eq (s := s) (p := p) hfed.hdrLen_lt
  obtain ⟨hfirst, -, hreads⟩ := hfirst.resolve_right fun h => h.2 hbad
  have hinfoOk : (takeHdr s p).2.s.sLastFileInfoOk = false := by
    rw [hs]
    refine Bool.eq_false_iff.2 fun h => ?_
    exact absurd (hbad.1.symm.trans (hfed.info h)) Bool.noConfusion
  rw [nvrUpdateWriteData_eq, hfirst]
  generalize (takeHdr s p).2 = c at hreads hinfoOk ⊢
  generalize ((p.bytes.length : Int) - -1).toNat = n
  have hnext : ∃ m : Int, (takeInfo p c (-1) n).2.reads = [⟨0, hdrPart s p⟩, ⟨-1, m⟩] := by
    refine ⟨(min n (upgradeFileInfoLen - c.s.sLastFileInfoLen) : Nat), ?_⟩
    rw [takeInfo, if_neg (by rw [hinfoOk]; exact Bool.false_ne_true), nvrUpdateWriteHdrInfo]
    dsimp only
    split <;> simp only [Call.toInfo, hreads, List.singleton_append]
  obtain ⟨m, hm⟩ := hnext
  obtain ⟨rs, hrs⟩ := @writeEntry_reads p (takeInfo p c (-1) n).2 (n - (takeInfo p c (-1) n).1) io
    (-1 + (takeInfo p c (-1) n).1)
  rw [← hrs, hm]
  rintro ⟨-, hsecond, -⟩
  have hlt : (-1 : Int) = 0 + hdrPart s p := hsecond
  omega

/-- Lengths that have no sum. -/
theorem overflow_of_large (hfed : Fed s stream) (hok : s.sLastFileInfoOk = true)
    (hlarge : 2 ^ 31 ≤ s.sUpdateOff + p.bytes.length) :
    (nvrUpdateWriteData io s p).2.overflow = true := by
  have hlen : p.bytes.length ≠ 0 := fun h => p.nonempty (List.eq_nil_of_length_eq_zero h)
  have hhdr : takeHdr s p = (0, .start s) := if_pos (hfed.info hok)
  have hinfo : ∀ n, takeInfo p (.start s) 0 n = (0, .start s) := fun n => if_pos hok
  have hnat : ((p.bytes.length : Int) - 0).toNat = p.bytes.length := by omega
  rw [nvrUpdateWriteData_eq, hhdr, hnat, hinfo, Nat.sub_zero, writeEntry, if_neg hlen]
  dsimp only
  rw [show (Call.start s).s = s from rfl, if_pos hok, if_pos hlarge]

/-- A packet that the header takes whole. -/
theorem hdrPart_of_not (hlt : s.sLastFileHdrOk = false → s.sLastFileHdrLen < upgradeFileHdrLen)
    (h : ¬(hdrTaken s p).sLastFileHdrOk = true) : p.bytes.length = hdrPart s p := by
  have hnot : ¬(s.sLastFileHdrOk || decide (s.sLastFileHdrLen + hdrPart s p =
      upgradeFileHdrLen)) = true := h
  rw [Bool.or_eq_true, decide_eq_true_iff, not_or] at hnot
  have hlt' := hlt (Bool.eq_false_iff.2 hnot.1)
  have hpart : hdrPart s p = min p.bytes.length (upgradeFileHdrLen - s.sLastFileHdrLen) :=
    if_neg hnot.1
  omega

/-- The information record is behind the header. -/
theorem Fed.hdrOk_of_done (hfed : Fed s stream) (h : InfoDone s p) :
    (hdrTaken s p).sLastFileHdrOk = true := by
  by_contra hnot
  have hpart := hdrPart_of_not hfed.hdrLen_lt hnot
  have hsok : s.sLastFileInfoOk = false := by
    refine Bool.eq_false_iff.2 fun hok => hnot ?_
    rw [hdrTaken_of_ok (hfed.info hok)]
    exact hfed.info hok
  have hlt := hfed.ready.info hsok
  have hinfo : infoPart s p = 0 := by
    rw [infoPart, ← hpart, Nat.sub_self, Nat.zero_min, ite_self]
  obtain hok | hdone := h
  · exact absurd (hsok.symm.trans hok) Bool.noConfusion
  · omega

/-- A call meets what it is to do just on a sound packet. -/
theorem callLaw_iff (hfed : Fed s stream) :
    CallLaw (stream ++ p.bytes) p (nvrUpdateWriteData io s p).2 ↔ Sound s p io := by
  constructor
  · intro hlaw
    have hgood : ¬BadHdr s p := fun hbad => not_once_of_badHdr hfed hbad hlaw.once
    have hsmall : s.sLastFileInfoOk = true → s.sUpdateOff + p.bytes.length < 2 ^ 31 := by
      intro hok
      by_contra hlarge
      exact absurd (hlaw.defined.symm.trans (overflow_of_large hfed hok (by omega)))
        Bool.noConfusion
    refine ⟨hgood, hsmall, fun e he => ?_⟩
    obtain ⟨⟨m, -, hadv⟩, -⟩ :=
      @nvrUpdateWriteData_takes _ _ io hfed.ready hfed.hdrLen_lt hgood hsmall
    refine (complete_written_iff (size_of_mem_entriesOf he).2).1 fun w hw => ?_
    refine (hlaw.flash w ?_).2
    rw [hadv.flash]
    exact List.mem_append_right _ (List.mem_filterMap.2 ⟨e, he, hw⟩)
  · rintro ⟨hgood, hsmall, hshort⟩
    obtain ⟨⟨m, hm, hadv⟩, -⟩ :=
      @nvrUpdateWriteData_takes _ _ io hfed.ready hfed.hdrLen_lt hgood hsmall
    obtain ⟨rs, hreads, htiles, htotal, hlen⟩ := hadv.reads
    obtain ⟨ss, hstores, hinside⟩ := hadv.stores
    have hreads' : (nvrUpdateWriteData io s p).2.reads = rs := hreads
    have hstores' : (nvrUpdateWriteData io s p).2.stores = ss := hstores
    refine ⟨?_, ?_, ?_, ?_, hadv.overflow, fun w hw => ?_⟩
    · rw [hreads']
      exact htiles
    · rw [hreads']
      exact hlen
    · rw [hreads', htotal]
      exact_mod_cast hm
    · rw [hstores']
      exact hinside
    · rw [hadv.flash] at hw
      obtain ⟨e, he, hwritten⟩ := List.mem_filterMap.1 ((List.mem_append.1 hw).resolve_left nofun)
      obtain ⟨hdone, hsize⟩ := size_of_mem_entriesOf he
      exact ⟨(hfed.hdr.hdrTaken hgood).startsWithHdr (hfed.hdrOk_of_done hdone),
        (complete_written_iff hsize).2 (hshort e he) w hwritten⟩

/-- The statics behind a sound packet. -/
theorem Fed.next (hfed : Fed s stream) (h : Sound s p io) :
    Fed (nvrUpdateWriteData io s p).2.s (stream ++ p.bytes) := by
  obtain ⟨-, hready, hfileHdr, hall⟩ :=
    @nvrUpdateWriteData_takes _ _ io hfed.ready hfed.hdrLen_lt h.magic h.small
  refine ⟨?_, fun hok => ?_, hready⟩
  · rw [hfileHdr]
    exact hfed.hdr.hdrTaken h.magic
  · have hsame : (nvrUpdateWriteData io s p).2.s.sLastFileHdrOk = (hdrTaken s p).sLastFileHdrOk :=
      congrArg (fun hdr => hdr.2.1) hfileHdr
    rw [hsame]
    by_contra hnot
    have hpart := hdrPart_of_not hfed.hdrLen_lt hnot
    rw [hall hpart] at hok
    exact hnot (hfed.hdrOk_of_done (infoTaken_ok.1 hok))

/-! ## An upgrade -/

/-- The bytes of some packets. -/
def streamOf (ps : List Packet) : List UInt8 := ps.flatMap Packet.bytes

theorem streamOf_concat (ps : List Packet) (p : Packet) :
    streamOf (ps ++ [p]) = streamOf ps ++ p.bytes := by
  rw [streamOf, List.flatMap_append, List.flatMap_singleton]
  rfl

/-- What every call of an upgrade is to do. -/
def UpgradeLaw (io : Nat → DeviceIo) (s : Statics) (ps : List Packet) : Prop :=
  ∀ pre p, pre ++ [p] <+: ps →
    CallLaw (streamOf (pre ++ [p])) p (nvrUpdateWriteData io (afterPackets io s pre) p).2

theorem fed_cleared (s : Statics) : Fed s.cleared [] := by
  refine ⟨⟨rfl, fun i hi => absurd hi (Nat.not_lt_zero i), ?_, nofun⟩, nofun, ?_⟩
  · exact ⟨nofun, fun h => absurd h (by decide)⟩
  · exact Statics.ready_of_info rfl (show 0 < upgradeFileInfoLen by decide)

theorem afterPackets_concat (s : Statics) (ps : List Packet) (p : Packet) :
    afterPackets io s (ps ++ [p]) = (nvrUpdateWriteData io (afterPackets io s ps) p).2.s := by
  rw [afterPackets, List.foldl_append]
  rfl

/-- As long as the packets are sound, the statics are those behind their bytes. -/
theorem fed_afterPackets {ps : List Packet}
    (hstep : ∀ pre p, pre ++ [p] <+: ps → Fed (afterPackets io s pre) (streamOf pre) →
      Sound (afterPackets io s pre) p io) :
    ∀ pre, pre <+: ps → Fed (afterPackets io s pre) (streamOf pre) := by
  intro pre
  induction pre using List.reverseRecOn with
  | nil => exact fun _ => fed_cleared s
  | append_singleton pre p ih =>
      intro hpre
      have hfed := ih ((List.prefix_append pre [p]).trans hpre)
      rw [afterPackets_concat, streamOf_concat]
      exact hfed.next (hstep pre p hpre hfed)

/-- An upgrade does what it is to do just if every packet is sound for the statics that it
meets. -/
theorem upgradeLaw_iff (io : Nat → DeviceIo) (s : Statics) (ps : List Packet) :
    UpgradeLaw io s ps ↔
      ∀ pre p, pre ++ [p] <+: ps → Sound (afterPackets io s pre) p io := by
  constructor
  · intro hlaw pre p hpre
    have hstep : ∀ pre p, pre ++ [p] <+: ps → Fed (afterPackets io s pre) (streamOf pre) →
        Sound (afterPackets io s pre) p io := by
      intro pre p hpre hfed
      have hcall := hlaw pre p hpre
      rw [streamOf_concat] at hcall
      exact (callLaw_iff hfed).1 hcall
    exact hstep pre p hpre (fed_afterPackets hstep pre ((List.prefix_append _ _).trans hpre))
  · intro hsound pre p hpre
    have hfed := fed_afterPackets (fun pre p hpre _ => hsound pre p hpre) pre
      ((List.prefix_append pre [p]).trans hpre)
    rw [streamOf_concat]
    exact (callLaw_iff hfed).2 (hsound pre p hpre)

/-- 48 bytes that are no header. -/
def noHdr : Packet where
  bytes := List.replicate 48 0
  around := fun _ => 0
  nonempty := by decide
  length_lt := by decide

theorem badHdr_noHdr : BadHdr s.cleared noHdr := by
  refine ⟨rfl, Nat.le_refl 48, ?_⟩
  have hzeros : ∀ i < 0 + 4, (s.cleared.stUpdateFileHdr.write s.cleared.sLastFileHdrLen
      (noHdr.bytes.take (hdrPart s.cleared noHdr))) i = noHdr.bytes.getD i 0 := by
    intro i hi
    have hpart : noHdr.bytes.take (hdrPart s.cleared noHdr) = noHdr.bytes := rfl
    have hin : 0 ≤ i ∧ i < 0 + noHdr.bytes.length := ⟨Nat.zero_le _, Nat.lt_trans hi (by decide)⟩
    rw [hpart]
    exact if_pos hin
  rw [memWord_eq hzeros]
  decide

theorem not_callLaw_noHdr :
    ¬CallLaw stream noHdr (nvrUpdateWriteData io (afterPackets io s []) noHdr).2 := by
  have hnot := @not_once_of_badHdr _ _ io _ (fed_cleared s) (badHdr_noHdr (s := s))
  rw [show afterPackets io s [] = s.cleared from rfl]
  generalize nvrUpdateWriteData io s.cleared noHdr = d at hnot ⊢
  exact fun h => hnot h.once

/-- The -1 for a wrong magic is added to the pointer. -/
theorem not_upgradeLaw : ¬∀ io s ps, UpgradeLaw io s ps := by
  intro h
  obtain ⟨s⟩ : Nonempty Statics := ⟨fun _ => 0, 0, fun _ => 0, fun _ => 0, false, 0, false, 0, 0⟩
  have hlaw := h (fun _ => ⟨true, true⟩) s [noHdr] [] noHdr (List.prefix_refl _)
  exact not_callLaw_noHdr hlaw

end Nvr.Update.Pointers
