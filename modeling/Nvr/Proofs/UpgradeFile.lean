import Nvr.Lib.FixedWidth
import Nvr.Lib.Tiling
import Nvr.Update.Receive

/-!
# What is in an upgrade file

The records that the tool writes have the lengths that the receiver counts and
the words where it looks for them, and every entry has a header that its image
fits. The entries of a filesys image are its parts, end to end.
-/

namespace Nvr.Update

open WordRecord ByteFile Tiling

/-! ## The records -/

theorem wordAt_append (before : List UInt8) (w : UInt32) (after : List UInt8) :
    wordAt (before ++ (wordBytes w ++ after)) before.length = w := by
  have hget : ∀ i, i < 4 → (before ++ (wordBytes w ++ after)).getD (before.length + i) 0 =
      (wordBytes w).getD i 0 := by
    intro i hi
    rw [List.getD_eq_getElem?_getD, List.getD_eq_getElem?_getD,
      List.getElem?_append_right (Nat.le_add_right _ _), Nat.add_sub_cancel_left,
      List.getElem?_append_left hi]
  unfold wordAt
  rw [← Nat.add_zero before.length, hget 0 (by omega), Nat.add_zero, hget 1 (by omega),
    hget 2 (by omega), hget 3 (by omega)]
  exact bytesWord_wordBytes w

@[simp] theorem UpdateHdr.length_bytes (hdr : UpdateHdr) : hdr.bytes.length = updateHdrLen := by
  unfold UpdateHdr.bytes
  rw [length_wordsBytes]
  rfl

/-- The receiver reads the header that was written. -/
theorem UpdateHdr.ofBytes_bytes (hdr : UpdateHdr) (after : List UInt8) :
    UpdateHdr.ofBytes (hdr.bytes ++ after) = hdr := by
  have hword : ∀ (before : List UInt8) (w : UInt32) (ws : List UInt32),
      hdr.bytes ++ after = before ++ (wordBytes w ++ (wordsBytes ws ++ after)) →
      wordAt (hdr.bytes ++ after) before.length = w := by
    intro before w ws heq
    rw [heq]
    exact wordAt_append before w _
  have hmagic := hword [] hdr.magic [hdr.packetType.toUInt32, hdr.dataLen.toUInt32,
    hdr.offset.toUInt32, hdr.devIndex.toUInt32] rfl
  have htype := hword (wordsBytes [hdr.magic]) hdr.packetType.toUInt32
    [hdr.dataLen.toUInt32, hdr.offset.toUInt32, hdr.devIndex.toUInt32] rfl
  have hlen := hword (wordsBytes [hdr.magic, hdr.packetType.toUInt32]) hdr.dataLen.toUInt32
    [hdr.offset.toUInt32, hdr.devIndex.toUInt32] rfl
  have hoffset := hword (wordsBytes [hdr.magic, hdr.packetType.toUInt32, hdr.dataLen.toUInt32])
    hdr.offset.toUInt32 [hdr.devIndex.toUInt32] rfl
  have hdev := hword (wordsBytes [hdr.magic, hdr.packetType.toUInt32, hdr.dataLen.toUInt32,
    hdr.offset.toUInt32]) hdr.devIndex.toUInt32 [] rfl
  rw [length_wordsBytes] at htype hlen hoffset hdev
  unfold UpdateHdr.ofBytes
  simp only [List.length_nil, List.length_cons] at hmagic htype hlen hoffset hdev
  rw [hmagic, htype, hlen, hoffset, hdev]
  simp only [Int32.toInt32_toUInt32]

theorem length_upgradeFileHdr (fileNum totalLen : UInt32) :
    (upgradeFileHdr fileNum totalLen).length = upgradeFileHdrLen := by
  unfold upgradeFileHdr
  rw [List.length_append, length_wordsBytes, List.length_replicate]
  rfl

theorem wordAt_upgradeFileHdr (fileNum totalLen : UInt32) :
    wordAt (upgradeFileHdr fileNum totalLen) 0 = updateFileHdrMagic :=
  wordAt_append [] updateFileHdrMagic
    (wordsBytes [0, fileNum, totalLen] ++ List.replicate 32 0)

theorem FileName.length_copied (name : FileName) :
    (name.chars ++ List.replicate (upgradeFileInfoLen - name.chars.length) (0 : UInt8)).length =
      upgradeFileInfoLen := by
  have hlt := name.length_lt
  have hlen : upgradeFileInfoLen = 256 := rfl
  rw [List.length_append, List.length_replicate]
  omega

theorem length_upgradeFileInfo (name : FileName) (size : UInt32) :
    (upgradeFileInfo name size).length = upgradeFileInfoLen := by
  have hcopied := name.length_copied
  have hlen : upgradeFileInfoLen = 256 := rfl
  unfold upgradeFileInfo
  dsimp only
  rw [List.length_append, List.length_append, List.length_take, List.length_drop, hcopied,
    length_wordBytes]
  omega

/-- The size is where the receiver reads it. -/
theorem wordAt_upgradeFileInfo (name : FileName) (size : UInt32) :
    wordAt (upgradeFileInfo name size) 128 = size := by
  have hcopied := name.length_copied
  have hlen : upgradeFileInfoLen = 256 := rfl
  unfold upgradeFileInfo
  dsimp only
  rw [List.append_assoc]
  generalize name.chars ++ List.replicate (upgradeFileInfoLen - name.chars.length) 0 = copied at *
  have htake : (copied.take 128).length = 128 := by
    rw [List.length_take]
    omega
  have hword := wordAt_append (copied.take 128) size (copied.drop 132)
  rw [htake] at hword
  exact hword

/-! ## The entries -/

/-- The header is that of the image. -/
structure Entry.Proper (e : Entry) : Prop where
  magic : e.hdr.magic = ipncUpdatePacketMagic
  dataLen : e.hdr.dataLen.toInt = e.image.length

/-- The record of an entry. -/
def Entry.info (e : Entry) : List UInt8 := upgradeFileInfo e.name e.dataLen.toUInt32

@[simp] theorem Entry.length_info (e : Entry) : e.info.length = upgradeFileInfoLen :=
  length_upgradeFileInfo e.name e.dataLen.toUInt32

theorem Entry.length_dat (e : Entry) : e.dat.length = updateHdrLen + e.image.length := by
  unfold Entry.dat
  rw [List.length_append, UpdateHdr.length_bytes]

theorem Entry.toInt_dataLen {e : Entry} (h : e.dat.length < 2 ^ 31) :
    e.dataLen.toInt = e.dat.length := Int32.toInt_ofNat_of_lt h

/-- In the file is the record, and then the whole of the entry. -/
theorem Entry.bytes_eq {e : Entry} (h : e.dat.length < 2 ^ 31) : e.bytes = e.info ++ e.dat := by
  unfold Entry.bytes Entry.info
  rw [Entry.toInt_dataLen h, Int.toNat_natCast, List.take_length]

theorem Entry.wordAt_info {e : Entry} (h : e.dat.length < 2 ^ 31) :
    (wordAt e.info 128).toNat = e.dat.length := by
  have hlen := Entry.toInt_dataLen h
  have hword : (wordAt e.info 128) = e.dataLen.toUInt32 := wordAt_upgradeFileInfo e.name _
  rw [hword, Int32.toNat_toUInt32_of_nonneg (by omega), hlen]
  rfl

theorem processWholePacket_proper {p : PacketObj} {e : Entry} (h : e ∈ processWholePacket p) :
    e.Proper := by
  unfold processWholePacket at h
  dsimp only at h
  split at h
  · cases h
  · rename_i hpos
    obtain rfl := List.mem_singleton.1 h
    refine ⟨rfl, ?_⟩
    have hzero : (0 : Int32).toInt = 0 := rfl
    rw [Int32.lt_iff_toInt_lt, hzero] at hpos
    show (Int32.ofNat p.image.length).toInt =
      ((p.image.take (Int32.ofNat p.image.length).toInt.toNat).length : Int)
    have hle : (Int32.ofNat p.image.length).toInt ≤ p.image.length := by
      have hsize : ((Int32.size : Nat) : Int) = 2 ^ 32 := rfl
      rw [Int32.toInt_ofNat', Int.bmod, hsize]
      split <;> omega
    rw [List.length_take]
    omega

theorem length_take_filesys (image : List UInt8) :
    (image.take filesysPacketLen).length < 2 ^ 31 := by
  have hlen : filesysPacketLen = 2097152 := rfl
  rw [List.length_take]
  omega

theorem filesysPackets_proper {p : PacketObj} :
    ∀ (rounds : Nat) {offset : Int32} {image : List UInt8} {e : Entry},
      e ∈ filesysPackets p rounds offset image → e.Proper := by
  intro rounds
  induction rounds with
  | zero =>
      intro offset image e h
      cases h
  | succ rounds ih =>
      intro offset image e h
      unfold filesysPackets at h
      split at h
      · cases h
      · rcases List.mem_cons.1 h with rfl | hrest
        · exact ⟨rfl, Int32.toInt_ofNat_of_lt (length_take_filesys image)⟩
        · exact ih hrest

/-- What the tool packs is proper. -/
theorem entries_proper {ps : List PacketObj} {e : Entry} (h : e ∈ entries ps) : e.Proper := by
  obtain ⟨p, -, hp⟩ := List.mem_flatMap.1 h
  unfold processPacketReq at hp
  split at hp
  · exact processWholePacket_proper hp
  · exact filesysPackets_proper _ hp
  · exact processWholePacket_proper hp

theorem foldl_putInUpdateFile (es : List Entry) (obj : UpdateFileObj) :
    (es.foldl putInUpdateFile obj).body = obj.body ++ es.flatMap Entry.bytes := by
  induction es generalizing obj with
  | nil => simp
  | cons e es ih =>
      rw [List.foldl_cons, ih, List.flatMap_cons, ← List.append_assoc]
      rfl

/-- The file is a header with the magic and then the entries. -/
theorem updateFile_eq (ps : List PacketObj) :
    ∃ hdr, hdr.length = upgradeFileHdrLen ∧ wordAt hdr 0 = updateFileHdrMagic ∧
      updateFile ps = hdr ++ (entries ps).flatMap Entry.bytes := by
  have hbody := foldl_putInUpdateFile (entries ps) ⟨[], 0, 0⟩
  unfold updateFile closeUpdateFile
  generalize (entries ps).foldl putInUpdateFile ⟨[], 0, 0⟩ = obj at hbody ⊢
  exact ⟨_, length_upgradeFileHdr obj.u32FileNum obj.u32TotalLen,
    wordAt_upgradeFileHdr obj.u32FileNum obj.u32TotalLen, by rw [hbody]; rfl⟩

/-! ## The parts of a filesys image -/

/-- What `nvr_update_write_filesys` makes of the device. -/
def writePart (f : ByteFile) (e : Entry) : ByteFile := f.write e.hdr.offset.toInt.toNat e.image

/-- The parts of an image lie end to end from where it begins, they are the
image, none of them empty or too long, and written where they go they write it. -/
structure Partition (p : PacketObj) (parts : List Entry) : Prop where
  tiles : Tiles (fun e : Entry => e.hdr.offset.toInt) (fun e => (e.image.length : Int))
    p.offset.toInt parts
  whole : parts.flatMap Entry.image = p.image
  size : ∀ e ∈ parts, 0 < e.image.length ∧ e.image.length ≤ filesysPacketLen
  writes : ∀ f : ByteFile, parts.foldl writePart f = f.write p.offset.toInt.toNat p.image

theorem write_nil (f : ByteFile) (off : Nat) : f.write off [] = f := by
  funext i
  refine write_apply_of_not ?_
  rw [List.length_nil]
  omega

theorem filesysPackets_parts (p : PacketObj) :
    ∀ (rounds : Nat) (offset : Int32) (image : List UInt8), image.length ≤ rounds →
      0 ≤ offset.toInt → offset.toInt + image.length < 2 ^ 31 →
      Partition { p with offset := offset, image := image }
        (filesysPackets p rounds offset image) := by
  intro rounds
  induction rounds with
  | zero =>
      intro offset image hlen h0 hlt
      obtain rfl := List.eq_nil_of_length_eq_zero (Nat.le_zero.1 hlen)
      exact ⟨trivial, rfl, by simp [filesysPackets], fun f => (write_nil f _).symm⟩
  | succ rounds ih =>
      intro offset image hlen h0 hlt
      unfold filesysPackets
      split
      · rename_i hempty
        subst hempty
        exact ⟨trivial, rfl, by simp, fun f => (write_nil f _).symm⟩
      rename_i hmore
      have hpos := List.length_pos_iff.2 hmore
      have hmax : filesysPacketLen = 2097152 := rfl
      have hpart : (image.take filesysPacketLen).length + (image.drop filesysPacketLen).length =
          image.length := by
        rw [← List.length_append, List.take_append_drop]
      have htake : (image.take filesysPacketLen).length = min filesysPacketLen image.length :=
        List.length_take
      have hnext : (offset + Int32.ofNat (image.take filesysPacketLen).length).toInt =
          offset.toInt + (image.take filesysPacketLen).length := by
        have hword : (Int32.ofNat (image.take filesysPacketLen).length).toInt =
            (image.take filesysPacketLen).length :=
          Int32.toInt_ofNat_of_lt (length_take_filesys image)
        rw [Int32.toInt_add_of_range (by omega) (by omega), hword]
      have hrest := ih (offset + Int32.ofNat (image.take filesysPacketLen).length)
        (image.drop filesysPacketLen) (by omega) (by omega) (by omega)
      refine ⟨⟨rfl, ?_⟩, ?_, ?_, fun f => ?_⟩
      · have htiles := hrest.tiles
        dsimp only at htiles ⊢
        rw [hnext] at htiles
        exact htiles
      · have hwhole := hrest.whole
        dsimp only at hwhole ⊢
        rw [List.flatMap_cons, hwhole, List.take_append_drop]
      · intro e he
        rcases List.mem_cons.1 he with rfl | he
        · dsimp only
          omega
        · exact hrest.size e he
      · have hwrites := hrest.writes
        dsimp only at hwrites ⊢
        rw [List.foldl_cons, hwrites, hnext]
        have hoff : (offset.toInt + ((image.take filesysPacketLen).length : Nat)).toNat =
            offset.toInt.toNat + (image.take filesysPacketLen).length := by
          omega
        rw [hoff]
        show (f.write offset.toInt.toNat (image.take filesysPacketLen)).write _ _ = _
        rw [write_write_append, List.take_append_drop]

/-- As long as the end of the image is an `int`, its entries are its parts. -/
theorem processFileSysPacket_partition {p : PacketObj} (h0 : 0 ≤ p.offset.toInt)
    (hlt : p.offset.toInt + p.image.length < 2 ^ 31) :
    Partition p (processFileSysPacket p) := by
  have hlen : (Int32.ofNat p.image.length).toInt = p.image.length :=
    Int32.toInt_ofNat_of_lt (by omega)
  have hparts := filesysPackets_parts p p.image.length p.offset p.image (Nat.le_refl _) h0 hlt
  unfold processFileSysPacket
  dsimp only
  rw [hlen, Int.toNat_natCast, List.take_length]
  exact hparts

end Nvr.Update
