import Mathlib.Data.List.TakeWhile
import Nvr.AvPool.Pool
import Nvr.Lib.RingBuffer

/-!
# One record in the frame pool

What `av_pool_write_av_data` leaves in the ring: the header of the frame at the
write position and its data behind it, in one piece of the ring however it was
split, and every place farther behind as it was. A record is intact when its
header and its data stand as they were written, and it stays so as long as
nothing is put on it.
-/

namespace Nvr.AvPool

open WordRecord RingBuffer

/-! ## Sizes -/

theorem recordSize_dvd (n : Nat) : 64 ∣ recordSize n := by
  unfold recordSize jpoolHdrLen
  omega

theorem le_recordSize (n : Nat) : n + 64 ≤ recordSize n := by
  unfold recordSize jpoolHdrLen
  omega

theorem recordSize_le (n : Nat) : recordSize n ≤ n + 127 := by
  unfold recordSize jpoolHdrLen
  omega

/-- What is copied of a frame: its header data and its pieces up to one with
nothing in it. -/
def Frame.copied (f : Frame) : List UInt8 :=
  f.pHdrData ++ (f.ppPicsData.takeWhile (· ≠ [])).flatten

theorem Frame.copied_le (f : Frame) : f.copied.length ≤ f.dataLen := by
  have hpics : (f.ppPicsData.takeWhile (· ≠ [])).flatten.length ≤ f.nLen := by
    have hall := List.takeWhile_append_dropWhile (p := (· ≠ [])) (l := f.ppPicsData)
    rw [nLen, ← List.length_flatten, ← hall, List.flatten_append, List.length_append, hall]
    exact Nat.le_add_right _ _
  rw [copied, List.length_append, dataLen]
  omega

/-- All of a frame is copied when none of its pieces is empty. -/
theorem Frame.copied_eq {f : Frame} (h : ∀ p ∈ f.ppPicsData, p ≠ []) :
    f.copied = f.pHdrData ++ f.ppPicsData.flatten := by
  rw [copied, List.takeWhile_eq_self_iff.2 fun p hp => decide_eq_true (h p hp)]

/-! ## The header -/

theorem wordAt_of_holds {mem : ByteFile} {pos : Nat} {w : UInt32}
    (h : ByteFile.Holds mem pos (wordBytes w)) : wordAt mem pos = w := by
  rw [ByteFile.holds_iff] at h
  have h0 := h 0 (by simp)
  have h1 := h 1 (by simp)
  have h2 := h 2 (by simp)
  have h3 := h 3 (by simp)
  rw [Nat.add_zero] at h0
  rw [wordAt, h0, h1, h2, h3]
  exact bytesWord_wordBytes w

/-- The two words of a time stamp. -/
theorem words_pts (t : UInt64) :
    t.toUInt32.toUInt64 + 2 ^ 32 * (t / 2 ^ 32).toUInt32.toUInt64 = t := by
  have ht := t.toNat_lt
  apply UInt64.toNat_inj.1
  have h32 : (2 ^ 32 : UInt64).toNat = 2 ^ 32 := by decide
  rw [UInt64.toNat_add, UInt64.toNat_mul, UInt32.toNat_toUInt64, UInt32.toNat_toUInt64,
    UInt64.toNat_toUInt32, UInt64.toNat_toUInt32, UInt64.toNat_div, h32]
  omega

theorem hdrAt_putHdr (mem : ByteFile) (pos : Nat) (h : JpoolFrameHdr) :
    hdrAt (putHdr mem pos h) pos = h := by
  have hfront : ByteFile.Holds (putHdr mem pos h) pos (wordBytes h.u32FlagStart ++
      wordBytes h.u32FrameNo ++ wordBytes h.u32DataLen ++ [h.u8FrameType]) := by
    refine ((ByteFile.holds_write _ _ _).write_apart ?_).write_apart ?_
    all_goals exact .inl (by simp)
  have hpts : ByteFile.Holds (putHdr mem pos h) (pos + 16)
      (wordBytes h.u64Pts.toUInt32 ++ wordBytes (h.u64Pts / 2 ^ 32).toUInt32) := by
    refine (ByteFile.holds_write _ _ _).write_apart (.inl ?_)
    simp
  have hend : ByteFile.Holds (putHdr mem pos h) (pos + 60) (wordBytes h.u32FlagEnd) :=
    ByteFile.holds_write _ _ _
  obtain ⟨hfront, htype⟩ := ByteFile.holds_append.1 hfront
  obtain ⟨hfront, hlen⟩ := ByteFile.holds_append.1 hfront
  obtain ⟨hflag, hno⟩ := ByteFile.holds_append.1 hfront
  obtain ⟨hlow, hhigh⟩ := ByteFile.holds_append.1 hpts
  have hno' : wordAt (putHdr mem pos h) (pos + 4) = h.u32FrameNo := wordAt_of_holds hno
  have hlen' : wordAt (putHdr mem pos h) (pos + 8) = h.u32DataLen := wordAt_of_holds hlen
  have htype' : putHdr mem pos h (pos + 12) = h.u8FrameType := (List.cons.inj htype).1
  have hhigh' : wordAt (putHdr mem pos h) (pos + 20) = (h.u64Pts / 2 ^ 32).toUInt32 :=
    wordAt_of_holds hhigh
  rw [hdrAt, wordAt_of_holds hflag, hno', hlen', htype', wordAt_of_holds hlow, hhigh',
    wordAt_of_holds hend, words_pts]

theorem hdrAt_congr {mem mem' : ByteFile} {pos : Nat}
    (h : ∀ i < 64, mem' (pos + i) = mem (pos + i)) : hdrAt mem' pos = hdrAt mem pos := by
  have hword {k : Nat} (hk : k + 3 < 64) : wordAt mem' (pos + k) = wordAt mem (pos + k) := by
    simp only [wordAt, Nat.add_assoc]
    rw [h k (by omega), h (k + 1) (by omega), h (k + 2) (by omega), h (k + 3) hk]
  have hword0 : wordAt mem' pos = wordAt mem pos := @hword 0 (by omega)
  simp only [hdrAt, hword0]
  rw [hword (by omega), hword (by omega), hword (by omega), hword (by omega), hword (by omega),
    h 12 (by omega)]

/-- Putting a header changes its 64 bytes only. -/
theorem putHdr_kept {mem : ByteFile} {pos q : Nat} {h : JpoolFrameHdr}
    (hq : q < pos ∨ pos + 64 ≤ q) : putHdr mem pos h q = mem q := by
  unfold putHdr
  rw [ByteFile.write_apply_of_not, ByteFile.write_apply_of_not, ByteFile.write_apply_of_not]
  all_goals
    simp only [List.length_append, length_wordBytes, List.length_cons, List.length_nil]
    omega

/-- The header as it stands then, with the bytes that no field covers. -/
theorem putHdr_put (mem : ByteFile) {size pos : Nat} (h : JpoolFrameHdr) (hle : pos + 64 ≤ size) :
    Put size mem pos ((putHdr mem pos h).read pos 64) (putHdr mem pos h) := by
  have hplace {i : Nat} (hi : i < 64) : behind size pos i = pos + i :=
    Nat.mod_eq_of_lt (by omega)
  constructor
  · intro i hi
    rw [ByteFile.getElem_read, hplace (by simpa using hi)]
  · intro q hq
    rw [ByteFile.length_read] at hq
    refine putHdr_kept ?_
    by_contra hin
    refine hq (q - pos) (by omega) ?_
    rw [hplace (by omega)]
    omega

/-! ## A frame in the ring -/

/-- The pool fits its ring: what every write keeps. -/
structure JpoolMan.Sized (m : JpoolMan) : Prop where
  pos : 0 < m.u32BuffSize
  dvd : 64 ∣ m.u32BuffSize
  le : m.u32BuffSize ≤ 2 ^ 28
  write_dvd : 64 ∣ m.u32WritePos
  write_lt : m.u32WritePos < m.u32BuffSize

/-- Sizes and positions are as they should be, however large the ring is. -/
structure JpoolMan.Aligned (m : JpoolMan) : Prop where
  dvd : 64 ∣ m.u32BuffSize
  write_dvd : 64 ∣ m.u32WritePos
  write_lt : m.u32WritePos < m.u32BuffSize

theorem JpoolMan.Sized.aligned {m : JpoolMan} (h : m.Sized) : m.Aligned :=
  ⟨h.dvd, h.write_dvd, h.write_lt⟩

variable {m : JpoolMan}

/-- Copying one part into the ring. -/
theorem copyWrapped_put (mem : ByteFile) {nOffset : Nat} {src : List UInt8}
    (hoff : nOffset ≤ m.u32BuffSize) (hle : src.length ≤ m.u32BuffSize) :
    Put m.u32BuffSize mem nOffset src (m.copyWrapped (mem, nOffset) src).1 ∧
      (m.copyWrapped (mem, nOffset) src).2 % m.u32BuffSize =
        (nOffset + src.length) % m.u32BuffSize ∧
      (m.copyWrapped (mem, nOffset) src).2 ≤ m.u32BuffSize := by
  unfold JpoolMan.copyWrapped
  simp only
  split
  · next hover =>
      refine ⟨put_split mem hoff (by omega) hle, ?_, by simp only; omega⟩
      have hlap : nOffset + src.length =
          src.length - (m.u32BuffSize - nOffset) + m.u32BuffSize := by omega
      rw [hlap, Nat.add_mod_right]
  · next hfits => exact ⟨put_write mem (by omega), rfl, by simp only; omega⟩

/-- Copying parts one after another. -/
theorem foldl_copyWrapped_put {mem : ByteFile} {nOffset : Nat} {parts : List (List UInt8)}
    (hoff : nOffset ≤ m.u32BuffSize) (hle : parts.flatten.length ≤ m.u32BuffSize) :
    Put m.u32BuffSize mem nOffset parts.flatten
      (parts.foldl m.copyWrapped (mem, nOffset)).1 := by
  induction parts generalizing mem nOffset with
  | nil => exact Put.nil ..
  | cons src parts ih =>
      rw [List.flatten_cons, List.length_append] at hle
      obtain ⟨hput, hmod, hoff'⟩ := copyWrapped_put mem hoff
        (show src.length ≤ m.u32BuffSize by omega)
      rw [List.flatten_cons, List.foldl_cons]
      exact hput.append ((ih hoff' (by omega)).congr hmod) hle

/-- Where nothing comes to the end of the ring, no copy is split. -/
theorem foldl_copyFlat {mem : ByteFile} {nOffset : Nat} {parts : List (List UInt8)}
    (hle : nOffset + parts.flatten.length ≤ m.u32BuffSize) :
    parts.foldl JpoolMan.copyFlat (mem, nOffset) =
      parts.foldl m.copyWrapped (mem, nOffset) := by
  induction parts generalizing mem nOffset with
  | nil => rfl
  | cons src parts ih =>
      rw [List.flatten_cons, List.length_append] at hle
      have hflat : m.copyWrapped (mem, nOffset) src = JpoolMan.copyFlat (mem, nOffset) src :=
        if_neg (by omega)
      rw [List.foldl_cons, List.foldl_cons, hflat]
      exact ih (by omega)

theorem copyFrame_put {f : Frame} (h : m.Aligned) (mem : ByteFile)
    (hle : f.needSize ≤ m.u32BuffSize) :
    Put m.u32BuffSize mem (m.u32WritePos + 64) f.copied (m.copyFrame mem f) := by
  have hcopied := f.copied_le
  have hneed := le_recordSize f.dataLen
  have hwrite := h.write_lt
  obtain ⟨j, hj⟩ := h.dvd
  obtain ⟨k, hk⟩ := h.write_dvd
  have hflat : f.copied = (f.pHdrData :: f.ppPicsData.takeWhile (· ≠ [])).flatten := rfl
  have hwrapped : m.copyFrame mem f = ((f.pHdrData :: f.ppPicsData.takeWhile (· ≠ [])).foldl
      m.copyWrapped (mem, m.u32WritePos + jpoolHdrLen)).1 := by
    unfold JpoolMan.copyFrame
    simp only
    split
    · next hend =>
        unfold Frame.needSize at hend
        rw [foldl_copyFlat]
        rw [← hflat]
        unfold jpoolHdrLen
        omega
    · rfl
  rw [hwrapped, hflat]
  refine foldl_copyWrapped_put ?_ ?_
  · show m.u32WritePos + 64 ≤ m.u32BuffSize
    omega
  · rw [← hflat]
    unfold Frame.needSize at hle
    omega

/-- What putting a frame into the ring comes to. -/
theorem putFrame_put {f : Frame} (h : m.Aligned) (hle : f.needSize ≤ m.u32BuffSize) :
    (∃ bytes : List UInt8, bytes.length = 64 ∧
      Put m.u32BuffSize m.pDataBuff m.u32WritePos (bytes ++ f.copied)
        (m.putFrame f).pDataBuff) ∧
      (m.putFrame f).hdr m.u32WritePos = m.newHdr f := by
  have hcopied := f.copied_le
  have hneed := le_recordSize f.dataLen
  have hwrite := h.write_lt
  obtain ⟨j, hj⟩ := h.dvd
  obtain ⟨k, hk⟩ := h.write_dvd
  unfold Frame.needSize at hle
  have hput := putHdr_put m.pDataBuff (m.newHdr f)
    (show m.u32WritePos + 64 ≤ m.u32BuffSize by omega)
  have hdata := copyFrame_put h (putHdr m.pDataBuff m.u32WritePos (m.newHdr f)) hle
  refine ⟨⟨_, ByteFile.length_read _ _ _, hput.append ?_ ?_⟩, ?_⟩
  · rwa [ByteFile.length_read]
  · rw [ByteFile.length_read]
    omega
  · -- the data begins behind the header
    rw [← hdrAt_putHdr m.pDataBuff m.u32WritePos (m.newHdr f)]
    refine hdrAt_congr fun i hi => hdata.kept _ fun j hj heq => ?_
    have hleft : m.u32WritePos + i = behind m.u32BuffSize m.u32WritePos i :=
      (Nat.mod_eq_of_lt (by omega)).symm
    have hright : behind m.u32BuffSize (m.u32WritePos + 64) j =
        behind m.u32BuffSize m.u32WritePos (64 + j) := congrArg (· % _) (Nat.add_assoc ..)
    rw [hleft, hright] at heq
    have := behind_inj (by omega) (by omega) heq
    omega

/-! ## Records -/

/-- A frame that has been written: where, and under which number. -/
structure Rec where
  pos : Nat
  no : UInt32
  frame : Frame

def Rec.size (r : Rec) : Nat := r.frame.needSize

def Rec.hdr (r : Rec) : JpoolFrameHdr where
  u32FlagStart := jpoolMagicFlag
  u32FrameNo := r.no
  u32DataLen := UInt32.ofNat r.frame.dataLen
  u8FrameType := r.frame.nFrameType
  u64Pts := r.frame.u64Pts
  u32FlagEnd := jpoolMagicFlag

/-- The record of the next frame. -/
def JpoolMan.next (m : JpoolMan) (f : Frame) : Rec := ⟨m.u32WritePos, m.u32FrameNo + 1, f⟩

/-- The record stands in the ring as it was written. -/
structure Intact (m : JpoolMan) (r : Rec) : Prop where
  dvd : 64 ∣ r.pos
  lt : r.pos < m.u32BuffSize
  hdr : m.hdr r.pos = r.hdr
  data : Holds m.u32BuffSize m.pDataBuff (r.pos + 64) r.frame.copied

/-- Two states of a pool with the same ring; what else is noted may differ. -/
structure SameRing (m m' : JpoolMan) : Prop where
  video : m'.u8VideoPool = m.u8VideoPool
  no : m'.u32FrameNo = m.u32FrameNo
  size : m'.u32BuffSize = m.u32BuffSize
  write : m'.u32WritePos = m.u32WritePos
  mem : m'.pDataBuff = m.pDataBuff

theorem SameRing.trans {m' m'' : JpoolMan} (h : SameRing m m') (h' : SameRing m' m'') :
    SameRing m m'' :=
  ⟨h'.video.trans h.video, h'.no.trans h.no, h'.size.trans h.size, h'.write.trans h.write,
    h'.mem.trans h.mem⟩

theorem SameRing.sized {m' : JpoolMan} (h : SameRing m m') (hs : m.Sized) : m'.Sized := by
  obtain ⟨hpos, hdvd, hle, hwrite, hlt⟩ := hs
  constructor
  · rwa [h.size]
  · rwa [h.size]
  · rwa [h.size]
  · rwa [h.write]
  · rwa [h.write, h.size]

theorem SameRing.intact {m' : JpoolMan} {r : Rec} (h : SameRing m m') (hr : Intact m r) :
    Intact m' r := by
  obtain ⟨hdvd, hlt, hhdr, hdata⟩ := hr
  refine ⟨hdvd, ?_, ?_, ?_⟩
  · rwa [h.size]
  · rwa [JpoolMan.hdr, h.mem]
  · rwa [h.size, h.mem]

theorem JpoolMan.Sized.putFrame (h : m.Sized) (f : Frame) : (m.putFrame f).Sized := by
  refine ⟨h.pos, h.dvd, h.le, ?_, Nat.mod_lt _ h.pos⟩
  refine (Nat.dvd_mod_iff h.dvd).2 (Nat.dvd_add ?_ h.write_dvd)
  exact recordSize_dvd _

namespace Intact

variable {r : Rec}

theorem isFrame (h : Intact m r) : m.avPoolCheckIsFrame r.pos := by
  rw [JpoolMan.avPoolCheckIsFrame, h.hdr]
  simp [h.lt, Rec.hdr]

theorem isIframe_iff (h : Intact m r) :
    m.avPoolCheckIsIframe r.pos ↔ r.frame.nFrameType = avVideoFrameI := by
  rw [JpoolMan.avPoolCheckIsIframe, h.isFrame, h.hdr]
  simp [Rec.hdr]

/-- The length field of a record that fits the ring leads to its end. -/
theorem offset (h : Intact m r) (hsize : m.u32BuffSize < 2 ^ 32)
    (hfit : r.size ≤ m.u32BuffSize) : m.avPoolGetFrameOffset r.pos = r.size := by
  have hlen := le_recordSize r.frame.dataLen
  unfold Rec.size Frame.needSize at *
  rw [JpoolMan.avPoolGetFrameOffset, h.hdr, Rec.hdr, UInt32.toNat_ofNat',
    Nat.mod_eq_of_lt (show r.frame.dataLen < 2 ^ 32 by omega), Nat.mod_eq_of_lt (by omega)]

theorem nextPos (h : Intact m r) (hs : m.Sized) (hfit : r.size ≤ m.u32BuffSize) :
    m.nextPos r.pos = behind m.u32BuffSize r.pos r.size := by
  have hle := hs.le
  have hlt := h.lt
  have hsum : (r.size + r.pos) % 2 ^ 32 = r.size + r.pos := Nat.mod_eq_of_lt (by omega)
  rw [JpoolMan.nextPos, h.offset (by omega) hfit, hsum, Nat.add_comm]
  rfl

/-- A record that has just been written. -/
theorem putFrame_self {f : Frame} (hs : m.Aligned) (hle : f.needSize ≤ m.u32BuffSize) :
    Intact (m.putFrame f) (m.next f) := by
  obtain ⟨⟨bytes, hbytes, hput⟩, hhdr⟩ := putFrame_put hs hle
  refine ⟨hs.write_dvd, hs.write_lt, hhdr, fun i hi => ?_⟩
  have hin : 64 + i < (bytes ++ f.copied).length := by
    rw [List.length_append, hbytes]
    exact Nat.add_lt_add_left hi _
  have hall := hput.holds (64 + i) hin
  rw [List.getElem_append_right (by omega)] at hall
  simp only [hbytes, Nat.add_sub_cancel_left] at hall
  have hplace : behind m.u32BuffSize (m.u32WritePos + 64) i =
      behind m.u32BuffSize m.u32WritePos (64 + i) := congrArg (· % _) (Nat.add_assoc ..)
  exact (congrArg _ hplace).trans hall

/-- A record behind the new one. -/
theorem putFrame {f : Frame} {x : Nat} (h : Intact m r) (hs : m.Sized)
    (hle : f.needSize ≤ m.u32BuffSize) (hx : r.pos = behind m.u32BuffSize m.u32WritePos x)
    (hfront : f.needSize ≤ x) (hend : x + r.size ≤ m.u32BuffSize) :
    Intact (m.putFrame f) r := by
  obtain ⟨⟨bytes, hbytes, hput⟩, -⟩ := putFrame_put hs.aligned hle
  have hcopied := f.copied_le
  have hneed := le_recordSize f.dataLen
  have hcopied' := r.frame.copied_le
  have hneed' := le_recordSize r.frame.dataLen
  have hlt := h.lt
  obtain ⟨j, hj⟩ := hs.dvd
  obtain ⟨k, hk⟩ := h.dvd
  unfold Rec.size at hend
  unfold Frame.needSize at hle hfront hend
  have hlength : (bytes ++ f.copied).length ≤ x := by
    rw [List.length_append]
    omega
  refine ⟨h.dvd, h.lt, ?_, ?_⟩
  · rw [← h.hdr]
    refine hdrAt_congr fun i hi => ?_
    have hplace : r.pos + i = behind m.u32BuffSize m.u32WritePos (x + i) := by
      rw [← behind_behind, ← hx]
      exact (Nat.mod_eq_of_lt (by omega)).symm
    rw [hplace]
    exact hput.kept_behind (by omega) (by omega)
  · have hmod : (m.u32WritePos + (x + 64)) % m.u32BuffSize = (r.pos + 64) % m.u32BuffSize := by
      rw [hx, behind, Nat.mod_add_mod, Nat.add_assoc]
    have hkept := Holds.kept_behind (h.data.congr hmod.symm) hput
      (show (bytes ++ f.copied).length ≤ x + 64 by omega) (by omega)
    exact hkept.congr hmod

end Intact

end Nvr.AvPool
