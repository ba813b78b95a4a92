import Nvr.AvPool.Read
import Nvr.Proofs.PoolRecord

/-!
# Reading one record

Where a record is intact, `av_pool_copy_av_data` gives its data back however
the ring splits it, and names the place behind it as the next.
-/

namespace Nvr.AvPool

open RingBuffer

variable {m : JpoolMan}

/-- What is given back is the frame of the record. -/
structure Delivery.Carries (d : Delivery) (r : Rec) : Prop where
  length : d.pBuf.length = r.frame.dataLen
  bytes : r.frame.copied <+: d.pBuf
  no : d.u32FrameNo = r.no
  type : d.u32IFrame = r.frame.nFrameType.toUInt32

/-- All of the frame, when none of its pieces is empty. -/
theorem Delivery.Carries.pBuf_eq {d : Delivery} {r : Rec} (h : d.Carries r)
    (hpics : ∀ p ∈ r.frame.ppPicsData, p ≠ []) :
    d.pBuf = r.frame.pHdrData ++ r.frame.ppPicsData.flatten := by
  have hbytes := h.bytes
  rw [Frame.copied_eq hpics] at hbytes
  refine (hbytes.eq_of_length ?_).symm
  rw [h.length, List.length_append, List.length_flatten, Frame.dataLen, Frame.nLen, Nat.add_comm]

theorem JpoolMan.length_copied {n pos : Nat} (hpos : pos + 64 ≤ m.u32BuffSize) :
    (m.copied n pos).length = n := by
  unfold copied jpoolHdrLen
  split
  · rw [ByteFile.length_read]
  · simp only [List.length_append, ByteFile.length_read]
    omega

theorem JpoolMan.getElem_copied {n pos i : Nat} (hpos : pos + 64 ≤ m.u32BuffSize)
    (hn : n ≤ m.u32BuffSize) (hi : i < (m.copied n pos).length) :
    (m.copied n pos)[i] = m.pDataBuff (behind m.u32BuffSize (pos + 64) i) := by
  have hlen := hi
  rw [length_copied hpos] at hlen
  by_cases hflat : n + jpoolHdrLen + pos ≤ m.u32BuffSize
  · have hcopied : m.copied n pos = m.pDataBuff.read (pos + 64) n := if_pos hflat
    unfold jpoolHdrLen at hflat
    simp only [hcopied, ByteFile.getElem_read]
    rw [behind, Nat.mod_eq_of_lt (by omega)]
  · have hcopied : m.copied n pos =
        m.pDataBuff.read (pos + 64) (m.u32BuffSize - pos - 64) ++
          m.pDataBuff.read 0 (n - (m.u32BuffSize - pos - 64)) := if_neg hflat
    simp only [hcopied]
    by_cases hin : i < m.u32BuffSize - pos - 64
    · rw [List.getElem_append_left (by rwa [ByteFile.length_read]), ByteFile.getElem_read, behind,
        Nat.mod_eq_of_lt (by omega)]
    · -- what is over goes on from the beginning
      rw [List.getElem_append_right (by rw [ByteFile.length_read]; omega), ByteFile.getElem_read,
        ByteFile.length_read, behind, Nat.mod_eq_sub_mod (by omega), Nat.mod_eq_of_lt (by omega)]
      congr 1
      omega

namespace Intact

variable {r : Rec}

theorem copied_prefix (h : Intact m r) (hdvd : 64 ∣ m.u32BuffSize) (hfit : r.size ≤ m.u32BuffSize) :
    r.frame.copied <+: m.copied r.frame.dataLen r.pos := by
  have hlt := h.lt
  have hneed := le_recordSize r.frame.dataLen
  obtain ⟨j, hj⟩ := hdvd
  obtain ⟨k, hk⟩ := h.dvd
  unfold Rec.size Frame.needSize at hfit
  have hpos : r.pos + 64 ≤ m.u32BuffSize := by omega
  rw [List.prefix_iff_eq_take]
  have hle : r.frame.copied.length ≤ (m.copied r.frame.dataLen r.pos).length := by
    rw [JpoolMan.length_copied hpos]
    exact r.frame.copied_le
  refine List.ext_getElem ?_ fun i hi hi' => ?_
  · rw [List.length_take, Nat.min_eq_left hle]
  · rw [List.getElem_take, JpoolMan.getElem_copied hpos (by omega)]
    exact (h.data i hi).symm

/-- Copying an intact record. -/
theorem copy (h : Intact m r) (hdvd : 64 ∣ m.u32BuffSize) (hsize : m.u32BuffSize ≤ 2 ^ 31)
    (hfit : r.size ≤ m.u32BuffSize) (nBufLen : Nat) :
    if nBufLen < r.frame.dataLen then
      m.avPoolCopyAvData nBufLen r.pos = .enomem r.frame.dataLen
    else
      ∃ d, m.avPoolCopyAvData nBufLen r.pos = .frame d ∧ d.Carries r ∧
        d.nNextPos = m.nextPos r.pos := by
  have hlt := h.lt
  have hneed := le_recordSize r.frame.dataLen
  have hprefix := h.copied_prefix hdvd hfit
  obtain ⟨j, hj⟩ := hdvd
  obtain ⟨k, hk⟩ := h.dvd
  have hroom : r.frame.dataLen + 64 ≤ m.u32BuffSize := hneed.trans hfit
  have hlen : (m.hdr r.pos).u32DataLen.toNat = r.frame.dataLen := by
    rw [h.hdr, Rec.hdr, UInt32.toNat_ofNat', Nat.mod_eq_of_lt (by omega)]
  have hpositive : ¬ 2 ^ 31 ≤ (m.hdr r.pos).u32DataLen.toNat := by omega
  by_cases hbuf : nBufLen < r.frame.dataLen
  · rw [if_pos hbuf, JpoolMan.avPoolCopyAvData, if_neg hpositive, hlen, if_pos hbuf]
  · rw [if_neg hbuf, JpoolMan.avPoolCopyAvData, if_neg hpositive, hlen, if_neg hbuf]
    refine ⟨_, rfl, ⟨?_, hprefix, ?_, ?_⟩, rfl⟩
    · exact JpoolMan.length_copied (by omega)
    · exact congrArg JpoolFrameHdr.u32FrameNo h.hdr
    · exact congrArg (fun x => x.u8FrameType.toUInt32) h.hdr

end Intact

end Nvr.AvPool
