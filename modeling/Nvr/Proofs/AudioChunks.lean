import Nvr.Lib.FixedWidth
import Nvr.Player.AudioPlay

/-!
# No audio is lost between the chunks

Whatever the sizes of the pieces, the chunks that `audio_rcv_nbytes` completes
and what it still holds are the pieces one behind the other. What it holds is
less than a chunk: either the front of the next one in `out_buf`, or the rest of
a piece in `remain_buf` with nothing in front of it. A piece of at most one
chunk completes at most one, so the calls that complete one are those at which
the number of bytes received passes a multiple of the chunk's size.
-/

namespace Nvr.Player

/-- A piece of decoded audio of at most one chunk. -/
structure Piece where
  bytes : List UInt8
  fits : bytes.length ≤ chunkBytes.toNat

/-- The bytes that have been received and are in no chunk yet. -/
def AudioRcv.held (s : AudioRcv) : List UInt8 :=
  s.outBuf.read 0 s.buffer ++ s.remainBuf.read 0 s.remainLen.toNat

/-- What is in `out_buf` at the end of a call. -/
def AudioCall.chunk (c : AudioCall) : List UInt8 :=
  c.left.outBuf.read 0 chunkBytes.toNat

/-- The calls for some pieces, one after the other. -/
def rcvPieces : AudioRcv → List Piece → List AudioCall
  | _, [] => []
  | s, p :: ps =>
      audioRcvNbytes false p.bytes s :: rcvPieces (audioRcvNbytes false p.bytes s).left ps

/-- What they leave. -/
def rcvAfter (s : AudioRcv) (ps : List Piece) : AudioRcv :=
  ps.foldl (fun s p => (audioRcvNbytes false p.bytes s).left) s

/-- `buffer` points behind these bytes, and `all_len` is the room behind it. -/
structure Filled (s : AudioRcv) (bytes : List UInt8) : Prop where
  room : s.buffer + s.allLen.toNat = chunkBytes.toNat
  bytes_eq : s.outBuf.read 0 s.buffer = bytes

/-- Between two calls `out_buf` is not full, and it is empty while something remains. -/
structure Rest (s : AudioRcv) : Prop where
  room : s.buffer + s.allLen.toNat = chunkBytes.toNat
  allLen_pos : 0 < s.allLen.toNat
  remainLen_lt : s.remainLen.toNat < chunkBytes.toNat
  empty : s.remainLen ≠ 0 → s.allLen = chunkBytes

/-- A copy that stays in the first `CHUNK_BYTES` of its buffer. -/
def AudioCopy.Inside (c : AudioCopy) : Prop := c.pos + c.bytes.length ≤ chunkBytes.toNat

theorem read_write_end (f : ByteFile) (off : Nat) (data : List UInt8) :
    (f.write off data).read 0 (off + data.length) = f.read 0 off ++ data := by
  have hfront : (f.write off data).read 0 off = f.read 0 off :=
    ByteFile.read_write_apart (.inl (by omega))
  have hbehind : (f.write off data).read off data.length = data := ByteFile.holds_write f off data
  rw [ByteFile.read_append, hfront, Nat.zero_add, hbehind]

/-! ## The three copies -/

theorem putRemain_filled {s : AudioRcv} (h : Rest s) :
    Filled (putRemain s).1 s.held ∧ 0 < (putRemain s).1.allLen.toNat ∧
      (putRemain s).1.remainLen = 0 ∧ ∀ c ∈ (putRemain s).2, c.Inside := by
  have hroom := h.room
  have hlt := h.remainLen_lt
  by_cases hremain : s.remainLen ≠ 0
  · have hall : s.allLen = chunkBytes := h.empty hremain
    have hsub : (s.allLen - s.remainLen).toNat = s.allLen.toNat - s.remainLen.toNat := by
      refine UInt32.toNat_sub_of_toNat_le ?_
      rw [hall]
      omega
    rw [hall] at hroom hsub
    rw [putRemain, if_pos hremain]
    refine ⟨⟨?_, ?_⟩, ?_, rfl, ?_⟩
    · simp only [hall]
      omega
    · have hwrite := read_write_end s.outBuf s.buffer (s.remainBuf.read 0 s.remainLen.toNat)
      rwa [ByteFile.length_read] at hwrite
    · simp only [hall]
      omega
    · intro c hc
      obtain rfl := List.mem_singleton.1 hc
      simp only [AudioCopy.Inside, ByteFile.length_read]
      omega
  · simp only [putRemain, if_neg hremain]
    have hzero : s.remainLen = 0 := not_not.1 hremain
    refine ⟨⟨hroom, ?_⟩, h.allLen_pos, hzero, fun c hc => by cases hc⟩
    simp [AudioRcv.held, hzero, ByteFile.read]

theorem putPiece_filled {s : AudioRcv} {bytes : List UInt8} (h : Filled s bytes)
    {copyLen : UInt32} {data : List UInt8} (hroom : copyLen.toNat ≤ s.allLen.toNat)
    (hdata : copyLen.toNat ≤ data.length) :
    Filled (putPiece copyLen data s).1 (bytes ++ data.take copyLen.toNat) ∧
      (putPiece copyLen data s).1.remainLen = s.remainLen ∧
      ∀ c ∈ (putPiece copyLen data s).2, c.Inside := by
  have hall := h.room
  have hlen : (data.take copyLen.toNat).length = copyLen.toNat := by
    rw [List.length_take]
    omega
  have hsub := UInt32.toNat_sub_of_toNat_le hroom
  refine ⟨⟨?_, ?_⟩, rfl, ?_⟩
  · simp only [putPiece]
    omega
  · have hwrite := read_write_end s.outBuf s.buffer (data.take copyLen.toNat)
    rwa [hlen, h.bytes_eq] at hwrite
  · intro c hc
    obtain rfl := List.mem_singleton.1 hc
    simp only [AudioCopy.Inside, hlen]
    omega

theorem keepRemain_rest {s : AudioRcv} {bytes : List UInt8} (h : Filled s bytes)
    (hzero : s.remainLen = 0) {copyLen : UInt32} {data : List UInt8}
    (hpos : s.allLen = 0 → 0 < copyLen.toNat) (hle : copyLen.toNat ≤ data.length)
    (hfits : data.length ≤ chunkBytes.toNat) (hall : s.allLen ≠ 0 → copyLen.toNat = data.length) :
    Rest (keepRemain copyLen data s).1 ∧
      (bytes ++ data.drop copyLen.toNat =
        (if s.allLen = 0 then (keepRemain copyLen data s).1.outBuf.read 0 chunkBytes.toNat else []) ++
          (keepRemain copyLen data s).1.held) ∧
      ∀ c ∈ (keepRemain copyLen data s).2, c.Inside := by
  have hroom := h.room
  by_cases hfull : s.allLen = 0
  · have hsize : (UInt32.ofNat data.length).toNat = data.length :=
      UInt32.toNat_ofNat_of_lt' (Nat.lt_of_le_of_lt hfits (by decide))
    have hsub : (UInt32.ofNat data.length - copyLen).toNat = data.length - copyLen.toNat := by
      rw [UInt32.toNat_sub_of_toNat_le (by omega), hsize]
    have hstart := hpos hfull
    simp only [keepRemain, if_pos hfull]
    refine ⟨⟨rfl, Nat.zero_lt_succ _, ?_, fun _ => rfl⟩, ?_, ?_⟩
    · simp only [hsub]
      omega
    · have hbuffer : s.buffer = chunkBytes.toNat := by
        rw [hfull] at hroom
        exact hroom
      have hbytes := h.bytes_eq
      rw [hbuffer] at hbytes
      have hrest : ((s.remainBuf.write 0 (data.drop copyLen.toNat)).read 0
          (data.drop copyLen.toNat).length) = data.drop copyLen.toNat :=
        ByteFile.holds_write s.remainBuf 0 _
      rw [List.length_drop] at hrest
      simp only [AudioRcv.held, AudioRcv.memcpy, hbytes, hsub, hrest, ByteFile.read,
        List.nil_append]
    · intro c hc
      obtain rfl := List.mem_singleton.1 hc
      simp only [AudioCopy.Inside, List.length_drop]
      omega
  · simp only [keepRemain, if_neg hfull]
    have hpos' : 0 < s.allLen.toNat :=
      Nat.pos_of_ne_zero fun hz => hfull (UInt32.toNat_inj.1 hz)
    refine ⟨⟨hroom, hpos', ?_, fun hne => absurd hzero hne⟩, ?_, fun c hc => by cases hc⟩
    · rw [hzero]
      decide
    · rw [hall hfull, List.drop_length, List.append_nil]
      simp only [AudioRcv.held, hzero, List.nil_append]
      rw [h.bytes_eq]
      exact (List.append_nil _).symm

/-! ## A call -/

theorem Filled.length {s : AudioRcv} {bytes : List UInt8} (h : Filled s bytes) :
    bytes.length + s.allLen.toNat = chunkBytes.toNat := by
  have hroom := h.room
  rw [← h.bytes_eq, ByteFile.length_read]
  exact hroom

theorem Rest.held_lt {s : AudioRcv} (h : Rest s) : s.held.length < chunkBytes.toNat := by
  obtain ⟨hfilled, hpos, -⟩ := putRemain_filled h
  have hlength := hfilled.length
  omega

theorem audioRcvNbytes_step {s : AudioRcv} (h : Rest s) (p : Piece) :
    Rest (audioRcvNbytes false p.bytes s).left ∧
      s.held ++ p.bytes =
        (if (audioRcvNbytes false p.bytes s).nbytes = chunkBytes
          then (audioRcvNbytes false p.bytes s).chunk else []) ++
          (audioRcvNbytes false p.bytes s).left.held ∧
      ((audioRcvNbytes false p.bytes s).nbytes = chunkBytes ↔
        chunkBytes.toNat ≤ s.held.length + p.bytes.length) ∧
      ∀ c ∈ (audioRcvNbytes false p.bytes s).copies, c.Inside := by
  have hsize : (UInt32.ofNat p.bytes.length).toNat = p.bytes.length :=
    UInt32.toNat_ofNat_of_lt' (Nat.lt_of_le_of_lt p.fits (by decide))
  obtain ⟨hfront, hpos, hzero, hcopies⟩ := putRemain_filled h
  have hlength := hfront.length
  simp only [audioRcvNbytes, Bool.false_eq_true, if_false]
  generalize hs : (putRemain s).1 = front at hfront hpos hzero hlength
  generalize hc : (if UInt32.ofNat p.bytes.length ≤ front.allLen
    then UInt32.ofNat p.bytes.length else front.allLen) = copyLen
  have hcopy : copyLen.toNat = p.bytes.length ∧ p.bytes.length ≤ front.allLen.toNat ∨
      copyLen.toNat = front.allLen.toNat ∧ front.allLen.toNat < p.bytes.length := by
    rw [← hc]
    by_cases hle : UInt32.ofNat p.bytes.length ≤ front.allLen
    · have hle' := UInt32.le_iff_toNat_le.1 hle
      rw [if_pos hle]
      exact .inl ⟨hsize, hsize ▸ hle'⟩
    · have hlt := Nat.lt_of_not_le fun hle' => hle (UInt32.le_iff_toNat_le.2 hle')
      rw [if_neg hle]
      exact .inr ⟨rfl, hsize ▸ hlt⟩
  obtain ⟨hfilled, hremain, hcopies'⟩ :=
    @putPiece_filled _ _ hfront copyLen p.bytes (by omega) (by omega)
  have hleft : (putPiece copyLen p.bytes front).1.allLen.toNat =
      front.allLen.toNat - copyLen.toNat :=
    UInt32.toNat_sub_of_toNat_le (by omega)
  have hfull : (putPiece copyLen p.bytes front).1.allLen = 0 ↔
      chunkBytes.toNat ≤ s.held.length + p.bytes.length := by
    rw [← UInt32.toNat_inj, hleft]
    show front.allLen.toNat - copyLen.toNat = 0 ↔ _
    omega
  have hnbytes : chunkBytes - (putPiece copyLen p.bytes front).1.allLen = chunkBytes ↔
      (putPiece copyLen p.bytes front).1.allLen = 0 := by
    have hle : (putPiece copyLen p.bytes front).1.allLen.toNat ≤ chunkBytes.toNat := by
      omega
    rw [← UInt32.toNat_inj, ← UInt32.toNat_inj, UInt32.toNat_sub_of_toNat_le hle]
    show _ ↔ _ = 0
    omega
  obtain ⟨hrest, hkeep, hcopies''⟩ :=
    @keepRemain_rest _ _ hfilled (hremain.trans hzero) copyLen p.bytes (fun hz => by
        have hpiece := hfull.1 hz
        have hlt := h.held_lt
        omega) (by omega) p.fits (fun hne => by
        have hroom : ¬ chunkBytes.toNat ≤ s.held.length + p.bytes.length := fun hle =>
          hne (hfull.2 hle)
        omega)
  refine ⟨hrest, ?_, hnbytes.trans hfull, ?_⟩
  · rw [List.append_assoc, List.take_append_drop] at hkeep
    rw [hkeep]
    by_cases hz : (putPiece copyLen p.bytes front).1.allLen = 0
    · rw [if_pos hz, if_pos (hnbytes.2 hz)]
      rfl
    · rw [if_neg hz, if_neg fun hn => hz (hnbytes.1 hn)]
  · intro c hmem
    obtain hmem' | hmem' := List.mem_append.1 hmem
    · obtain hm | hm := List.mem_append.1 hmem'
      · exact hcopies c hm
      · exact hcopies' c hm
    · exact hcopies'' c hmem'

/-! ## All calls -/

/-- The bytes of some pieces. -/
def pieceBytes (ps : List Piece) : List UInt8 := ps.flatMap Piece.bytes

/-- The contents of `out_buf` at the calls that return `CHUNK_BYTES`. -/
def chunksOf (cs : List AudioCall) : List UInt8 :=
  (cs.filter fun c => c.nbytes = chunkBytes).flatMap AudioCall.chunk

theorem chunksOf_cons (c : AudioCall) (cs : List AudioCall) :
    chunksOf (c :: cs) = (if c.nbytes = chunkBytes then c.chunk else []) ++ chunksOf cs := by
  by_cases hn : c.nbytes = chunkBytes
  · rw [chunksOf, List.filter_cons_of_pos (by simpa using hn), if_pos hn]
    rfl
  · rw [chunksOf, List.filter_cons_of_neg (by simpa using hn), if_neg hn]
    rfl

theorem rcvPieces_held {ps : List Piece} : ∀ {s : AudioRcv}, Rest s →
    chunksOf (rcvPieces s ps) ++ (rcvAfter s ps).held = s.held ++ pieceBytes ps := by
  induction ps with
  | nil =>
      intro s _
      exact (List.append_nil _).symm
  | cons p ps ih =>
      intro s h
      obtain ⟨hrest, hheld, -⟩ := audioRcvNbytes_step h p
      have hps := ih hrest
      have hsplit : s.held ++ pieceBytes (p :: ps) = s.held ++ p.bytes ++ pieceBytes ps := by
        rw [List.append_assoc]
        rfl
      rw [hsplit, hheld, List.append_assoc, ← hps, ← List.append_assoc, ← chunksOf_cons]
      rfl

theorem rcvPieces_inside {ps : List Piece} : ∀ {s : AudioRcv}, Rest s →
    ∀ c ∈ rcvPieces s ps, ∀ m ∈ c.copies, m.Inside := by
  induction ps with
  | nil => exact fun _ c hc => by cases hc
  | cons p ps ih =>
      intro s h c hc
      obtain ⟨hrest, -, -, hinside⟩ := audioRcvNbytes_step h p
      obtain rfl | hc' := List.mem_cons.1 hc
      · exact hinside
      · exact ih hrest c hc'

theorem chunkBytes_toNat : chunkBytes.toNat = 4096 := rfl

theorem chunkBytes_le_iff {n k len : Nat} (hn : n % chunkBytes.toNat = k) :
    chunkBytes.toNat ≤ k + len ↔ n / chunkBytes.toNat < (n + len) / chunkBytes.toNat := by
  rw [chunkBytes_toNat] at hn ⊢
  omega

/-- What is held after a call is what is over of the bytes received. -/
theorem held_over {s : AudioRcv} {p : Piece} {n : Nat} (h : Rest s)
    (hn : n % chunkBytes.toNat = s.held.length) :
    (n + p.bytes.length) % chunkBytes.toNat =
      (audioRcvNbytes false p.bytes s).left.held.length := by
  obtain ⟨hrest, hheld, -⟩ := audioRcvNbytes_step h p
  have hlt := hrest.held_lt
  have hlengths := congrArg List.length hheld
  have hchunk : (audioRcvNbytes false p.bytes s).chunk.length = chunkBytes.toNat :=
    ByteFile.length_read _ _ _
  rw [List.length_append, List.length_append] at hlengths
  rw [chunkBytes_toNat] at hn hlt hchunk ⊢
  by_cases hfull : (audioRcvNbytes false p.bytes s).nbytes = chunkBytes
  · rw [if_pos hfull] at hlengths
    omega
  · rw [if_neg hfull, List.length_nil] at hlengths
    omega

/-- A call ends a chunk when the bytes received pass a multiple of its size; the bytes
held are what is over. -/
theorem rcvPieces_completes {ps : List Piece} : ∀ {s : AudioRcv} {n : Nat}, Rest s →
    n % chunkBytes.toNat = s.held.length → ∀ {i : Nat} {c : AudioCall},
      (rcvPieces s ps)[i]? = some c →
      (c.nbytes = chunkBytes ↔
        (n + (pieceBytes (ps.take i)).length) / chunkBytes.toNat <
          (n + (pieceBytes (ps.take (i + 1))).length) / chunkBytes.toNat) := by
  induction ps with
  | nil => exact fun _ _ i c hc => by cases hc
  | cons p ps ih =>
      intro s n h hn i c hc
      obtain ⟨hrest, -, hfull, -⟩ := audioRcvNbytes_step h p
      have hbytes : ∀ qs, (pieceBytes (p :: qs)).length = p.bytes.length + (pieceBytes qs).length :=
        fun qs => List.length_append
      cases i with
      | zero =>
          obtain rfl := Option.some.inj hc
          rw [hfull, chunkBytes_le_iff hn, List.take_succ_cons, hbytes]
          rfl
      | succ i =>
          have hnext := ih hrest (held_over h hn) (i := i) (c := c) hc
          rw [List.take_succ_cons, List.take_succ_cons, hbytes, hbytes, ← Nat.add_assoc,
            ← Nat.add_assoc]
          exact hnext

/-- What comes out of `audio_rcv_nbytes` is what went in; the calls that return
`CHUNK_BYTES` are those at which a chunk is completed, and no copy goes beyond it. -/
theorem audioRcvNbytes_lossless (s : AudioRcv) (pieces : List Piece) :
    chunksOf (rcvPieces (audioRcvNbytes true [] s).left pieces) ++
        (rcvAfter (audioRcvNbytes true [] s).left pieces).held = pieceBytes pieces ∧
      (∀ i c, (rcvPieces (audioRcvNbytes true [] s).left pieces)[i]? = some c →
        (c.nbytes = chunkBytes ↔
          (pieceBytes (pieces.take i)).length / chunkBytes.toNat <
            (pieceBytes (pieces.take (i + 1))).length / chunkBytes.toNat)) ∧
      ∀ c ∈ rcvPieces (audioRcvNbytes true [] s).left pieces, ∀ m ∈ c.copies, m.Inside := by
  have hrest : Rest (audioRcvNbytes true [] s).left :=
    ⟨rfl, Nat.zero_lt_succ _, Nat.zero_lt_succ _, fun hne => absurd rfl hne⟩
  refine ⟨rcvPieces_held hrest, fun i c hc => ?_, rcvPieces_inside hrest⟩
  have hcompletes := rcvPieces_completes (n := 0) hrest rfl hc
  rw [Nat.zero_add, Nat.zero_add] at hcompletes
  exact hcompletes

end Nvr.Player
