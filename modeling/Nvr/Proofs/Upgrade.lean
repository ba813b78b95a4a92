import Nvr.Proofs.UpgradeFile

/-!
# The upgrade that is received is the one that was packed

However the upgrade file is cut into packets, the receiver is at each of their
ends in one of three places: in the header, in an information record, or in an
entry, and has in the buffer for it the part that has come. A packet takes it
from one place to the next, past as many entries as end in the packet, and each
of them is written.
-/

namespace Nvr.Update

open WordRecord ByteFile Collect

/-- The bytes of entries in the file. -/
def bytesOf (es : List Entry) : List UInt8 := es.flatMap Entry.bytes

/-! ## A full entry -/

/-- What the function that writes an image takes: no empty kernel or filesys
image, and no logo under 1024 bytes. -/
def Entry.accepted (e : Entry) : Bool :=
  if e.hdr.packetType = ImageType.code .kernel ∨ e.hdr.packetType = ImageType.code .filesys then
    !e.image.isEmpty
  else if e.hdr.packetType = ImageType.code .logo then 1024 ≤ e.image.length
  else true

/-- What an entry makes of the flash. -/
def Entry.installed (f : Flash) (e : Entry) : Flash := (f.install true e.hdr e.image).2

theorem install_fst (f : Flash) (e : Entry) :
    (f.install true e.hdr e.image).1 = e.accepted := by
  unfold Flash.install Entry.accepted
  simp only [Bool.true_and, if_true]
  by_cases hkernel : e.hdr.packetType = ImageType.code .kernel
  · have heither : e.hdr.packetType = ImageType.code .kernel ∨
        e.hdr.packetType = ImageType.code .filesys := .inl hkernel
    rw [if_pos hkernel, if_pos heither]
    cases e.image <;> rfl
  rw [if_neg hkernel]
  by_cases hfilesys : e.hdr.packetType = ImageType.code .filesys
  · have heither : e.hdr.packetType = ImageType.code .kernel ∨
        e.hdr.packetType = ImageType.code .filesys := .inr hfilesys
    rw [if_pos hfilesys, if_pos heither]
    cases e.image <;> rfl
  rw [if_neg hfilesys, if_neg (not_or.2 ⟨hkernel, hfilesys⟩)]
  by_cases hlogo : e.hdr.packetType = ImageType.code .logo
  · rw [if_pos hlogo, if_pos hlogo]
    by_cases hshort : e.image.length < 1024
    · rw [if_pos hshort]
      exact (decide_eq_false (by omega)).symm
    · rw [if_neg hshort]
      exact (decide_eq_true (by omega)).symm
  · rw [if_neg hlogo, if_neg hlogo]

/-- The entries that are to come: proper, of a length that is an `int`, and all
but the last accepted. -/
structure Packed (es : List Entry) : Prop where
  proper : ∀ e ∈ es, e.Proper
  sized : ∀ e ∈ es, e.dat.length < 2 ^ 31
  accepted : ∀ e ∈ es.dropLast, e.accepted = true

section Packed

variable {e : Entry} {es : List Entry}

theorem Packed.tail (h : Packed (e :: es)) : Packed es where
  proper e' he := h.proper e' (List.mem_cons_of_mem _ he)
  sized e' he := h.sized e' (List.mem_cons_of_mem _ he)
  accepted e' he := by
    refine h.accepted e' ?_
    cases es with
    | nil => cases he
    | cons => exact List.mem_cons_of_mem _ he

theorem Packed.append_right {es' : List Entry} (h : Packed (es ++ es')) : Packed es' := by
  induction es with
  | nil => exact h
  | cons e es ih => exact ih h.tail

/-- Only the last one may be refused. -/
theorem Packed.last (h : Packed (e :: es)) (hnot : e.accepted = false) : es = [] := by
  cases es with
  | nil => rfl
  | cons e' es =>
      have haccepted := h.accepted e (List.mem_cons_self ..)
      rw [hnot] at haccepted
      cases haccepted

theorem Packed.bytesOf_cons (h : Packed (e :: es)) :
    bytesOf (e :: es) = e.info ++ (e.dat ++ bytesOf es) := by
  rw [← List.append_assoc, ← Entry.bytes_eq (h.sized e (List.mem_cons_self ..))]
  rfl

theorem Packed.fileSize (h : Packed (e :: es)) : (wordAt e.info 128).toNat = e.dat.length :=
  Entry.wordAt_info (h.sized e (List.mem_cons_self ..))

/-- Where there are bytes, there is an entry, with its whole record. -/
theorem Packed.exists_cons (h : Packed es) (hpos : 0 < (bytesOf es).length) :
    ∃ e es', es = e :: es' := by
  cases es with
  | nil => exact absurd hpos (by simp [bytesOf])
  | cons e es => exact ⟨e, es, rfl⟩

theorem Entry.dat_pos (e : Entry) : 0 < e.dat.length := by
  rw [Entry.length_dat]
  exact Nat.lt_of_lt_of_le (by decide) (Nat.le_add_right updateHdrLen _)

end Packed

/-- `nvr_update_write_packet` with the whole of an entry in the buffer. -/
theorem nvrUpdateWritePacket_entry {env : Env} (hflash : ∀ n, env.flashOk n = true) {u : Updater}
    {e : Entry} (hp : e.Proper) (hbuf : u.buf.take u.updateOff = e.dat) :
    nvrUpdateWritePacket env u = (e.accepted, { u with
      calls := u.calls ++ [e.dat]
      flash := e.installed u.flash }) := by
  have hhdr : UpdateHdr.ofBytes e.dat = e.hdr := e.hdr.ofBytes_bytes e.image
  have hlen := hp.dataLen
  have hdat := e.length_dat
  have hdrop : e.dat.drop updateHdrLen = e.image := by
    unfold Entry.dat
    rw [← e.hdr.length_bytes, List.drop_left]
  unfold nvrUpdateWritePacket
  dsimp only
  rw [hbuf, hhdr, if_neg (not_not_intro hp.magic), if_neg (by omega), hflash, hdrop, hlen,
    Int.toNat_natCast, List.take_length, install_fst]
  rfl

/-! ## Where the receiver is -/

/-- In the header `H` of the file. -/
structure AwaitsHdr (H : List UInt8) (u : Updater) (todo : List Entry) (rest : List UInt8) :
    Prop where
  hdrOk : u.lastFileHdrOk = false
  infoOk : u.lastFileInfoOk = false
  infoLen : u.lastFileInfoLen = 0
  lt : u.lastFileHdrLen < upgradeFileHdrLen
  hdrLength : u.fileHdr.length = upgradeFileHdrLen
  infoLength : u.fileInfo.length = upgradeFileInfoLen
  collected : Collected u.fileHdr u.lastFileHdrLen (H ++ bytesOf todo) rest

/-- In the record of the next entry, or behind the last one. -/
structure AwaitsInfo (u : Updater) (todo : List Entry) (rest : List UInt8) : Prop where
  hdrOk : u.lastFileHdrOk = true
  infoOk : u.lastFileInfoOk = false
  lt : u.lastFileInfoLen < upgradeFileInfoLen
  infoLength : u.fileInfo.length = upgradeFileInfoLen
  collected : Collected u.fileInfo u.lastFileInfoLen (bytesOf todo) rest

/-- In the entry `e`. -/
structure AwaitsData (u : Updater) (e : Entry) (todo : List Entry) (rest : List UInt8) :
    Prop where
  hdrOk : u.lastFileHdrOk = true
  infoOk : u.lastFileInfoOk = true
  info : u.fileInfo = e.info
  lt : u.updateOff < e.dat.length
  collected : Collected u.buf u.updateOff (e.dat ++ bytesOf todo) rest

inductive Awaits (H : List UInt8) (u : Updater) : List Entry → List UInt8 → Prop where
  | hdr {todo : List Entry} {rest : List UInt8} : AwaitsHdr H u todo rest → Awaits H u todo rest
  | info {todo : List Entry} {rest : List UInt8} : AwaitsInfo u todo rest → Awaits H u todo rest
  | data {e : Entry} {todo : List Entry} {rest : List UInt8} :
      AwaitsData u e todo rest → Awaits H u (e :: todo) rest

/-- These entries have been written. -/
structure Delivered (u u' : Updater) (done : List Entry) : Prop where
  calls : u'.calls = u.calls ++ done.map Entry.dat
  flash : u'.flash = done.foldl Entry.installed u.flash

theorem Delivered.nil {u u' : Updater} (hcalls : u'.calls = u.calls) (hflash : u'.flash = u.flash) :
    Delivered u u' [] := ⟨by rw [hcalls]; simp, hflash⟩

theorem Delivered.trans {u u' u'' : Updater} {done done' : List Entry} (h : Delivered u u' done)
    (h' : Delivered u' u'' done') : Delivered u u'' (done ++ done') where
  calls := by
    rw [h'.calls, h.calls, List.map_append, List.append_assoc]
  flash := by
    rw [h'.flash, h.flash, List.foldl_append]

/-- A packet takes the receiver on: some of the entries are written, and `rest`
comes next; unless that was all. -/
def Goes (H : List UInt8) (u u' : Updater) (todo : List Entry) (rest : List UInt8) : Prop :=
  ∃ done left, todo = done ++ left ∧ Delivered u u' done ∧ u'.updataBuf.isSome ∧
    (Awaits H u' left rest ∨ left = [] ∧ rest = [])

section Receive

variable {H : List UInt8} {env : Env} {u : Updater} {e : Entry} {todo : List Entry}
  {pkt rest : List UInt8}

theorem Goes.after {u' u'' : Updater} (hd : Delivered u u' []) (h : Goes H u' u'' todo rest) :
    Goes H u u'' todo rest := by
  obtain ⟨done, left, htodo, hd', hsome, hplace⟩ := h
  exact ⟨done, left, htodo, hd.trans hd', hsome, hplace⟩

theorem Goes.cons {u' u'' : Updater} (hd : Delivered u u' [e]) (h : Goes H u' u'' todo rest) :
    Goes H u u'' (e :: todo) rest := by
  obtain ⟨done, left, htodo, hd', hsome, hplace⟩ := h
  exact ⟨e :: done, left, by rw [htodo]; rfl, hd.trans hd', hsome, hplace⟩

/-- The place stays the same for a while. -/
theorem Goes.stay {u' : Updater} (hd : Delivered u u' []) (hsome : u'.updataBuf.isSome)
    (h : Awaits H u' todo rest) : Goes H u u' todo rest :=
  ⟨[], todo, rfl, hd, hsome, .inl h⟩

theorem AwaitsData.fileSize (h : AwaitsData u e todo rest) (hp : Packed (e :: todo)) :
    u.fileSize = e.dat.length := by
  unfold Updater.fileSize
  rw [h.info]
  exact hp.fileSize

/-- More of the entry, but not all of it. -/
theorem AwaitsData.append (h : AwaitsData u e todo (pkt ++ rest))
    (hlt : u.updateOff + pkt.length < e.dat.length) : AwaitsData (u.append pkt) e todo rest where
  hdrOk := h.hdrOk
  infoOk := h.infoOk
  info := h.info
  lt := hlt
  collected := by
    have hmore := h.collected.more (Nat.le_refl pkt.length)
    rw [List.take_length, List.drop_length, List.nil_append] at hmore
    exact hmore

/-- The last of the entry. -/
theorem AwaitsData.append_last (h : AwaitsData u e todo (pkt ++ rest))
    (hle : e.dat.length ≤ u.updateOff + pkt.length) :
    (u.append (pkt.take (e.dat.length - u.updateOff))).buf.take
        (u.append (pkt.take (e.dat.length - u.updateOff))).updateOff = e.dat ∧
      pkt.drop (e.dat.length - u.updateOff) ++ rest = bytesOf todo := by
  have hlt := h.lt
  have hn : e.dat.length - u.updateOff ≤ pkt.length := by omega
  have hlen : (pkt.take (e.dat.length - u.updateOff)).length = e.dat.length - u.updateOff := by
    rw [List.length_take]
    omega
  have hfull := (h.collected.more hn).full (by omega)
  refine ⟨?_, hfull.2⟩
  show (patch u.buf u.updateOff _).take (u.updateOff + _) = e.dat
  rw [hlen]
  exact hfull.1

/-- The place behind a full entry, before the next record is looked at. -/
def Updater.written (u : Updater) (e : Entry) (piece : List UInt8) : Updater :=
  { u.append piece with
    calls := u.calls ++ [e.dat]
    flash := e.installed u.flash
    updateOff := 0 }

/-- The loop of `nvr_update_write_file`, from an entry that ends in the packet. -/
theorem nvrUpdateWriteFile_goes (hflash : ∀ n, env.flashOk n = true) :
    ∀ (rounds : Nat) {u : Updater} {e : Entry} {todo : List Entry} {pkt : List UInt8},
      AwaitsData u e todo (pkt ++ rest) → u.fileInfo.length = upgradeFileInfoLen →
      Packed (e :: todo) → e.dat.length ≤ u.updateOff + pkt.length → pkt.length < rounds →
      Goes H u (nvrUpdateWriteFile env rounds u pkt).2 (e :: todo) rest := by
  intro rounds
  induction rounds with
  | zero => exact fun _ _ _ _ hrounds => absurd hrounds (Nat.not_lt_zero _)
  | succ rounds ih =>
      intro u e todo pkt h hinfoLen hp hle hrounds
      have hsize := h.fileSize hp
      obtain ⟨hbuf, hnext⟩ := h.append_last hle
      unfold nvrUpdateWriteFile
      rw [hsize, if_neg (by omega)]
      dsimp only
      generalize hpiece : pkt.take (e.dat.length - u.updateOff) = piece at hbuf ⊢
      generalize hleft : pkt.drop (e.dat.length - u.updateOff) = left at hnext ⊢
      have hshort : left.length ≤ pkt.length := by
        rw [← hleft, List.length_drop]
        omega
      have hwrite := nvrUpdateWritePacket_entry hflash (hp.proper e (List.mem_cons_self ..)) hbuf
      have hd : Delivered u (u.written e piece) [e] := ⟨rfl, rfl⟩
      rw [hwrite]
      by_cases haccepted : e.accepted = true
      · rw [haccepted]
        dsimp only
        rw [if_pos rfl]
        split
        · -- the next record is whole in this packet
          rename_i hrecord
          have htotal : (bytesOf todo).length = left.length + rest.length := by
            rw [← hnext, List.length_append]
          obtain ⟨e', todo', rfl⟩ := hp.tail.exists_cons (by
            have hpos : 0 < upgradeFileInfoLen := by decide
            omega)
          rw [hp.tail.bytesOf_cons] at hnext
          have hsplit : left.take upgradeFileInfoLen = e'.info ∧
              left.drop upgradeFileInfoLen ++ rest = e'.dat ++ bytesOf todo' := by
            rw [← List.take_append_drop upgradeFileInfoLen left, List.append_assoc] at hnext
            refine List.append_inj hnext ?_
            rw [e'.length_info, List.length_take]
            omega
          rw [hsplit.1]
          have hdata : AwaitsData { u.written e piece with
              fileInfo := e'.info
              lastFileInfoOk := true } e' todo' (left.drop upgradeFileInfoLen ++ rest) := by
            refine ⟨h.hdrOk, rfl, rfl, e'.dat_pos, ?_⟩
            rw [hsplit.2]
            exact collected_zero _ _
          have hsize' := hdata.fileSize hp.tail
          have hrest : (left.drop upgradeFileInfoLen).length + upgradeFileInfoLen =
              left.length := by
            rw [List.length_drop]
            omega
          have hpos : 0 < upgradeFileInfoLen := by decide
          have hd' : Delivered u { u.written e piece with
              fileInfo := e'.info
              lastFileInfoOk := true } [e] := ⟨rfl, rfl⟩
          split
          · rename_i hends
            refine Goes.cons hd' (ih hdata e'.length_info hp.tail ?_ (by omega))
            rw [← hsize']
            exact Nat.le_trans hends (Nat.le_add_left _ _)
          · rename_i hcont
            refine Goes.cons hd' (Goes.stay (Delivered.nil rfl rfl) rfl (.data (hdata.append ?_)))
            rw [← hsize']
            show 0 + _ < _
            rw [Nat.zero_add]
            exact Nat.lt_of_not_le hcont
        · rename_i hnoRecord
          have hbehind : Collected u.fileInfo 0 (bytesOf todo) (left ++ rest) := by
            rw [hnext]
            exact collected_zero _ _
          split
          · -- a part of the next record
            have hmore := hbehind.more (Nat.le_refl left.length)
            rw [List.take_length, List.drop_length, List.nil_append, Nat.zero_add] at hmore
            refine Goes.cons hd (Goes.stay (Delivered.nil rfl rfl) rfl
              (.info ⟨h.hdrOk, rfl, Nat.lt_of_not_le hnoRecord, ?_, hmore⟩))
            show (patch u.fileInfo 0 left).length = _
            rw [length_patch (by omega), hinfoLen]
          · rename_i hnothing
            obtain rfl : left = [] := List.eq_nil_of_length_eq_zero (by omega)
            exact Goes.cons hd (Goes.stay (Delivered.nil rfl rfl) rfl
              (.info ⟨h.hdrOk, rfl, Nat.zero_lt_succ 255, hinfoLen, hbehind⟩))
      · rw [Bool.eq_false_iff.2 haccepted]
        dsimp only
        rw [if_neg Bool.false_ne_true]
        obtain rfl := hp.last (Bool.eq_false_iff.2 haccepted)
        refine ⟨[e], [], rfl, ⟨rfl, rfl⟩, rfl, .inr ⟨rfl, ?_⟩⟩
        exact (List.append_eq_nil_iff.1 hnext).2

/-- `nvr_update_write_hdr_info`. -/
theorem nvrUpdateWriteHdrInfo_goes (h : AwaitsInfo u todo (pkt ++ rest)) (hp : Packed todo) :
    Delivered u (nvrUpdateWriteHdrInfo u pkt).2 [] ∧
      (nvrUpdateWriteHdrInfo u pkt).2.updataBuf = u.updataBuf ∧
      (nvrUpdateWriteHdrInfo u pkt).2.fileInfo.length = upgradeFileInfoLen ∧
      (pkt.drop (nvrUpdateWriteHdrInfo u pkt).1 = [] ∧
          AwaitsInfo (nvrUpdateWriteHdrInfo u pkt).2 todo rest ∨
        ∃ e todo', todo = e :: todo' ∧ AwaitsData (nvrUpdateWriteHdrInfo u pkt).2 e todo'
          (pkt.drop (nvrUpdateWriteHdrInfo u pkt).1 ++ rest)) := by
  have hlt := h.lt
  have hlength := h.infoLength
  unfold nvrUpdateWriteHdrInfo
  dsimp only
  generalize hn : min pkt.length (upgradeFileInfoLen - u.lastFileInfoLen) = n
  have hmore := h.collected.more (n := n) (by omega)
  have hpiece : (pkt.take n).length = n := by
    rw [List.length_take]
    omega
  have hpatch : (patch u.fileInfo u.lastFileInfoLen (pkt.take n)).length = upgradeFileInfoLen := by
    rw [length_patch (by omega), hlength]
  split
  · rename_i hpart
    have hdrop : pkt.drop n = [] := List.drop_eq_nil_of_le (by omega)
    rw [hdrop, List.nil_append] at hmore
    exact ⟨Delivered.nil rfl rfl, rfl, hpatch, .inl ⟨hdrop, h.hdrOk, h.infoOk,
      by show u.lastFileInfoLen + n < _; omega, hpatch, hmore⟩⟩
  · rename_i hfull
    have hend : u.lastFileInfoLen + n = upgradeFileInfoLen := not_not.1 hfull
    have hlong := hmore.le_stream
    have hpos : 0 < upgradeFileInfoLen := by decide
    obtain ⟨e, todo', rfl⟩ := hp.exists_cons (by omega)
    rw [hp.bytesOf_cons] at hmore
    obtain ⟨htake, hnext⟩ := hmore.full (by rw [hend, e.length_info])
    rw [hend, ← hpatch, List.take_length] at htake
    refine ⟨Delivered.nil rfl rfl, rfl, hpatch, .inr ⟨e, todo', rfl, h.hdrOk, rfl, htake,
      e.dat_pos, ?_⟩⟩
    rw [hnext]
    exact collected_zero _ _

/-- The entries and this packet fit the buffer. -/
def Fits (todo : List Entry) (pkt : List UInt8) : Prop :=
  ∀ e ∈ todo, e.dat.length + pkt.length ≤ nvrMaxUpdateBuf

theorem Fits.mono {pkt' : List UInt8} (h : Fits todo pkt) (hle : pkt'.length ≤ pkt.length) :
    Fits todo pkt' := fun e he => Nat.le_trans (Nat.add_le_add_left hle _) (h e he)

/-- The bytes of a packet that are an entry's. -/
theorem writeEntry_goes (hflash : ∀ n, env.flashOk n = true)
    (h : AwaitsData u e todo (pkt ++ rest)) (hinfoLen : u.fileInfo.length = upgradeFileInfoLen)
    (hp : Packed (e :: todo)) (hfit : Fits (e :: todo) pkt) (hne : pkt ≠ []) :
    Goes H u (writeEntry env u pkt).2 (e :: todo) rest := by
  have hlt := h.lt
  have hmax := hfit e (List.mem_cons_self ..)
  have hsize := h.fileSize hp
  unfold writeEntry
  rw [if_neg hne, if_pos h.infoOk, if_neg (by omega), hsize]
  split
  · rename_i hends
    exact nvrUpdateWriteFile_goes hflash _ h hinfoLen hp hends (Nat.lt_succ_self _)
  · rename_i hcont
    exact Goes.stay (Delivered.nil rfl rfl) rfl (.data (h.append (by omega)))

theorem writeBehindHdr_info (h : u.lastFileInfoOk = false) :
    writeBehindHdr env u pkt = writeEntry env (nvrUpdateWriteHdrInfo u pkt).2
      (pkt.drop (nvrUpdateWriteHdrInfo u pkt).1) := by
  unfold writeBehindHdr
  rw [h]
  rfl

theorem writeBehindHdr_data (h : u.lastFileInfoOk = true) :
    writeBehindHdr env u pkt = writeEntry env u pkt := by
  unfold writeBehindHdr
  rw [h]
  rfl

theorem writeEntry_nil : writeEntry env u [] = (.ok, u) := if_pos rfl

/-- From the record on. -/
theorem writeInfo_goes (hflash : ∀ n, env.flashOk n = true) (hsome : u.updataBuf.isSome)
    (h : AwaitsInfo u todo (pkt ++ rest)) (hp : Packed todo) (hfit : Fits todo pkt) :
    Goes H u (writeBehindHdr env u pkt).2 todo rest := by
  obtain ⟨hd, hbuf, hlength, hcases⟩ := nvrUpdateWriteHdrInfo_goes h hp
  rw [writeBehindHdr_info h.infoOk]
  rw [← hbuf] at hsome
  rcases hcases with ⟨hdrop, hinfo⟩ | ⟨e, todo', rfl, hdata⟩
  · rw [hdrop, writeEntry_nil]
    exact Goes.stay hd hsome (.info hinfo)
  · by_cases hmore : pkt.drop (nvrUpdateWriteHdrInfo u pkt).1 = []
    · rw [hmore, List.nil_append] at hdata
      rw [hmore, writeEntry_nil]
      exact Goes.stay hd hsome (.data hdata)
    · refine Goes.after hd (writeEntry_goes hflash hdata hlength hp (hfit.mono ?_) hmore)
      rw [List.length_drop]
      omega

/-- `nvr_update_first_packet`. -/
theorem nvrUpdateFirstPacket_goes (hH : H.length = upgradeFileHdrLen)
    (hmagic : wordAt H 0 = updateFileHdrMagic) (h : AwaitsHdr H u todo (pkt ++ rest)) :
    ∃ n, (nvrUpdateFirstPacket u pkt).1 = some n ∧
      Delivered u (nvrUpdateFirstPacket u pkt).2 [] ∧
      (nvrUpdateFirstPacket u pkt).2.updataBuf = u.updataBuf ∧
      (pkt.drop n = [] ∧ AwaitsHdr H (nvrUpdateFirstPacket u pkt).2 todo rest ∨
        AwaitsInfo (nvrUpdateFirstPacket u pkt).2 todo (pkt.drop n ++ rest)) := by
  have hlt := h.lt
  have hlength := h.hdrLength
  unfold nvrUpdateFirstPacket
  dsimp only
  generalize hn : min pkt.length (upgradeFileHdrLen - u.lastFileHdrLen) = n
  have hmore := h.collected.more (n := n) (by omega)
  have hpiece : (pkt.take n).length = n := by
    rw [List.length_take]
    omega
  have hpatch : (patch u.fileHdr u.lastFileHdrLen (pkt.take n)).length = upgradeFileHdrLen := by
    rw [length_patch (by omega), hlength]
  split
  · rename_i hpart
    have hdrop : pkt.drop n = [] := List.drop_eq_nil_of_le (by omega)
    rw [hdrop, List.nil_append] at hmore
    exact ⟨n, rfl, Delivered.nil rfl rfl, rfl, .inl ⟨hdrop, h.hdrOk, h.infoOk, h.infoLen,
      by show u.lastFileHdrLen + n < _; omega, hpatch, h.infoLength, hmore⟩⟩
  · rename_i hfull
    have hend : u.lastFileHdrLen + n = upgradeFileHdrLen := not_not.1 hfull
    obtain ⟨htake, hnext⟩ := hmore.full (by rw [hend, hH])
    rw [hend, ← hpatch, List.take_length] at htake
    rw [htake, hmagic, if_neg (not_not_intro rfl)]
    refine ⟨n, rfl, Delivered.nil rfl rfl, rfl, .inr ⟨rfl, h.infoOk, ?_, h.infoLength, ?_⟩⟩
    · show u.lastFileInfoLen < _
      rw [h.infoLen]
      decide
    · show Collected u.fileInfo u.lastFileInfoLen _ _
      rw [h.infoLen, hnext]
      exact collected_zero _ _

/-- In the header with nothing left of the packet. -/
theorem writeBehindHdr_nil (hsome : u.updataBuf.isSome) (h : AwaitsHdr H u todo rest) :
    Goes H u (writeBehindHdr env u []).2 todo rest := by
  have hfalse := h.infoOk
  have hpatch : patch u.fileInfo 0 ([] : List UInt8) = u.fileInfo := by simp [patch]
  have hsame : nvrUpdateWriteHdrInfo u [] = (0, u) := by
    unfold nvrUpdateWriteHdrInfo
    rw [h.infoLen]
    simp only [List.length_nil, Nat.zero_min, List.take_nil, hpatch]
    rw [if_pos (by decide), Nat.add_zero]
    refine Prod.ext rfl ?_
    dsimp only
    rw [← h.infoLen]
  rw [writeBehindHdr_info hfalse, List.drop_nil, writeEntry_nil, hsame]
  exact Goes.stay (Delivered.nil rfl rfl) hsome (.hdr h)

/-- A packet behind the first. -/
theorem nvrUpdateWriteData_goes (hflash : ∀ n, env.flashOk n = true)
    (hH : H.length = upgradeFileHdrLen) (hmagic : wordAt H 0 = updateFileHdrMagic)
    (hsome : u.updataBuf.isSome) (h : Awaits H u todo (pkt ++ rest)) (hp : Packed todo)
    (hfit : Fits todo pkt) (hne : pkt ≠ []) {nPackNo : Nat} (hno : nPackNo ≠ 0) :
    Goes H u (nvrUpdateWriteData env u pkt nPackNo).2 todo rest := by
  unfold nvrUpdateWriteData
  rw [if_neg hno]
  dsimp only
  cases h with
  | hdr h =>
      have hfalse := h.hdrOk
      obtain ⟨n, hn, hd, hbuf, hcases⟩ := nvrUpdateFirstPacket_goes hH hmagic h
      rw [← hbuf] at hsome
      rw [if_neg (by rw [hfalse]; exact Bool.false_ne_true), hn]
      dsimp only
      rcases hcases with ⟨hdrop, hhdr⟩ | hinfo
      · rw [hdrop]
        exact Goes.after hd (writeBehindHdr_nil hsome hhdr)
      · refine Goes.after hd (writeInfo_goes hflash hsome hinfo hp (hfit.mono ?_))
        rw [List.length_drop]
        omega
  | info h =>
      rw [if_pos h.hdrOk]
      exact writeInfo_goes hflash hsome h hp hfit
  | data h =>
      rename_i e todo
      rw [if_pos h.hdrOk]
      have hinfoLen : u.fileInfo.length = upgradeFileInfoLen := by
        rw [h.info, e.length_info]
      rw [writeBehindHdr_data h.infoOk]
      exact writeEntry_goes hflash h hinfoLen hp hfit hne

end Receive

/-! ## All the packets -/

section Feed

variable {H : List UInt8} {env : Env} {u : Updater} {todo : List Entry}

/-- Where nothing is left to come, no entry is. -/
theorem Awaits.nil (hH : H.length = upgradeFileHdrLen) (h : Awaits H u todo []) (hp : Packed todo) :
    todo = [] := by
  cases h with
  | hdr h =>
      exfalso
      have hlt := h.lt
      have hend := h.collected.left
      rw [List.drop_eq_nil_iff, List.length_append] at hend
      omega
  | info h =>
      have hlt := h.lt
      have hend := h.collected.left
      rw [List.drop_eq_nil_iff] at hend
      cases todo with
      | nil => rfl
      | cons e todo =>
          exfalso
          rw [hp.bytesOf_cons, List.length_append, e.length_info] at hend
          omega
  | data h =>
      exfalso
      have hlt := h.lt
      have hend := h.collected.left
      rw [List.drop_eq_nil_iff, List.length_append] at hend
      omega

/-- A packet after the first, as `nvr_update_write` is given it. -/
theorem nvrUpdateWrite_eq (hsome : u.updataBuf.isSome) {pkt : List UInt8} (hne : pkt ≠ [])
    (nPackNo : Nat) : nvrUpdateWrite env u pkt nPackNo = nvrUpdateWriteData env u pkt nPackNo := by
  obtain ⟨buf, hbuf⟩ := Option.isSome_iff_exists.1 hsome
  unfold nvrUpdateWrite
  rw [hbuf]
  simp [hne, hbuf]

theorem feed_goes (hflash : ∀ n, env.flashOk n = true) (hH : H.length = upgradeFileHdrLen)
    (hmagic : wordAt H 0 = updateFileHdrMagic) {pkts : List (List UInt8)} :
    ∀ {nPackNo : Nat} {u : Updater} {todo : List Entry}, nPackNo ≠ 0 → u.updataBuf.isSome →
      Awaits H u todo pkts.flatten → Packed todo → (∀ p ∈ pkts, p ≠ []) →
      (∀ p ∈ pkts, Fits todo p) → Delivered u (feed env nPackNo u pkts) todo := by
  induction pkts with
  | nil =>
      intro nPackNo u todo _ _ h hp _ _
      obtain rfl := h.nil hH hp
      exact Delivered.nil rfl rfl
  | cons pkt pkts ih =>
      intro nPackNo u todo hno hsome h hp hne hfit
      have hpkt := hne pkt (List.mem_cons_self ..)
      rw [List.flatten_cons] at h
      obtain ⟨done, left, rfl, hd, hsome', hplace⟩ := nvrUpdateWriteData_goes hflash hH hmagic hsome
        h hp (hfit pkt (List.mem_cons_self ..)) hpkt hno
      rw [← nvrUpdateWrite_eq hsome hpkt] at hd hsome' hplace
      have hleft := hp.append_right
      refine hd.trans ?_
      rcases hplace with hplace | ⟨rfl, hend⟩
      · exact ih (Nat.succ_ne_zero _) hsome' hplace hleft
          (fun p h => hne p (List.mem_cons_of_mem _ h)) fun p h e he =>
            hfit p (List.mem_cons_of_mem _ h) e (List.mem_append_right _ he)
      · have hnone : pkts = [] := by
          cases pkts with
          | nil => rfl
          | cons p pkts =>
              rw [List.flatten_cons] at hend
              exact absurd (List.append_eq_nil_iff.1 hend).1
                (hne p (List.mem_cons_of_mem _ (List.mem_cons_self ..)))
        subst hnone
        exact Delivered.nil rfl rfl

/-- Of the numbers only 0 means something. -/
theorem feed_no {pkts : List (List UInt8)} : ∀ {m n : Nat} {u : Updater}, m ≠ 0 → n ≠ 0 →
    feed env m u pkts = feed env n u pkts := by
  induction pkts with
  | nil => exact fun _ _ => rfl
  | cons pkt pkts ih =>
      intro m n u hm hn
      have hwrite : nvrUpdateWrite env u pkt m = nvrUpdateWrite env u pkt n := by
        unfold nvrUpdateWrite nvrUpdateWriteData
        simp only [hm, hn, false_and, and_false, if_false]
      rw [feed, feed, hwrite]
      exact ih (Nat.succ_ne_zero m) (Nat.succ_ne_zero n)

/-- The first packet, which begins the upgrade. -/
theorem nvrUpdateWrite_first (hbegins : env.begins = true) {pkt : List UInt8} (hne : pkt ≠ []) :
    ∃ u' : Updater, u'.updataBuf.isSome ∧ u'.calls = u.calls ∧ u'.flash = u.flash ∧
      nvrUpdateWrite env u pkt 0 = nvrUpdateWriteData env u'.cleared pkt 1 := by
  cases hbuf : u.updataBuf with
  | none =>
      refine ⟨{ u with updataBuf := some [], updateOff := 0 }, rfl, rfl, rfl, ?_⟩
      unfold nvrUpdateWrite
      simp [hbuf, hbegins, hne]
      rfl
  | some buf =>
      refine ⟨u, by rw [hbuf]; rfl, rfl, rfl, ?_⟩
      rw [nvrUpdateWrite_eq (by rw [hbuf]; rfl) hne]
      rfl

theorem awaits_cleared (todo : List Entry) :
    Awaits H u.cleared todo (H ++ bytesOf todo) :=
  .hdr ⟨rfl, rfl, rfl, Nat.zero_lt_succ 47, List.length_replicate, List.length_replicate,
    collected_zero _ _⟩

end Feed

/-- Every entry is written once, in the order of the file and with its own bytes,
however the file is cut; and the entries of a filesys image are its parts. Of
the entries only the last may be one that is refused. -/
theorem upgrade_roundTrip {env : Env} {u : Updater} {ps : List PacketObj}
    {pkts : List (List UInt8)} (hbegins : env.begins = true)
    (hflash : ∀ n, env.flashOk n = true) (hcut : pkts.flatten = updateFile ps)
    (hne : ∀ p ∈ pkts, p ≠ [])
    (hfit : ∀ e ∈ entries ps, ∀ p ∈ pkts, e.dat.length + p.length ≤ nvrMaxUpdateBuf)
    (haccepted : ∀ e ∈ (entries ps).dropLast, e.accepted = true)
    (hint : ∀ p ∈ ps, p.packetType = .filesys →
      0 ≤ p.offset.toInt ∧ p.offset.toInt + p.image.length < 2 ^ 31) :
    (feed env 0 u pkts).calls = u.calls ++ (entries ps).map Entry.dat ∧
      (feed env 0 u pkts).flash = (entries ps).foldl Entry.installed u.flash ∧
      ∀ p ∈ ps, p.packetType = .filesys → Partition p (processFileSysPacket p) := by
  obtain ⟨H, hH, hmagic, hfile⟩ := updateFile_eq ps
  have hpos : 0 < upgradeFileHdrLen := by decide
  cases pkts with
  | nil =>
      exfalso
      rw [hfile] at hcut
      have hlen := congrArg List.length hcut
      rw [List.length_append] at hlen
      simp only [List.flatten_nil, List.length_nil] at hlen
      omega
  | cons pkt pkts =>
      have hpkt := hne pkt (List.mem_cons_self ..)
      have hmax : nvrMaxUpdateBuf < 2 ^ 31 := by decide
      have hp : Packed (entries ps) := by
        refine ⟨fun e he => entries_proper he, fun e he => ?_, haccepted⟩
        have hle := hfit e he pkt (List.mem_cons_self ..)
        omega
      obtain ⟨u', hsome, hcalls, hflash', hfirst⟩ := nvrUpdateWrite_first (u := u) hbegins hpkt
      have hplace := awaits_cleared (H := H) (u := u') (entries ps)
      rw [show H ++ bytesOf (entries ps) = (pkt :: pkts).flatten from (hcut.trans hfile).symm]
        at hplace
      have hfeed : feed env 0 u (pkt :: pkts) = feed env 1 u'.cleared (pkt :: pkts) := by
        rw [feed, hfirst, feed, nvrUpdateWrite_eq (show u'.cleared.updataBuf.isSome from hsome) hpkt]
        exact feed_no Nat.one_ne_zero (Nat.succ_ne_zero 1)
      have hd := feed_goes hflash hH hmagic Nat.one_ne_zero
        (show u'.cleared.updataBuf.isSome from hsome) hplace hp hne fun p h e he => hfit e he p h
      rw [hfeed]
      refine ⟨?_, ?_, fun p h htype => ?_⟩
      · rw [hd.calls]
        exact congrArg (· ++ _) hcalls
      · rw [hd.flash]
        exact congrArg (fun f => (entries ps).foldl Entry.installed f) hflash'
      · obtain ⟨h0, hlt⟩ := hint p h htype
        exact processFileSysPacket_partition h0 hlt

/-! ## Two small upgrades -/

def fileName (c : UInt8) : FileName := ⟨[c], by simp⟩

/-- A kernel of three bytes and a filesys of two. -/
def smallUpgrade : List PacketObj :=
  [⟨fileName 107, .kernel, 0, 0, [1, 2, 3]⟩, ⟨fileName 102, .filesys, 16, 0, [4, 5]⟩]

/-- Cut in the header, in the record of the first entry and in the second entry. -/
def smallPackets : List (List UInt8) :=
  [(updateFile smallUpgrade).take 30, ((updateFile smallUpgrade).drop 30).take 100,
    ((updateFile smallUpgrade).drop 130).take 460, (updateFile smallUpgrade).drop 590]

/-- A recorder on which nothing was upgraded. -/
def Updater.fresh : Updater where
  updataBuf := none
  updateOff := 0
  fileHdr := []
  fileInfo := []
  lastFileHdrOk := false
  lastFileHdrLen := 0
  lastFileInfoOk := false
  lastFileInfoLen := 0
  flash := ⟨fun _ => 0, fun _ => 0, []⟩
  calls := []

def Env.good : Env := ⟨fun _ => true, true⟩

theorem upgrade_roundTrip_small :
    (feed .good 0 .fresh smallPackets).calls = [] ++ (entries smallUpgrade).map Entry.dat ∧
      (feed .good 0 .fresh smallPackets).flash =
        (entries smallUpgrade).foldl Entry.installed Updater.fresh.flash ∧
      ∀ p ∈ smallUpgrade, p.packetType = .filesys → Partition p (processFileSysPacket p) :=
  upgrade_roundTrip rfl (fun _ => rfl) (by decide +kernel) (by decide +kernel)
    (by decide +kernel) (by decide +kernel) (by decide +kernel)

/-- A logo of one byte before a kernel, in one packet. -/
def shortLogo : List PacketObj :=
  [⟨fileName 108, .logo, 0, 0, [1]⟩, ⟨fileName 107, .kernel, 0, 0, [1, 2, 3]⟩]

/-- A filesys image whose length is no `int`. -/
def hugeFilesys : PacketObj := ⟨fileName 102, .filesys, 0, 0, List.replicate (2 ^ 31) 0⟩

theorem processFileSysPacket_huge : processFileSysPacket hugeFilesys = [] := by
  have hlen : hugeFilesys.image.length = 2 ^ 31 := List.length_replicate
  have hsize : (Int32.ofNat (2 ^ 31)).toInt.toNat = 0 := by decide
  unfold processFileSysPacket
  dsimp only
  rw [hlen, hsize, List.take_zero]
  show filesysPackets hugeFilesys (2147483647 + 1) hugeFilesys.offset [] = []
  rw [filesysPackets, if_pos rfl]

/-- A logo that is refused stops the upgrade, and an image can be too long for
the tool. -/
theorem not_upgrade_roundTrip :
    (¬∀ (env : Env) (u : Updater) (ps : List PacketObj) (pkts : List (List UInt8)),
      env.begins = true → (∀ n, env.flashOk n = true) → pkts.flatten = updateFile ps →
      (∀ p ∈ pkts, p ≠ []) →
      (∀ e ∈ entries ps, ∀ p ∈ pkts, e.dat.length + p.length ≤ nvrMaxUpdateBuf) →
      (feed env 0 u pkts).calls = u.calls ++ (entries ps).map Entry.dat) ∧
    ¬∀ p : PacketObj, p.packetType = .filesys → Partition p (processFileSysPacket p) := by
  constructor
  · intro h
    have hcalls := h .good .fresh shortLogo [updateFile shortLogo] rfl (fun _ => rfl)
      (by decide +kernel) (by decide +kernel) (by decide +kernel)
    have hlen := congrArg List.length hcalls
    revert hlen
    decide +kernel
  · intro h
    have hwhole := congrArg List.length (h hugeFilesys rfl).whole
    rw [processFileSysPacket_huge] at hwhole
    have hlen : hugeFilesys.image.length = 2 ^ 31 := List.length_replicate
    rw [hlen] at hwhole
    simp at hwhole

end Nvr.Update
