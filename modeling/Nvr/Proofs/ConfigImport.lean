import Nvr.Server.ParamImport

/-!
# Importing an exported configuration

An import copies as many bytes as the header of the file says. A file whose header
is in order and whose checksum is right (`Sealed`) is taken, whatever its version
and length are; every other file is refused, and leaves all as it was. So an import
is all or nothing exactly for the files that, if they are sealed, have the
version and the length that an export writes. What was exported is imported again
whole.
-/

namespace Nvr.Server

open WordRecord

/-- The header of a file. -/
def headOf (file : List UInt8) : ExportHead := ExportHead.ofBytes (file.take exportHeadLen)

/-- The parameters that the header announces. -/
def paramOf (file : List UInt8) : List UInt8 :=
  (file.drop exportHeadLen).take (headOf file).u32Length.toNat

/-- The header is complete and in order, the parameters it announces are there, and they have
its checksum. -/
structure Sealed (md5 : Md5) (file : List UInt8) : Prop where
  header : exportHeadLen ≤ file.length
  magic : (headOf file).u32Magic = exportHeadMagic
  nonempty : (headOf file).u32Length ≠ 0
  small : (headOf file).u32Length ≤ 0x1000000
  complete : (headOf file).u32Length.toNat ≤ (file.drop exportHeadLen).length
  checksum : md5.sum (paramOf file) = some (cString (headOf file).szMd5Sum)

/-- One configuration with the network settings of another. -/
def withNetCfg (a b : SysInfo) : List UInt8 :=
  a.bytes.take netCfgOft ++ (b.bytes.drop netCfgOft).take netCfgLen ++
    a.bytes.drop (netCfgOft + netCfgLen)

/-- Importing is all or nothing. -/
structure AllOrNothing (md5 : Md5) (file : Option (List UInt8)) (mem : ByteFile) : Prop where
  refused : (nvrParamImport md5 file mem).ret ≠ 0 →
    sysInfoOf (nvrParamImport md5 file mem).mem = sysInfoOf mem
  taken : (nvrParamImport md5 file mem).ret = 0 → ∃ f, file = some f ∧
    (headOf f).u32Version = 1 ∧ (headOf f).u32Length.toNat = sizeofSysInfo ∧
    (headOf f).u32Length.toNat ≤ (f.drop exportHeadLen).length ∧
    md5.sum (paramOf f) = some (cString (headOf f).szMd5Sum)
  inside : (nvrParamImport md5 file mem).compared ≤ sizeofSysInfo ∧
    (nvrParamImport md5 file mem).written ≤ sizeofSysInfo ∧
    ∀ p, sizeofSysInfo ≤ p → (nvrParamImport md5 file mem).mem p = mem p
  roundTrip : ∀ (a : SysInfo) (io : ExportIo) (f : List UInt8) (memB : ByteFile),
    nvrParamExport md5 io a = (0, some f) →
      (nvrParamImport md5 (some f) memB).ret = 0 ∧
      (sysInfoOf (nvrParamImport md5 (some f) memB).mem).bytes = withNetCfg a (sysInfoOf memB)

variable {md5 : Md5} {file : List UInt8} {mem : ByteFile}

/-! ## What is taken -/

theorem nvrParamImport_some (md5 : Md5) (file : List UInt8) (mem : ByteFile) :
    nvrParamImport md5 (some file) mem =
      if file.length < exportHeadLen then refuse mem
      else if (headOf file).u32Magic ≠ exportHeadMagic ∨ 0x1000000 < (headOf file).u32Length then
        refuse mem
      else if (headOf file).u32Length = 0 ∨
          (file.drop exportHeadLen).length < (headOf file).u32Length.toNat then refuse mem
      else
        match md5.sum (paramOf file) with
        | none => refuse mem
        | some sum =>
            if sum ≠ cString (headOf file).szMd5Sum then refuse mem
            else takeParam (paramOf file) mem := rfl

theorem nvrParamImport_sealed (h : Sealed md5 file) :
    nvrParamImport md5 (some file) mem = takeParam (paramOf file) mem := by
  have hheader := Nat.not_lt.2 h.header
  have hcomplete := Nat.not_lt.2 h.complete
  have hsmall : ¬ (0x1000000 < (headOf file).u32Length) := UInt32.not_lt.2 h.small
  rw [nvrParamImport_some, if_neg hheader,
    if_neg (fun hbad => hbad.elim (fun hne => hne h.magic) hsmall),
    if_neg (fun hbad => hbad.elim h.nonempty hcomplete), h.checksum]
  exact if_neg fun hne => hne rfl

theorem nvrParamImport_not_sealed (h : ¬ Sealed md5 file) :
    nvrParamImport md5 (some file) mem = refuse mem := by
  rw [nvrParamImport_some]
  by_cases hheader : file.length < exportHeadLen
  · rw [if_pos hheader]
  rw [if_neg hheader]
  by_cases hmagic : (headOf file).u32Magic ≠ exportHeadMagic ∨
      0x1000000 < (headOf file).u32Length
  · exact if_pos hmagic
  obtain ⟨hm, hsmall⟩ := not_or.1 hmagic
  rw [if_neg hmagic]
  by_cases hcomplete : (headOf file).u32Length = 0 ∨
      (file.drop exportHeadLen).length < (headOf file).u32Length.toNat
  · exact if_pos hcomplete
  obtain ⟨hnonempty, hlen⟩ := not_or.1 hcomplete
  rw [if_neg hcomplete]
  cases hsum : md5.sum (paramOf file) with
  | none => rfl
  | some sum =>
      refine if_pos fun heq => h ?_
      exact ⟨Nat.not_lt.1 hheader, not_not.1 hm, hnonempty, UInt32.not_lt.1 hsmall,
        Nat.not_lt.1 hlen, heq ▸ hsum⟩

/-- The files that are taken are those that are sealed. -/
theorem nvrParamImport_ret_iff :
    (nvrParamImport md5 (some file) mem).ret = 0 ↔ Sealed md5 file := by
  by_cases h : Sealed md5 file
  · rw [nvrParamImport_sealed h]
    refine iff_of_true ?_ h
    unfold takeParam
    split <;> rfl
  · rw [nvrParamImport_not_sealed h]
    exact iff_of_false (fun hret => by cases hret) h

theorem takeParam_compared (pParam : List UInt8) (mem : ByteFile) :
    (takeParam pParam mem).compared = pParam.length := by
  unfold takeParam
  split <;> rfl

/-- Parameters of the size of the configuration stay inside it. -/
theorem takeParam_inside {pParam : List UInt8} (hlen : pParam.length = sizeofSysInfo)
    (mem : ByteFile) :
    (takeParam pParam mem).written ≤ sizeofSysInfo ∧
      ∀ p, sizeofSysInfo ≤ p → (takeParam pParam mem).mem p = mem p := by
  unfold takeParam
  split
  · refine ⟨?_, fun p hp => ?_⟩
    · show max pParam.length (netCfgOft + netCfgLen) ≤ sizeofSysInfo
      rw [hlen]
      decide
    · have hnet : netCfgOft + netCfgLen ≤ sizeofSysInfo := by decide
      show ((mem.write 0 pParam).write netCfgOft (mem.read netCfgOft netCfgLen)) p = mem p
      rw [ByteFile.write_apply_of_not, ByteFile.write_apply_of_not]
      · omega
      · rw [ByteFile.length_read]
        omega
  · exact ⟨Nat.zero_le _, fun _ _ => rfl⟩

/-! ## The round trip -/

theorem length_strlcpy {stack src : List UInt8} (h : 0 < stack.length) :
    (strlcpy stack src).length = stack.length := by
  unfold strlcpy
  simp only [List.length_append, List.length_take, List.length_drop, List.length_singleton]
  omega

theorem cString_strlcpy {stack src : List UInt8} (hlen : src.length < stack.length)
    (hnul : ∀ c ∈ src, c ≠ 0) : cString (strlcpy stack src) = src := by
  have htake : src.take (stack.length - 1) = src := List.take_of_length_le (by omega)
  unfold strlcpy cString
  rw [htake, List.append_assoc]
  rw [List.takeWhile_append_of_pos (fun c hc => by simpa using hnul c hc)]
  simp

theorem ExportHead.ofBytes_bytes (h : ExportHead) (hlen : h.szMd5Sum.length = md5SumLen) :
    ExportHead.ofBytes h.bytes = h := by
  have hwords : (wordsBytes [h.u32Magic, h.u32Version, h.u32Length]).length = 12 :=
    length_wordsBytes _
  have htake : h.bytes.take 12 = wordsBytes [h.u32Magic, h.u32Version, h.u32Length] := by
    rw [ExportHead.bytes, ← hwords, List.take_left]
  have hdrop : h.bytes.drop 12 = h.szMd5Sum := by
    rw [ExportHead.bytes, ← hwords, List.drop_left]
  rw [ExportHead.ofBytes, htake, hdrop, bytesWords_wordsBytes, ← hlen, List.take_length]
  rfl

/-- A header in front of anything is read back. -/
theorem headOf_append (h : ExportHead) (hlen : h.szMd5Sum.length = md5SumLen)
    (rest : List UInt8) :
    headOf (h.bytes ++ rest) = h ∧ (h.bytes ++ rest).drop exportHeadLen = rest ∧
      exportHeadLen ≤ (h.bytes ++ rest).length := by
  have hbytes : h.bytes.length = exportHeadLen := by
    rw [ExportHead.bytes, List.length_append, length_wordsBytes, hlen]
    rfl
  refine ⟨?_, ?_, ?_⟩
  · rw [headOf, ← hbytes, List.take_left, ExportHead.ofBytes_bytes _ hlen]
  · rw [← hbytes, List.drop_left]
  · rw [List.length_append, hbytes]
    exact Nat.le_add_right _ _

section RoundTrip

variable {io : ExportIo} {a : SysInfo} {f : List UInt8}

/-- The file that an export writes. -/
theorem exported (h : nvrParamExport md5 io a = (0, some f)) :
    ∃ sum, md5.sum a.bytes = some sum ∧ f = (exportHead sum io.stack).bytes ++ a.bytes := by
  unfold nvrParamExport at h
  cases hsum : md5.sum a.bytes with
  | none =>
      rw [hsum] at h
      cases h
  | some sum =>
      rw [hsum] at h
      simp only at h
      split at h
      · cases h
      · split at h
        · cases h
        · exact ⟨sum, rfl, (Option.some.inj (Prod.mk.inj h).2).symm⟩

/-- What is exported is sealed, and its parameters are the configuration. -/
theorem sealed_exported (h : nvrParamExport md5 io a = (0, some f)) :
    Sealed md5 f ∧ paramOf f = a.bytes := by
  obtain ⟨sum, hsum, rfl⟩ := exported h
  have hmd5 : (exportHead sum io.stack).szMd5Sum.length = md5SumLen := by
    rw [← io.length_stack]
    exact length_strlcpy (by rw [io.length_stack]; decide)
  obtain ⟨hhead, hdrop, hheader⟩ := headOf_append (exportHead sum io.stack) hmd5 a.bytes
  have hsize : (UInt32.ofNat sizeofSysInfo).toNat = a.bytes.length := a.length_bytes.symm
  have hparam : paramOf ((exportHead sum io.stack).bytes ++ a.bytes) = a.bytes := by
    rw [paramOf, hdrop, hhead]
    show a.bytes.take (UInt32.ofNat sizeofSysInfo).toNat = a.bytes
    rw [hsize, List.take_length]
  refine ⟨⟨hheader, ?_, ?_, ?_, ?_, ?_⟩, hparam⟩
  · rw [hhead]
    rfl
  · rw [hhead]
    show UInt32.ofNat sizeofSysInfo ≠ 0
    decide
  · rw [hhead]
    show UInt32.ofNat sizeofSysInfo ≤ 0x1000000
    decide
  · rw [hhead, hdrop]
    exact Nat.le_of_eq hsize
  · rw [hparam, hhead, hsum]
    have hstring : cString (strlcpy io.stack sum) = sum := by
      refine cString_strlcpy ?_ (md5.no_nul hsum)
      rw [md5.length_sum hsum, io.length_stack]
      decide
    exact congrArg some hstring.symm

theorem drop_take_read (f : ByteFile) {len i n : Nat} (h : i + n ≤ len) :
    ((f.read 0 len).drop i).take n = f.read i n := by
  obtain ⟨rest, rfl⟩ := Nat.exists_eq_add_of_le h
  have hi : (f.read 0 i).length = i := ByteFile.length_read f 0 i
  have hn : (f.read i n).length = n := ByteFile.length_read f i n
  rw [Nat.add_assoc, ByteFile.read_append, ByteFile.read_append, Nat.zero_add,
    List.drop_append_of_le_length (Nat.le_of_eq hi.symm), List.drop_eq_nil_of_le (Nat.le_of_eq hi),
    List.nil_append, List.take_append_of_le_length (Nat.le_of_eq hn.symm),
    List.take_of_length_le (Nat.le_of_eq hn)]

/-- After the parameters are copied and the network settings put back, the memory has the
one with the other. -/
theorem takeParam_sysInfo (a : SysInfo) (mem : ByteFile) :
    (sysInfoOf (takeParam a.bytes mem).mem).bytes = withNetCfg a (sysInfoOf mem) := by
  have hlen := a.length_bytes
  have hnet : netCfgOft + netCfgLen ≤ sizeofSysInfo := by decide
  have hsplit : a.bytes.take netCfgOft ++ (a.bytes.drop netCfgOft).take netCfgLen ++
      a.bytes.drop (netCfgOft + netCfgLen) = a.bytes := by
    rw [List.append_assoc, ← List.drop_drop, List.take_append_drop, List.take_append_drop]
  have hkept : ((sysInfoOf mem).bytes.drop netCfgOft).take netCfgLen =
      mem.read netCfgOft netCfgLen := drop_take_read mem hnet
  unfold takeParam
  by_cases hsame : mem.read 0 a.bytes.length = a.bytes
  · rw [if_neg (not_not.2 hsame)]
    have hbytes : (sysInfoOf mem).bytes = a.bytes := by
      rw [← hsame, hlen]
      rfl
    rw [withNetCfg, hbytes, hsplit]
  · rw [if_pos hsame]
    have hfront : (a.bytes.take netCfgOft).length = netCfgOft := by
      rw [List.length_take]
      omega
    have hmid : ((a.bytes.drop netCfgOft).take netCfgLen).length = netCfgLen := by
      rw [List.length_take, List.length_drop]
      omega
    have hread : (mem.read netCfgOft netCfgLen).length = netCfgLen := ByteFile.length_read _ _ _
    have hcopied := ByteFile.holds_write mem 0 a.bytes
    rw [← hsplit, ByteFile.holds_append, ByteFile.holds_append, hsplit] at hcopied
    rw [List.length_append, hfront, hmid, Nat.zero_add, Nat.zero_add] at hcopied
    obtain ⟨⟨hleft, -⟩, hright⟩ := hcopied
    have hleft' := @ByteFile.Holds.write_apart _ _ netCfgOft _ (mem.read netCfgOft netCfgLen) hleft
      (.inl (by omega))
    have hright' := @ByteFile.Holds.write_apart _ _ netCfgOft _ (mem.read netCfgOft netCfgLen) hright
      (.inr (by omega))
    have hput := ByteFile.holds_write (mem.write 0 a.bytes) netCfgOft
      (mem.read netCfgOft netCfgLen)
    have hall : ByteFile.Holds ((mem.write 0 a.bytes).write netCfgOft
        (mem.read netCfgOft netCfgLen)) 0 (withNetCfg a (sysInfoOf mem)) := by
      rw [withNetCfg, hkept, ByteFile.holds_append, ByteFile.holds_append, List.length_append,
        hfront, hread, Nat.zero_add, Nat.zero_add]
      exact ⟨⟨hleft', hput⟩, hright'⟩
    refine hall.read_eq ?_
    rw [withNetCfg, hkept, List.length_append, List.length_append, hfront, hread,
      List.length_drop]
    omega

end RoundTrip

/-- An import is all or nothing just for the files that, if they are sealed, have the
version and the length of an exported one. -/
theorem allOrNothing_iff (md5 : Md5) (file : Option (List UInt8)) (mem : ByteFile) :
    AllOrNothing md5 file mem ↔ ∀ f, file = some f → Sealed md5 f →
      (headOf f).u32Version = 1 ∧ (headOf f).u32Length.toNat = sizeofSysInfo := by
  constructor
  · rintro h f rfl hsealed
    obtain ⟨f', hf, hversion, hlength, -⟩ := h.taken (nvrParamImport_ret_iff.2 hsealed)
    obtain rfl := Option.some.inj hf
    exact ⟨hversion, hlength⟩
  · intro h
    have hround : ∀ (a : SysInfo) (io : ExportIo) (f : List UInt8) (memB : ByteFile),
        nvrParamExport md5 io a = (0, some f) →
          (nvrParamImport md5 (some f) memB).ret = 0 ∧
          (sysInfoOf (nvrParamImport md5 (some f) memB).mem).bytes =
            withNetCfg a (sysInfoOf memB) := by
      intro a io f memB hexport
      obtain ⟨hsealed, hparam⟩ := sealed_exported hexport
      refine ⟨nvrParamImport_ret_iff.2 hsealed, ?_⟩
      rw [nvrParamImport_sealed hsealed, hparam, takeParam_sysInfo]
    have hrefused : nvrParamImport md5 file mem = refuse mem → AllOrNothing md5 file mem := by
      intro hrefuse
      refine ⟨fun _ => by rw [hrefuse]; rfl, fun hret => ?_, ?_, hround⟩
      · rw [hrefuse] at hret
        cases hret
      · rw [hrefuse]
        exact ⟨Nat.zero_le _, Nat.zero_le _, fun _ _ => rfl⟩
    cases file with
    | none => exact hrefused rfl
    | some f =>
        by_cases hsealed : Sealed md5 f
        · obtain ⟨hversion, hlength⟩ := h f rfl hsealed
          have hparam : (paramOf f).length = sizeofSysInfo := by
            have hcomplete := hsealed.complete
            rw [paramOf, List.length_take]
            omega
          have htaken : nvrParamImport md5 (some f) mem = takeParam (paramOf f) mem :=
            nvrParamImport_sealed hsealed
          refine ⟨fun hret => absurd (nvrParamImport_ret_iff.2 hsealed) hret,
            fun _ => ⟨f, rfl, hversion, hlength, hsealed.complete, hsealed.checksum⟩, ?_, hround⟩
          obtain ⟨hwritten, hbehind⟩ := takeParam_inside hparam mem
          rw [htaken, takeParam_compared, hparam]
          exact ⟨Nat.le_refl _, hwritten, hbehind⟩
        · exact hrefused (nvrParamImport_not_sealed hsealed)

/-! ## A file of one byte -/

/-- The checksum of one byte 0, `93b885adfe0da089cdf634904fd59f71`. -/
def sumOfZero : List UInt8 :=
  [57, 51, 98, 56, 56, 53, 97, 100, 102, 101, 48, 100, 97, 48, 56, 57,
    99, 100, 102, 54, 51, 52, 57, 48, 52, 102, 100, 53, 57, 102, 55, 49]

/-- A function that agrees with MD5 on that byte. -/
def md5OfZero : Md5 where
  sum data := some (if data = [0] then sumOfZero else List.replicate 32 48)
  length_sum := by
    intro data s hs
    obtain rfl := Option.some.inj hs
    split <;> rfl
  no_nul := by
    intro data s hs c hc
    obtain rfl := Option.some.inj hs
    split at hc
    · rintro rfl
      exact absurd hc (by decide)
    · rw [List.eq_of_mem_replicate hc]
      decide

/-- The header of a file whose parameters are that byte. -/
def headOfZero : ExportHead where
  u32Magic := exportHeadMagic
  u32Version := 1
  u32Length := 1
  szMd5Sum := sumOfZero ++ List.replicate 96 0

/-- That file is taken, and the first byte of the configuration is overwritten. -/
theorem not_allOrNothing :
    ¬ ∀ (md5 : Md5) (file : Option (List UInt8)) (mem : ByteFile), AllOrNothing md5 file mem := by
  intro h
  obtain ⟨hhead, hdrop, hheader⟩ := headOf_append headOfZero rfl [0]
  have hparam : paramOf (headOfZero.bytes ++ [0]) = [0] := by
    rw [paramOf, hdrop, hhead]
    rfl
  have hsealed : Sealed md5OfZero (headOfZero.bytes ++ [0]) := by
    refine ⟨hheader, ?_, ?_, ?_, ?_, ?_⟩
    · rw [hhead]
      rfl
    · rw [hhead]
      decide
    · rw [hhead]
      decide
    · rw [hhead, hdrop]
      decide
    · rw [hparam, hhead]
      decide
  obtain ⟨f, hf, -, hlen, -⟩ := (h md5OfZero (some (headOfZero.bytes ++ [0]))
    (fun _ => 255)).taken (nvrParamImport_ret_iff.2 hsealed)
  obtain rfl := Option.some.inj hf
  rw [hhead] at hlen
  exact absurd hlen (by decide)

end Nvr.Server
