import Mathlib.Logic.Relation
import Mathlib.Data.List.GetD
import Nvr.Server.ParamSys

/-!
# A save that is cut short

What the two files hold when the power goes during a save is a `Cut`: the main
file or the backup holds a beginning of the new configuration, and the other
file what the order of the two writes leaves it.

A beginning, laid over the defaults, is a structure with the defaults behind
it. If the new configuration is of the right size, so is this mixture, however
short the beginning: the size is what the defaults start with. So the size does
not tell the mixture from a configuration, and the old one in the backup is not
looked at. `Cut.Recoverable` is when the next read gives one of the two all the
same.
-/

namespace Nvr.Server

open WordRecord Relation

/-- A configuration of this program's size. -/
abbrev SysInfo.Valid (c : SysInfo) : Prop := c.u32Size = UInt32.ofNat sizeofSysInfo

/-- A save of `new` over `old`, up to some point. -/
def SaveReaches (old new : SysInfo) (files : ParamFiles) : Prop :=
  ∃ phase, ReflTransGen (SaveStep new.bytes)
    (.main .opening, ⟨some old.bytes, some old.bytes⟩) (phase, files)

/-- Where a save is cut. -/
inductive Cut where
  | untouched
  | inMain (k : Nat)
  | inBak (k : Nat)

/-- What the files hold then. -/
def Cut.files (old new : SysInfo) : Cut → ParamFiles
  | .untouched => ⟨some old.bytes, some old.bytes⟩
  | .inMain k => ⟨some (new.bytes.take k), some old.bytes⟩
  | .inBak k => ⟨some new.bytes, some (new.bytes.take k)⟩

/-- The beginning of the new configuration and the defaults behind it are not of
the right size, or are one of the two configurations; in the backup, they can
only do harm if the new configuration is itself not of the right size. -/
def Cut.Recoverable (dflt old new : SysInfo) : Cut → Prop
  | .untouched => True
  | .inMain k =>
      let mixed := dflt.overlay (new.bytes.take k)
      ¬ mixed.Valid ∨ mixed = old ∨ mixed = new
  | .inBak k =>
      let mixed := dflt.overlay (new.bytes.take k)
      new.Valid ∨ ¬ mixed.Valid ∨ mixed = old ∨ mixed = new

/-! ## The files during a save -/

/-- What a file holds while `data` is written to it. -/
def Written (data : List UInt8) (f₀ : Option (List UInt8)) :
    WritePhase × Option (List UInt8) → Prop
  | (.opening, f) => f = f₀
  | (.writing _, f) => ∃ k, f = some (data.take k)
  | (.checking _, f) => ∃ k, f = some (data.take k)
  | (.done true, f) => f = some data
  | (.done false, f) => f = f₀ ∨ ∃ k, f = some (data.take k)

theorem WriteStep.written {data : List UInt8} {f₀ : Option (List UInt8)}
    {s t : WritePhase × Option (List UInt8)} (h : WriteStep data s t) (hs : Written data f₀ s) :
    Written data f₀ t := by
  cases h with
  | openFails f => exact .inl hs
  | «open» f => exact ⟨0, by simp⟩
  | write hpre => exact ⟨_, congrArg some (List.prefix_iff_eq_take.1 hpre)⟩
  | close n f => exact hs
  | checkFails n f => exact hs
  | same n => rfl
  | differs _ => exact ⟨0, by simp⟩
  | differsOpenFails _ => exact hs
  | giveUp f => exact .inr hs

theorem Written.cut {data : List UInt8} {f₀ : Option (List UInt8)} {phase : WritePhase}
    {f : Option (List UInt8)} (h : Written data f₀ (phase, f)) :
    f = f₀ ∨ ∃ k, f = some (data.take k) := by
  cases phase with
  | opening => exact .inl h
  | writing n => exact .inr h
  | checking n => exact .inr h
  | done ok =>
      cases ok with
      | false => exact h
      | true => exact .inr ⟨data.length, by rw [List.take_length]; exact h⟩

/-- What the files hold while the configuration is saved. -/
def Saved (old new : SysInfo) : SavePhase × ParamFiles → Prop
  | (.main phase, files) =>
      files.bak = some old.bytes ∧ Written new.bytes (some old.bytes) (phase, files.main)
  | (.bak phase, files) =>
      files.main = some new.bytes ∧ Written new.bytes (some old.bytes) (phase, files.bak)
  | (.done _, files) => ∃ cut : Cut, files = cut.files old new

theorem Saved.cut {old new : SysInfo} {phase : SavePhase} {files : ParamFiles}
    (h : Saved old new (phase, files)) : ∃ cut : Cut, files = cut.files old new := by
  obtain ⟨main, bak⟩ := files
  cases phase with
  | main phase =>
      obtain ⟨rfl, hmain⟩ := h
      obtain rfl | ⟨k, rfl⟩ := hmain.cut
      · exact ⟨.untouched, rfl⟩
      · exact ⟨.inMain k, rfl⟩
  | bak phase =>
      obtain ⟨rfl, hbak⟩ := h
      obtain rfl | ⟨k, rfl⟩ := hbak.cut
      · exact ⟨.inMain new.bytes.length, by rw [Cut.files, List.take_length]⟩
      · exact ⟨.inBak k, rfl⟩
  | done ok => exact h

theorem SaveStep.saved {old new : SysInfo} {s t : SavePhase × ParamFiles}
    (h : SaveStep new.bytes s t) (hs : Saved old new s) : Saved old new t := by
  cases h with
  | main hstep => exact ⟨hs.1, hstep.written hs.2⟩
  | mainFails files => exact hs.cut
  | mainDone files => exact ⟨hs.2, hs.1⟩
  | bak hstep => exact ⟨hs.1, hstep.written hs.2⟩
  | bakDone ok files => exact hs.cut

/-- The files of a save that is cut short are those of a cut. -/
theorem SaveReaches.cut {old new : SysInfo} {files : ParamFiles}
    (h : SaveReaches old new files) : ∃ cut : Cut, files = cut.files old new := by
  obtain ⟨phase, h⟩ := h
  suffices hs : Saved old new (phase, files) from hs.cut
  generalize hst : (phase, files) = st at h
  clear hst
  induction h with
  | refl => exact ⟨rfl, rfl⟩
  | tail _ hstep ih => exact hstep.saved ih

/-! ## Reading them -/

theorem SysInfo.overlay_self (dflt c : SysInfo) : dflt.overlay c.bytes = c := by
  ext1
  have htake : c.bytes.take sizeofSysInfo = c.bytes :=
    List.take_of_length_le (Nat.le_of_eq c.length_bytes)
  have hdrop : dflt.bytes.drop c.bytes.length = [] :=
    List.drop_of_length_le (Nat.le_of_eq (dflt.length_bytes.trans c.length_bytes.symm))
  simp only [SysInfo.overlay, htake, hdrop, List.append_nil]

theorem SysInfo.bytes_inj {c d : SysInfo} : c.bytes = d.bytes ↔ c = d :=
  ⟨SysInfo.ext, congrArg SysInfo.bytes⟩

/-- Two files are read as the main one, unless only the backup is of the right
size. -/
theorem nvrParamReadSysParamInfo_both (defaults : DefaultCfg) (gSysInfo : SysInfo)
    (main bak : List UInt8) :
    let dflt := nvrParamDefaultSysCfg defaults gSysInfo
    nvrParamReadSysParamInfo defaults gSysInfo ⟨some main, some bak⟩ =
      (0, if (dflt.overlay main).Valid ∨ ¬ (dflt.overlay bak).Valid then dflt.overlay main
        else dflt.overlay bak) := by
  intro dflt
  by_cases hsame : (dflt.overlay main).bytes = (dflt.overlay bak).bytes
  · have hread : nvrParamReadSysParamInfo defaults gSysInfo ⟨some main, some bak⟩ =
        (0, dflt.overlay main) := if_neg (not_not.2 hsame)
    rw [hread, ← SysInfo.bytes_inj.1 hsame, ite_self]
  · have hread : nvrParamReadSysParamInfo defaults gSysInfo ⟨some main, some bak⟩ =
        if (dflt.overlay main).Valid ∨ ¬ (dflt.overlay bak).Valid then (0, dflt.overlay main)
        else (0, dflt.overlay bak) := if_pos hsame
    rw [hread]
    split <;> rfl

/-- After a save that is cut short, the next read gives the old or the new
configuration exactly at the recoverable cuts. -/
theorem read_after_cut (defaults : DefaultCfg) (gSysInfo old new : SysInfo)
    (hold : old.Valid) (cut : Cut) :
    let read := nvrParamReadSysParamInfo defaults gSysInfo (cut.files old new)
    read.1 = 0 ∧ ((read.2 = old ∨ read.2 = new) ↔
      cut.Recoverable (nvrParamDefaultSysCfg defaults gSysInfo) old new) := by
  cases cut with
  | untouched =>
      simp only [Cut.files, nvrParamReadSysParamInfo_both, SysInfo.overlay_self, ite_self]
      exact ⟨trivial, iff_of_true (.inl trivial) trivial⟩
  | inMain k =>
      simp only [Cut.files, nvrParamReadSysParamInfo_both, SysInfo.overlay_self, Cut.Recoverable]
      refine ⟨trivial, ?_⟩
      split
      next hor =>
        have hvalid := hor.resolve_right (not_not.2 hold)
        exact ⟨.inr, fun h => h.resolve_left (not_not.2 hvalid)⟩
      next hor => exact iff_of_true (.inl rfl) (.inl fun hvalid => hor (.inl hvalid))
  | inBak k =>
      simp only [Cut.files, nvrParamReadSysParamInfo_both, SysInfo.overlay_self, Cut.Recoverable]
      refine ⟨trivial, ?_⟩
      split
      next hor => exact iff_of_true (.inr rfl) (hor.imp_right .inl)
      next hor =>
        rw [not_or, not_not] at hor
        exact ⟨fun h => .inr (.inr h),
          fun h => (h.resolve_left hor.1).resolve_left (not_not.2 hor.2)⟩

/-- The defaults start with the size. -/
theorem nvrParamDefaultSysCfg_valid (defaults : DefaultCfg) (gSysInfo : SysInfo) :
    (nvrParamDefaultSysCfg defaults gSysInfo).Valid :=
  bytesWord_wordBytes (UInt32.ofNat sizeofSysInfo)

/-- A valid configuration starts with the bytes of the size. -/
theorem SysInfo.Valid.getD {c : SysInfo} (h : c.Valid) :
    c.bytes.getD 0 0 = 0xC0 ∧ c.bytes.getD 1 0 = 0x44 ∧ c.bytes.getD 2 0 = 0 ∧
      c.bytes.getD 3 0 = 0 := by
  simp only [SysInfo.Valid, SysInfo.u32Size] at h
  generalize c.bytes.getD 0 0 = b₀ at h ⊢
  generalize c.bytes.getD 1 0 = b₁ at h ⊢
  generalize c.bytes.getD 2 0 = b₂ at h ⊢
  generalize c.bytes.getD 3 0 = b₃ at h ⊢
  have hnat := congrArg UInt32.toNat h
  simp only [bytesWord, UInt32.toNat_ofNat', sizeofSysInfo] at hnat
  have h0 := b₀.toNat_lt
  have h1 := b₁.toNat_lt
  have h2 := b₂.toNat_lt
  have h3 := b₃.toNat_lt
  refine ⟨?_, ?_, ?_, ?_⟩ <;> apply UInt8.toNat_inj.1
  · show b₀.toNat = 192
    omega
  · show b₁.toNat = 68
    omega
  · show b₂.toNat = 0
    omega
  · show b₃.toNat = 0
    omega

/-- A byte of an overlaid structure is the file's or the structure's. -/
theorem SysInfo.getD_overlay (c : SysInfo) (file : List UInt8) (i : Nat) :
    (c.overlay file).bytes.getD i 0 =
      if i < (file.take sizeofSysInfo).length then (file.take sizeofSysInfo).getD i 0
      else c.bytes.getD i 0 := by
  rw [SysInfo.overlay]
  split
  next hi => exact List.getD_append _ _ _ _ hi
  next hi =>
    rw [List.getD_append_right _ _ _ _ (by omega), List.getD_eq_getElem?_getD,
      List.getElem?_drop, List.getD_eq_getElem?_getD]
    congr 3
    omega

theorem List.getD_take_of_lt {l : List UInt8} {n i : Nat} (h : i < (l.take n).length) :
    (l.take n).getD i 0 = l.getD i 0 := by
  rw [List.getD_eq_getElem?_getD, List.getD_eq_getElem?_getD, List.getElem?_take]
  rw [List.length_take] at h
  rw [if_pos (by omega)]

/-- So the size cannot tell a beginning of a valid configuration, with the
defaults behind it, from a configuration. -/
theorem SysInfo.valid_overlay_take {dflt new : SysInfo} (hdflt : dflt.Valid) (hnew : new.Valid)
    (k : Nat) : (dflt.overlay (new.bytes.take k)).Valid := by
  have hbyte : ∀ i, dflt.bytes.getD i 0 = new.bytes.getD i 0 →
      (dflt.overlay (new.bytes.take k)).bytes.getD i 0 = new.bytes.getD i 0 := by
    intro i hsame
    rw [SysInfo.getD_overlay, List.take_take]
    split
    next hi => exact List.getD_take_of_lt hi
    next => exact hsame
  obtain ⟨d0, d1, d2, d3⟩ := hdflt.getD
  obtain ⟨n0, n1, n2, n3⟩ := hnew.getD
  rw [SysInfo.Valid, ← hnew, SysInfo.u32Size, SysInfo.u32Size, hbyte 0 (d0.trans n0.symm),
    hbyte 1 (d1.trans n1.symm), hbyte 2 (d2.trans n2.symm), hbyte 3 (d3.trans n3.symm)]

/-- A save of a configuration over another, cut short at any point: the files
are those of a cut, and the next read gives one of the two configurations
exactly if it is a recoverable one. -/
theorem save_cut_short (defaults : DefaultCfg) (gSysInfo old new : SysInfo) (hold : old.Valid)
    {files : ParamFiles} (hreach : SaveReaches old new files) :
    ∃ cut : Cut, files = cut.files old new ∧
      let read := nvrParamReadSysParamInfo defaults gSysInfo files
      read.1 = 0 ∧ ((read.2 = old ∨ read.2 = new) ↔
        cut.Recoverable (nvrParamDefaultSysCfg defaults gSysInfo) old new) := by
  obtain ⟨cut, rfl⟩ := hreach.cut
  exact ⟨cut, rfl, read_after_cut defaults gSysInfo old new hold cut⟩

/-- A configuration of one value behind its first two words. -/
def filled (x : UInt8) : SysInfo where
  bytes := wordBytes (UInt32.ofNat sizeofSysInfo) ++ wordBytes 1 ++
    List.replicate (sizeofSysInfo - 8) x
  length_bytes := by
    rw [List.length_append, List.length_replicate]
    rfl

theorem filled_valid (x : UInt8) : (filled x).Valid :=
  bytesWord_wordBytes (UInt32.ofNat sizeofSysInfo)

theorem filled_inj {x y : UInt8} (h : filled x = filled y) : x = y := by
  have htail := List.append_cancel_left (SysInfo.bytes_inj.2 h)
  exact ((List.replicate_inj).1 htail).2.resolve_left (by decide)

/-- Defaults of zeros. -/
def zeroDefaults : DefaultCfg where
  fill l := l.map fun _ => 0
  length_fill := by simp

theorem nvrParamDefaultSysCfg_zero (gSysInfo : SysInfo) :
    nvrParamDefaultSysCfg zeroDefaults gSysInfo = filled 0 := by
  ext1
  simp [nvrParamDefaultSysCfg, zeroDefaults, filled, List.map_const', gSysInfo.length_bytes]

/-- The main file is cut after its first byte. -/
theorem save_cut_short_at_one :
    let files : ParamFiles := ⟨some [0xC0], some (filled 1).bytes⟩
    ∃ cut : Cut, files = cut.files (filled 1) (filled 2) ∧
      let read := nvrParamReadSysParamInfo zeroDefaults (filled 0) files
      read.1 = 0 ∧ ((read.2 = filled 1 ∨ read.2 = filled 2) ↔
        cut.Recoverable (nvrParamDefaultSysCfg zeroDefaults (filled 0)) (filled 1) (filled 2)) :=
  save_cut_short zeroDefaults (filled 0) (filled 1) (filled 2) (filled_valid 1)
    ⟨_, .tail (.tail .refl (.main (.open _))) (.main (.write (b := []) ⟨_, rfl⟩))⟩

/-- A save that is cut short as the main file has been opened leaves the
defaults. -/
theorem not_save_atomic :
    ¬ ∀ (defaults : DefaultCfg) (gSysInfo old new : SysInfo) (files : ParamFiles),
      old.Valid → new.Valid → SaveReaches old new files →
        let read := nvrParamReadSysParamInfo defaults gSysInfo files
        read.2 = old ∨ read.2 = new := by
  intro h
  have hread := h zeroDefaults (filled 0) (filled 1) (filled 2) ⟨some [], some (filled 1).bytes⟩
    (filled_valid 1) (filled_valid 2) ⟨_, .tail .refl (.main (.open _))⟩
  have hcut := ((read_after_cut zeroDefaults (filled 0) (filled 1) (filled 2) (filled_valid 1)
    (.inMain 0)).2.1 hread)
  have hmixed : (filled 0).overlay ((filled 2).bytes.take 0) = filled 0 := rfl
  rw [Cut.Recoverable, nvrParamDefaultSysCfg_zero, hmixed] at hcut
  obtain hvalid | h1 | h2 := hcut
  · exact hvalid (filled_valid 0)
  · exact absurd (filled_inj h1) (by decide)
  · exact absurd (filled_inj h2) (by decide)

end Nvr.Server
