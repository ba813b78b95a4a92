import Nvr.Lib.Run
import Nvr.Private.Syscfg

/-!
# Saves that are cut off

A restart finds the configuration that was saved last, or a later one whose
save was cut off, as long as one of the two copies is sound. The second copy is
rewritten only after the first, so what is torn by one cut is the copy that the
save was writing. It is not repaired by the restart: the next save that is cut
off may tear the other one.
-/

namespace Nvr.Syscfg

open ByteFile

/-! ## The copies -/

namespace Nand

/-- The bytes of a copy. -/
def copyAt (d : Nand) (off : Nat) : List UInt8 := d.bytes.read off devSystemCfgLen

/-- The configuration in the first copy, if it is sound. -/
def first (d : Nand) : Option SystemCfg := soundCopy (d.copyAt d.offset1)

/-- The configuration in the second copy, if it is sound. -/
def second (d : Nand) : Option SystemCfg := soundCopy (d.copyAt d.offset2)

@[simp] theorem offset1_write (d : Nand) (off : Nat) (data : List UInt8) :
    (d.write off data).offset1 = d.offset1 := rfl

@[simp] theorem offset2_write (d : Nand) (off : Nat) (data : List UInt8) :
    (d.write off data).offset2 = d.offset2 := rfl

theorem offset2_add (d : Nand) : d.offset2 + 256 * 1024 = d.offset1 := by
  have hlarge := d.large
  rw [d.offset1_eq, d.offset2_eq]
  unfold openOffset2 openOffset1
  omega

theorem offset1_le (d : Nand) : d.offset1 + devSystemCfgLen ≤ d.size := by
  have hlarge := d.large
  rw [d.offset1_eq]
  unfold openOffset1 devSystemCfgLen
  omega

/-- The copies have no byte in common. -/
theorem offsets_apart (d : Nand) :
    Apart d.offset1 devSystemCfgLen d.offset2 devSystemCfgLen := by
  have hoft := d.offset2_add
  refine .inr ?_
  unfold devSystemCfgLen
  omega

theorem copyAt_write (d : Nand) (off : Nat) {data : List UInt8}
    (h : data.length = devSystemCfgLen) : (d.write off data).copyAt off = data := by
  unfold copyAt write
  exact (holds_write d.bytes off data).read_eq h.symm

theorem copyAt_write_apart (d : Nand) {off off' : Nat} {data : List UInt8}
    (h : data.length = devSystemCfgLen) (ha : Apart off devSystemCfgLen off' devSystemCfgLen) :
    (d.write off' data).copyAt off = d.copyAt off := by
  unfold copyAt write
  exact read_write_apart (h.symm ▸ ha)

theorem first_write1 (d : Nand) {data : List UInt8} (h : data.length = devSystemCfgLen) :
    (d.write d.offset1 data).first = soundCopy data := by
  rw [first, offset1_write, d.copyAt_write _ h]

theorem second_write1 (d : Nand) {data : List UInt8} (h : data.length = devSystemCfgLen) :
    (d.write d.offset1 data).second = d.second := by
  rw [second, offset2_write, d.copyAt_write_apart h d.offsets_apart.symm, second]

theorem first_write2 (d : Nand) {data : List UInt8} (h : data.length = devSystemCfgLen) :
    (d.write d.offset2 data).first = d.first := by
  rw [first, offset1_write, d.copyAt_write_apart h d.offsets_apart, first]

theorem second_write2 (d : Nand) {data : List UInt8} (h : data.length = devSystemCfgLen) :
    (d.write d.offset2 data).second = soundCopy data := by
  rw [second, offset2_write, d.copyAt_write _ h]

end Nand

theorem useCfg_of_reads {d : Nand} {cfg1 cfg2 : List UInt8}
    (h1 : d.readCopy d.offset1 = some cfg1) (h2 : d.readCopy d.offset2 = some cfg2) :
    useCfg d = (soundCopy cfg1).or (soundCopy cfg2) := by
  rw [useCfg, h1, h2]
  simp only
  generalize soundCopy cfg1 = first
  cases first with
  | none => rfl
  | some cfg => rfl

/-- Both copies are read, so the first sound one is used. -/
theorem useCfg_eq (d : Nand) : useCfg d = d.first.or d.second := by
  have hfirst : d.readCopy d.offset1 = some (d.copyAt d.offset1) := by
    rw [Nand.readCopy, if_pos d.offset1_le, Nand.copyAt]
  have hsecond : d.readCopy d.offset2 = some (d.copyAt d.offset2) := by
    have hoft := d.offset2_add
    have hend := d.offset1_le
    rw [Nand.readCopy, if_pos (by omega), Nand.copyAt]
  rw [useCfg_of_reads hfirst hsecond, Nand.first, Nand.second]

theorem soundCopy_encode {cfg : SystemCfg} (h : cfg.magic = systemCfgMagic) :
    soundCopy (SystemCfg.format.encode cfg) = some cfg := by
  rw [soundCopy, WordRecord.WordFormat.decode_encode]
  simp [h]

theorem Torn.soundCopy_eq (left : Torn) : soundCopy left.bytes = none := by
  rw [soundCopy, left.fails]
  rfl

theorem length_encode (cfg : SystemCfg) :
    (SystemCfg.format.encode cfg).length = devSystemCfgLen := by simp

theorem writeCfgFile_copies (d : Nand) {cfg : SystemCfg} (h : cfg.magic = systemCfgMagic) :
    (writeCfgFile d cfg).first = some cfg ∧ (writeCfgFile d cfg).second = some cfg := by
  have hlen := length_encode cfg
  rw [writeCfgFile, ← d.offset2_write d.offset1 (SystemCfg.format.encode cfg)]
  rw [Nand.first_write2 _ hlen, Nand.second_write2 _ hlen, Nand.first_write1 _ hlen,
    soundCopy_encode h]
  exact ⟨rfl, rfl⟩

/-- What a cut leaves of the two copies. -/
theorem cutCfgFile_copies (d : Nand) {cfg : SystemCfg} (h : cfg.magic = systemCfgMagic)
    (point : Cut) :
    ((cutCfgFile d cfg point).first, (cutCfgFile d cfg point).second) =
      match point with
      | .before => (d.first, d.second)
      | .first _ => (none, d.second)
      | .between => (some cfg, d.second)
      | .second _ => (some cfg, none) := by
  have hlen := length_encode cfg
  cases point with
  | before => rfl
  | first left =>
      rw [cutCfgFile, d.first_write1 left.length_bytes, d.second_write1 left.length_bytes,
        left.soundCopy_eq]
  | between => rw [cutCfgFile, d.first_write1 hlen, d.second_write1 hlen, soundCopy_encode h]
  | second left =>
      rw [cutCfgFile, ← d.offset2_write d.offset1 (SystemCfg.format.encode cfg),
        Nand.first_write2 _ left.length_bytes, Nand.second_write2 _ left.length_bytes,
        d.first_write1 hlen, soundCopy_encode h, left.soundCopy_eq]

/-! ## What a restart finds -/

/-- The configuration carries its magic number, and no field of it is given a
default when it is read. -/
structure SystemCfg.Whole (cfg : SystemCfg) : Prop where
  magic : cfg.magic = systemCfgMagic
  platformServer : cfg.platformServer ≠ 0
  platformClient : cfg.platformClient ≠ 0
  supportLang : cfg.supportLang ≠ 0

theorem SystemCfg.Whole.fillDefaults_eq {cfg : SystemCfg} (h : cfg.Whole) :
    fillDefaults cfg = cfg := by
  unfold fillDefaults
  simp only [if_neg h.platformServer, if_neg h.platformClient, if_neg h.supportLang]

theorem gDefsyscfg_whole : gDefsyscfg.Whole := ⟨by decide, by decide, by decide, by decide⟩

/-- A restart reads the last configuration saved or one whose save was cut off
since, and writes nothing. -/
def Right (s : Device) : Prop :=
  ∃ cfg ∈ s.saved :: s.cutOff, readCfgFile s.nand = (cfg, s.nand)

/-- A device whose copies are both torn gets the factory defaults. -/
theorem readCfgFile_torn {d : Nand} (h1 : d.first = none) (h2 : d.second = none) :
    readCfgFile d = (fillDefaults gDefsyscfg, writeCfgFile d gDefsyscfg) := by
  have huse : useCfg d = none := by
    rw [useCfg_eq, h1, h2, Option.none_or]
  rw [readCfgFile, huse]

theorem not_right_of_torn {s : Device} (h1 : s.nand.first = none) (h2 : s.nand.second = none) :
    ¬Right s := by
  rintro ⟨cfg, _, hread⟩
  rw [readCfgFile_torn h1 h2] at hread
  have hnand : writeCfgFile s.nand gDefsyscfg = s.nand := congrArg Prod.snd hread
  have hwritten := (writeCfgFile_copies s.nand gDefsyscfg_whole.magic).1
  rw [hnand, h1] at hwritten
  cases hwritten

/-! ## Runs -/

/-- What the copies of a device hold as long as every cut was a safe one. -/
structure Kept (s : Device) : Prop where
  first : ∀ cfg, s.nand.first = some cfg → cfg ∈ s.saved :: s.cutOff
  second : ∀ cfg, s.nand.second = some cfg → cfg = s.saved
  readable : s.nand.first ≠ none ∨ s.nand.second ≠ none
  whole : ∀ cfg ∈ s.saved :: s.cutOff, cfg.Whole

theorem Kept.right {s : Device} (h : Kept s) : Right s := by
  have hused : ∃ cfg ∈ s.saved :: s.cutOff, useCfg s.nand = some cfg := by
    rw [useCfg_eq]
    cases h1 : s.nand.first with
    | some cfg => exact ⟨cfg, h.first cfg h1, rfl⟩
    | none =>
        cases h2 : s.nand.second with
        | some cfg => exact ⟨cfg, h.second cfg h2 ▸ List.mem_cons_self, rfl⟩
        | none => exact absurd h.readable (by simp [h1, h2])
  obtain ⟨cfg, hmem, huse⟩ := hused
  refine ⟨cfg, hmem, ?_⟩
  rw [readCfgFile, huse]
  simp only [(h.whole cfg hmem).fillDefaults_eq]

/-- The configurations of the operation are whole. -/
def Op.Whole : Op → Prop
  | .save cfg => cfg.Whole
  | .cut cfg _ => cfg.Whole
  | .restart => True

/-- A save is not cut off in the first copy while the second one is torn. -/
def SafeCut (s : Device) : Op → Prop
  | .cut _ (.first _) => s.nand.second ≠ none
  | _ => True

theorem Kept.step {s t : Device} {op : Op} (h : Kept s) (hstep : Step s op t)
    (hwhole : op.Whole) (hsafe : SafeCut s op) : Kept t := by
  cases hstep with
  | save cfg =>
      obtain ⟨hfirst, hsecond⟩ := writeCfgFile_copies s.nand hwhole.magic
      refine ⟨?_, ?_, ?_, ?_⟩
      · intro c hc
        obtain rfl := Option.some.inj (hfirst.symm.trans hc)
        exact List.mem_cons_self
      · intro c hc
        exact (Option.some.inj (hsecond.symm.trans hc)).symm
      · exact .inl (by rw [hfirst]; simp)
      · intro c hc
        obtain rfl := List.mem_singleton.1 hc
        exact hwhole
  | cut cfg point =>
      have hcopies := cutCfgFile_copies s.nand hwhole.magic point
      have hmem : ∀ c ∈ s.saved :: s.cutOff, c ∈ s.saved :: cfg :: s.cutOff := by
        intro c hc
        rcases List.mem_cons.1 hc with rfl | hc
        · exact List.mem_cons_self
        · exact List.mem_cons_of_mem _ (List.mem_cons_of_mem _ hc)
      have hall : ∀ c ∈ s.saved :: cfg :: s.cutOff, c.Whole := by
        intro c hc
        rcases List.mem_cons.1 hc with rfl | hc
        · exact h.whole _ List.mem_cons_self
        · rcases List.mem_cons.1 hc with rfl | hc
          · exact hwhole
          · exact h.whole c (List.mem_cons_of_mem _ hc)
      cases point with
      | before => exact ⟨fun c hc => hmem c (h.first c hc), h.second, h.readable, hall⟩
      | first left =>
          obtain ⟨hfirst, hsecond⟩ := Prod.mk.inj hcopies
          refine ⟨?_, ?_, ?_, hall⟩
          · intro c hc
            rw [hfirst] at hc
            cases hc
          · exact fun c hc => h.second c (hsecond.symm.trans hc)
          · exact .inr (hsecond.symm ▸ hsafe)
      | between =>
          obtain ⟨hfirst, hsecond⟩ := Prod.mk.inj hcopies
          refine ⟨?_, ?_, ?_, hall⟩
          · intro c hc
            obtain rfl := Option.some.inj (hfirst.symm.trans hc)
            exact List.mem_cons_of_mem _ List.mem_cons_self
          · exact fun c hc => h.second c (hsecond.symm.trans hc)
          · exact .inl (by rw [hfirst]; simp)
      | second left =>
          obtain ⟨hfirst, hsecond⟩ := Prod.mk.inj hcopies
          refine ⟨?_, ?_, ?_, hall⟩
          · intro c hc
            obtain rfl := Option.some.inj (hfirst.symm.trans hc)
            exact List.mem_cons_of_mem _ List.mem_cons_self
          · intro c hc
            rw [hsecond] at hc
            cases hc
          · exact .inl (by rw [hfirst]; simp)
  | restart =>
      obtain ⟨cfg, _, hread⟩ := h.right
      rw [hread]
      exact ⟨h.first, h.second, h.readable, h.whole⟩

/-- A cut that is not safe leaves nothing to read. -/
theorem not_right_of_cut {s t : Device} {op : Op} (hstep : Step s op t) (hwhole : op.Whole)
    (hnotSafe : ¬SafeCut s op) : ¬Right t := by
  cases hstep with
  | save => exact absurd trivial hnotSafe
  | restart => exact absurd trivial hnotSafe
  | cut cfg point =>
      have hcopies := cutCfgFile_copies s.nand hwhole.magic point
      cases point with
      | first left =>
          obtain ⟨hfirst, hsecond⟩ := Prod.mk.inj hcopies
          exact not_right_of_torn hfirst (hsecond.trans (not_not.1 hnotSafe))
      | _ => exact absurd trivial hnotSafe

theorem Step.unique {s t t' : Device} {op : Op} (h : Step s op t) (h' : Step s op t') :
    t = t' := by
  cases h <;> cases h' <;> rfl

/-- A device that has both copies sound, of whatever saves. -/
def Device.start (d : Nand) (cfg1 cfg2 : SystemCfg) : Device where
  nand := d
  saved := cfg2
  cutOff := [cfg1]
  up := true

structure BothValid (d : Nand) (cfg1 cfg2 : SystemCfg) : Prop where
  first : d.first = some cfg1
  second : d.second = some cfg2
  whole1 : cfg1.Whole
  whole2 : cfg2.Whole

theorem BothValid.kept {d : Nand} {cfg1 cfg2 : SystemCfg} (h : BothValid d cfg1 cfg2) :
    Kept (.start d cfg1 cfg2) where
  first c hc := by
    obtain rfl := Option.some.inj (h.first.symm.trans hc)
    exact List.mem_cons_of_mem _ List.mem_cons_self
  second c hc := (Option.some.inj (h.second.symm.trans hc)).symm
  readable := .inl (by
    show d.first ≠ none
    rw [h.first]
    simp)
  whole c hc := by
    rcases List.mem_cons.1 hc with rfl | hc
    · exact h.whole2
    · obtain rfl := List.mem_singleton.1 hc
      exact h.whole1

/-- In every state that a run goes through a restart would find what it
should. -/
def RightThroughout (s : Device) (ops : List Op) : Prop :=
  ∀ as bs t, ops = as ++ bs → Run Step s as t → Right t

theorem Kept.run {s t : Device} {ops : List Op} (h : Kept s) (hwhole : ∀ op ∈ ops, op.Whole)
    (hrun : Run (Restrict Step SafeCut) s ops t) : Kept t := by
  induction hrun with
  | nil => exact h
  | snoc _ hstep ih =>
      refine (ih fun op hop => hwhole op (List.mem_append_left _ hop)).step hstep.1 ?_ hstep.2
      exact hwhole _ (List.mem_append_right _ List.mem_cons_self)

theorem run_unique {s t t' : Device} {ops : List Op} (h : Run Step s ops t) :
    Run Step s ops t' → t = t' := by
  induction h generalizing t' with
  | nil =>
      intro h'
      generalize hops : ([] : List Op) = ops at h'
      cases h' with
      | nil => rfl
      | snoc => simp at hops
  | snoc _ hstep ih =>
      intro h'
      obtain ⟨u, hfirst, hlast⟩ := h'.of_append
      obtain ⟨v, hone, hnil⟩ := hlast.of_cons
      obtain rfl := ih hfirst
      obtain rfl := hone.unique hstep
      generalize hops : ([] : List Op) = ops at hnil
      cases hnil with
      | nil => rfl
      | snoc => simp at hops

/-- From a device with two sound copies, a run never meets the factory defaults
exactly if none of its saves is cut off in the first copy while the second one
is torn. -/
theorem right_iff_safe_cuts {d : Nand} {cfg1 cfg2 : SystemCfg} (h : BothValid d cfg1 cfg2)
    {ops : List Op} (hwhole : ∀ op ∈ ops, op.Whole) {s : Device}
    (hrun : Run Step (.start d cfg1 cfg2) ops s) :
    RightThroughout (.start d cfg1 cfg2) ops ↔
      Run (Restrict Step SafeCut) (.start d cfg1 cfg2) ops s := by
  constructor
  · intro hright
    induction hrun with
    | nil => exact .nil
    | @snoc as t u op hinit hstep ih =>
        have hprefix : RightThroughout (.start d cfg1 cfg2) as := by
          intro bs cs v has hv
          exact hright bs (cs ++ [op]) v (by rw [has, List.append_assoc]) hv
        have hsafe := ih (fun a ha => hwhole a (List.mem_append_left _ ha)) hprefix
        refine hsafe.snoc ⟨hstep, ?_⟩
        by_contra hnotSafe
        have hop := hwhole op (List.mem_append_right _ List.mem_cons_self)
        exact not_right_of_cut hstep hop hnotSafe
          (hright (as ++ [op]) [] u (by simp) (hinit.snoc hstep))
  · rintro hsafe as bs t rfl ht
    obtain ⟨u, hu, _⟩ := hsafe.of_append
    obtain rfl := run_unique ht (hu.mono fun hs => hs.1)
    exact (h.kept.run (fun op hop => hwhole op (List.mem_append_left _ hop)) hu).right

/-- A save cut off in the second copy, and the next one cut off in the first. -/
def twoCuts (cfg : SystemCfg) (left left' : Torn) : List Op :=
  [.cut cfg (.second left), .restart, .cut cfg (.first left')]

theorem whole_twoCuts {cfg : SystemCfg} (h : cfg.Whole) (left left' : Torn) :
    ∀ op ∈ twoCuts cfg left left', op.Whole := by
  intro op hop
  rcases List.mem_cons.1 hop with rfl | hop
  · exact h
  · rcases List.mem_cons.1 hop with rfl | hop
    · trivial
    · obtain rfl := List.mem_singleton.1 hop
      exact h

/-- They leave any device without a sound copy. -/
theorem Kept.run_twoCuts {s : Device} (h : Kept s) (hup : s.up = true) {cfg : SystemCfg}
    (hcfg : cfg.Whole) (left left' : Torn) :
    ∃ t, Run Step s (twoCuts cfg left left') t ∧ ¬Right t := by
  have hcut := Step.cut cfg (.second left) hup
  obtain ⟨_, htorn⟩ := Prod.mk.inj (cutCfgFile_copies s.nand hcfg.magic (.second left))
  obtain ⟨c, _, hright⟩ := (h.step hcut hcfg trivial).right
  have hread : readCfgFile (cutCfgFile s.nand cfg (.second left)) =
      (c, cutCfgFile s.nand cfg (.second left)) := hright
  have hrun := ((Run.single hcut).snoc (.restart _)).snoc (.cut cfg (.first left') rfl)
  refine ⟨_, hrun, not_right_of_cut (.cut cfg (.first left') rfl) hcfg (not_not.2 ?_)⟩
  show (readCfgFile (cutCfgFile s.nand cfg (.second left))).2.second = none
  rw [hread]
  exact htorn

/-- A copy of which every bit is set. -/
def erased : Torn where
  bytes := List.replicate devSystemCfgLen 0xff
  length_bytes := List.length_replicate
  fails := by decide +kernel

/-- The configuration of a device that serves one platform. -/
def onePlatform : SystemCfg := gDefsyscfg.setWord 26 1

theorem onePlatform_whole : onePlatform.Whole := ⟨by decide, by decide, by decide, by decide⟩

/-- A device of one MiB with that configuration in both copies. -/
def soundNand : Nand :=
  writeCfgFile (openFile (1024 * 1024) (fun _ => 0) (by decide) (by decide)) onePlatform

theorem soundNand_valid : BothValid soundNand onePlatform onePlatform where
  first := (writeCfgFile_copies _ onePlatform_whole.magic).1
  second := (writeCfgFile_copies _ onePlatform_whole.magic).2
  whole1 := onePlatform_whole
  whole2 := onePlatform_whole

theorem right_iff_safe_cuts_two :
    ∃ s, RightThroughout (.start soundNand onePlatform onePlatform)
        (twoCuts onePlatform erased erased) ↔
      Run (Restrict Step SafeCut) (.start soundNand onePlatform onePlatform)
        (twoCuts onePlatform erased erased) s := by
  obtain ⟨s, hrun, _⟩ := soundNand_valid.kept.run_twoCuts rfl onePlatform_whole erased erased
  exact ⟨s, right_iff_safe_cuts soundNand_valid (whole_twoCuts onePlatform_whole _ _) hrun⟩

/-- Two cuts end with the factory defaults. -/
theorem not_right_throughout :
    ¬∀ (d : Nand) (cfg1 cfg2 : SystemCfg) (ops : List Op), BothValid d cfg1 cfg2 →
      (∀ op ∈ ops, op.Whole) → RightThroughout (.start d cfg1 cfg2) ops := by
  intro hall
  have hright := hall soundNand onePlatform onePlatform (twoCuts onePlatform erased erased)
    soundNand_valid (whole_twoCuts onePlatform_whole _ _)
  obtain ⟨s, hrun, hlost⟩ := soundNand_valid.kept.run_twoCuts rfl onePlatform_whole erased erased
  exact hlost (hright _ [] s (List.append_nil _).symm hrun)

end Nvr.Syscfg
