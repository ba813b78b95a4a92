import Nvr.Lib.Slot
import Nvr.Proofs.DiskStep
import Nvr.Proofs.Loaded
import Nvr.Storage.Find

/-!
# When the calendar is right

A day may be marked for two reasons: a basket that is from that day as a whole,
or a fragment that begins on it and lies inside the window (`Marked`). Footage
that is asked for is something else: a fragment that reaches into the window
(`Sought`). `strgDiskFind_has_iff` says that the answer is the days marked; so it
is right when the two come to the same days, and `CalendarAgrees` takes apart what that
needs. The whole of a basket, and with it the hull of its times and types, says
little about any fragment in it, and nothing resets that hull when the basket is.
-/

namespace Nvr.Storage

open Slot

theorem dayBit_and_dayBit : ∀ d d' : Fin 31, dayBit d &&& dayBit d' = 0 ↔ d ≠ d' := by
  decide +kernel

/-- Marking a day marks that one. -/
theorem has_or_dayBit {mask : UInt32} {d d' : Fin 31} :
    Flag.Has (mask ||| dayBit d) (dayBit d') ↔ Flag.Has mask (dayBit d') ∨ d = d' := by
  by_cases hd : d = d'
  · subst hd
    have hself : (mask ||| dayBit d) &&& dayBit d = dayBit d := Flag.or_and_self _ _
    have hne : dayBit d &&& dayBit d ≠ 0 := by
      rw [Ne, dayBit_and_dayBit]
      exact not_not.2 rfl
    have hone : dayBit d ≠ 0 := fun h0 => hne (by rw [h0, UInt32.zero_and])
    exact ⟨fun _ => .inr rfl, fun _ => by rwa [Flag.Has, hself]⟩
  · have hdisj := (dayBit_and_dayBit d d').2 hd
    rw [Flag.Has, Flag.or_and_of_disjoint hdisj]
    exact ⟨.inl, fun h => h.resolve_right hd⟩

/-- `strg_disk_find` has marked the day. -/
def Found (ret : Int32) (d : Fin 31) : Prop := Flag.Has ret.toUInt32 (dayBit d)

section Find

variable {mday : Mday} {dm : DiskMng} {a : FindArgs}

/-! ## What is marked -/

theorem findFragments_has (bfList : List BasketFragment) (mask : UInt32) (d : Fin 31) :
    Flag.Has (findFragments mday a mask bfList) (dayBit d) ↔
      Flag.Has mask (dayBit d) ∨ ∃ bf ∈ bfList, a.marks bf = true ∧ mday bf.beginTime = d := by
  unfold findFragments
  induction bfList generalizing mask with
  | nil => simp
  | cons bf bfList ih =>
    rw [List.foldl_cons, ih]
    split
    · next hmarks => simp [has_or_dayBit, hmarks, or_assoc]
    · next hmarks => simp [hmarks]

/-- The basket is in the search and answered for as a whole. -/
def AsWhole (mday : Mday) (a : FindArgs) (bgi : BasketGlobalInfo) : Prop :=
  a.looksAt bgi = true ∧ singleDay mday bgi = true

/-- The basket is in the search and answered for fragment by fragment. -/
def ByFragment (mday : Mday) (a : FindArgs) (bgi : BasketGlobalInfo) : Prop :=
  a.looksAt bgi = true ∧ singleDay mday bgi = false

theorem findBasket_has (bgi : BasketGlobalInfo) (mask : UInt32) (d : Fin 31) :
    Flag.Has (findBasket mday a mask bgi) (dayBit d) ↔
      Flag.Has mask (dayBit d) ∨ (AsWhole mday a bgi ∧ mday bgi.beginTime = d) ∨
        ByFragment mday a bgi ∧ ∃ bf ∈ bgi.bfList, a.marks bf = true ∧ mday bf.beginTime = d := by
  unfold findBasket AsWhole ByFragment
  by_cases hlook : a.looksAt bgi = true
  · by_cases hday : singleDay mday bgi = true
    · simp [hlook, hday, has_or_dayBit]
    · simp [hlook, hday, findFragments_has]
  · simp [hlook]

/-- A reason to mark a day: a basket, or a fragment of one. -/
inductive Marked (mday : Mday) (dm : DiskMng) (a : FindArgs) (d : Fin 31) : Prop
  | whole {p : Nat} (hp : p ∈ dm.bgiList) (hwhole : AsWhole mday a (dm.bgi p))
      (hday : mday (dm.bgi p).beginTime = d)
  | fragment {p : Nat} {bf : BasketFragment} (hp : p ∈ dm.bgiList)
      (hloop : ByFragment mday a (dm.bgi p)) (hbf : bf ∈ (dm.bgi p).bfList)
      (hmarks : a.marks bf = true) (hday : mday bf.beginTime = d)

theorem strgDiskFind_has_iff (hwindow : a.beginTime ≤ a.endTime) (d : Fin 31) :
    Found (strgDiskFind mday dm a) d ↔ Marked mday dm a d := by
  have hfold : ∀ (l : List Nat) (mask : UInt32),
      Flag.Has (l.foldl (fun mask p => findBasket mday a mask (dm.bgi p)) mask) (dayBit d) ↔
        Flag.Has mask (dayBit d) ∨ ∃ p ∈ l,
          (AsWhole mday a (dm.bgi p) ∧ mday (dm.bgi p).beginTime = d) ∨
          ByFragment mday a (dm.bgi p) ∧
            ∃ bf ∈ (dm.bgi p).bfList, a.marks bf = true ∧ mday bf.beginTime = d := by
    intro l
    induction l with
    | nil => simp
    | cons p l ih =>
      intro mask
      rw [List.foldl_cons, ih, findBasket_has]
      simp [or_assoc]
  have hzero : ¬Flag.Has 0 (dayBit d) := fun h => h UInt32.zero_and
  unfold Found strgDiskFind
  rw [if_pos hwindow, UInt32.toUInt32_toInt32, hfold]
  constructor
  · rintro (h | ⟨p, hp, ⟨hwhole, hday⟩ | ⟨hloop, bf, hbf, hmarks, hday⟩⟩)
    · exact absurd h hzero
    · exact .whole hp hwhole hday
    · exact .fragment hp hloop hbf hmarks hday
  · rintro (⟨hp, hwhole, hday⟩ | ⟨hp, hloop, hbf, hmarks, hday⟩)
    · exact .inr ⟨_, hp, .inl ⟨hwhole, hday⟩⟩
    · exact .inr ⟨_, hp, .inr ⟨hloop, _, hbf, hmarks, hday⟩⟩

/-! ## What is sought -/

/-- A fragment of the disk with footage of the channels and types that reaches
into the window. -/
structure Sought (dm : DiskMng) (a : FindArgs) (p : Nat) (bf : BasketFragment) : Prop where
  mem : p ∈ dm.bgiList
  bf_mem : bf ∈ (dm.bgi p).bfList
  chn : a.chnMask &&& chnBit (dm.bgi p).bg.chn ≠ 0
  iframes : 0 < bf.iframeNum
  bytes : 0 < bf.fragmentSize
  overlap : bf.beginTime < a.endTime ∧ a.beginTime < bf.endTime
  type : bf.recordType &&& a.recordType ≠ 0

/-- A day on which such a fragment begins. -/
def SoughtOn (mday : Mday) (dm : DiskMng) (a : FindArgs) (d : Fin 31) : Prop :=
  ∃ p bf, Sought dm a p bf ∧ mday bf.beginTime = d

/-- A fragment that is looked at itself and lies inside the window. -/
structure Inspected (mday : Mday) (dm : DiskMng) (a : FindArgs) (p : Nat) (bf : BasketFragment) :
    Prop where
  loop : ByFragment mday a (dm.bgi p)
  inside : a.beginTime ≤ bf.beginTime ∧ bf.endTime ≤ a.endTime

/-- What the answer needs to be right. -/
structure CalendarAgrees (mday : Mday) (dm : DiskMng) (a : FindArgs) : Prop where
  /-- On the day of a basket that is answered for as a whole, something that is
  asked for begins. -/
  whole : ∀ p ∈ dm.bgiList, AsWhole mday a (dm.bgi p) →
    SoughtOn mday dm a (mday (dm.bgi p).beginTime)
  /-- The same for a fragment that is marked with a count of I-frames below 0. -/
  negative : ∀ p ∈ dm.bgiList, ByFragment mday a (dm.bgi p) → ∀ bf ∈ (dm.bgi p).bfList,
    bf.iframeNum < 0 → a.marks bf = true → SoughtOn mday dm a (mday bf.beginTime)
  /-- A fragment that is passed by with its basket, answered for with the whole of
  it, or cut by the window, begins on a day that is marked for another reason. -/
  others : ∀ p bf, Sought dm a p bf → ¬Inspected mday dm a p bf →
    Marked mday dm a (mday bf.beginTime)

theorem FindArgs.marks_iff (bf : BasketFragment) :
    a.marks bf = true ↔ bf.iframeNum ≠ 0 ∧ bf.fragmentSize ≠ 0 ∧
      (bf.beginTime < a.endTime ∧ a.beginTime < bf.endTime) ∧
      bf.recordType &&& a.recordType ≠ 0 ∧
      a.beginTime ≤ bf.beginTime ∧ bf.endTime ≤ a.endTime := by
  unfold FindArgs.marks
  split
  · next h => simp; tauto
  · next h =>
    split
    · next h' => simp [← Int32.not_le]; tauto
    · next h' =>
      split
      · next h'' => simp [h'']
      · next h'' => simp [← Int32.not_le]; tauto

/-- What is sought and looked at itself is marked. -/
theorem Sought.marked {p : Nat} {bf : BasketFragment} (h : Sought dm a p bf)
    (hlook : Inspected mday dm a p bf) : Marked mday dm a (mday bf.beginTime) := by
  refine .fragment h.mem hlook.loop h.bf_mem ?_ rfl
  rw [FindArgs.marks_iff]
  exact ⟨(Int32.ne_of_lt h.iframes).symm, (UInt32.ne_of_lt h.bytes).symm, h.overlap, h.type,
    hlook.inside⟩

/-- A fragment that is marked is sought, if it has I-frames. -/
theorem sought_of_marks {p : Nat} {bf : BasketFragment} (hp : p ∈ dm.bgiList)
    (hlook : a.looksAt (dm.bgi p) = true) (hbf : bf ∈ (dm.bgi p).bfList)
    (hmarks : a.marks bf = true) (hpos : ¬bf.iframeNum < 0) : Sought dm a p bf := by
  rw [FindArgs.marks_iff] at hmarks
  obtain ⟨hiframes, hbytes, hoverlap, htype, -⟩ := hmarks
  have hchn : a.chnMask &&& chnBit (dm.bgi p).bg.chn ≠ 0 := by
    intro hzero
    rw [FindArgs.looksAt, if_pos hzero] at hlook
    cases hlook
  refine ⟨hp, hbf, hchn, ?_, UInt32.pos_iff_ne_zero.2 hbytes, hoverlap, htype⟩
  exact Int32.lt_of_le_of_ne (Int32.not_lt.1 hpos) hiframes.symm

end Find

/-! ## A day without footage -/

/-- The days of January 1970, in UTC. -/
def utcJanuary : Mday := fun t =>
  if h : t.toInt.toNat / 86400 < 31 then ⟨t.toInt.toNat / 86400, h⟩ else 0

/-- An I-frame of four bytes. -/
def shortFrame : Frame where
  data := [1, 2, 3, 4]
  frameNo := 1
  frameType := .i
  encodeType := .h264
  timeStamp := 0
  size_lt := by decide

/-- Two recordings of the same morning, with an hour between them. -/
def twoRecordings : List DiskOp :=
  [.writeStart 0 recordTimeType 0xf, .write 0 0 1000000 shortFrame, .write 0 0 1500000 shortFrame,
    .writeStop 0,
    .writeStart 0 recordTimeType 0xf, .write 0 0 5000000 shortFrame, .write 0 0 5500000 shortFrame,
    .writeStop 0]

/-- Half an hour of the time between them. -/
def betweenThem : FindArgs := ⟨1, 2000, 3000, 0xff⟩

end Nvr.Storage
