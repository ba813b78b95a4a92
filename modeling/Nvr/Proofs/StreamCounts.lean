import Nvr.Lib.Run
import Nvr.Lib.Slot
import Nvr.Server.Channel

/-!
# The counts of a channel's streams

The count of a stream is that of its readers, one more for stream 0, as long as
no reader is refused: a stop is counted whether or not its start was. A check
opens and closes a stream as the count says that it reads.
-/

namespace Nvr.Channel

open Slot

/-- The readers of a stream that were started and whose stop has not yet fired. -/
def readersOf (readers : List Reader) (i : StreamNo) : Nat :=
  readers.countP fun reader => reader.stream = i

/-- A start comes while the channel is not online. -/
def refused (w : World) : Op → Bool
  | .startRead _ => !w.info.online
  | _ => false

/-- A step of the channel. -/
def Step (w : World) (op : Op) (w' : World) : Prop := w.step op = some w'

/-- The counts are those of the readers, with one more for stream 0 and never
negative; and at the end of a complete check with the camera online and all calls
successful a stream is open exactly if its count is positive, unless it has
changed since the check has read it. -/
structure CountsReaders (w : World) : Prop where
  count : ∀ i, w.info.nOpenStreamCnt i = readersOf w.readers i + if i = 0 then 1 else 0
  nonneg : ∀ i, 0 ≤ w.info.nOpenStreamCnt i
  streams : ∀ read, w.complete = some read → ∀ i, read i = w.info.nOpenStreamCnt i →
    (w.info.lStreamHandle i ≠ none ↔ 0 < w.info.nOpenStreamCnt i)

/-- Of a stream that the check has come to, it is known how it stands to the
count that was read. -/
def CheckRun.Done (info : ChannelInfo) (r : CheckRun) : Prop :=
  ∀ i : StreamNo, i.val < r.next → r.ok = true → info.lHandle.isSome → info.lIpncHandle.isSome →
    (info.lStreamHandle i ≠ none ↔ 0 < r.read i)

/-- What every step keeps. -/
structure Kept (w : World) : Prop where
  count : ∀ i, w.info.nOpenStreamCnt i = readersOf w.readers i + if i = 0 then 1 else 0
  run : ∀ r, w.run = some r → r.next < nvrMaxStreamNum ∧ r.Done w.info
  complete : ∀ read, w.complete = some read →
    ∀ i, w.info.lStreamHandle i ≠ none ↔ 0 < read i

theorem Kept.nonneg {w : World} (h : Kept w) (i : StreamNo) : 0 ≤ w.info.nOpenStreamCnt i := by
  rw [h.count i]
  split <;> omega

theorem Kept.countsReaders {w : World} (h : Kept w) : CountsReaders w where
  count := h.count
  nonneg := h.nonneg
  streams read hread i heq := by
    rw [← heq]
    exact h.complete read hread i

theorem Kept.init : Kept .init where
  count := by decide
  run _ h := by cases h
  complete _ h := by cases h

/-! ## The counts -/

theorem readersOf_cons (reader : Reader) (readers : List Reader) (i : StreamNo) :
    readersOf (reader :: readers) i =
      readersOf readers i + if reader.stream = i then 1 else 0 := by
  unfold readersOf
  rw [List.countP_cons]
  simp

theorem readersOf_eraseIdx {readers : List Reader} {k : Nat} {reader : Reader}
    (h : readers[k]? = some reader) (i : StreamNo) :
    readersOf (readers.eraseIdx k) i + (if reader.stream = i then 1 else 0) =
      readersOf readers i := by
  induction readers generalizing k with
  | nil => cases h
  | cons head readers ih =>
      cases k with
      | zero =>
          obtain rfl : head = reader := by simpa using h
          rw [List.eraseIdx_cons_zero, readersOf_cons]
      | succ k =>
          have hrest := ih (show readers[k]? = some reader by simpa using h)
          rw [List.eraseIdx_cons_succ, readersOf_cons, readersOf_cons]
          omega

theorem readersOf_set {readers : List Reader} {k : Nat} {reader : Reader}
    (h : readers[k]? = some reader) (stopping : Bool) (i : StreamNo) :
    readersOf (readers.set k { reader with stopping := stopping }) i = readersOf readers i := by
  induction readers generalizing k with
  | nil => cases h
  | cons head readers ih =>
      cases k with
      | zero =>
          obtain rfl : head = reader := by simpa using h
          rw [List.set_cons_zero, readersOf_cons, readersOf_cons]
      | succ k =>
          have hrest := ih (show readers[k]? = some reader by simpa using h)
          rw [List.set_cons_succ, readersOf_cons, readersOf_cons, hrest]

theorem World.addCount_apply (w : World) (i j : StreamNo) (d : Int) :
    (w.addCount i d).nOpenStreamCnt j =
      w.info.nOpenStreamCnt j + if i = j then d else 0 := by
  show Function.update _ _ _ j = _
  by_cases hij : i = j
  · subst hij
    rw [Function.update_self, if_pos rfl]
  · rw [Function.update_of_ne (Ne.symm hij), if_neg hij, Int.add_zero]

/-! ## The checks before the streams -/

section Checks

variable {info : ChannelInfo}

theorem nvrCheckHandle_cnt (cfg : ChannelCfg) (ans : Option Nat) :
    (info.nvrCheckHandle cfg ans).2.nOpenStreamCnt = info.nOpenStreamCnt := by
  unfold ChannelInfo.nvrCheckHandle
  split
  · cases ans <;> dsimp only <;> split <;> rfl
  · rfl

theorem nvrCheckIpncHandle_cnt (cfg : ChannelCfg) (ans : Option Nat) :
    (info.nvrCheckIpncHandle cfg ans).2.nOpenStreamCnt = info.nOpenStreamCnt := by
  unfold ChannelInfo.nvrCheckIpncHandle
  split
  · rfl
  · split
    · cases ans <;> dsimp only <;> split <;> rfl
    · rfl

theorem nvrCheckLogonHandle_cnt (ans : Option Nat) :
    (info.nvrCheckLogonHandle ans).2.nOpenStreamCnt = info.nOpenStreamCnt := by
  unfold ChannelInfo.nvrCheckLogonHandle
  split
  · cases ans <;> rfl
  · rfl

/-- They leave the counts alone. -/
theorem checkHandles_cnt (cfg : ChannelCfg) (calls : ConnectCalls) :
    (info.checkHandles cfg calls).2.nOpenStreamCnt = info.nOpenStreamCnt := by
  unfold ChannelInfo.checkHandles
  dsimp only
  split
  · split
    · rw [nvrCheckLogonHandle_cnt, nvrCheckIpncHandle_cnt, nvrCheckHandle_cnt]
    · rw [nvrCheckIpncHandle_cnt, nvrCheckHandle_cnt]
  · exact nvrCheckHandle_cnt cfg calls.connectServer

/-! ## The round for a stream -/

/-- What a round leaves alone. -/
structure SameBut (i : StreamNo) (info info' : ChannelInfo) : Prop where
  cnt : info'.nOpenStreamCnt = info.nOpenStreamCnt
  handle : info'.lHandle = info.lHandle
  ipnc : info'.lIpncHandle = info.lIpncHandle
  others : ∀ j, j ≠ i → info'.lStreamHandle j = info.lStreamHandle j

theorem nvrCheckStream_sameBut (info : ChannelInfo) (i : StreamNo) (calls : StreamCalls) :
    SameBut i info (info.nvrCheckStream i calls).2 := by
  have hsame : SameBut i info info := ⟨rfl, rfl, rfl, fun _ _ => rfl⟩
  unfold ChannelInfo.nvrCheckStream
  split
  · split
    · cases calls.startGetStream with
      | none => exact hsame
      | some h => exact ⟨rfl, rfl, rfl, fun j hj => Function.update_of_ne hj _ _⟩
    · split
      · exact ⟨rfl, rfl, rfl, fun j hj => Function.update_of_ne hj _ _⟩
      · exact hsame
  · exact hsame

/-- If the camera is connected and the call, if any, succeeds, the stream is
open afterwards exactly if its count is positive. -/
theorem nvrCheckStream_iff (i : StreamNo) (calls : StreamCalls)
    (hcnt : 0 ≤ info.nOpenStreamCnt i) (hhandle : info.lHandle.isSome)
    (hipnc : info.lIpncHandle.isSome) (hok : (info.nvrCheckStream i calls).1.getD true = true) :
    (info.nvrCheckStream i calls).2.lStreamHandle i ≠ none ↔ 0 < info.nOpenStreamCnt i := by
  unfold ChannelInfo.nvrCheckStream at hok ⊢
  rw [if_pos ⟨hhandle, hipnc⟩] at hok ⊢
  split at hok
  · rename_i hopen
    rw [if_pos hopen]
    cases hans : calls.startGetStream with
    | none =>
        rw [hans] at hok
        cases hok
    | some h =>
        dsimp only
        rw [Function.update_self]
        exact ⟨fun _ => hopen.2, fun _ => Option.some_ne_none h⟩
  · rename_i hnot
    rw [if_neg hnot]
    split
    · rename_i hclose
      dsimp only
      rw [Function.update_self, hclose.2]
      exact ⟨fun h => absurd rfl h, fun h => absurd h (Int.lt_irrefl 0)⟩
    · rename_i hkeep
      dsimp only
      constructor
      · intro hsome
        have hzero : info.nOpenStreamCnt i ≠ 0 := fun h => hkeep ⟨hsome, h⟩
        omega
      · exact fun hpos hnone => hnot ⟨hnone, hpos⟩

end Checks

/-! ## The steps -/

section Steps

variable {w : World}

theorem Kept.noRun (h : Kept w) {w' : World} (hrun : w'.run = none) (hcomplete : w'.complete = none)
    (hcnt : w'.info.nOpenStreamCnt = w.info.nOpenStreamCnt) (hreaders : w'.readers = w.readers) :
    Kept w' where
  count := by
    rw [hcnt, hreaders]
    exact h.count
  run r hr := by
    rw [hrun] at hr
    cases hr
  complete read hread := by
    rw [hcomplete] at hread
    cases hread

/-- A step that changes nothing but the counts and the readers, together. -/
theorem Kept.counted (h : Kept w) {w' : World} {i : StreamNo} {d : Int}
    (hinfo : w'.info = w.addCount i d) (hrun : w'.run = w.run) (hcomplete : w'.complete = none)
    (hreaders : ∀ j, (readersOf w'.readers j : Int) =
      readersOf w.readers j + if i = j then d else 0) : Kept w' where
  count j := by
    rw [hinfo, World.addCount_apply, h.count j, hreaders j]
    omega
  run r hr := by
    rw [hrun] at hr
    rw [hinfo]
    exact h.run r hr
  complete read hread := by
    rw [hcomplete] at hread
    cases hread

theorem Kept.startRead (h : Kept w) {i : StreamNo} (hrun : w.run.isNone)
    (hon : refused w (.startRead i) = false) : Kept (w.startRead i) := by
  have honline : w.info.online = true := by simpa [refused] using hon
  unfold World.startRead
  rw [if_pos honline]
  exact h.noRun (Option.isNone_iff_eq_none.1 hrun) rfl rfl rfl

theorem Kept.count_ (h : Kept w) (i : StreamNo) : Kept (w.count i) := by
  refine h.counted (i := i) (d := 1) rfl rfl rfl fun j => ?_
  show ((readersOf (⟨i, false⟩ :: w.readers) j : Nat) : Int) = _
  rw [readersOf_cons]
  dsimp only
  split <;> simp

theorem Kept.fire (h : Kept w) {k : Nat} {reader : Reader} (hk : w.readers[k]? = some reader) :
    Kept (w.fire k reader.stream) := by
  refine h.counted (i := reader.stream) (d := -1) rfl rfl rfl fun j => ?_
  have hsum := readersOf_eraseIdx hk j
  show (readersOf (w.readers.eraseIdx k) j : Int) = _
  split at hsum
  · rw [if_pos ‹_›]
    omega
  · rw [if_neg ‹_›]
    omega

theorem Kept.check (h : Kept w) (isDefault : Bool) (cfg : ChannelCfg) (calls : ConnectCalls)
    (hrun : w.run.isNone) : Kept (w.check isDefault cfg calls) := by
  have hnone := Option.isNone_iff_eq_none.1 hrun
  unfold World.check
  dsimp only
  split
  · exact h.noRun hnone rfl rfl rfl
  split
  · exact h.noRun hnone rfl rfl rfl
  refine ⟨fun i => ?_, fun r hr => ?_, fun _ hread => (by cases hread)⟩
  · show (w.info.checkHandles cfg calls).2.nOpenStreamCnt i = _
    rw [checkHandles_cnt]
    exact h.count i
  · dsimp only at hr
    split at hr
    · obtain rfl := Option.some.inj hr
      exact ⟨Nat.zero_lt_two, fun i hi => absurd hi (Nat.not_lt_zero _)⟩
    · cases hr

/-- After a round the streams up to this one are known. -/
theorem CheckRun.Done.round {info : ChannelInfo} {r : CheckRun} (hdone : r.Done info)
    {i : StreamNo} (hi : i.val = r.next) (hcnt : 0 ≤ info.nOpenStreamCnt i) (calls : StreamCalls)
    (nRet : Bool) :
    CheckRun.Done (info.nvrCheckStream i calls).2
      { r with
        next := r.next + 1
        nRet := nRet
        ok := r.ok && (info.nvrCheckStream i calls).1.getD true
        read := Function.update r.read i (info.nOpenStreamCnt i) } := by
  intro j hj hok hhandle hipnc
  have hsame := nvrCheckStream_sameBut info i calls
  rw [hsame.handle] at hhandle
  rw [hsame.ipnc] at hipnc
  obtain ⟨hokBefore, hokCall⟩ := Bool.and_eq_true_iff.1 hok
  by_cases hji : j = i
  · subst hji
    dsimp only
    rw [Function.update_self]
    exact nvrCheckStream_iff j calls hcnt hhandle hipnc hokCall
  · dsimp only
    rw [Function.update_of_ne hji, hsame.others j hji]
    have hlt : j.val < r.next := by
      have hne : j.val ≠ i.val := fun heq => hji (Fin.ext heq)
      have hle : j.val < r.next + 1 := hj
      omega
    exact hdone j hlt hokBefore hhandle hipnc

theorem Kept.checkStream (h : Kept w) {r : CheckRun} (hr : w.run = some r)
    (hlt : r.next < nvrMaxStreamNum) (calls : StreamCalls) :
    Kept (w.checkStream r ⟨r.next, hlt⟩ calls) := by
  have hround := (h.run r hr).2.round (i := ⟨r.next, hlt⟩) rfl (h.nonneg _) calls
  have hsame := nvrCheckStream_sameBut w.info ⟨r.next, hlt⟩ calls
  unfold World.checkStream
  dsimp only
  split
  · rename_i hmore
    refine ⟨fun i => ?_, fun r' hr' => ?_, fun _ hread => (by cases hread)⟩
    · show (w.info.nvrCheckStream _ calls).2.nOpenStreamCnt i = _
      rw [hsame.cnt]
      exact h.count i
    · obtain rfl := Option.some.inj hr'
      exact ⟨hmore, hround _⟩
  · rename_i hlast
    unfold World.checkEnd
    dsimp only
    split
    · refine ⟨fun i => ?_, fun _ hr' => (by cases hr'), fun read hread i => ?_⟩
      · show (w.info.nvrCheckStream _ calls).2.nOpenStreamCnt i = _
        rw [hsame.cnt]
        exact h.count i
      · dsimp only at hread
        split at hread
        · rename_i hok
          obtain rfl := Option.some.inj hread
          obtain ⟨⟨hhandle, hipnc⟩, -⟩ := Bool.and_eq_true_iff.1 hok.2 |>.imp_left
            Bool.and_eq_true_iff.1
          have hi : i.val < r.next + 1 := by
            have hmax := i.isLt
            omega
          exact hround true i hi hok.1 hhandle hipnc
        · cases hread
    · exact h.noRun rfl rfl hsame.cnt rfl

/-- Every step keeps it that does not refuse a reader. -/
theorem Kept.step (h : Kept w) {op : Op} {w' : World} (hstep : Step w op w')
    (hon : refused w op = false) : Kept w' := by
  unfold Step World.step at hstep
  cases op with
  | startRead i =>
      dsimp only at hstep
      split at hstep
      · rename_i hfree
        obtain rfl := Option.some.inj hstep
        exact h.startRead hfree.1 hon
      · cases hstep
  | count =>
      obtain ⟨i, -, rfl⟩ := Option.map_eq_some_iff.1 hstep
      exact h.count_ i
  | stopRead k =>
      dsimp only at hstep
      split at hstep
      · cases hstep
      rename_i reader hk
      split at hstep
      · cases hstep
      obtain rfl := Option.some.inj hstep
      refine ⟨fun i => ?_, h.run, fun _ hread => (by cases hread)⟩
      rw [readersOf_set hk]
      exact h.count i
  | fire k =>
      dsimp only at hstep
      split at hstep
      · cases hstep
      rename_i reader hk
      split at hstep
      · obtain rfl := Option.some.inj hstep
        exact h.fire hk
      · cases hstep
  | pushCheck =>
      obtain rfl := Option.some.inj hstep
      exact ⟨h.count, h.run, fun _ hread => (by cases hread)⟩
  | check isDefault cfg calls =>
      dsimp only at hstep
      split at hstep
      · rename_i hfree
        obtain rfl := Option.some.inj hstep
        exact h.check isDefault cfg calls hfree.1
      · cases hstep
  | checkStream calls =>
      dsimp only at hstep
      split at hstep
      · cases hstep
      rename_i r hr
      split at hstep
      · rename_i hlt
        obtain rfl := Option.some.inj hstep
        exact h.checkStream hr hlt calls
      · cases hstep
  | param ok =>
      dsimp only at hstep
      split at hstep
      · rename_i hfree
        obtain rfl := Option.some.inj hstep
        refine h.noRun (Option.isNone_iff_eq_none.1 hfree) rfl ?_ rfl
        dsimp only
        split <;> rfl
      · cases hstep

end Steps

/-- As long as every start comes while the channel is online, the counts are
those of the readers, and the streams follow them. -/
theorem countsReaders_of_online {ops : List Op} {w : World}
    (hrun : Run (Restrict Step fun w op => refused w op = false) .init ops w) :
    CountsReaders w :=
  (hrun.invariant (fun h hstep => h.step hstep.1 hstep.2) Kept.init).countsReaders

/-- A step that refuses no reader, carried out. -/
def execOnline (w : World) (op : Op) : Option World := if refused w op then none else w.step op

theorem execOnline_step {w w' : World} {op : Op} (h : execOnline w op = some w') :
    Restrict Step (fun w op => refused w op = false) w op w' := by
  unfold execOnline at h
  split at h
  · cases h
  · rename_i hon
    exact ⟨h, Bool.eq_false_iff.2 hon⟩

def frontDoor : ChannelCfg := ⟨"jxj_ti", "admin", "admin", 0xc0a80140, 6080, 554, 0, 1⟩

/-- A check of the channel that comes to its end. -/
def checkOps : List Op :=
  [.check false frontDoor ⟨some 1, some 2, some 3⟩, .checkStream ⟨some 4, true⟩,
    .checkStream ⟨some 5, true⟩]

/-- A reader of the second stream from its start to its stop. -/
def viewerOps : List Op :=
  checkOps ++ [.startRead 1, .count] ++ checkOps ++ [.stopRead 0, .fire 0] ++ checkOps

theorem countsReaders_of_online_viewer :
    ∃ w, Run (Restrict Step fun w op => refused w op = false) .init viewerOps w ∧
      w.complete.isSome = true ∧ w.info.lStreamHandle 0 = some 4 ∧
      w.info.lStreamHandle 1 = none ∧ CountsReaders w := by
  have hexec : (viewerOps.foldlM execOnline .init).any (fun w => w.complete.isSome = true ∧
      w.info.lStreamHandle 0 = some 4 ∧ w.info.lStreamHandle 1 = none) = true := by
    decide +kernel
  obtain ⟨w, hw, hend⟩ := (Option.any_eq_true _ _).1 hexec
  obtain ⟨hcomplete, hfirst, hsecond⟩ := of_decide_eq_true hend
  have hrun := Run.of_foldlM execOnline_step hw
  exact ⟨w, hrun, hcomplete, hfirst, hsecond, countsReaders_of_online hrun⟩

/-- A reader that was started and stopped before the camera was there. -/
def earlyOps : List Op := [.startRead 1, .stopRead 0, .fire 0]

theorem not_countsReaders :
    ¬∀ (ops : List Op) (w : World), Run Step .init ops w → CountsReaders w := by
  intro h
  have hexec : (earlyOps.foldlM World.step .init).any
      (fun w => w.info.nOpenStreamCnt 1 = -1) = true := by
    decide +kernel
  obtain ⟨w, hw, hcnt⟩ := (Option.any_eq_true _ _).1 hexec
  have hnonneg := (h _ w (Run.of_foldlM id hw)).nonneg 1
  rw [of_decide_eq_true hcnt] at hnonneg
  revert hnonneg
  decide

end Nvr.Channel
