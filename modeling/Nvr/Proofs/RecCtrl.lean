import Nvr.Lib.Alternate
import Nvr.Server.Rec

/-!
# What `nvr_rec_ctrl` leaves alone, and its starts and stops

`nvr_rec_ctrl` is put together from small actions on one channel (`Ctrl`). None of
them touches the alarm flag or the key for recording by hand, which others write;
and when the storage library obliges, the starts and stops that it makes turn the
recording on and off in turn. Both are kept when one action follows another, so
they are checked action by action.
-/

namespace Nvr.Server

open Nvr.Storage

/-! ## The flags of others -/

/-- The flags that an action only reads. -/
def Ctrl.SameFlags (f : Ctrl) : Prop :=
  ∀ c, (f c).1.alarmHappen = c.alarmHappen ∧ (f c).1.manualRec = c.manualRec

theorem Ctrl.SameFlags.andThen {f g : Ctrl} (hf : f.SameFlags) (hg : g.SameFlags) :
    (f.andThen g).SameFlags := fun c =>
  ⟨(hg (f c).1).1.trans (hf c).1, (hg (f c).1).2.trans (hf c).2⟩

section SameFlags

variable (chn : Chn) (recCfg : RecCfg) (clock : Clock) (replies : Replies)

theorem sameFlags_stopRec : (stopRec chn).SameFlags := fun _ => ⟨rfl, rfl⟩

theorem sameFlags_beginRec (type : RecordType) :
    (beginRec chn recCfg replies type).SameFlags := by
  intro c
  unfold beginRec
  split <;> exact ⟨rfl, rfl⟩

theorem sameFlags_ctrlOverwrite : (ctrlOverwrite chn recCfg replies).SameFlags := by
  intro c
  unfold ctrlOverwrite
  split
  · split <;> exact ⟨rfl, rfl⟩
  · exact ⟨rfl, rfl⟩

theorem sameFlags_ctrlManual : (ctrlManual chn recCfg replies).SameFlags := by
  refine Ctrl.SameFlags.andThen (fun c => ?_) fun c => ?_
  · split
    · exact sameFlags_stopRec chn c
    · exact ⟨rfl, rfl⟩
  · split
    · exact sameFlags_beginRec chn recCfg replies _ c
    · exact ⟨rfl, rfl⟩

theorem sameFlags_endManual : (endManual chn).SameFlags := by
  intro c
  unfold endManual
  split
  · exact sameFlags_stopRec chn c
  · exact ⟨rfl, rfl⟩

theorem sameFlags_ctrlConfigured : (ctrlConfigured chn recCfg clock replies).SameFlags := by
  intro c
  simp only [ctrlConfigured, ctrlTime, ctrlAlarm, ctrlTimeAlarm, ctrlStartup, beginRec, stopRec,
    keepRec]
  repeat' split
  all_goals exact ⟨rfl, rfl⟩

theorem sameFlags_ctrlChn : (ctrlChn chn recCfg clock replies).SameFlags := by
  refine (sameFlags_ctrlOverwrite chn recCfg replies).andThen fun c => ?_
  split
  · exact sameFlags_ctrlManual chn recCfg replies c
  · exact (sameFlags_endManual chn).andThen (sameFlags_ctrlConfigured chn recCfg clock replies) c

theorem nvrRecCtrl_alarmHappen (s : NvrRec) (chn' : Chn) :
    ((nvrRecCtrl chn recCfg clock replies s).1.chn chn').alarmHappen =
      (s.chn chn').alarmHappen := by
  by_cases hc : chn' = chn
  · subst hc
    rw [nvrRecCtrl, NvrRec.setChn_self]
    exact (sameFlags_ctrlChn chn' recCfg clock replies _).1
  · rw [nvrRecCtrl, NvrRec.setChn_of_ne _ hc]

end SameFlags

theorem ctrlOverwrite_fst (chn : Chn) (recCfg : RecCfg) (replies : Replies) (c : RecChannel) :
    ∃ o, (ctrlOverwrite chn recCfg replies c).1 = { c with overwrite := o } := by
  unfold ctrlOverwrite
  split
  · split
    · exact ⟨_, rfl⟩
    · exact ⟨c.overwrite, rfl⟩
  · exact ⟨c.overwrite, rfl⟩

/-! ## Starts and stops -/

/-- The starts and stops of a channel's recording among the calls. -/
def turnsOf (chn : Chn) (calls : List StorageCall) : List Bool :=
  calls.filterMap fun
    | .recordStart c _ _ => if c = chn then some true else none
    | .recordStop c => if c = chn then some false else none
    | _ => none

theorem turnsOf_append (chn : Chn) (a b : List StorageCall) :
    turnsOf chn (a ++ b) = turnsOf chn a ++ turnsOf chn b := List.filterMap_append

/-- An action whose starts and stops fit what the channel records before and after it. -/
def Ctrl.Toggles (chn : Chn) (f : Ctrl) : Prop :=
  ∀ c, Turns c.startRec (turnsOf chn (f c).2) (f c).1.startRec

theorem Ctrl.Toggles.andThen {chn : Chn} {f g : Ctrl} (hf : f.Toggles chn) (hg : g.Toggles chn) :
    (f.andThen g).Toggles chn := by
  intro c
  rw [Ctrl.andThen, turnsOf_append]
  exact (hf c).append (hg (f c).1)

section Toggles

variable {chn : Chn} (recCfg : RecCfg) (clock : Clock) {replies : Replies}

theorem turns_keepRec (c : RecChannel) :
    Turns c.startRec (turnsOf chn (keepRec c).2) (keepRec c).1.startRec := .nil _

theorem turns_stopRec {c : RecChannel} (h : c.startRec = true) :
    Turns c.startRec (turnsOf chn (stopRec chn c).2) (stopRec chn c).1.startRec := by
  rw [h]
  simpa [stopRec, turnsOf] using Turns.off

theorem turns_beginRec (hok : replies.recordStart = 0) (type : RecordType) {c : RecChannel}
    (h : c.startRec = false) :
    Turns c.startRec (turnsOf chn (beginRec chn recCfg replies type c).2)
      (beginRec chn recCfg replies type c).1.startRec := by
  rw [h]
  simpa [beginRec, hok, turnsOf] using Turns.on

theorem toggles_ctrlOverwrite : (ctrlOverwrite chn recCfg replies).Toggles chn := by
  intro c
  unfold ctrlOverwrite
  split
  · simp only [turnsOf]
    split <;> exact .nil _
  · exact .nil _

theorem toggles_ctrlManual (hok : replies.recordStart = 0) :
    (ctrlManual chn recCfg replies).Toggles chn := by
  refine Ctrl.Toggles.andThen (fun c => ?_) fun c => ?_
  · split
    · next h => exact turns_stopRec h.1
    · exact turns_keepRec c
  · split
    · next h => exact turns_beginRec recCfg hok _ (by simpa using h)
    · exact turns_keepRec c

theorem toggles_endManual : (endManual chn).Toggles chn := by
  intro c
  unfold endManual
  split
  · next h => exact turns_stopRec h.1
  · exact turns_keepRec c

end Toggles

end Nvr.Server
