import Nvr.Player.Stream

/-!
# When a stream thread stands by

Only the commands to stand by and to work take a stream thread into standby and out of it. The
others move it between working, connecting again and pausing at most, as long as what it reads can
be passed on. And none but the last command of all ends it.
-/

namespace Nvr.Player.StreamCtl

variable {hdl t u : StreamCtl}

/-- The state of the thread is the same. -/
structure SameSta (hdl t : StreamCtl) : Prop where
  sta : t.strThrSta = hdl.strThrSta
  exit : t.exit = hdl.exit

/-- Both stand by, or neither does. -/
structure SameRest (hdl t : StreamCtl) : Prop where
  rest : t.strThrSta = .standby ↔ hdl.strThrSta = .standby
  exit : t.exit = hdl.exit

theorem SameSta.trans (h : SameSta hdl t) (h' : SameSta t u) : SameSta hdl u :=
  ⟨h'.sta.trans h.sta, h'.exit.trans h.exit⟩

theorem SameSta.rest (h : SameSta hdl t) : SameRest hdl t := ⟨by rw [h.sta], h.exit⟩

theorem SameRest.refl (hdl : StreamCtl) : SameRest hdl hdl := ⟨Iff.rfl, rfl⟩

theorem SameRest.trans (h : SameRest hdl t) (h' : SameRest t u) : SameRest hdl u :=
  ⟨h'.rest.trans h.rest, h'.exit.trans h.exit⟩

@[simp] theorem staChange_sta (hdl : StreamCtl) (sta : StreamSta) :
    (hdl.staChange sta).strThrSta = sta := by
  cases sta <;> rfl

@[simp] theorem staChange_exit (hdl : StreamCtl) (sta : StreamSta) :
    (hdl.staChange sta).exit = hdl.exit := by
  cases sta <;> rfl

/-- From one state to another, neither of them standby. -/
theorem sameRest_staChange {sta : StreamSta} (hsta : sta ≠ .standby)
    (h : hdl.strThrSta ≠ .standby) : SameRest hdl (hdl.staChange sta) :=
  ⟨by simp [hsta, h], by simp⟩

theorem sameRest_repeatConnect (hdl : StreamCtl) : SameRest hdl hdl.repeatConnect := by
  unfold repeatConnect
  split
  · next h => exact sameRest_staChange (by simp) (by simp [h])
  · exact .refl hdl

theorem sameSta_videoContinue {cmd : Storage.StorageReadCmd}
    (h : hdl.videoContinue cmd = some t) : SameSta hdl t := by
  unfold videoContinue at h
  split at h
  · cases h
  · split at h <;> obtain rfl := Option.some.inj h <;> exact ⟨rfl, rfl⟩

theorem sameSta_saveReplayFile (hdl : StreamCtl) (infor : FileInfo) (now : Bool) :
    SameSta hdl (hdl.saveReplayFile infor now) := by
  unfold saveReplayFile
  split
  · cases now <;> exact ⟨rfl, rfl⟩
  · exact ⟨rfl, rfl⟩

theorem sameSta_replayDiscardCheck (hdl : StreamCtl) : SameSta hdl hdl.replayDiscardCheck := by
  unfold replayDiscardCheck
  split <;> exact ⟨rfl, rfl⟩

theorem sameSta_replayFileRing {update : Bool} (h : hdl.replayFileRing update = some t) :
    SameSta hdl t := by
  unfold replayFileRing at h
  split at h
  · obtain rfl := Option.some.inj h
    exact ⟨rfl, rfl⟩
  · cases h

theorem sameSta_replayFilePlay (hdl : StreamCtl) (update : Bool) (io : PlayIo) :
    SameSta hdl (hdl.replayFilePlay update io).1 := by
  unfold replayFilePlay
  cases update <;> cases io.start <;> exact ⟨rfl, rfl⟩

theorem sameRest_playChosen (hdl : StreamCtl) (now : Bool) (io : PlayIo) :
    SameRest hdl (hdl.playChosen now io) := by
  have hplay := (sameSta_replayFilePlay hdl now io).rest
  unfold playChosen
  simp only
  split
  · split
    · next hrepeat =>
        refine hplay.trans ⟨?_, staChange_exit _ _⟩
        rw [hrepeat]
        simp
    · exact hplay.trans ⟨Iff.rfl, rfl⟩
  · refine (hplay.trans ?_).trans (sameRest_repeatConnect _)
    exact ⟨Iff.rfl, rfl⟩

theorem sameRest_chooseFile (hdl : StreamCtl) (infor : FileInfo) (now : Bool) (io : PlayIo) :
    SameRest hdl (hdl.chooseFile infor now io) := by
  have hsave := (sameSta_saveReplayFile hdl infor now).trans (sameSta_replayDiscardCheck _)
  unfold chooseFile
  simp only
  split
  · exact hsave.rest
  · next u hring =>
      exact (hsave.trans (sameSta_replayFileRing hring)).rest.trans (sameRest_playChosen u now io)

theorem sameRest_setRate (hdl : StreamCtl) (rate : Nat) : SameRest hdl (hdl.setRate rate) := by
  unfold setRate
  simp only
  split
  · exact .refl hdl
  · cases hcont : hdl.videoContinue (readCmdOfRate rate hdl.readCmd) with
    | none =>
        have hrepeat := sameRest_repeatConnect hdl
        exact ⟨hrepeat.rest, hrepeat.exit⟩
    | some u =>
        have hsame := (sameSta_videoContinue hcont).rest
        exact ⟨hsame.rest, hsame.exit⟩

theorem sameRest_pause (hdl : StreamCtl) (on : Bool) : SameRest hdl (hdl.pause on) := by
  unfold pause
  split
  · exact .refl hdl
  · next hstd =>
      split
      · exact sameRest_staChange (by simp) hstd
      · split
        · next u hcont =>
            have hsame := sameSta_videoContinue hcont
            have hu : u.strThrSta ≠ .standby := by
              rw [hsame.sta]
              exact hstd
            exact hsame.rest.trans (sameRest_staChange (by simp) hu)
        · exact sameRest_staChange (by simp) hstd

theorem sameRest_diskOver (hdl : StreamCtl) (io : PlayIo) : SameRest hdl (hdl.diskOver io).1 := by
  have hend : SameSta hdl hdl.replayFileEnd.stopReplayVideo.replayDiscardCheck :=
    SameSta.trans (t := hdl.replayFileEnd.stopReplayVideo) ⟨rfl, rfl⟩ (sameSta_replayDiscardCheck _)
  unfold diskOver
  simp only
  split
  · exact hend.rest.trans (sameRest_repeatConnect _)
  · next u hring =>
      have hplay := hend.trans ((sameSta_replayFileRing hring).trans
        (sameSta_replayFilePlay u false io))
      split
      · exact hplay.rest
      · exact hplay.rest.trans (sameRest_repeatConnect _)

theorem sameRest_proDiskAvdata {pass : DiskPass} {ok : Bool}
    (hpass : (match pass with | .notPassed => false | _ => true) = true)
    (h : hdl.proDiskAvdata pass = some (t, ok)) : SameRest hdl t := by
  cases pass with
  | noBuffer =>
      obtain ⟨rfl, -⟩ := Prod.mk.inj (Option.some.inj h)
      exact .refl hdl
  | frame =>
      obtain ⟨-, -, heq⟩ := Option.map_eq_some_iff.1 h
      obtain ⟨rfl, -⟩ := Prod.mk.inj heq
      exact .refl hdl
  | notPassed => cases hpass
  | ended io =>
      obtain ⟨-, -, heq⟩ := Option.map_eq_some_iff.1 h
      have hover := sameRest_diskOver hdl io
      rw [heq] at hover
      exact hover

theorem sameRest_singleFrame {down : Bool} {pass : DiskPass}
    (hpass : (match pass with | .notPassed => false | _ => true) = true)
    (h : hdl.singleFrame down pass = some t) : SameRest hdl t := by
  unfold singleFrame at h
  split at h
  · obtain rfl := Option.some.inj h
    exact .refl hdl
  · next hpause =>
      rw [not_not] at hpause
      simp only at h
      split at h
      · obtain rfl := Option.some.inj h
        exact sameRest_staChange (by simp) (by simp [hpause])
      · next u hcont =>
          obtain ⟨⟨v, ok⟩, hdisk, heq⟩ := Option.map_eq_some_iff.1 h
          have hread := sameRest_proDiskAvdata hpass hdisk
          have hv : SameRest hdl v := SameRest.trans (sameSta_videoContinue hcont).rest
            ⟨hread.rest, hread.exit⟩
          split at heq
          · obtain rfl := heq
            exact hv
          · obtain rfl := heq
            have hnot : v.strThrSta ≠ .standby := fun hstd => by
              have := hv.rest.1 hstd
              simp [hpause] at this
            exact hv.trans (sameRest_staChange (by simp) hnot)

theorem sameRest_noMessage {disk : DiskPass} {net : NetPass} {connected : Bool}
    (hdisk : (match disk with | .notPassed => false | _ => true) = true)
    (hnet : (match net with | .notPassed => false | _ => true) = true)
    (h : hdl.noMessage disk net connected = some t) : SameRest hdl t := by
  unfold noMessage at h
  split at h
  · next hwork =>
      split at h
      · obtain ⟨⟨v, ok⟩, hv, rfl⟩ := Option.map_eq_some_iff.1 h
        exact sameRest_proDiskAvdata hdisk hv
      · obtain rfl := Option.some.inj h
        cases net with
        | done => exact .refl hdl
        | notPassed => cases hnet
        | noStream =>
            have hnot : hdl.strThrSta ≠ .standby := by simp [hwork]
            exact @sameRest_staChange _ .connectRepeat (by simp) hnot
  · next hrepeat =>
      split at h <;> obtain rfl := Option.some.inj h
      · exact sameRest_staChange (by simp) (by simp [hrepeat])
      · exact .refl hdl
  all_goals
    obtain rfl := Option.some.inj h
    exact .refl hdl

theorem standby_sta (hdl : StreamCtl) :
    hdl.standby.strThrSta = .standby ∧ hdl.standby.exit = hdl.exit := by
  unfold standby
  simp only [staChange_sta, staChange_exit, true_and]
  split <;> rfl

theorem workOnAlready_sta (hdl : StreamCtl) (record : StreamMode) (connected : Bool) :
    (hdl.workOnAlready record connected).strThrSta ≠ .standby ∧
      (hdl.workOnAlready record connected).exit = hdl.exit := by
  unfold workOnAlready
  split
  · next h => exact ⟨h, rfl⟩
  · split
    · refine ⟨?_, by simp⟩
      rw [staChange_sta]
      split <;> simp
    · refine ⟨?_, by simp⟩
      simp only [staChange_sta]
      split <;> simp

end Nvr.Player.StreamCtl
