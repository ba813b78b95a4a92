import Nvr.Lib.Custody
import Nvr.Lib.Run
import Nvr.Player.DisplayBuf

/-!
# Every display buffer is in one place

`new_buf` is set by the first channel to register, outside of the lock that channel fetches its
buffer, and until then `dis_buf_id` names the buffer that was published last, which is somewhere
else. What guards it is the registration: nothing is published while a channel is registered. So
with `dis_buf_id` counted from its fetch on, and the display thread's own variable counted too, no
step of a working display changes how often a buffer occurs.

Standing by drops what `dis_buf_id` named and leaves the queues as they were, and `player_dis_buf_clr`
leaves `buf_id_loop`. Nothing is done with a buffer then, and the first channel to work again puts
every buffer into the empty queue.
-/

namespace Nvr.Player.DisplayBuf

open Custody

/-! ## Talking to the display -/

/-- What the display knows of a copy thread. -/
inductive Phase where
  | off
  | starting
  | stopping
  | on
  deriving DecidableEq

def CopyAt.phase : CopyAt → Phase
  | .standby => .off
  | .starting => .starting
  | .stopping => .stopping
  | _ => .on

/-- The display's bits follow its answers, one message is under way for each thread that waits for
one, and the display stands by if all threads do. -/
structure Turns (s : Display) : Prop where
  bit : ∀ ch, s.standbySta ch = true ↔
    (s.copyAt ch).phase = .off ∨ (s.copyAt ch).phase = .starting
  workOnMsg : ∀ ch, s.msgs.count (.workOn ch) =
    if (s.copyAt ch).phase = .starting then 1 else 0
  standbyMsg : ∀ ch, s.msgs.count (.standby ch) =
    if (s.copyAt ch).phase = .stopping then 1 else 0
  sta : s.disThrSta = .standby ↔ ∀ ch, s.standbySta ch = true

section

variable {s t : Display} {ch : Ch} {p : CopyAt} {id : Nat}

theorem setCopy_copyAt (s : Display) (ch d : Ch) (p : CopyAt) :
    (setCopy s ch p).copyAt d = if d = ch then p else s.copyAt d := by
  simp [setCopy, Function.update_apply]

/-- A thread at work moves on. -/
theorem Turns.moves (h : Turns s) (hphase : ∀ ch, (t.copyAt ch).phase = (s.copyAt ch).phase)
    (hmsgs : ∀ m : DisplayCmd, m ≠ .newData → t.msgs.count m = s.msgs.count m)
    (hbits : t.standbySta = s.standbySta) (hsta : t.disThrSta = s.disThrSta) : Turns t where
  bit d := by rw [hbits, hphase, h.bit]
  workOnMsg d := by rw [hmsgs (.workOn d) (by simp), hphase, h.workOnMsg]
  standbyMsg d := by rw [hmsgs (.standby d) (by simp), hphase, h.standbyMsg]
  sta := by rw [hsta, hbits, h.sta]

theorem phase_setCopy (hon : (s.copyAt ch).phase = p.phase) (d : Ch) :
    ((setCopy s ch p).copyAt d).phase = (s.copyAt d).phase := by
  rw [setCopy_copyAt]
  split
  · next hd => rw [hd, hon]
  · rfl

theorem count_newData (msgs : List DisplayCmd) {m : DisplayCmd} (hm : m ≠ .newData) :
    (msgs ++ [DisplayCmd.newData]).count m = msgs.count m := by
  rw [List.count_append, List.count_singleton, if_neg (by simpa using hm.symm), Nat.add_zero]

/-- A thread that is not off and not starting has the display at work. -/
theorem Turns.works (h : Turns s) (hch : (s.copyAt ch).phase = .on) : s.disThrSta = .workOn := by
  cases hsta : s.disThrSta with
  | workOn => rfl
  | standby =>
      have := (h.bit ch).1 (h.sta.1 hsta ch)
      simp [hch] at this

theorem Turns.asked (h : Turns s) {q : CopyAt} {m : DisplayCmd}
    (hcopy : ∀ d, d ≠ ch → t.copyAt d = s.copyAt d) (hch : t.copyAt ch = q)
    (hmsgs : t.msgs = s.msgs ++ [m]) (hbits : t.standbySta = s.standbySta)
    (hsta : t.disThrSta = s.disThrSta)
    (hm : (m = .workOn ch ∧ q = .starting ∧ s.copyAt ch = .standby) ∨
      (m = .standby ch ∧ q = .stopping ∧ s.copyAt ch = .ready)) : Turns t := by
  have hcount : ∀ n, t.msgs.count n = s.msgs.count n + if m = n then 1 else 0 := by
    intro n
    rw [hmsgs, List.count_append, List.count_singleton]
    simp
  constructor
  · intro d
    rw [hbits, h.bit]
    by_cases hd : d = ch
    · subst hd
      rcases hm with ⟨-, rfl, hs⟩ | ⟨-, rfl, hs⟩ <;> simp [hch, hs, CopyAt.phase]
    · rw [hcopy d hd]
  · intro d
    rw [hcount, h.workOnMsg]
    by_cases hd : d = ch
    · subst hd
      rcases hm with ⟨rfl, rfl, hs⟩ | ⟨rfl, rfl, hs⟩ <;> simp [hch, hs, CopyAt.phase]
    · rcases hm with ⟨rfl, -, -⟩ | ⟨rfl, -, -⟩ <;> simp [hcopy d hd, Ne.symm hd]
  · intro d
    rw [hcount, h.standbyMsg]
    by_cases hd : d = ch
    · subst hd
      rcases hm with ⟨rfl, rfl, hs⟩ | ⟨rfl, rfl, hs⟩ <;> simp [hch, hs, CopyAt.phase]
    · rcases hm with ⟨rfl, -, -⟩ | ⟨rfl, -, -⟩ <;> simp [hcopy d hd, Ne.symm hd]
  · rw [hsta, hbits, h.sta]

/-- The display answers a thread that works again. -/
theorem Turns.workOn {msgs : List DisplayCmd} (h : Turns s) (hmsgs : s.msgs = .workOn ch :: msgs) :
    Turns (workOn { s with msgs := msgs } ch) := by
  have hcount : ∀ m : DisplayCmd,
      s.msgs.count m = msgs.count m + if DisplayCmd.workOn ch = m then 1 else 0 := by
    intro m
    rw [hmsgs, List.count_cons]
    simp
  have hstarting : (s.copyAt ch).phase = .starting := by
    have hch := h.workOnMsg ch
    rw [hcount, if_pos rfl] at hch
    by_contra hne
    rw [if_neg hne] at hch
    omega
  have hfields : (DisplayBuf.workOn { s with msgs := msgs } ch).standbySta =
        Function.update s.standbySta ch false ∧
      (DisplayBuf.workOn { s with msgs := msgs } ch).copyAt = Function.update s.copyAt ch .ready ∧
      (DisplayBuf.workOn { s with msgs := msgs } ch).msgs = msgs ∧
      (DisplayBuf.workOn { s with msgs := msgs } ch).disThrSta = .workOn := by
    unfold DisplayBuf.workOn
    cases s.disThrSta <;> simp [setCopy, playerDisBufClr]
  obtain ⟨hbits, hcopy, hrest, hsta⟩ := hfields
  constructor
  · intro d
    rw [hbits, hcopy]
    by_cases hd : d = ch
    · subst hd
      simp [CopyAt.phase]
    · simpa [hd] using h.bit d
  · intro d
    have hmsg := h.workOnMsg d
    rw [hcount] at hmsg
    rw [hrest, hcopy]
    by_cases hd : d = ch
    · subst hd
      rw [hstarting] at hmsg
      simpa [CopyAt.phase] using hmsg
    · simpa [hd, Ne.symm hd] using hmsg
  · intro d
    have hmsg := h.standbyMsg d
    rw [hcount] at hmsg
    rw [hrest, hcopy]
    by_cases hd : d = ch
    · subst hd
      rw [hstarting] at hmsg
      simpa [CopyAt.phase] using hmsg
    · simpa [hd] using hmsg
  · rw [hsta, hbits]
    refine ⟨fun heq => (by simp at heq), fun hall => ?_⟩
    have := hall ch
    simp at this

/-- The display answers a thread that stands by. -/
theorem Turns.standby {msgs : List DisplayCmd} (h : Turns s)
    (hmsgs : s.msgs = .standby ch :: msgs) : Turns (standby { s with msgs := msgs } ch) := by
  have hcount : ∀ m : DisplayCmd,
      s.msgs.count m = msgs.count m + if DisplayCmd.standby ch = m then 1 else 0 := by
    intro m
    rw [hmsgs, List.count_cons]
    simp
  have hstopping : (s.copyAt ch).phase = .stopping := by
    have hch := h.standbyMsg ch
    rw [hcount, if_pos rfl] at hch
    by_contra hne
    rw [if_neg hne] at hch
    omega
  have hworks : s.disThrSta = .workOn := by
    cases hsta : s.disThrSta with
    | workOn => rfl
    | standby =>
        have := (h.bit ch).1 (h.sta.1 hsta ch)
        simp [hstopping] at this
  have hfields : (DisplayBuf.standby { s with msgs := msgs } ch).standbySta =
        Function.update s.standbySta ch true ∧
      (DisplayBuf.standby { s with msgs := msgs } ch).copyAt =
        Function.update s.copyAt ch .standby ∧
      (DisplayBuf.standby { s with msgs := msgs } ch).msgs = msgs ∧
      ((DisplayBuf.standby { s with msgs := msgs } ch).disThrSta = .standby ↔
        ∀ d, Function.update s.standbySta ch true d = true) := by
    unfold DisplayBuf.standby
    by_cases hall : ∀ d, Function.update s.standbySta ch true d = true
    · simp [setCopy, disThrBufProcessInit, hall]
    · simp [setCopy, hall, hworks]
  obtain ⟨hbits, hcopy, hrest, hsta⟩ := hfields
  constructor
  · intro d
    rw [hbits, hcopy]
    by_cases hd : d = ch
    · subst hd
      simp [CopyAt.phase]
    · simpa [hd] using h.bit d
  · intro d
    have hmsg := h.workOnMsg d
    rw [hcount] at hmsg
    rw [hrest, hcopy]
    by_cases hd : d = ch
    · subst hd
      rw [hstopping] at hmsg
      simpa [CopyAt.phase] using hmsg
    · simpa [hd] using hmsg
  · intro d
    have hmsg := h.standbyMsg d
    rw [hcount] at hmsg
    rw [hrest, hcopy]
    by_cases hd : d = ch
    · subst hd
      rw [hstopping] at hmsg
      simpa [CopyAt.phase] using hmsg
    · simpa [hd, Ne.symm hd] using hmsg
  · rw [hsta, hbits]

/-! ## The operations -/

theorem playerQueGet_some {queue rest : List Nat} {bufId : Nat}
    (h : playerQueGet queue = some (bufId, rest)) : queue = bufId :: rest := by
  cases queue with
  | nil => simp [playerQueGet] at h
  | cons a queue =>
      obtain ⟨rfl, rfl⟩ := Prod.mk.inj (Option.some.inj h)
      rfl

theorem playerQuePut_some {queue queue' : List Nat} {bufId : Nat}
    (h : playerQuePut queue bufId = some queue') : queue' = queue ++ [bufId] :=
  (Option.some.inj (Option.ite_none_right_eq_some.1 h).2).symm

/-- What publishing the back image does. -/
def published (s : Display) : Display :=
  { s with
    updata := false
    newBuf := false
    fullQueue := s.fullQueue ++ [s.disBufId]
    getBufAlready := fun _ => false
    msgs := s.msgs ++ [.newData] }

theorem disThrPutFullBuf_cases (h : disThrPutFullBuf s = some t) :
    t = s ∨ (¬Registered s ∧ s.newBuf = true ∧ t = published s) := by
  unfold disThrPutFullBuf at h
  split at h
  · next hcond =>
      obtain ⟨queue, hput, heq⟩ := Option.bind_eq_some_iff.1 h
      rw [playerQuePut_some hput] at heq
      exact .inr ⟨hcond.2.1, hcond.2.2, (Option.some.inj heq).symm⟩
  · exact .inl (Option.some.inj h).symm

/-- What the display gives back joins its loop, and what leaves the loop is empty. -/
theorem disPutEmptyBuf_cases (h : disPutEmptyBuf s id = some t) :
    ∃ queue loop, t = { s with emptyQueue := queue, bufIdLoop := loop } ∧
      (queue ++ loop).Perm (s.emptyQueue ++ s.bufIdLoop ++ [id]) := by
  unfold disPutEmptyBuf at h
  split at h
  · next a b c heq =>
      obtain ⟨queue, hput, ht⟩ := Option.bind_eq_some_iff.1 h
      refine ⟨queue, [b, c], (Option.some.inj ht).symm, ?_⟩
      rw [playerQuePut_some hput, List.append_assoc, List.append_assoc, heq]
      exact List.Perm.refl _
  · next loop _ =>
      refine ⟨s.emptyQueue, s.bufIdLoop ++ [id], (Option.some.inj h).symm, ?_⟩
      rw [List.append_assoc]

/-- Registering, told by what the thread is at afterwards. -/
theorem register_cases (s : Display) (ch : Ch) :
    (¬Registered s ∧ s.newBuf = false ∧ register s ch = setCopy { s with
      newBuf := true
      getBufAlready := Function.update s.getBufAlready ch true
      bufUseReg := Function.update s.bufUseReg ch true } ch .getting) ∨
    ((Registered s ∨ s.newBuf = true) ∧ register s ch = setCopy { s with
      getBufAlready := Function.update s.getBufAlready ch true
      bufUseReg := Function.update s.bufUseReg ch true } ch .drawing) := by
  unfold register
  by_cases hfirst : ¬Registered s ∧ s.newBuf = false
  · refine .inl ⟨hfirst.1, hfirst.2, ?_⟩
    simp only [hfirst, not_false_eq_true, and_self, decide_true, Bool.or_true, if_true]
  · refine .inr ⟨?_, ?_⟩
    · by_contra hno
      rw [not_or] at hno
      exact hfirst ⟨hno.1, by simpa using hno.2⟩
    · simp only [hfirst, decide_false, Bool.or_false, if_false]

theorem Turns.register (h : Turns s) (hch : (s.copyAt ch).phase = .on) :
    Turns (register s ch) := by
  rcases register_cases s ch with ⟨-, -, heq⟩ | ⟨-, heq⟩ <;> rw [heq]
  · exact h.moves (phase_setCopy hch) (fun _ _ => rfl) rfl rfl
  · exact h.moves (phase_setCopy hch) (fun _ _ => rfl) rfl rfl

theorem Turns.putFull (h : Turns s) (hput : disThrPutFullBuf s = some t) : Turns t := by
  rcases disThrPutFullBuf_cases hput with rfl | ⟨-, -, rfl⟩
  · exact h
  · exact h.moves (fun _ => rfl) (fun _ hm => count_newData _ hm) rfl rfl

/-! ## Counting -/

/-- What a variable adds to the count. -/
def held (o : Option Nat) (id : Nat) : Nat := if o = some id then 1 else 0

@[simp] theorem held_none (id : Nat) : held none id = 0 := if_neg (by simp)

@[simp] theorem held_some (a id : Nat) : held (some a) id = if a = id then 1 else 0 := by
  simp [held]

theorem count_toList (o : Option Nat) (id : Nat) : o.toList.count id = held o id := by
  cases o with
  | none => rfl
  | some a => simp [held, List.count_singleton]

theorem count_places (s : Display) (id : Nat) : (places s).count id =
    s.emptyQueue.count id + s.fullQueue.count id + s.bufIdLoop.count id + held (backBuf s) id +
      held s.disAt.bufId id + slotCount (fun ch => (s.copyAt ch).bufId) id := by
  have hcopy : (copyBufs s).count id = slotCount (fun ch => (s.copyAt ch).bufId) id := by
    rw [copyBufs, List.count_filterMap, slotCount]
    exact List.countP_congr fun d _ => by simp
  rw [places, List.count_append, List.count_append, List.count_append, List.count_append,
    List.count_append, count_toList, count_toList, hcopy]

/-- What is in the queues, the loop and the variables outside of the copy threads. -/
def shared (s : Display) (id : Nat) : Nat :=
  s.emptyQueue.count id + s.fullQueue.count id + s.bufIdLoop.count id + held (backBuf s) id +
    held s.disAt.bufId id

/-- Thread `ch` moves on, and what it lets go of is found again among the rest. -/
theorem count_moved (hcopy : t.copyAt = Function.update s.copyAt ch p)
    (hshared : shared t id + held p.bufId id = shared s id + held (s.copyAt ch).bufId id) :
    (places t).count id = (places s).count id := by
  have hupdate : (fun d => (t.copyAt d).bufId) =
      Function.update (fun d => (s.copyAt d).bufId) ch p.bufId := by
    funext d
    rw [hcopy]
    by_cases hd : d = ch
    · subst hd
      simp
    · simp [hd]
  have hslot : slotCount (fun d => (t.copyAt d).bufId) id + held (s.copyAt ch).bufId id =
      slotCount (fun d => (s.copyAt d).bufId) id + held p.bufId id := by
    rw [hupdate]
    exact slotCount_update _ ch p.bufId id
  rw [count_places, count_places]
  simp only [shared] at hshared
  omega

/-- The copy threads stay as they are. -/
theorem count_stayed (hcopy : t.copyAt = s.copyAt) (hshared : shared t id = shared s id) :
    (places t).count id = (places s).count id := by
  rw [count_places, count_places, hcopy]
  exact congrArg (· + _) hshared

theorem getting_setCopy (hs : s.copyAt ch ≠ .getting) (hp : p ≠ .getting) :
    Getting (setCopy s ch p) ↔ Getting s := by
  constructor
  · rintro ⟨d, hd⟩
    rw [setCopy_copyAt] at hd
    split at hd
    · exact absurd hd hp
    · exact ⟨d, hd⟩
  · rintro ⟨d, hd⟩
    refine ⟨d, ?_⟩
    rw [setCopy_copyAt, if_neg]
    · exact hd
    · rintro rfl
      exact hs hd

theorem backBuf_congr (hnew : t.newBuf = s.newBuf) (hid : t.disBufId = s.disBufId)
    (hgetting : Getting t ↔ Getting s) : backBuf t = backBuf s := by
  simp only [backBuf, hnew, hid, hgetting]

/-- What holds of all that is reached: the threads and the display agree, the registered channels
are those that have the back image in hand, one of them at most is about to fetch a buffer for it,
a display that stands by does nothing, and while it works each buffer is in one place. -/
structure Inv (s : Display) : Prop extends Turns s where
  reg : ∀ ch, s.bufUseReg ch = true ↔ s.copyAt ch = .getting ∨ s.copyAt ch = .drawing
  newBuf : Registered s → s.newBuf = true
  one : ∀ c d, s.copyAt c = .getting → s.copyAt d = .getting → c = d
  rest : s.disThrSta = .standby → s.newBuf = false ∧ s.disAt = .idle
  once : s.disThrSta = .workOn → ∀ id, (places s).count id = if id < displayBufNum then 1 else 0

/-- A thread has neither the back image nor a buffer in hand. -/
def CopyAt.Free (p : CopyAt) : Prop := p ≠ .getting ∧ p ≠ .drawing ∧ p.bufId = none

/-- A thread moves on without touching the back image or a flag. -/
theorem Inv.moves (h : Inv s) (hturns : Turns t)
    (hcopy : t.copyAt = Function.update s.copyAt ch p) (hreg : t.bufUseReg = s.bufUseReg)
    (hnew : t.newBuf = s.newBuf) (hid : t.disBufId = s.disBufId) (hdis : t.disAt = s.disAt)
    (hsta : t.disThrSta = s.disThrSta)
    (hs : s.copyAt ch ≠ .getting ∧ s.copyAt ch ≠ .drawing) (hp : p ≠ .getting ∧ p ≠ .drawing)
    (hcount : ∀ id, t.emptyQueue.count id + t.fullQueue.count id + t.bufIdLoop.count id +
        held p.bufId id =
      s.emptyQueue.count id + s.fullQueue.count id + s.bufIdLoop.count id +
        held (s.copyAt ch).bufId id) : Inv t := by
  have hcopyAt : ∀ d, t.copyAt d = if d = ch then p else s.copyAt d := by
    intro d
    rw [hcopy, Function.update_apply]
  have hgetting : ∀ d, t.copyAt d = .getting ↔ s.copyAt d = .getting := by
    intro d
    rw [hcopyAt]
    split
    · next hd => simp [hd, hs.1, hp.1]
    · rfl
  refine ⟨hturns, fun d => ?_, fun hused => ?_, fun c d hc hd => ?_, fun hstd => ?_,
    fun hwork id => ?_⟩
  · rw [hreg, h.reg, hcopyAt]
    split
    · next hd => simp [hd, hs.1, hs.2, hp.1, hp.2]
    · rfl
  · rw [hnew]
    exact h.newBuf (hused.imp fun _ hd => hreg ▸ hd)
  · exact h.one c d ((hgetting c).1 hc) ((hgetting d).1 hd)
  · rw [hnew, hdis]
    exact h.rest (hsta ▸ hstd)
  · rw [← h.once (hsta ▸ hwork) id]
    have hback : backBuf t = backBuf s := backBuf_congr hnew hid (exists_congr hgetting)
    have := hcount id
    refine count_moved hcopy ?_
    rw [shared, shared, hback, hdis]
    omega

theorem Inv.not_getting (h : Inv s) (hreg : ¬Registered s) (d : Ch) : s.copyAt d ≠ .getting := by
  intro hd
  exact hreg ⟨d, (h.reg d).2 (.inl hd)⟩

theorem Inv.register (h : Inv s) (hon : (s.copyAt ch).phase = .on) (hs : (s.copyAt ch).Free) :
    Inv (register s ch) := by
  have hturns := h.toTurns.register hon
  have hworks := h.toTurns.works hon
  rcases register_cases s ch with ⟨hreg, hnew, heq⟩ | ⟨hused, heq⟩
  · rw [heq] at hturns ⊢
    refine ⟨hturns, fun d => ?_, fun _ => rfl, fun c d => ?_, fun hsta => ?_, fun hsta id => ?_⟩
    · rw [setCopy_copyAt]
      show Function.update s.bufUseReg ch true d = true ↔ _
      by_cases hd : d = ch
      · simp [hd]
      · simp [hd, h.reg d]
    · rw [setCopy_copyAt, setCopy_copyAt]
      split
      · split
        · next hc hd => exact fun _ _ => hc.trans hd.symm
        · exact fun _ hd => absurd hd (h.not_getting hreg d)
      · exact fun hc => absurd hc (h.not_getting hreg c)
    · exact absurd (hworks.symm.trans hsta) (by simp)
    · rw [← h.once hworks id]
      refine count_moved rfl ?_
      have hback : backBuf s = none := by simp [backBuf, hnew]
      rw [shared, shared, hs.2.2, hback,
        show backBuf (setCopy _ ch .getting) = none from if_neg fun hb => hb.2 ⟨ch, by simp [setCopy]⟩]
      rfl
  · have hnew : s.newBuf = true := hused.elim h.newBuf id
    rw [heq] at hturns ⊢
    refine ⟨hturns, fun d => ?_, fun _ => hnew, fun c d => ?_, fun hsta => ?_, fun hsta id => ?_⟩
    · rw [setCopy_copyAt]
      show Function.update s.bufUseReg ch true d = true ↔ _
      by_cases hd : d = ch
      · simp [hd]
      · simp [hd, h.reg d]
    · rw [setCopy_copyAt, setCopy_copyAt]
      split
      · simp
      · split
        · simp
        · exact h.one c d
    · exact absurd (hworks.symm.trans hsta) (by simp)
    · rw [← h.once hworks id]
      refine count_moved rfl ?_
      have hback : backBuf (setCopy { s with
          getBufAlready := Function.update s.getBufAlready ch true
          bufUseReg := Function.update s.bufUseReg ch true } ch .drawing) = backBuf s :=
        backBuf_congr rfl rfl (getting_setCopy hs.1 (by simp))
      rw [shared, hback, hs.2.2]
      rfl

/-- The fetched buffer is what `dis_buf_id` names from here on. -/
theorem Inv.getEmpty {queue : List Nat} (h : Inv s) (hch : s.copyAt ch = .getting)
    (hqueue : s.emptyQueue = id :: queue) :
    Inv (setCopy { s with emptyQueue := queue, disBufId := id } ch .drawing) := by
  have hon : (s.copyAt ch).phase = .on := by rw [hch]; rfl
  have hworks := h.toTurns.works hon
  have hnew : s.newBuf = true := h.newBuf ⟨ch, (h.reg ch).2 (.inl hch)⟩
  have hnone : ¬Getting (setCopy { s with emptyQueue := queue, disBufId := id } ch .drawing) := by
    rintro ⟨d, hd⟩
    rw [setCopy_copyAt] at hd
    split at hd
    · cases hd
    · next hne => exact hne (h.one d ch hd hch)
  refine ⟨h.toTurns.moves (phase_setCopy hon) (fun _ _ => rfl) rfl rfl, fun d => ?_, h.newBuf,
    fun c d => ?_, h.rest, fun _ x => ?_⟩
  · rw [setCopy_copyAt]
    show s.bufUseReg d = true ↔ _
    by_cases hd : d = ch
    · subst hd
      simp [h.reg, hch]
    · simp [hd, h.reg d]
  · exact fun hc => absurd ⟨c, hc⟩ hnone
  · rw [← h.once hworks x]
    refine count_moved rfl ?_
    have hback : backBuf (setCopy { s with emptyQueue := queue, disBufId := id } ch .drawing) =
        some id := if_pos ⟨hnew, hnone⟩
    rw [shared, shared, hback, hch, hqueue, show backBuf s = none from if_neg fun hb => hb.2 ⟨ch, hch⟩,
      List.count_cons]
    simp only [setCopy, CopyAt.bufId, held_some, held_none, beq_iff_eq]
    omega

theorem Inv.unregister (h : Inv s) (hch : s.copyAt ch = .drawing) :
    Inv (disThrGetBufUnregister s ch) := by
  have hon : (s.copyAt ch).phase = .on := by rw [hch]; rfl
  have hworks := h.toTurns.works hon
  refine ⟨h.toTurns.moves (phase_setCopy hon) (fun _ _ => rfl) rfl rfl, fun d => ?_, ?_,
    fun c d => ?_, h.rest, fun _ x => ?_⟩
  · rw [disThrGetBufUnregister, setCopy_copyAt]
    show Function.update s.bufUseReg ch false d = true ↔ _
    by_cases hd : d = ch
    · simp [hd]
    · simp [hd, h.reg d]
  · intro _
    exact h.newBuf ⟨ch, (h.reg ch).2 (.inr hch)⟩
  · rw [disThrGetBufUnregister, setCopy_copyAt, setCopy_copyAt]
    split
    · simp
    · split
      · simp
      · exact h.one c d
  · rw [← h.once hworks x]
    have hback : backBuf (disThrGetBufUnregister s ch) = backBuf s :=
      backBuf_congr rfl rfl (getting_setCopy (by simp [hch]) (by simp))
    refine count_moved rfl ?_
    rw [shared, hback, hch]
    rfl

/-- What is published leaves `dis_buf_id` for the full queue, with no channel at the image. -/
theorem Inv.publish (h : Inv s) (hreg : ¬Registered s) (hnew : s.newBuf = true) :
    Inv (published s) := by
  have hworks : s.disThrSta = .workOn := by
    cases hsta : s.disThrSta with
    | workOn => rfl
    | standby => exact absurd (hnew.symm.trans (h.rest hsta).1) (by simp)
  refine ⟨h.toTurns.moves (fun _ => rfl) (fun _ hm => count_newData _ hm) rfl rfl, h.reg,
    fun hused => absurd hused hreg, h.one, fun hsta => ⟨rfl, (h.rest hsta).2⟩, fun _ id => ?_⟩
  rw [← h.once hworks id]
  have hback : backBuf s = some s.disBufId :=
    if_pos ⟨hnew, fun hgetting => hgetting.elim (h.not_getting hreg)⟩
  have hback' : backBuf (published s) = none := if_neg fun hb => by simp [published] at hb
  refine count_stayed rfl ?_
  rw [shared, shared, hback, hback']
  simp only [published, held_some, held_none, List.count_append, List.count_singleton, beq_iff_eq]
  omega

theorem Inv.putFull (h : Inv s) (hput : disThrPutFullBuf s = some t) : Inv t := by
  rcases disThrPutFullBuf_cases hput with rfl | ⟨hreg, hnew, rfl⟩
  · exact h
  · exact h.publish hreg hnew

/-- A step of the display at work that touches no flag but `updata`. -/
theorem Inv.display {empty full loop : List Nat} {updata : Bool} {msgs : List DisplayCmd}
    {q : DisAt} (h : Inv s) (hworks : s.disThrSta = .workOn)
    (hmsgs : ∀ m : DisplayCmd, m ≠ .newData → msgs.count m = s.msgs.count m)
    (hcount : ∀ id, empty.count id + full.count id + loop.count id + held q.bufId id =
      s.emptyQueue.count id + s.fullQueue.count id + s.bufIdLoop.count id +
        held s.disAt.bufId id) :
    Inv { s with
      emptyQueue := empty
      fullQueue := full
      bufIdLoop := loop
      updata := updata
      msgs := msgs
      disAt := q } := by
  refine ⟨h.toTurns.moves (fun _ => rfl) hmsgs rfl rfl, h.reg, h.newBuf, h.one, fun hsta => ?_,
    fun _ id => ?_⟩
  · exact absurd (hworks.symm.trans hsta) (by simp)
  · rw [← h.once hworks id]
    refine count_stayed rfl ?_
    have := hcount id
    show empty.count id + full.count id + loop.count id + held (backBuf s) id + held q.bufId id = _
    rw [shared]
    omega

theorem Turns.off_of_standby (h : Turns s) (hsta : s.disThrSta = .standby) (d : Ch) :
    s.copyAt d = .standby ∨ s.copyAt d = .starting := by
  have hbit := (h.bit d).1 (h.sta.1 hsta d)
  cases hd : s.copyAt d <;> simp [hd, CopyAt.phase] at hbit ⊢

theorem phase_starting (h : (s.copyAt ch).phase = .starting) : s.copyAt ch = .starting := by
  cases hd : s.copyAt ch <;> simp [hd, CopyAt.phase] at h ⊢

theorem phase_stopping (h : (s.copyAt ch).phase = .stopping) : s.copyAt ch = .stopping := by
  cases hd : s.copyAt ch <;> simp [hd, CopyAt.phase] at h ⊢

theorem Turns.starting {msgs : List DisplayCmd} (h : Turns s)
    (hmsgs : s.msgs = .workOn ch :: msgs) : (s.copyAt ch).phase = .starting := by
  have hch := h.workOnMsg ch
  rw [hmsgs, List.count_cons_self] at hch
  by_contra hne
  rw [if_neg hne] at hch
  omega

theorem Turns.stopping {msgs : List DisplayCmd} (h : Turns s)
    (hmsgs : s.msgs = .standby ch :: msgs) : (s.copyAt ch).phase = .stopping := by
  have hch := h.standbyMsg ch
  rw [hmsgs, List.count_cons_self] at hch
  by_contra hne
  rw [if_neg hne] at hch
  omega

theorem workOn_or_standby (s : Display) :
    s.disThrSta = .workOn ∨ s.disThrSta = .standby := by
  cases s.disThrSta with
  | workOn => exact .inl rfl
  | standby => exact .inr rfl

/-- The first thread to work again puts all buffers into the empty queue. -/
theorem workOn_restart {msgs : List DisplayCmd} (hsta : s.disThrSta = .standby) :
    workOn { s with msgs := msgs } ch = setCopy { s with
      msgs := msgs
      emptyQueue := List.range displayBufNum
      fullQueue := []
      bufIdLoop := []
      disThrSta := .workOn
      standbySta := Function.update s.standbySta ch false } ch .ready := by
  simp only [DisplayBuf.workOn, hsta, playerDisBufClr]

theorem workOn_works {msgs : List DisplayCmd} (hsta : s.disThrSta = .workOn) :
    workOn { s with msgs := msgs } ch = setCopy { s with
      msgs := msgs
      standbySta := Function.update s.standbySta ch false } ch .ready := by
  simp only [DisplayBuf.workOn, hsta]

/-- A restarted display has every buffer in the empty queue and nowhere else. -/
theorem Inv.workOn {msgs : List DisplayCmd} (h : Inv s) (hmsgs : s.msgs = .workOn ch :: msgs) :
    Inv (workOn { s with msgs := msgs } ch) := by
  have hturns := h.toTurns.workOn hmsgs
  have hstarting := phase_starting (h.toTurns.starting hmsgs)
  rcases workOn_or_standby s with hsta | hsta
  · rw [workOn_works hsta] at hturns ⊢
    refine h.moves hturns rfl rfl rfl rfl rfl rfl (by simp [hstarting]) (by simp) fun id => ?_
    rw [hstarting]
    rfl
  · have hoff := h.toTurns.off_of_standby hsta
    have hoff' : ∀ d, s.copyAt d ≠ .getting ∧ s.copyAt d ≠ .drawing ∧ (s.copyAt d).bufId = none := by
      intro d
      rcases hoff d with hd | hd <;> simp [hd, CopyAt.bufId]
    rw [workOn_restart hsta] at hturns ⊢
    refine ⟨hturns, fun d => ?_, h.newBuf, fun c d hc => ?_,
      fun hstd => absurd hstd (by simp [setCopy]), fun _ id => ?_⟩
    · rw [setCopy_copyAt]
      show s.bufUseReg d = true ↔ _
      rw [h.reg]
      split
      · simp [hoff' d]
      · rfl
    · rw [setCopy_copyAt] at hc
      split at hc
      · cases hc
      · exact absurd hc (hoff' c).1
    · have hslot : slotCount (fun d => (Function.update s.copyAt ch .ready d).bufId) id = 0 := by
        refine slotCount_eq_zero.2 fun d => ?_
        by_cases hd : d = ch
        · simp [hd, CopyAt.bufId]
        · simp [hd, (hoff' d).2.2]
      have hback : backBuf (setCopy { s with
          msgs := msgs
          emptyQueue := List.range displayBufNum
          fullQueue := []
          bufIdLoop := []
          disThrSta := .workOn
          standbySta := Function.update s.standbySta ch false } ch .ready) = none :=
        if_neg fun hb => absurd ((h.rest hsta).1.symm.trans hb.1) (by simp)
      rw [count_places, hback]
      show (List.range displayBufNum).count id + 0 + 0 + held none id + held s.disAt.bufId id +
        slotCount (fun d => (Function.update s.copyAt ch .ready d).bufId) id = _
      rw [hslot, (h.rest hsta).2, List.Nodup.count List.nodup_range]
      simp [DisAt.bufId]

/-- The last thread to stand by drops the flags and what `dis_buf_id` named. -/
theorem standby_last {msgs : List DisplayCmd}
    (hall : ∀ d, Function.update s.standbySta ch true d = true) :
    standby { s with msgs := msgs } ch = setCopy (disThrBufProcessInit { s with
      msgs := msgs
      standbySta := Function.update s.standbySta ch true
      disThrSta := .standby }) ch .standby := by
  unfold DisplayBuf.standby
  simp only [hall, implies_true, if_true]

theorem standby_others {msgs : List DisplayCmd}
    (hall : ¬∀ d, Function.update s.standbySta ch true d = true) :
    standby { s with msgs := msgs } ch = setCopy { s with
      msgs := msgs
      standbySta := Function.update s.standbySta ch true } ch .standby := by
  unfold DisplayBuf.standby
  simp only [hall, if_false]

theorem Inv.standby {msgs : List DisplayCmd} (h : Inv s) (hmsgs : s.msgs = .standby ch :: msgs)
    (hidle : s.disAt = .idle) : Inv (standby { s with msgs := msgs } ch) := by
  have hturns := h.toTurns.standby hmsgs
  have hstopping := phase_stopping (h.toTurns.stopping hmsgs)
  by_cases hall : ∀ d, Function.update s.standbySta ch true d = true
  · rw [standby_last hall] at hturns ⊢
    have hoff := hturns.off_of_standby rfl
    refine ⟨hturns, fun d => ?_, fun hused => ?_, fun c d hc => ?_, fun _ => ⟨rfl, hidle⟩,
      fun hwork => ?_⟩
    · rcases hoff d with hd | hd <;> simp [hd] <;> rfl
    · obtain ⟨d, hd⟩ := hused
      cases hd
    · rcases hoff c with hd | hd <;> simp [hd] at hc
    · cases hwork
  · rw [standby_others hall] at hturns ⊢
    refine h.moves hturns rfl rfl rfl rfl rfl rfl (by simp [hstopping]) (by simp) fun id => ?_
    rw [hstopping]
    rfl

/-! ## Steps and runs -/

theorem Inv.recv (h : Inv s) (hidle : s.disAt = .idle) (hrecv : disRecv s = some t) : Inv t := by
  unfold disRecv at hrecv
  split at hrecv
  · cases hrecv
  · next msgs hmsgs =>
      have hcount : ∀ m : DisplayCmd, m ≠ .newData → msgs.count m = s.msgs.count m := by
        intro m hm
        rw [hmsgs, List.count_cons_of_ne (Ne.symm hm)]
      split at hrecv
      · next hworks =>
          obtain rfl := Option.some.inj hrecv
          exact h.display hworks hcount fun id => by rw [hidle]; rfl
      · next hstd =>
          obtain rfl := Option.some.inj hrecv
          exact ⟨h.toTurns.moves (fun _ => rfl) hcount rfl rfl, h.reg, h.newBuf, h.one, h.rest,
            fun hworks => absurd (hworks.symm.trans hstd) (by simp)⟩
  · next hmsgs =>
      obtain rfl := Option.some.inj hrecv
      exact h.workOn hmsgs
  · next hmsgs =>
      obtain rfl := Option.some.inj hrecv
      exact h.standby hmsgs hidle

/-- The display is in the middle of new data only while it works. -/
theorem Inv.works (h : Inv s) (hbusy : s.disAt ≠ .idle) : s.disThrSta = .workOn :=
  (workOn_or_standby s).resolve_right fun hstd => hbusy (h.rest hstd).2

theorem Inv.step {op : Op} (h : Inv s) (hstep : step s op = some t) : Inv t := by
  cases op with
  | copyWorkOn ch =>
      obtain ⟨hch, heq⟩ := Option.ite_none_right_eq_some.1 hstep
      obtain rfl := Option.some.inj heq
      have hturns := h.toTurns.asked
        (t := setCopy { s with msgs := s.msgs ++ [.workOn ch] } ch .starting)
        (fun d hd => by rw [setCopy_copyAt, if_neg hd]) (by rw [setCopy_copyAt, if_pos rfl])
        rfl rfl rfl (.inl ⟨rfl, rfl, hch⟩)
      exact h.moves hturns rfl rfl rfl rfl rfl rfl (by simp [hch]) (by simp)
        fun id => by rw [hch]; rfl
  | copyStandby ch =>
      obtain ⟨hch, heq⟩ := Option.ite_none_right_eq_some.1 hstep
      obtain rfl := Option.some.inj heq
      have hturns := h.toTurns.asked
        (t := setCopy { s with msgs := s.msgs ++ [.standby ch] } ch .stopping)
        (fun d hd => by rw [setCopy_copyAt, if_neg hd]) (by rw [setCopy_copyAt, if_pos rfl])
        rfl rfl rfl (.inr ⟨rfl, rfl, hch⟩)
      exact h.moves hturns rfl rfl rfl rfl rfl rfl (by simp [hch]) (by simp)
        fun id => by rw [hch]; rfl
  | slipRegister ch =>
      obtain ⟨hch, heq⟩ := Option.ite_none_right_eq_some.1 hstep
      obtain rfl := Option.some.inj heq
      have hon : (s.copyAt ch).phase = .on := by rw [hch]; rfl
      unfold disThrGetBufRegister
      split
      · exact h.moves (h.toTurns.moves (phase_setCopy hon) (fun _ _ => rfl) rfl rfl) rfl rfl rfl
          rfl rfl rfl (by simp [hch]) (by simp) fun id => by rw [hch]; rfl
      · exact h.register hon (by simp [CopyAt.Free, hch, CopyAt.bufId])
  | slipWoken ch =>
      obtain ⟨hch, heq⟩ := Option.ite_none_right_eq_some.1 hstep
      obtain rfl := Option.some.inj heq
      exact h.register (by rw [hch]; rfl) (by simp [CopyAt.Free, hch, CopyAt.bufId])
  | slipGetEmpty ch =>
      obtain ⟨hch, heq⟩ := Option.ite_none_right_eq_some.1 hstep
      obtain ⟨⟨id, queue⟩, hget, ht⟩ := Option.bind_eq_some_iff.1 heq
      obtain rfl := Option.some.inj ht
      exact h.getEmpty hch (playerQueGet_some hget)
  | slipUnregister ch =>
      obtain ⟨hch, heq⟩ := Option.ite_none_right_eq_some.1 hstep
      obtain rfl := Option.some.inj heq
      exact h.unregister hch
  | slipPutFull ch =>
      obtain ⟨hch, heq⟩ := Option.ite_none_right_eq_some.1 hstep
      have hready : Inv (setCopy s ch .ready) :=
        h.moves (h.toTurns.moves (phase_setCopy (by rw [hch]; rfl)) (fun _ _ => rfl) rfl rfl) rfl
          rfl rfl rfl rfl rfl (by simp [hch]) (by simp) fun id => by rw [hch]; rfl
      exact hready.putFull heq
  | fullGetEmpty ch =>
      obtain ⟨hch, heq⟩ := Option.ite_none_right_eq_some.1 hstep
      obtain ⟨⟨id, queue⟩, hget, ht⟩ := Option.bind_eq_some_iff.1 heq
      obtain rfl := Option.some.inj ht
      refine h.moves (h.toTurns.moves (phase_setCopy (by rw [hch]; rfl)) (fun _ _ => rfl) rfl rfl)
        rfl rfl rfl rfl rfl rfl (by simp [hch]) (by simp) fun x => ?_
      rw [hch, playerQueGet_some hget, List.count_cons]
      simp only [setCopy, CopyAt.bufId, held_some, held_none, beq_iff_eq]
      omega
  | fullPutFull ch =>
      simp only [DisplayBuf.step] at hstep
      split at hstep
      · next id hch =>
          obtain ⟨queue, hput, ht⟩ := Option.bind_eq_some_iff.1 hstep
          obtain rfl := Option.some.inj ht
          refine h.moves (h.toTurns.moves (phase_setCopy (by rw [hch]; rfl)) (fun _ _ => rfl) rfl
            rfl) rfl rfl rfl rfl rfl rfl (by simp [hch]) (by simp) fun x => ?_
          rw [hch, playerQuePut_some hput]
          simp only [setCopy, CopyAt.bufId, held_some, held_none, List.count_append,
            List.count_singleton, beq_iff_eq]
          omega
      · cases hstep
  | fullSend ch =>
      obtain ⟨hch, heq⟩ := Option.ite_none_right_eq_some.1 hstep
      obtain rfl := Option.some.inj heq
      exact h.moves (h.toTurns.moves (phase_setCopy (by rw [hch]; rfl))
        (fun _ hm => count_newData _ hm) rfl rfl) rfl rfl rfl rfl rfl rfl (by simp [hch]) (by simp)
        fun id => by rw [hch]; rfl
  | disRecv =>
      obtain ⟨hidle, heq⟩ := Option.ite_none_right_eq_some.1 hstep
      exact h.recv hidle heq
  | disGetFull =>
      obtain ⟨hdis, heq⟩ := Option.ite_none_right_eq_some.1 hstep
      obtain ⟨⟨id, queue⟩, hget, ht⟩ := Option.bind_eq_some_iff.1 heq
      obtain rfl := Option.some.inj ht
      refine h.display (h.works (by simp [hdis])) (fun _ _ => rfl) fun x => ?_
      rw [hdis, playerQueGet_some hget, List.count_cons]
      simp only [DisAt.bufId, held_some, held_none, beq_iff_eq]
      omega
  | disPutEmpty =>
      simp only [DisplayBuf.step] at hstep
      split at hstep
      · next id hdis =>
          obtain ⟨queue, loop, rfl, hperm⟩ := disPutEmptyBuf_cases hstep
          refine h.display (h.works (by simp [hdis])) (fun _ _ => rfl) fun x => ?_
          have hcount := hperm.count_eq x
          simp only [List.count_append, List.count_singleton, beq_iff_eq] at hcount
          rw [hdis]
          simp only [DisAt.bufId, held_some, held_none]
          omega
      · cases hstep
  | disUpdata =>
      obtain ⟨hdis, heq⟩ := Option.ite_none_right_eq_some.1 hstep
      obtain rfl := Option.some.inj heq
      exact h.display (h.works (by simp [hdis])) (fun _ _ => rfl) fun x => by rw [hdis]; rfl
  | disPutFull =>
      obtain ⟨hdis, heq⟩ := Option.ite_none_right_eq_some.1 hstep
      have hidle : Inv { s with disAt := .idle } :=
        h.display (h.works (by simp [hdis])) (fun _ _ => rfl) fun x => by rw [hdis]; rfl
      exact hidle.putFull heq
  | playerStopped =>
      obtain ⟨hall, heq⟩ := Option.ite_none_right_eq_some.1 hstep
      obtain rfl := Option.some.inj heq
      have hstd : s.disThrSta = .standby :=
        h.sta.2 fun ch => (h.bit ch).2 (.inl (by rw [hall ch]; rfl))
      exact ⟨h.toTurns.moves (fun _ => rfl) (fun _ _ => rfl) rfl rfl, h.reg, h.newBuf, h.one,
        h.rest, fun hworks => absurd (hworks.symm.trans hstd) (by simp)⟩

theorem inv_init : Inv init where
  bit _ := by simp [init, CopyAt.phase]
  workOnMsg _ := by simp [init, CopyAt.phase]
  standbyMsg _ := by simp [init, CopyAt.phase]
  sta := by simp [init]
  reg _ := by simp [init]
  newBuf := by simp [init, Registered]
  one _ _ hc := by simp [init] at hc
  rest _ := ⟨rfl, rfl⟩
  once hworks := by simp [init] at hworks

theorem inv_run {ops : List Op} (h : ops.foldlM step init = some s) : Inv s :=
  (Run.of_foldlM (R := fun s op t => step s op = some t) (fun hstep => hstep) h).invariant
    (fun hs hstep => Inv.step hs hstep) inv_init

/-- While a channel has the back image in hand, nothing is published. -/
theorem Inv.not_published (h : Inv s) (hch : s.copyAt ch = .getting ∨ s.copyAt ch = .drawing) :
    disThrPutFullBuf s = some s := by
  have hreg : Registered s := ⟨ch, (h.reg ch).2 hch⟩
  exact if_neg fun hcond => hcond.2.1 hreg

theorem Inv.places_perm (h : Inv s) (hworks : s.disThrSta = .workOn) :
    (places s).Perm (List.range displayBufNum) := by
  refine List.perm_iff_count.2 fun id => ?_
  rw [h.once hworks id, List.Nodup.count List.nodup_range]
  simp only [List.mem_range]

/-! ## All runs -/

/-- In every state that is reached: a working display has each buffer in exactly one of the two
queues, the loop, `dis_buf_id` from its fetch to its publishing, the display's variable and the
variables of the copy threads. No picture is published while a channel has the back image in hand.
And while the display stands by no thread has a buffer or the back image in hand. -/
theorem display_conserves {ops : List Op} (h : ops.foldlM step init = some s) :
    (s.disThrSta = .workOn → (places s).Perm (List.range displayBufNum)) ∧
      (∀ ch, s.copyAt ch = .getting ∨ s.copyAt ch = .drawing → disThrPutFullBuf s = some s) ∧
      (s.disThrSta = .standby → s.newBuf = false ∧ s.disAt = .idle ∧
        ∀ ch, s.copyAt ch = .standby ∨ s.copyAt ch = .starting) := by
  have hs := inv_run h
  refine ⟨hs.places_perm, fun ch hch => hs.not_published hch, fun hstd => ?_⟩
  exact ⟨(hs.rest hstd).1, (hs.rest hstd).2, hs.toTurns.off_of_standby hstd⟩

/-- Two channels work; the first has drawn and the second fills the screen. -/
def twoPictures : List Op :=
  [.copyWorkOn 0, .copyWorkOn 1, .disRecv, .disRecv, .slipRegister 0, .fullGetEmpty 1,
    .slipGetEmpty 0, .fullPutFull 1, .slipUnregister 0, .slipPutFull 0, .fullSend 1, .disRecv,
    .disGetFull]

end

theorem display_conserves_twoPictures :
    ∃ s, twoPictures.foldlM step init = some s ∧ s.disThrSta = .workOn ∧
      (places s).Perm (List.range displayBufNum) :=
  ⟨_, rfl, rfl, (@display_conserves _ twoPictures rfl).1 rfl⟩

end Nvr.Player.DisplayBuf
