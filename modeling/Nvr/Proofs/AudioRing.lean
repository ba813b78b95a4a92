import Nvr.Lib.LapRing
import Nvr.Player.AudioRing

/-!
# The live audio keeps its frames

The ring of the live audio is a `LapRing` of `audioBufNum` buffers, so it keeps its frames
just as long as no put laps the reader. The put that does makes a full ring look empty,
and the frames of a whole lap are gone, the newest one first.

Frames are told apart by their numbers, which the runs here give them when they are put;
without the numbers they are the runs of the model (`liveNumbered_forget`).
-/

namespace Nvr.Player

open LapRing

variable {α : Type}

/-! ## Numbers -/

def LiveOp.number (n : Nat) : LiveOp α → LiveOp (Nat × α)
  | .put inBuf => .put (n, inBuf)
  | .get => .get

/-- A run whose frames have numbers. -/
def liveNumbered (b : AudioBufCtl (Nat × α)) (ops : List (LiveOp α)) : LiveAudio (Nat × α) :=
  ops.foldl (fun s op => s.step (op.number s.puts.length)) ⟨audioPutDataInit b, [], []⟩

def AudioBufCtl.forget (b : AudioBufCtl (Nat × α)) : AudioBufCtl α :=
  { b with bufIndex := fun i => (b.bufIndex i).2 }

def LiveAudio.forget (s : LiveAudio (Nat × α)) : LiveAudio α :=
  ⟨s.buf.forget, s.puts.map Prod.snd, s.got.map Prod.snd⟩

theorem forget_audioPutChannelData (b : AudioBufCtl (Nat × α)) (x : Nat × α) :
    (audioPutChannelData b x).forget = audioPutChannelData b.forget x.2 := by
  simp only [audioPutChannelData, AudioBufCtl.forget, AudioBufCtl.mk.injEq, true_and]
  funext i
  rw [Function.update_apply, Function.update_apply]
  split <;> rfl

theorem forget_audioGetChannelData (b : AudioBufCtl (Nat × α)) :
    audioGetChannelData b.forget =
      ((audioGetChannelData b).1.map Prod.snd, (audioGetChannelData b).2.forget) := by
  by_cases h : b.rd = b.wr
  · have h' : b.forget.rd = b.forget.wr := h
    rw [audioGetChannelData, audioGetChannelData, if_neg (not_not.2 h), if_neg (not_not.2 h')]
    rfl
  · have h' : b.forget.rd ≠ b.forget.wr := h
    rw [audioGetChannelData, audioGetChannelData, if_pos h, if_pos h']
    rfl

theorem forget_step (s : LiveAudio (Nat × α)) (op : LiveOp α) (n : Nat) :
    (s.step (op.number n)).forget = s.forget.step op := by
  cases op with
  | put inBuf =>
      simp only [LiveOp.number, LiveAudio.step, LiveAudio.forget, forget_audioPutChannelData,
        List.map_append, List.map_cons, List.map_nil]
  | get =>
      simp only [LiveOp.number, LiveAudio.step, LiveAudio.forget, forget_audioGetChannelData,
        List.map_append]
      cases (audioGetChannelData s.buf).1 <;> rfl

/-- The numbers change nothing. -/
theorem liveNumbered_forget (b : AudioBufCtl (Nat × α)) (ops : List (LiveOp α)) :
    (liveNumbered b ops).forget = liveRun b.forget ops := by
  induction ops using List.reverseRecOn with
  | nil => rfl
  | append_singleton ops op ih =>
      rw [liveNumbered, liveRun, List.foldl_append, List.foldl_append]
      show (LiveAudio.step (liveNumbered b ops) _).forget = (liveRun b.forget ops).step op
      rw [forget_step, ih]

/-! ## The ring -/

def AudioBufCtl.ring (b : AudioBufCtl α) : Wheel α := ⟨b.wr, b.rd, b.bufIndex⟩

def LiveAudio.history (s : LiveAudio (Nat × α)) : History α := ⟨s.buf.ring, s.puts, s.got⟩

def LiveOp.op : LiveOp α → Op α
  | .put inBuf => .put inBuf
  | .get => .get

theorem ring_get (b : AudioBufCtl α) :
    b.ring.get audioBufNum = ((audioGetChannelData b).1, (audioGetChannelData b).2.ring) := by
  by_cases h : b.rd = b.wr
  · have h' : b.ring.rd = b.ring.wr := h
    rw [Wheel.get, audioGetChannelData, if_neg (not_not.2 h), if_neg (not_not.2 h')]
  · have h' : b.ring.rd ≠ b.ring.wr := h
    rw [Wheel.get, audioGetChannelData, if_pos h, if_pos h']
    rfl

theorem ring_gets (n : Nat) (b : AudioBufCtl α) :
    b.ring.gets audioBufNum n = audioGets n b := by
  induction n generalizing b with
  | zero => rfl
  | succ n ih => rw [Wheel.gets, ring_get, ih, audioGets]

theorem history_step (s : LiveAudio (Nat × α)) (op : LiveOp α) :
    (s.step (op.number s.puts.length)).history = s.history.step audioBufNum op.op := by
  cases op with
  | put inBuf => rfl
  | get =>
      have hget := ring_get s.buf
      simp only [LiveOp.number, LiveOp.op, LiveAudio.step, LiveAudio.history, History.step, hget]

theorem history_run (b : AudioBufCtl (Nat × α)) (ops : List (LiveOp α)) :
    (liveNumbered b ops).history = History.run audioBufNum b.bufIndex (ops.map LiveOp.op) := by
  induction ops using List.reverseRecOn with
  | nil => rfl
  | append_singleton ops op ih =>
      rw [List.map_append, List.map_singleton, LapRing.run_concat, ← ih, ← history_step]
      rw [liveNumbered, List.foldl_append]
      rfl

/-! ## The frames -/

/-- The frames returned are frames that were put, in order and each one once; and of the last
99 frames those that are not returned yet still come. -/
structure KeepsFrames (s : LiveAudio (Nat × α)) : Prop where
  ordered : s.got.Sublist s.puts
  kept : ∀ x ∈ s.puts, s.puts.length ≤ x.1 + 99 → x ∉ s.got → ∃ n, x ∈ audioGets n s.buf

/-- What the calls of a run are to do. A frame is overwritten by the put 100 after its own, so
when `x.1 + 100` frames were put, 99 came after it. -/
structure LiveLaw (b : AudioBufCtl (Nat × α)) (ops : List (LiveOp α)) : Prop where
  keeps : ∀ pre, pre <+: ops → KeepsFrames (liveNumbered b pre)
  fails : ∀ pre, pre ++ [.get] <+: ops →
    (audioGetChannelData (liveNumbered b pre).buf).1 = none →
      ∀ x ∈ (liveNumbered b pre).puts,
        x ∈ (liveNumbered b pre).got ∨ x.1 + 1 + 99 ≤ (liveNumbered b pre).puts.length

theorem keepsFrames_iff {s : LiveAudio (Nat × α)} :
    KeepsFrames s ↔ Keeps audioBufNum s.history := by
  constructor
  · rintro ⟨hordered, hkept⟩
    refine ⟨hordered, fun x hx hlast hnot => ?_⟩
    obtain ⟨n, hn⟩ := hkept x hx (Nat.le_of_lt_succ hlast) hnot
    exact ⟨n, by rw [LiveAudio.history, ring_gets]; exact hn⟩
  · rintro ⟨hordered, hkept⟩
    refine ⟨hordered, fun x hx hlast hnot => ?_⟩
    obtain ⟨n, hn⟩ := hkept x hx (Nat.lt_succ_of_le hlast) hnot
    rw [LiveAudio.history, ring_gets] at hn
    exact ⟨n, hn⟩

/-- Nothing comes when a get fails. -/
theorem audioGets_of_none {b : AudioBufCtl α} (h : (audioGetChannelData b).1 = none) (n : Nat) :
    audioGets n b = [] := by
  rw [← ring_gets]
  refine Wheel.gets_nil ?_ n
  by_contra hne
  have hne' : b.rd ≠ b.wr := hne
  rw [audioGetChannelData, if_pos hne'] at h
  cases h

theorem KeepsFrames.fails {s : LiveAudio (Nat × α)} (h : KeepsFrames s)
    (hnone : (audioGetChannelData s.buf).1 = none) :
    ∀ x ∈ s.puts, x ∈ s.got ∨ x.1 + 1 + 99 ≤ s.puts.length := by
  intro x hx
  by_contra hlost
  rw [not_or] at hlost
  obtain ⟨n, hn⟩ := h.kept x hx (by omega) hlost.1
  rw [audioGets_of_none hnone] at hn
  exact List.not_mem_nil hn

/-- A run keeps its frames just if no put leaves the write index where the read index is. -/
theorem liveLaw_iff (b : AudioBufCtl (Nat × α)) (ops : List (LiveOp α)) :
    LiveLaw b ops ↔
      ∀ pre inBuf, pre ++ [.put inBuf] <+: ops →
        ((liveNumbered b pre).buf.wr + 1) % audioBufNum ≠ (liveNumbered b pre).buf.rd := by
  have hprefix : ∀ pre, pre <+: ops.map LiveOp.op →
      ∃ pre', pre' <+: ops ∧ pre = pre'.map LiveOp.op := by
    intro pre hpre
    refine ⟨ops.take pre.length, List.take_prefix _ _, ?_⟩
    rw [List.map_take]
    exact List.prefix_iff_eq_take.1 hpre
  have hkeeps : (∀ pre, pre <+: ops → KeepsFrames (liveNumbered b pre)) ↔
      ∀ pre, pre <+: ops.map LiveOp.op →
        Keeps audioBufNum (History.run audioBufNum b.bufIndex pre) := by
    constructor
    · intro h pre hpre
      obtain ⟨pre', hpre', rfl⟩ := hprefix pre hpre
      rw [← history_run]
      exact keepsFrames_iff.1 (h pre' hpre')
    · intro h pre hpre
      rw [keepsFrames_iff, history_run]
      exact h _ (hpre.map _)
  have hroom : (∀ pre inBuf, pre ++ [.put inBuf] <+: ops →
        ((liveNumbered b pre).buf.wr + 1) % audioBufNum ≠ (liveNumbered b pre).buf.rd) ↔
      ∀ pre a, pre ++ [.put a] <+: ops.map LiveOp.op →
        ¬(History.run audioBufNum b.bufIndex pre).ring.Full audioBufNum := by
    constructor
    · intro h pre a hpre
      obtain ⟨pre', hpre', heq⟩ := hprefix _ hpre
      obtain ⟨before, last, rfl, rfl, hlast⟩ := List.map_eq_append_iff.1 heq.symm
      obtain ⟨op, rfl, hop⟩ := List.map_eq_singleton_iff.1 hlast
      cases op with
      | put inBuf =>
          rw [← history_run]
          exact h before inBuf hpre'
      | get => cases hop
    · intro h pre inBuf hpre
      have hnot := h (pre.map LiveOp.op) inBuf (by
        have := hpre.map LiveOp.op
        rwa [List.map_append] at this)
      rw [← history_run] at hnot
      exact hnot
  rw [hroom, ← keeps_run_iff (by decide), ← hkeeps]
  constructor
  · exact fun h => h.keeps
  · intro h
    exact ⟨h, fun pre hpre hnone => (h pre ((List.prefix_append _ _).trans hpre)).fails hnone⟩

/-- Frames that nobody gets. -/
theorem liveNumbered_puts (b : AudioBufCtl (Nat × Unit)) (n : Nat) :
    (liveNumbered b (List.replicate n (.put ()))).puts = (List.range n).map (fun i => (i, ())) ∧
      (liveNumbered b (List.replicate n (.put ()))).got = [] ∧
      (liveNumbered b (List.replicate n (.put ()))).buf.rd = 0 ∧
      (liveNumbered b (List.replicate n (.put ()))).buf.wr = n % audioBufNum := by
  induction n with
  | zero => exact ⟨rfl, rfl, rfl, rfl⟩
  | succ n ih =>
      obtain ⟨hputs, hgot, hrd, hwr⟩ := ih
      have hstep : liveNumbered b (List.replicate (n + 1) (.put ())) =
          (liveNumbered b (List.replicate n (.put ()))).step
            (.put ((liveNumbered b (List.replicate n (.put ()))).puts.length, ())) := by
        rw [List.replicate_succ', liveNumbered, List.foldl_append]
        rfl
      rw [hstep]
      refine ⟨?_, hgot, hrd, ?_⟩
      · show (liveNumbered b (List.replicate n (.put ()))).puts ++ [_] = _
        rw [hputs, List.length_map, List.length_range, List.range_succ, List.map_append]
        rfl
      · show ((liveNumbered b (List.replicate n (.put ()))).buf.wr + 1) % audioBufNum = _
        rw [hwr, Nat.mod_add_mod]

/-- A hundred frames, and the hundredth is lost. -/
theorem not_liveLaw : ¬∀ (b : AudioBufCtl (Nat × Unit)) ops, LiveLaw b ops := by
  intro h
  have hkeeps := (h ⟨0, 0, false, fun _ => (0, ())⟩ (List.replicate 100 (.put ()))).keeps _
    (List.prefix_refl _)
  obtain ⟨hputs, hgot, hrd, hwr⟩ := liveNumbered_puts ⟨0, 0, false, fun _ => (0, ())⟩ 100
  obtain ⟨n, hn⟩ := hkeeps.kept (99, ())
    (by rw [hputs]; exact List.mem_map.2 ⟨99, List.mem_range.2 (by decide), rfl⟩)
    (by rw [hputs, List.length_map, List.length_range]; decide)
    (by rw [hgot]; exact List.not_mem_nil)
  rw [audioGets_of_none (by rw [audioGetChannelData, if_neg]; rw [hrd, hwr]; decide)] at hn
  exact List.not_mem_nil hn

end Nvr.Player
