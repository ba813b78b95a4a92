import Mathlib.Data.Nat.ModEq
import Nvr.Lib.Run
import Nvr.Player.BufQueue
import Nvr.Player.DisplayBuf

/-!
# Queues that many threads use

A queue holds what has gone in and has not come out, in order. No wake-up is lost: each put signals
one get and each get one put, so that while a get sleeps there are not more buffers than gets that
have been woken and have not had the lock yet, and the other way round. A call that comes between a
signal and the one it has woken takes one buffer and leaves one call too many awake, which sleeps
again.
-/

namespace Nvr.Player.BufQueue

/-! ## The ring -/

/-- The buffers of a queue, the first to come out first. -/
def Queue.contents (q : Queue) : List UInt8 :=
  (List.range q.count).map fun k => q.bufIdQueue ((q.curRd + k) % q.len)

/-- The indices are as far apart as there are buffers. -/
structure Queue.Wf (q : Queue) : Prop where
  room : q.count ≤ q.len
  rd : q.curRd < q.len
  wr : q.curWr = (q.curRd + q.count) % q.len

variable {q q' : Queue} {bufId : UInt8}

theorem wf_create {len : Nat} (hlen : 0 < len) (bufDest : Nat → UInt8) :
    (playerQueueCreate len bufDest).Wf :=
  ⟨Nat.zero_le _, hlen, (Nat.zero_mod _).symm⟩

@[simp] theorem length_contents (q : Queue) : q.contents.length = q.count := by
  simp [Queue.contents]

/-- A place behind the reader is the writer's only once around. -/
theorem Queue.Wf.ne_wr (hq : q.Wf) {k : Nat} (hk : k < q.count) (hroom : q.count < q.len) :
    (q.curRd + k) % q.len ≠ q.curWr := by
  rw [hq.wr]
  intro heq
  have hmod : k ≡ q.count [MOD q.len] := Nat.ModEq.add_left_cancel' q.curRd heq
  have hsame := hmod.eq_of_lt_of_lt (Nat.lt_trans hk hroom) hroom
  exact absurd hsame (Nat.ne_of_lt hk)

theorem Queue.Wf.put (hq : q.Wf) (h : q.put bufId = some q') :
    q'.Wf ∧ q'.len = q.len ∧ q'.count = q.count + 1 ∧
      q'.contents = q.contents ++ [bufId] := by
  rw [Queue.put] at h
  split at h
  · next hroom =>
      obtain rfl := Option.some.inj h
      refine ⟨⟨hroom, hq.rd, ?_⟩, rfl, rfl, ?_⟩
      · show (q.curWr + 1) % q.len = (q.curRd + (q.count + 1)) % q.len
        rw [hq.wr, Nat.mod_add_mod, Nat.add_assoc]
      · simp only [Queue.contents, List.range_succ, List.map_append, List.map_cons, List.map_nil]
        refine congrArg₂ (· ++ ·) (List.map_congr_left fun k hk => ?_) (congrArg (· :: []) ?_)
        · exact Function.update_of_ne (hq.ne_wr (List.mem_range.1 hk) hroom) _ _
        · rw [← hq.wr, Function.update_self]
  · cases h

theorem Queue.Wf.get (hq : q.Wf) (h : q.get = some (bufId, q')) :
    q'.Wf ∧ q'.len = q.len ∧ q'.count + 1 = q.count ∧ q.contents = bufId :: q'.contents := by
  rw [Queue.get] at h
  split at h
  · next hsome =>
      obtain ⟨rfl, rfl⟩ := Prod.mk.inj (Option.some.inj h)
      have hcount : q.count - 1 + 1 = q.count := Nat.sub_add_cancel hsome
      have hroom := hq.room
      have hrd : (q.curRd + 1) % q.len < q.len := Nat.mod_lt _ (by omega)
      refine ⟨⟨Nat.le_trans (Nat.sub_le _ _) hq.room, hrd, ?_⟩, rfl, hcount, ?_⟩
      · show q.curWr = ((q.curRd + 1) % q.len + (q.count - 1)) % q.len
        rw [Nat.mod_add_mod, Nat.add_assoc, Nat.add_comm 1, hcount, hq.wr]
      · rw [Queue.contents, ← hcount, List.range_succ_eq_map, List.map_cons, List.map_map]
        refine congrArg₂ List.cons ?_ (List.map_congr_left fun k _ => ?_)
        · rw [Nat.add_zero, Nat.mod_eq_of_lt hq.rd]
        · show q.bufIdQueue ((q.curRd + (k + 1)) % q.len) =
            q.bufIdQueue (((q.curRd + 1) % q.len + k) % q.len)
          rw [Nat.mod_add_mod, Nat.add_assoc, Nat.add_comm 1]
  · cases h

theorem Queue.put_none (hq : q.Wf) (h : q.put bufId = none) : q.count = q.len := by
  rw [Queue.put] at h
  split at h
  · cases h
  · next hfull => exact Nat.le_antisymm hq.room (Nat.not_lt.1 hfull)

theorem Queue.get_none (h : q.get = none) : q.count = 0 := by
  rw [Queue.get] at h
  split at h
  · cases h
  · next hempty => exact Nat.eq_zero_of_not_pos hempty

/-! ## The calls -/

/-- What has gone in has come out or is there, in its order. While a get sleeps there are not more
buffers than gets that are awake, and while a put sleeps not more free places than such puts. -/
structure Inv (len : Nat) (s : Calls) : Prop where
  wf : s.queue.Wf
  size : s.queue.len = len
  order : s.got ++ s.queue.contents = s.puts
  gets : 0 < s.getAsleep → s.queue.count ≤ s.getAwake
  puts : s.putAsleep ≠ [] → len ≤ s.queue.count + s.putAwake.length

variable {len : Nat} {s s' : Calls}

theorem inv_create (hlen : 0 < len) (bufDest : Nat → UInt8) : Inv len (create len bufDest) :=
  ⟨wf_create hlen bufDest, rfl, rfl, fun h => absurd h (Nat.lt_irrefl 0), fun h => absurd rfl h⟩

/-- A put that finds room, by a call that has just come or by one of those awake. -/
theorem inv_put {queue : Queue} (hput : s.queue.put bufId = some queue) (hwf : s.queue.Wf)
    (hlen : s.queue.len = len) (horder : s.got ++ s.queue.contents = s.puts)
    (hgets : 0 < s.getAsleep → s.queue.count ≤ s.getAwake)
    (hputs : s.putAsleep ≠ [] → len ≤ s.queue.count + (s.putAwake.length + 1)) :
    Inv len (signalRd { s with queue := queue, puts := s.puts ++ [bufId] }) := by
  obtain ⟨hwf', hlen', hcount, hcontents⟩ := hwf.put hput
  have horder' : s.got ++ queue.contents = s.puts ++ [bufId] := by
    rw [hcontents, ← List.append_assoc, horder]
  have hputs' : s.putAsleep ≠ [] → len ≤ queue.count + s.putAwake.length := by
    intro hasleep
    have hroom := hputs hasleep
    omega
  rw [signalRd]
  by_cases hasleep : 0 < s.getAsleep
  · have hawake : queue.count ≤ s.getAwake + 1 := by
      rw [hcount]
      exact Nat.succ_le_succ (hgets hasleep)
    rw [if_pos hasleep]
    exact ⟨hwf', hlen'.trans hlen, horder', fun _ => hawake, hputs'⟩
  · rw [if_neg hasleep]
    exact ⟨hwf', hlen'.trans hlen, horder', fun h => absurd h hasleep, hputs'⟩

/-- A put that finds no room sleeps. -/
theorem inv_put_wait (hput : s.queue.put bufId = none) (hwf : s.queue.Wf)
    (hlen : s.queue.len = len) (horder : s.got ++ s.queue.contents = s.puts)
    (hgets : 0 < s.getAsleep → s.queue.count ≤ s.getAwake) :
    Inv len { s with putAsleep := s.putAsleep ++ [bufId] } := by
  have hfull := (Queue.put_none hwf hput).trans hlen
  exact ⟨hwf, hlen, horder, hgets, fun _ => hfull ▸ Nat.le_add_right _ _⟩

theorem length_signalWr {k : Nat} (h : signalWr s k = some s') :
    s'.queue = s.queue ∧ s'.getAsleep = s.getAsleep ∧ s'.getAwake = s.getAwake ∧
      s'.puts = s.puts ∧ s'.got = s.got ∧ (s'.putAsleep ≠ [] →
        s.putAsleep ≠ [] ∧ s'.putAwake.length = s.putAwake.length + 1) := by
  rw [signalWr] at h
  split at h
  · next hnil =>
      obtain rfl := Option.some.inj h
      exact ⟨rfl, rfl, rfl, rfl, rfl, fun hne => absurd hnil hne⟩
  · next hne =>
      obtain ⟨bufId, -, rfl⟩ := Option.map_eq_some_iff.1 h
      exact ⟨rfl, rfl, rfl, rfl, rfl, fun _ => ⟨hne, by simp⟩⟩

/-- A get that finds a buffer. -/
theorem inv_get {queue : Queue} {k : Nat} (hget : s.queue.get = some (bufId, queue))
    (hwf : s.queue.Wf) (hlen : s.queue.len = len) (horder : s.got ++ s.queue.contents = s.puts)
    (hgets : 0 < s.getAsleep → s.queue.count ≤ s.getAwake + 1)
    (hputs : s.putAsleep ≠ [] → len ≤ s.queue.count + s.putAwake.length)
    (h : signalWr { s with queue := queue, got := s.got ++ [bufId] } k = some s') :
    Inv len s' := by
  obtain ⟨hwf', hlen', hcount, hcontents⟩ := hwf.get hget
  obtain ⟨hqueue, hasleep, hawake, hin, hgot, hwoken⟩ := length_signalWr h
  refine ⟨hqueue ▸ hwf', hqueue ▸ hlen'.trans hlen, ?_, ?_, ?_⟩
  · rw [hgot, hqueue, hin, List.append_assoc, List.singleton_append, ← hcontents]
    exact horder
  · intro hsome
    rw [hasleep] at hsome
    have hleft := hgets hsome
    rw [hqueue, hawake]
    simp only
    omega
  · intro hne
    obtain ⟨hbefore, hlength⟩ := hwoken hne
    have hroom := hputs hbefore
    rw [hqueue, hlength]
    simp only
    omega

/-- A get that finds none sleeps. -/
theorem inv_get_wait (hget : s.queue.get = none) (hwf : s.queue.Wf) (hlen : s.queue.len = len)
    (horder : s.got ++ s.queue.contents = s.puts)
    (hputs : s.putAsleep ≠ [] → len ≤ s.queue.count + s.putAwake.length) :
    Inv len { s with getAsleep := s.getAsleep + 1 } := by
  have hempty := Queue.get_none hget
  exact ⟨hwf, hlen, horder, fun _ => hempty ▸ Nat.zero_le _, hputs⟩

theorem Inv.playerQuePut (hs : Inv len s) (bufId : UInt8) (forever : Bool) :
    Inv len (playerQuePut s bufId forever) := by
  rw [BufQueue.playerQuePut]
  cases hput : s.queue.put bufId with
  | some queue =>
      refine inv_put hput hs.wf hs.size hs.order hs.gets fun hne => ?_
      have hroom := hs.puts hne
      omega
  | none =>
      cases forever with
      | false => exact hs
      | true => exact inv_put_wait hput hs.wf hs.size hs.order hs.gets

theorem Inv.playerQueGet (hs : Inv len s) {forever : Bool} {k : Nat}
    (h : playerQueGet s forever k = some s') : Inv len s' := by
  rw [BufQueue.playerQueGet] at h
  cases hget : s.queue.get with
  | some got =>
      rw [hget] at h
      refine inv_get hget hs.wf hs.size hs.order (fun hsome => ?_) hs.puts h
      exact Nat.le_succ_of_le (hs.gets hsome)
  | none =>
      rw [hget] at h
      obtain rfl := Option.some.inj h
      cases forever with
      | false => exact hs
      | true => exact inv_get_wait hget hs.wf hs.size hs.order hs.puts

/-- A put that has been woken goes through its loop again. -/
theorem Inv.putAgain (hs : Inv len s) {j : Nat} (h : step s (.putAgain j) = some s') :
    Inv len s' := by
  obtain ⟨bufId, hj, rfl⟩ := Option.map_eq_some_iff.1 h
  have hinside := (List.getElem?_eq_some_iff.1 hj).1
  have hlength : (s.putAwake.eraseIdx j).length + 1 = s.putAwake.length := by
    rw [List.length_eraseIdx_of_lt hinside]
    omega
  rw [BufQueue.playerQuePut]
  cases hput : s.queue.put bufId with
  | some queue =>
      refine inv_put hput hs.wf hs.size hs.order hs.gets fun hne => ?_
      rw [hlength]
      exact hs.puts hne
  | none => exact inv_put_wait hput hs.wf hs.size hs.order hs.gets

theorem Inv.getAgain (hs : Inv len s) {k : Nat} (h : step s (.getAgain k) = some s') :
    Inv len s' := by
  rw [step] at h
  split at h
  · next hawake =>
      rw [BufQueue.playerQueGet] at h
      cases hget : s.queue.get with
      | some got =>
          simp only [hget] at h
          refine inv_get (s := { s with getAwake := s.getAwake - 1 }) hget hs.wf hs.size hs.order
            (fun hsome => ?_) hs.puts h
          have hleft := hs.gets hsome
          simp only
          omega
      | none =>
          simp only [hget, if_true] at h
          obtain rfl := Option.some.inj h
          exact inv_get_wait (s := { s with getAwake := s.getAwake - 1 }) hget hs.wf hs.size
            hs.order hs.puts
  · cases h

theorem Inv.step (hs : Inv len s) {op : Op} (h : step s op = some s') : Inv len s' := by
  cases op with
  | put bufId forever =>
      obtain rfl := Option.some.inj h
      exact hs.playerQuePut bufId forever
  | get forever k => exact hs.playerQueGet h
  | putAgain j => exact hs.putAgain h
  | getAgain k => exact hs.getAgain h
  | wakePut k =>
      rw [BufQueue.step] at h
      split at h
      · cases h
      · obtain ⟨hqueue, hasleep, hawake, hputs, hgot, hwoken⟩ := length_signalWr h
        refine ⟨hqueue ▸ hs.wf, hqueue ▸ hs.size, ?_, ?_, ?_⟩
        · rw [hgot, hqueue, hputs]
          exact hs.order
        · rw [hqueue, hasleep, hawake]
          exact hs.gets
        · intro hne
          obtain ⟨hbefore, hlength⟩ := hwoken hne
          have hroom := hs.puts hbefore
          rw [hqueue, hlength]
          omega
  | wakeGet =>
      rw [BufQueue.step] at h
      split at h
      · next hasleep =>
          obtain rfl := Option.some.inj h
          rw [signalRd, if_pos hasleep]
          exact ⟨hs.wf, hs.size, hs.order, fun _ => Nat.le_succ_of_le (hs.gets hasleep), hs.puts⟩
      · cases h

/-- Whatever the threads call, wait for and wake from, the buffers come out in the order in which
they have gone in, none is lost, there are never more than the queue holds, and no call sleeps
while there are more buffers, or free places, than calls awake for them. -/
theorem calls_keep_order (bufDest : Nat → UInt8) (ops : List Op) (hlen : 0 < len)
    (hrun : ops.foldlM BufQueue.step (create len bufDest) = some s) :
    s.got ++ s.queue.contents = s.puts ∧ s.queue.contents.length ≤ len ∧
      (0 < s.getAsleep → s.queue.contents.length ≤ s.getAwake) ∧
      (s.putAsleep ≠ [] → len - s.queue.contents.length ≤ s.putAwake.length) := by
  have hsteps : Run (fun s op s' => BufQueue.step s op = some s') (create len bufDest) ops s :=
    Run.of_foldlM (fun h => h) hrun
  have hs : Inv len s := hsteps.invariant (fun hs h => hs.step h) (inv_create hlen bufDest)
  rw [length_contents]
  refine ⟨hs.order, hs.size ▸ hs.wf.room, hs.gets, fun hne => ?_⟩
  have hroom := hs.puts hne
  omega

/-- A get waits and is woken by a put, and a second put waits for it. -/
def twoPuts : List Op := [.get true 0, .put 7 true, .put 8 true, .getAgain 0]

theorem calls_keep_order_twoPuts : ∃ s,
    twoPuts.foldlM BufQueue.step (create 1 fun _ => 0) = some s ∧
      s.got ++ s.queue.contents = s.puts ∧ s.queue.contents.length ≤ 1 ∧
      (0 < s.getAsleep → s.queue.contents.length ≤ s.getAwake) ∧
      (s.putAsleep ≠ [] → 1 - s.queue.contents.length ≤ s.putAwake.length) :=
  ⟨_, rfl, calls_keep_order (fun _ => 0) twoPuts (by decide) rfl⟩

/-! ## The display's queues

`DisplayBuf` has lists for its two queues. They are what the rings hold. -/

theorem put_contents (hq : q.Wf) (hlen : q.len = DisplayBuf.displayBufNum) :
    (q.put bufId).map (fun q' => q'.contents.map UInt8.toNat) =
      DisplayBuf.playerQuePut (q.contents.map UInt8.toNat) bufId.toNat := by
  rw [DisplayBuf.playerQuePut, List.length_map, length_contents, ← hlen]
  cases hput : q.put bufId with
  | none =>
      have hfull := Queue.put_none hq hput
      rw [if_neg (Nat.not_lt.2 (Nat.le_of_eq hfull.symm))]
      rfl
  | some q' =>
      obtain ⟨hwf, hsize, hcount, hcontents⟩ := hq.put hput
      have hroom := hwf.room
      rw [if_pos (by omega), Option.map_some, hcontents, List.map_append]
      rfl

theorem get_contents (hq : q.Wf) :
    q.get.map (fun got => (got.1.toNat, got.2.contents.map UInt8.toNat)) =
      DisplayBuf.playerQueGet (q.contents.map UInt8.toNat) := by
  cases hget : q.get with
  | none =>
      have hempty : q.contents = [] := by
        rw [← List.length_eq_zero_iff, length_contents]
        exact Queue.get_none hget
      rw [hempty]
      rfl
  | some got =>
      obtain ⟨-, -, -, hcontents⟩ := hq.get hget
      rw [hcontents]
      rfl

end Nvr.Player.BufQueue
