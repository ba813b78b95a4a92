import Mathlib.Logic.Function.Basic

/-!
# The queues of buffer numbers

`buf_queue` of `player.c` and the calls of its threads. A call that cannot go on either fails or
waits for the other side, in a loop. A signal wakes one call of those that wait for it, whichever,
and a call may also wake without one; it then goes through its loop again, in turn with all other
calls. A step is what a call does while it has the lock.
-/

namespace Nvr.Player.BufQueue

/-- `buf_queue`, less its lock and its conditions. -/
structure Queue where
  curRd : Nat
  curWr : Nat
  len : Nat
  count : Nat
  bufIdQueue : Nat → UInt8

/-- `player_queue_create`, with an array that has anything in it. -/
def playerQueueCreate (len : Nat) (bufDest : Nat → UInt8) : Queue := ⟨0, 0, len, 0, bufDest⟩

/-- `player_que_put` when there is room. -/
def Queue.put (q : Queue) (bufId : UInt8) : Option Queue :=
  if q.count < q.len then
    some { q with
      bufIdQueue := Function.update q.bufIdQueue q.curWr bufId
      curWr := (q.curWr + 1) % q.len
      count := q.count + 1 }
  else none

/-- `player_que_get` when there is a buffer. -/
def Queue.get (q : Queue) : Option (UInt8 × Queue) :=
  if q.count > 0 then
    some (q.bufIdQueue q.curRd, { q with curRd := (q.curRd + 1) % q.len, count := q.count - 1 })
  else none

/-- A queue and the calls that wait for it, asleep or woken again; a put has its buffer with it.
`puts` and `got` are what has gone in and what has come out. -/
structure Calls where
  queue : Queue
  getAsleep : Nat
  getAwake : Nat
  putAsleep : List UInt8
  putAwake : List UInt8
  puts : List UInt8
  got : List UInt8

def create (len : Nat) (bufDest : Nat → UInt8) : Calls :=
  ⟨playerQueueCreate len bufDest, 0, 0, [], [], [], []⟩

/-- `pthread_cond_signal(&queue->condRd)`. -/
def signalRd (s : Calls) : Calls :=
  if 0 < s.getAsleep then { s with getAsleep := s.getAsleep - 1, getAwake := s.getAwake + 1 } else s

/-- `pthread_cond_signal(&queue->condWr)`, which wakes the `k`-th. -/
def signalWr (s : Calls) (k : Nat) : Option Calls :=
  if s.putAsleep = [] then some s
  else s.putAsleep[k]?.map fun bufId =>
    { s with putAsleep := s.putAsleep.eraseIdx k, putAwake := s.putAwake ++ [bufId] }

/-- A round of the loop of `player_que_put`. With `OSA_TIMEOUT_NONE` it fails instead of waiting. -/
def playerQuePut (s : Calls) (bufId : UInt8) (forever : Bool) : Calls :=
  match s.queue.put bufId with
  | some queue => signalRd { s with queue := queue, puts := s.puts ++ [bufId] }
  | none => if forever then { s with putAsleep := s.putAsleep ++ [bufId] } else s

/-- A round of the loop of `player_que_get`. -/
def playerQueGet (s : Calls) (forever : Bool) (k : Nat) : Option Calls :=
  match s.queue.get with
  | some (bufId, queue) => signalWr { s with queue := queue, got := s.got ++ [bufId] } k
  | none => some (if forever then { s with getAsleep := s.getAsleep + 1 } else s)

/-- What a thread does next: a new call, or a woken one goes on. -/
inductive Op where
  | put (bufId : UInt8) (forever : Bool)
  | get (forever : Bool) (k : Nat)
  | putAgain (j : Nat)
  | getAgain (k : Nat)
  /-- A put or a get wakes without a signal. -/
  | wakePut (k : Nat)
  | wakeGet

def step (s : Calls) : Op → Option Calls
  | .put bufId forever => some (playerQuePut s bufId forever)
  | .get forever k => playerQueGet s forever k
  | .putAgain j => s.putAwake[j]?.map fun bufId =>
      playerQuePut { s with putAwake := s.putAwake.eraseIdx j } bufId true
  | .getAgain k =>
      if 0 < s.getAwake then playerQueGet { s with getAwake := s.getAwake - 1 } true k else none
  | .wakePut k => if s.putAsleep = [] then none else signalWr s k
  | .wakeGet => if 0 < s.getAsleep then some (signalRd s) else none

end Nvr.Player.BufQueue
