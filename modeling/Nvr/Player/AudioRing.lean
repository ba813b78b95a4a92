import Mathlib.Logic.Function.Basic

/-!
# The ring of the live audio

The frames of a channel reach the audio thread through `audio_buf` of `audio_play.c`, a
hundred buffers with an index to write and one to read. The contents of a buffer are
whatever a frame is.
-/

namespace Nvr.Player

def audioBufNum : Nat := 100

/-- `_buf_ctl`. -/
structure AudioBufCtl (α : Type) where
  wr : Nat
  rd : Nat
  init : Bool
  bufIndex : Nat → α

variable {α : Type}

/-- `audio_put_data_init`. -/
def audioPutDataInit (b : AudioBufCtl α) : AudioBufCtl α :=
  { b with rd := 0, wr := 0, init := true }

/-- `audio_put_channel_data`. It does not look where the reader is. -/
def audioPutChannelData (b : AudioBufCtl α) (inBuf : α) : AudioBufCtl α :=
  { b with
    init := false
    bufIndex := Function.update b.bufIndex b.wr inBuf
    wr := (b.wr + 1) % audioBufNum }

/-- `audio_get_channel_data`, with the frame if there is one. -/
def audioGetChannelData (b : AudioBufCtl α) : Option α × AudioBufCtl α :=
  if b.rd ≠ b.wr then (some (b.bufIndex b.rd), { b with rd := (b.rd + 1) % audioBufNum })
  else (none, b)

/-- A call. -/
inductive LiveOp (α : Type) where
  | put (inBuf : α)
  | get

/-- The ring of the frames, with what a run has put into it and what it has got. -/
structure LiveAudio (α : Type) where
  buf : AudioBufCtl α
  puts : List α
  got : List α

def LiveAudio.step (s : LiveAudio α) : LiveOp α → LiveAudio α
  | .put inBuf =>
      { s with buf := audioPutChannelData s.buf inBuf, puts := s.puts ++ [inBuf] }
  | .get =>
      { s with
        buf := (audioGetChannelData s.buf).2
        got := s.got ++ (audioGetChannelData s.buf).1.toList }

/-- A run from `audio_put_data_init` on, whatever is in the buffers. -/
def liveRun (b : AudioBufCtl α) (ops : List (LiveOp α)) : LiveAudio α :=
  ops.foldl LiveAudio.step ⟨audioPutDataInit b, [], []⟩

/-- What some further gets return. -/
def audioGets : Nat → AudioBufCtl α → List α
  | 0, _ => []
  | n + 1, b => (audioGetChannelData b).1.toList ++ audioGets n (audioGetChannelData b).2

end Nvr.Player
