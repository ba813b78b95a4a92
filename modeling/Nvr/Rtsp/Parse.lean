import Mathlib.Algebra.Group.Int.Defs
import Mathlib.Algebra.Group.Nat.Defs
import Mathlib.Data.List.TakeWhile
import Mathlib.Tactic.Common

/-!
# How the RTSP server receives

`rtsp_full_msg_parse` of `nvr_rtsp_parse.c`, which looks for the end of a
message in the receive buffer, and the way from `recv` to it: what one call of
`recv` brings (in `rtsp_new_conn_proc` for the first message of a connection,
in `rtsp_svr_proc` from then on) is put into a cleared buffer and given to
`rtsp_session_process`, which hands it on when it is a full message.

The buffer is a list of bytes that goes on behind the message, and what is
behind its end reads as zero.
-/

namespace Nvr.Rtsp

/-- `RTSP_MAX_PROTOCOL_BUFFER`. -/
def rtspMaxProtocolBuffer : Nat := 4096

/-! ## The C library -/

def cr : UInt8 := 13

def lf : UInt8 := 10

/-- The bytes that `strcspn` of `"\r\n"` goes over: it stops at the end of the
string too. -/
def inLine (c : UInt8) : Bool := c != cr && c != lf && c != 0

def isEol (c : UInt8) : Bool := c == cr || c == lf

/-- A space or a tab. -/
def isBlank (c : UInt8) : Bool := c == 32 || c == 9

/-- `tolower` in the C locale. -/
def toLower (c : UInt8) : UInt8 := if 65 ≤ c ∧ c ≤ 90 then c + 32 else c

/-- `strncasecmp` of `s` and `t` is zero up to the length of `t`. -/
def sameCaseless (s t : List UInt8) : Bool := (s.take t.length).map toLower == t.map toLower

/-- `isspace`. -/
def isSpace (c : UInt8) : Bool := c == 32 || 9 ≤ c && c ≤ 13

def isDigit (c : UInt8) : Bool := 48 ≤ c && c ≤ 57

def decimal (digits : List UInt8) : Nat := digits.foldl (fun n c => 10 * n + (c.toNat - 48)) 0

/-- An integer of the text, kept within an `int`. -/
def clampInt (i : Int) : Int := max (-2 ^ 31) (min (2 ^ 31 - 1) i)

/-- `sscanf` of `"%d"`. -/
def sscanfInt (s : List UInt8) : Option Int :=
  let number (negative : Bool) (t : List UInt8) : Option Int :=
    let digits := t.takeWhile isDigit
    if digits = [] then none
    else some (clampInt (if negative then -(decimal digits : Int) else decimal digits))
  match s.dropWhile isSpace with
  | [] => none
  | c :: t =>
      if c = 45 then number true t
      else if c = 43 then number false t
      else number false (c :: t)

/-! ## `rtsp_full_msg_parse` -/

/-- `RTSP_HDR_CONTENTLENGTH`. -/
def hdrContentLength : List UInt8 :=
  ['C', 'o', 'n', 't', 'e', 'n', 't', '-', 'L', 'e', 'n', 'g', 't', 'h'].map Char.toUInt8

/-- What `rtsp_full_msg_parse` returns; a message has its `hdr_len` and its
`body_len` with it. -/
inductive FullMsg where
  | error
  | notFull
  | methodRcvd (hdrLen bodyLen : Int)
  | interlvdRcvd (hdrLen bodyLen : Int)
  deriving DecidableEq

/-- `RTSP_METHOD_RCVD`. -/
def FullMsg.isMethod : FullMsg → Bool
  | .methodRcvd .. => true
  | _ => false

/-- The terminators at the end of a line and the white space among them, `tc`
and `ws`. -/
def terminators (tc ws : Nat) : List UInt8 → Nat × Nat
  | [] => (tc, ws)
  | c :: s =>
      if isEol c then terminators (tc + 1) ws s
      else if tc < 3 ∧ isBlank c then terminators tc (ws + 1) s
      else (tc, ws)

/-- The end of the function, for a message that ends at `ml`. Trailing zeros
count into the body. -/
def methodRcvd (szBuffRecv : List UInt8) (nMsgSize ml : Nat) (bl : Int) : FullMsg :=
  let behind := if ml ≤ nMsgSize then (szBuffRecv.take nMsgSize).drop ml else szBuffRecv.drop ml
  .methodRcvd (Int.bmod (ml - bl) (2 ^ 32)) (bl + (behind.takeWhile (· = 0)).length)

/-- The loop over the lines, from `ml` on. `mb` says that a `Content-Length`
has been read, into `bl`; `ml` is unsigned. -/
def fullMsgLines (szBuffRecv : List UInt8) (nMsgSize : Nat) :
    Nat → Nat → Bool → Int → FullMsg
  | 0, _, _, _ => .error
  | fuel + 1, ml, mb, bl =>
      if nMsgSize < ml then methodRcvd szBuffRecv nMsgSize ml bl
      else
        let control := ((szBuffRecv.drop ml).takeWhile inLine).length
        if control = 0 then .error
        else
          let ml := ml + control
          if nMsgSize ≤ ml then .notFull
          else
            let (tc, ws) := terminators 0 0 ((szBuffRecv.take nMsgSize).drop ml)
            let eomh := 2 < tc ∨ tc = 2 ∧ szBuffRecv.getD ml 0 = szBuffRecv.getD (ml + 1) 0
            let ml := ml + tc + ws
            if eomh then
              let ml := ((ml + bl) % 2 ^ 32).toNat
              -- a body that has not come in full: the message ends behind what there is
              if ml ≤ nMsgSize then methodRcvd szBuffRecv nMsgSize ml bl else .notFull
            else if nMsgSize ≤ ml then .notFull
            else if mb = false ∧ sameCaseless (szBuffRecv.drop ml) hdrContentLength then
              let ml := ml + hdrContentLength.length
              let skip := ((szBuffRecv.take nMsgSize).drop ml).takeWhile fun c => c == 58 || c == 32
              let ml := ml + skip.length
              match sscanfInt (szBuffRecv.drop ml) with
              | none => .error
              | some bl => fullMsgLines szBuffRecv nMsgSize fuel ml true bl
            else fullMsgLines szBuffRecv nMsgSize fuel ml mb bl

/-- `rtsp_full_msg_parse`: a buffer with `$` in front is an interleaved packet,
with its length in the third and the fourth byte. -/
def rtspFullMsgParse (szBuffRecv : List UInt8) (nMsgSize : Nat) : FullMsg :=
  if szBuffRecv.getD 0 0 = 36 then
    let bl := 256 * (szBuffRecv.getD 2 0).toNat + (szBuffRecv.getD 3 0).toNat
    if bl ≤ nMsgSize then .interlvdRcvd 4 bl else .notFull
  else fullMsgLines szBuffRecv nMsgSize (nMsgSize + 2) 0 false 0

/-- Every pass goes on by a byte at least, so passes for all the bytes are
enough: more of them change nothing. -/
theorem fullMsgLines_fuel {szBuffRecv : List UInt8} {nMsgSize fuel fuel' ml : Nat} {mb : Bool}
    {bl : Int} (hpos : 0 < fuel) (hpos' : 0 < fuel') (h : nMsgSize + 2 ≤ ml + fuel)
    (h' : nMsgSize + 2 ≤ ml + fuel') :
    fullMsgLines szBuffRecv nMsgSize fuel ml mb bl =
      fullMsgLines szBuffRecv nMsgSize fuel' ml mb bl := by
  induction fuel generalizing fuel' ml mb bl with
  | zero => omega
  | succ fuel ih =>
      obtain ⟨fuel', rfl⟩ : ∃ n, fuel' = n + 1 := ⟨fuel' - 1, by omega⟩
      rw [fullMsgLines, fullMsgLines]
      by_cases hend : nMsgSize < ml
      · rw [if_pos hend, if_pos hend]
      · rw [if_neg hend, if_neg hend]
        -- a pass is left behind the place where this one ends
        have hgo : ∀ ml' mb' bl', ml < ml' → fullMsgLines szBuffRecv nMsgSize fuel ml' mb' bl' =
            fullMsgLines szBuffRecv nMsgSize fuel' ml' mb' bl' := fun ml' _ _ hlt =>
          ih (by omega) (by omega) (by omega) (by omega)
        simp only
        split
        · rfl
        · split
          · rfl
          · split
            · rfl
            · split
              · rfl
              · split
                · split
                  · rfl
                  · exact hgo _ _ _ (by omega)
                · exact hgo _ _ _ (by omega)

/-! ## Receiving -/

/-- What one call of `recv` brings. `szBuffSend` stands behind the receive
buffer, with what was sent last. -/
structure Recv where
  bytes : List UInt8
  szBuffSend : List UInt8
  nonempty : bytes ≠ []
  fits : bytes.length ≤ rtspMaxProtocolBuffer

/-- The receive buffer, and what stands behind the received bytes. -/
def Recv.behind (r : Recv) : List UInt8 :=
  List.replicate (rtspMaxProtocolBuffer - r.bytes.length) 0 ++ r.szBuffSend

def Recv.szBuffRecv (r : Recv) : List UInt8 := r.bytes ++ r.behind

/-- `rtsp_session_process` goes on: it returns at once when there is no full
method. -/
def Recv.isMethod (r : Recv) : Bool := (rtspFullMsgParse r.szBuffRecv r.bytes.length).isMethod

/-- A connection: how many bytes have been received, and the messages that were
handed on, each with the place in the stream where it begins. -/
structure Connection where
  received : Nat
  handled : List (Nat × List UInt8)

/-- `rtsp_session_process`. -/
def rtspSessionProcess (conn : Connection) (r : Recv) : Connection where
  received := conn.received + r.bytes.length
  handled := if r.isMethod then conn.handled ++ [(conn.received, r.bytes)] else conn.handled

/-- The messages of a connection, from the first on. Its end (by a `recv` that
fails or by a message that closes the session) is the end of the list. -/
def rtspSvrProc (rs : List Recv) : Connection := rs.foldl rtspSessionProcess ⟨0, []⟩

end Nvr.Rtsp
