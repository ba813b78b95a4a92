import Mathlib.Data.List.Basic

/-!
# The text of a configuration

`jxj_cu_base64.c`. A configuration goes to a camera of the other kind as text, four characters for
three bytes. Both directions can be done in pieces: what does not make a whole group is kept from
one call to the next, and so is the padding.

The lengths are below 2^32 - 2.
-/

namespace Nvr.Ipnc.Base64

def base64Alphabet : List UInt8 :=
  "ABCDEFGHIJKLMNOPQRSTUVWXYZabcdefghijklmnopqrstuvwxyz0123456789+/".toList.map
    fun c => c.toNat.toUInt8

/-- `base64_alphabet[q]`. -/
def character (q : UInt8) : UInt8 := base64Alphabet.getD q.toNat 0

def pad : UInt8 := 61

def newline : UInt8 := 10

/-! ## Encoding -/

/-- `save`: how many bytes are kept, and the two places for them. -/
structure Save where
  count : Nat
  c1 : UInt8
  c2 : UInt8

/-- The bytes that are kept. -/
def Save.kept (s : Save) : List UInt8 :=
  if s.count = 1 then [s.c1] else if s.count = 2 then [s.c1, s.c2] else []

/-- `*saveout++ = *inptr++`, behind those that are kept. -/
def Save.put (s : Save) (c : UInt8) : Save :=
  ⟨s.count + 1, if s.count = 0 then c else s.c1, if s.count = 1 then c else s.c2⟩

structure EncodeState where
  already : Nat
  save : Save

/-- The characters of three bytes. -/
def group (c1 c2 c3 : UInt8) : List UInt8 :=
  [character (c1 >>> 2), character (c2 >>> 4 ||| (c1 &&& 0x3) <<< 4),
    character ((c2 &&& 0x0f) <<< 2 ||| c3 >>> 6), character (c3 &&& 0x3f)]

/-- `break_lines && (++already) >= 19`. -/
def breakLine (breakLines : Bool) (already : Nat) : List UInt8 × Nat :=
  if breakLines then if already + 1 ≥ 19 then ([newline], 0) else ([], already + 1)
  else ([], already)

/-- What the loop writes, the bytes it leaves and the groups of the line. -/
def encodeLoop (breakLines : Bool) : List UInt8 → Nat → List UInt8 × List UInt8 × Nat
  | c1 :: c2 :: c3 :: rest, already =>
      let line := breakLine breakLines already
      let next := encodeLoop breakLines rest line.2
      (group c1 c2 c3 ++ line.1 ++ next.1, next.2)
  | rest, already => ([], rest, already)

/-- `g_base64_encode_step`. The jump into the loop has the kept bytes for its first group. -/
def encodeStep (breakLines : Bool) (input : List UInt8) (s : EncodeState) :
    List UInt8 × EncodeState :=
  if input = [] then ([], s)
  else if 2 < input.length + s.save.count then
    let done := encodeLoop breakLines (s.save.kept ++ input) s.already
    (done.1, ⟨done.2.2, done.2.1.foldl Save.put { s.save with count := 0 }⟩)
  else ([], { s with save := input.foldl Save.put s.save })

/-- `g_base64_encode_close`. -/
def encodeClose (breakLines : Bool) (s : EncodeState) : List UInt8 :=
  let c1 := s.save.c1
  let c2 := s.save.c2
  let first := [character (c1 >>> 2), character (c2 >>> 4 ||| (c1 &&& 0x3) <<< 4)]
  let last :=
    if s.save.count = 2 then first ++ [character ((c2 &&& 0x0f) <<< 2), pad]
    else if s.save.count = 1 then first ++ [pad, pad]
    else []
  if breakLines then last ++ [newline] else last

/-- The calls for some pieces, from both words zero on. -/
def encodeSteps (breakLines : Bool) : List (List UInt8) → EncodeState → List UInt8 × EncodeState
  | [], s => ([], s)
  | piece :: pieces, s =>
      let done := encodeStep breakLines piece s
      let next := encodeSteps breakLines pieces done.2
      (done.1 ++ next.1, next.2)

def encodePieces (breakLines : Bool) (pieces : List (List UInt8)) : List UInt8 :=
  let done := encodeSteps breakLines pieces ⟨0, 0, 0, 0⟩
  done.1 ++ encodeClose breakLines done.2

/-- `g_base64_encode`, `NULL` for no data. -/
def gBase64Encode (data : List UInt8) : Option (List UInt8) :=
  if data = [] then none else some (encodePieces false [data])

/-! ## Decoding -/

def mimeBase64Rank : List UInt8 := [
  255,255,255,255,255,255,255,255,255,255,255,255,255,255,255,255,
  255,255,255,255,255,255,255,255,255,255,255,255,255,255,255,255,
  255,255,255,255,255,255,255,255,255,255,255, 62,255,255,255, 63,
   52, 53, 54, 55, 56, 57, 58, 59, 60, 61,255,255,255,  0,255,255,
  255,  0,  1,  2,  3,  4,  5,  6,  7,  8,  9, 10, 11, 12, 13, 14,
   15, 16, 17, 18, 19, 20, 21, 22, 23, 24, 25,255,255,255,255,255,
  255, 26, 27, 28, 29, 30, 31, 32, 33, 34, 35, 36, 37, 38, 39, 40,
   41, 42, 43, 44, 45, 46, 47, 48, 49, 50, 51,255,255,255,255,255,
  255,255,255,255,255,255,255,255,255,255,255,255,255,255,255,255,
  255,255,255,255,255,255,255,255,255,255,255,255,255,255,255,255,
  255,255,255,255,255,255,255,255,255,255,255,255,255,255,255,255,
  255,255,255,255,255,255,255,255,255,255,255,255,255,255,255,255,
  255,255,255,255,255,255,255,255,255,255,255,255,255,255,255,255,
  255,255,255,255,255,255,255,255,255,255,255,255,255,255,255,255,
  255,255,255,255,255,255,255,255,255,255,255,255,255,255,255,255,
  255,255,255,255,255,255,255,255,255,255,255,255,255,255,255,255]

def rank (c : UInt8) : UInt8 := mimeBase64Rank.getD c.toNat 0xff

/-- The variables of `g_base64_decode_step`. -/
structure Decoding where
  v : UInt32
  i : Int
  last0 : UInt8
  last1 : UInt8

/-- A round of the loop: what it writes, and its variables. -/
def take (d : Decoding) (c : UInt8) : List UInt8 × Decoding :=
  if rank c ≠ 0xff then
    let last1 := d.last0
    let last0 := c
    let v := d.v <<< 6 ||| (rank c).toUInt32
    let i := d.i + 1
    if i = 4 then
      ([(v >>> 16).toUInt8] ++ (if last1 ≠ pad then [(v >>> 8).toUInt8] else []) ++
        (if last0 ≠ pad then [v.toUInt8] else []), ⟨v, 0, last0, last1⟩)
    else ([], ⟨v, i, last0, last1⟩)
  else ([], d)

def decodeLoop : List UInt8 → Decoding → List UInt8 × Decoding
  | [], d => ([], d)
  | c :: text, d =>
      let done := take d c
      let next := decodeLoop text done.2
      (done.1 ++ next.1, next.2)

/-- `state` and `save`. -/
structure DecodeState where
  state : Int
  save : UInt32

/-- The sign of the state tells of a padding character. -/
def DecodeState.start (s : DecodeState) : Decoding :=
  if s.state < 0 then ⟨s.save, -s.state, pad, 0⟩ else ⟨s.save, s.state, 0, 0⟩

def Decoding.leave (d : Decoding) : DecodeState :=
  ⟨if d.last0 = pad then -d.i else d.i, d.v⟩

/-- `g_base64_decode_step`. -/
def decodeStep (text : List UInt8) (s : DecodeState) : List UInt8 × DecodeState :=
  if text = [] then ([], s)
  else
    let done := decodeLoop text s.start
    (done.1, done.2.leave)

/-- The calls for some pieces of a text. -/
def decodeSteps : List (List UInt8) → DecodeState → List UInt8
  | [], _ => []
  | piece :: pieces, s =>
      let done := decodeStep piece s
      done.1 ++ decodeSteps pieces done.2

def decodePieces (pieces : List (List UInt8)) : List UInt8 := decodeSteps pieces ⟨0, 0⟩

/-- `g_base64_decode`. -/
def gBase64Decode (text : List UInt8) : List UInt8 := decodePieces [text]

end Nvr.Ipnc.Base64
