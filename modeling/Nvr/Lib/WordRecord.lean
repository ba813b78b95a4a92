import Mathlib.Algebra.Group.Int.Defs
import Mathlib.Algebra.Group.Nat.Defs
import Mathlib.Data.List.Basic
import Mathlib.Tactic.Common

/-!
# Records of 32-bit words closed by a checksum

The records of a file format that is written with `write(fd, &record,
sizeof(record))` on a 32-bit little-endian machine are sequences of words.
When the last word is the sum of the others, a record can be recognised again:
`decode` accepts exactly what `encode` can have produced for the words it
finds, and the round trip is unconditional because every field is a word of
fixed width.

A `WordFormat` is such a record type: how its fields become words, how words
become fields, and the proof that the one undoes the other.
-/

namespace WordRecord

/-- The four bytes of a word, least significant first. -/
def wordBytes (w : UInt32) : List UInt8 :=
  [UInt8.ofNat w.toNat, UInt8.ofNat (w.toNat / 256),
    UInt8.ofNat (w.toNat / 65536), UInt8.ofNat (w.toNat / 16777216)]

/-- The word whose bytes, least significant first, are these. -/
def bytesWord (b₀ b₁ b₂ b₃ : UInt8) : UInt32 :=
  UInt32.ofNat (b₀.toNat + 256 * b₁.toNat + 65536 * b₂.toNat + 16777216 * b₃.toNat)

/-- The word at an offset of a buffer. -/
def wordIn (buf : List UInt8) (off : Nat) : UInt32 :=
  bytesWord (buf.getD off 0) (buf.getD (off + 1) 0) (buf.getD (off + 2) 0) (buf.getD (off + 3) 0)

/-- The bytes of a sequence of words. -/
def wordsBytes : List UInt32 → List UInt8
  | [] => []
  | w :: ws => wordBytes w ++ wordsBytes ws

/-- The words in a sequence of bytes; bytes that do not fill a word are
dropped. -/
def bytesWords : List UInt8 → List UInt32
  | b₀ :: b₁ :: b₂ :: b₃ :: rest => bytesWord b₀ b₁ b₂ b₃ :: bytesWords rest
  | _ => []

/-- The sum of the words, which wraps as `unsigned long` does. -/
def sumWords : List UInt32 → UInt32
  | [] => 0
  | w :: ws => w + sumWords ws

@[simp] theorem length_wordBytes (w : UInt32) : (wordBytes w).length = 4 := rfl

@[simp] theorem length_wordsBytes (ws : List UInt32) :
    (wordsBytes ws).length = 4 * ws.length := by
  induction ws with
  | nil => rfl
  | cons w ws ih =>
      simp only [wordsBytes, List.length_append, length_wordBytes, List.length_cons, ih]
      omega

theorem bytesWord_wordBytes (w : UInt32) :
    bytesWord (UInt8.ofNat w.toNat) (UInt8.ofNat (w.toNat / 256))
      (UInt8.ofNat (w.toNat / 65536)) (UInt8.ofNat (w.toNat / 16777216)) = w := by
  have hw := w.toNat_lt
  apply UInt32.toNat_inj.mp
  simp only [bytesWord, UInt8.toNat_ofNat', UInt32.toNat_ofNat']
  omega

/-- A word reads back from where its bytes are. -/
theorem wordIn_wordBytes (front : List UInt8) (w : UInt32) (rest : List UInt8) :
    wordIn (front ++ (wordBytes w ++ rest)) front.length = w := by
  have hget : ∀ i, (front ++ (wordBytes w ++ rest)).getD (front.length + i) 0 =
      (wordBytes w ++ rest).getD i 0 := fun i => by
    rw [List.getD_eq_getElem?_getD, List.getElem?_append_right (Nat.le_add_right _ _),
      Nat.add_sub_cancel_left, List.getD_eq_getElem?_getD]
  have hzero := hget 0
  rw [Nat.add_zero] at hzero
  rw [wordIn, hzero, hget, hget, hget]
  simp only [wordBytes, List.cons_append, List.nil_append, List.getD_cons_zero,
    List.getD_cons_succ, bytesWord_wordBytes]

theorem wordBytes_bytesWord (b₀ b₁ b₂ b₃ : UInt8) :
    wordBytes (bytesWord b₀ b₁ b₂ b₃) = [b₀, b₁, b₂, b₃] := by
  have h₀ := b₀.toNat_lt
  have h₁ := b₁.toNat_lt
  have h₂ := b₂.toNat_lt
  have h₃ := b₃.toNat_lt
  simp only [wordBytes, bytesWord, List.cons.injEq, and_true, ← UInt8.toNat_inj,
    UInt8.toNat_ofNat', UInt32.toNat_ofNat']
  omega

/-- The bytes of a word that is read are the four bytes there. -/
theorem wordBytes_wordIn {buf : List UInt8} {off : Nat} (h : off + 4 ≤ buf.length) :
    wordBytes (wordIn buf off) = (buf.drop off).take 4 := by
  rw [wordIn, wordBytes_bytesWord]
  apply List.ext_getElem
  · simp only [List.length_cons, List.length_nil, List.length_take, List.length_drop]
    omega
  · intro i hi _
    have hget : ∀ j (hj : off + j < buf.length), buf.getD (off + j) 0 = buf[off + j] := by
      intro j hj
      rw [List.getD_eq_getElem?_getD, List.getElem?_eq_getElem hj, Option.getD_some]
    rw [List.getElem_take, List.getElem_drop]
    match i, hi with
    | 0, _ => exact hget 0 (by omega)
    | 1, _ => exact hget 1 (by omega)
    | 2, _ => exact hget 2 (by omega)
    | 3, _ => exact hget 3 (by omega)

theorem bytesWords_wordsBytes (ws : List UInt32) : bytesWords (wordsBytes ws) = ws := by
  induction ws with
  | nil => rfl
  | cons w ws ih =>
      simp only [wordsBytes, wordBytes, List.cons_append, List.nil_append, bytesWords, ih,
        bytesWord_wordBytes]

/-- A record type laid out as `size` words, before its checksum. -/
structure WordFormat (α : Type) where
  size : Nat
  toWords : α → List UInt32
  ofWords : List UInt32 → Option α
  length_toWords : ∀ a, (toWords a).length = size
  ofWords_toWords : ∀ a, ofWords (toWords a) = some a

namespace WordFormat

variable {α : Type} (F : WordFormat α)

/-- The length of a stored record in bytes, its checksum included. -/
def len : Nat := 4 * (F.size + 1)

/-- The stored form: the words of the fields, then their sum. -/
def encode (a : α) : List UInt8 :=
  wordsBytes (F.toWords a ++ [sumWords (F.toWords a)])

/-- The record in `len` bytes, if the last word is the sum of the others. -/
def decode (bytes : List UInt8) : Option α :=
  let ws := bytesWords bytes
  if ws[F.size]? = some (sumWords (ws.take F.size)) then F.ofWords (ws.take F.size) else none

@[simp] theorem length_encode (a : α) : (F.encode a).length = F.len := by
  simp [encode, len, F.length_toWords]

@[simp] theorem decode_encode (a : α) : F.decode (F.encode a) = some a := by
  have hlen := F.length_toWords a
  have htake : (F.toWords a ++ [sumWords (F.toWords a)]).take F.size = F.toWords a := by
    rw [← hlen, List.take_left]
  have hlast : (F.toWords a ++ [sumWords (F.toWords a)])[F.size]? =
      some (sumWords (F.toWords a)) := by
    rw [← hlen]
    simp
  simp only [decode, encode, bytesWords_wordsBytes, htake, hlast, if_true,
    F.ofWords_toWords]

theorem encode_inj {a b : α} (h : F.encode a = F.encode b) : a = b := by
  have hdec := congrArg F.decode h
  simpa using hdec

end WordFormat

end WordRecord
