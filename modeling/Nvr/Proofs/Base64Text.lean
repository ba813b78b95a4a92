import Mathlib.Algebra.Group.Nat.Defs
import Mathlib.Data.Fintype.Basic
import Nvr.Ipnc.Base64

/-!
# The text comes back

Four characters are decoded to their three bytes, so what a call of the encoder writes stands for
whole groups, and what is left is kept. The last group has one byte or two; where it has one, the
place for the second may still have a byte from before, but nothing is read of it.

The decoder keeps less between two calls than its loop has: of the last two characters only whether
the last was a padding character, and not even this at the end of a group. The rest of a text
cannot tell the difference.
-/

namespace Nvr.Ipnc.Base64


/-! ## Six bits -/

theorem rank_character {q : UInt8} (hq : q.toNat < 64) : rank (character q) = q := by
  have hall : ∀ n : Fin 64, rank (character (UInt8.ofNat n)) = UInt8.ofNat n := by decide +kernel
  simpa using hall ⟨q.toNat, hq⟩

theorem character_ne_pad {q : UInt8} (hq : q.toNat < 64) : character q ≠ pad := by
  have hall : ∀ n : Fin 64, character (UInt8.ofNat n) ≠ pad := by decide +kernel
  simpa using hall ⟨q.toNat, hq⟩

theorem ne_of_toNat_lt {q : UInt8} (hq : q.toNat < 64) : q ≠ 0xff := by
  rintro rfl
  exact absurd hq (by decide)

theorem or_eq_add {a b : Nat} (i : Nat) (hb : b < 2 ^ i) : a * 2 ^ i ||| b = a * 2 ^ i + b := by
  rw [← Nat.shiftLeft_eq, Nat.shiftLeft_add_eq_or_of_lt hb]

/-- The bits that a character puts behind the others. -/
theorem toNat_push (v : UInt32) {q : UInt8} (hq : q.toNat < 64) :
    (v <<< 6 ||| q.toUInt32).toNat = (v.toNat * 64 + q.toNat) % 2 ^ 32 := by
  have hshift : (v <<< 6).toNat = v.toNat % 2 ^ 26 * 2 ^ 6 := by
    simp [Nat.shiftLeft_eq]
    omega
  rw [UInt32.toNat_or, hshift, UInt8.toNat_toUInt32, or_eq_add 6 (by simpa using hq)]
  omega

theorem toNat_first (c1 : UInt8) : (c1 >>> 2).toNat = c1.toNat / 4 := by
  simp [Nat.shiftRight_eq_div_pow]

theorem toNat_second (c1 c2 : UInt8) :
    (c2 >>> 4 ||| (c1 &&& 0x3) <<< 4).toNat = c1.toNat % 4 * 16 + c2.toNat / 16 := by
  have hlow : (c2 >>> 4).toNat = c2.toNat / 16 := by simp [Nat.shiftRight_eq_div_pow]
  have hhigh : ((c1 &&& 0x3) <<< 4).toNat = c1.toNat % 4 * 2 ^ 4 := by
    simp [Nat.shiftLeft_eq, Nat.and_two_pow_sub_one_eq_mod _ 2]
    omega
  have hbits := c2.toNat_lt
  rw [UInt8.toNat_or, hlow, hhigh, Nat.or_comm, or_eq_add 4 (by omega)]
  omega

theorem toNat_third (c2 c3 : UInt8) :
    ((c2 &&& 0x0f) <<< 2 ||| c3 >>> 6).toNat = c2.toNat % 16 * 4 + c3.toNat / 64 := by
  have hlow : (c3 >>> 6).toNat = c3.toNat / 64 := by simp [Nat.shiftRight_eq_div_pow]
  have hhigh : ((c2 &&& 0x0f) <<< 2).toNat = c2.toNat % 16 * 2 ^ 2 := by
    simp [Nat.shiftLeft_eq, Nat.and_two_pow_sub_one_eq_mod _ 4]
    omega
  have hbits := c3.toNat_lt
  rw [UInt8.toNat_or, hlow, hhigh, or_eq_add 2 (by omega)]
  omega

theorem toNat_third_last (c2 : UInt8) : ((c2 &&& 0x0f) <<< 2).toNat = c2.toNat % 16 * 4 := by
  simp [Nat.shiftLeft_eq, Nat.and_two_pow_sub_one_eq_mod _ 4]
  omega

theorem toNat_fourth (c3 : UInt8) : (c3 &&& 0x3f).toNat = c3.toNat % 64 := by
  simp [Nat.and_two_pow_sub_one_eq_mod _ 6]

/-! ## Four characters -/

/-- The variables after some bits more. -/
def Decoding.push (d : Decoding) (q : UInt8) (c : UInt8) : Decoding :=
  ⟨d.v <<< 6 ||| q.toUInt32, d.i + 1, c, d.last0⟩

theorem take_more {d : Decoding} {c : UInt8} (hc : rank c ≠ 0xff) (hi : d.i + 1 ≠ 4) :
    take d c = ([], d.push (rank c) c) := by
  rw [take, if_pos hc]
  exact if_neg hi

theorem take_fourth {d : Decoding} {c : UInt8} (hc : rank c ≠ 0xff) (hi : d.i + 1 = 4) :
    take d c = ([((d.push (rank c) c).v >>> 16).toUInt8] ++
      (if d.last0 ≠ pad then [((d.push (rank c) c).v >>> 8).toUInt8] else []) ++
      (if c ≠ pad then [(d.push (rank c) c).v.toUInt8] else []),
      { d.push (rank c) c with i := 0 }) := by
  rw [take, if_pos hc]
  exact if_pos hi

/-- Four characters make a group. -/
theorem decodeLoop_four {d : Decoding} {a b c e : UInt8} (ha : rank a ≠ 0xff) (hb : rank b ≠ 0xff)
    (hc : rank c ≠ 0xff) (he : rank e ≠ 0xff) (hi : d.i = 0) (v : UInt32)
    (hv : (((d.push (rank a) a).push (rank b) b).push (rank c) c).v <<< 6 ||| (rank e).toUInt32 =
      v) :
    decodeLoop [a, b, c, e] d =
      ([(v >>> 16).toUInt8] ++ (if c ≠ pad then [(v >>> 8).toUInt8] else []) ++
        (if e ≠ pad then [v.toUInt8] else []), ⟨v, 0, e, c⟩) := by
  have hfourth : (((d.push (rank a) a).push (rank b) b).push (rank c) c).i + 1 = 4 := by
    simp [Decoding.push, hi]
  have hthird : ((d.push (rank a) a).push (rank b) b).i + 1 ≠ 4 := by simp [Decoding.push, hi]
  have hsecond : (d.push (rank a) a).i + 1 ≠ 4 := by simp [Decoding.push, hi]
  have hfirst : d.i + 1 ≠ 4 := by simp [hi]
  subst hv
  simp only [decodeLoop, take_more ha hfirst, take_more hb hsecond, take_more hc hthird,
    take_fourth he hfourth, List.nil_append, List.append_nil]
  rfl


/-! ## Groups -/

/-- What four characters put together. -/
theorem toNat_four (v : UInt32) {q1 q2 q3 q4 : UInt8} (h1 : q1.toNat < 64) (h2 : q2.toNat < 64)
    (h3 : q3.toNat < 64) (h4 : q4.toNat < 64) :
    ((((v <<< 6 ||| q1.toUInt32) <<< 6 ||| q2.toUInt32) <<< 6 ||| q3.toUInt32) <<< 6 |||
      q4.toUInt32).toNat % 2 ^ 24 =
      q1.toNat * 2 ^ 18 + q2.toNat * 2 ^ 12 + q3.toNat * 2 ^ 6 + q4.toNat := by
  rw [toNat_push _ h4, toNat_push _ h3, toNat_push _ h2, toNat_push _ h1]
  omega

theorem toNat_high (w : UInt32) : (w >>> 16).toUInt8.toNat = w.toNat % 2 ^ 24 / 2 ^ 16 := by
  simp [Nat.shiftRight_eq_div_pow]
  omega

theorem toNat_middle (w : UInt32) : (w >>> 8).toUInt8.toNat = w.toNat % 2 ^ 24 / 2 ^ 8 % 256 := by
  simp [Nat.shiftRight_eq_div_pow]
  omega

theorem toNat_low (w : UInt32) : w.toUInt8.toNat = w.toNat % 2 ^ 24 % 256 := by
  simp

/-- A text of whole groups stands for some bytes. -/
def Decodes (text bytes : List UInt8) : Prop :=
  ∀ d : Decoding, d.i = 0 → ∃ d' : Decoding, d'.i = 0 ∧ decodeLoop text d = (bytes, d')

theorem Decodes.nil : Decodes [] [] := fun d hi => ⟨d, hi, rfl⟩

theorem decodeLoop_append (text text' : List UInt8) (d : Decoding) :
    decodeLoop (text ++ text') d =
      ((decodeLoop text d).1 ++ (decodeLoop text' (decodeLoop text d).2).1,
        (decodeLoop text' (decodeLoop text d).2).2) := by
  induction text generalizing d with
  | nil => rfl
  | cons c text ih => simp only [List.cons_append, decodeLoop, ih, List.append_assoc]

theorem Decodes.append {text text' bytes bytes' : List UInt8} (h : Decodes text bytes)
    (h' : Decodes text' bytes') : Decodes (text ++ text') (bytes ++ bytes') := by
  intro d hi
  obtain ⟨d₁, hi₁, hfirst⟩ := h d hi
  obtain ⟨d₂, hi₂, hsecond⟩ := h' d₁ hi₁
  exact ⟨d₂, hi₂, by rw [decodeLoop_append, hfirst, hsecond]⟩

theorem Decodes.newline : Decodes [newline] [] := by
  intro d hi
  have hrank : rank Base64.newline = 0xff := by decide
  exact ⟨d, hi, by simp [decodeLoop, take, hrank]⟩

theorem first_lt (c1 : UInt8) : (c1 >>> 2).toNat < 64 := by
  have hbits := c1.toNat_lt
  rw [toNat_first]
  omega

theorem second_lt (c1 c2 : UInt8) : (c2 >>> 4 ||| (c1 &&& 0x3) <<< 4).toNat < 64 := by
  have hbits := c2.toNat_lt
  rw [toNat_second]
  omega

theorem third_lt (c2 c3 : UInt8) : ((c2 &&& 0x0f) <<< 2 ||| c3 >>> 6).toNat < 64 := by
  have hbits := c3.toNat_lt
  rw [toNat_third]
  omega

theorem third_last_lt (c2 : UInt8) : ((c2 &&& 0x0f) <<< 2).toNat < 64 := by
  rw [toNat_third_last]
  omega

theorem fourth_lt (c3 : UInt8) : (c3 &&& 0x3f).toNat < 64 := by
  rw [toNat_fourth]
  omega

theorem rank_ne {q : UInt8} (hq : q.toNat < 64) : rank (character q) ≠ 0xff := by
  rw [rank_character hq]
  exact ne_of_toNat_lt hq

theorem rank_pad : rank pad = 0 := by decide

theorem rank_pad_ne : rank pad ≠ 0xff := by decide

theorem not_pad_ne : ¬pad ≠ pad := fun h => h rfl

theorem decodes_group (c1 c2 c3 : UInt8) : Decodes (group c1 c2 c3) [c1, c2, c3] := by
  intro d hi
  have hfour := toNat_four d.v (first_lt c1) (second_lt c1 c2) (third_lt c2 c3) (fourth_lt c3)
  have hloop := decodeLoop_four (rank_ne (first_lt c1)) (rank_ne (second_lt c1 c2))
    (rank_ne (third_lt c2 c3)) (rank_ne (fourth_lt c3)) hi _ rfl
  refine ⟨_, ?_, hloop.trans (Prod.ext ?_ rfl)⟩
  · rfl
  simp only [Decoding.push, rank_character (first_lt c1), rank_character (second_lt c1 c2),
    rank_character (third_lt c2 c3), rank_character (fourth_lt c3),
    if_pos (character_ne_pad (third_lt c2 c3)), if_pos (character_ne_pad (fourth_lt c3)),
    List.cons_append, List.nil_append, List.cons.injEq, and_true, ← UInt8.toNat_inj]
  rw [toNat_high, toNat_middle, toNat_low, hfour, toNat_first, toNat_second, toNat_third,
    toNat_fourth]
  have hbits1 := c1.toNat_lt
  have hbits2 := c2.toNat_lt
  have hbits3 := c3.toNat_lt
  omega

/-- The last two bytes. -/
theorem decodes_two (c1 c2 : UInt8) : Decodes [character (c1 >>> 2),
    character (c2 >>> 4 ||| (c1 &&& 0x3) <<< 4), character ((c2 &&& 0x0f) <<< 2), pad]
    [c1, c2] := by
  intro d hi
  have hfour := toNat_four d.v (first_lt c1) (second_lt c1 c2) (third_last_lt c2)
    (by decide : (0 : UInt8).toNat < 64)
  have hloop := decodeLoop_four (rank_ne (first_lt c1)) (rank_ne (second_lt c1 c2))
    (rank_ne (third_last_lt c2)) rank_pad_ne hi _ rfl
  refine ⟨_, ?_, hloop.trans (Prod.ext ?_ rfl)⟩
  · rfl
  simp only [Decoding.push, rank_character (first_lt c1), rank_character (second_lt c1 c2),
    rank_character (third_last_lt c2), rank_pad, if_pos (character_ne_pad (third_last_lt c2)),
    if_neg not_pad_ne, List.append_nil, List.cons_append, List.nil_append, List.cons.injEq,
    and_true, ← UInt8.toNat_inj]
  rw [toNat_high, toNat_middle, hfour, toNat_first, toNat_second, toNat_third_last]
  have hbits1 := c1.toNat_lt
  have hbits2 := c2.toNat_lt
  have hzero : (0 : UInt8).toNat = 0 := rfl
  omega

/-- The last byte. Nothing is read of the second byte, which may still be one from before. -/
theorem decodes_one (c1 c2 : UInt8) : Decodes [character (c1 >>> 2),
    character (c2 >>> 4 ||| (c1 &&& 0x3) <<< 4), pad, pad] [c1] := by
  intro d hi
  have hfour := toNat_four d.v (first_lt c1) (second_lt c1 c2)
    (by decide : (0 : UInt8).toNat < 64) (by decide : (0 : UInt8).toNat < 64)
  have hloop := decodeLoop_four (rank_ne (first_lt c1)) (rank_ne (second_lt c1 c2))
    rank_pad_ne rank_pad_ne hi _ rfl
  refine ⟨_, ?_, hloop.trans (Prod.ext ?_ rfl)⟩
  · rfl
  simp only [Decoding.push, rank_character (first_lt c1), rank_character (second_lt c1 c2),
    rank_pad, if_neg not_pad_ne, List.append_nil, List.cons.injEq, and_true, ← UInt8.toNat_inj]
  rw [toNat_high, hfour, toNat_first, toNat_second]
  have hbits1 := c1.toNat_lt
  have hbits2 := c2.toNat_lt
  have hzero : (0 : UInt8).toNat = 0 := rfl
  omega


/-! ## The encoder in pieces -/

theorem decodes_breakLine (breakLines : Bool) (already : Nat) :
    Decodes (breakLine breakLines already).1 [] := by
  rw [breakLine]
  split
  · split
    · exact Decodes.newline
    · exact Decodes.nil
  · exact Decodes.nil

/-- The loop encodes whole groups and leaves less than one. -/
theorem decodes_encodeLoop (breakLines : Bool) (input : List UInt8) (already : Nat) :
    ∃ bytes, Decodes (encodeLoop breakLines input already).1 bytes ∧
      bytes ++ (encodeLoop breakLines input already).2.1 = input ∧
      (encodeLoop breakLines input already).2.1.length ≤ 2 := by
  induction input, already using encodeLoop.induct breakLines with
  | case1 c1 c2 c3 rest already line ih =>
      obtain ⟨bytes, hdecodes, hinput, hrest⟩ := ih
      have hline := (decodes_group c1 c2 c3).append (decodes_breakLine breakLines already)
      refine ⟨[c1, c2, c3] ++ bytes, hline.append hdecodes, ?_, hrest⟩
      show [c1, c2, c3] ++ bytes ++ (encodeLoop breakLines rest line.2).2.1 = c1 :: c2 :: c3 :: rest
      rw [List.append_assoc, hinput]
      rfl
  | case2 input already hshort =>
      have hleft : encodeLoop breakLines input already = ([], input, already) := by
        rw [encodeLoop]
        exact hshort
      rw [hleft]
      refine ⟨[], Decodes.nil, rfl, ?_⟩
      cases input with
      | nil => simp
      | cons c1 input =>
          cases input with
          | nil => simp
          | cons c2 input =>
              cases input with
              | nil => simp
              | cons c3 rest => exact absurd rfl (hshort c1 c2 c3 rest)

theorem kept_put {s : Save} (hs : s.count ≤ 1) (c : UInt8) : (s.put c).kept = s.kept ++ [c] := by
  obtain ⟨count, c1, c2⟩ := s
  obtain rfl | rfl : count = 0 ∨ count = 1 := by
    simp only at hs
    omega
  · rfl
  · rfl

/-- The bytes that are put are kept behind those that are. -/
theorem kept_foldl_put {s : Save} {input : List UInt8} (hroom : s.count + input.length ≤ 2) :
    (input.foldl Save.put s).kept = s.kept ++ input ∧
      (input.foldl Save.put s).count = s.count + input.length := by
  induction input generalizing s with
  | nil => simp
  | cons c input ih =>
      rw [List.length_cons] at hroom
      have hput : (s.put c).count = s.count + 1 := rfl
      obtain ⟨hkept, hcount⟩ := ih (s := s.put c) (by omega)
      rw [List.foldl_cons, hkept, hcount, kept_put (by omega), hput]
      refine ⟨by simp, ?_⟩
      rw [List.length_cons]
      omega

/-- What a step writes stands for what was kept and has come, but for what it keeps. -/
theorem decodes_encodeStep (breakLines : Bool) (input : List UInt8) {s : EncodeState}
    (hs : s.save.count ≤ 2) : ∃ bytes, Decodes (encodeStep breakLines input s).1 bytes ∧
      bytes ++ (encodeStep breakLines input s).2.save.kept = s.save.kept ++ input ∧
      (encodeStep breakLines input s).2.save.count ≤ 2 := by
  by_cases hnil : input = []
  · subst hnil
    rw [encodeStep, if_pos rfl]
    exact ⟨[], Decodes.nil, by simp, hs⟩
  · by_cases hgroup : 2 < input.length + s.save.count
    · obtain ⟨bytes, hdecodes, hinput, hrest⟩ :=
        decodes_encodeLoop breakLines (s.save.kept ++ input) s.already
      have hempty : Save.kept { s.save with count := 0 } = [] := rfl
      obtain ⟨hkept, hcount⟩ := kept_foldl_put (s := { s.save with count := 0 })
        (Nat.le_trans (Nat.le_of_eq (Nat.zero_add _)) hrest)
      rw [encodeStep, if_neg hnil, if_pos hgroup]
      refine ⟨bytes, hdecodes, ?_, ?_⟩
      · rw [hkept, hempty]
        exact hinput
      · rw [hcount]
        exact Nat.le_trans (Nat.le_of_eq (Nat.zero_add _)) hrest
    · obtain ⟨hkept, hcount⟩ := kept_foldl_put (s := s.save)
        (by omega : s.save.count + input.length ≤ 2)
      rw [encodeStep, if_neg hnil, if_neg hgroup]
      refine ⟨[], Decodes.nil, hkept, ?_⟩
      rw [hcount]
      omega

theorem decodes_encodeSteps (breakLines : Bool) (pieces : List (List UInt8)) {s : EncodeState}
    (hs : s.save.count ≤ 2) : ∃ bytes, Decodes (encodeSteps breakLines pieces s).1 bytes ∧
      bytes ++ (encodeSteps breakLines pieces s).2.save.kept = s.save.kept ++ pieces.flatten ∧
      (encodeSteps breakLines pieces s).2.save.count ≤ 2 := by
  induction pieces generalizing s with
  | nil => exact ⟨[], Decodes.nil, by simp [encodeSteps], hs⟩
  | cons piece pieces ih =>
      obtain ⟨bytes, hdecodes, hkept, hcount⟩ := decodes_encodeStep breakLines piece hs
      obtain ⟨bytes', hdecodes', hkept', hcount'⟩ := ih hcount
      refine ⟨bytes ++ bytes', hdecodes.append hdecodes', ?_, hcount'⟩
      rw [encodeSteps, List.append_assoc, hkept', ← List.append_assoc, hkept, List.append_assoc,
        List.flatten_cons]

theorem decodes_encodeClose (breakLines : Bool) {s : EncodeState} (hs : s.save.count ≤ 2) :
    Decodes (encodeClose breakLines s) s.save.kept := by
  obtain ⟨already, count, c1, c2⟩ := s
  have hlast : Decodes (encodeClose false ⟨already, count, c1, c2⟩)
      (Save.kept ⟨count, c1, c2⟩) := by
    obtain rfl | rfl | rfl : count = 0 ∨ count = 1 ∨ count = 2 := by
      simp only at hs
      omega
    · exact Decodes.nil
    · exact decodes_one c1 c2
    · exact decodes_two c1 c2
  cases breakLines with
  | false => exact hlast
  | true =>
      have hline := hlast.append Decodes.newline
      rwa [List.append_nil] at hline

theorem decodes_encodePieces (breakLines : Bool) (pieces : List (List UInt8)) :
    Decodes (encodePieces breakLines pieces) pieces.flatten := by
  obtain ⟨bytes, hdecodes, hkept, hcount⟩ :=
    decodes_encodeSteps breakLines pieces (s := ⟨0, 0, 0, 0⟩) (Nat.zero_le 2)
  have hall := hdecodes.append (decodes_encodeClose breakLines hcount)
  rw [hkept] at hall
  exact hall

/-! ## The decoder in pieces -/

/-- Two sets of variables that the rest of a text cannot tell apart. -/
structure Alike (d e : Decoding) : Prop where
  v : d.v = e.v
  i : d.i = e.i
  nonneg : 0 ≤ d.i
  padding : d.i ≠ 0 → (d.last0 = pad ↔ e.last0 = pad)

theorem Alike.take {d e : Decoding} (h : Alike d e) (c : UInt8) :
    (take d c).1 = (take e c).1 ∧ Alike (Base64.take d c).2 (Base64.take e c).2 := by
  by_cases hc : rank c = 0xff
  · have hskip : ∀ d, Base64.take d c = ([], d) := fun d => by simp [Base64.take, hc]
    rw [hskip, hskip]
    exact ⟨rfl, h⟩
  · by_cases hi : d.i + 1 = 4
    · have hpad := h.padding (by omega)
      rw [take_fourth hc hi, take_fourth hc (h.i ▸ hi)]
      simp only [Decoding.push, h.v, ne_eq, hpad]
      exact ⟨trivial, rfl, rfl, Int.le_refl _, fun hne => absurd rfl hne⟩
    · rw [take_more hc hi, take_more hc (h.i ▸ hi)]
      have hnonneg := h.nonneg
      refine ⟨rfl, ?_, ?_, ?_, fun _ => Iff.rfl⟩
      · simp only [Decoding.push, h.v]
      · simp only [Decoding.push, h.i]
      · simp only [Decoding.push]
        omega

theorem Alike.decodeLoop {d e : Decoding} (h : Alike d e) (text : List UInt8) :
    (decodeLoop text d).1 = (decodeLoop text e).1 ∧
      Alike (Base64.decodeLoop text d).2 (Base64.decodeLoop text e).2 := by
  induction text generalizing d e with
  | nil => exact ⟨rfl, h⟩
  | cons c text ih =>
      obtain ⟨hwrites, hnext⟩ := h.take c
      obtain ⟨hrest, hend⟩ := ih hnext
      refine ⟨?_, hend⟩
      rw [Base64.decodeLoop, Base64.decodeLoop, hwrites, hrest]

/-- What is kept between two calls is enough. -/
theorem Alike.start_leave {d : Decoding} (hi : 0 ≤ d.i) : Alike d.leave.start d := by
  obtain ⟨v, i, last0, last1⟩ := d
  simp only at hi
  by_cases hpad : last0 = pad
  · by_cases hzero : i = 0
    · subst hzero
      simp only [Decoding.leave, DecodeState.start, if_pos hpad]
      exact ⟨rfl, rfl, Int.le_refl _, fun hne => absurd rfl hne⟩
    · have hneg : -i < 0 := by omega
      simp only [Decoding.leave, DecodeState.start, if_pos hpad, if_pos hneg, Int.neg_neg]
      exact ⟨rfl, rfl, hi, fun _ => ⟨fun _ => hpad, fun _ => rfl⟩⟩
  · have hnot : ¬i < 0 := by omega
    simp only [Decoding.leave, DecodeState.start, if_neg hpad, if_neg hnot]
    have hfresh : (0 : UInt8) ≠ pad := by decide
    exact ⟨rfl, rfl, hi, fun _ => ⟨fun h => absurd h hfresh, fun h => absurd h hpad⟩⟩

/-- The calls write what one call for the whole text would. -/
theorem decodeSteps_eq {s : DecodeState} {d : Decoding} (h : Alike s.start d)
    (pieces : List (List UInt8)) : decodeSteps pieces s = (decodeLoop pieces.flatten d).1 := by
  induction pieces generalizing s d with
  | nil => rfl
  | cons piece pieces ih =>
      rw [decodeSteps, List.flatten_cons, decodeLoop_append]
      by_cases hnil : piece = []
      · subst hnil
        rw [decodeStep, if_pos rfl]
        exact ih h
      · obtain ⟨hwrites, hafter⟩ := h.decodeLoop piece
        have hleave := Alike.start_leave hafter.nonneg
        have hkept : Alike (decodeLoop piece s.start).2.leave.start (decodeLoop piece d).2 :=
          ⟨hleave.v.trans hafter.v, hleave.i.trans hafter.i, hleave.nonneg, fun hne =>
            (hleave.padding hne).trans (hafter.padding (hleave.i ▸ hne))⟩
        rw [decodeStep, if_neg hnil]
        simp only
        rw [hwrites, ih hkept]

/-- Characters that are not of the alphabet are passed over. -/
theorem decodeLoop_filter (text : List UInt8) (d : Decoding) :
    decodeLoop (text.filter fun c => rank c ≠ 0xff) d = decodeLoop text d := by
  induction text generalizing d with
  | nil => rfl
  | cons c text ih =>
      by_cases hc : rank c = 0xff
      · have hskip : take d c = ([], d) := by simp [take, hc]
        rw [List.filter_cons_of_neg (by simpa using hc), ih, decodeLoop, hskip]
        rfl
      · rw [List.filter_cons_of_pos (by simpa using hc), decodeLoop, decodeLoop, ih]

/-- A text of whole groups in any pieces, with other characters in it or without. -/
theorem decodePieces_of_decodes {text bytes : List UInt8} {texts : List (List UInt8)}
    (hdecodes : Decodes text bytes) (htexts : texts.flatten.filter (fun c => rank c ≠ 0xff) =
      text.filter fun c => rank c ≠ 0xff) : decodePieces texts = bytes := by
  have hstart : Alike (DecodeState.start ⟨0, 0⟩) ⟨0, 0, 0, 0⟩ :=
    ⟨rfl, rfl, Int.le_refl _, fun _ => Iff.rfl⟩
  obtain ⟨d, -, hloop⟩ := hdecodes ⟨0, 0, 0, 0⟩ rfl
  rw [decodePieces, decodeSteps_eq hstart, ← decodeLoop_filter, htexts, decodeLoop_filter, hloop]

/-- The two calls that are used do without pieces. -/
theorem gBase64Decode_gBase64Encode (data : List UInt8) :
    (gBase64Encode data).map gBase64Decode = if data = [] then none else some data := by
  by_cases hnil : data = []
  · rw [gBase64Encode, if_pos hnil, if_pos hnil]
    rfl
  · rw [gBase64Encode, if_neg hnil, if_neg hnil, Option.map_some, gBase64Decode]
    have hdecodes := decodes_encodePieces false [data]
    rw [List.flatten_singleton] at hdecodes
    rw [decodePieces_of_decodes hdecodes (by rw [List.flatten_singleton])]

/-- A text comes back as what was encoded, in whatever pieces it was encoded and is decoded, with
its lines broken or not, and also with other characters in it. -/
theorem decodePieces_encodePieces (breakLines : Bool) (pieces texts : List (List UInt8))
    (htexts : texts.flatten.filter (fun c => rank c ≠ 0xff) =
      (encodePieces breakLines pieces).filter fun c => rank c ≠ 0xff) :
    decodePieces texts = pieces.flatten :=
  decodePieces_of_decodes (decodes_encodePieces breakLines pieces) htexts

/-- Two bytes, then two more, then the last: the text is read in two pieces with a blank between. -/
theorem decodePieces_encodePieces_five :
    decodePieces [[84, 87, 70, 117, 73], [32, 83, 69, 61]] = [77, 97, 110, 33, 33] :=
  decodePieces_encodePieces false [[77, 97], [110, 33], [33]] _ (by decide +kernel)

end Nvr.Ipnc.Base64
