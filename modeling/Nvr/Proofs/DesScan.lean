import Mathlib.Data.List.TakeWhile
import Mathlib.Tactic.Common
import Nvr.Lib.Iterate
import Nvr.Update.Describe

/-!
# Scanning a description

Every branch of the inner loop gets farther than it was, also the one where a value
returns -1, since the keyword in front of it is longer than one letter. Only the last
branch may stay where it is: it stops at a quotation mark, and it begins at one if there
is one that no value has consumed. A number is copied whole, however long it is
(`Plain`).
-/

namespace Nvr.Update.Describe

variable {p : UInt8 → Bool} {dat : List UInt8} {i : Nat}

/-! ## Going on along a string -/

theorem le_advance (p : UInt8 → Bool) (dat : List UInt8) (i : Nat) : i ≤ advance p dat i :=
  Nat.le_add_right _ _

theorem advance_le (h : i ≤ dat.length) : advance p dat i ≤ dat.length := by
  have hle := (List.takeWhile_prefix (p := p) (l := dat.drop i)).length_le
  rw [List.length_drop] at hle
  rw [advance]
  omega

theorem getD_takeWhile {l : List UInt8} (h : (l.takeWhile p).length < l.length) :
    p (l.getD (l.takeWhile p).length 0) = false := by
  induction l with
  | nil => exact absurd h (Nat.lt_irrefl 0)
  | cons c l ih =>
      cases hc : p c with
      | true =>
          rw [List.takeWhile_cons_of_pos hc] at h ⊢
          exact ih (Nat.lt_of_succ_lt_succ h)
      | false =>
          rw [List.takeWhile_cons_of_neg (by rw [hc]; exact Bool.false_ne_true)]
          exact hc

theorem getD_drop (dat : List UInt8) (i k : Nat) : (dat.drop i).getD k 0 = dat.getD (i + k) 0 := by
  rw [List.getD_eq_getElem?_getD, List.getD_eq_getElem?_getD, List.getElem?_drop]

/-- Where it stops, if it is not the end. -/
theorem advance_stop (h : advance p dat i < dat.length) :
    p (dat.getD (advance p dat i) 0) = false := by
  have hlt : ((dat.drop i).takeWhile p).length < (dat.drop i).length := by
    rw [List.length_drop]
    have : advance p dat i = i + ((dat.drop i).takeWhile p).length := rfl
    omega
  have hstop := getD_takeWhile hlt
  rwa [getD_drop] at hstop

theorem drop_eq_cons (hlt : i < dat.length) :
    dat.drop i = dat.getD i 0 :: dat.drop (i + 1) := by
  rw [List.drop_eq_getElem_cons hlt, List.getD_eq_getElem?_getD, List.getElem?_eq_getElem hlt]
  rfl

theorem advance_of_not (h : p (dat.getD i 0) = false) (hlt : i < dat.length) :
    advance p dat i = i := by
  rw [advance, drop_eq_cons hlt, List.takeWhile_cons_of_neg (by rw [h]; exact Bool.false_ne_true)]
  rfl

theorem lt_advance (h : p (dat.getD i 0) = true) (hlt : i < dat.length) :
    i < advance p dat i := by
  rw [advance, drop_eq_cons hlt, List.takeWhile_cons_of_pos h, List.length_cons]
  omega

/-! ## Values -/

/-- The length of a number, as `GetValueInt` copies it. -/
def numberLen (dat : List UInt8) : Nat :=
  match valueStart dat with
  | none => 0
  | some index => advance (· ≠ semicolon) dat index - index

theorem valueStart_le {index : Nat} (h : valueStart dat = some index) : index ≤ dat.length := by
  rw [valueStart] at h
  split at h
  · cases h
  · rename_i hne
    split at h
    · cases h
    · rw [← Option.some.inj h]
      have hle := advance_le (p := isBlank) (Nat.zero_le dat.length)
      exact advance_le (by omega)

theorem getD_append_left {xs ys : List UInt8} {k : Nat} (h : k < xs.length) :
    (xs ++ ys).getD k 0 = xs.getD k 0 := by
  rw [List.getD_eq_getElem?_getD, List.getD_eq_getElem?_getD, List.getElem?_append_left h]

theorem getD_append_right {xs ys : List UInt8} {k : Nat} (h : xs.length ≤ k) :
    (xs ++ ys).getD k 0 = ys.getD (k - xs.length) 0 := by
  rw [List.getD_eq_getElem?_getD, List.getD_eq_getElem?_getD, List.getElem?_append_right h]

/-- What a call does that returns a value: it stays inside the string, and changes nothing
behind the place that it returns. -/
structure Value.Inside (v : Value) (dat : List UInt8) : Prop where
  ret : v.ret = -1 ∧ v.dat = dat ∨ 0 ≤ v.ret ∧ v.ret ≤ dat.length
  length : v.dat.length = dat.length
  copied : v.index + v.bytes.length ≤ dat.length
  behind : ∀ k : Nat, v.ret ≤ k → v.dat.getD k 0 = dat.getD k 0

theorem inside_none (dat : List UInt8) : (Value.none dat).Inside dat :=
  ⟨.inl ⟨rfl, rfl⟩, rfl, Nat.zero_le _, fun _ _ => rfl⟩

theorem getValueStr_inside (dat : List UInt8) (datlen : Nat) :
    (getValueStr dat datlen).Inside dat ∧ (getValueStr dat datlen).bytes.length ≤ datlen := by
  rw [getValueStr]
  cases hstart : valueStart dat with
  | none => exact ⟨inside_none dat, Nat.zero_le _⟩
  | some start =>
      dsimp only
      have hle := valueStart_le hstart
      generalize hindex : (if dat.getD start 0 = quote then start + 1 else start) = index
      have hindex_le : index ≤ dat.length := by
        rw [← hindex]
        split
        · rename_i hq
          by_contra hgt
          rw [List.getD_eq_getElem?_getD, List.getElem?_eq_none (by omega)] at hq
          exact absurd hq (by decide)
        · exact hle
      have hi := advance_le (p := (· ≠ quote)) hindex_le
      have hi' := le_advance (· ≠ quote) dat index
      have hend := advance_le (p := (· ≠ semicolon)) hi
      refine ⟨⟨.inr ⟨Int.natCast_nonneg _, Int.ofNat_le.2 hend⟩, rfl, ?_, fun _ _ => rfl⟩, ?_⟩
      · simp only [List.length_take, List.length_drop]
        omega
      · simp only [List.length_take]
        omega

theorem getValueInt_inside (dat : List UInt8) :
    (getValueInt dat).Inside dat ∧ (getValueInt dat).bytes.length = numberLen dat := by
  rw [getValueInt, numberLen]
  cases hstart : valueStart dat with
  | none => exact ⟨inside_none dat, rfl⟩
  | some index =>
      dsimp only
      have hle := valueStart_le hstart
      have hi := advance_le (p := (· ≠ semicolon)) hle
      have hi' := le_advance (· ≠ semicolon) dat index
      generalize advance (· ≠ semicolon) dat index = i at hi hi' ⊢
      have hnumber : (((dat.drop index).take (i - index)).map fun c =>
          if isBlank c then 0 else c).length = i - index := by
        rw [List.length_map, List.length_take, List.length_drop]
        omega
      generalize ((dat.drop index).take (i - index)).map (fun c =>
          if isBlank c then (0 : UInt8) else c) = number at hnumber ⊢
      have hfront : (dat.take index ++ number).length = i := by
        rw [List.length_append, List.length_take, hnumber]
        omega
      refine ⟨⟨.inr ⟨Int.natCast_nonneg _, Int.ofNat_le.2 hi⟩, ?_, ?_, fun k hk => ?_⟩, hnumber⟩
      · rw [List.length_append, hfront, List.length_drop]
        omega
      · simp only [hnumber]
        omega
      · have hk' : i ≤ k := Int.ofNat_le.1 hk
        rw [getD_append_right (by omega), hfront, getD_drop, Nat.add_sub_cancel' hk']

theorem Key.value_inside (k : Key) (dat : List UInt8) : (k.value dat).Inside dat := by
  rw [Key.value]
  split
  · exact (getValueInt_inside dat).1
  · exact (getValueStr_inside dat k.cap).1

/-- What is copied fits, unless it is a long number. -/
theorem Key.value_fits (k : Key) (dat : List UInt8) :
    (k.value dat).bytes.length ≤ k.cap ↔ (k.IsInt → numberLen dat ≤ 32) := by
  rw [Key.value]
  split
  · rename_i hint
    have hcap : k.cap = 32 := by
      obtain rfl | rfl | rfl := hint <;> rfl
    rw [(getValueInt_inside dat).2, hcap]
    exact ⟨fun h _ => h, fun h => h hint⟩
  · rename_i hnot
    exact ⟨fun _ h => absurd h hnot, fun _ => (getValueStr_inside dat k.cap).2⟩

/-! ## A round -/

variable {s : DesState}

/-- The loop is inside the line, and the rest of the line is a string. -/
structure DesState.Sane (s : DesState) : Prop where
  nonneg : 0 ≤ s.i
  le : s.i ≤ s.dat.length
  nonzero : ∀ k : Nat, s.i ≤ k → k < s.dat.length → s.dat.getD k 0 ≠ 0

/-- A keyword that is found behind the comparisons for the braces. -/
def DesState.key (s : DesState) : Option Key :=
  if s.At (ascii "updatepacket") ∨ s.At (ascii "\x7b") ∨ s.At (ascii "\x7d") then none
  else Key.all.find? fun k => s.At k.text

/-- Behind a keyword. -/
def DesState.behind (s : DesState) (k : Key) : DesState := { s with i := s.i + k.text.length }

/-- A round that begins, behind its blanks, at no quotation mark, and whose value is no
number of more than 32 bytes. -/
structure DesState.Plain (s : DesState) : Prop where
  unquoted : s.skipBlanks.i < s.dat.length → s.dat.getD s.skipBlanks.i.toNat 0 ≠ quote
  short : ∀ k, s.skipBlanks.i < s.dat.length → s.skipBlanks.key = some k → s.packetflg = 2 →
    k.IsInt → numberLen (s.skipBlanks.behind k).string ≤ 32

theorem skipBlanks_sane (hs : s.Sane) : s.skipBlanks.Sane ∧ s.i ≤ s.skipBlanks.i := by
  have hle := hs.le
  have hnonneg := hs.nonneg
  have hfrom := le_advance isBlank s.dat s.i.toNat
  have hto := advance_le (p := isBlank) (show s.i.toNat ≤ s.dat.length by omega)
  have hi : s.skipBlanks.i = advance isBlank s.dat s.i.toNat := rfl
  refine ⟨⟨by omega, ?_, fun k hk hlt => hs.nonzero k (by omega) hlt⟩, by omega⟩
  show s.skipBlanks.i ≤ s.dat.length
  omega

/-- The rest of the line is what `&dat[i]` is as a string. -/
theorem string_eq (hs : s.Sane) : s.string = s.dat.drop s.i.toNat := by
  have hnonneg := hs.nonneg
  rw [DesState.string, List.takeWhile_eq_self_iff]
  intro c hc
  obtain ⟨k, hk, rfl⟩ := List.mem_iff_getElem.1 hc
  rw [List.length_drop] at hk
  have hnz := hs.nonzero (s.i.toNat + k) (by omega) (by omega)
  rw [List.getD_eq_getElem?_getD, List.getElem?_eq_getElem (by omega)] at hnz
  rw [List.getElem_drop]
  simpa using hnz

theorem at_le {text : List UInt8} (hs : s.Sane) (h : s.At text) :
    s.i + text.length ≤ s.dat.length := by
  have hle := List.IsPrefix.length_le h
  have hnonneg := hs.nonneg
  rw [List.length_drop] at hle
  have := hs.le
  omega

/-- A keyword has been passed. -/
theorem Sane.pass {n : Nat} {packetflg : Int} {packet : DesPacket} {processed : List DesPacket}
    (hs : s.Sane) (h : s.i + n ≤ s.dat.length) :
    DesState.Sane ⟨s.dat, s.i + n, packetflg, packet, processed⟩ := by
  have hnonneg := hs.nonneg
  exact ⟨by show 0 ≤ s.i + n; omega, h, fun k hk hlt => hs.nonzero k (by
    have : s.i + n ≤ k := hk
    omega) hlt⟩

theorem Key.text_length (k : Key) : 3 ≤ k.text.length := by
  cases k <;> decide

theorem key_at {k : Key} (h : s.key = some k) : s.At k.text := by
  rw [DesState.key] at h
  split at h
  · cases h
  · simpa using List.find?_some h

/-- A keyword with its value, from the keyword on. -/
theorem takeValue_sane {k : Key} (hs : s.Sane) (hat : s.At k.text) :
    (takeValue k (s.behind k)).1.Sane ∧ s.i < (takeValue k (s.behind k)).1.i ∧
      (takeValue k (s.behind k)).1.dat.length = s.dat.length := by
  have hthree := k.text_length
  have hnonneg := hs.nonneg
  have hbehind : (s.behind k).Sane := Sane.pass hs (at_le hs hat)
  have hi : (s.behind k).i = s.i + k.text.length := rfl
  have hdat : (s.behind k).dat = s.dat := rfl
  have hle := hbehind.le
  have hstring := string_eq hbehind
  have hlen : (s.behind k).string.length = s.dat.length - (s.behind k).i.toNat := by
    rw [hstring, hdat, List.length_drop]
  rw [takeValue]
  split
  · have hin := k.value_inside (s.behind k).string
    generalize k.value (s.behind k).string = v at hin ⊢
    have htail : (s.behind k).dat.drop ((s.behind k).i.toNat + (s.behind k).string.length) = [] := by
      rw [hlen, hdat]
      exact List.drop_eq_nil_of_le (by omega)
    have hfront : ((s.behind k).dat.take (s.behind k).i.toNat).length = (s.behind k).i.toNat := by
      rw [List.length_take, hdat]
      rw [hdat] at hle
      omega
    have hlength : ((s.behind k).dat.take (s.behind k).i.toNat ++ v.dat ++
        (s.behind k).dat.drop ((s.behind k).i.toNat + (s.behind k).string.length)).length =
        s.dat.length := by
      rw [htail, List.append_nil, List.length_append, hfront, hin.length, hlen]
      rw [hdat] at hle
      omega
    dsimp only
    rw [htail, List.append_nil] at hlength ⊢
    have hgetD : ∀ j : Nat, (s.behind k).i + v.ret ≤ j → s.i ≤ j →
        ((s.behind k).dat.take (s.behind k).i.toNat ++ v.dat).getD j 0 = s.dat.getD j 0 := by
      intro j hj hsj
      obtain ⟨hret, hsame⟩ | ⟨hret, hret'⟩ := hin.ret
      · rw [hsame, hstring, hdat, List.take_append_drop]
      · have hge : (s.behind k).i.toNat ≤ j := by omega
        rw [getD_append_right (by omega), hfront, hin.behind _ (by omega), hstring, getD_drop,
          Nat.add_sub_cancel' hge, hdat]
    have hret : -1 ≤ v.ret ∧ v.ret ≤ (s.behind k).string.length := by
      obtain ⟨hret, -⟩ | ⟨hret, hret'⟩ := hin.ret <;> omega
    rw [hdat] at hle
    refine ⟨⟨?_, ?_, fun j hj hlt => ?_⟩, ?_, hlength⟩
    · show 0 ≤ (s.behind k).i + v.ret
      omega
    · show (s.behind k).i + v.ret ≤ (_ : Nat)
      rw [hlength]
      omega
    · have hj' : (s.behind k).i + v.ret ≤ j := hj
      have hlt' : j < s.dat.length := hlength ▸ hlt
      show (_ : List UInt8).getD j 0 ≠ 0
      rw [hgetD j hj' (by omega)]
      exact hs.nonzero j (by omega) hlt'
    · show s.i < (s.behind k).i + v.ret
      omega
  · refine ⟨hbehind, ?_, rfl⟩
    show s.i < (s.behind k).i
    omega

/-- What the branches do, sorted by whether there is a keyword with a value. -/
theorem desBranch_cases (hs : s.Sane) (hlt : s.i < s.dat.length) :
    (∃ k, s.key = some k ∧ desBranch s = takeValue k (s.behind k)) ∨
      s.key = none ∧ (desBranch s).2 = [] ∧ (desBranch s).1.Sane ∧
        (desBranch s).1.dat = s.dat ∧
        (s.i < (desBranch s).1.i ∨ desBranch s =
          ({ s with i := advance (fun c => c ≠ space && c ≠ quote) s.dat s.i.toNat }, [])) := by
  have hpass : ∀ {text : List UInt8}, s.At text → s.i + text.length ≤ s.dat.length :=
    fun h => at_le hs h
  rw [desBranch, DesState.key]
  by_cases hflg : s.At (ascii "updatepacket")
  · rw [if_pos hflg, if_pos (.inl hflg)]
    have hle : s.i + (12 : Nat) ≤ s.dat.length := hpass hflg
    refine .inr ⟨rfl, rfl, Sane.pass hs hle, rfl, .inl ?_⟩
    show s.i < s.i + 12
    omega
  by_cases hopen : s.At (ascii "\x7b")
  · rw [if_neg hflg, if_pos hopen, if_pos (.inr (.inl hopen))]
    have hle : s.i + (1 : Nat) ≤ s.dat.length := hpass hopen
    refine .inr ⟨rfl, rfl, Sane.pass hs hle, rfl, .inl ?_⟩
    show s.i < s.i + 1
    omega
  by_cases hclose : s.At (ascii "\x7d")
  · rw [if_neg hflg, if_neg hopen, if_pos hclose, if_pos (.inr (.inr hclose))]
    have hle : s.i + (1 : Nat) ≤ s.dat.length := hpass hclose
    refine .inr ⟨rfl, rfl, Sane.pass hs hle, rfl, .inl ?_⟩
    show s.i < s.i + 1
    omega
  rw [if_neg hflg, if_neg hopen, if_neg hclose, if_neg (by
    rintro (h | h | h)
    · exact hflg h
    · exact hopen h
    · exact hclose h)]
  cases hkey : Key.all.find? fun k => decide (s.At k.text) with
  | some k => exact .inl ⟨k, rfl, rfl⟩
  | none =>
      have hnonneg := hs.nonneg
      have hfrom := le_advance (fun c => c ≠ space && c ≠ quote) s.dat s.i.toNat
      have hto := advance_le (p := fun c => c ≠ space && c ≠ quote)
        (show s.i.toNat ≤ s.dat.length by omega)
      refine .inr ⟨rfl, rfl, ⟨Int.natCast_nonneg _, Int.ofNat_le.2 hto, fun j hj hj' => ?_⟩, rfl,
        .inr rfl⟩
      have hj'' : advance (fun c => c ≠ space && c ≠ quote) s.dat s.i.toNat ≤ j :=
        Int.ofNat_le.1 hj
      exact hs.nonzero j (by omega) hj'

/-- At a quotation mark there is no keyword. -/
theorem not_at_of_quote {text : List UInt8} (hs : s.Sane) (hlt : s.i < s.dat.length)
    (hq : s.dat.getD s.i.toNat 0 = quote) (htext : text.head? ≠ some quote) (hne : text ≠ []) :
    ¬s.At text := by
  have hnonneg := hs.nonneg
  intro h
  rw [DesState.At, drop_eq_cons (by omega), hq] at h
  obtain ⟨c, rest, rfl⟩ := List.exists_cons_of_ne_nil hne
  exact htext (congrArg some (List.cons_prefix_cons.1 h).1)

theorem Key.text_head (k : Key) : k.text.head? ≠ some quote ∧ k.text ≠ [] := by
  cases k <;> decide

/-- There the loop stays for ever. -/
theorem desBranch_quote (hs : s.Sane) (hlt : s.i < s.dat.length)
    (hq : s.dat.getD s.i.toNat 0 = quote) : desBranch s = (s, []) := by
  have hnonneg := hs.nonneg
  have hnot : ∀ {text : List UInt8}, text.head? ≠ some quote → text ≠ [] → ¬s.At text :=
    fun hhead hne => not_at_of_quote hs hlt hq hhead hne
  have hkey : (Key.all.find? fun k => decide (s.At k.text)) = none := by
    rw [List.find?_eq_none]
    intro k _
    simpa using hnot k.text_head.1 k.text_head.2
  rw [desBranch, if_neg (hnot (by decide) (by decide)), if_neg (hnot (by decide) (by decide)),
    if_neg (hnot (by decide) (by decide)), hkey]
  dsimp only
  rw [advance_of_not (by rw [hq]; rfl) (by omega), Int.toNat_of_nonneg hnonneg]

/-- What a round of the loop does to where it is. -/
theorem desStep_sane (hs : s.Sane) : (desStep s).1.Sane ∧
    (desStep s).1.dat.length = s.dat.length ∧ s.i ≤ (desStep s).1.i ∧
      (¬s.Done → s.Plain → s.i < (desStep s).1.i) := by
  obtain ⟨hskip, hle⟩ := skipBlanks_sane hs
  rw [desStep]
  by_cases hdone : s.Done
  · rw [if_pos hdone]
    exact ⟨hs, rfl, Int.le_refl _, fun h => absurd hdone h⟩
  rw [if_neg hdone]
  by_cases hskipped : s.skipBlanks.Done
  · rw [if_pos hskipped]
    refine ⟨hskip, rfl, hle, fun _ _ => ?_⟩
    have hend : (s.dat.length : Int) ≤ s.skipBlanks.i := hskipped
    have hbefore : ¬(s.dat.length : Int) ≤ s.i := hdone
    show s.i < s.skipBlanks.i
    omega
  rw [if_neg hskipped]
  have hlt : s.skipBlanks.i < s.dat.length := Int.not_le.1 hskipped
  obtain ⟨k, hkey, hbranch⟩ | ⟨-, -, hsane, hdat, hgoes⟩ := desBranch_cases hskip hlt
  · obtain ⟨hsane, hfar, hlength⟩ := takeValue_sane hskip (key_at hkey)
    rw [hbranch]
    exact ⟨hsane, hlength, by omega, fun _ _ => by omega⟩
  · refine ⟨hsane, by rw [hdat]; rfl, ?_, fun _ hplain => ?_⟩
    · obtain hfar | hfallback := hgoes
      · omega
      · rw [hfallback]
        have hfrom := le_advance (fun c => c ≠ space && c ≠ quote) s.dat s.skipBlanks.i.toNat
        have hnonneg := hskip.nonneg
        show s.i ≤ (advance _ s.dat s.skipBlanks.i.toNat : Nat)
        omega
    · obtain hfar | hfallback := hgoes
      · omega
      · rw [hfallback]
        have hnonneg := hskip.nonneg
        have hstop : isBlank (s.dat.getD s.skipBlanks.i.toNat 0) = false :=
          advance_stop (show advance isBlank s.dat s.i.toNat < s.dat.length from Int.ofNat_lt.1 hlt)
        have hunquoted := hplain.unquoted hlt
        rw [isBlank, decide_eq_false_iff_not] at hstop
        have hgo : (decide (s.dat.getD s.skipBlanks.i.toNat 0 ≠ space) &&
            decide (s.dat.getD s.skipBlanks.i.toNat 0 ≠ quote)) = true := by
          rw [Bool.and_eq_true, decide_eq_true_iff, decide_eq_true_iff]
          exact ⟨hstop, hunquoted⟩
        have hfar := lt_advance (p := fun c => c ≠ space && c ≠ quote) hgo
          (show s.skipBlanks.i.toNat < s.dat.length by omega)
        show s.i < (advance _ s.dat s.skipBlanks.i.toNat : Nat)
        omega

/-! ## What is copied -/

/-- A keyword whose value is to be copied. -/
def DesState.Takes (s : DesState) (k : Key) : Prop :=
  s.skipBlanks.i < s.dat.length ∧ s.skipBlanks.key = some k ∧ s.packetflg = 2

/-- What the call behind a keyword copies. -/
def DesState.call (s : DesState) (k : Key) : ValueCall :=
  let v := k.value (s.behind k).string
  ⟨k.cap, v.bytes.length, v.index, (s.behind k).string.length⟩

theorem desStep_of_lt (hs : s.Sane) (hlt : s.skipBlanks.i < s.dat.length) :
    desStep s = desBranch s.skipBlanks := by
  have hle := (skipBlanks_sane hs).2
  have hnot : ¬s.Done := by
    intro hdone
    have hend : (s.dat.length : Int) ≤ s.i := hdone
    omega
  have hnot' : ¬s.skipBlanks.Done := Int.not_le.2 hlt
  rw [desStep, if_neg hnot, if_neg hnot']

theorem desStep_calls_of_takes (hs : s.Sane) {k : Key} (h : s.Takes k) :
    (desStep s).2 = [s.skipBlanks.call k] := by
  obtain ⟨hskip, -⟩ := skipBlanks_sane hs
  obtain ⟨hlt, hkey, hflg⟩ := h
  rw [desStep_of_lt hs hlt]
  obtain ⟨k', hkey', hbranch⟩ | ⟨hnone, -⟩ := desBranch_cases hskip hlt
  · rw [hkey] at hkey'
    cases hkey'
    have hflg' : (s.skipBlanks.behind k).packetflg = 2 := hflg
    rw [hbranch, takeValue, if_pos hflg']
    rfl
  · rw [hkey] at hnone
    cases hnone

/-- There is no other call. -/
theorem takes_of_mem_calls (hs : s.Sane) {c : ValueCall} (hc : c ∈ (desStep s).2) :
    ∃ k, s.Takes k ∧ c = s.skipBlanks.call k := by
  obtain ⟨hskip, -⟩ := skipBlanks_sane hs
  have hcalls := hc
  rw [desStep] at hc
  split at hc
  · cases hc
  split at hc
  · cases hc
  rename_i _ hskipped
  have hlt : s.skipBlanks.i < s.dat.length := Int.not_le.1 hskipped
  obtain ⟨k, hkey, hbranch⟩ | ⟨-, hnil, -⟩ := desBranch_cases hskip hlt
  · rw [hbranch, takeValue] at hc
    split at hc
    · rename_i hflg
      have htakes : s.Takes k := ⟨hlt, hkey, hflg⟩
      rw [desStep_calls_of_takes hs htakes] at hcalls
      exact ⟨k, htakes, List.mem_singleton.1 hcalls⟩
    · cases hc
  · rw [hnil] at hc
    cases hc

theorem call_source (s : DesState) (k : Key) :
    (s.call k).source + (s.call k).written ≤ (s.call k).len :=
  (k.value_inside (s.behind k).string).copied

theorem call_fits (s : DesState) (k : Key) :
    (s.call k).written ≤ (s.call k).cap ↔ (k.IsInt → numberLen (s.behind k).string ≤ 32) :=
  k.value_fits (s.behind k).string

/-- At a quotation mark a round leads to itself. -/
theorem desStep_quote (hs : s.Sane) (hlt : s.skipBlanks.i < s.dat.length)
    (hq : s.dat.getD s.skipBlanks.i.toNat 0 = quote) : (desStep s).1 = s.skipBlanks := by
  rw [desStep_of_lt hs hlt, desBranch_quote (skipBlanks_sane hs).1 hlt hq]

theorem skipBlanks_of_quote (hs : s.Sane) (hlt : s.i < s.dat.length)
    (hq : s.dat.getD s.i.toNat 0 = quote) : s.skipBlanks = s := by
  have hnonneg := hs.nonneg
  rw [DesState.skipBlanks, advance_of_not (by rw [hq]; rfl) (by omega),
    Int.toNat_of_nonneg hnonneg]

/-! ## Runs -/

variable {l : DesLine} {packetflg : Int} {packet : DesPacket} {processed : List DesPacket}
variable {s₀ : DesState}

theorem desRun_succ (s₀ : DesState) (n : Nat) :
    desRun s₀ (n + 1) = (desStep (desRun s₀ n)).1 :=
  Function.iterate_succ_apply' _ _ _

theorem start_sane (h : l.start packetflg packet processed = some s₀) : s₀.Sane := by
  rw [DesLine.start] at h
  split at h
  · cases h
  split at h
  · cases h
  cases h
  have hle := advance_le (p := isBlank) (Nat.zero_le l.chars.length)
  refine ⟨Int.natCast_nonneg _, Int.ofNat_le.2 hle, fun k _ hlt => ?_⟩
  show l.chars.getD k 0 ≠ 0
  rw [List.getD_eq_getElem?_getD, List.getElem?_eq_getElem hlt]
  exact l.nonzero _ (List.getElem_mem hlt)

theorem desRun_sane (h : s₀.Sane) (n : Nat) : (desRun s₀ n).Sane := by
  induction n with
  | zero => exact h
  | succ n ih =>
      rw [desRun_succ]
      exact (desStep_sane ih).1

/-- What is asked of the scan of a line: it comes to an end, it is inside the line all the
time, and no value is copied past its buffer or from behind the line. -/
structure DesLaw (s₀ : DesState) : Prop where
  ends : ∃ n, (desRun s₀ n).Done
  inside : ∀ n, 0 ≤ (desRun s₀ n).i ∧ (desRun s₀ n).i ≤ (desRun s₀ n).dat.length
  copies : ∀ n, ∀ c ∈ (desStep (desRun s₀ n)).2,
    c.written ≤ c.cap ∧ c.source + c.written ≤ c.len

/-- Once at the end the loop stays there. -/
theorem done_mono {n m : Nat} (hnm : n ≤ m) (h : (desRun s₀ n).Done) : (desRun s₀ m).Done := by
  obtain ⟨k, rfl⟩ := Nat.exists_eq_add_of_le hnm
  have hfixed : (desStep (desRun s₀ n)).1 = desRun s₀ n := by rw [desStep, if_pos h]
  have hstays : desRun s₀ (n + k) = desRun s₀ n := Iterate.iterate_of_fixed hfixed k
  rwa [hstays]

/-- From a round that begins at a quotation mark the loop does not come to the end. -/
theorem unquoted_of_ends (hs : s₀.Sane) (hends : ∃ n, (desRun s₀ n).Done) {n : Nat}
    (hlt : (desRun s₀ n).skipBlanks.i < (desRun s₀ n).dat.length) :
    (desRun s₀ n).dat.getD (desRun s₀ n).skipBlanks.i.toNat 0 ≠ quote := by
  intro hq
  have hsane := desRun_sane hs n
  have hskip := (skipBlanks_sane hsane).1
  have hnext : desRun s₀ (n + 1) = (desRun s₀ n).skipBlanks := by
    rw [desRun_succ, desStep_quote hsane hlt hq]
  have hsame : (desRun s₀ n).skipBlanks.skipBlanks = (desRun s₀ n).skipBlanks :=
    skipBlanks_of_quote hskip hlt hq
  have hfixed : (desStep (desRun s₀ (n + 1))).1 = desRun s₀ (n + 1) := by
    rw [hnext, desStep_quote hskip (by rw [hsame]; exact hlt) (by rw [hsame]; exact hq), hsame]
  obtain ⟨m, hm⟩ := hends
  have hstays : desRun s₀ (n + 1 + m) = desRun s₀ (n + 1) := Iterate.iterate_of_fixed hfixed m
  have hdone : (desRun s₀ (n + 1 + m)).Done := done_mono (by omega) hm
  rw [hstays, hnext] at hdone
  have hend : ((desRun s₀ n).dat.length : Int) ≤ (desRun s₀ n).skipBlanks.i := hdone
  omega

theorem ends_of_plain (hs : s₀.Sane)
    (hplain : ∀ n, ¬(desRun s₀ n).Done → (desRun s₀ n).Plain) : ∃ n, (desRun s₀ n).Done := by
  refine Iterate.stops_of_less (fun s => s.dat.length - s.i.toNat) fun n hnot => ?_
  have hsane := desRun_sane hs n
  obtain ⟨-, hlength, -, hfar⟩ := desStep_sane hsane
  have hnext := hfar hnot (hplain n hnot)
  have hlt : (desRun s₀ n).i < (desRun s₀ n).dat.length := Int.not_le.1 hnot
  have hnonneg := hsane.nonneg
  have hsucc : (fun s => (desStep s).1)^[n + 1] s₀ = (desStep (desRun s₀ n)).1 := desRun_succ s₀ n
  show (DesState.dat _).length - _ < (desRun s₀ n).dat.length - (desRun s₀ n).i.toNat
  rw [hsucc, hlength]
  omega

/-- A line is scanned to its end, and in bounds, if and only if no round begins at a
quotation mark and no number is longer than 32 bytes. -/
theorem desLaw_iff (h : l.start packetflg packet processed = some s₀) :
    DesLaw s₀ ↔ ∀ n, ¬(desRun s₀ n).Done → (desRun s₀ n).Plain := by
  have hs := start_sane h
  constructor
  · intro hlaw n _
    refine ⟨unquoted_of_ends hs hlaw.ends, fun k hlt hkey hflg => ?_⟩
    have hcalls := desStep_calls_of_takes (desRun_sane hs n) ⟨hlt, hkey, hflg⟩
    have hcopied := hlaw.copies n ((desRun s₀ n).skipBlanks.call k) (by
      rw [hcalls]
      exact List.mem_singleton_self _)
    exact (call_fits _ k).1 hcopied.1
  · intro hplain
    refine ⟨ends_of_plain hs hplain, fun n => ?_, fun n c hc => ?_⟩
    · exact ⟨(desRun_sane hs n).nonneg, (desRun_sane hs n).le⟩
    · obtain ⟨k, htakes, rfl⟩ := takes_of_mem_calls (desRun_sane hs n) hc
      have hnot : ¬(desRun s₀ n).Done := fun hdone => by
        rw [desStep, if_pos hdone] at hc
        cases hc
      have hshort := (hplain n hnot).short k htakes.1 htakes.2.1 htakes.2.2
      exact ⟨(call_fits _ k).2 hshort, call_source _ k⟩

/-- The line `name "a"`. -/
def quotedLine : DesLine :=
  ⟨[110, 97, 109, 101, 32, 34, 97, 34], by decide, by decide +kernel⟩

theorem quotedLine_start :
    quotedLine.start 0 .cleared [] = some ⟨quotedLine.chars, 0, 0, .cleared, []⟩ := by
  rfl

theorem desLaw_iff_quotedLine : DesLaw ⟨quotedLine.chars, 0, 0, .cleared, []⟩ ↔
    ∀ n, ¬(desRun ⟨quotedLine.chars, 0, 0, .cleared, []⟩ n).Done →
      (desRun ⟨quotedLine.chars, 0, 0, .cleared, []⟩ n).Plain :=
  desLaw_iff quotedLine_start

/-- The scan of `name "a"` does not come to an end. -/
theorem not_desLaw : ¬∀ (l : DesLine) (packetflg : Int) (packet : DesPacket)
    (processed : List DesPacket) (s₀ : DesState),
    l.start packetflg packet processed = some s₀ → DesLaw s₀ := by
  intro hlaw
  have hends := (hlaw quotedLine 0 .cleared [] _ quotedLine_start).ends
  have hs := start_sane quotedLine_start
  refine unquoted_of_ends hs hends (n := 1) ?_ ?_
  · decide +kernel
  · decide +kernel

end Nvr.Update.Describe
