import Nvr.Lib.Run
import Nvr.Proofs.Segmentation

/-!
# What the header of a text says

`rtsp_full_msg_parse` goes over a buffer by places in it. In a buffer that has a
zero behind the message it does what `readHeader` does with the text of the
message alone: it reads where the header ends and which length is in it, and the
rest is a comparison of the two with the length of the message.
-/

namespace Nvr.Rtsp

/-! ## The passes of the loop -/

/-- A pass of the loop over the lines: it returns, or goes on with another `ml`,
`mb` and `bl`. -/
def fullMsgPass (szBuffRecv : List UInt8) (nMsgSize : Nat) (s : Nat × Bool × Int) :
    FullMsg ⊕ Nat × Bool × Int :=
  let (ml, mb, bl) := s
  if nMsgSize < ml then .inl (methodRcvd szBuffRecv nMsgSize ml bl)
  else
    let control := ((szBuffRecv.drop ml).takeWhile inLine).length
    if control = 0 then .inl .error
    else
      let ml := ml + control
      if nMsgSize ≤ ml then .inl .notFull
      else
        let (tc, ws) := terminators 0 0 ((szBuffRecv.take nMsgSize).drop ml)
        let eomh := 2 < tc ∨ tc = 2 ∧ szBuffRecv.getD ml 0 = szBuffRecv.getD (ml + 1) 0
        let ml := ml + tc + ws
        if eomh then
          let ml := ((ml + bl) % 2 ^ 32).toNat
          if ml ≤ nMsgSize then .inl (methodRcvd szBuffRecv nMsgSize ml bl) else .inl .notFull
        else if nMsgSize ≤ ml then .inl .notFull
        else if mb = false ∧ sameCaseless (szBuffRecv.drop ml) hdrContentLength then
          let ml := ml + hdrContentLength.length
          let skip := ((szBuffRecv.take nMsgSize).drop ml).takeWhile fun c => c == 58 || c == 32
          let ml := ml + skip.length
          match sscanfInt (szBuffRecv.drop ml) with
          | none => .inl .error
          | some bl => .inr (ml, true, bl)
        else .inr (ml, mb, bl)

theorem fullMsgLines_succ (szBuffRecv : List UInt8) (nMsgSize fuel ml : Nat) (mb : Bool)
    (bl : Int) :
    fullMsgLines szBuffRecv nMsgSize (fuel + 1) ml mb bl =
      match fullMsgPass szBuffRecv nMsgSize (ml, mb, bl) with
      | .inl r => r
      | .inr (ml, mb, bl) => fullMsgLines szBuffRecv nMsgSize fuel ml mb bl := by
  rw [fullMsgLines]
  unfold fullMsgPass
  dsimp only
  split
  · rfl
  · split
    · rfl
    · split
      · rfl
      · split
        · split <;> rfl
        · split
          · rfl
          · split
            · split
              next hscan => simp only [hscan]
              next hscan => simp only [hscan]
            · rfl

/-- A pass that does not return begins inside the message and goes on behind its place. -/
theorem fullMsgPass_lt {szBuffRecv : List UInt8} {nMsgSize : Nat} {s t : Nat × Bool × Int}
    (h : fullMsgPass szBuffRecv nMsgSize s = .inr t) : s.1 ≤ nMsgSize ∧ s.1 < t.1 := by
  obtain ⟨ml, mb, bl⟩ := s
  unfold fullMsgPass at h
  dsimp only at h ⊢
  split at h
  · cases h
  next hin =>
    refine ⟨by omega, ?_⟩
    split at h
    · cases h
    · split at h
      · cases h
      · split at h
        · split at h <;> cases h
        · split at h
          · cases h
          · split at h
            · split at h
              · cases h
              · obtain rfl := Sum.inr.inj h
                dsimp only
                omega
            · obtain rfl := Sum.inr.inj h
              dsimp only
              omega

/-- However many passes there are one after the other, there is no more than one
for each byte of the message and one behind it. -/
theorem passes_le {szBuffRecv : List UInt8} {nMsgSize : Nat} {s t : Nat × Bool × Int}
    {n : List Unit} (h : Run (fun s _ t => fullMsgPass szBuffRecv nMsgSize s = .inr t) s n t) :
    s.1 + n.length ≤ t.1 ∧ (n ≠ [] → s.1 + n.length ≤ nMsgSize + 1) := by
  induction h with
  | nil => exact ⟨Nat.le_refl _, fun h => absurd rfl h⟩
  | snoc _ hpass ih =>
      have hlt := fullMsgPass_lt hpass
      rw [List.length_append, List.length_singleton]
      exact ⟨by omega, fun _ => by omega⟩

/-! ## Reading a text -/

/-- What is read of a header: that it cannot be, that its end is not there, or how
long it is and the length it gives. -/
inductive HeaderText where
  | bad
  | short
  | ended (len : Nat) (bl : Int)
  deriving DecidableEq

/-- The same of a text with `n` more bytes in front. -/
def HeaderText.behind (n : Nat) : HeaderText → HeaderText
  | ended len bl => ended (n + len) bl
  | h => h

/-- The header of a text, a line at a time: a line, the line ends and blanks
behind it, and, if they do not end the header, what is behind these. `read` is
the number of the first line that began with `Content-Length`. -/
def readHeader (s : List UInt8) (read : Option Int) : HeaderText :=
  let line := s.takeWhile inLine
  let rest := s.drop line.length
  let (tc, ws) := terminators 0 0 rest
  let next := rest.drop (tc + ws)
  if _hline : line = [] then .bad
  else if rest = [] then .short
  else if 2 < tc ∨ tc = 2 ∧ rest.getD 0 0 = rest.getD 1 0 then
    .ended (line.length + tc + ws) (read.getD 0)
  else if next = [] then .short
  else if read = none ∧ sameCaseless next hdrContentLength then
    let number := (next.drop hdrContentLength.length).dropWhile isSep
    match sscanfInt number with
    | none => .bad
    | some bl => (readHeader number (some bl)).behind (s.length - number.length)
  else (readHeader next read).behind (s.length - next.length)
termination_by s.length
decreasing_by
  all_goals
    have hpos : 0 < line.length := List.length_pos_of_ne_nil ‹¬line = []›
    have hle : line.length ≤ s.length := (List.takeWhile_prefix inLine).length_le
    have hnext : next.length < s.length := by
      show (rest.drop (tc + ws)).length < s.length
      rw [List.length_drop]
      show (s.drop line.length).length - _ < s.length
      rw [List.length_drop]
      omega
  · refine Nat.lt_of_le_of_lt (List.dropWhile_suffix isSep).length_le ?_
    rw [List.length_drop]
    exact Nat.lt_of_le_of_lt (Nat.sub_le _ _) hnext
  · exact hnext

/-! ## The loop reads the text -/

/-- What the parser makes of what is read of a message. -/
def HeaderText.found (msg : List UInt8) : HeaderText → FullMsg
  | bad => .error
  | short => .notFull
  | ended len bl =>
      if 0 ≤ len + bl ∧ len + bl ≤ msg.length then
        .methodRcvd len (bl + ((msg.drop (len + bl).toNat).takeWhile (· = 0)).length)
      else .notFull

@[simp] theorem HeaderText.behind_zero (h : HeaderText) : h.behind 0 = h := by
  cases h <;> simp [behind]

@[simp] theorem HeaderText.behind_behind (m n : Nat) (h : HeaderText) :
    (h.behind n).behind m = h.behind (m + n) := by
  cases h <;> simp [behind, Nat.add_assoc]

theorem dropWhile_eq_drop (p : UInt8 → Bool) (s : List UInt8) :
    s.dropWhile p = s.drop (s.takeWhile p).length := by
  have hdrop : (s.takeWhile p ++ s.dropWhile p).drop (s.takeWhile p).length = s.dropWhile p :=
    List.drop_left
  rw [List.takeWhile_append_dropWhile] at hdrop
  exact hdrop.symm

theorem le_of_sameCaseless {s : List UInt8} (h : sameCaseless s hdrContentLength) :
    hdrContentLength.length ≤ s.length := by
  have heq := congrArg List.length (beq_iff_eq.1 h)
  rw [List.length_map, List.length_map, List.length_take] at heq
  omega

/-- No number goes on behind a byte that is no digit, space or sign. -/
theorem sscanfInt_stop {c : UInt8} (hspace : ¬ isSpace c) (hdigit : ¬ isDigit c) (hminus : c ≠ 45)
    (hplus : c ≠ 43) (s t : List UInt8) : sscanfInt (s ++ c :: t) = sscanfInt s := by
  unfold sscanfInt
  dsimp only
  rw [List.dropWhile_append]
  cases hs : s.dropWhile isSpace with
  | nil =>
      rw [if_pos List.isEmpty_nil, List.dropWhile_cons_of_neg hspace]
      dsimp only
      rw [if_neg hminus, if_neg hplus, List.takeWhile_cons_of_neg hdigit, if_pos rfl]
  | cons d u =>
      rw [if_neg (by simp)]
      have hcut := takeWhile_append_stop (b := c) hdigit
      dsimp only [List.cons_append]
      rw [hcut, ← List.cons_append, hcut]

theorem terminators_le (tc ws : Nat) (s : List UInt8) :
    (terminators tc ws s).1 + (terminators tc ws s).2 ≤ tc + ws + s.length := by
  induction s generalizing tc ws with
  | nil => exact Nat.le_refl _
  | cons c s ih =>
      rw [terminators, List.length_cons]
      split
      · have := ih (tc + 1) ws
        omega
      · split
        · have := ih tc (ws + 1)
          omega
        · exact Nat.le_add_right _ _

section Text

variable {msg behind : List UInt8}

theorem getD_append_zero (i : Nat) (hi : i ≤ msg.length) :
    (msg ++ 0 :: behind).getD i 0 = msg.getD i 0 := by
  obtain hlt | rfl := Nat.lt_or_eq_of_le hi
  · rw [List.getD_eq_getElem?_getD, List.getD_eq_getElem?_getD, List.getElem?_append_left hlt]
  · simp

theorem drop_eq_nil_iff (i : Nat) : msg.length ≤ i ↔ msg.drop i = [] :=
  List.drop_eq_nil_iff.symm

/-- The end of a message, where it is compared with the bytes there are. -/
theorem found_ended {ml : Nat} {bl : Int} (hml : ml ≤ msg.length) (hsize : msg.length < 2 ^ 31)
    (hlow : -2 ^ 31 ≤ bl) (hhigh : bl < 2 ^ 31) :
    (let ml' := ((ml + bl) % 2 ^ 32).toNat
      if ml' ≤ msg.length then methodRcvd (msg ++ 0 :: behind) msg.length ml' bl else .notFull) =
      (HeaderText.ended ml bl).found msg := by
  dsimp only [HeaderText.found]
  by_cases hneg : 0 ≤ ml + bl
  · have hmod : (ml + bl) % 2 ^ 32 = ml + bl := Int.emod_eq_of_lt hneg (by omega)
    rw [hmod]
    by_cases hin : ml + bl ≤ msg.length
    · rw [if_pos (by omega), if_pos ⟨hneg, hin⟩, methodRcvd, if_pos (by omega), List.take_left]
      have hlen : ((ml + bl).toNat : Int) - bl = ml := by omega
      rw [hlen, Int.bmod_eq_of_le (by omega) (by omega)]
    · rw [if_neg (by omega), if_neg fun h => hin h.2]
  · have hmod : (ml + bl) % 2 ^ 32 = ml + bl + 2 ^ 32 := by omega
    rw [hmod, if_neg (by omega), if_neg fun h => hneg h.1]

/-- In a buffer that goes on with a zero, the loop from `ml` on does what is read
of the text there. -/
theorem fullMsgLines_eq (hsize : msg.length < 2 ^ 31) {fuel ml : Nat} {mb : Bool} {bl : Int}
    (hml : ml ≤ msg.length) (hfuel : msg.length + 2 ≤ ml + fuel) (hmb : mb = false → bl = 0)
    (hlow : -2 ^ 31 ≤ bl) (hhigh : bl < 2 ^ 31) :
    fullMsgLines (msg ++ 0 :: behind) msg.length fuel ml mb bl =
      ((readHeader (msg.drop ml) (if mb then some bl else none)).behind ml).found msg := by
  induction fuel generalizing ml mb bl with
  | zero => omega
  | succ fuel ih =>
      have hdrop : ∀ i ≤ msg.length, (msg ++ 0 :: behind).drop i = msg.drop i ++ 0 :: behind :=
        fun i hi => List.drop_append_of_le_length hi
      have hlineStop : ((msg ++ 0 :: behind).drop ml).takeWhile inLine =
          (msg.drop ml).takeWhile inLine := by
        rw [hdrop ml hml, takeWhile_append_stop (by decide)]
      rw [fullMsgLines, if_neg (by omega), hlineStop, List.take_left, readHeader]
      generalize hline : (msg.drop ml).takeWhile inLine = line
      have hle : ml + line.length ≤ msg.length := by
        have := (List.takeWhile_prefix inLine (l := msg.drop ml)).length_le
        rw [hline, List.length_drop] at this
        omega
      dsimp only
      rw [List.drop_drop]
      by_cases hnil : line = []
      · rw [if_pos (by rw [hnil]; rfl), dif_pos hnil]
        rfl
      rw [if_neg (by simpa using hnil), dif_neg hnil]
      by_cases hrest : msg.drop (ml + line.length) = []
      · rw [if_pos ((drop_eq_nil_iff _).2 hrest), if_pos hrest]
        rfl
      rw [if_neg (fun h => hrest ((drop_eq_nil_iff _).1 h)), if_neg hrest]
      have hlt : ml + line.length < msg.length := by
        by_contra hge
        exact hrest ((drop_eq_nil_iff _).1 (by omega))
      have hends : ml + line.length + (terminators 0 0 (msg.drop (ml + line.length))).1 +
          (terminators 0 0 (msg.drop (ml + line.length))).2 ≤ msg.length := by
        have := terminators_le 0 0 (msg.drop (ml + line.length))
        rw [List.length_drop] at this
        omega
      generalize terminators 0 0 (msg.drop (ml + line.length)) = ends at hends ⊢
      obtain ⟨tc, ws⟩ := ends
      dsimp only at hends ⊢
      have hfirst : ∀ i ≤ 1, (msg.drop (ml + line.length)).getD i 0 =
          (msg ++ 0 :: behind).getD (ml + line.length + i) 0 := by
        intro i hi
        rw [getD_append_zero _ (by omega), List.getD_eq_getElem?_getD,
          List.getD_eq_getElem?_getD, List.getElem?_drop]
      have hzero := hfirst 0 (by omega)
      rw [Nat.add_zero] at hzero
      rw [hzero, hfirst 1 (by omega)]
      by_cases heomh : 2 < tc ∨ tc = 2 ∧ (msg ++ 0 :: behind).getD (ml + line.length) 0 =
          (msg ++ 0 :: behind).getD (ml + line.length + 1) 0
      · rw [if_pos heomh, if_pos heomh]
        have hread : (if mb then some bl else none).getD 0 = bl := by
          cases mb with
          | false => rw [hmb rfl]; rfl
          | true => rfl
        have hplace : ml + (line.length + tc + ws) = ml + line.length + tc + ws := by omega
        rw [hread, HeaderText.behind, hplace]
        exact found_ended hends hsize hlow hhigh
      rw [if_neg heomh, if_neg heomh, List.drop_drop, ← Nat.add_assoc]
      generalize hml' : ml + line.length + tc + ws = ml' at hends ⊢
      by_cases hnext : msg.drop ml' = []
      · rw [if_pos ((drop_eq_nil_iff _).2 hnext), if_pos hnext]
        rfl
      have hlt' : ml' < msg.length := by
        by_contra hge
        exact hnext ((drop_eq_nil_iff _).1 (by omega))
      have hpos := List.length_pos_of_ne_nil hnil
      rw [if_neg (by omega), if_neg hnext, hdrop ml' hends, sameCaseless_stop (by decide)]
      have hbehind : ∀ i ≤ msg.length, ml ≤ i →
          ml + ((msg.drop ml).length - (msg.drop i).length) = i := by
        intro i hi hle
        rw [List.length_drop, List.length_drop]
        omega
      by_cases hname : mb = false ∧ sameCaseless (msg.drop ml') hdrContentLength
      · obtain ⟨rfl, hsame⟩ := hname
        have hlen := le_of_sameCaseless hsame
        rw [List.length_drop] at hlen
        obtain ⟨skip, hskip⟩ : ∃ skip, skip = ml' + hdrContentLength.length +
            ((msg.drop (ml' + hdrContentLength.length)).takeWhile isSep).length := ⟨_, rfl⟩
        have hnumber : ((msg.drop ml').drop hdrContentLength.length).dropWhile isSep =
            msg.drop skip := by
          rw [List.drop_drop, dropWhile_eq_drop, List.drop_drop, hskip]
        have hin : skip ≤ msg.length := by
          have := (List.takeWhile_prefix isSep
            (l := msg.drop (ml' + hdrContentLength.length))).length_le
          rw [List.length_drop] at this
          omega
        rw [if_pos ⟨rfl, hsame⟩, if_pos ⟨rfl, hsame⟩, hnumber]
        show (match sscanfInt ((msg ++ 0 :: behind).drop (ml' + hdrContentLength.length +
            ((msg.drop (ml' + hdrContentLength.length)).takeWhile isSep).length)) with
          | none => FullMsg.error
          | some bl => fullMsgLines (msg ++ 0 :: behind) msg.length fuel
            (ml' + hdrContentLength.length +
              ((msg.drop (ml' + hdrContentLength.length)).takeWhile isSep).length) true bl) = _
        rw [← hskip, hdrop skip hin, sscanfInt_stop (by decide) (by decide) (by decide) (by decide)]
        cases hscan : sscanfInt (msg.drop skip) with
        | none => rfl
        | some number =>
            obtain ⟨hlow', hhigh'⟩ := sscanfInt_range hscan
            dsimp only
            rw [HeaderText.behind_behind, hbehind skip hin (by omega)]
            exact ih hin (by omega) (by intro h; cases h) hlow' hhigh'
      · have hread : ¬ ((if mb then some bl else none) = none ∧
            sameCaseless (msg.drop ml') hdrContentLength) := by
          intro h
          refine hname ⟨?_, h.2⟩
          cases mb with
          | false => rfl
          | true => cases h.1
        rw [if_neg hname, if_neg hread, HeaderText.behind_behind, hbehind ml' hends (by omega)]
        exact ih hends (by omega) hmb hlow hhigh

/-- What `rtsp_full_msg_parse` returns for a message with a zero behind it. -/
theorem rtspFullMsgParse_eq (hsize : msg.length < 2 ^ 31) :
    rtspFullMsgParse (msg ++ 0 :: behind) msg.length =
      if msg.head? = some 36 then
        (let bl := 256 * ((msg ++ 0 :: behind).getD 2 0).toNat +
            ((msg ++ 0 :: behind).getD 3 0).toNat
          if bl ≤ msg.length then .interlvdRcvd 4 bl else .notFull)
      else (readHeader msg none).found msg := by
  have hhead : (msg ++ 0 :: behind).getD 0 0 = 36 ↔ msg.head? = some 36 := by
    cases msg with
    | nil => simp
    | cons c msg => simp
  unfold rtspFullMsgParse
  dsimp only
  by_cases h36 : msg.head? = some 36
  · rw [if_pos (hhead.2 h36), if_pos h36]
  · rw [if_neg fun h => h36 (hhead.1 h), if_neg h36,
      fullMsgLines_eq hsize (Nat.zero_le _) (by omega) (fun _ => rfl) (by decide) (by decide)]
    rw [HeaderText.behind_zero, List.drop_zero, if_neg Bool.false_ne_true]

end Text

/-! ## What is in a header -/

/-- The line ends and blanks behind a line are that. -/
theorem ne_zero_of_terminators (tc ws : Nat) (s : List UInt8) :
    ∃ n, (terminators tc ws s).1 + (terminators tc ws s).2 = tc + ws + n ∧
      ∀ c ∈ s.take n, c ≠ 0 := by
  induction s generalizing tc ws with
  | nil => exact ⟨0, rfl, fun c hc => (by cases hc)⟩
  | cons c s ih =>
      have hcons : ∀ {n : Nat}, c ≠ 0 → (∀ d ∈ s.take n, d ≠ 0) →
          ∀ d ∈ (c :: s).take (n + 1), d ≠ 0 := by
        intro n hc hs d hd
        rw [List.take_succ_cons] at hd
        obtain rfl | hd := List.mem_cons.1 hd
        · exact hc
        · exact hs d hd
      rw [terminators]
      split
      next heol =>
        obtain ⟨n, hsum, hs⟩ := ih (tc + 1) ws
        refine ⟨n + 1, by omega, hcons ?_ hs⟩
        rintro rfl
        exact absurd heol (by decide)
      next =>
        split
        next hblank =>
          obtain ⟨n, hsum, hs⟩ := ih tc (ws + 1)
          refine ⟨n + 1, by omega, hcons ?_ hs⟩
          rintro rfl
          exact absurd hblank.2 (by decide)
        next => exact ⟨0, rfl, fun d hd => (by cases hd)⟩

theorem ne_zero_of_sameCaseless {s : List UInt8} (h : sameCaseless s hdrContentLength) :
    ∀ c ∈ s.take hdrContentLength.length, c ≠ 0 := by
  rintro c hc rfl
  have hmem : toLower 0 ∈ hdrContentLength.map toLower := by
    rw [← beq_iff_eq.1 h]
    exact List.mem_map_of_mem hc
  exact absurd hmem (by decide)

/-- A header ends inside the text, and there is no zero in it. -/
theorem readHeader_ended {s : List UInt8} {read : Option Int} {len : Nat} {bl : Int}
    (h : readHeader s read = .ended len bl) :
    len ≤ s.length ∧ ∀ c ∈ s.take len, c ≠ 0 := by
  induction hn : s.length using Nat.strong_induction_on generalizing s read len bl with
  | _ n ih =>
    subst hn
    have hline := List.takeWhile_append_dropWhile (p := inLine) (l := s)
    rw [readHeader] at h
    dsimp only at h
    rw [← dropWhile_eq_drop] at h
    generalize hs : s.takeWhile inLine = line at h hline
    generalize s.dropWhile inLine = rest at h hline
    have hlineNe : ∀ c ∈ line, c ≠ 0 := by
      rintro c hc rfl
      rw [← hs] at hc
      exact absurd (List.mem_takeWhile_imp hc) (by decide)
    obtain ⟨n, hends, hendsNe⟩ := ne_zero_of_terminators 0 0 rest
    have hsum := terminators_le 0 0 rest
    generalize terminators 0 0 rest = ends at h hends hsum
    obtain ⟨tc, ws⟩ := ends
    obtain rfl : n = tc + ws := by
      dsimp only at hends
      omega
    dsimp only at h hsum
    have hparts : s = line ++ rest.take (tc + ws) ++ rest.drop (tc + ws) := by
      rw [List.append_assoc, List.take_append_drop, hline]
    have hfront : ∀ c ∈ line ++ rest.take (tc + ws), c ≠ 0 := by
      intro c hc
      obtain hc | hc := List.mem_append.1 hc
      · exact hlineNe c hc
      · exact hendsNe c hc
    -- from a later place on the header is read of what is there
    have hgo : ∀ (front : List UInt8) {tail : List UInt8} {read' : Option Int}, s = front ++ tail →
        front ≠ [] → (∀ c ∈ front, c ≠ 0) →
        (readHeader tail read').behind (s.length - tail.length) = .ended len bl →
        len ≤ s.length ∧ ∀ c ∈ s.take len, c ≠ 0 := by
      intro front tail read' hs hne hfront htail
      have hlen : s.length = front.length + tail.length := by
        rw [hs, List.length_append]
      have hpos := List.length_pos_of_ne_nil hne
      cases hread : readHeader tail read' with
      | bad =>
          rw [hread] at htail
          cases htail
      | short =>
          rw [hread] at htail
          cases htail
      | ended len' bl' =>
          rw [hread] at htail
          obtain ⟨hle, hzero⟩ := ih tail.length (by omega) hread rfl
          obtain ⟨rfl, rfl⟩ := HeaderText.ended.inj htail
          refine ⟨by omega, fun c hc => ?_⟩
          have hback : s.length - tail.length = front.length := by omega
          rw [hback, hs, List.take_length_add_append] at hc
          obtain hc | hc := List.mem_append.1 hc
          · exact hfront c hc
          · exact hzero c hc
    split at h
    · cases h
    next hlineNil =>
      split at h
      · cases h
      · split at h
        · obtain ⟨rfl, -⟩ := HeaderText.ended.inj h
          have hlen : line.length + (tc + ws) = (line ++ rest.take (tc + ws)).length := by
            rw [List.length_append, List.length_take]
            omega
          rw [Nat.add_assoc, hlen]
          refine ⟨hparts ▸ (List.prefix_append _ _).length_le, fun c hc => hfront c ?_⟩
          rw [hparts, List.take_left] at hc
          exact hc
        · split at h
          · cases h
          · have hfrontNil : line ++ rest.take (tc + ws) ≠ [] := by
              simp [hlineNil]
            split at h
            next hname =>
              split at h
              · cases h
              · refine hgo (line ++ rest.take (tc + ws) ++
                  ((rest.drop (tc + ws)).take hdrContentLength.length ++
                    ((rest.drop (tc + ws)).drop hdrContentLength.length).takeWhile isSep))
                  ?_ ?_ ?_ h
                · rw [List.append_assoc, List.append_assoc _ (List.takeWhile _ _),
                    List.takeWhile_append_dropWhile, List.take_append_drop]
                  exact hparts
                · simp [hlineNil]
                · intro c hc
                  obtain hc | hc := List.mem_append.1 hc
                  · exact hfront c hc
                  · obtain hc | hc := List.mem_append.1 hc
                    · exact ne_zero_of_sameCaseless hname.2 c hc
                    · rintro rfl
                      exact absurd (List.mem_takeWhile_imp hc) (by decide)
            next => exact hgo _ hparts hfrontNil hfront h

/-- A full method is one with the lengths right unless the length in its header
is negative. -/
theorem found_lengths {msg : List UInt8} {read : Option Int} :
    (∀ hdrLen bodyLen, (readHeader msg read).found msg = .methodRcvd hdrLen bodyLen →
        0 ≤ hdrLen ∧ 0 ≤ bodyLen ∧ hdrLen + bodyLen ≤ msg.length) ↔
      ∀ len bl, readHeader msg read = .ended len bl → 0 ≤ bl ∨ len + bl < 0 := by
  constructor
  · intro h len bl hread
    by_contra hneg
    push Not at hneg
    obtain ⟨hle, hzero⟩ := readHeader_ended hread
    have hin : 0 ≤ (len + bl : Int) ∧ (len + bl : Int) ≤ msg.length := by omega
    have hnone : ((msg.drop (len + bl).toNat).takeWhile (· = 0)) = [] := by
      rw [List.takeWhile_eq_nil_iff]
      intro hlt
      have hindex : (len + bl).toNat < msg.length := by
        rw [List.length_drop] at hlt
        omega
      have hmem : msg[(len + bl).toNat] ∈ msg.take len := by
        rw [List.mem_take_iff_getElem]
        exact ⟨(len + bl).toNat, by omega, rfl⟩
      simpa using hzero _ hmem
    have hbody := (h len (bl + 0) (by
      rw [hread, HeaderText.found, if_pos hin, hnone]
      rfl)).2.1
    omega
  · intro h hdrLen bodyLen hfound
    cases hread : readHeader msg read with
    | bad =>
        rw [hread] at hfound
        cases hfound
    | short =>
        rw [hread] at hfound
        cases hfound
    | ended len bl =>
        rw [hread, HeaderText.found] at hfound
        split at hfound
        next hin =>
          obtain ⟨rfl, rfl⟩ := FullMsg.methodRcvd.inj hfound
          have hbl := h len bl hread
          have hzeros := (List.takeWhile_prefix (fun c : UInt8 => decide (c = 0))
            (l := msg.drop (len + bl).toNat)).length_le
          rw [List.length_drop] at hzeros
          omega
        next => cases hfound

end Nvr.Rtsp
