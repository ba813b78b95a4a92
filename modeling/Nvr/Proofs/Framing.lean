import Nvr.Proofs.HeaderText

/-!
# Where a message ends

What `rtsp_full_msg_parse` finds of a message that has come in full or in part.
It says that a message is not full wherever a request is cut, but for two kinds
of places: between the name `Content-Length` and its number, where it finds an
error, and in front of the last byte of a header without a body, where it finds
a full method.
-/

namespace Nvr.Rtsp

/-! ## Reading a header that is cut -/

section Lines

variable {t : List UInt8}

theorem takeWhile_line (hline : ∀ c ∈ t, inLine c) (s : List UInt8) :
    (t ++ cr :: s).takeWhile inLine = t := by
  rw [List.takeWhile_append_of_pos hline, List.takeWhile_cons_of_neg (by decide), List.append_nil]

/-- A line that is cut, or whose line end is. -/
theorem readHeader_cutLine (ht : t ≠ []) (hline : ∀ c ∈ t, inLine c) (read : Option Int) :
    readHeader t read = .short ∧ readHeader (t ++ [cr]) read = .short := by
  constructor
  · have hall : t.takeWhile inLine = t := List.takeWhile_eq_self_iff.2 hline
    rw [readHeader]
    dsimp only
    rw [hall, dif_neg ht, List.drop_length, if_pos rfl]
  · rw [readHeader]
    dsimp only
    rw [takeWhile_line hline, dif_neg ht, List.drop_left]
    rfl

/-- A line with its end. -/
theorem readHeader_line (ht : t ≠ []) (hline : ∀ c ∈ t, inLine c) (s : List UInt8)
    (read : Option Int) :
    readHeader (t ++ cr :: lf :: s) read =
      let (tc, ws) := terminators 2 0 s
      let next := (cr :: lf :: s).drop (tc + ws)
      if 2 < tc then .ended (t.length + tc + ws) (read.getD 0)
      else if next = [] then .short
      else if read = none ∧ sameCaseless next hdrContentLength then
        let number := (next.drop hdrContentLength.length).dropWhile isSep
        match sscanfInt number with
        | none => .bad
        | some bl =>
            (readHeader number (some bl)).behind ((t ++ cr :: lf :: s).length - number.length)
      else (readHeader next read).behind ((t ++ cr :: lf :: s).length - next.length) := by
  have hterm : terminators 0 0 (cr :: lf :: s) = terminators 2 0 s := rfl
  have hne : ¬ (cr :: lf :: s).getD 0 0 = (cr :: lf :: s).getD 1 0 := by
    show ¬ cr = lf
    decide
  rw [readHeader]
  dsimp only
  rw [takeWhile_line hline, dif_neg ht, List.drop_left, if_neg (List.cons_ne_nil _ _), hterm]
  exact if_congr (by simp only [hne, and_false, or_false]) rfl rfl

/-- The end of the header, with or without its last byte. -/
theorem readHeader_end (ht : t ≠ []) (hline : ∀ c ∈ t, inLine c) (read : Option Int) :
    readHeader (t ++ [cr, lf, cr]) read = .ended (t.length + 3) (read.getD 0) ∧
      ∀ body, readHeader (t ++ [cr, lf, cr, lf] ++ body) read =
        .ended (t.length + 4 + leadingEols body) (read.getD 0) := by
  constructor
  · rw [readHeader_line ht hline]
    rfl
  · intro body
    have hterm : terminators 2 0 (cr :: lf :: body) = (4 + leadingEols body, 0) :=
      terminators_body 0 (by omega) body
    rw [List.append_assoc]
    show readHeader (t ++ cr :: lf :: (cr :: lf :: body)) read = _
    rw [readHeader_line ht hline, hterm]
    dsimp only
    rw [if_pos (by omega), Nat.add_zero, Nat.add_assoc]

/-- The blanks in front of the next line. -/
theorem readHeader_indent (ht : t ≠ []) (hline : ∀ c ∈ t, inLine c) (read : Option Int)
    {w : List UInt8} (hw : ∀ c ∈ w, isBlank c) :
    readHeader (t ++ cr :: lf :: w) read = .short := by
  have hterm : terminators 2 0 w = (2, w.length) := by
    have := terminators_blanks 0 (s := []) hw
    rwa [List.append_nil, Nat.zero_add] at this
  rw [readHeader_line ht hline, hterm]
  dsimp only
  rw [if_neg (by omega), if_pos]
  exact List.drop_eq_nil_of_le (by simp; omega)

/-- The next line, from its first byte that is no blank on. -/
theorem readHeader_next (ht : t ≠ []) (hline : ∀ c ∈ t, inLine c) (read : Option Int)
    {w : List UInt8} (hw : ∀ c ∈ w, isBlank c) {c : UInt8} {u : List UInt8} (hc : inLine c)
    (hblank : ¬ isBlank c) :
    readHeader (t ++ cr :: lf :: (w ++ c :: u)) read =
      (if read = none ∧ sameCaseless (c :: u) hdrContentLength then
        let number := ((c :: u).drop hdrContentLength.length).dropWhile isSep
        match sscanfInt number with
        | none => .bad
        | some bl =>
            (readHeader number (some bl)).behind ((c :: u).length - number.length)
      else readHeader (c :: u) read).behind (t.length + 2 + w.length) := by
  have hterm : terminators 2 0 (w ++ c :: u) = (2, w.length) := by
    rw [terminators_blanks 0 hw, terminators, if_neg (not_isEol hc), if_neg fun h => hblank h.2,
      Nat.zero_add]
  have hnext : (cr :: lf :: (w ++ c :: u)).drop (2 + w.length) = c :: u := by
    rw [Nat.add_comm, List.drop_succ_cons, List.drop_succ_cons, List.drop_left]
  have hlen : (t ++ cr :: lf :: (w ++ c :: u)).length = t.length + 2 + w.length + (c :: u).length := by
    simp
    omega
  rw [readHeader_line ht hline, hterm]
  dsimp only
  rw [hnext, if_neg (by omega), if_neg (List.cons_ne_nil _ _), hlen]
  by_cases hname : read = none ∧ sameCaseless (c :: u) hdrContentLength
  · rw [if_pos hname, if_pos hname]
    have hle : (((c :: u).drop hdrContentLength.length).dropWhile isSep).length ≤ (c :: u).length := by
      refine (List.dropWhile_suffix isSep).length_le.trans ?_
      rw [List.length_drop]
      exact Nat.sub_le _ _
    cases sscanfInt (((c :: u).drop hdrContentLength.length).dropWhile isSep) with
    | none => rfl
    | some bl =>
        dsimp only
        rw [HeaderText.behind_behind]
        congr 1
        omega
  · rw [if_neg hname, if_neg hname]
    congr 1
    omega

end Lines

/-! ## Requests that are cut -/

/-- What is read of a request of `total` bytes cut behind `cut` bytes, the length
in its header being `bl`. -/
def cutRead (body : List UInt8) (total cut : Nat) (bl : Int) : HeaderText :=
  if cut + 1 + body.length < total then .short
  else if cut + body.length < total then .ended cut bl
  else .ended (total - body.length + leadingEols (body.take (cut + body.length - total))) bl

theorem cutRead_behind {body : List UInt8} {total : Nat} (h : body.length ≤ total) (n cut : Nat)
    (bl : Int) : (cutRead body total cut bl).behind n = cutRead body (n + total) (n + cut) bl := by
  unfold cutRead
  have hadd : n + cut + body.length - (n + total) = cut + body.length - total := by omega
  rw [hadd]
  by_cases hshort : cut + 1 + body.length < total
  · rw [if_pos hshort, if_pos (by omega)]
    rfl
  · have hshort' : ¬ n + cut + 1 + body.length < n + total := by omega
    rw [if_neg hshort, if_neg hshort']
    by_cases hlast : cut + body.length < total
    · rw [if_pos hlast, if_pos (by omega)]
      rfl
    · have hlast' : ¬ n + cut + body.length < n + total := by omega
      rw [if_neg hlast, if_neg hlast', HeaderText.behind]
      congr 1
      omega

theorem take_behind {t : List UInt8} {cut : Nat} (h : t.length ≤ cut) (s : List UInt8) :
    (t ++ s).take cut = t ++ s.take (cut - t.length) := by
  rw [List.take_append, List.take_of_length_le h]

/-- Only a text with the whole name begins with it. -/
theorem sameCaseless_take (s : List UInt8) (n : Nat) :
    sameCaseless (s.take n) hdrContentLength ↔
      hdrContentLength.length ≤ n ∧ sameCaseless s hdrContentLength := by
  by_cases hn : hdrContentLength.length ≤ n
  · unfold sameCaseless
    rw [List.take_take, Nat.min_eq_left hn]
    exact ⟨fun h => ⟨hn, h⟩, fun h => h.2⟩
  · refine iff_of_false (fun h => hn ?_) fun h => hn h.1
    exact (le_of_sameCaseless h).trans (List.length_take_le _ _)

/-- A line begins with `Content-Length`. -/
def HdrLine.Named (h : HdrLine) : Prop := sameCaseless h.field hdrContentLength = true

instance (h : HdrLine) : Decidable h.Named := inferInstanceAs (Decidable (_ = true))

theorem HdrLine.named_iff (h : HdrLine) (body : List UInt8) (hs : List HdrLine) :
    sameCaseless (h.field ++ afterLine body hs) hdrContentLength ↔ h.Named := by
  obtain ⟨s, hs⟩ := afterLine_eq body hs
  rw [hs, sameCaseless_stop (by decide)]
  rfl

theorem length_le_afterLine (body : List UInt8) (hs : List HdrLine) :
    body.length + 4 ≤ (afterLine body hs).length := by
  induction hs with
  | nil =>
      simp only [afterLine, List.length_append, List.length_cons, List.length_nil]
      omega
  | cons h hs ih =>
      simp only [afterLine, List.length_append]
      omega

section Cut

variable {t body : List UInt8}

/-- A cut inside of a line or behind the first byte of its line end. -/
theorem readHeader_cut_line (ht : t ≠ []) (hline : ∀ c ∈ t, inLine c) {s : List UInt8} {cut : Nat}
    (hcut : 0 < cut) (hle : cut ≤ t.length + 1) (read : Option Int) :
    readHeader ((t ++ cr :: s).take cut) read = .short := by
  obtain hin | rfl := Nat.le_or_eq_of_le_succ hle
  · rw [List.take_append_of_le_length hin]
    refine (readHeader_cutLine ?_ (fun c hc => hline c (List.mem_of_mem_take hc)) read).1
    intro hnil
    have := congrArg List.length hnil
    rw [List.length_take, List.length_nil] at this
    have := List.length_pos_of_ne_nil ht
    omega
  · rw [take_behind (Nat.le_succ _)]
    have hone : t.length.succ - t.length = 1 := by omega
    rw [hone]
    exact (readHeader_cutLine ht hline read).2

/-- A cut in front of the next line. -/
theorem readHeader_cut_indent (ht : t ≠ []) (hline : ∀ c ∈ t, inLine c) {w s : List UInt8}
    (hw : ∀ c ∈ w, isBlank c) {cut : Nat} (hcut : t.length + 1 < cut)
    (hle : cut ≤ t.length + 2 + w.length) (read : Option Int) :
    readHeader ((t ++ cr :: lf :: (w ++ s)).take cut) read = .short := by
  obtain ⟨n, rfl⟩ : ∃ n, cut = t.length + (n + 2) := ⟨cut - t.length - 2, by omega⟩
  rw [take_behind (by omega), Nat.add_sub_cancel_left, List.take_succ_cons, List.take_succ_cons,
    List.take_append_of_le_length (by omega)]
  exact readHeader_indent ht hline read fun c hc => hw c (List.mem_of_mem_take hc)

/-- A cut in the last line, its end, or the body. -/
theorem readHeader_cut_last (ht : t ≠ []) (hline : ∀ c ∈ t, inLine c) {cut : Nat} (hcut : 0 < cut)
    (read : Option Int) :
    readHeader ((t ++ afterLine body []).take cut) read =
      cutRead body (t ++ afterLine body []).length cut (read.getD 0) := by
  have hafter : afterLine body [] = cr :: lf :: ([] ++ (cr :: lf :: body)) := rfl
  have hlen : (t ++ afterLine body []).length = t.length + 4 + body.length := by
    rw [hafter]
    simp
    omega
  unfold cutRead
  rw [hlen]
  by_cases hin : cut ≤ t.length + 1
  · rw [hafter, readHeader_cut_line ht hline hcut hin, if_pos (by omega)]
  by_cases hend : cut ≤ t.length + 2
  · rw [hafter, readHeader_cut_indent ht hline (fun _ hc => absurd hc List.not_mem_nil) (by omega) hend,
      if_pos (by omega)]
  rw [if_neg (by omega)]
  by_cases hlast : cut = t.length + 3
  · subst hlast
    rw [if_pos (by omega), take_behind (by omega), Nat.add_sub_cancel_left]
    exact (readHeader_end ht hline read).1
  · obtain ⟨n, rfl⟩ : ∃ n, cut = (t ++ [cr, lf, cr, lf]).length + n :=
      ⟨cut - t.length - 4, by simp; omega⟩
    have hplace : (t ++ [cr, lf, cr, lf]).length = t.length + 4 := by simp
    have hbody : (t ++ [cr, lf, cr, lf]).length + n + body.length - (t.length + 4 + body.length) =
        n := by omega
    rw [if_neg (by omega), hbody, Nat.add_sub_cancel]
    show readHeader ((t ++ ([cr, lf, cr, lf] ++ body)).take _) read = _
    rw [← List.append_assoc, take_behind (Nat.le_add_right _ _), Nat.add_sub_cancel_left]
    exact (readHeader_end ht hline read).2 _

/-- A cut inside the next line or behind it. -/
theorem readHeader_cut_next (ht : t ≠ []) (hline : ∀ c ∈ t, inLine c) (h : HdrLine)
    (hs : List HdrLine) (read : Option Int) {n : Nat} (hn : 0 < n) :
    readHeader ((t ++ afterLine body (h :: hs)).take
        (t.length + 2 + (h.text.length - h.field.length) + n)) read =
      (let next := (h.field ++ afterLine body hs).take n
        if read = none ∧ hdrContentLength.length ≤ n ∧ h.Named then
          let number := (next.drop hdrContentLength.length).dropWhile isSep
          match sscanfInt number with
          | none => .bad
          | some bl => (readHeader number (some bl)).behind (next.length - number.length)
        else readHeader next read).behind
          (t.length + 2 + (h.text.length - h.field.length)) := by
  obtain ⟨w, c, s, htext, hfield, hw, hblank, hfline⟩ := h.split
  have hindent : h.text.length - h.field.length = w.length := by
    rw [htext, List.length_append, Nat.add_sub_cancel]
  have hafter : afterLine body (h :: hs) = cr :: lf :: (w ++ (h.field ++ afterLine body hs)) := by
    rw [afterLine, htext]
    simp
  obtain ⟨n, rfl⟩ : ∃ m, n = m + 1 := ⟨n - 1, by omega⟩
  have htake : (t ++ afterLine body (h :: hs)).take (t.length + 2 + w.length + (n + 1)) =
      t ++ cr :: lf :: (w ++ (h.field ++ afterLine body hs).take (n + 1)) := by
    have hplace : t.length + 2 + w.length + (n + 1) - t.length = w.length + (n + 1) + 2 := by omega
    rw [hafter, take_behind (by omega), hplace, List.take_succ_cons, List.take_succ_cons,
      take_behind (Nat.le_add_right _ _), Nat.add_sub_cancel_left]
  have hnext : (h.field ++ afterLine body hs).take (n + 1) =
      c :: (s ++ afterLine body hs).take n := by
    rw [hfield]
    rfl
  have hname := sameCaseless_take (h.field ++ afterLine body hs) (n + 1)
  rw [h.named_iff] at hname
  rw [hindent, htake]
  dsimp only
  rw [hnext] at hname ⊢
  have hc : inLine c := hfline c (hfield ▸ List.mem_cons_self ..)
  rw [readHeader_next ht hline read hw hc hblank]
  simp only [hname]

/-- How a cut at or in front of the text of the next line is read. -/
theorem readHeader_cut_front (ht : t ≠ []) (hline : ∀ c ∈ t, inLine c) (h : HdrLine)
    (hs : List HdrLine) (read : Option Int) {cut : Nat} (hcut : 0 < cut)
    (hle : cut ≤ t.length + 2 + (h.text.length - h.field.length)) :
    readHeader ((t ++ afterLine body (h :: hs)).take cut) read = .short := by
  obtain ⟨w, c, s, htext, -, hw, -, -⟩ := h.split
  have hindent : h.text.length - h.field.length = w.length := by
    rw [htext, List.length_append, Nat.add_sub_cancel]
  have hafter : afterLine body (h :: hs) = cr :: lf :: (w ++ (h.field ++ afterLine body hs)) := by
    rw [afterLine, htext]
    simp
  rw [hafter]
  by_cases hin : cut ≤ t.length + 1
  · exact readHeader_cut_line ht hline hcut hin read
  · exact readHeader_cut_indent ht hline hw (by omega) (by omega) read

theorem HdrLine.field_ne_nil (h : HdrLine) : h.field ≠ [] := by
  obtain ⟨-, c, s, -, hfield, -⟩ := h.split
  rw [hfield]
  exact List.cons_ne_nil _ _

theorem HdrLine.inLine_field (h : HdrLine) : ∀ c ∈ h.field, inLine c := by
  obtain ⟨-, -, -, -, -, -, -, hin⟩ := h.split
  exact hin

theorem HdrLine.length_field (h : HdrLine) : h.field.length ≤ h.text.length :=
  (List.dropWhile_suffix isBlank).length_le

theorem length_afterLine_cons (t body : List UInt8) (h : HdrLine) (hs : List HdrLine) :
    (t ++ afterLine body (h :: hs)).length =
      t.length + 2 + (h.text.length - h.field.length) + (h.field ++ afterLine body hs).length := by
  have := h.length_field
  simp only [afterLine, List.length_append, List.length_cons, List.length_nil]
  omega

/-- A request is cut where no more line with a length is looked for. -/
theorem readHeader_cut {hs : List HdrLine} {read : Option Int}
    (hread : ∀ h ∈ hs, ¬ (read = none ∧ h.Named)) (ht : t ≠ []) (hline : ∀ c ∈ t, inLine c)
    {cut : Nat} (hcut : 0 < cut) :
    readHeader ((t ++ afterLine body hs).take cut) read =
      cutRead body (t ++ afterLine body hs).length cut (read.getD 0) := by
  induction hs generalizing t cut with
  | nil => exact readHeader_cut_last ht hline hcut read
  | cons h hs ih =>
      have hbody : body.length ≤ (h.field ++ afterLine body hs).length := by
        have := length_le_afterLine body hs
        rw [List.length_append]
        omega
      have hfield := List.length_pos_of_ne_nil h.field_ne_nil
      rw [length_afterLine_cons]
      by_cases hfront : cut ≤ t.length + 2 + (h.text.length - h.field.length)
      · have hlen : cut + 1 + body.length < t.length + 2 + (h.text.length - h.field.length) +
            (h.field ++ afterLine body hs).length := by
          have := length_le_afterLine body hs
          rw [List.length_append]
          omega
        rw [readHeader_cut_front ht hline h hs read hcut hfront, cutRead, if_pos hlen]
      · obtain ⟨n, rfl⟩ : ∃ n, cut = t.length + 2 + (h.text.length - h.field.length) + n :=
          ⟨cut - (t.length + 2 + (h.text.length - h.field.length)), by omega⟩
        have hname : ¬ (read = none ∧ hdrContentLength.length ≤ n ∧ h.Named) := fun hn =>
          hread h (List.mem_cons_self ..) ⟨hn.1, hn.2.2⟩
        rw [readHeader_cut_next ht hline h hs read (by omega), if_neg hname,
          ih (fun x hx => hread x (List.mem_cons_of_mem _ hx)) h.field_ne_nil h.inLine_field
            (by omega), cutRead_behind hbody]

end Cut

/-! ## The length in the header -/

theorem sscanfInt_blank {w : List UInt8} (hw : ∀ c ∈ w, isBlank c) : sscanfInt w = none := by
  have hnil : w.dropWhile isSpace = [] := by
    rw [List.dropWhile_eq_nil_iff]
    intro c hc
    have := hw c hc
    unfold isBlank at this
    unfold isSpace
    grind
  unfold sscanfInt
  rw [hnil]

/-- A number behind blanks. -/
theorem sscanfInt_digit {w : List UInt8} (hw : ∀ c ∈ w, isBlank c) {d : UInt8} (hd : isDigit d)
    (s : List UInt8) :
    sscanfInt (w ++ d :: s) = some (clampInt (decimal ((d :: s).takeWhile isDigit))) := by
  have hspace : ¬ isSpace d := by
    unfold isDigit at hd
    unfold isSpace
    grind
  have hsign : d ≠ 45 ∧ d ≠ 43 := by
    constructor <;> rintro rfl <;> exact absurd hd (by decide)
  have hdrop : (w ++ d :: s).dropWhile isSpace = d :: s := by
    rw [List.dropWhile_append_of_pos, List.dropWhile_cons_of_neg hspace]
    intro c hc
    have := hw c hc
    unfold isBlank at this
    unfold isSpace
    grind
  unfold sscanfInt
  rw [hdrop]
  dsimp only
  rw [if_neg hsign.1, if_neg hsign.2, if_neg]
  · simp
  · rw [List.takeWhile_cons_of_pos hd]
    exact List.cons_ne_nil _ _

/-- The number of a line, from its first digit on, if a number stands there. -/
def HdrLine.numberText (h : HdrLine) : List UInt8 := h.lengthText.dropWhile isBlank

/-- A line gives the length `n`: behind the name, colons and blanks stand the
digits of `n`. -/
def HdrLine.Gives (h : HdrLine) (n : Nat) : Prop :=
  h.numberText.takeWhile isDigit ≠ [] ∧ decimal (h.numberText.takeWhile isDigit) = n

/-- The number of a line that goes on with its line end, and is cut behind `n` bytes. -/
theorem HdrLine.Gives.sscanfInt_take {h : HdrLine} {bl : Nat} (hgives : h.Gives bl)
    (hbl : bl < 2 ^ 31) (s : List UInt8) (n : Nat) :
    let white := h.lengthText.length - h.numberText.length
    (n ≤ white → sscanfInt ((h.lengthText ++ cr :: s).take n) = none) ∧
      (white < n → ∃ v, sscanfInt ((h.lengthText ++ cr :: s).take n) = some v ∧
        (h.lengthText.length ≤ n → v = bl)) := by
  obtain ⟨hdigits, hdecimal⟩ := hgives
  have htext : h.lengthText.takeWhile isBlank ++ h.numberText = h.lengthText :=
    List.takeWhile_append_dropWhile
  have hwhite : h.lengthText.length - h.numberText.length =
      (h.lengthText.takeWhile isBlank).length := by
    have := congrArg List.length htext
    rw [List.length_append] at this
    omega
  have hw : ∀ c ∈ h.lengthText.takeWhile isBlank, isBlank c := fun c hc =>
    List.mem_takeWhile_imp hc
  dsimp only
  rw [hwhite]
  generalize h.lengthText.takeWhile isBlank = w at *
  generalize h.numberText = number at *
  rw [← htext, List.append_assoc]
  constructor
  · intro hn
    rw [List.take_append_of_le_length hn]
    exact sscanfInt_blank fun c hc => hw c (List.mem_of_mem_take hc)
  · intro hn
    obtain ⟨n, rfl⟩ : ∃ m, n = w.length + (m + 1) := ⟨n - w.length - 1, by omega⟩
    obtain ⟨d, t, rfl⟩ : ∃ d t, number = d :: t := by
      cases number with
      | nil => exact absurd rfl hdigits
      | cons d t => exact ⟨d, t, rfl⟩
    have hd : isDigit d := by
      by_contra hd
      exact hdigits (List.takeWhile_cons_of_neg hd)
    rw [take_behind (Nat.le_add_right _ _), Nat.add_sub_cancel_left, List.cons_append,
      List.take_succ_cons, sscanfInt_digit hw hd]
    refine ⟨_, rfl, fun hle => ?_⟩
    rw [List.length_append, List.length_cons] at hle
    have hcut : (d :: (t ++ cr :: s).take n).takeWhile isDigit = (d :: t).takeWhile isDigit := by
      rw [take_behind (by omega)]
      cases hrest : n - t.length with
      | zero => rw [List.take_zero, List.append_nil]
      | succ m => exact takeWhile_append_stop (by decide) (d :: t) _
    rw [hcut, hdecimal, clampInt]
    omega

theorem HdrLine.Gives.lengthText_head {h : HdrLine} {bl : Nat} (hgives : h.Gives bl) :
    ∃ c u, h.lengthText = c :: u ∧ ¬ isSep c := by
  have hhead := List.head?_dropWhile_not isSep (h.field.drop hdrContentLength.length)
  cases htext : h.lengthText with
  | nil =>
      have hnumber : h.numberText = [] := by
        rw [HdrLine.numberText, htext]
        rfl
      exact absurd (by rw [hnumber]; rfl) hgives.1
  | cons c u =>
      have hdrop : (h.field.drop hdrContentLength.length).dropWhile isSep = c :: u := htext
      rw [hdrop] at hhead
      exact ⟨c, u, rfl, by simpa using hhead⟩

/-- The header gives the length `n`: by its first line that is named
`Content-Length`, and if there is none it is zero. -/
def Declares : List HdrLine → Nat → Prop
  | [], n => n = 0
  | h :: hs, n => if h.Named then h.Gives n else Declares hs n

/-- Behind `n` bytes of what follows a line, the name `Content-Length` has come
and its number has not. -/
def CutBeforeNumber : List HdrLine → Nat → Prop
  | [], _ => False
  | h :: hs, n =>
      if h.Named then
        2 + (h.text.length - h.field.length) + hdrContentLength.length ≤ n ∧
          n ≤ 2 + (h.text.length - h.numberText.length)
      else CutBeforeNumber hs (n - (2 + h.text.length))

instance decidableCutBeforeNumber : (hs : List HdrLine) → (n : Nat) →
    Decidable (CutBeforeNumber hs n)
  | [], _ => inferInstanceAs (Decidable False)
  | h :: hs, n =>
      have := decidableCutBeforeNumber hs (n - (2 + h.text.length))
      inferInstanceAs (Decidable (if h.Named then _ else _))

theorem cutBeforeNumber_named {h : HdrLine} (hnamed : h.Named) (hs : List HdrLine) (n : Nat) :
    CutBeforeNumber (h :: hs) n ↔
      2 + (h.text.length - h.field.length) + hdrContentLength.length ≤ n ∧
        n ≤ 2 + (h.text.length - h.numberText.length) := by
  rw [CutBeforeNumber, if_pos hnamed]

theorem cutBeforeNumber_other {h : HdrLine} (hnamed : ¬ h.Named) (hs : List HdrLine) (n : Nat) :
    CutBeforeNumber (h :: hs) n ↔ CutBeforeNumber hs (n - (2 + h.text.length)) := by
  rw [CutBeforeNumber, if_neg hnamed]

theorem not_cutBeforeNumber_zero (hs : List HdrLine) : ¬ CutBeforeNumber hs 0 := by
  induction hs with
  | nil => exact id
  | cons h hs ih =>
      by_cases hnamed : h.Named
      · rw [cutBeforeNumber_named hnamed]
        omega
      · rw [cutBeforeNumber_other hnamed, Nat.zero_sub]
        exact ih

/-- With the whole of the number in it, the length that a cut header gives is the
length in it; without, it does not matter. -/
theorem cutRead_congr {body : List UInt8} {total cut : Nat} {v bl : Int}
    (h : total ≤ cut + 1 + body.length → v = bl) :
    cutRead body total cut v = cutRead body total cut bl := by
  unfold cutRead
  by_cases hshort : cut + 1 + body.length < total
  · rw [if_pos hshort, if_pos hshort]
  · rw [h (by omega)]

section Request

variable {t body : List UInt8}

/-- A cut in the line with the length or behind it. -/
theorem readHeader_cut_named {h : HdrLine} (hs : List HdrLine) {bl : Nat} (hnamed : h.Named)
    (hgives : h.Gives bl) (hbl : bl < 2 ^ 31) {n : Nat} (hn : hdrContentLength.length ≤ n) :
    (let next := (h.field ++ afterLine body hs).take n
      let number := (next.drop hdrContentLength.length).dropWhile isSep
      match sscanfInt number with
      | none => .bad
      | some bl => (readHeader number (some bl)).behind (next.length - number.length)) =
      if n ≤ h.field.length - h.numberText.length then HeaderText.bad
      else cutRead body (h.field ++ afterLine body hs).length n bl := by
  obtain ⟨name, sep, hparts, hname, hsep⟩ := HdrLine.length_split hnamed
  obtain ⟨s, hafter⟩ := afterLine_eq body hs
  obtain ⟨m, rfl⟩ : ∃ m, n = name.length + m := ⟨n - name.length, by omega⟩
  have hsepAll : ∀ c ∈ sep, isSep c := by
    intro c hc
    have hmem : c ∈ (sep ++ (h.lengthText ++ cr :: [])).takeWhile isSep := by
      rw [hsep]
      exact hc
    exact List.mem_takeWhile_imp hmem
  obtain ⟨c, u, hcu, hc⟩ := hgives.lengthText_head
  have hwhite : h.numberText.length ≤ h.lengthText.length :=
    (List.dropWhile_suffix isBlank).length_le
  have hfield : h.field.length = name.length + sep.length + h.lengthText.length := by
    rw [hparts]
    simp
    omega
  have hdrop : ((h.field ++ afterLine body hs).take (name.length + m)).drop
      hdrContentLength.length = (sep ++ (h.lengthText ++ afterLine body hs)).take m := by
    rw [← hname, hparts, List.append_assoc, List.append_assoc, take_behind (Nat.le_add_right _ _),
      Nat.add_sub_cancel_left, List.drop_left]
  dsimp only
  rw [hdrop]
  by_cases hin : m ≤ sep.length
  · have hnil : ((sep ++ (h.lengthText ++ afterLine body hs)).take m).dropWhile isSep = [] := by
      rw [List.take_append_of_le_length hin, List.dropWhile_eq_nil_iff]
      exact fun c hc => hsepAll c (List.mem_of_mem_take hc)
    rw [hnil, if_pos (by omega)]
    rfl
  · obtain ⟨k, rfl⟩ : ∃ k, m = sep.length + (k + 1) := ⟨m - sep.length - 1, by omega⟩
    have hnumber : ((sep ++ (h.lengthText ++ afterLine body hs)).take
        (sep.length + (k + 1))).dropWhile isSep =
        (h.lengthText ++ afterLine body hs).take (k + 1) := by
      rw [take_behind (Nat.le_add_right _ _), Nat.add_sub_cancel_left,
        List.dropWhile_append_of_pos hsepAll, hcu, List.cons_append, List.take_succ_cons,
        List.dropWhile_cons_of_neg hc]
    have hlen : ((h.field ++ afterLine body hs).take (name.length + (sep.length + (k + 1)))).length -
        ((h.lengthText ++ afterLine body hs).take (k + 1)).length = name.length + sep.length := by
      rw [List.length_take, List.length_take, List.length_append, List.length_append, hfield]
      have hpos : 0 < (h.lengthText ++ afterLine body hs).length := by
        rw [hcu]
        exact Nat.succ_pos _
      rw [List.length_append] at hpos
      omega
    obtain ⟨hshort, hread⟩ := hgives.sscanfInt_take hbl (lf :: s) (k + 1)
    rw [← hafter] at hshort hread
    rw [hnumber, hlen]
    by_cases hk : k + 1 ≤ h.lengthText.length - h.numberText.length
    · rw [hshort hk, if_pos (by omega)]
    · obtain ⟨v, hv, hall⟩ := hread (by omega)
      rw [hv, if_neg (by omega)]
      dsimp only
      have hnone : ∀ x ∈ hs, ¬ ((some v : Option Int) = none ∧ x.Named) := fun x _ hx => nomatch hx.1
      have hline : ∀ x ∈ h.lengthText, inLine x := by
        intro x hx
        refine h.inLine_field x ?_
        rw [hparts]
        exact List.mem_append_right _ (List.mem_append_right _ hx)
      have hbody := length_le_afterLine body hs
      rw [readHeader_cut hnone (hcu ▸ List.cons_ne_nil c u) hline (Nat.succ_pos k),
        cutRead_behind (by rw [List.length_append]; omega), List.length_append, List.length_append,
        hfield, ← Nat.add_assoc, ← Nat.add_assoc (name.length)]
      refine cutRead_congr fun hle => hall ?_
      omega

theorem numberText_le (h : HdrLine) : h.numberText.length ≤ h.field.length := by
  refine (List.dropWhile_suffix isBlank).length_le.trans ?_
  refine (List.dropWhile_suffix isSep).length_le.trans ?_
  rw [List.length_drop]
  exact Nat.sub_le _ _

/-- A request with a length in its header, cut anywhere. -/
theorem readHeader_cut_request {hs : List HdrLine} {bl : Nat} (hdeclares : Declares hs bl)
    (hbl : bl < 2 ^ 31) (ht : t ≠ []) (hline : ∀ c ∈ t, inLine c) {cut : Nat} (hcut : 0 < cut) :
    readHeader ((t ++ afterLine body hs).take cut) none =
      if CutBeforeNumber hs (cut - t.length) then .bad
      else cutRead body (t ++ afterLine body hs).length cut bl := by
  induction hs generalizing t cut with
  | nil =>
      have hzero : bl = 0 := hdeclares
      rw [readHeader_cut_last ht hline hcut, hzero]
      exact (if_neg id).symm
  | cons h hs ih =>
      have hbody := length_le_afterLine body hs
      have hfield := h.length_field
      have hnumber := numberText_le h
      have hlen : body.length ≤ (h.field ++ afterLine body hs).length := by
        rw [List.length_append]
        omega
      have hname : 0 < hdrContentLength.length := by decide
      rw [length_afterLine_cons]
      by_cases hfront : cut ≤ t.length + 2 + (h.text.length - h.field.length)
      · have hnot : ¬ CutBeforeNumber (h :: hs) (cut - t.length) := by
          by_cases hnamed : h.Named
          · rw [cutBeforeNumber_named hnamed]
            omega
          · have hzero : cut - t.length - (2 + h.text.length) = 0 := by omega
            rw [cutBeforeNumber_other hnamed, hzero]
            exact not_cutBeforeNumber_zero hs
        rw [readHeader_cut_front ht hline h hs none hcut hfront, if_neg hnot, cutRead, if_pos]
        rw [List.length_append]
        omega
      · obtain ⟨n, rfl⟩ : ∃ n, cut = t.length + 2 + (h.text.length - h.field.length) + n :=
          ⟨cut - (t.length + 2 + (h.text.length - h.field.length)), by omega⟩
        rw [readHeader_cut_next ht hline h hs none (by omega)]
        unfold Declares at hdeclares
        by_cases hnamed : h.Named
        · rw [if_pos hnamed] at hdeclares
          have hcutNumber := cutBeforeNumber_named hnamed hs
            (t.length + 2 + (h.text.length - h.field.length) + n - t.length)
          by_cases hn : hdrContentLength.length ≤ n
          · rw [if_pos ⟨rfl, hn, hnamed⟩, readHeader_cut_named hs hnamed hdeclares hbl hn]
            by_cases hgap : n ≤ h.field.length - h.numberText.length
            · rw [if_pos hgap, if_pos (hcutNumber.2 (by omega))]
              rfl
            · rw [if_neg hgap, if_neg fun h => hgap (by have := hcutNumber.1 h; omega),
                cutRead_behind hlen]
          · -- cut inside of the name
            obtain ⟨s, hafter⟩ := afterLine_eq body hs
            have hlong := le_of_sameCaseless hnamed
            rw [if_neg fun h => hn h.2.1, if_neg fun h => hn (by have := hcutNumber.1 h; omega),
              hafter, readHeader_cut_line h.field_ne_nil h.inLine_field (by omega) (by omega), ← hafter,
              cutRead, if_pos]
            · rfl
            · rw [List.length_append]
              omega
        · rw [if_neg hnamed] at hdeclares
          have hplace : t.length + 2 + (h.text.length - h.field.length) + n - t.length -
              (2 + h.text.length) = n - h.field.length := by omega
          have hcutNumber := cutBeforeNumber_other hnamed hs
            (t.length + 2 + (h.text.length - h.field.length) + n - t.length)
          rw [hplace] at hcutNumber
          dsimp only
          rw [if_neg fun h => hnamed h.2.2,
            ih hdeclares h.field_ne_nil h.inLine_field (by omega)]
          by_cases hgap : CutBeforeNumber hs (n - h.field.length)
          · rw [if_pos hgap, if_pos (hcutNumber.2 hgap)]
            rfl
          · rw [if_neg hgap, if_neg fun h => hgap (hcutNumber.1 h), cutRead_behind hlen]

/-- Whatever a line that is named `Content-Length` says: cut behind the name the
request is taken to be in error. -/
theorem exists_bad_cut {hs : List HdrLine} (hnamed : ∃ h ∈ hs, h.Named) (ht : t ≠ [])
    (hline : ∀ c ∈ t, inLine c) :
    ∃ cut, 0 < cut ∧ cut < (t ++ afterLine body hs).length ∧
      readHeader ((t ++ afterLine body hs).take cut) none = .bad := by
  induction hs generalizing t with
  | nil =>
      obtain ⟨h, hmem, -⟩ := hnamed
      exact absurd hmem List.not_mem_nil
  | cons h hs ih =>
      rw [length_afterLine_cons]
      by_cases hfirst : h.Named
      · have hlong := le_of_sameCaseless hfirst
        have hbody := length_le_afterLine body hs
        have hpos : 0 < hdrContentLength.length := by decide
        refine ⟨t.length + 2 + (h.text.length - h.field.length) + hdrContentLength.length, by omega,
          by rw [List.length_append]; omega, ?_⟩
        rw [readHeader_cut_next ht hline h hs none hpos, if_pos ⟨rfl, Nat.le_refl _, hfirst⟩,
          List.drop_eq_nil_of_le (List.length_take_le _ _)]
        rfl
      · obtain ⟨x, hx, hxNamed⟩ := hnamed
        have hmem : x ∈ hs := by
          obtain rfl | hmem := List.mem_cons.1 hx
          · exact absurd hxNamed hfirst
          · exact hmem
        obtain ⟨cut, hcut, hlt, hbad⟩ := ih ⟨x, hmem, hxNamed⟩ h.field_ne_nil h.inLine_field
        refine ⟨t.length + 2 + (h.text.length - h.field.length) + cut, by omega, by omega, ?_⟩
        rw [readHeader_cut_next ht hline h hs none hcut, if_neg fun hn => hfirst hn.2.2, hbad]
        rfl

theorem cutBeforeNumber_lt {hs : List HdrLine} {n : Nat} (h : CutBeforeNumber hs n) :
    n + body.length < (afterLine body hs).length := by
  induction hs generalizing n with
  | nil => exact h.elim
  | cons x hs ih =>
      have hbody := length_le_afterLine body hs
      have hlen : (afterLine body (x :: hs)).length = 2 + x.text.length +
          (afterLine body hs).length := by
        simp only [afterLine, List.length_append, List.length_cons, List.length_nil]
      by_cases hnamed : x.Named
      · have := (cutBeforeNumber_named hnamed hs n).1 h
        omega
      · have := ih ((cutBeforeNumber_other hnamed hs n).1 h)
        omega

end Request

/-! ## The verdict -/

/-- What is asked of the parser at one buffer: it returns, the lengths of what it
says is complete are right, and of a request it says that it is not full in front
of its end and a full method, with its lengths, there. As `nMsgSize` is, the size
of a request is an `int`. -/
structure MessageFramed (szBuffRecv : List UInt8) (nMsgSize : Nat) : Prop where
  ends : ∀ (n : List Unit) (s : Nat × Bool × Int),
    Run (fun s _ t => fullMsgPass szBuffRecv nMsgSize s = .inr t) (0, false, 0) n s →
      n.length ≤ nMsgSize + 1
  method : ∀ hdrLen bodyLen,
    rtspFullMsgParse szBuffRecv nMsgSize = .methodRcvd hdrLen bodyLen →
      0 ≤ hdrLen ∧ 0 ≤ bodyLen ∧ hdrLen + bodyLen ≤ nMsgSize
  interlvd : ∀ hdrLen bodyLen,
    rtspFullMsgParse szBuffRecv nMsgSize = .interlvdRcvd hdrLen bodyLen → 4 + bodyLen ≤ nMsgSize
  request : ∀ q : WireRequest, Declares q.headers q.body.length → q.bytes.length < 2 ^ 31 →
    0 < nMsgSize → nMsgSize ≤ q.bytes.length →
    szBuffRecv.take nMsgSize = q.bytes.take nMsgSize →
      (nMsgSize < q.bytes.length → rtspFullMsgParse szBuffRecv nMsgSize = .notFull) ∧
        (nMsgSize = q.bytes.length → rtspFullMsgParse szBuffRecv nMsgSize =
          .methodRcvd (q.bytes.length - q.body.length) q.body.length)

/-- A message whose header gives a negative length, no longer than the header. -/
def NegativeLength (msg : List UInt8) : Prop :=
  msg.head? ≠ some 36 ∧ ∃ len bl, readHeader msg none = .ended len bl ∧ bl < 0 ∧ 0 ≤ len + bl

/-- The length in a packet. -/
def intlvdLen (szBuffRecv : List UInt8) : Nat :=
  256 * (szBuffRecv.getD 2 0).toNat + (szBuffRecv.getD 3 0).toNat

/-- A packet that lacks the last bytes, up to four of them. -/
def ShortPacket (szBuffRecv : List UInt8) (nMsgSize : Nat) : Prop :=
  (szBuffRecv.take nMsgSize).head? = some 36 ∧ intlvdLen szBuffRecv ≤ nMsgSize ∧
    nMsgSize < 4 + intlvdLen szBuffRecv

/-- Where the end of a request is seen where it is: a request that has not come in
full is cut neither in front of the number of its length nor, having no body, in
front of its last byte; the body of one that has does not begin with a line end. -/
def WireRequest.SeenAt (q : WireRequest) (cut : Nat) : Prop :=
  if cut < q.bytes.length then
    ¬ CutBeforeNumber q.headers (cut - q.startLine.text.length) ∧
      ¬ (q.body = [] ∧ cut + 1 = q.bytes.length)
  else leadingEols q.body = 0

section Verdict

variable {behind : List UInt8}

theorem WireRequest.startLine_ne_nil (q : WireRequest) : q.startLine.text ≠ [] := by
  obtain ⟨c, hc, -⟩ := q.startLine.nonblank
  exact List.ne_nil_of_mem hc

/-- A request that is cut is read as a header is. -/
theorem rtspFullMsgParse_cut (q : WireRequest) (hsize : q.bytes.length < 2 ^ 31) {cut : Nat}
    (hcut : 0 < cut) (hle : cut ≤ q.bytes.length) :
    rtspFullMsgParse (q.bytes.take cut ++ 0 :: behind) cut =
      (readHeader (q.bytes.take cut) none).found (q.bytes.take cut) := by
  have hlen : (q.bytes.take cut).length = cut := by
    rw [List.length_take, Nat.min_eq_left hle]
  have hhead : (q.bytes.take cut).head? ≠ some 36 := by
    rw [List.head?_take, if_neg (by omega), WireRequest.bytes,
      List.head?_append_of_ne_nil _ q.startLine_ne_nil]
    exact q.start
  have hparse := @rtspFullMsgParse_eq (q.bytes.take cut) behind (by omega)
  rw [hlen, if_neg hhead] at hparse
  exact hparse

/-- Of a request that is cut, the end is found in front of the last byte of its
header, if there is no body, and nowhere else. -/
theorem found_cutRead {body msg : List UInt8} {total cut : Nat} (hlen : msg.length = cut)
    (hcut : cut < total) (hbody : body.length ≤ total) :
    (cutRead body total cut body.length).found msg = .notFull ↔
      ¬ (body = [] ∧ cut + 1 = total) := by
  unfold cutRead
  by_cases hshort : cut + 1 + body.length < total
  · rw [if_pos hshort]
    exact iff_of_true rfl fun h => by omega
  · rw [if_neg hshort]
    by_cases hlast : cut + body.length < total
    · rw [if_pos hlast, HeaderText.found]
      by_cases hnil : body = []
      · subst hnil
        rw [List.length_nil] at *
        rw [if_pos (by omega)]
        exact iff_of_false (by intro h; cases h) fun h => h ⟨rfl, by omega⟩
      · have hpos := List.length_pos_of_ne_nil hnil
        rw [if_neg (by omega)]
        exact iff_of_true rfl fun h => hnil h.1
    · rw [if_neg hlast, HeaderText.found, if_neg (by omega)]
      refine iff_of_true rfl fun h => ?_
      rw [h.1, List.length_nil] at hlast
      omega

/-- Of a whole request, the end is found unless the body begins with a line end. -/
theorem found_whole {body msg : List UInt8} (hbody : body.length ≤ msg.length) :
    (cutRead body msg.length msg.length body.length).found msg =
      .methodRcvd (msg.length - body.length) body.length ↔ leadingEols body = 0 := by
  have hall : body.take (msg.length + body.length - msg.length) = body := by
    rw [Nat.add_sub_cancel_left, List.take_length]
  unfold cutRead
  rw [if_neg (by omega), if_neg (by omega), hall, HeaderText.found]
  by_cases hzero : leadingEols body = 0
  · have hend : ((msg.length - body.length + 0 : Nat) + body.length : Int) = msg.length := by omega
    rw [hzero, hend, if_pos (by omega), Int.toNat_natCast, List.drop_length]
    refine iff_of_true ?_ rfl
    rw [Nat.add_zero, Int.ofNat_sub hbody]
    rfl
  · rw [if_neg (by omega)]
    exact iff_of_false (by intro h; cases h) hzero

/-- The end of a request is seen where it is exactly at the places that are said. -/
theorem seenAt_iff (q : WireRequest) (hdeclares : Declares q.headers q.body.length)
    (hsize : q.bytes.length < 2 ^ 31) {cut : Nat} (hcut : 0 < cut) (hle : cut ≤ q.bytes.length) :
    (cut < q.bytes.length →
        rtspFullMsgParse (q.bytes.take cut ++ 0 :: behind) cut = .notFull) ∧
      (cut = q.bytes.length → rtspFullMsgParse (q.bytes.take cut ++ 0 :: behind) cut =
        .methodRcvd (q.bytes.length - q.body.length) q.body.length) ↔ q.SeenAt cut := by
  have hbody : q.body.length + 4 ≤ (afterLine q.body q.headers).length := length_le_afterLine _ _
  have hbytes : q.bytes.length = q.startLine.text.length +
      (afterLine q.body q.headers).length := by
    rw [WireRequest.bytes, List.length_append]
  have hread := @readHeader_cut_request q.startLine.text q.body _ _ hdeclares
    (by omega) q.startLine_ne_nil q.startLine.ends _ hcut
  have hlen : (q.bytes.take cut).length = cut := by
    rw [List.length_take, Nat.min_eq_left hle]
  rw [rtspFullMsgParse_cut q hsize hcut hle, WireRequest.SeenAt]
  change readHeader (q.bytes.take cut) none = _ at hread
  change _ = if _ then _ else cutRead q.body q.bytes.length cut _ at hread
  rw [hread]
  by_cases hlt : cut < q.bytes.length
  · have hne : cut ≠ q.bytes.length := Nat.ne_of_lt hlt
    rw [if_pos hlt, and_iff_left fun h => absurd h hne]
    by_cases hgap : CutBeforeNumber q.headers (cut - q.startLine.text.length)
    · rw [if_pos hgap]
      exact iff_of_false (by intro h; cases h hlt) fun h => h.1 hgap
    · rw [if_neg hgap, found_cutRead hlen hlt (by omega)]
      exact ⟨fun h => ⟨hgap, h hlt⟩, fun h _ => h.2⟩
  · obtain rfl : cut = q.bytes.length := by omega
    have hgap : ¬ CutBeforeNumber q.headers (q.bytes.length - q.startLine.text.length) := by
      intro hgap
      have := @cutBeforeNumber_lt q.body _ _ hgap
      omega
    rw [if_neg hlt, if_neg hgap, List.take_length, ← @found_whole q.body q.bytes (by omega)]
    exact ⟨fun h => h.2 rfl, fun h => ⟨fun hlt' => absurd hlt' hlt, fun _ => h⟩⟩

/-- However a request is written, it is not always said to be not full in front of
its end. -/
theorem exists_cut_full (q : WireRequest) (hsize : q.bytes.length < 2 ^ 31) :
    ∃ cut, 0 < cut ∧ cut < q.bytes.length ∧ ∀ behind,
      rtspFullMsgParse (q.bytes.take cut ++ 0 :: behind) cut ≠ .notFull := by
  have hbody : q.body.length + 4 ≤ (afterLine q.body q.headers).length := length_le_afterLine _ _
  have hbytes : q.bytes.length = q.startLine.text.length +
      (afterLine q.body q.headers).length := by
    rw [WireRequest.bytes, List.length_append]
  by_cases hnamed : ∃ h ∈ q.headers, h.Named
  · obtain ⟨cut, hcut, hlt, hbad⟩ :=
      @exists_bad_cut _ q.body _ hnamed q.startLine_ne_nil q.startLine.ends
    change cut < q.bytes.length at hlt
    change readHeader (q.bytes.take cut) none = _ at hbad
    refine ⟨cut, hcut, hlt, fun behind => ?_⟩
    rw [rtspFullMsgParse_cut q hsize hcut hlt.le, hbad]
    intro h
    cases h
  · -- no line has a length, so the header is taken to end in front of its last byte
    have hcut : 0 < q.bytes.length - q.body.length - 1 := by omega
    have hnone : ∀ h ∈ q.headers, ¬ ((none : Option Int) = none ∧ h.Named) := fun h hh hn =>
      hnamed ⟨h, hh, hn.2⟩
    have hread := @readHeader_cut q.startLine.text q.body _ _ hnone q.startLine_ne_nil
      q.startLine.ends _ hcut
    change readHeader (q.bytes.take _) none = cutRead q.body q.bytes.length _ 0 at hread
    have hlen : (q.bytes.take (q.bytes.length - q.body.length - 1)).length =
        q.bytes.length - q.body.length - 1 := by
      rw [List.length_take]
      omega
    refine ⟨_, hcut, by omega, fun behind => ?_⟩
    rw [rtspFullMsgParse_cut q hsize hcut (by omega), hread, cutRead, if_neg (by omega),
      if_pos (by omega), HeaderText.found, if_pos (by omega)]
    intro h
    cases h

end Verdict

/-- A packet is taken to be complete when its length is there without the four
bytes in front. -/
theorem interlvd_iff {msg behind : List UInt8} (hsize : msg.length < 2 ^ 31) :
    (∀ hdrLen bodyLen, rtspFullMsgParse (msg ++ 0 :: behind) msg.length =
        .interlvdRcvd hdrLen bodyLen → 4 + bodyLen ≤ msg.length) ↔
      ¬ ShortPacket (msg ++ 0 :: behind) msg.length := by
  unfold ShortPacket
  rw [rtspFullMsgParse_eq hsize, List.take_left]
  unfold intlvdLen
  dsimp only
  generalize 256 * ((msg ++ 0 :: behind).getD 2 0).toNat +
    ((msg ++ 0 :: behind).getD 3 0).toNat = bl
  by_cases h36 : msg.head? = some 36
  · rw [if_pos h36]
    by_cases hle : bl ≤ msg.length
    · rw [if_pos hle]
      constructor
      · rintro h ⟨-, -, hlt⟩
        have := h 4 bl rfl
        omega
      · intro h hdrLen bodyLen hparse
        obtain ⟨-, rfl⟩ := FullMsg.interlvdRcvd.inj hparse
        by_contra hlt
        exact h ⟨h36, hle, by omega⟩
    · rw [if_neg hle]
      exact iff_of_true (fun _ _ h => nomatch h) fun h => hle h.2.1
  · rw [if_neg h36]
    refine iff_of_true (fun _ _ h => ?_) fun h => h36 h.1
    cases hread : readHeader msg none with
    | bad => rw [hread] at h; cases h
    | short => rw [hread] at h; cases h
    | ended len bl' =>
        rw [hread, HeaderText.found] at h
        split at h <;> cases h

theorem method_iff {msg behind : List UInt8} (hsize : msg.length < 2 ^ 31) :
    (∀ hdrLen bodyLen, rtspFullMsgParse (msg ++ 0 :: behind) msg.length =
        .methodRcvd hdrLen bodyLen →
          0 ≤ hdrLen ∧ 0 ≤ bodyLen ∧ hdrLen + bodyLen ≤ msg.length) ↔ ¬ NegativeLength msg := by
  unfold NegativeLength
  rw [rtspFullMsgParse_eq hsize]
  by_cases h36 : msg.head? = some 36
  · rw [if_pos h36]
    refine iff_of_true (fun _ _ h => ?_) fun h => h.1 h36
    dsimp only at h
    split at h <;> cases h
  · rw [if_neg h36, found_lengths]
    constructor
    · rintro h ⟨-, len, bl, hread, hneg, hin⟩
      have := h len bl hread
      omega
    · intro h len bl hread
      by_contra hneg
      push Not at hneg
      exact h ⟨h36, len, bl, hread, hneg⟩

/-- The parser does at a buffer what is asked of it exactly when the message there
has no negative length, is no packet that lacks up to four bytes, and, if it is a
request or the front of one, is not cut where the end is not seen; and no request
is free of such places. -/
theorem framed_iff {szBuffRecv : List UInt8} {nMsgSize : Nat}
    (hnul : szBuffRecv[nMsgSize]? = some 0) (hsize : nMsgSize < 2 ^ 31) :
    (MessageFramed szBuffRecv nMsgSize ↔
      ¬ NegativeLength (szBuffRecv.take nMsgSize) ∧ ¬ ShortPacket szBuffRecv nMsgSize ∧
        ∀ q : WireRequest, Declares q.headers q.body.length → q.bytes.length < 2 ^ 31 →
          0 < nMsgSize → nMsgSize ≤ q.bytes.length →
            szBuffRecv.take nMsgSize = q.bytes.take nMsgSize → q.SeenAt nMsgSize) ∧
      ∀ q : WireRequest, q.bytes.length < 2 ^ 31 → ∃ cut, 0 < cut ∧ cut < q.bytes.length ∧
        ∀ behind, rtspFullMsgParse (q.bytes.take cut ++ 0 :: behind) cut ≠ .notFull := by
  refine ⟨?_, fun q => exists_cut_full q⟩
  obtain ⟨hlt, hzero⟩ := List.getElem?_eq_some_iff.1 hnul
  obtain ⟨msg, behind, rfl, rfl⟩ : ∃ msg behind, szBuffRecv = msg ++ 0 :: behind ∧
      nMsgSize = msg.length := by
    refine ⟨szBuffRecv.take nMsgSize, szBuffRecv.drop (nMsgSize + 1), ?_, ?_⟩
    · rw [← hzero, ← List.drop_eq_getElem_cons hlt, List.take_append_drop]
    · rw [List.length_take, Nat.min_eq_left hlt.le]
  rw [List.take_left]
  constructor
  · intro h
    refine ⟨(method_iff hsize).1 h.method, (interlvd_iff hsize).1 h.interlvd, ?_⟩
    intro q hdeclares hq hpos hle htake
    refine (@seenAt_iff behind q hdeclares hq _ hpos hle).1 ?_
    rw [← htake]
    exact h.request q hdeclares hq hpos hle (by rw [List.take_left]; exact htake)
  · rintro ⟨hnegative, hshort, hrequest⟩
    refine ⟨fun n s hrun => ?_, (method_iff hsize).2 hnegative, (interlvd_iff hsize).2 hshort, ?_⟩
    · cases n with
      | nil => exact Nat.zero_le _
      | cons u n =>
          have := (passes_le hrun).2 (List.cons_ne_nil u n)
          omega
    · intro q hdeclares hq hpos hle htake
      rw [List.take_left] at htake
      have hseen := (@seenAt_iff behind q hdeclares hq _ hpos hle).2
        (hrequest q hdeclares hq hpos hle htake)
      rw [← htake] at hseen
      exact hseen

/-- The first byte of a request is not a full message. -/
theorem framed_iff_first : MessageFramed [65, 0] 1 := by
  have hline : ∀ c ∈ ([65] : List UInt8), inLine c := List.all_eq_true.1 (by decide)
  refine (framed_iff rfl (by decide)).1.2 ⟨?_, ?_, ?_⟩
  · rintro ⟨-, len, bl, hread, -⟩
    have hcut := (readHeader_cutLine (List.cons_ne_nil 65 []) hline none).1
    exact nomatch hcut.symm.trans hread
  · rintro ⟨h36, -⟩
    exact absurd h36 (by decide)
  · intro q _ _ _ _ _
    have hbody : q.body.length + 4 ≤ (afterLine q.body q.headers).length := length_le_afterLine _ _
    have hstart := List.length_pos_of_ne_nil q.startLine_ne_nil
    have hbytes : q.bytes.length = q.startLine.text.length +
        (afterLine q.body q.headers).length := by
      rw [WireRequest.bytes, List.length_append]
    have hzero : 1 - q.startLine.text.length = 0 := by omega
    rw [WireRequest.SeenAt, if_pos (by omega), hzero]
    exact ⟨not_cutBeforeNumber_zero _, fun h => by omega⟩

/-- `OPTIONS`, with nothing more to it. -/
def bareRequest : WireRequest where
  startLine :=
    { text := ['O', 'P', 'T', 'I', 'O', 'N', 'S'].map Char.toUInt8
      ends := List.all_eq_true.1 (by decide)
      nonblank := by decide }
  headers := []
  body := []
  start := by decide

/-- Without its last byte it is a full method. -/
theorem not_framed : ¬∀ (szBuffRecv : List UInt8) (nMsgSize : Nat),
    szBuffRecv[nMsgSize]? = some 0 → nMsgSize < 2 ^ 31 → MessageFramed szBuffRecv nMsgSize := by
  intro h
  have hframed := h (bareRequest.bytes.take 10 ++ [0]) 10 (by decide) (by decide)
  have hshort := (hframed.request bareRequest rfl (by decide) (by decide) (by decide)
    (by decide)).1 (by decide)
  exact absurd hshort (by decide +kernel)

end Nvr.Rtsp
