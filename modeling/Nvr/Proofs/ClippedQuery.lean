import Nvr.Proofs.Ranges
import Nvr.Proofs.RoundTrip
import Nvr.Storage.Query

/-!
# What a query clips

A query of a window that cuts through a fragment is to report the stretch of the
fragment with all the I-frames of the window. Which loops are made, and at which
record each of them ends, decides what is reported; the first record of the
other loop is its last one, and behind it lies what is not the fragment's.
-/

namespace Nvr.Storage

open ByteFile

/-- A slot of the fragment. -/
def Own (bf : BasketFragment) (slot : Int32) : Prop :=
  bf.slot ≤ slot.toInt ∧ slot.toInt < bf.slot + bf.slots

section Loops

variable {dev : Dev} {idx : Nat} {bf : BasketFragment} {ss : List StoredFrame}

theorem toInt_ofNat_slots (hp : InFile bf) {j : Nat} (hj : j ≤ bf.slots) :
    (Int32.ofNat j).toInt = j := by
  have hlt := hp.slots_lt
  have h0 := hp.slot_nonneg
  exact Int32.toInt_ofNat_of_lt (by omega)

theorem toInt_slot (hp : InFile bf) {j : Nat} (hj : j ≤ bf.slots) :
    (bf.firstIframeIdx + Int32.ofNat j).toInt = bf.slot + j := by
  have hlt := hp.slots_lt
  have h0 := hp.slot_nonneg
  have hword := toInt_ofNat_slots hp hj
  have hfirst : bf.firstIframeIdx.toInt = bf.slot := rfl
  rw [Int32.toInt_add_of_range (by omega) (by omega), hword]

theorem own_slot (hp : InFile bf) {j : Nat} (hj : j < bf.slots) :
    Own bf (bf.firstIframeIdx + Int32.ofNat j) := by
  rw [Own, toInt_slot hp (by omega)]
  omega

theorem Recorded.lt_slots {file : ByteFile} (h : Recorded file bf ss) {j : Nat} {r : BasketIFrame}
    (hr : (recordsOf bf.pos ss)[j]? = some r) : j < bf.slots := by
  obtain ⟨hlt, -⟩ := List.getElem?_eq_some_iff.1 hr
  rw [length_recordsOf] at hlt
  rw [h.slots_eq]
  exact_mod_cast hlt

theorem Recorded.read_record (h : Recorded (dev.file (.basket idx)) bf ss) (hp : InFile bf)
    (henv : dev.env.Reliable) {j : Nat} {r : BasketIFrame}
    (hr : (recordsOf bf.pos ss)[j]? = some r) :
    strgBasketReadIframe dev idx (bf.firstIframeIdx + Int32.ofNat j) = some r := by
  have hj := h.lt_slots hr
  have hslot := toInt_slot hp (Int.le_of_lt hj)
  have h0 := hp.slot_nonneg
  have hmax := hp.slots_le
  refine strgBasketReadIframe_holds henv (recordsOf_magic hr) (by omega) (by omega) ?_
  rw [hslot]
  exact h.holds_record hp hr

/-- How the loop for the begin can end. -/
theorem scanBegin_spec (h : Recorded (dev.file (.basket idx)) bf ss) (hp : InFile bf)
    (henv : dev.env.Reliable) (beginTime : Int32) :
    ∀ (rounds : Nat) {m : Nat}, m ≤ bf.slots →
      (∀ k ∈ (scanBegin dev idx bf beginTime rounds (Int32.ofNat m)).slots, Own bf k) ∧
      ((scanBegin dev idx bf beginTime rounds (Int32.ofNat m)).scan = .running ∧
          rounds + m ≤ bf.slots ∨
        (scanBegin dev idx bf beginTime rounds (Int32.ofNat m)).scan = .passed ∧
          (∀ j r, m ≤ j → (recordsOf bf.pos ss)[j]? = some r → ¬beginTime < r.ts.tvSec) ∨
        ∃ j r, m ≤ j ∧ (recordsOf bf.pos ss)[j]? = some r ∧ beginTime < r.ts.tvSec ∧
          (∀ k r', m ≤ k → k < j → (recordsOf bf.pos ss)[k]? = some r' →
            ¬beginTime < r'.ts.tvSec) ∧
          (scanBegin dev idx bf beginTime rounds (Int32.ofNat m)).scan = .found (Int32.ofNat j) r) := by
  intro rounds
  induction rounds with
  | zero => exact fun hm => ⟨fun k hk => (by cases hk), .inl ⟨rfl, by omega⟩⟩
  | succ rounds ih =>
      intro m hm
      have hword := toInt_ofNat_slots hp hm
      have hnum : bf.iframeNum.toInt = bf.slots := rfl
      unfold scanBegin
      by_cases hlast : (m : Int) < bf.slots
      · have hlt : Int32.ofNat m < bf.iframeNum := Int32.lt_iff_toInt_lt.2 (by omega)
        have hlen : m < (recordsOf bf.pos ss).length := by
          rw [length_recordsOf]
          rw [h.slots_eq] at hlast
          exact_mod_cast hlast
        have hr := List.getElem?_eq_getElem hlen
        rw [if_pos hlt, h.read_record hp henv hr]
        dsimp only
        split
        · rename_i hlater
          refine ⟨fun k hk => ?_, .inr (.inr ⟨m, _, Nat.le_refl m, hr, hlater, ?_, rfl⟩)⟩
          · obtain rfl := List.mem_singleton.1 hk
            exact own_slot hp hlast
          · intro k _ hk hkm
            omega
        · rename_i hearlier
          have hnext : Int32.ofNat m + 1 = Int32.ofNat (m + 1) := (Int32.ofNat_add m 1).symm
          have hrest := ih (show ((m + 1 : Nat) : Int) ≤ bf.slots by omega)
          rw [hnext]
          refine ⟨fun k hk => ?_, ?_⟩
          · rcases List.mem_cons.1 hk with rfl | hk
            · exact own_slot hp hlast
            · exact hrest.1 k hk
          · rcases hrest.2 with ⟨hrun, hrounds⟩ | ⟨hpass, hall⟩ |
              ⟨j, r, hj, hjr, hlater, hfirst, hfound⟩
            · exact .inl ⟨hrun, by omega⟩
            · refine .inr (.inl ⟨hpass, fun j r hj hjr => ?_⟩)
              rcases Nat.eq_or_lt_of_le hj with rfl | hj
              · rw [hr] at hjr
                obtain rfl := Option.some.inj hjr
                exact hearlier
              · exact hall j r hj hjr
            · refine .inr (.inr ⟨j, r, by omega, hjr, hlater, fun k r' hk hkj hkr => ?_, hfound⟩)
              rcases Nat.eq_or_lt_of_le hk with rfl | hk
              · rw [hr] at hkr
                obtain rfl := Option.some.inj hkr
                exact hearlier
              · exact hfirst k r' hk hkj hkr
      · have hge : ¬Int32.ofNat m < bf.iframeNum := by
          rw [Int32.lt_iff_toInt_lt]
          omega
        rw [if_neg hge]
        refine ⟨fun k hk => (by cases hk), .inr (.inl ⟨rfl, fun j r hj hjr => ?_⟩)⟩
        have hlt := h.lt_slots hjr
        omega

/-- The last record of the fragment. -/
theorem Recorded.last_record {file : ByteFile} (h : Recorded file bf ss)
    (hpos : 0 < ss.countP StoredFrame.isIframe) :
    ∃ m r, bf.slots = (m + 1 : Nat) ∧ (recordsOf bf.pos ss)[m]? = some r := by
  have hlen : ss.countP StoredFrame.isIframe - 1 < (recordsOf bf.pos ss).length := by
    rw [length_recordsOf]
    omega
  refine ⟨_, _, ?_, List.getElem?_eq_getElem hlen⟩
  rw [h.slots_eq]
  omega

theorem lastIndex {m : Nat} (hp : InFile bf) (hm : bf.slots = (m + 1 : Nat)) :
    bf.iframeNum - 1 = Int32.ofNat m := by
  have hword := toInt_ofNat_slots hp (show (m : Int) ≤ bf.slots by omega)
  have hnum : bf.iframeNum.toInt = bf.slots := rfl
  have hlt := hp.slots_lt
  have h0 := hp.slot_nonneg
  have hone : (1 : Int32).toInt = 1 := rfl
  refine Int32.toInt_inj.1 ?_
  rw [Int32.toInt_sub_of_range (by omega) (by omega), hword]
  omega

/-- The loop for the end that stops at once. -/
theorem scanEnd_found (h : Recorded (dev.file (.basket idx)) bf ss) (hp : InFile bf)
    (henv : dev.env.Reliable) {endTime : Int32} {m : Nat} {r : BasketIFrame} (rounds : Nat)
    (hm : bf.slots = (m + 1 : Nat)) (hr : (recordsOf bf.pos ss)[m]? = some r)
    (hlater : endTime < r.ts.tvSec) :
    scanEnd dev idx bf endTime (rounds + 1) (bf.iframeNum - 1) =
      ⟨[bf.firstIframeIdx + Int32.ofNat m], .found (Int32.ofNat m) r⟩ := by
  have hge : Int32.ofNat m ≥ 0 := by
    refine Int32.le_iff_toInt_le.2 ?_
    rw [toInt_ofNat_slots hp (by omega)]
    exact Int.natCast_nonneg m
  rw [lastIndex hp hm, scanEnd, if_pos hge, h.read_record hp henv hr]
  exact if_pos hlater

/-- The loop for the end that does not stop at once leaves the fragment. -/
theorem scanEnd_past (h : Recorded (dev.file (.basket idx)) bf ss) (hp : InFile bf)
    (henv : dev.env.Reliable) {endTime : Int32} {m : Nat} {r : BasketIFrame} (rounds : Nat)
    (hm : bf.slots = (m + 1 : Nat)) (hr : (recordsOf bf.pos ss)[m]? = some r)
    (hearlier : ¬endTime < r.ts.tvSec) :
    (scanEnd dev idx bf endTime rounds (bf.iframeNum - 1)).scan = .running ∨
      ∃ k ∈ (scanEnd dev idx bf endTime rounds (bf.iframeNum - 1)).slots, ¬Own bf k := by
  have hslot : ∀ j : Nat, j ≤ bf.slots → Int32.ofNat j ≥ 0 := by
    intro j hj
    refine Int32.le_iff_toInt_le.2 ?_
    rw [toInt_ofNat_slots hp hj]
    exact Int.natCast_nonneg j
  have hout : ¬Own bf (bf.firstIframeIdx + Int32.ofNat (m + 1)) := by
    rw [Own, toInt_slot hp (by omega)]
    omega
  have hnext : Int32.ofNat m + 1 = Int32.ofNat (m + 1) := (Int32.ofNat_add m 1).symm
  rw [lastIndex hp hm]
  cases rounds with
  | zero => exact .inl rfl
  | succ rounds =>
      rw [scanEnd, if_pos (hslot m (by omega)), h.read_record hp henv hr]
      dsimp only
      rw [if_neg hearlier, hnext]
      cases rounds with
      | zero => exact .inl rfl
      | succ rounds =>
          right
          refine ⟨_, ?_, hout⟩
          rw [scanEnd, if_pos (hslot (m + 1) (by omega))]
          cases strgBasketReadIframe dev idx (bf.firstIframeIdx + Int32.ofNat (m + 1)) with
          | none => simp [IndexLoop.after]
          | some r' =>
              dsimp only
              split <;> simp [IndexLoop.after]

end Loops

/-! ## What is reported -/

/-- The window does not need the frame. -/
def Outside (beginTime endTime : Int32) (s : StoredFrame) : Prop :=
  s.isIframe = true → ¬(beginTime ≤ s.header.ts.tvSec ∧ s.header.ts.tvSec ≤ endTime)

/-- A session on what is reported gives back these frames and no more. -/
def Delivers (dev : Dev) (bgi : BasketGlobalInfo) (q : RecordQueryInfo)
    (frames : List StoredFrame) : Prop :=
  ∀ buffLen : Int32, (∀ s ∈ frames, Fits buffLen s) →
    ∃ bri sfi dev' bgi', strgBasketReadStart dev bgi q = (some (bri, sfi), dev', bgi') ∧
      playback dev' bgi' .normal buffLen (frames.length + 1) bri =
        frames.map StoredFrame.result ++ [.done]

/-- The query comes to its end, reads only slots of the fragment, and reports a
stretch of it that has all the I-frames of the window and plays back as such. -/
def Clipped (dev : Dev) (diskIdx : Int32) (bgi : BasketGlobalInfo) (bf : BasketFragment)
    (bfIdx : Int32) (ss : List StoredFrame) (beginTime endTime : Int32) : Prop :=
  ∃ rounds slots q before frames after,
    strgBasketQuery rounds dev diskIdx bgi bf bfIdx beginTime endTime = ⟨slots, .reported q⟩ ∧
      (∀ k ∈ slots, Own bf k) ∧ ss = before ++ frames ++ after ∧
      Range bf before frames after q ∧ (∀ s ∈ before ++ after, Outside beginTime endTime s) ∧
      Delivers dev bgi q frames

/-- The loop for the begin finds nothing and the fragment begins with an I-frame,
or it finds the first record, and that is at slot 0. -/
def ClipsBegin (bf : BasketFragment) (rs : List BasketIFrame) (beginTime : Int32) : Prop :=
  ∃ r, rs[0]? = some r ∧
    (r.framePos = bf.beginFramePos ∧
        (bf.beginTime < beginTime → ∀ r' ∈ rs, ¬beginTime < r'.ts.tvSec) ∨
      bf.slot = 0 ∧ bf.beginTime < beginTime ∧ beginTime < r.ts.tvSec)

/-- There is no loop for the end, or it stops at its first record, which is not
the only one. -/
def ClipsEnd (bf : BasketFragment) (rs : List BasketIFrame) (endTime : Int32) : Prop :=
  bf.endTime ≤ endTime ∨ ∃ m r, rs.length = m + 2 ∧ rs[m + 1]? = some r ∧ endTime < r.ts.tvSec

section Query

variable {dev : Dev} {bgi : BasketGlobalInfo} {bf : BasketFragment} {ss : List StoredFrame}
  {beginTime endTime : Int32}

theorem around_eq {t : Int32} :
    bf.around t = true ↔ bf.beginTime < t ∧ t < bf.endTime := by
  simp [BasketFragment.around]

theorem strgBasketQuery_eq (henv : dev.env.Reliable) (rounds : Nat) (diskIdx bfIdx : Int32) :
    strgBasketQuery rounds dev diskIdx bgi bf bfIdx beginTime endTime =
      match (queryHead rounds dev.wait bgi.basketIdx bf beginTime).scan.stops with
      | some result => ⟨(queryHead rounds dev.wait bgi.basketIdx bf beginTime).slots, result⟩
      | none =>
          match (queryTail rounds dev.wait bgi.basketIdx bf endTime).scan.stops with
          | some result =>
              ⟨(queryHead rounds dev.wait bgi.basketIdx bf beginTime).slots ++
                (queryTail rounds dev.wait bgi.basketIdx bf endTime).slots, result⟩
          | none =>
              ⟨(queryHead rounds dev.wait bgi.basketIdx bf beginTime).slots ++
                (queryTail rounds dev.wait bgi.basketIdx bf endTime).slots,
                .reported (queryInfo diskIdx bgi bf bfIdx
                  ((queryHead rounds dev.wait bgi.basketIdx bf beginTime).scan.beginEdge bf)
                  ((queryTail rounds dev.wait bgi.basketIdx bf endTime).scan.endEdge bf))⟩ := by
  unfold strgBasketQuery
  simp only [strgBasketOpen, if_pos (henv.openOk _)]
  rfl

theorem reported_of_query (henv : dev.env.Reliable) {rounds : Nat} {diskIdx bfIdx : Int32}
    {slots : List Int32} {q : RecordQueryInfo}
    (h : strgBasketQuery rounds dev diskIdx bgi bf bfIdx beginTime endTime = ⟨slots, .reported q⟩) :
    (queryHead rounds dev.wait bgi.basketIdx bf beginTime).scan ≠ .running ∧
      (queryTail rounds dev.wait bgi.basketIdx bf endTime).scan ≠ .running ∧
      slots = (queryHead rounds dev.wait bgi.basketIdx bf beginTime).slots ++
        (queryTail rounds dev.wait bgi.basketIdx bf endTime).slots ∧
      q = queryInfo diskIdx bgi bf bfIdx
        ((queryHead rounds dev.wait bgi.basketIdx bf beginTime).scan.beginEdge bf)
        ((queryTail rounds dev.wait bgi.basketIdx bf endTime).scan.endEdge bf) := by
  rw [strgBasketQuery_eq henv] at h
  split at h
  · rename_i result hstops
    injection h with _ hresult
    subst hresult
    unfold IndexScan.stops at hstops
    split at hstops <;> cases hstops
  · rename_i hhead
    split at h
    · rename_i result hstops
      injection h with _ hresult
      subst hresult
      unfold IndexScan.stops at hstops
      split at hstops <;> cases hstops
    · rename_i htail
      injection h with hslots hresult
      injection hresult with hq
      refine ⟨fun hrun => ?_, fun hrun => ?_, hslots.symm, hq.symm⟩
      · rw [hrun] at hhead
        cases hhead
      · rw [hrun] at htail
        cases htail

/-- What becomes of the loop for the begin. -/
theorem queryHead_cases (hrec : Recorded (dev.file (.basket bgi.basketIdx)) bf ss)
    (hp : InFile bf) (henv : dev.env.Reliable) (hover : beginTime < bf.endTime) (rounds : Nat) :
    (∀ k ∈ (queryHead rounds dev.wait bgi.basketIdx bf beginTime).slots, Own bf k) ∧
      ((queryHead rounds dev.wait bgi.basketIdx bf beginTime).scan = .running ∧
          rounds ≤ bf.slots ∨
        (queryHead rounds dev.wait bgi.basketIdx bf beginTime).scan = .passed ∧
          (bf.beginTime < beginTime → ∀ r ∈ recordsOf bf.pos ss, ¬beginTime < r.ts.tvSec) ∨
        ∃ j r, bf.beginTime < beginTime ∧ (recordsOf bf.pos ss)[j]? = some r ∧
          beginTime < r.ts.tvSec ∧
          (∀ k r', k < j → (recordsOf bf.pos ss)[k]? = some r' → ¬beginTime < r'.ts.tvSec) ∧
          (queryHead rounds dev.wait bgi.basketIdx bf beginTime).scan =
            .found (Int32.ofNat j) r) := by
  have hwait : dev.wait.env.Reliable := henv
  have hfile : Recorded (dev.wait.file (.basket bgi.basketIdx)) bf ss := hrec
  unfold queryHead
  split
  · rename_i haround
    have hlate := (around_eq.1 haround).1
    have h0 := hp.slots_nonneg
    obtain ⟨hown, hcases⟩ := scanBegin_spec (m := 0) hfile hp hwait beginTime rounds h0
    refine ⟨hown, ?_⟩
    rcases hcases with ⟨hrun, hrounds⟩ | ⟨hpass, hall⟩ |
      ⟨j, r, -, hr, hlater, hfirst, hfound⟩
    · exact .inl ⟨hrun, by omega⟩
    · refine .inr (.inl ⟨hpass, fun _ r hr => ?_⟩)
      obtain ⟨j, hj⟩ := List.mem_iff_getElem?.1 hr
      exact hall j r (Nat.zero_le j) hj
    · exact .inr (.inr ⟨j, r, hlate, hr, hlater,
        fun k r' hk => hfirst k r' (Nat.zero_le k) hk, hfound⟩)
  · rename_i haround
    refine ⟨fun k hk => (by cases hk), .inr (.inl ⟨rfl, fun hlate => ?_⟩)⟩
    exact absurd (around_eq.2 ⟨hlate, hover⟩) haround

/-- What becomes of the loop for the end. -/
theorem queryTail_cases (hrec : Recorded (dev.file (.basket bgi.basketIdx)) bf ss)
    (hp : InFile bf) (henv : dev.env.Reliable) (hover : bf.beginTime < endTime) {m : Nat}
    {r : BasketIFrame}
    (hm : bf.slots = (m + 1 : Nat)) (hr : (recordsOf bf.pos ss)[m]? = some r) (rounds : Nat) :
    bf.endTime ≤ endTime ∧
        queryTail rounds dev.wait bgi.basketIdx bf endTime = ⟨[], .passed⟩ ∨
      endTime < bf.endTime ∧ endTime < r.ts.tvSec ∧
        (0 < rounds → queryTail rounds dev.wait bgi.basketIdx bf endTime =
          ⟨[bf.firstIframeIdx + Int32.ofNat m], .found (Int32.ofNat m) r⟩) ∧
        (rounds = 0 → (queryTail rounds dev.wait bgi.basketIdx bf endTime).scan = .running) ∨
      (endTime < bf.endTime ∧ ¬endTime < r.ts.tvSec) ∧
        ((queryTail rounds dev.wait bgi.basketIdx bf endTime).scan = .running ∨
          ∃ k ∈ (queryTail rounds dev.wait bgi.basketIdx bf endTime).slots, ¬Own bf k) := by
  have hwait : dev.wait.env.Reliable := henv
  have hfile : Recorded (dev.wait.file (.basket bgi.basketIdx)) bf ss := hrec
  unfold queryTail
  split
  · rename_i haround
    have hearly := (around_eq.1 haround).2
    by_cases hlater : endTime < r.ts.tvSec
    · refine .inr (.inl ⟨hearly, hlater, fun hrounds => ?_, fun hrounds => ?_⟩)
      · obtain ⟨n, rfl⟩ := Nat.exists_eq_add_of_lt hrounds
        rw [Nat.zero_add]
        exact scanEnd_found hfile hp hwait n hm hr hlater
      · rw [hrounds]
        rfl
    · exact .inr (.inr ⟨⟨hearly, hlater⟩, scanEnd_past hfile hp hwait rounds hm hr hlater⟩)
  · rename_i haround
    refine .inl ⟨?_, rfl⟩
    by_contra hle
    exact haround (around_eq.2 ⟨hover, Int32.not_le.1 hle⟩)

end Query

/-! ## Places in a stream -/

section Places

variable {a b c d : List StoredFrame}

theorem countP_eq_zero_of_head (h : ∀ s ∈ a.head?, s.isIframe = true)
    (hzero : a.countP StoredFrame.isIframe = 0) : a = [] := by
  cases a with
  | nil => rfl
  | cons s a =>
      rw [List.countP_cons_of_pos (h s rfl)] at hzero
      omega

/-- Two places before an I-frame, or at the end, with as many I-frames before
them are one place. -/
theorem eq_of_countP (h : a ++ b = c ++ d) (hb : ∀ s ∈ b.head?, s.isIframe = true)
    (hd : ∀ s ∈ d.head?, s.isIframe = true)
    (hcount : a.countP StoredFrame.isIframe = c.countP StoredFrame.isIframe) : a = c := by
  rcases List.append_eq_append_iff.1 h with ⟨x, rfl, rfl⟩ | ⟨x, rfl, rfl⟩
  · have hx : x = [] := by
      refine countP_eq_zero_of_head (fun s hs => hb s ?_) ?_
      · rw [List.head?_append, hs]
        rfl
      · rw [List.countP_append] at hcount
        omega
    rw [hx, List.append_nil]
  · have hx : x = [] := by
      refine countP_eq_zero_of_head (fun s hs => hd s ?_) ?_
      · rw [List.head?_append, hs]
        rfl
      · rw [List.countP_append] at hcount
        omega
    rw [hx, List.append_nil]

/-- A place with fewer I-frames before it comes first. -/
theorem exists_of_countP_lt (h : a ++ b = c ++ d)
    (hcount : a.countP StoredFrame.isIframe < c.countP StoredFrame.isIframe) :
    ∃ s x, c = a ++ s :: x ∧ b = s :: x ++ d := by
  rcases List.append_eq_append_iff.1 h with ⟨x, rfl, rfl⟩ | ⟨x, rfl, rfl⟩
  · cases x with
    | nil =>
        rw [List.append_nil] at hcount
        omega
    | cons s x => exact ⟨s, x, rfl, rfl⟩
  · rw [List.countP_append] at hcount
    omega

theorem eq_nil_of_streamBytes (h : (streamBytes a).length = 0) : a = [] := by
  cases a with
  | nil => rfl
  | cons s a =>
      have hlen : basketFrameLen = 68 := rfl
      rw [streamBytes_cons, List.length_append, s.length_bytes] at h
      omega

end Places

/-- The edge `e` is the place between `upto` and `rest`. -/
structure EdgeAt (bf : BasketFragment) (e : Edge) (upto rest : List StoredFrame) : Prop where
  iframeIdx : e.iframeIdx.toInt = bf.slot + upto.countP StoredFrame.isIframe
  framePos : e.framePos.toInt = bf.pos + (streamBytes upto).length
  next : ∀ s ∈ rest.head?, s.isIframe = true

section Edges

variable {file : ByteFile} {bf : BasketFragment} {ss : List StoredFrame}

theorem Recorded.framePos (h : Recorded file bf ss) (hp : InFile bf) {j : Nat} {r : BasketIFrame}
    (hr : (recordsOf bf.pos ss)[j]? = some r) :
    ∃ upto s rest, ss = upto ++ s :: rest ∧ s.isIframe = true ∧
      upto.countP StoredFrame.isIframe = j ∧ s.header.ts = r.ts ∧
      r.framePos.toInt32.toInt = bf.pos + (streamBytes upto).length := by
  obtain ⟨upto, s, rest, rfl, hs, hcount, rfl⟩ := exists_of_recordsOf hr
  refine ⟨upto, s, rest, rfl, hs, hcount, rfl, ?_⟩
  have hbytes := h.bytes
  have hlt := hp.pos_lt
  rw [streamBytes_append, List.length_append] at hbytes
  have hword : (s.record (bf.pos + (streamBytes upto).length)).framePos.toNat =
      bf.pos + (streamBytes upto).length := by
    show (UInt32.ofNat _).toNat = _
    rw [UInt32.toNat_ofNat']
    omega
  rw [UInt32.toInt_toInt32_of_lt (by omega), hword]
  push_cast
  rfl

theorem edgeAt_end (h : Recorded file bf ss) (hp : InFile bf) :
    EdgeAt bf (IndexScan.passed.endEdge bf) ss [] where
  iframeIdx := by
    have hlt := hp.slots_lt
    have h0 := hp.slot_nonneg
    have h0' := hp.slots_nonneg
    have hfirst : bf.firstIframeIdx.toInt = bf.slot := rfl
    have hnum : bf.iframeNum.toInt = bf.slots := rfl
    show (bf.firstIframeIdx + bf.iframeNum).toInt = _
    rw [Int32.toInt_add_of_range (by omega) (by omega), hfirst, hnum, h.slots_eq]
  framePos := by
    have hlt := hp.pos_lt
    have hpos : bf.beginFramePos.toNat = bf.pos := rfl
    have hsize : bf.fragmentSize.toNat = bf.bytes := rfl
    show (bf.beginFramePos + bf.fragmentSize).toInt32.toInt = _
    have hword : (bf.beginFramePos + bf.fragmentSize).toNat = bf.pos + bf.bytes :=
      UInt32.toNat_add_of_lt' (by omega)
    rw [UInt32.toInt_toInt32_of_lt (by omega), hword, h.bytes]
    push_cast
    rfl
  next := by simp

theorem edgeAt_record (h : Recorded file bf ss) (hp : InFile bf) {j : Nat} {r : BasketIFrame}
    (hr : (recordsOf bf.pos ss)[j]? = some r) :
    ∃ upto s rest, ss = upto ++ s :: rest ∧ s.isIframe = true ∧ s.header.ts = r.ts ∧
      upto.countP StoredFrame.isIframe = j ∧
      EdgeAt bf ((IndexScan.found (Int32.ofNat j) r).endEdge bf) upto (s :: rest) := by
  obtain ⟨upto, s, rest, hss, hs, hcount, hts, hpos⟩ := h.framePos hp hr
  refine ⟨upto, s, rest, hss, hs, hts, hcount, ?_, hpos, ?_⟩
  · show (bf.firstIframeIdx + Int32.ofNat j).toInt = _
    rw [toInt_slot hp (Int.le_of_lt (h.lt_slots hr)), hcount]
  · intro s' hs'
    obtain rfl := Option.some.inj hs'
    exact hs

end Edges

section Clipping

variable {dev : Dev} {diskIdx bfIdx : Int32} {bgi : BasketGlobalInfo} {bf : BasketFragment}
  {ss before frames after upto rest : List StoredFrame} {beginTime endTime : Int32}
  {first last : Edge} {file : ByteFile}

/-- The edges of a report that is a stretch of the fragment are the edges of
that stretch. -/
theorem Range.edges (hq : Range bf before frames after (queryInfo diskIdx bgi bf bfIdx first last))
    (h : Recorded file bf (before ++ frames ++ after)) (hp : InFile bf)
    (he : EdgeAt bf last upto rest) (hss : before ++ frames ++ after = upto ++ rest)
    (hpos : 0 ≤ first.framePos.toInt) :
    first.iframeIdx.toInt = bf.slot + before.countP StoredFrame.isIframe ∧
      upto = before ++ frames ∧ first.framePos.toInt = startPos bf before := by
  have hfirst : first.iframeIdx.toInt = bf.slot + before.countP StoredFrame.isIframe := hq.first
  have hnum : (last.iframeIdx - first.iframeIdx).toInt = frames.countP StoredFrame.isIframe := hq.num
  have hsize : (last.framePos - first.framePos).toInt = (streamBytes frames).length := hq.size
  have hidx := he.iframeIdx
  have hlast := he.framePos
  have hslots := h.slots_eq
  have hbytes := h.bytes
  have hslots' := hslots
  rw [hss, List.countP_append] at hslots'
  rw [List.countP_append, List.countP_append] at hslots
  have hbytes' := hbytes
  rw [hss, streamBytes_append, List.length_append] at hbytes'
  rw [streamBytes_append, streamBytes_append, List.length_append, List.length_append] at hbytes
  have h0 := hp.slot_nonneg
  have hslots_lt := hp.slots_lt
  have hpos_lt := hp.pos_lt
  have hfirst_lt := first.framePos.toInt_lt
  rw [Int32.toInt_sub_of_range (by omega) (by omega)] at hnum
  rw [Int32.toInt_sub_of_range (by omega) (by omega)] at hsize
  have hupto : upto = before ++ frames := by
    refine eq_of_countP hss.symm he.next hq.ends ?_
    rw [List.countP_append]
    omega
  refine ⟨hfirst, hupto, ?_⟩
  rw [hupto, streamBytes_append, List.length_append] at hlast
  unfold startPos
  push_cast at hlast ⊢
  omega

theorem range_of_edges (h : Recorded file bf (before ++ frames ++ after)) (hp : InFile bf)
    (hidx : first.iframeIdx.toInt = bf.slot + before.countP StoredFrame.isIframe)
    (hpos : first.framePos.toInt = startPos bf before)
    (he : EdgeAt bf last (before ++ frames) after)
    (hstarts : ∃ s rest, frames = s :: rest ∧ s.isIframe = true) :
    Range bf before frames after (queryInfo diskIdx bgi bf bfIdx first last) := by
  have hlast := he.iframeIdx
  have hend := he.framePos
  have hslots := h.slots_eq
  have hbytes := h.bytes
  rw [List.countP_append, List.countP_append] at hslots
  rw [streamBytes_append, streamBytes_append, List.length_append, List.length_append] at hbytes
  rw [List.countP_append] at hlast
  rw [streamBytes_append, List.length_append] at hend
  have h0 := hp.slot_nonneg
  have hslots_lt := hp.slots_lt
  have hpos_lt := hp.pos_lt
  unfold startPos at hpos
  refine ⟨hidx, ?_, ?_, hstarts, he.next⟩
  · show (last.iframeIdx - first.iframeIdx).toInt = _
    rw [Int32.toInt_sub_of_range (by omega) (by omega)]
    omega
  · show (last.framePos - first.framePos).toInt = _
    rw [Int32.toInt_sub_of_range (by omega) (by omega)]
    omega

/-- What is reported as a stretch is so for one of these reasons. -/
theorem clips_of_clipped (henv : dev.env.Reliable) (hp : InFile bf)
    (hrec : Recorded (dev.file (.basket bgi.basketIdx)) bf ss) (hbegin : beginTime < bf.endTime)
    (hend : bf.beginTime < endTime)
    (h : Clipped dev diskIdx bgi bf bfIdx ss beginTime endTime) :
    ClipsBegin bf (recordsOf bf.pos ss) beginTime ∧ ClipsEnd bf (recordsOf bf.pos ss) endTime := by
  obtain ⟨rounds, slots, q, before, frames, after, hquery, hown, rfl, hq, -, -⟩ := h
  obtain ⟨hhead, htail, rfl, rfl⟩ := reported_of_query henv hquery
  have hcount := hq.first_lt hrec
  have hpositive : 0 < (before ++ frames ++ after).countP StoredFrame.isIframe := by
    rw [List.countP_append, List.countP_append]
    omega
  obtain ⟨m, r, hm, hr⟩ := hrec.last_record hpositive
  have hlen : (recordsOf bf.pos (before ++ frames ++ after)).length = m + 1 := by
    have hslots := hrec.slots_eq
    rw [length_recordsOf]
    omega
  obtain ⟨upto, rest, hss, he, hclipsEnd⟩ : ∃ upto rest, before ++ frames ++ after = upto ++ rest ∧
      EdgeAt bf ((queryTail rounds dev.wait bgi.basketIdx bf endTime).scan.endEdge bf) upto rest ∧
      (upto = before ++ frames →
        ClipsEnd bf (recordsOf bf.pos (before ++ frames ++ after)) endTime) := by
    rcases queryTail_cases hrec hp henv hend hm hr rounds with
      ⟨hlate, hpassed⟩ | ⟨-, hlater, hfound, hrun⟩ | ⟨-, hrun | ⟨k, hk, hout⟩⟩
    · rw [hpassed]
      exact ⟨_, [], (List.append_nil _).symm, edgeAt_end hrec hp, fun _ => .inl hlate⟩
    · rcases Nat.eq_zero_or_pos rounds with h0 | hpos
      · exact absurd (hrun h0) htail
      rw [hfound hpos]
      obtain ⟨upto, s, rest, hss, -, -, hcnt, he⟩ := edgeAt_record hrec hp hr
      refine ⟨upto, s :: rest, hss, he, fun hupto => .inr ?_⟩
      obtain ⟨n, rfl⟩ : ∃ n, m = n + 1 := by
        rw [hupto, List.countP_append] at hcnt
        exact Nat.exists_eq_succ_of_ne_zero (by omega)
      exact ⟨n, r, hlen, hr, hlater⟩
    · exact absurd hrun htail
    · exact absurd (hown k (List.mem_append_right _ hk)) hout
  rcases (queryHead_cases hrec hp henv hbegin rounds).2 with
    ⟨hrun, -⟩ | ⟨hpassed, hall⟩ | ⟨j, r', hlate, hr', hlater, -, hfound⟩
  · exact absurd hrun hhead
  · rw [hpassed] at hq
    have hpos : (IndexScan.passed.beginEdge bf).framePos.toInt = bf.pos := by
      have hlt := hp.pos_lt
      exact UInt32.toInt_toInt32_of_lt (by
        show bf.pos < _
        omega)
    obtain ⟨hidx, hupto, hstart⟩ := hq.edges hrec hp he hss (by rw [hpos]; omega)
    refine ⟨?_, hclipsEnd hupto⟩
    have hzero : before = [] := by
      rw [hpos] at hstart
      unfold startPos at hstart
      exact eq_nil_of_streamBytes (by omega)
    subst hzero
    obtain ⟨s, rest', rfl, hs⟩ := hq.starts
    refine ⟨s.record bf.pos, ?_, .inl ⟨?_, hall⟩⟩
    · rw [List.nil_append, List.cons_append, recordsOf_cons_iframe hs]
      rfl
    · exact UInt32.ofNat_toNat
  · rw [hfound] at hq
    obtain ⟨uptoJ, sJ, restJ, hssJ, -, hcntJ, -, hposJ⟩ := hrec.framePos hp hr'
    obtain ⟨hidx, hupto, hstart⟩ := hq.edges hrec hp he hss (by
      show 0 ≤ r'.framePos.toInt32.toInt
      omega)
    refine ⟨?_, hclipsEnd hupto⟩
    have hstart' : r'.framePos.toInt32.toInt = startPos bf before := hstart
    have hslot := hp.slot_nonneg
    have hzero : (0 : Int32).toInt = 0 := rfl
    cases j with
    | zero =>
        refine ⟨r', hr', .inr ⟨?_, hlate, hlater⟩⟩
        have hidx' : (0 : Int32).toInt = bf.slot + before.countP StoredFrame.isIframe := hidx
        omega
    | succ j =>
        -- the stretch would begin before the frame at which it is said to begin
        exfalso
        have hj : (Int32.ofNat (j + 1)).toInt = (j + 1 : Nat) :=
          toInt_ofNat_slots hp (Int.le_of_lt (hrec.lt_slots hr'))
        have hgt : Int32.ofNat (j + 1) > 0 := Int32.lt_iff_toInt_lt.2 (by omega)
        have hidx' : (if Int32.ofNat (j + 1) > 0 then Int32.ofNat (j + 1) - 1 else 0).toInt =
            bf.slot + before.countP StoredFrame.isIframe := hidx
        have hone : (1 : Int32).toInt = 1 := rfl
        have hlt := hp.slots_lt
        have hjlt := hrec.lt_slots hr'
        rw [if_pos hgt, Int32.toInt_sub_of_range (by omega) (by omega), hj, hone] at hidx'
        rw [List.append_assoc] at hssJ
        obtain ⟨s, x, rfl, -⟩ := exists_of_countP_lt hssJ (by omega)
        have hlen68 : basketFrameLen = 68 := rfl
        rw [hposJ, streamBytes_append, streamBytes_cons, List.length_append,
          List.length_append, s.length_bytes] at hstart'
        unfold startPos at hstart'
        push_cast at hstart'
        omega

/-- Where the report begins. -/
theorem ClipsBegin.edge (hc : ClipsBegin bf (recordsOf bf.pos ss) beginTime)
    (henv : dev.env.Reliable) (hp : InFile bf)
    (hrec : Recorded (dev.file (.basket bgi.basketIdx)) bf ss) (hbegin : beginTime < bf.endTime)
    {rounds : Nat} (hrounds : bf.slots < rounds) :
    (∀ k ∈ (queryHead rounds dev.wait bgi.basketIdx bf beginTime).slots, Own bf k) ∧
      (queryHead rounds dev.wait bgi.basketIdx bf beginTime).scan.stops = none ∧
      ∃ before s rest, ss = before ++ s :: rest ∧ s.isIframe = true ∧
        before.countP StoredFrame.isIframe = 0 ∧
        ((queryHead rounds dev.wait bgi.basketIdx bf beginTime).scan.beginEdge bf).iframeIdx.toInt =
          bf.slot ∧
        ((queryHead rounds dev.wait bgi.basketIdx bf beginTime).scan.beginEdge bf).framePos.toInt =
          startPos bf before := by
  obtain ⟨r, hr, hcases⟩ := hc
  obtain ⟨hown, hscan⟩ := queryHead_cases hrec hp henv hbegin rounds
  obtain ⟨before, s, rest, hss, hs, hcount, -, hpos⟩ := hrec.framePos hp hr
  refine ⟨hown, ?_⟩
  rcases hscan with ⟨-, hle⟩ | ⟨hpassed, hall⟩ | ⟨j, r', hlate, hr', hlater, hfirst, hfound⟩
  · omega
  · rw [hpassed]
    refine ⟨rfl, before, s, rest, hss, hs, hcount, rfl, ?_⟩
    rcases hcases with ⟨hsame, -⟩ | ⟨-, hlate, hlater⟩
    · rw [hsame] at hpos
      exact hpos
    · exact absurd hlater (hall hlate r (List.mem_of_getElem? hr))
  · rcases hcases with ⟨-, hall⟩ | ⟨hzero, -, hlater'⟩
    · exact absurd hlater (hall hlate r' (List.mem_of_getElem? hr'))
    · obtain rfl : j = 0 := by
        by_contra hj
        exact hfirst 0 r (Nat.pos_of_ne_zero hj) hr hlater'
      obtain rfl := Option.some.inj (hr.symm.trans hr')
      rw [hfound]
      exact ⟨rfl, before, s, rest, hss, hs, hcount, hzero.symm, hpos⟩

/-- Where the report ends. -/
theorem ClipsEnd.edge (hc : ClipsEnd bf (recordsOf bf.pos ss) endTime)
    (henv : dev.env.Reliable) (hp : InFile bf)
    (hrec : Recorded (dev.file (.basket bgi.basketIdx)) bf ss) (hend : bf.beginTime < endTime)
    (hpositive : 0 < ss.countP StoredFrame.isIframe) {rounds : Nat} (hrounds : 0 < rounds) :
    (∀ k ∈ (queryTail rounds dev.wait bgi.basketIdx bf endTime).slots, Own bf k) ∧
      (queryTail rounds dev.wait bgi.basketIdx bf endTime).scan.stops = none ∧
      ∃ upto rest, ss = upto ++ rest ∧ 0 < upto.countP StoredFrame.isIframe ∧
        (∀ s ∈ rest, s.isIframe = true → endTime < s.header.ts.tvSec) ∧
        EdgeAt bf ((queryTail rounds dev.wait bgi.basketIdx bf endTime).scan.endEdge bf)
          upto rest := by
  obtain ⟨m, r, hm, hr⟩ := hrec.last_record hpositive
  have hlen : (recordsOf bf.pos ss).length = m + 1 := by
    have hslots := hrec.slots_eq
    rw [length_recordsOf]
    omega
  rcases queryTail_cases hrec hp henv hend hm hr rounds with
    ⟨hlate, hpassed⟩ | ⟨hearly, hlater, hfound, -⟩ | ⟨⟨hearly, hnot⟩, -⟩
  · rw [hpassed]
    exact ⟨by simp, rfl, ss, [], (List.append_nil _).symm, hpositive, by simp,
      edgeAt_end hrec hp⟩
  · rw [hfound hrounds]
    obtain ⟨upto, s, rest, hss, hs, hts, hcount, he⟩ := edgeAt_record hrec hp hr
    have hpos : 0 < m := by
      rcases hc with hle | ⟨n, _, hn, -⟩
      · exact absurd hle (Int32.not_le.2 hearly)
      · omega
    refine ⟨fun k hk => ?_, rfl, upto, s :: rest, hss, by omega, fun s' hs' => ?_, he⟩
    · obtain rfl := List.mem_singleton.1 hk
      exact own_slot hp (by omega)
    · intro hiframe
      have hrest : rest.countP StoredFrame.isIframe = 0 := by
        have hslots := hrec.slots_eq
        rw [hss, List.countP_append, List.countP_cons_of_pos hs] at hslots
        omega
      rcases List.mem_cons.1 hs' with rfl | hmem
      · rw [hts]
        exact hlater
      · exact absurd hiframe (List.countP_eq_zero.1 hrest s' hmem)
  · exfalso
    rcases hc with hle | ⟨n, r', hn, hr', hlater⟩
    · exact absurd hle (Int32.not_le.2 hearly)
    · obtain rfl : m = n + 1 := by omega
      obtain rfl := Option.some.inj (hr.symm.trans hr')
      exact hnot hlater

theorem Range.delivers {q : RecordQueryInfo} (hq : Range bf before frames after q)
    (henv : dev.env.Reliable) (hp : InFile bf)
    (hrec : Recorded (dev.file (.basket bgi.basketIdx)) bf (before ++ frames ++ after))
    (hlt : q.bfIdx.toUInt32 < bgi.bg.fragmentNum)
    (hbf : bgi.bfList[q.bfIdx.toUInt32.toNat]? = some bf) (hsound : ∀ s ∈ frames, s.Sound) :
    Delivers dev bgi q frames := by
  intro buffLen hfit
  obtain ⟨s, rest, hframes, -⟩ := hq.starts
  have hbuff : buffLen > 0 := (hfit s (by rw [hframes]; simp)).buffer_pos
  have hwait : dev.wait.env.Reliable := henv
  exact ⟨_, _, _, _, hq.readStart henv hrec hp hlt hbf,
    playback_normal dev.wait bgi.addReader hwait hbuff (hq.atStream hrec hp) hsound hfit
      (hrec.startPos_add_le hp) hrec.frames_at⟩

/-- With these reasons the stretch is reported. -/
theorem clipped_of_clips (henv : dev.env.Reliable) (hp : InFile bf)
    (hrec : Recorded (dev.file (.basket bgi.basketIdx)) bf ss) (hsound : ∀ s ∈ ss, s.Sound)
    (hlt : bfIdx.toUInt32 < bgi.bg.fragmentNum)
    (hbf : bgi.bfList[bfIdx.toUInt32.toNat]? = some bf) (hbegin : beginTime < bf.endTime)
    (hend : bf.beginTime < endTime) (hcb : ClipsBegin bf (recordsOf bf.pos ss) beginTime)
    (hce : ClipsEnd bf (recordsOf bf.pos ss) endTime) :
    Clipped dev diskIdx bgi bf bfIdx ss beginTime endTime := by
  have hslots := hp.slots_nonneg
  obtain ⟨rounds, hrounds⟩ : ∃ rounds : Nat, bf.slots < rounds := ⟨bf.slots.toNat + 1, by omega⟩
  have hpos' : 0 < rounds := by omega
  obtain ⟨hownHead, hhead, before, s, tail, hss, hs, hcount, hidx, hpos⟩ :=
    hcb.edge henv hp hrec hbegin hrounds
  have hpositive : 0 < ss.countP StoredFrame.isIframe := by
    rw [hss, List.countP_append, List.countP_cons_of_pos hs]
    omega
  obtain ⟨hownTail, htail, upto, rest, hss', hupto, hout, he⟩ :=
    hce.edge henv hp hrec hend hpositive hpos'
  obtain ⟨s', x, rfl, hx⟩ := exists_of_countP_lt (hss.symm.trans hss') (by omega)
  obtain ⟨rfl, -⟩ := List.cons.inj hx
  have hsplit : ss = before ++ s :: x ++ rest := hss'
  have hq : Range bf before (s :: x) rest (queryInfo diskIdx bgi bf bfIdx
      ((queryHead rounds dev.wait bgi.basketIdx bf beginTime).scan.beginEdge bf)
      ((queryTail rounds dev.wait bgi.basketIdx bf endTime).scan.endEdge bf)) :=
    range_of_edges (hsplit ▸ hrec) hp (by rw [hidx, hcount]; simp) hpos he ⟨s, x, rfl, hs⟩
  have hquery : strgBasketQuery rounds dev diskIdx bgi bf bfIdx beginTime endTime =
      ⟨(queryHead rounds dev.wait bgi.basketIdx bf beginTime).slots ++
        (queryTail rounds dev.wait bgi.basketIdx bf endTime).slots,
        .reported (queryInfo diskIdx bgi bf bfIdx
          ((queryHead rounds dev.wait bgi.basketIdx bf beginTime).scan.beginEdge bf)
          ((queryTail rounds dev.wait bgi.basketIdx bf endTime).scan.endEdge bf))⟩ := by
    rw [strgBasketQuery_eq henv, hhead]
    dsimp only
    rw [htail]
  refine ⟨rounds, _, _, before, s :: x, rest, hquery, ?_, hsplit, hq, ?_, ?_⟩
  · intro k hk
    rcases List.mem_append.1 hk with hk | hk
    · exact hownHead k hk
    · exact hownTail k hk
  · intro t ht
    rcases List.mem_append.1 ht with hmem | hmem
    · exact fun hiframe => absurd hiframe (List.countP_eq_zero.1 hcount t hmem)
    · exact fun hiframe hin => Int32.not_le.2 (hout t hmem hiframe) hin.2
  · refine hq.delivers henv hp (hsplit ▸ hrec) hlt hbf fun t ht => hsound t ?_
    rw [hsplit]
    exact List.mem_append_left _ (List.mem_append_right _ ht)

/-- A query of a window that overlaps a fragment without containing it clips the
fragment exactly if the loop for the window's begin, when there is one, finds no
record or the first one at slot 0, and the loop for its end, when there is one,
stops at its first record. -/
theorem clipped_iff {i : Nat} (henv : dev.env.Reliable) (hlayout : Layout bgi)
    (hbf : bgi.bfList[i]? = some bf)
    (hrec : Recorded (dev.file (.basket bgi.basketIdx)) bf ss) (hsound : ∀ s ∈ ss, s.Sound)
    (hbegin : beginTime < bf.endTime) (hend : bf.beginTime < endTime) :
    Clipped dev diskIdx bgi bf (Int32.ofNat i) ss beginTime endTime ↔
      ClipsBegin bf (recordsOf bf.pos ss) beginTime ∧
        ClipsEnd bf (recordsOf bf.pos ss) endTime := by
  have hp := hlayout.inFile (List.mem_of_getElem? hbf)
  have hnum := hlayout.fragmentNum
  have hle := hlayout.fragmentNum_le
  have hmax : basketFragmentNum = 1024 := rfl
  obtain ⟨hi, -⟩ := List.getElem?_eq_some_iff.1 hbf
  have hword : (Int32.ofNat i).toUInt32.toNat = i := by
    rw [Int32.toUInt32_ofNat', UInt32.toNat_ofNat']
    omega
  have hlt : (Int32.ofNat i).toUInt32 < bgi.bg.fragmentNum := by
    rw [UInt32.lt_iff_toNat_lt, hword, hnum]
    exact hi
  constructor
  · exact clips_of_clipped henv hp hrec hbegin hend
  · rintro ⟨hcb, hce⟩
    exact clipped_of_clips henv hp hrec hsound hlt (by rwa [hword]) hbegin hend hcb hce

end Clipping

/-- Two I-frames that were recorded at these times. -/
def twoIframes : Basket := recordedAt [1000, 2000]

def twoStored : List StoredFrame := [storedAt 1000, storedAt 2000]

/-- The fragment that they are in. -/
def twoFragment : BasketFragment := twoIframes.bgi.bfList.getD 0 default

theorem twoIframes_layout : Layout twoIframes.bgi ∧ twoIframes.dev.env.Reliable :=
  recordedAt_layout rfl

theorem twoIframes_bf : twoIframes.bgi.bfList[0]? = some twoFragment := rfl

theorem twoIframes_recorded :
    Recorded (twoIframes.dev.file (.basket twoIframes.bgi.basketIdx)) twoFragment twoStored where
  bytes := by decide +kernel
  slots := rfl
  frames := by
    unfold Holds
    decide +kernel
  index := by
    unfold Holds
    decide

theorem twoStored_sound : ∀ s ∈ twoStored, s.Sound := by
  intro s hs
  rcases List.mem_cons.1 hs with rfl | hs
  · exact storedAt_sound 1000
  · obtain rfl := List.mem_singleton.1 hs
    exact storedAt_sound 2000

/-- The window ends between the two. -/
theorem clipped_iff_twoIframes :
    Clipped twoIframes.dev 0 twoIframes.bgi twoFragment (Int32.ofNat 0) twoStored 1000 1500 :=
  (clipped_iff twoIframes_layout.2 twoIframes_layout.1 twoIframes_bf twoIframes_recorded
    twoStored_sound rfl rfl).2
    ⟨⟨_, rfl, .inl ⟨by decide, fun h => absurd h (by decide)⟩⟩,
      .inr ⟨0, _, rfl, rfl, rfl⟩⟩

/-- A window that begins between the two. -/
theorem not_clipped :
    ¬∀ (dev : Dev) (diskIdx : Int32) (bgi : BasketGlobalInfo) (bf : BasketFragment) (i : Nat)
      (ss : List StoredFrame) (beginTime endTime : Int32), dev.env.Reliable → Layout bgi →
      bgi.bfList[i]? = some bf → Recorded (dev.file (.basket bgi.basketIdx)) bf ss →
      (∀ s ∈ ss, s.Sound) →
      (recordsOf bf.pos ss).Pairwise (fun r r' => r.ts.tvSec ≤ r'.ts.tvSec) →
      beginTime < bf.endTime → bf.beginTime < endTime →
      ¬(beginTime ≤ bf.beginTime ∧ bf.endTime ≤ endTime) →
      Clipped dev diskIdx bgi bf (Int32.ofNat i) ss beginTime endTime := by
  intro h
  obtain ⟨hlayout, henv⟩ := twoIframes_layout
  have hp := hlayout.inFile (List.mem_of_getElem? twoIframes_bf)
  have hclipped := h twoIframes.dev 0 twoIframes.bgi twoFragment 0 twoStored 1500 2500 henv hlayout
    twoIframes_bf twoIframes_recorded twoStored_sound (by decide) (by decide)
    (by decide) (by decide)
  obtain ⟨⟨r, hr, hcases⟩, -⟩ := clips_of_clipped henv hp twoIframes_recorded rfl
    rfl hclipped
  obtain rfl : (storedAt 1000).record twoFragment.pos = r := Option.some.inj hr
  rcases hcases with ⟨-, hall⟩ | ⟨-, -, hlater⟩
  · revert hall
    decide
  · revert hlater
    decide

end Nvr.Storage
