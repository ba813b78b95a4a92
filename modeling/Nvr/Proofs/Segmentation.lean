import Mathlib.Data.List.Sort
import Nvr.Lib.Tiling
import Nvr.Rtsp.Parse

/-!
# What the server makes of a stream cut into segments

A stream of the client is a row of messages, requests and interleaved packets;
TCP cuts it where it likes. The server takes every segment for itself: what is
no full message on its own is gone, and of what comes behind a full message
nothing is handled. So each request is handled, and nothing else is, exactly
when the segments are cut along the requests (`Separate`), and then only if
the end of each request is found where it is.
-/

namespace Nvr.Rtsp

open Tiling

/-! ## Messages -/

/-- The text of a line, without what ends it. -/
structure HdrLine where
  text : List UInt8
  ends : ∀ c ∈ text, inLine c
  nonblank : ∃ c ∈ text, ¬ isBlank c

/-- What goes over the wire behind the text of a line: its end, the lines that
follow with theirs, a line with nothing in it, and the body. -/
def afterLine (body : List UInt8) : List HdrLine → List UInt8
  | [] => [cr, lf, cr, lf] ++ body
  | h :: hs => [cr, lf] ++ h.text ++ afterLine body hs

/-- A request as it is written: its lines and its body, whatever the lines say
of the length of the body. It does not begin like a packet. -/
structure WireRequest where
  startLine : HdrLine
  headers : List HdrLine
  body : List UInt8
  start : startLine.text.head? ≠ some 36

def WireRequest.bytes (q : WireRequest) : List UInt8 :=
  q.startLine.text ++ afterLine q.body q.headers

/-- An RTP or RTCP packet between the requests. -/
structure WirePacket where
  channel : UInt8
  payload : List UInt8
  fits : payload.length < 2 ^ 16

def WirePacket.bytes (p : WirePacket) : List UInt8 :=
  [36, p.channel, UInt8.ofNat (p.payload.length / 256), UInt8.ofNat p.payload.length] ++ p.payload

inductive WireMessage where
  | request (q : WireRequest)
  | packet (p : WirePacket)

def WireMessage.bytes : WireMessage → List UInt8
  | .request q => q.bytes
  | .packet p => p.bytes

/-! ## Where the end of a request is found -/

/-- The text of a line from its first byte that is no space and no tab. -/
def HdrLine.field (h : HdrLine) : List UInt8 := h.text.dropWhile isBlank

/-- A colon or a space. -/
def isSep (c : UInt8) : Bool := c == 58 || c == 32

/-- What stands behind the name `Content-Length`, colons and spaces left out. -/
def HdrLine.lengthText (h : HdrLine) : List UInt8 :=
  (h.field.drop hdrContentLength.length).dropWhile isSep

/-- The body length that the header lines are read to give: the number behind
the first line that begins with `Content-Length`, whatever else there is in it. -/
def readLength (body behind : List UInt8) : List HdrLine → Option Int
  | [] => some 0
  | h :: hs =>
      if sameCaseless h.field hdrContentLength then
        if h.lengthText = [] then none
        else sscanfInt (h.lengthText ++ afterLine body hs ++ behind)
      else readLength body behind hs

/-- The line ends that a body begins with, which are taken to be more of the
line ends in front of it. -/
def leadingEols (body : List UInt8) : Nat := (body.takeWhile isEol).length

/-- A body of the length read, behind its leading line ends, ends inside the
message. -/
def WireRequest.EndFound (q : WireRequest) (behind : List UInt8) : Prop :=
  ∃ bl, readLength q.body behind q.headers = some bl ∧
    leadingEols q.body + bl ≤ q.body.length ∧
    0 ≤ (q.bytes.length - q.body.length + leadingEols q.body : Int) + bl

theorem WireRequest.length_le (q : WireRequest) :
    q.headers.length + q.body.length ≤ q.bytes.length := by
  have hafter (hs : List HdrLine) :
      hs.length + q.body.length ≤ (afterLine q.body hs).length := by
    induction hs with
    | nil =>
        rw [afterLine, List.length_append, List.length_nil]
        omega
    | cons h hs ih =>
        simp only [afterLine, List.length_append, List.length_cons, List.length_nil]
        omega
  have hlen := hafter q.headers
  rw [WireRequest.bytes, List.length_append]
  omega

/-- With the length read right, the end is found unless the body begins with a
line end. -/
theorem endFound_iff_of_readLength {q : WireRequest} {behind : List UInt8}
    (h : readLength q.body behind q.headers = some q.body.length) :
    q.EndFound behind ↔ leadingEols q.body = 0 := by
  unfold WireRequest.EndFound
  rw [h]
  constructor
  · rintro ⟨bl, hbl, hle, -⟩
    obtain rfl := Option.some.inj hbl
    omega
  · intro h0
    refine ⟨_, rfl, by omega, ?_⟩
    have := q.length_le
    omega

/-! ### A line at a time -/

theorem not_isEol {c : UInt8} (h : inLine c) : ¬ isEol c := by
  unfold inLine at h
  unfold isEol
  grind

theorem takeWhile_append_stop {p : UInt8 → Bool} {b : UInt8} (hb : ¬ p b) (t s : List UInt8) :
    (t ++ b :: s).takeWhile p = t.takeWhile p := by
  induction t with
  | nil => exact List.takeWhile_cons_of_neg hb
  | cons a t ih => rw [List.cons_append, List.takeWhile_cons, List.takeWhile_cons, ih]

theorem drop_front (a b c : List UInt8) : (a ++ b ++ c).drop a.length = b ++ c := by
  rw [List.append_assoc, List.drop_left]

theorem terminators_body {tc : Nat} (ws : Nat) (htc : 3 ≤ tc) (s : List UInt8) :
    terminators tc ws s = (tc + leadingEols s, ws) := by
  induction s generalizing tc with
  | nil => rfl
  | cons c s ih =>
      rw [terminators]
      by_cases hc : isEol c
      · rw [if_pos hc, ih (by omega), leadingEols, leadingEols, List.takeWhile_cons_of_pos hc,
          List.length_cons]
        exact Prod.ext (by simp only; omega) rfl
      · rw [if_neg hc, if_neg (by omega), leadingEols, List.takeWhile_cons_of_neg hc]
        rfl

theorem terminators_blanks (ws : Nat) {w s : List UInt8} (hw : ∀ c ∈ w, isBlank c) :
    terminators 2 ws (w ++ s) = terminators 2 (ws + w.length) s := by
  induction w generalizing ws with
  | nil => rfl
  | cons c w ih =>
      have hc := hw c (List.mem_cons_self ..)
      have heol : ¬ isEol c := by
        unfold isBlank at hc
        unfold isEol
        grind [cr, lf]
      rw [List.cons_append, terminators, if_neg heol, if_pos ⟨by omega, hc⟩,
        ih _ fun x hx => hw x (List.mem_cons_of_mem _ hx), List.length_cons]
      congr 1
      omega

theorem HdrLine.split (h : HdrLine) :
    ∃ w c s, h.text = w ++ h.field ∧ h.field = c :: s ∧ (∀ x ∈ w, isBlank x) ∧ ¬ isBlank c ∧
      ∀ x ∈ h.field, inLine x := by
  have htext := List.takeWhile_append_dropWhile (p := isBlank) (l := h.text)
  have hfield : h.field ≠ [] := by
    obtain ⟨c, hc, hblank⟩ := h.nonblank
    intro hnil
    exact hblank (List.dropWhile_eq_nil_iff.1 hnil c hc)
  obtain ⟨c, s, hcs⟩ := List.exists_cons_of_ne_nil hfield
  refine ⟨h.text.takeWhile isBlank, c, s, htext.symm, hcs, fun x hx => List.mem_takeWhile_imp hx,
    fun hc => ?_, fun x hx => h.ends x (htext ▸ List.mem_append_right _ hx)⟩
  have hhead := List.head?_dropWhile_not isBlank h.text
  rw [show h.text.dropWhile isBlank = c :: s from hcs] at hhead
  simp [hc] at hhead

/-- The pass over a line of the message, for the loop that stands at its text. -/
theorem fullMsgLines_line {pre t s whole : List UInt8} (behind : List UInt8) (fuel : Nat)
    (mb : Bool) (bl : Int) (hwhole : whole = pre ++ (t ++ cr :: lf :: s)) (ht : t ≠ [])
    (hline : ∀ c ∈ t, inLine c) :
    fullMsgLines (whole ++ behind) whole.length (fuel + 1) pre.length mb bl =
      let (tc, ws) := terminators 2 0 s
      let ml := pre.length + t.length + tc + ws
      if 2 < tc then
        let ml := ((ml + bl) % 2 ^ 32).toNat
        if ml ≤ whole.length then methodRcvd (whole ++ behind) whole.length ml bl else .notFull
      else if whole.length ≤ ml then .notFull
      else if mb = false ∧ sameCaseless ((whole ++ behind).drop ml) hdrContentLength then
        let ml := ml + hdrContentLength.length
        let skip := (whole.drop ml).takeWhile isSep
        let ml := ml + skip.length
        match sscanfInt ((whole ++ behind).drop ml) with
        | none => .error
        | some bl => fullMsgLines (whole ++ behind) whole.length fuel ml true bl
      else fullMsgLines (whole ++ behind) whole.length fuel ml mb bl := by
  have hlen : whole.length = pre.length + (t.length + (s.length + 2)) := by
    simp [hwhole]
  have hcontrol : ((whole ++ behind).drop pre.length).takeWhile inLine = t := by
    have hdrop : (whole ++ behind).drop pre.length = t ++ cr :: lf :: (s ++ behind) := by
      simp [hwhole]
    rw [hdrop, List.takeWhile_append_of_pos hline, List.takeWhile_cons_of_neg (by decide),
      List.append_nil]
  have hrest : whole.drop (pre.length + t.length) = cr :: lf :: s := by
    rw [hwhole, ← List.drop_drop, List.drop_left, List.drop_left]
  have hbehind : (whole ++ behind).drop (pre.length + t.length) = cr :: lf :: (s ++ behind) := by
    rw [hwhole, List.append_assoc, List.append_assoc, ← List.drop_drop, List.drop_left,
      List.drop_left, List.cons_append, List.cons_append]
  have hcr : (whole ++ behind).getD (pre.length + t.length) 0 = cr := by
    rw [List.getD_eq_getElem?_getD, ← Nat.add_zero (pre.length + t.length), ← List.getElem?_drop,
      hbehind]
    rfl
  have hlf : (whole ++ behind).getD (pre.length + t.length + 1) 0 = lf := by
    rw [List.getD_eq_getElem?_getD, ← List.getElem?_drop, hbehind]
    rfl
  have hterm : terminators 0 0 (cr :: lf :: s) = terminators 2 0 s := rfl
  have hpos : t.length ≠ 0 := fun h => ht (List.length_eq_zero_iff.1 h)
  rw [fullMsgLines, if_neg (by omega)]
  simp only [List.take_left, hcontrol, hrest, hterm, hcr, hlf]
  rw [if_neg hpos, if_neg (by omega)]
  have hne : ¬ cr = lf := by decide
  simp only [hne, and_false, or_false]
  rfl

theorem sscanfInt_range {s : List UInt8} {bl : Int} (h : sscanfInt s = some bl) :
    -2 ^ 31 ≤ bl ∧ bl < 2 ^ 31 := by
  have hclamp (i : Int) : -2 ^ 31 ≤ clampInt i ∧ clampInt i < 2 ^ 31 := by
    unfold clampInt
    omega
  unfold sscanfInt at h
  grind

/-- A text is compared with `Content-Length` up to a byte that is not in it, such
as the line end behind a line or the zero behind a message. -/
theorem sameCaseless_stop {c : UInt8} (hc : toLower c ∉ hdrContentLength.map toLower)
    (t s : List UInt8) :
    sameCaseless (t ++ c :: s) hdrContentLength = sameCaseless t hdrContentLength := by
  by_cases ht : hdrContentLength.length ≤ t.length
  · unfold sameCaseless
    rw [List.take_append_of_le_length ht]
  · -- a line that is too short is compared together with its line end
    have hlt : t.length < hdrContentLength.length := by omega
    have hmem : c ∈ (t ++ c :: s).take hdrContentLength.length := by
      obtain ⟨n, hn⟩ : ∃ n, hdrContentLength.length - t.length = n + 1 :=
        ⟨hdrContentLength.length - t.length - 1, by omega⟩
      rw [List.take_append, hn, List.take_succ_cons]
      exact List.mem_append_right _ (List.mem_cons_self ..)
    have hleft : sameCaseless (t ++ c :: s) hdrContentLength = false := by
      refine beq_eq_false_iff_ne.2 fun heq => ?_
      exact hc (heq ▸ List.mem_map_of_mem hmem)
    have hright : sameCaseless t hdrContentLength = false := by
      refine beq_eq_false_iff_ne.2 fun heq => ?_
      have hlength := congrArg List.length heq
      rw [List.length_map, List.length_map, List.take_of_length_le (by omega)] at hlength
      omega
    rw [hleft, hright]

/-- A line with a length: its name, what separates, and the text of the length. -/
theorem HdrLine.length_split {h : HdrLine} (hsame : sameCaseless h.field hdrContentLength) :
    ∃ name sep, h.field = name ++ (sep ++ h.lengthText) ∧
      name.length = hdrContentLength.length ∧
      ∀ s, (sep ++ (h.lengthText ++ cr :: s)).takeWhile isSep = sep := by
  refine ⟨h.field.take hdrContentLength.length,
    (h.field.drop hdrContentLength.length).takeWhile isSep, ?_, ?_, fun s => ?_⟩
  · rw [lengthText, List.takeWhile_append_dropWhile, List.take_append_drop]
  · have heq := congrArg List.length (beq_iff_eq.1 hsame)
    rwa [List.length_map, List.length_map] at heq
  · rw [← List.append_assoc, lengthText, List.takeWhile_append_dropWhile,
      takeWhile_append_stop (by decide)]

theorem afterLine_eq (body : List UInt8) (hs : List HdrLine) :
    ∃ s, afterLine body hs = cr :: lf :: s := by
  cases hs with
  | nil => exact ⟨_, rfl⟩
  | cons h hs => exact ⟨_, rfl⟩

/-- The loop ends where no line begins. -/
theorem fullMsgLines_noLine {buf s : List UInt8} {nMsgSize ml : Nat} (fuel : Nat) (mb : Bool)
    (bl : Int) (hml : ml ≤ nMsgSize) (hbuf : buf.drop ml = cr :: s) :
    fullMsgLines buf nMsgSize fuel ml mb bl = .error := by
  cases fuel with
  | zero => rfl
  | succ fuel =>
      rw [fullMsgLines, if_neg (by omega), hbuf, List.takeWhile_cons_of_neg (by decide)]
      exact if_pos rfl

theorem leadingEols_le (body : List UInt8) : leadingEols body ≤ body.length :=
  (List.takeWhile_prefix _).length_le

/-- The end of a message is found by going over its lines: from the text of one
line on, with the length read so far. -/
theorem fullMsgLines_isMethod {body behind whole : List UInt8} {hs : List HdrLine}
    {pre t : List UInt8} {fuel : Nat} {mb : Bool} {bl : Int}
    (hwhole : whole = pre ++ (t ++ afterLine body hs)) (ht : t ≠ []) (hline : ∀ c ∈ t, inLine c)
    (hfuel : hs.length < fuel) (hmb : mb = false → bl = 0) (hlow : -2 ^ 31 ≤ bl)
    (hhigh : bl < 2 ^ 31) (hlen : whole.length ≤ rtspMaxProtocolBuffer) :
    (fullMsgLines (whole ++ behind) whole.length fuel pre.length mb bl).isMethod ↔
      ∃ b, (if mb then some bl else readLength body behind hs) = some b ∧
        leadingEols body + b ≤ body.length ∧
        0 ≤ (whole.length - body.length + leadingEols body : Int) + b := by
  obtain ⟨fuel, rfl⟩ : ∃ n, fuel = n + 1 := ⟨fuel - 1, by omega⟩
  induction hs generalizing pre t fuel mb bl with
  | nil =>
      have hterm : terminators 2 0 (cr :: lf :: body) = (4 + leadingEols body, 0) :=
        terminators_body 0 (by omega) body
      have hlast : whole = pre ++ (t ++ cr :: lf :: (cr :: lf :: body)) := hwhole
      rw [fullMsgLines_line behind fuel mb bl hlast ht hline, hterm]
      simp only
      rw [if_pos (by omega)]
      have hbl : (if mb then some bl else readLength body behind []) = some bl := by
        cases mb with
        | false => rw [hmb rfl]; rfl
        | true => rfl
      rw [hbl]
      have hsum : whole.length = pre.length + t.length + 4 + body.length := by
        simp [hwhole, afterLine]
        omega
      have heols := leadingEols_le body
      unfold rtspMaxProtocolBuffer at hlen
      split
      · refine iff_of_true rfl ⟨bl, rfl, ?_, ?_⟩ <;> omega
      · refine iff_of_false (fun h => nomatch h) ?_
        rintro ⟨b, hb, hle, hge⟩
        obtain rfl := Option.some.inj hb
        omega
  | cons h hs ih =>
      obtain ⟨w, c, s, htext, hfield, hw, hblank, hfline⟩ := h.split
      obtain ⟨rest, hrest⟩ := afterLine_eq body hs
      have hterm : terminators 2 0 (h.text ++ afterLine body hs) = (2, w.length) := by
        have hc : inLine c := hfline c (hfield ▸ List.mem_cons_self ..)
        rw [htext, List.append_assoc, terminators_blanks 0 hw, hfield, List.cons_append,
          terminators, if_neg (not_isEol hc), if_neg fun h => hblank h.2, Nat.zero_add]
      -- the message, as the loop meets it at the next line
      obtain ⟨pre', hwhole', hpre⟩ : ∃ pre', whole = pre' ++ (h.field ++ afterLine body hs) ∧
          pre.length + t.length + 2 + w.length = pre'.length :=
        ⟨pre ++ t ++ [cr, lf] ++ w, by rw [hwhole, afterLine, htext]; simp,
          by simp only [List.length_append, List.length_cons, List.length_nil]⟩
      have hafter : (whole ++ behind).drop pre'.length =
          h.field ++ cr :: (lf :: rest ++ behind) := by
        rw [hwhole', drop_front, hrest]
        simp
      have hfield' : h.field ≠ [] := by
        rw [hfield]
        exact List.cons_ne_nil _ _
      have hmore : pre'.length < whole.length := by
        rw [hwhole', hfield]
        simp
      have hnext : whole = pre ++ (t ++ cr :: lf :: (h.text ++ afterLine body hs)) := by
        rw [hwhole, afterLine]
        rfl
      obtain ⟨fuel, rfl⟩ : ∃ n, fuel = n + 1 := ⟨fuel - 1, by simp at hfuel; omega⟩
      have hfuel' : hs.length < fuel + 1 := by simpa using hfuel
      rw [fullMsgLines_line behind _ mb bl hnext ht hline, hterm]
      simp only
      rw [if_neg (by omega), hpre, if_neg (by omega), hafter, sameCaseless_stop (by decide), readLength]
      by_cases hlength : mb = false ∧ sameCaseless h.field hdrContentLength
      · obtain ⟨rfl, hsame⟩ := hlength
        obtain ⟨name, sep, hparts, hname, hsep⟩ := HdrLine.length_split hsame
        have hwhole'' : whole = pre' ++ name ++ sep ++ (h.lengthText ++ afterLine body hs) := by
          rw [hwhole', hparts]
          simp only [List.append_assoc]
        have hskip : (whole.drop (pre'.length + hdrContentLength.length)).takeWhile isSep = sep := by
          rw [hwhole'', List.append_assoc, List.append_assoc, ← List.drop_drop, List.drop_left,
            ← hname, List.drop_left, hrest, hsep]
        have hplace : pre'.length + hdrContentLength.length + sep.length =
            (pre' ++ name ++ sep).length := by
          rw [List.length_append, List.length_append, hname]
        have hvalue : (whole ++ behind).drop (pre' ++ name ++ sep).length =
            h.lengthText ++ afterLine body hs ++ behind := by
          rw [hwhole'', drop_front]
        rw [if_pos ⟨rfl, hsame⟩, hskip, hplace, hvalue, if_neg (by decide), if_pos hsame]
        by_cases hnil : h.lengthText = []
        · -- no number stands on this line: the loop ends, whatever is read on the next ones
          rw [if_pos hnil]
          refine iff_of_false ?_ fun ⟨b, hb, _⟩ => nomatch hb
          have hnoLine : (whole ++ behind).drop (pre' ++ name ++ sep).length =
              cr :: (lf :: rest ++ behind) := by
            rw [hvalue, hnil, hrest]
            rfl
          have hinside : (pre' ++ name ++ sep).length ≤ whole.length := by
            rw [hwhole'']
            exact (List.prefix_append _ _).length_le
          split
          · exact fun h => nomatch h
          · rw [fullMsgLines_noLine _ _ _ hinside hnoLine]
            exact fun h => nomatch h
        · rw [if_neg hnil]
          have hline' : ∀ x ∈ h.lengthText, inLine x := fun x hx => by
            refine hfline x ?_
            rw [hparts]
            exact List.mem_append_right _ (List.mem_append_right _ hx)
          cases hscan : sscanfInt (h.lengthText ++ afterLine body hs ++ behind) with
          | none => exact iff_of_false (fun h => nomatch h) fun ⟨b, hb, _⟩ => nomatch hb
          | some b =>
              obtain ⟨hlow', hhigh'⟩ := sscanfInt_range hscan
              exact @ih _ _ true _ hwhole'' hnil hline' (fun h => nomatch h) hlow' hhigh' fuel hfuel'
      · rw [if_neg hlength, ih hwhole' hfield' hfline hmb hlow hhigh fuel hfuel']
        cases mb with
        | true => rfl
        | false => rw [if_neg fun hsame => hlength ⟨rfl, hsame⟩]

/-- A request is a full method exactly when its end is found. -/
theorem isMethod_request (q : WireRequest) (behind : List UInt8)
    (hlen : q.bytes.length ≤ rtspMaxProtocolBuffer) :
    (rtspFullMsgParse (q.bytes ++ behind) q.bytes.length).isMethod ↔ q.EndFound behind := by
  have htext : q.startLine.text ≠ [] := by
    obtain ⟨c, hc, -⟩ := q.startLine.nonblank
    exact List.ne_nil_of_mem hc
  have hhead : (q.bytes ++ behind).getD 0 0 ≠ 36 := by
    obtain ⟨c, s, hcs⟩ := List.exists_cons_of_ne_nil htext
    intro h36
    refine q.start ?_
    rw [hcs]
    rw [WireRequest.bytes, hcs] at h36
    exact congrArg some h36
  rw [rtspFullMsgParse, if_neg hhead]
  have hfuel : q.headers.length < q.bytes.length + 2 := by
    have := q.length_le
    omega
  exact @fullMsgLines_isMethod q.body behind q.bytes q.headers [] _ _ false 0 rfl htext
    q.startLine.ends hfuel (fun _ => rfl) (by decide) (by decide) hlen

/-! ## What is handled of a stream -/

/-- The segments, each with the place in the stream where it begins. -/
def segments (rs : List Recv) : List (Nat × Recv) := place (fun r => r.bytes.length) 0 rs

/-- The messages, each with the place in the stream where it begins. -/
def messages (ms : List WireMessage) : List (Nat × WireMessage) :=
  place (fun m => m.bytes.length) 0 ms

/-- The requests of a stream, as they are to be handled. -/
def requests (ms : List WireMessage) : List (Nat × List UInt8) :=
  (messages ms).filterMap fun x =>
    match x.2 with
    | .request q => some (x.1, q.bytes)
    | .packet _ => none

/-- The segments are cut along the requests: each request is a segment of its
own, in which its end is found, and a segment that begins inside of a packet is
no full method. -/
structure Separate (ms : List WireMessage) (rs : List Recv) : Prop where
  whole : ∀ off q, (off, .request q) ∈ messages ms →
    ∃ r, (off, r) ∈ segments rs ∧ r.bytes = q.bytes ∧ q.EndFound r.behind
  inside : ∀ off p off' r, (off, .packet p) ∈ messages ms → (off', r) ∈ segments rs →
    off < off' → off' < off + p.bytes.length → ¬ r.isMethod

theorem mem_requests {ms : List WireMessage} {x : Nat × List UInt8} :
    x ∈ requests ms ↔ ∃ q, (x.1, .request q) ∈ messages ms ∧ x.2 = q.bytes := by
  rw [requests, List.mem_filterMap]
  constructor
  · rintro ⟨⟨off, m⟩, hm, hx⟩
    cases m with
    | request q =>
        obtain rfl := Option.some.inj hx
        exact ⟨q, hm, rfl⟩
    | packet p => cases hx
  · rintro ⟨q, hm, hx⟩
    exact ⟨_, hm, congrArg some (Prod.ext rfl hx.symm)⟩

theorem handled_rtspSvrProc (rs : List Recv) :
    (rtspSvrProc rs).handled =
      ((segments rs).filter fun x => x.2.isMethod).map fun x => (x.1, x.2.bytes) := by
  have hfold (conn : Connection) : (rs.foldl rtspSessionProcess conn).handled = conn.handled ++
      ((place (fun r => r.bytes.length) conn.received rs).filter fun x => x.2.isMethod).map
        fun x => (x.1, x.2.bytes) := by
    induction rs generalizing conn with
    | nil => exact (List.append_nil _).symm
    | cons r rs ih =>
        rw [List.foldl_cons, ih, place, List.filter_cons]
        by_cases hr : r.isMethod
        · simp [rtspSessionProcess, hr]
        · simp [rtspSessionProcess, hr]
  exact hfold ⟨0, []⟩

theorem mem_handled {rs : List Recv} {x : Nat × List UInt8} :
    x ∈ (rtspSvrProc rs).handled ↔
      ∃ r, (x.1, r) ∈ segments rs ∧ x.2 = r.bytes ∧ r.isMethod := by
  rw [handled_rtspSvrProc, List.mem_map]
  constructor
  · rintro ⟨⟨off, r⟩, hr, rfl⟩
    obtain ⟨hr, hmethod⟩ := List.mem_filter.1 hr
    exact ⟨r, hr, rfl, hmethod⟩
  · rintro ⟨r, hr, hx, hmethod⟩
    exact ⟨_, List.mem_filter.2 ⟨hr, hmethod⟩, Prod.ext rfl hx.symm⟩

theorem WireMessage.length_pos (m : WireMessage) : 0 < m.bytes.length := by
  cases m with
  | packet p => exact Nat.succ_pos _
  | request q =>
      obtain ⟨c, hc, -⟩ := q.startLine.nonblank
      rw [bytes, WireRequest.bytes, List.length_append]
      exact Nat.lt_of_lt_of_le (List.length_pos_of_mem hc) (Nat.le_add_right _ _)

theorem Recv.length_pos (r : Recv) : 0 < r.bytes.length := List.length_pos_of_ne_nil r.nonempty

/-- What is handled goes forward in the stream. -/
theorem pairwise_handled (rs : List Recv) :
    (rtspSvrProc rs).handled.Pairwise fun x y => x.1 < y.1 := by
  rw [handled_rtspSvrProc]
  refine List.Pairwise.map _ (fun x y h => h) (List.Pairwise.filter _ ?_)
  exact pairwise_place.imp fun {x y} h => by
    have := x.2.length_pos
    omega

theorem pairwise_requests (ms : List WireMessage) :
    (requests ms).Pairwise fun x y => x.1 < y.1 := by
  refine List.Pairwise.filterMap _ (fun x y h a ha b hb => ?_) pairwise_place
  have := x.2.length_pos
  have hfst {z : Nat × WireMessage} {c : Nat × List UInt8}
      (h : (match z.2 with
        | .request q => some (z.1, q.bytes)
        | .packet _ => none) = some c) : c.1 = z.1 := by
    split at h
    · exact (congrArg Prod.fst (Option.some.inj h)).symm
    · cases h
  rw [hfst ha, hfst hb]
  omega

/-- A segment that begins where a packet begins is taken to be a packet. -/
theorem not_isMethod_of_packet {ms : List WireMessage} {rs : List Recv} {off : Nat}
    {p : WirePacket} {r : Recv}
    (hstream : (rs.map Recv.bytes).flatten = (ms.map WireMessage.bytes).flatten)
    (hm : (off, .packet p) ∈ messages ms) (hr : (off, r) ∈ segments rs) : ¬ r.isMethod := by
  obtain ⟨before, after, hms, hoff⟩ := mem_place.1 hm
  obtain ⟨before', after', hrs, hoff'⟩ := mem_place.1 hr
  -- as much of the stream is in front of the one as of the other
  have hcut : (before'.map Recv.bytes).flatten ++ (r.bytes ++ (after'.map Recv.bytes).flatten) =
      (before.map WireMessage.bytes).flatten ++
        ((WireMessage.packet p).bytes ++ (after.map WireMessage.bytes).flatten) := by
    rw [hrs, hms] at hstream
    simpa using hstream
  have hlen : (before'.map Recv.bytes).flatten.length =
      (before.map WireMessage.bytes).flatten.length := by
    rw [List.length_flatten, List.length_flatten, List.map_map, List.map_map]
    exact Nat.add_left_cancel (hoff'.symm.trans hoff)
  obtain ⟨-, hrest⟩ := List.append_inj hcut hlen
  obtain ⟨c, s, hcs⟩ := List.exists_cons_of_ne_nil r.nonempty
  have hhead : c = 36 := by
    rw [hcs] at hrest
    exact (List.cons.inj hrest).1
  have hfirst : r.szBuffRecv.getD 0 0 = 36 := by
    rw [Recv.szBuffRecv, hcs, hhead]
    rfl
  rw [Recv.isMethod, rtspFullMsgParse, if_pos hfirst]
  simp only
  split <;> exact fun h => nomatch h

/-- Every segment begins in a message. -/
theorem exists_message {ms : List WireMessage} {rs : List Recv} {x : Nat × Recv}
    (hstream : (rs.map Recv.bytes).flatten = (ms.map WireMessage.bytes).flatten)
    (hx : x ∈ segments rs) :
    ∃ y ∈ messages ms, y.1 ≤ x.1 ∧ x.1 < y.1 + y.2.bytes.length := by
  refine exists_place (Nat.zero_le _) ?_
  obtain ⟨before, after, hrs, hoff⟩ := mem_place.1 hx
  have htotal : total (fun m : WireMessage => m.bytes.length) ms =
      total (fun r : Recv => r.bytes.length) rs := by
    have hlen := congrArg List.length hstream
    rw [List.length_flatten, List.length_flatten, List.map_map, List.map_map] at hlen
    exact hlen.symm
  have hpos := x.2.length_pos
  rw [htotal, hrs, total_append, total_cons]
  omega

/-- The requests of a stream are handled, each once, as they are and in their
order, exactly when the segments are cut along them. -/
theorem handled_iff_separate {ms : List WireMessage} {rs : List Recv}
    (hstream : (rs.map Recv.bytes).flatten = (ms.map WireMessage.bytes).flatten) :
    (rtspSvrProc rs).handled = requests ms ↔ Separate ms rs := by
  constructor
  · intro heq
    refine ⟨fun off q hq => ?_, fun off p off' r hp hr hlt hlt' hmethod => ?_⟩
    · have hmem : (off, q.bytes) ∈ (rtspSvrProc rs).handled := by
        rw [heq]
        exact mem_requests.2 ⟨q, hq, rfl⟩
      obtain ⟨r, hr, hbytes, hmethod⟩ := mem_handled.1 hmem
      refine ⟨r, hr, hbytes.symm, ?_⟩
      have hfits := r.fits
      rw [Recv.isMethod, Recv.szBuffRecv, ← hbytes] at hmethod
      rw [← hbytes] at hfits
      exact (isMethod_request q r.behind hfits).1 hmethod
    · -- the packet and the request that the segment would be overlap
      have hmem : (off', r.bytes) ∈ requests ms := by
        rw [← heq]
        exact mem_handled.2 ⟨r, hr, rfl, hmethod⟩
      obtain ⟨q, hq, -⟩ := mem_requests.1 hmem
      have hsame := eq_of_place hq hp hlt' (Nat.lt_add_right _ hlt)
      cases hsame
  · intro h
    have : Std.Irrefl fun x y : Nat × List UInt8 => x.1 < y.1 := ⟨fun x => Nat.lt_irrefl x.1⟩
    have : Std.Antisymm fun x y : Nat × List UInt8 => x.1 < y.1 :=
      ⟨fun x y hxy hyx => absurd (Nat.lt_trans hxy hyx) (Nat.lt_irrefl x.1)⟩
    refine (pairwise_handled rs).eq_of_mem_iff (pairwise_requests ms) fun x => ⟨fun hx => ?_,
      fun hx => ?_⟩
    · obtain ⟨r, hr, hbytes, hmethod⟩ := mem_handled.1 hx
      obtain ⟨⟨off, m⟩, hm, hle, hlt⟩ := exists_message hstream hr
      have hpos := r.length_pos
      cases m with
      | request q =>
          -- the request is a segment of its own, so it is this one
          obtain ⟨r', hr', hq, -⟩ := h.whole off q hm
          have hlt' : x.1 < off + r'.bytes.length := hq ▸ hlt
          have hsame := eq_of_place hr hr' hlt' (show off < x.1 + r.bytes.length by
            simp only at hle
            omega)
          cases hsame
          exact mem_requests.2 ⟨q, hm, hbytes.trans hq⟩
      | packet p =>
          obtain heq | hgt := Nat.eq_or_lt_of_le hle
          · simp only at heq
            subst heq
            exact absurd hmethod (not_isMethod_of_packet hstream hm hr)
          · exact absurd hmethod (h.inside _ _ _ _ hm hr hgt hlt)
    · obtain ⟨q, hq, hbytes⟩ := mem_requests.1 hx
      obtain ⟨r, hr, hrq, hend⟩ := h.whole _ _ hq
      refine mem_handled.2 ⟨r, hr, hbytes.trans hrq.symm, ?_⟩
      have hfits := r.fits
      rw [Recv.isMethod, Recv.szBuffRecv, hrq]
      rw [hrq] at hfits
      exact (isMethod_request q r.behind hfits).2 hend

/-! ## Two streams -/

/-- `OPTIONS * RTSP/1.0` and `CSeq: 1`. -/
def optionsLine : HdrLine where
  text := ['O', 'P', 'T', 'I', 'O', 'N', 'S', ' ', '*', ' ', 'R', 'T', 'S', 'P', '/', '1', '.',
    '0'].map Char.toUInt8
  ends := by decide +kernel
  nonblank := by decide

def cseqLine : HdrLine where
  text := ['C', 'S', 'e', 'q', ':', ' ', '1'].map Char.toUInt8
  ends := by decide +kernel
  nonblank := by decide

def optionsRequest : WireRequest where
  startLine := optionsLine
  headers := [cseqLine]
  body := []
  start := by decide

/-- A receiver report of eight bytes. -/
def reportPacket : WirePacket where
  channel := 1
  payload := [0x80, 0xc9, 0, 1, 0, 0, 0, 1]
  fits := by decide

/-- The bytes received at once, with nothing sent so far. -/
def recvOf (bytes : List UInt8) (h : bytes ≠ [] ∧ bytes.length ≤ rtspMaxProtocolBuffer) : Recv :=
  ⟨bytes, [], h.1, h.2⟩

/-- Two requests with a packet between them that is cut in two. -/
theorem handled_iff_separate_alongRequests :
    let ms := [.request optionsRequest, .packet reportPacket, .request optionsRequest]
    let rs := [recvOf optionsRequest.bytes (by decide),
      recvOf (reportPacket.bytes.take 6) (by decide),
      recvOf (reportPacket.bytes.drop 6) (by decide), recvOf optionsRequest.bytes (by decide)]
    (rtspSvrProc rs).handled = requests ms ∧ Separate ms rs := by
  have heq : (rtspSvrProc [recvOf optionsRequest.bytes (by decide),
      recvOf (reportPacket.bytes.take 6) (by decide), recvOf (reportPacket.bytes.drop 6) (by decide),
      recvOf optionsRequest.bytes (by decide)]).handled =
      requests [.request optionsRequest, .packet reportPacket, .request optionsRequest] := by
    rfl
  exact ⟨heq, (handled_iff_separate rfl).1 heq⟩

/-- A request that comes in two segments is not handled. -/
theorem not_handled_requests :
    ¬ ∀ (ms : List WireMessage) (rs : List Recv),
      (∀ m ∈ ms, m.bytes.length ≤ rtspMaxProtocolBuffer) →
      (rs.map Recv.bytes).flatten = (ms.map WireMessage.bytes).flatten →
      (rtspSvrProc rs).handled = requests ms := by
  intro h
  have htwo := h [.request optionsRequest]
    [recvOf (optionsRequest.bytes.take 9) (by decide),
      recvOf (optionsRequest.bytes.drop 9) (by decide)]
    (by decide) rfl
  exact absurd htwo (by decide)

end Nvr.Rtsp
