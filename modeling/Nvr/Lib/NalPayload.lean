import Mathlib.Algebra.Group.Int.Defs
import Mathlib.Algebra.Group.Nat.Defs
import Mathlib.Tactic.Common

/-!
# H.264 over RTP, as it is received

The fixed header of an RTP packet is twelve bytes; behind it stands the
payload. A payload is a whole NAL unit, or one fragment of a NAL unit: then its
first byte is the indicator, which has the upper three bits of the NAL unit's
own first byte and the type 28, and its second byte the fragment header, which
has a bit for the first fragment, one for the last, and the type of the unit.

A receiver is a fold over the payloads. `Fragments` says what a run of payloads
has to look like to be one NAL unit in pieces; `receive_fragments` is that it is
received as that unit, and the two lemmas after it where the bits stand.
-/

namespace Rtp

/-- The marker bit. -/
def marker (packet : List UInt8) : Bool := packet.getD 1 0 &&& 0x80 != 0

/-- The sequence number. -/
def seqno (packet : List UInt8) : UInt16 :=
  UInt16.ofNat (256 * (packet.getD 2 0).toNat + (packet.getD 3 0).toNat)

def payload (packet : List UInt8) : List UInt8 := packet.drop 12

end Rtp

namespace NalPayload

/-- The type of the NAL unit or of the payload that starts with `b`. -/
def nalType (b : UInt8) : UInt8 := b &&& 0x1f

/-- The type of a payload that is one fragment. -/
def fuA : UInt8 := 28

/-- The first byte of a fragment of the unit that starts with `head`. -/
def fuIndicator (head : UInt8) : UInt8 := (head &&& 0xe0) ||| fuA

/-- The second byte of a fragment: whether it is the first, whether it is the
last, and the type of the unit. -/
def fuHeader (head : UInt8) (first last : Bool) : UInt8 :=
  (if first then 0x80 else 0) ||| (if last then 0x40 else 0) ||| nalType head

def isFirst (payload : List UInt8) : Bool := payload.getD 1 0 &&& 0x80 != 0

def isLast (payload : List UInt8) : Bool := payload.getD 1 0 &&& 0x40 != 0

/-! ## The receiver -/

/-- The units received, and the one that has been received in part. -/
structure Assembly where
  done : List (List UInt8)
  pending : Option (List UInt8)

/-- One payload. A fragment that does not follow a first one is dropped, and so
is what is neither a unit nor a fragment of one. -/
def receive (s : Assembly) : List UInt8 → Assembly
  | [] => s
  | b :: rest =>
      if 1 ≤ nalType b ∧ nalType b ≤ 23 then { s with done := s.done ++ [b :: rest] }
      else if nalType b = fuA then
        match rest with
        | [] => s
        | h :: data =>
            let pending := if h &&& 0x80 ≠ 0 then some [(b &&& 0xe0) ||| (h &&& 0x1f)] else s.pending
            match pending with
            | none => s
            | some nal =>
                if h &&& 0x40 ≠ 0 then ⟨s.done ++ [nal ++ data], none⟩
                else { s with pending := some (nal ++ data) }
      else s

/-- The units in a sequence of payloads. -/
def depacketize (payloads : List (List UInt8)) : List (List UInt8) :=
  (payloads.foldl receive ⟨[], none⟩).done

/-! ## The bits of a fragment -/

section

variable (head : UInt8) (first last : Bool)

theorem nalType_fuIndicator : nalType (fuIndicator head) = fuA := by
  obtain ⟨⟨b⟩⟩ := head
  revert b
  decide +kernel

/-- The two bytes give the unit's first byte back. -/
theorem fuIndicator_or_fuHeader :
    (fuIndicator head &&& 0xe0) ||| (fuHeader head first last &&& 0x1f) = head := by
  obtain ⟨⟨b⟩⟩ := head
  revert b first last
  decide +kernel

theorem fuHeader_first : (fuHeader head first last &&& 0x80 != 0) = first := by
  obtain ⟨⟨b⟩⟩ := head
  revert b first last
  decide +kernel

theorem fuHeader_last : (fuHeader head first last &&& 0x40 != 0) = last := by
  obtain ⟨⟨b⟩⟩ := head
  revert b first last
  decide +kernel

@[simp] theorem isFirst_fragment (chunk : List UInt8) :
    isFirst (fuIndicator head :: fuHeader head first last :: chunk) = first :=
  fuHeader_first head first last

@[simp] theorem isLast_fragment (chunk : List UInt8) :
    isLast (fuIndicator head :: fuHeader head first last :: chunk) = last :=
  fuHeader_last head first last

end

/-! ## One unit -/

/-- A payload that is a whole unit. -/
theorem receive_single {b : UInt8} {rest : List UInt8} (s : Assembly)
    (h : 1 ≤ nalType b ∧ nalType b ≤ 23) :
    receive s (b :: rest) = { s with done := s.done ++ [b :: rest] } := if_pos h

/-- `payloads` are the unit that starts with `head`, from some fragment on:
`first` says whether from the first one, and `data` is what is left of the unit
behind its first byte. -/
inductive Fragments (head : UInt8) : Bool → List UInt8 → List (List UInt8) → Prop
  | last (first : Bool) (data : List UInt8) :
      Fragments head first data [fuIndicator head :: fuHeader head first true :: data]
  | more (first : Bool) (chunk : List UInt8) {data : List UInt8} {payloads : List (List UInt8)} :
      Fragments head false data payloads →
        Fragments head first (chunk ++ data)
          ((fuIndicator head :: fuHeader head first false :: chunk) :: payloads)

/-- `nal` is what there is of a unit before its next fragment: its first byte
alone, if that is the first fragment, and else what is pending. -/
def Assembly.Before (s : Assembly) (head : UInt8) : Bool → List UInt8 → Prop
  | true, nal => nal = [head]
  | false, nal => s.pending = some nal

/-- One fragment: it starts a unit or adds to the pending one, and ends it or
leaves it pending. -/
theorem receive_fragment (s : Assembly) (head : UInt8) (first last : Bool)
    (data nal : List UInt8) (hpending : s.Before head first nal) :
    receive s (fuIndicator head :: fuHeader head first last :: data) =
      if last then ⟨s.done ++ [nal ++ data], none⟩
      else { s with pending := some (nal ++ data) } := by
  have htype : nalType (fuIndicator head) = fuA := nalType_fuIndicator head
  have hfirst := fuHeader_first head first last
  have hlast := fuHeader_last head first last
  have hsome : (if fuHeader head first last &&& 0x80 ≠ 0 then
      some [(fuIndicator head &&& 0xe0) ||| (fuHeader head first last &&& 0x1f)]
      else s.pending) = some nal := by
    rw [fuIndicator_or_fuHeader]
    cases first with
    | true => rw [if_pos (by simpa using hfirst), show nal = [head] from hpending]
    | false =>
        rw [if_neg (by simpa using hfirst)]
        exact hpending
  rw [receive, if_neg (by rw [htype]; decide), if_pos htype]
  simp only [hsome]
  cases last with
  | true => rw [if_pos (by simpa using hlast), if_pos rfl]
  | false => rw [if_neg (by simpa using hlast), if_neg Bool.false_ne_true]

/-- The fragments of a unit are received as that unit. The induction is on the
fragments; what has been received of the unit is pending. -/
theorem receive_fragments {head : UInt8} {first : Bool} {data : List UInt8}
    {payloads : List (List UInt8)} (h : Fragments head first data payloads) :
    ∀ (s : Assembly) (nal : List UInt8), s.Before head first nal →
      payloads.foldl receive s = ⟨s.done ++ [nal ++ data], none⟩ := by
  induction h with
  | last first data =>
      intro s nal hpending
      rw [List.foldl_cons, receive_fragment s head first true data nal hpending]
      rfl
  | more first chunk _ ih =>
      intro s nal hpending
      have hnext : Assembly.Before { s with pending := some (nal ++ chunk) } head false
          (nal ++ chunk) := rfl
      rw [List.foldl_cons, receive_fragment s head first false chunk nal hpending,
        if_neg Bool.false_ne_true, ih _ _ hnext, List.append_assoc]

/-- The first-bit is on the first fragment and on no other. -/
theorem Fragments.map_isFirst {head : UInt8} {first : Bool} {data : List UInt8}
    {payloads : List (List UInt8)} (h : Fragments head first data payloads) :
    payloads.map isFirst = first :: List.replicate (payloads.length - 1) false := by
  induction h with
  | last first data => simp
  | @more first chunk data payloads h ih =>
      rw [List.map_cons, ih, isFirst_fragment]
      cases h <;> simp [List.replicate_succ]

/-- The last-bit is on the last fragment and on no other. -/
theorem Fragments.map_isLast {head : UInt8} {first : Bool} {data : List UInt8}
    {payloads : List (List UInt8)} (h : Fragments head first data payloads) :
    payloads.map isLast = List.replicate (payloads.length - 1) false ++ [true] := by
  induction h with
  | last first data => simp
  | @more first chunk data payloads h ih =>
      rw [List.map_cons, ih, isLast_fragment]
      cases h <;> simp [List.replicate_succ]

end NalPayload
