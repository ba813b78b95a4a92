import Nvr.Lib.FixedWidth
import Nvr.Storage.Device

/-!
# Reading and writing the records of a basket file

The first part of `strg_basket.c`: one writer, one reader and one check for
each of the four records of a basket file, each at the offset its index gives.
A record is accepted only under its magic number and its checksum, with one
exception kept from the source: a frame header is accepted under any magic
number but zero.

A frame header also carries two random positions of the frame and the sum of
four words of it, so that the reader can sample the data it got.
-/

namespace Nvr.Storage

open WordRecord

/-! ## The header -/

def strgBasketWriteGlobal (dev : Dev) (idx : Nat) (bg : BasketGlobal) : Bool × Dev :=
  strgWrite dev (.basket idx) (BasketGlobal.format.encode bg) basketGlobalOft

def strgBasketCheckGlobal (bg : BasketGlobal) : Option BasketGlobal :=
  if bg.magic = basketGlobalMagic then some bg else none

def strgBasketReadGlobal (dev : Dev) (idx : Nat) : Option BasketGlobal := do
  let bytes ← strgRead dev (.basket idx) basketGlobalLen basketGlobalOft
  let bg ← BasketGlobal.format.decode bytes
  strgBasketCheckGlobal bg

/-! ## The fragment table -/

def fragmentOft (bfIdx : Nat) : Nat := basketFragmentOft + basketFragmentLen * bfIdx

def strgBasketWriteFragment (dev : Dev) (idx : Nat) (bf : BasketFragment) (bfIdx : Nat) :
    Bool × Dev :=
  strgWrite dev (.basket idx) (BasketFragment.format.encode bf) (fragmentOft bfIdx)

def strgBasketCheckFragment (bf : BasketFragment) : Option BasketFragment :=
  if bf.magic = basketFragmentMagic then some bf else none

def strgBasketReadFragment (dev : Dev) (idx bfIdx : Nat) : Option BasketFragment := do
  let bytes ← strgRead dev (.basket idx) basketFragmentLen (fragmentOft bfIdx)
  let bf ← BasketFragment.format.decode bytes
  strgBasketCheckFragment bf

/-! ## The I-frame index -/

/-- The offset of an index record, in the unsigned arithmetic of `sizeof`. -/
def iframeOft (ifIdx : Int32) : Nat :=
  (UInt32.ofNat basketIframeOft + UInt32.ofNat basketIframeLen * ifIdx.toUInt32).toNat

/-- The offset of a slot within the table. -/
theorem iframeOft_eq {ifIdx : Int32} (h0 : 0 ≤ ifIdx.toInt) (h : ifIdx.toInt < basketIframeNum) :
    iframeOft ifIdx = basketIframeOft + basketIframeLen * ifIdx.toInt.toNat := by
  have hword := Int32.toNat_toUInt32_of_nonneg h0
  have hoft : (UInt32.ofNat basketIframeOft).toNat = 65576 := rfl
  have hlen : (UInt32.ofNat basketIframeLen).toNat = 44 := rfl
  rw [basketIframeNum_eq] at h
  rw [iframeOft, UInt32.toNat_add, UInt32.toNat_mul, hword, hoft, hlen, basketIframeOft_eq,
    basketIframeLen]
  omega

def strgBasketWriteIframe (dev : Dev) (idx : Nat) (r : BasketIFrame) (ifIdx : Int32) :
    Bool × Dev :=
  strgWrite dev (.basket idx) (BasketIFrame.format.encode r) (iframeOft ifIdx)

def strgBasketCheckIframe (r : BasketIFrame) : Option BasketIFrame :=
  if r.magic = basketIframeMagic then some r else none

def strgBasketReadIframe (dev : Dev) (idx : Nat) (ifIdx : Int32) : Option BasketIFrame := do
  let bytes ← strgRead dev (.basket idx) basketIframeLen (iframeOft ifIdx)
  let r ← BasketIFrame.format.decode bytes
  strgBasketCheckIframe r

/-! ## Frames -/

/-- `memcpy(&data, frame_data + off, sizeof(data))`. -/
def wordAt (data : List UInt8) (off : Nat) : UInt32 :=
  bytesWord (data.getD off 0) (data.getD (off + 1) 0) (data.getD (off + 2) 0)
    (data.getD (off + 3) 0)

/-- The four words of a frame that its header sums up. -/
def sampleSum (data : List UInt8) (pos₀ pos₁ : UInt32) : UInt32 :=
  wordAt data 4 + wordAt data (data.length - 4) + wordAt data pos₀.toNat +
    wordAt data pos₁.toNat

/-- `strg_basket_calc_frame_data_checksum`, with the two answers of `random`. -/
def strgBasketCalcFrameDataChecksum (bframe : BasketFrame) (data : List UInt8)
    (r₀ r₁ : UInt32) : BasketFrame :=
  let room := UInt32.ofNat data.length - 4
  let bframe := { bframe with pos₀ := r₀ % room, pos₁ := r₁ % room }
  if data.length < 8 then bframe
  else { bframe with dataChecksum := sampleSum data bframe.pos₀ bframe.pos₁ }

def strgBasketCheckFrameData (bframe : BasketFrame) (data : List UInt8) : Bool :=
  let room := UInt32.ofNat data.length - 4
  if bframe.pos₀ ≥ room then false
  else if bframe.pos₁ ≥ room then false
  else sampleSum data bframe.pos₀ bframe.pos₁ = bframe.dataChecksum

/-- The header as it is stored, with the samples drawn at this moment. -/
def sampledHeader (dev : Dev) (bframe : BasketFrame) (data : List UInt8) : BasketFrame :=
  strgBasketCalcFrameDataChecksum bframe data (dev.env.random (2 * dev.tick))
    (dev.env.random (2 * dev.tick + 1))

def strgBasketWriteFrame (dev : Dev) (idx : Nat) (pos : UInt32) (bframe : BasketFrame)
    (data : List UInt8) : Bool × Dev :=
  let header := strgWrite dev (.basket idx)
    (BasketFrame.format.encode (sampledHeader dev bframe data)) pos.toNat
  if header.1 then
    strgWrite header.2 (.basket idx) data (pos + UInt32.ofNat basketFrameLen).toNat
  else header

/-- `strg_basket_check_frame`: the header is refused only when its magic number
is zero. -/
def strgBasketCheckFrame (bframe : BasketFrame) : Option BasketFrame :=
  if bframe.magic ≠ 0 then some bframe else none

def strgBasketReadFrame (dev : Dev) (idx : Nat) (pos : UInt32) (buffLen : Int32) :
    Option (BasketFrame × List UInt8) := do
  let bytes ← strgRead dev (.basket idx) basketFrameLen pos.toNat
  let bframe ← BasketFrame.format.decode bytes
  let bframe ← strgBasketCheckFrame bframe
  if bframe.frameLen ≤ buffLen.toUInt32 then
    let data ← strgRead dev (.basket idx) bframe.frameLen.toNat
      (pos + UInt32.ofNat basketFrameLen).toNat
    if strgBasketCheckFrameData bframe data then some (bframe, data) else none
  else none

end Nvr.Storage
