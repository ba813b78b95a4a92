import Nvr.Storage.Basket

/-!
# Playing a fragment back

The read half of `strg_basket.c`. A reader opens a fragment at one of its index
records and then asks for frames, either in the order they were stored or from
index record to index record. While it is open the basket carries
`USE_STATUS_READING`, counted by `read_ref`.
-/

namespace Nvr.Storage

/-- `sizeof(StorageFrameHdr)`. -/
def storageFrameHdrLen : Int32 := 8

/-- The basket with one more reader. -/
def BasketGlobalInfo.addReader (bgi : BasketGlobalInfo) : BasketGlobalInfo :=
  { bgi with
    bg := { bgi.bg with status := bgi.bg.status ||| useStatusReading }
    readRef := bgi.readRef + 1 }

/-- The basket with one reader less; the last one takes the flag along. -/
def BasketGlobalInfo.dropReader (bgi : BasketGlobalInfo) : BasketGlobalInfo :=
  { bgi with
    bg :=
      if bgi.readRef - 1 = 0 then
        { bgi.bg with status := bgi.bg.status &&& ~~~useStatusReading }
      else bgi.bg
    readRef := bgi.readRef - 1 }

/-- `sfi` as `strg_basket_read_start` fills it. -/
def BasketFragment.info (bf : BasketFragment) : StorageFragmentInfo where
  beginTime := bf.beginTime
  endTime := bf.endTime
  totalFrameCnt := bf.totalFrameCnt
  fragmentSize := bf.fragmentSize.toInt32
  recordType := bf.recordType

def strgBasketReadStart (dev : Dev) (bgi : BasketGlobalInfo) (q : RecordQueryInfo) :
    Option (BasketReadInfo × StorageFragmentInfo) × Dev × BasketGlobalInfo :=
  if q.bfIdx.toUInt32 < bgi.bg.fragmentNum then
    match bgi.bfList[q.bfIdx.toUInt32.toNat]? with
    | none => (none, dev, bgi)
    | some bf =>
        let opened := strgBasketOpen dev bgi.basketIdx
        match opened.1 with
        | none => (none, opened.2, bgi)
        | some bfi =>
            match strgBasketReadIframe opened.2 bgi.basketIdx q.beginIframeIdx with
            | none => (none, opened.2, bgi)
            | some r =>
                (some ({ bgi := bfi.bgi
                         bf := q.bfIdx.toUInt32.toNat
                         beginIframeIdx := q.beginIframeIdx
                         iframeIdx := q.beginIframeIdx
                         iframeNum := q.iframeNum
                         readPos := r.framePos.toInt32
                         readCnt := 0
                         beginPos := r.framePos.toInt32
                         fragmentSize := q.fragmentSize }, bf.info),
                  opened.2, bgi.addReader)
  else (none, dev, bgi)

/-- `strg_basket_read_stop`. -/
def strgBasketReadStop (bgi : BasketGlobalInfo) : BasketGlobalInfo := bgi.dropReader

/-- What `strg_basket_read` gives back: -1, 0, or a frame with its time
stamp. -/
inductive ReadResult where
  | error
  | done
  | frame (ts : Timeval) (data : List UInt8)
  deriving DecidableEq, Repr

/-- How many index records a command moves by, once something was read. -/
def StorageReadCmd.iframeOft : StorageReadCmd → Option Int32
  | .forward1Iframe => some 1
  | .forward2Iframe => some 2
  | .forward3Iframe => some 3
  | .forward4Iframe => some 4
  | .back1Iframe => some (-1)
  | .back2Iframe => some (-2)
  | .back3Iframe => some (-3)
  | .back4Iframe => some (-4)
  | _ => none

/-- The frame types that end the search of a command. -/
def StorageReadCmd.wants (cmd : StorageReadCmd) (frameType : UInt32) : Bool :=
  match cmd with
  | .forwardVideoFrame =>
      frameType = FrameType.i.code ∨ frameType = FrameType.p.code ∨
        frameType = FrameType.b.code
  | .forwardAudioFrame => frameType = FrameType.a.code
  | _ => true

/-- The cursor behind a frame read in stored order. -/
def BasketReadInfo.pastFrame (bri : BasketReadInfo) (bframe : BasketFrame) (data : List UInt8) :
    BasketReadInfo :=
  { bri with
    iframeIdx := if bframe.frameType = FrameType.i.code then bri.iframeIdx + 1 else bri.iframeIdx
    readPos := bri.readPos + (UInt32.ofNat basketFrameLen + UInt32.ofNat data.length).toInt32
    readCnt := bri.readCnt + 1 }

/-- The cursor behind the frame of an index record. -/
def BasketReadInfo.pastRecord (bri : BasketReadInfo) (oft : Int32) (r : BasketIFrame)
    (data : List UInt8) : BasketReadInfo :=
  { bri with
    iframeIdx := bri.iframeIdx + oft
    readPos :=
      (r.framePos + (UInt32.ofNat basketFrameLen + UInt32.ofNat data.length)).toInt32
    readCnt := bri.readCnt + 1 }

/-- The loop of `strg_basket_read` over frames in stored order, up to the first
frame the command wants. A frame takes `BASKET_FRAME_LEN` bytes at least and is
inside the file, which bounds the rounds. -/
def readForward (dev : Dev) (idx : Nat) (cmd : StorageReadCmd) (buffLen : Int32) :
    Nat → BasketReadInfo → ReadResult × BasketReadInfo
  | 0, bri => (.error, bri)
  | fuel + 1, bri =>
      if bri.readPos ≥ bri.beginPos + bri.fragmentSize then (.done, bri)
      else
        match strgBasketReadFrame dev idx bri.readPos.toUInt32
            (buffLen - storageFrameHdrLen) with
        | none => (.error, bri)
        | some (bframe, data) =>
            if cmd.wants bframe.frameType then
              (.frame bframe.ts data, bri.pastFrame bframe data)
            else readForward dev idx cmd buffLen fuel (bri.pastFrame bframe data)

/-- Rounds enough for every frame of a basket. -/
def readRounds : Nat := basketSize / basketFrameLen + 1

/-- `strg_basket_read` for the commands that move along the index. -/
def readAlongIndex (dev : Dev) (bgi : BasketGlobalInfo) (bri : BasketReadInfo)
    (oft : Int32) (buffLen : Int32) : ReadResult × BasketReadInfo :=
  let bf := bgi.bfList.getD bri.bf default
  if bri.iframeIdx + oft < 0 ∨ bri.iframeIdx + oft ≥ bf.firstIframeIdx + bri.iframeNum then
    (.done, bri)
  else
    match strgBasketReadIframe dev bgi.basketIdx (bri.iframeIdx + oft) with
    | none => (.error, bri)
    | some r =>
        match strgBasketReadFrame dev bgi.basketIdx r.framePos
            (buffLen - storageFrameHdrLen) with
        | none => (.error, bri)
        | some (bframe, data) =>
            (.frame bframe.ts data, bri.pastRecord oft r data)

def strgBasketRead (dev : Dev) (bgi : BasketGlobalInfo) (bri : BasketReadInfo)
    (cmd : StorageReadCmd) (buffLen : Int32) : ReadResult × BasketReadInfo :=
  if buffLen > 0 then
    match cmd with
    | .normal => readForward dev bgi.basketIdx .normal buffLen readRounds bri
    | .forwardVideoFrame =>
        readForward dev bgi.basketIdx .forwardVideoFrame buffLen readRounds bri
    | .forwardAudioFrame =>
        let bf := bgi.bfList.getD bri.bf default
        if bf.recordType &&& recordAudioG711a = 0 ∧ bf.recordType &&& recordAudioG711u = 0 then
          (.error, bri)
        else readForward dev bgi.basketIdx .forwardAudioFrame buffLen readRounds bri
    | _ =>
        if bri.readCnt = 0 then readAlongIndex dev bgi bri 0 buffLen
        else
          match cmd.iframeOft with
          | none => (.error, bri)
          | some oft => readAlongIndex dev bgi bri oft buffLen
  else (.error, bri)

/-- What `n` calls in a row with the same command give back. -/
def playback (dev : Dev) (bgi : BasketGlobalInfo) (cmd : StorageReadCmd) (buffLen : Int32) :
    Nat → BasketReadInfo → List ReadResult
  | 0, _ => []
  | n + 1, bri =>
      let read := strgBasketRead dev bgi bri cmd buffLen
      read.1 :: playback dev bgi cmd buffLen n read.2

end Nvr.Storage
